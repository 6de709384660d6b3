import ApiDocs.Proofs.Example.Folder
import ApiDocs.Proofs.Run.Documented
import ApiDocs.Proofs.Run.Failures
import ApiDocs.Proofs.Run.Scratch

/-!
# The site is only touched by a verified run

Documenting a project changes nothing.  Checking its examples works in their folder: the
files are written there, and the folder is removed again.  Both stages come before the site
is changed, so a build that fails in one of them leaves the site as it was.
-/

namespace ApiDocs

namespace Project

/-- Whether wildcards play no part in the place of the site. -/
structure IsPlain (project : Project) : Prop where
  root : Wildcard.hasMagic project.root.text = false
  output : Wildcard.hasMagic project.configured.outputDir = false

instance (project : Project) : Decidable project.IsPlain :=
  decidable_of_iff
    (Wildcard.hasMagic project.root.text = false ∧
      Wildcard.hasMagic project.configured.outputDir = false)
    ⟨fun ⟨root, output⟩ => ⟨root, output⟩, fun ⟨root, output⟩ => ⟨root, output⟩⟩

/-- Without wildcards in a project there are none in the path of its site. -/
theorem IsRead.hasMagic_output {links : Bool} {environment : Environment} {world : World links}
    {project : Project}
    (isRead : project.IsRead environment world) (plain : project.IsPlain) :
    Wildcard.hasMagic project.output.text = false :=
  isRead.absolute.hasMagic_append_eq_false plain.root plain.output

/-- Whether no declared name has a slash. -/
def HasNoSlash (project : Project) : Prop :=
  ∀ module ∈ project.modules, ∀ name ∈ Example.declaredNames module, Symbol.char '/' ∉ name

instance (project : Project) : Decidable project.HasNoSlash :=
  inferInstanceAs (Decidable (∀ module ∈ project.modules, _))

end Project

namespace Run

open Disk (nowhere)
open Example (folderOf IsInFolder)
open World (Evolves OnlyLogs)

variable {links : Bool} {environment : Environment} {output : CleanPath} {settings : Settings}
variable {examples : List TextFile} {free : Location → Prop}

/-! ## Checking the examples -/

section

variable {files : Location → Prop} (absolute : output.IsAbsolute) (proper : output.IsProper)
  (same : settings.outputDir = output.text)

include absolute proper same

/-- The files for the type checker are written in the folder of the examples. -/
theorem isInFolder_of_mem_checkerFiles {options : Text} {file : TextFile}
    (member : file ∈ Example.checkerFiles (Example.folder settings.outputDir) options examples) :
    IsInFolder output file := by
  rw [same] at member
  rcases List.mem_cons.mp member with rfl | isOptions
  · have front : ("index.ts" : Text) = "index" ++ (".ts" : Text) := by decide
    exact Example.isInFolder_of_name ".ts" absolute proper (by decide) (by decide) (by decide)
      front rfl
  · obtain rfl := List.mem_singleton.mp isOptions
    have front : ("tsconfig.json" : Text) = "tsconfig" ++ (".json" : Text) := by decide
    exact Example.isInFolder_of_name ".json" absolute proper (by decide) (by decide) (by decide)
      front rfl

variable (plain : Wildcard.hasMagic output.text = false)
  (clear : ∀ place, onWayOrBelow (folderOf output) place → free place)

include plain clear

theorem keeps_removeFolder :
    Keeps (Provided (World.IsFree free)
      (Evolves (belowPlace (folderOf output)) (belowPlace (folderOf output))))
      (remove environment (Example.folder settings.outputDir) : RunOn links Unit) := by
  rw [same, Example.folder_eq absolute proper]
  refine keeps_remove absolute (Example.isProper_folderOf proper) ?_
    ((passesOnly_onWayOrBelow _).mono clear)
  rw [folderOf, absolute.hasMagic_below, plain]
  decide

/-- Checking the examples changes their files only, and takes away only their folder. -/
theorem keeps_checkExamples (command : Option Text)
    (wide : ∀ place, belowPlace (folderOf output) place → files place)
    (written : ∀ file ∈ examples, IsWrittenIn files file)
    (passes : ∀ file ∈ examples, PassesOnly free (.ofText file.path)) :
    Keeps (Provided (World.IsFree free) (Evolves files (belowPlace (folderOf output))))
      (checkExamples environment command examples settings : RunOn links Unit) := by
  have writes {list : List TextFile} {schedule : WriteSchedule}
      (written : ∀ file ∈ list, IsWrittenIn files file)
      (passes : ∀ file ∈ list, PassesOnly free (.ofText file.path)) :
      Keeps (Provided (World.IsFree free) (Evolves files (belowPlace (folderOf output))))
        (writeAll examplesPart list schedule : RunOn links Unit) :=
    (keeps_writeAll examplesPart written passes).widen_ifFree (fun _ => id) fun _ => False.elim
  have frame : IsFrame (Provided (World.IsFree free)
      (@Evolves links files (belowPlace (folderOf output)))) :=
    (IsFrame.evolves _ _).provided fun _ _ evolves => evolves.isFree
  refine frame.checkExamples (writes written passes) (fun options => ?_) command
    ((keeps_removeFolder absolute proper same plain clear).widen_ifFree wide fun _ => id)
  have inFolder {file : TextFile} (member : file ∈
      Example.checkerFiles (Example.folder settings.outputDir) options examples) :=
    isInFolder_of_mem_checkerFiles absolute proper same member
  exact writes (fun file member => ((inFolder member).isWrittenIn absolute proper).mono wide)
    fun file member => ((inFolder member).passesOnly absolute proper).mono clear

end

variable {project : Project} {world after : World links} {path : Text} {failure : Failure}

theorem isAbsolute_of_mem_examples (isRead : project.IsRead environment world) {file : TextFile}
    (member : file ∈ project.examples) : Path.isAbsolute file.path = true := by
  obtain ⟨original, isOriginal, same, -⟩ := Example.exists_of_mem_prepare member
  rw [same]
  exact Example.isAbsolute_of_mem_harvest isRead.absolute_output isOriginal

/-- The files of the examples of a project lie in their folder, if no declared name has a slash. -/
theorem isInFolder_of_mem_examples (isRead : project.IsRead environment world)
    (names : project.HasNoSlash) {file : TextFile} (member : file ∈ project.examples) :
    IsInFolder project.output file := by
  obtain ⟨original, isOriginal, same, -⟩ := Example.exists_of_mem_prepare member
  rw [IsInFolder, same]
  refine Example.isInFolder_of_mem_harvest isRead.absolute_output isRead.proper_output
    (fun module inModules part inPath => (isRead.isName_of_mem_path inModules inPath).whole)
    (fun module inModules entry isDocumented => ?_) isOriginal
  exact Example.hasNoSlash_of_mem_documented (isRead.slash_not_mem_name inModules)
    (names module inModules) isDocumented

section

variable {files : Location → Prop} (isRead : project.IsRead environment world)
  (plain : project.IsPlain)
  (clear : ∀ place, onWayOrBelow (folderOf project.output) place → free place)
  (wide : ∀ place, belowPlace (folderOf project.output) place → files place)
  (written : ∀ file ∈ project.examples, IsWrittenIn files file)
  (passes : ∀ file ∈ project.examples, PassesOnly free (.ofText file.path))

include isRead plain clear wide written passes

/--
Checking the examples of a project changes their files only, and takes away only their folder.
-/
theorem keeps_verify :
    Keeps (Provided (World.IsFree free) (Evolves files (belowPlace (folderOf project.output))))
      (verify environment project : RunOn links Unit) := by
  have outputDir : project.settings.outputDir = project.output.text := rfl
  exact .bind (Evolves.isKept_ifFree _ _ _) ((keeps_log _ _ _).ifFree _ _ _) fun _ =>
    keeps_checkExamples isRead.absolute_output isRead.proper_output outputDir
      (isRead.hasMagic_output plain) clear none wide written passes

/-- Planning changes the files of the examples only, and takes away only their folder. -/
theorem keeps_plan :
    Keeps (Provided (World.IsFree free) (Evolves files (belowPlace (folderOf project.output))))
      (plan environment project : RunOn links (List TextFile)) := by
  have kept := @Evolves.isKept_ifFree links free files (belowPlace (folderOf project.output))
  exact .bind kept (keeps_verify isRead plain clear wide written passes) fun _ =>
    .bind kept ((keeps_log _ _ _).ifFree _ _ _) fun _ => keeps_siteFiles kept _ _

end

theorem ending_build_of_documented_error {last : World links}
    (ended : ending (documented environment path) world = (.error failure, last)) :
    ending (build environment path) world = (.error failure, last) := by
  rw [build_eq, planned]
  exact ending_bind_of_error (ending_bind_of_error ended _) _

/-- A build of a documented project that fails has failed to plan, or to publish the plan. -/
theorem ending_plan_or_publish {middle : World links}
    (ended : ending (documented environment path) world = (.ok project, middle))
    (failed : ending (build environment path) world = (.error failure, after)) :
    ending (plan environment project) middle = (.error failure, after) ∨
      ∃ files last, ending (plan environment project) middle = (.ok files, last) ∧
        ending (publish environment project files) last = (.error failure, after) := by
  rw [build_eq, planned, bind_assoc, ending_bind_of_ok ended, bind_assoc, ending_bind] at failed
  rcases planned : ending (plan environment project) middle with ⟨result, last⟩
  rw [planned] at failed
  cases result with
  | error other =>
      cases failed
      exact .inl rfl
  | ok files =>
      right
      refine ⟨files, last, rfl, ?_⟩
      change ending (publish environment project files >>= fun _ => pure project.modules) last = _
        at failed
      rw [ending_bind] at failed
      rcases published : ending (publish environment project files) last with ⟨result, final⟩
      rw [published] at failed
      cases result with
      | ok value => cases failed
      | error other =>
          cases failed
          rfl

/-- A build of a documented project that succeeds has published what it planned. -/
theorem exists_plan_and_publish {middle : World links} {modules : List Module}
    (ended : ending (documented environment path) world = (.ok project, middle))
    (built : ending (build environment path) world = (.ok modules, after)) :
    modules = project.modules ∧ ∃ files last,
      ending (plan environment project) middle = (.ok files, last) ∧
        ending (publish environment project files) last = (.ok (), after) := by
  rw [build_eq, planned, bind_assoc, ending_bind_of_ok ended, bind_assoc] at built
  obtain ⟨files, last, planned, rest⟩ := ending_bind_eq_ok_iff.mp built
  change ending (publish environment project files >>= fun _ => pure project.modules) last = _
    at rest
  obtain ⟨value, final, published, rest⟩ := ending_bind_eq_ok_iff.mp rest
  cases rest
  exact ⟨rfl, files, last, planned, published⟩

/--
A build that fails changes nothing if it fails for its settings or its sources, and nothing
outside of the folder of the examples if it fails for its examples or while it plans, unless a link
stands on the way to that folder or in it.  Log files that are open are always written to.
-/
theorem build_failed_before_site
    (failed : ending (build environment path) world = (.error failure, after)) :
    ((∃ problem, failure = .settings problem) ∨ (∃ errors, failure = .rejected errors) ∨
        (∃ other last, ending (documented environment path) world = (.error other, last)) →
      (∀ place, ¬world.IsLogged place →
          after.disk.entryAt place = world.disk.entryAt place) ∧
        (world.openLogs = [] → after.disk = world.disk) ∧ after.calls = world.calls) ∧
    ∀ project middle, ending (documented environment path) world = (.ok project, middle) →
      project.IsPlain → project.HasNoSlash →
      world.IsFree (onWayOrBelow (folderOf project.output)) →
      (∃ report, failure = .examples report) ∨
        (∃ other last, ending (plan environment project) middle = (.error other, last)) →
      ∀ place, ¬Disk.isWithin (folderOf project.output).place place → ¬world.IsLogged place →
        after.disk.file? place = world.disk.file? place := by
  have onlyLogs : OnlyLogs world (ending (documented environment path) world).2 :=
    keeps_documented path world
  constructor
  · intro cause
    rcases ended : ending (documented environment path) world with ⟨result, middle⟩
    rw [ended] at onlyLogs
    cases result with
    | error other =>
        rw [ending_build_of_documented_error ended] at failed
        cases failed
        exact ⟨onlyLogs.entry, onlyLogs.disk, onlyLogs.calls⟩
    | ok project =>
        have ofCheck : failure.IsOfCheck := by
          rcases ending_plan_or_publish ended failed with planned | ⟨files, last, -, published⟩
          · exact failsOnly_plan environment project _ _ _ planned
          · exact (failsOnly_publish environment project files _ _ _ published).isOfCheck
        rcases cause with ⟨problem, rfl⟩ | ⟨errors, rfl⟩ | ⟨other, last, alsoEnded⟩
        · exact ofCheck.elim
        · exact ofCheck.elim
        · rw [ended] at alsoEnded
          cases alsoEnded
  · intro project middle ended plain names isFree cause place outside notLogged
    rw [ended] at onlyLogs
    have planFailed : ending (plan environment project) middle = (.error failure, after) := by
      rcases ending_plan_or_publish ended failed with planned | ⟨files, last, planned, published⟩
      · exact planned
      · have trouble := failsOnly_publish environment project files _ _ _ published
        rcases cause with ⟨report, rfl⟩ | ⟨other, final, alsoPlanned⟩
        · exact trouble.elim
        · rw [planned] at alsoPlanned
          cases alsoPlanned
    have isRead := isRead_of_ending_documented ended
    have inFolder {file : TextFile} (member : file ∈ project.examples) :=
      isInFolder_of_mem_examples isRead names member
    have planned := keeps_plan isRead plain (fun _ => id) (fun _ => id)
      (fun file member => (inFolder member).isWrittenIn isRead.absolute_output isRead.proper_output)
      (fun file member => (inFolder member).passesOnly isRead.absolute_output isRead.proper_output)
      middle (onlyLogs.isFree isFree)
    rw [planFailed] at planned
    have evolves := (onlyLogs.evolves _ _).trans planned
    exact evolves.file place outside notLogged

/--
A world with one project in the present folder, and with some entries.  Its settings give
the folder of the sources and the folder of the site, and ask for no versions.
-/
def demoWorld {links : Bool} (sourceDir outputDir : Text)
    (entries : List (Location × Entry links)) : World links :=
  let settings :=
    "\x7b\"enforceVersion\":false,\"srcDir\":\"" ++ sourceDir ++ "\",\"outDir\":\"" ++ outputDir ++
      "\"\x7d"
  { here := ["p"]
    disk :=
      { entries :=
          [([("p" : Text)], .folder),
            ([("p" : Text), "package.json"],
              .file (Text.Utf8.encode "\x7b\"name\":\"demo\",\"homepage\":\"h\"\x7d")),
            ([("p" : Text), "tsdocgen.json"], .file (Text.Utf8.encode settings))] ++ entries } }

/-- A project with an example in its one source, and with a home page of its own. -/
def exampleWorld : World :=
  demoWorld "src" "docs"
    [([("p" : Text), "src"], .folder),
      ([("p" : Text), "src", "a.ts"],
        .file (Text.Utf8.encode "/**\n * @example\n * f()\n */\nimport 'x'\n")),
      ([("p" : Text), "docs"], .folder),
      ([("p" : Text), "docs", "index.md"], .file [104])]

/-- An environment in which every source reads as an empty one. -/
def emptySources : Environment := { parse := fun _ => default }

/-- An environment that finds the example, and no type checker. -/
def withoutChecker : Environment :=
  { parse := fun _ =>
      { hasError := false
        root := .mk "program" true 0 38 none
          [.mk "comment" true 0 26 none [], .mk "import_statement" true 27 37 none []] }
    verdict := .missing }

/-- The same project with a link beside its home page. -/
def linkedSite : World true :=
  demoWorld "src" "docs"
    [([("p" : Text), "src"], .folder),
      ([("p" : Text), "src", "a.ts"],
        .file (Text.Utf8.encode "/**\n * @example\n * f()\n */\nimport 'x'\n")),
      ([("p" : Text), "docs"], .folder),
      ([("p" : Text), "docs", "index.md"], .file [104]),
      ([("p" : Text), "docs", "assets"], .link "../src")]

/-- Without a type checker the build fails for the examples, and the home page stays as it was. -/
theorem build_without_checker_keeps_home :
    ∃ report after, ending (build withoutChecker ".") linkedSite = (.error (.examples report), after) ∧
      after.disk.file? ["p", "docs", "index.md"] = some [104] := by
  have failing : fails (fun failure => failure matches .examples _)
      (build withoutChecker ".") linkedSite = true := by
    decide +kernel
  have reading : succeeds (fun project _ => decide (project.IsPlain ∧ project.HasNoSlash ∧
      (∀ pair ∈ linkedSite.disk.entries, pair.2.target?.isSome = true →
        ¬onWayOrBelow (folderOf project.output) pair.1) ∧
      ¬Disk.isWithin (folderOf project.output).place ["p", "docs", "index.md"]))
      (documented withoutChecker ".") linkedSite = true := by
    decide +kernel
  obtain ⟨failure, after, failed, ofExamples⟩ := exists_of_fails failing
  obtain ⟨project, middle, read, known⟩ := exists_of_succeeds reading
  obtain ⟨plain, names, elsewhere, outside⟩ := of_decide_eq_true known
  cases failure with
  | examples report =>
      have noLog : ¬linkedSite.IsLogged ["p", "docs", "index.md"] :=
        World.not_isLogged_of_noLogs rfl _
      have same := (build_failed_before_site failed).2 project middle read plain names
        (World.isFree_of_entries elsewhere) (.inl ⟨report, rfl⟩) ["p", "docs", "index.md"] outside noLog
      exact ⟨report, after, failed, same.trans (by decide +kernel)⟩
  | settings | rejected | resource | fault => cases ofExamples

/-- A project whose one source has no documentation, with a log file beside it that is open. -/
def loggedWorld : World :=
  (ending (configureLog false (some "run.log"))
    { here := ["p"]
      disk :=
        { entries :=
            [([("p" : Text)], .folder),
              ([("p" : Text), "package.json"],
                .file (Text.Utf8.encode "\x7b\"name\":\"demo\",\"homepage\":\"h\"\x7d")),
              ([("p" : Text), "src"], .folder),
              ([("p" : Text), "src", "a.ts"], .file (Text.Utf8.encode "import 'x'\n"))] } }).2

/-- A project whose folder of examples is a link to its sources. -/
def examplesInSources : World true :=
  demoWorld "src" "docs"
    [([("p" : Text), "src"], .folder),
      ([("p" : Text), "src", "index.ts"],
        .file (Text.Utf8.encode "/**\n * @example\n * f()\n */\nimport 'x'\n")),
      ([("p" : Text), "docs"], .folder),
      ([("p" : Text), "docs", "examples"], .link "../src")]

/--
A build whose sources are rejected writes to the log file that is open.  One that fails for its
examples writes to where the folder of the examples links.
-/
theorem rejected_build_writes_log :
    (∃ errors after, ending (build emptySources ".") loggedWorld = (.error (.rejected errors), after) ∧
      loggedWorld.disk.file? ["p", "run.log"] = some [] ∧
      after.disk.file? ["p", "run.log"] ≠ some []) ∧
    ∃ report after,
      ending (build withoutChecker ".") examplesInSources = (.error (.examples report), after) ∧
      after.disk.file? ["p", "src", "index.ts"] ≠
        examplesInSources.disk.file? ["p", "src", "index.ts"] := by
  constructor
  · have failing : fails (fun failure => failure matches .rejected _)
        (build emptySources ".") loggedWorld = true := by
      decide +kernel
    have written : (ending (build emptySources ".") loggedWorld).2.disk.file? ["p", "run.log"] ≠
        some [] := by
      decide +kernel
    obtain ⟨failure, after, failed, known⟩ := exists_of_fails failing
    rw [failed] at written
    cases failure with
    | rejected errors => exact ⟨errors, after, failed, by decide +kernel, written⟩
    | settings | examples | resource | fault => cases known
  · have failing : fails (fun failure => failure matches .examples _)
        (build withoutChecker ".") examplesInSources = true := by
      decide +kernel
    have replaced : (ending (build withoutChecker ".") examplesInSources).2.disk.file?
        ["p", "src", "index.ts"] ≠ examplesInSources.disk.file? ["p", "src", "index.ts"] := by
      decide +kernel
    obtain ⟨failure, after, failed, known⟩ := exists_of_fails failing
    rw [failed] at replaced
    cases failure with
    | examples report => exact ⟨report, after, failed, replaced⟩
    | settings | rejected | resource | fault => cases known

end Run

end ApiDocs
