import ApiDocs.Proofs.Run.TwinChecks

/-!
# A check does not depend on where the project stands

The same project in two places is read with the same settings and the same sources, and a
check of it ends alike in both: with the same modules, or with failures of one kind.  Two
things may stand in the way: a pattern that leaves sources out because of the folders above
the project, and a path of the project that is itself a pattern.  Both places are on disks without
links, since a link may point from a project to what stands beside it.
-/

namespace ApiDocs

open Disk (Fits HoldSame)
open World (AreTwins Beside OnlyLogs)

/-- What a run reads of a project before it parses the sources. -/
structure Gathered where
  root : CleanPath
  configured : Settings
  files : List TextFile

namespace Gathered

/-- The same settings and the same sources, perhaps of a project at another place. -/
def Alike (gathered gathered' : Gathered) : Prop :=
  gathered.configured = gathered'.configured ∧ gathered.files = gathered'.files

/-- What was read of the same project at two places. -/
def StandAt (root root' : CleanPath) (gathered gathered' : Gathered) : Prop :=
  gathered.root = root ∧ gathered' = { gathered with root := root' }

end Gathered

/-- The same project at two places. -/
def Project.StandAt (root root' : CleanPath) (project project' : Project) : Prop :=
  project.root = root ∧ project' = project.movedTo root'

namespace Run

variable {environment : Environment} {world world' after after' : World} {path path' : Text}
variable {root root' : CleanPath}

/-- Reads the settings and the sources of a project. -/
def gathered (environment : Environment) (path : Text) : Run Gathered := do
  let root ← projectRoot path
  let configured ← configured root
  let files ← readSources environment root (configured.within root)
  return { root, configured, files }

/-- A project is documented by parsing what was read of it. -/
theorem documented_eq (environment : Environment) (path : Text) :
    documented environment path =
      (do
        let gathered ← gathered environment path
        let modules ← parseSources environment (gathered.configured.within gathered.root)
          gathered.files
        return { root := gathered.root, configured := gathered.configured, modules }) := by
  simp only [documented, gathered, bind_assoc, pure_bind]

/-- A check that fails for its sources fails before the examples are checked. -/
theorem ending_check_rejected_iff {errors : List Text} :
    (ending (check environment path) world).1 = .error (.rejected errors) ↔
      (ending (documented environment path) world).1 = .error (.rejected errors) := by
  rw [check_eq, ending_bind]
  rcases ending (documented environment path) world with ⟨outcome, middle⟩
  cases outcome with
  | error failure => simp
  | ok project =>
      constructor
      · intro rejected
        have ofCheck : FailsOnly Failure.IsOfCheck (do
            verify environment project
            log .info mainPart "Documentation check succeeded!"
            return project.modules : Run (List Module)) :=
          .bind (failsOnly_verify environment project) fun _ => .bind (.log _ _ _) fun _ => .pure _
        exact (ofCheck middle _ _ (Prod.ext rejected rfl)).elim
      · nofun

/-- A check that succeeds gives the modules of the project. -/
theorem modules_of_ending_check {modules : List Module}
    (checked : (ending (check environment path) world).1 = .ok modules) :
    ∃ project, (ending (documented environment path) world).1 = .ok project ∧
      modules = project.modules := by
  rw [check_eq] at checked
  obtain ⟨project, middle, read, rest⟩ := ending_bind_eq_ok_iff.mp (Prod.ext checked rfl)
  obtain ⟨-, last, -, rest⟩ := ending_bind_eq_ok_iff.mp rest
  obtain ⟨-, final, -, rest⟩ := ending_bind_eq_ok_iff.mp rest
  cases rest
  exact ⟨project, by rw [read], rfl⟩

section

variable (project : world.HasProject path root) (project' : world'.HasProject path' root')
variable (same : HoldSame world.disk world'.disk root.place root'.place)
variable (finds : ∀ settings, (ending (configured root) world).1 = .ok settings →
  world.FindsAlike settings root root')

include project project' same

theorem twins_of_hasProject : AreTwins root root' world world' :=
  ⟨⟨project.isBase, project'.isBase, same⟩, project.unlogged, project'.unlogged⟩

include finds

/-- The same settings and the same sources are read in both places. -/
theorem gathered_alike :
    EndAlike (Gathered.StandAt root root') (ending (gathered environment path) world).1
      (ending (gathered environment path') world').1 ∧
    Beside world world' (ending (gathered environment path) world).2
      (ending (gathered environment path') world').2 := by
  have twins := twins_of_hasProject project project' same
  obtain ⟨outcomes, worlds⟩ := configured_alike twins
    (fun name member => ⟨project.fits member, project'.fits member⟩) world world'
    ⟨.refl world, .refl world'⟩
  rw [gathered, gathered, ending_bind_of_ok project.taken, ending_bind_of_ok project'.taken,
    ending_bind, ending_bind]
  revert finds outcomes worlds
  rcases ending (configured root) world with ⟨outcome, middle⟩
  rcases ending (configured root') world' with ⟨outcome', middle'⟩
  rintro finds (@⟨settings, _, rfl⟩ | failures) worlds
  · have read := readSources_alike twins project.plain project'.plain
      (finds settings rfl) environment
    have further : GoAlike (Beside world world') (Gathered.StandAt root root')
        (readSources environment root (settings.within root) >>= fun files =>
          pure ⟨root, settings, files⟩)
        (readSources environment root' (settings.within root') >>= fun files =>
          pure ⟨root', settings, files⟩) :=
      .bind read fun files _ same => .pure ⟨rfl, by rw [same]⟩
    exact further middle middle' worlds
  · exact ⟨.error failures, worlds⟩

/-- The same project is documented in both places. -/
theorem documented_alike :
    EndAlike (Project.StandAt root root') (ending (documented environment path) world).1
      (ending (documented environment path') world').1 ∧
    Beside world world' (ending (documented environment path) world).2
      (ending (documented environment path') world').2 := by
  obtain ⟨outcomes, worlds⟩ := gathered_alike project project' same finds
  rw [documented_eq, documented_eq, ending_bind, ending_bind]
  revert outcomes worlds
  rcases ending (gathered environment path) world with ⟨outcome, middle⟩
  rcases ending (gathered environment path') world' with ⟨outcome', middle'⟩
  rintro (@⟨⟨_, settings, files⟩, _, rfl, rfl⟩ | failures) worlds
  · clear project project' same finds
    have parsed {root : CleanPath} : GoAlike (Beside world world') (Project.StandAt root root')
        (parseSources environment (settings.within root) files >>= fun modules =>
          pure ⟨root, settings, modules⟩)
        (parseSources environment (settings.within root') files >>= fun modules =>
          pure ⟨root', settings, modules⟩) :=
      .bind (parseSources_alike (Beside.logsFreely world world') settings files)
        fun modules _ same => .pure ⟨rfl, by rw [same]; rfl⟩
    exact parsed middle middle' worlds
  · exact ⟨.error failures, worlds⟩

/--
A project that stands in two places, with the same below both, is read with the same settings
and the same sources under the same paths.  Checks of it in both places fail for the same
rejected sources, if they do, and give the same modules if both succeed.  If no path to the
examples depends on the place either, they end alike: one succeeds exactly if the other does.
-/
theorem check_does_not_depend_on_place :
    EndAlike Gathered.Alike (ending (gathered environment path) world).1
      (ending (gathered environment path') world').1 ∧
    (∀ errors, (ending (check environment path) world).1 = .error (.rejected errors) ↔
      (ending (check environment path') world').1 = .error (.rejected errors)) ∧
    (∀ modules modules', (ending (check environment path) world).1 = .ok modules →
      (ending (check environment path') world').1 = .ok modules' → modules = modules') ∧
    ((∀ project, (ending (documented environment path) world).1 = .ok project →
        project.ChecksAlike root') →
      EndAlike Eq (ending (check environment path) world).1
        (ending (check environment path') world').1) := by
  have documented : EndAlike (Project.StandAt root root') (ending (documented environment path) world).1
      (ending (documented environment path') world').1 ∧
    Beside world world' (ending (Run.documented environment path) world).2
      (ending (Run.documented environment path') world').2 :=
    documented_alike project project' same finds
  refine ⟨(gathered_alike project project' same finds).1.mono fun _ _ alike => ?_,
    fun errors => ?_, fun modules modules' checked checked' => ?_, fun checks => ?_⟩
  · obtain ⟨-, rfl⟩ := alike
    exact ⟨rfl, rfl⟩
  · obtain ⟨outcomes, -⟩ := documented
    rw [ending_check_rejected_iff, ending_check_rejected_iff]
    revert outcomes
    generalize (ending (Run.documented environment path) world).1 = outcome
    generalize (ending (Run.documented environment path') world').1 = outcome'
    rintro (_ | failures)
    · simp
    · rw [Except.error.injEq, Except.error.injEq, failures.eq_rejected_iff]
  · obtain ⟨outcomes, -⟩ := documented
    obtain ⟨own, read, rfl⟩ := modules_of_ending_check checked
    obtain ⟨other, read', rfl⟩ := modules_of_ending_check checked'
    rw [read, read'] at outcomes
    cases outcomes with
    | ok alike =>
        obtain ⟨-, rfl⟩ := alike
        rfl
  · rw [check_eq, check_eq, ending_bind, ending_bind]
    rcases ended : ending (Run.documented environment path) world with ⟨outcome, middle⟩
    rcases ended' : ending (Run.documented environment path') world' with ⟨outcome', middle'⟩
    rw [ended] at checks
    rw [ended, ended'] at documented
    obtain ⟨outcomes, worlds⟩ := documented
    have twins := worlds.twins (twins_of_hasProject project project' same)
    have free := AreTwins.logsFreely root root'
    have plain := project.plain
    clear finds same project
    revert outcomes
    rintro (@⟨read, _, rfl, rfl⟩ | failures)
    · have checked : GoAlike (AreTwins read.root root') Eq
          (verify environment read >>= fun _ =>
            log .info mainPart "Documentation check succeeded!" >>= fun _ => pure read.modules)
          (verify environment (read.movedTo root') >>= fun _ =>
            log .info mainPart "Documentation check succeeded!" >>= fun _ =>
              pure (read.movedTo root').modules) :=
        .bind (verify_alike (checks read rfl) (isRead_of_ending_documented ended) twins plain
          project'.plain) fun _ _ _ => .bind (.log free) fun _ _ _ => .pure rfl
      exact (checked middle middle' twins).1
    · exact .error failures

end

/-! ## A small project in three folders -/

/-- A small project, as seen from its folder. -/
def smallProject : List (Location × Entry) :=
  [([], .folder),
    ([("package.json" : Text)],
      .file (Text.Utf8.encode "\x7b\"name\":\"demo\",\"homepage\":\"h\"\x7d")),
    ([("tsdocgen.json" : Text)], .file (Text.Utf8.encode "\x7b\"enforceVersion\":false\x7d")),
    ([("src" : Text)], .folder),
    ([("src" : Text), "a.ts"], .file (Text.Utf8.encode "import 'x'\n"))]

/-- The small project in a folder of its own, which is the present one. -/
def copyIn (folder : Text) : World :=
  { here := [folder]
    disk := { entries := smallProject.map fun (place, entry) => (folder :: place, entry) } }

/-- The path of that folder. -/
def rootIn (folder : Text) : CleanPath :=
  { anchor := .root, names := [folder] }

theorem entryAt_copyIn (folder : Text) (names : Location) :
    (copyIn folder).disk.entryAt (folder :: names) = smallProject.lookup names := by
  rw [Disk.entryAt, if_neg (List.cons_ne_nil _ _), copyIn]
  induction smallProject with
  | nil => rfl
  | cons head rest ih =>
      rw [List.map_cons, List.lookup_cons, List.lookup_cons, ih]
      simp

/-- The small project is the same in all folders whose names the disk keeps. -/
theorem holdSame_copyIn {folder folder' : Text} (isPlace : (rootIn folder).place = [folder])
    (isPlace' : (rootIn folder').place = [folder']) :
    HoldSame (copyIn folder).disk (copyIn folder').disk (rootIn folder).place
      (rootIn folder').place := by
  intro names
  rw [isPlace, isPlace']
  exact (entryAt_copyIn folder names).trans (entryAt_copyIn folder' names).symm

theorem ending_projectRoot_copyIn {folder : Text}
    (normal : Path.normalNames (Path.absolute (copyIn folder).hereText ".") = [folder]) :
    ending (projectRoot ".") (copyIn folder) = (.ok (rootIn folder), copyIn folder) := by
  have taken : ending (projectRoot ".") (copyIn folder) =
      (.ok ⟨.root, Path.normalNames (Path.absolute (copyIn folder).hereText ".")⟩,
        copyIn folder) := by
    rw [projectRoot, ending_bind_of_ok (ending_get _)]
    simp only [realPath_eq]
    rfl
  rw [taken, normal]
  rfl

theorem hasProject_copyIn {folder : Text}
    (normal : Path.normalNames (Path.absolute (copyIn folder).hereText ".") = [folder])
    (tree : (copyIn folder).disk.IsTree) (isPath : Disk.IsPath (rootIn folder).text)
    (isPlace : (rootIn folder).place = [folder])
    (plain : Wildcard.hasMagic (rootIn folder).text = false)
    (short : ∀ name ∈ settingsFiles,
      Disk.Name.size ((Spot.file name).text (rootIn folder)) ≤ Disk.pathLimit) :
    (copyIn folder).HasProject "." (rootIn folder) where
  taken := ending_projectRoot_copyIn normal
  tree := tree
  isPath := isPath
  folder := by
    rw [isPlace]
    exact entryAt_copyIn folder []
  plain := plain
  unlogged := by
    rintro place ⟨path, isOpen, -⟩
    cases isOpen
  short := short

/-- In a second folder a check of the small project gives the same modules as in the first one. -/
theorem check_of_copy_gives_same_modules :
    ∃ modules, modules.length = 1 ∧
      (ending (check emptySources ".") (copyIn "one")).1 = .ok modules ∧
      (ending (check emptySources ".") (copyIn "two")).1 = .ok modules := by
  have project : (copyIn "one").HasProject "." (rootIn "one") :=
    hasProject_copyIn (by decide +kernel) (by decide +kernel)
      ⟨by decide +kernel, by decide +kernel, by decide +kernel⟩ (by decide +kernel)
      (by decide +kernel) (by decide +kernel)
  have project' : (copyIn "two").HasProject "." (rootIn "two") :=
    hasProject_copyIn (by decide +kernel) (by decide +kernel)
      ⟨by decide +kernel, by decide +kernel, by decide +kernel⟩ (by decide +kernel)
      (by decide +kernel) (by decide +kernel)
  have absolute : (rootIn "one").IsAbsolute := nofun
  have absolute' : (rootIn "two").IsAbsolute := nofun
  have finds : ∀ settings, (ending (configured (rootIn "one")) (copyIn "one")).1 = .ok settings →
      (copyIn "one").FindsAlike settings (rootIn "one") (rootIn "two") := by
    have known : succeeds (fun settings _ => decide (
        Path.isAbsolute settings.sourceDir = false ∧
        (Path.depth? 0 (Glob.certain (Path.names settings.sourceDir))).isSome = true ∧
        settings.exclude = [] ∧
        ∀ path ∈ Glob.askedPaths (copyIn "one").disk (copyIn "one").here
            ((rootIn "one").below settings.sourceLevels).text,
          Disk.Name.size path + Disk.Name.size (rootIn "two").text + 2 ≤ Disk.pathLimit))
        (configured (rootIn "one")) (copyIn "one") = true := by
      decide +kernel
    intro settings given
    obtain ⟨relative, inside, none, room⟩ :=
      of_decide_eq_true (of_succeeds known (Prod.ext given rfl))
    refine ⟨relative, inside, Glob.areShort_of_size absolute absolute' room, fun _ _ _ _ => ?_⟩
    rw [none]
    rfl
  have checks : ∀ project, (ending (documented emptySources ".") (copyIn "one")).1 = .ok project →
      project.ChecksAlike (rootIn "two") := by
    have known : succeeds (fun project _ => decide (
        project.root = rootIn "one" ∧
        Path.isAbsolute project.configured.outputDir = false ∧
        Wildcard.hasMagic project.configured.outputDir = false ∧
        (Path.depth? 0 (Path.names project.configured.outputDir)).isSome = true ∧
        project.HasNoSlash ∧
        ∀ path ∈ project.scratchPaths,
          Disk.Name.size path + Disk.Name.size (rootIn "two").text + 2 ≤ Disk.pathLimit))
        (documented emptySources ".") (copyIn "one") = true := by
      decide +kernel
    intro project given
    obtain ⟨atRoot, relative, plain, inside, names, room⟩ :=
      of_decide_eq_true (of_succeeds known (Prod.ext given rfl))
    exact ⟨relative, plain, inside, names,
      Glob.areShort_of_size (by rw [atRoot]; exact absolute) absolute' room⟩
  have checking : succeeds (fun modules _ => modules.length == 1) (check emptySources ".")
      (copyIn "one") = true := by
    decide +kernel
  obtain ⟨modules, after, checked, one⟩ := exists_of_succeeds checking
  have alike := (check_does_not_depend_on_place project project'
    (holdSame_copyIn (by decide +kernel) (by decide +kernel)) finds).2.2.2 checks
  have own : (ending (check emptySources ".") (copyIn "one")).1 = .ok modules := by rw [checked]
  exact ⟨modules, by simpa using one, own, alike.eq_ok_iff.mp own⟩

/-- In a folder whose name is a pattern the sources of the small project are not found. -/
theorem check_of_copy_loses_modules :
    HoldSame (copyIn "one").disk (copyIn "[two]").disk (rootIn "one").place (rootIn "[two]").place ∧
      ending (projectRoot ".") (copyIn "[two]") = (.ok (rootIn "[two]"), copyIn "[two]") ∧
      (∃ modules, modules ≠ [] ∧ (ending (check emptySources ".") (copyIn "one")).1 = .ok modules) ∧
      (ending (check emptySources ".") (copyIn "[two]")).1 = .ok [] := by
  have checking : succeeds (fun modules _ => !modules.isEmpty) (check emptySources ".")
      (copyIn "one") = true := by
    decide +kernel
  have losing : succeeds (fun modules _ => modules.isEmpty) (check emptySources ".")
      (copyIn "[two]") = true := by
    decide +kernel
  obtain ⟨modules, after, checked, some⟩ := exists_of_succeeds checking
  obtain ⟨others, after', lost, none⟩ := exists_of_succeeds losing
  refine ⟨holdSame_copyIn (by decide +kernel) (by decide +kernel),
    ending_projectRoot_copyIn (by decide +kernel), ⟨modules, by simpa using some, ?_⟩, ?_⟩
  · rw [checked]
  · rw [lost, List.isEmpty_iff.mp none]

end Run

end ApiDocs
