import ApiDocs.Proofs.Run.Again
import ApiDocs.Proofs.Site.Built

/-!
# A build is a fixed point

A build that succeeds leaves the files that its project was read from as they were, and a
site that stands.  So the next build reads the same project; it fills the folder of the
examples and takes it away again; and it takes the pages away and writes them once more.
In the end the disk is as the first build left it.  The disk has no links: over one, what a build
writes may be a source of the next.
-/

namespace ApiDocs

open Disk (IsPath nowhere)
open Example (folderOf)
open Site (IsDisposable IsNamedAsSite)
open World (Evolves OnlyLogs)

theorem Site.not_isDisposable_of_outside {output : CleanPath} {place : Location}
    (outside : Disk.isWithin output.place place = false) : ¬IsDisposable output place := by
  rw [Bool.eq_false_iff] at outside
  rintro (inExamples | ⟨names, same, -⟩)
  · refine outside (Disk.isWithin_trans (Disk.isWithin_iff.mpr ⟨[("examples" : Text)], ?_⟩) inExamples)
    exact Example.place_folderOf output
  · exact outside (Disk.isWithin_iff.mpr ⟨names, same⟩)

/-- A name that a run takes nothing away for is as safe as the folder that it is in. -/
theorem Site.not_isDisposable_append {output : CleanPath} {place : Location} {name : Text}
    (safe : ¬IsDisposable output place) (notExamples : name ≠ "examples")
    (notPage : Text.endsWith name ".ts.md" = false) : ¬IsDisposable output (place ++ [name]) := by
  rintro (inExamples | ⟨names, same, other, member, ends⟩)
  · obtain ⟨rest, same⟩ := Disk.isWithin_iff.mp inExamples
    rcases List.eq_nil_or_concat rest with rfl | ⟨front, last, rfl⟩
    · rw [List.append_nil, Example.place_folderOf] at same
      exact notExamples (List.cons.inj (List.append_inj_right' same rfl)).1
    · rw [List.concat_eq_append, ← List.append_assoc] at same
      exact safe (.inl (Disk.isWithin_iff.mpr ⟨front, List.append_inj_left' same rfl⟩))
  · rcases List.eq_nil_or_concat names with rfl | ⟨front, last, rfl⟩
    · cases member
    · rw [List.concat_eq_append, ← List.append_assoc] at same
      obtain ⟨front', single⟩ := List.append_inj' same rfl
      obtain rfl := (List.cons.inj single).1
      rw [List.concat_eq_append] at member
      rcases List.mem_append.mp member with inFront | isLast
      · exact safe (.inr ⟨front, front', other, inFront, ends⟩)
      · rw [List.mem_singleton.mp isLast, notPage] at ends
        cases ends

namespace Run

variable {environment again : Environment} {project : Project} {config : TextFile}
variable {world read planned cleaned after second : World} {path report : Text}
variable {modules : List Module} {place : Location}

/-! ## What the project was read from -/

section

variable (isRead : project.IsRead environment world) (settled : project.IsSettled world)

include isRead settled

/-- A build keeps the files that are neither of its site nor where it may take things away. -/
theorem file_after_build (quiet : world.IsQuiet)
    (documented : ending (documented environment path) world = (.ok project, read))
    (safe : ¬IsDisposable project.output place) (other : ¬IsNamedAsSite place) :
    (ending (build environment path) world).2.disk.file? place = world.disk.file? place := by
  have noMagic : Wildcard.hasMagic project.output.text = false :=
    isRead.hasMagic_output settled.plain
  refine (evolves_build_of_documented quiet.tree documented (world.isFree _)).file place ?_
    (quiet.not_isLogged place)
  rintro (scratch | reaches | named)
  · exact safe (.inl (isRead.isWithin_of_isScratch settled.plain settled.names scratch))
  · exact safe (.inr (Site.isPagePlace_of_reaches isRead.absolute_output noMagic reaches))
  · exact other named

/-- A file that is there after a build and is not of its site was there before. -/
theorem IsBuilt.file_before (built : IsBuilt environment project config world planned cleaned after)
    {content : List UInt8} (other : ¬IsNamedAsSite place)
    (standing : after.disk.file? place = some content) :
    world.disk.file? place = some content := by
  obtain ⟨quiet, gains⟩ := built.to_after isRead settled
  obtain ⟨-, -, shrinks⟩ := built.to_cleaned isRead settled
  obtain ⟨-, -, gainsPlanned⟩ := built.to_planned isRead settled
  rw [Disk.file?_eq_some_iff] at standing ⊢
  have outside : ¬belowPlace (folderOf project.output) place := fun inside => by
    rw [quiet.tree.entryAt_of_isWithin (built.noExamples isRead settled) inside] at standing
    cases standing
  refine gainsPlanned.file place content outside
    (shrinks.entryAt (gains.file place content ?_ standing))
  rintro ⟨file, member, isPlace⟩
  exact other ((isWrittenIn_of_mem_site isRead built.configured member).2 place isPlace)

/-- Where the search for the sources of a project finds a file that is kept, there is a source. -/
theorem isSource_of_file {front : List Text} {name : Text} (quiet : world.IsQuiet)
    (visible : ∀ other ∈ front ++ [name], Disk.IsName other ∧ Glob.isHidden other = false)
    (ends : Text.endsWith name ".ts" = true)
    (kept : Glob.isExcluded (project.source.below (front ++ [name])).text
      project.settings.exclude = false)
    (isPath : IsPath (project.source.below (front ++ [name])).text) {content : List UInt8}
    (standing : world.disk.file? (project.source.place ++ (front ++ [name])) = some content) :
    project.IsSource world (project.source.place ++ (front ++ [name])) := by
  have search := isRead.isSearchBelow settled.folder
  have pattern : Path.join (Path.join project.settings.sourceDir "**") "*.ts" =
      project.sourcePattern.text :=
    Glob.join_everything isRead.absolute_source isRead.proper_source (by decide)
  obtain ⟨middle, listed, files, logs, given, -, -⟩ := isRead.sources
  rw [pattern] at given
  obtain ⟨found, searched, -⟩ := Glob.exists_search_of_files given
  rw [Project.sourcePattern] at searched
  have clear : middle.disk.IsClear project.source.text :=
    isRead.absolute_source.isClear_of_plain isRead.proper_source
      (search.pathFault?_of_search searched) (up_not_mem_source isRead settled.folder)
  rw [← logs.disk quiet.noLogs] at standing
  obtain ⟨inFound, isFile⟩ := (search.mem_and_hasFile_iff (logs.tree quiet.tree) clear searched).mpr
    ⟨front, name, rfl, visible, ends, isPath, content, standing⟩
  have areNames : ∀ other ∈ front ++ [name], Disk.IsName other := fun other inNames =>
    (visible other inNames).1
  refine ⟨middle, listed, (project.source.below (front ++ [name])).text, logs, given, ?_, ?_⟩
  · rw [Glob.files, Project.sourcePattern, searched] at given
    cases given
    refine (List.mergeSort_perm _ _).mem_iff.mpr (List.mem_filter.mpr ⟨inFound, ?_⟩)
    rw [isFile, kept]
    rfl
  · have absolute : (project.source.below (front ++ [name])).IsAbsolute := isRead.absolute_source
    obtain ⟨located, -⟩ := (Disk.hasFile_iff).mp isFile
    rwa [absolute.target_text (isRead.proper_source.below fun other inNames =>
      (areNames other inNames).toIsName), CleanPath.place_below areNames] at located

/-- After a build the files that the project was read from are as before. -/
theorem readsAlike_of_build (quiet : world.IsQuiet)
    (documented : ending (documented environment path) world = (.ok project, read))
    (ended : ending (build environment path) world = (.ok modules, after))
    (built : IsBuilt environment project config world planned cleaned after) :
    project.ReadsAlike world.disk after.disk := by
  have same {place : Location} (safe : ¬IsDisposable project.output place)
      (other : ¬IsNamedAsSite place) : after.disk.file? place = world.disk.file? place := by
    have file := file_after_build isRead settled quiet documented safe other
    rwa [ended] at file
  have ofRoot {name : Text} (notExamples : name ≠ "examples")
      (notPage : Text.endsWith name ".md" = false) (notConfig : name ≠ "_config.yml")
      (notSitePage : Text.endsWith name ".ts.md" = false) :
      after.disk.file? (project.root.place ++ [name]) =
        world.disk.file? (project.root.place ++ [name]) := by
    refine same (Site.not_isDisposable_append settled.root notExamples notSitePage) ?_
    rintro ⟨front, last, cut, named⟩
    obtain ⟨-, single⟩ := List.append_inj' cut rfl
    obtain rfl := (List.cons.inj single).1
    rcases named with isPage | isConfig
    · rw [notPage] at isPage
      cases isPage
    · exact notConfig isConfig
  refine ⟨ofRoot (by decide) (by decide) (by decide) (by decide), fun file => ?_,
    fun front name visible ends kept isPath => ?_⟩
  · cases file <;> exact ofRoot (by decide) (by decide) (by decide) (by decide)
  · have other : ¬IsNamedAsSite (project.source.place ++ (front ++ [name])) := by
      rw [← List.append_assoc]
      exact Site.not_isNamedAsSite ends
    cases before : world.disk.file? (project.source.place ++ (front ++ [name])) with
    | some content =>
        have source := isSource_of_file isRead settled quiet visible ends kept isPath before
        rw [same (settled.sources _ source) other, before]
    | none =>
        by_contra gained
        obtain ⟨content, gained⟩ := Option.ne_none_iff_exists'.mp gained
        rw [built.file_before isRead settled other gained] at before
        cases before

end

/-! ## The next build -/

/--
If a build succeeds, the next one succeeds as well, with the same modules, and leaves the disk as
it is: every file and every folder stays, the configuration included.  This holds where no log file is
open, if neither the project nor its sources are where a build may take things away, and no folder
on the way to a source has the ending of a page.
-/
theorem build_is_fixpoint (quiet : world.IsQuiet)
    (documented : ending (documented environment path) world = (.ok project, read))
    (settled : project.IsSettled world)
    (built : ending (build environment path) world = (.ok modules, after))
    (parse : again.parse = environment.parse)
    (removal : again.removalRefused = environment.removalRefused)
    (passes : again.verdict = .finished 0 report)
    (here : second.here = world.here) (disk : second.disk = after.disk)
    (noLogs : second.openLogs = []) :
    ∃ last, ending (build again path) second = (.ok modules, last) ∧
      ∀ place, last.disk.entryAt place = after.disk.entryAt place := by
  have isRead := isRead_of_ending_documented documented
  obtain ⟨rfl, config, planned, cleaned, stages⟩ :=
    exists_isBuilt quiet documented settled.names settled.lines built
  have site := stages.hasSite isRead settled
  have toAfter := evolves_build_of_documented quiet.tree documented (world.isFree _)
  rw [built] at toAfter
  have same : second.Matches after := by
    refine ⟨⟨noLogs, ?_, ?_⟩, here.trans toAfter.here.symm, fun place => by rw [disk]⟩
    · rw [disk]
      exact site.quiet.tree
    · rw [disk]
      exact site.quiet.named
  have allowed : again.removalRefused = none := by
    rw [removal]
    exact removalRefused_of_ending_remove stages.removed
  have alike : project.ReadsAlike world.disk second.disk := by
    rw [disk]
    exact readsAlike_of_build isRead settled quiet documented built stages
  obtain ⟨readAgain, documentedAgain, toRead⟩ :=
    ending_documented_of_same documented settled.folder quiet same.quiet here parse alike
  have atRead := (toRead.matches same.quiet).trans same
  -- The examples pass again, and their folder is gone again.
  obtain ⟨first, checked, -, verified, -⟩ := stages.verified
  obtain ⟨passed, verifiedAgain, toPassed⟩ := exists_ending_verify isRead settled.plain
    settled.names verified allowed passes (site.of_matches atRead).toHasSiteFolder
  have atPassed := toPassed.trans atRead
  obtain ⟨logged, logging, toLogged⟩ :=
    exists_ending_log atPassed.quiet .info mainPart "Creating markdown files..."
  have atLogged := toLogged.trans atPassed
  -- The configuration is planned as it is, and the site is published over itself.
  have configured := ending_configFile_of_site (site.of_matches atLogged)
  obtain ⟨last, published, toLast⟩ := exists_ending_publish_of_site
    (isSearchBelow_output isRead settled.plain) (site.of_matches atLogged) allowed
  have plannedAgain : ending (plan again project) readAgain =
      (.ok (project.siteFiles (project.configFile config.content)), logged) := by
    rw [plan, ending_bind_of_ok verifiedAgain]
    refine (ending_bind_of_ok logging _).trans ?_
    exact ending_bind_of_ok configured _
  refine ⟨last, ?_, (toLast.trans atLogged).entries⟩
  rw [build_eq, Run.planned, bind_assoc, ending_bind_of_ok documentedAgain, bind_assoc,
    ending_bind_of_ok plannedAgain]
  exact ending_bind_of_ok published _

/-- An environment that finds the example, and a type checker that has nothing against it. -/
def passingChecker : Environment :=
  { withoutChecker with verdict := .finished 0 "" }

/--
A project with an example, with the page of a source that is gone, and with an old configuration.
-/
def patchedWorld : World :=
  demoWorld "src" "docs"
    [([("p" : Text), "src"], .folder),
      ([("p" : Text), "src", "a.ts"],
        .file (Text.Utf8.encode "/**\n * @example\n * f()\n */\nimport 'x'\n")),
      ([("p" : Text), "docs"], .folder),
      ([("p" : Text), "docs", "_config.yml"], .file (Text.Utf8.encode "remote_theme: old\n")),
      ([("p" : Text), "docs", "modules"], .folder),
      ([("p" : Text), "docs", "modules", "old.ts.md"], .file [104])]

/-- A build brings the configuration up to date and takes the page away. -/
theorem succeeds_build_patched :
    succeeds (fun _ after => decide (
      after.disk.file? ["p", "docs", "_config.yml"] =
        some (Text.Utf8.encode "remote_theme: pmarsceill/just-the-docs\n") ∧
      after.disk.file? ["p", "docs", "modules", "old.ts.md"] = none ∧
      after.here = patchedWorld.here ∧ after.openLogs = []))
      (build passingChecker ".") patchedWorld = true := by
  decide +kernel

theorem succeeds_documented_patched :
    succeeds (fun project _ => decide (project.IsPlain ∧ project.HasNoSlash ∧
      project.HasSourceFolder ∧ project.settings.HasNoBreak ∧
      (∀ name ∈ project.output.names, Disk.Name.stored name ≠ "..") ∧
      project.output.place = [("p" : Text), "docs"] ∧ project.root.place = [("p" : Text)] ∧
      Site.configPath project.settings.outputDir = "/p/docs/_config.yml" ∧
      (Glob.files patchedWorld.disk patchedWorld.here project.sourcePattern.text
        project.settings.exclude).toOption = some [("/p/src/a.ts" : Text)] ∧
      ∀ module ∈ project.modules, ∀ part ∈ module.path.drop 1,
        Text.endsWith (Disk.Name.stored part) ".ts.md" = false))
      (documented passingChecker ".") patchedWorld = true := by
  decide +kernel

/--
The first build brings the configuration up to date and takes the page away; the second changes
nothing.
-/
theorem build_patched_is_fixpoint :
    ∃ modules after last,
      ending (build passingChecker ".") patchedWorld = (.ok modules, after) ∧
      after.disk.file? ["p", "docs", "_config.yml"] =
        some (Text.Utf8.encode "remote_theme: pmarsceill/just-the-docs\n") ∧
      after.disk.file? ["p", "docs", "modules", "old.ts.md"] = none ∧
      ending (build passingChecker ".") after = (.ok modules, last) ∧
      ∀ place, last.disk.entryAt place = after.disk.entryAt place := by
  obtain ⟨modules, after, built, left⟩ := exists_of_succeeds succeeds_build_patched
  obtain ⟨patched, gone, here, noLogs⟩ := of_decide_eq_true left
  obtain ⟨project, read, documented, known⟩ := exists_of_succeeds succeeds_documented_patched
  obtain ⟨plain, names, folder, lines, climbs, atOutput, atRoot, -, found, folders⟩ :=
    of_decide_eq_true known
  have quiet : patchedWorld.IsQuiet :=
    ⟨rfl, by decide +kernel, Disk.hasPathNames_of_entries (by decide +kernel)⟩
  have settled : project.IsSettled patchedWorld := by
    refine ⟨plain, names, folder, lines, Project.hasLastingWay_of_plain climbs, ?_,
      fun place source => ?_, folders⟩
    · refine Site.not_isDisposable_of_outside ?_
      rw [atOutput, atRoot]
      decide
    · obtain ⟨path, member, located⟩ := source.exists_of_files quiet.noLogs found
      obtain rfl := Disk.eq_target_of_locate located
      refine Site.not_isDisposable_of_outside ?_
      rw [atOutput, List.mem_singleton.mp member]
      decide +kernel
  obtain ⟨last, again, same⟩ := build_is_fixpoint quiet documented settled built rfl rfl rfl here rfl
    noLogs
  exact ⟨modules, after, last, built, patched, gone, again, same⟩

/-- Whether a run failed because the disk refused an access. -/
def isRefusal : Failure → Bool
  | .resource _ _ => true
  | .settings _ | .rejected _ | .examples _ | .fault _ => false

/-- A project with its one source in a folder that has the ending of a page. -/
def nestedWorld : World :=
  demoWorld "src" "docs"
    [([("p" : Text), "src"], .folder), ([("p" : Text), "src", "x.ts.md"], .folder),
      ([("p" : Text), "src", "x.ts.md", "a.ts"], .file [])]

/-- The next build takes away the folder of the page, and then fails to take away the page in it. -/
theorem build_fails_on_nested_page :
    ∃ project read modules after path message last,
      ending (documented emptySources ".") nestedWorld = (.ok project, read) ∧
      project.IsPlain ∧ project.HasNoSlash ∧ project.HasSourceFolder ∧
      project.settings.HasNoBreak ∧
      ¬Disk.isWithin (folderOf project.output).place project.root.place ∧
      (∀ place, project.IsSource nestedWorld place →
        ¬Disk.isWithin (folderOf project.output).place place) ∧
      ending (build emptySources ".") nestedWorld = (.ok modules, after) ∧
      ending (build emptySources ".") after = (.error (.resource path message), last) := by
  have reading : succeeds (fun project _ => decide (project.IsPlain ∧ project.HasNoSlash ∧
      project.HasSourceFolder ∧ project.settings.HasNoBreak ∧
      ¬Disk.isWithin (folderOf project.output).place project.root.place ∧
      (Glob.files nestedWorld.disk nestedWorld.here project.sourcePattern.text
        project.settings.exclude).toOption = some [("/p/src/x.ts.md/a.ts" : Text)] ∧
      ¬Disk.isWithin (folderOf project.output).place
        (Disk.target nestedWorld.here "/p/src/x.ts.md/a.ts")))
      (documented emptySources ".") nestedWorld = true := by
    decide +kernel
  have building : succeeds (fun _ after =>
      fails isRefusal (build emptySources ".") after)
      (build emptySources ".") nestedWorld = true := by
    decide +kernel
  obtain ⟨project, read, documented, known⟩ := exists_of_succeeds reading
  obtain ⟨plain, names, folder, lines, outside, found, elsewhere⟩ := of_decide_eq_true known
  obtain ⟨modules, after, built, failing⟩ := exists_of_succeeds building
  obtain ⟨failure, last, failed, ofDisk⟩ := exists_of_fails failing
  cases failure with
  | resource path message =>
      refine ⟨project, read, modules, after, path, message, last, documented, plain, names, folder,
        lines, outside, fun place source => ?_, built, failed⟩
      obtain ⟨found, member, located⟩ := source.exists_of_files rfl found
      obtain rfl := Disk.eq_target_of_locate located
      rwa [List.mem_singleton.mp member]
  | settings | rejected | examples | fault => cases ofDisk

end Run

end ApiDocs
