import ApiDocs.Proofs.Site.Settled

/-!
# A build leaves a site that stands

A build that succeeds has checked the examples and taken their folder away, has taken the
stale pages away, and has written the files that were due.  What is due has a place of its
own, so it stands afterwards; what was not due stood before; and what looks like a page is
one that was written.  Nothing that the project was read from is different.
-/

namespace ApiDocs

open Disk (IsPath nowhere onWay)
open Example (folderOf)

namespace Run

open Site (IsDisposable IsNamedAsSite)
open World (Brings Evolves OnlyLogs)

variable {environment : Environment} {project : Project} {settings : Settings} {config : TextFile}
variable {world before after : World} {path : Text} {modules : List Module}

/-! ## The stages -/

/-- A configuration that is planned is up to date, and it is due. -/
theorem of_ending_configFile (lines : settings.HasNoBreak)
    (ended : ending (configFile settings) world = (.ok config, after)) :
    after = world ∧ config.path = Site.configPath settings.outputDir ∧
      Symbol.char '\r' ∉ config.content ∧
      Site.updateConfig config.content settings = config.content ∧
      world.isDue config = true := by
  have looked : ending (exists? (Site.configPath settings.outputDir)) world =
      (.ok (world.disk.hasEntry world.here (Site.configPath settings.outputDir)), world) := rfl
  obtain ⟨found, first, asked, rest⟩ := ending_bind_eq_ok_iff.mp ended
  rw [looked, Prod.mk.injEq, Except.ok.injEq] at asked
  obtain ⟨rfl, rfl⟩ := asked
  split at rest
  · obtain ⟨existing, second, read, rest⟩ := ending_bind_eq_ok_iff.mp rest
    obtain ⟨rfl, given⟩ := of_ending_readText read
    cases rest
    have unified : Symbol.char '\r' ∉ existing := by
      rw [Disk.readText] at given
      split at given
      · cases given
      · split at given
        · cases given
        · cases given
          exact Text.return_not_mem_unifyBreaks _
    exact ⟨rfl, rfl, Site.return_not_mem_updateConfig lines unified,
      Site.updateConfig_updateConfig lines.keepsLines existing, Bool.or_true _⟩
  · rename_i missing
    cases rest
    exact ⟨rfl, rfl, Site.return_not_mem_config lines, Site.updateConfig_config lines.keepsLines, by
      simpa [World.isDue] using missing⟩

/-- Checking the examples brings nothing but their folder and what is in it. -/
theorem brings_verify (isRead : project.IsRead environment world) (names : project.HasNoSlash) :
    Keeps (Brings (belowPlace (folderOf project.output)) (onWay (folderOf project.output)))
      (verify environment project) := by
  have absolute := isRead.absolute_output
  have proper := isRead.proper_output
  have outputDir : project.settings.outputDir = project.output.text := rfl
  have frame := isFrame_brings (belowPlace (folderOf project.output)) (onWay (folderOf project.output))
  have ways {file : TextFile} {name : Text} (isName : Path.IsName name)
      (written : file.path = ((folderOf project.output).below [name]).text) :
      ∀ place, onWay (CleanPath.ofText file.path).parent place →
        onWay (folderOf project.output) place := by
    rw [written, (Example.isProper_folderOf proper).parent_ofText_below isName]
    exact fun _ => id
  refine .bind frame.toIsKept (frame.log _ _ _) fun _ => frame.checkExamples
    (brings_writeAll _ _ (fun file member =>
      (isInFolder_of_mem_examples isRead names member).isWrittenIn absolute proper)
      fun file member => ?_)
    (fun options => brings_writeAll _ _ (fun file member =>
      (isInFolder_of_mem_checkerFiles absolute proper outputDir member).isWrittenIn absolute proper)
      fun file member => ?_)
    none (brings_remove _)
  · obtain ⟨-, name, isName, -, written⟩ := exists_name_of_mem_examples isRead names member
    exact ways isName written
  · obtain ⟨-, name, isName, -, written⟩ :=
      exists_name_of_mem_checkerFiles absolute proper outputDir member
    exact ways isName written

/-- After the examples were checked their folder is not there. -/
theorem entryAt_folderOf_of_ending_verify (isRead : project.IsRead environment world)
    (plain : project.IsPlain) (isPath : IsPath (folderOf project.output).text)
    (verified : ending (verify environment project) before = (.ok (), after))
    (tree : after.disk.IsTree) (clear : after.disk.IsClear project.output.text) :
    after.disk.entryAt (folderOf project.output).place = none := by
  have noMagic : Wildcard.hasMagic project.output.text = false :=
    isRead.hasMagic_output plain
  obtain ⟨_, started, -, checked⟩ := ending_bind_eq_ok_iff.mp verified
  obtain ⟨_, removal, last, -, removed, -, succeeded, finished⟩ :=
    exists_removal_of_ending_checkExamples checked
  obtain rfl := succeeded rfl
  obtain rfl := finished rfl
  have gone : after.disk.hasEntry after.here (folderOf project.output).text = false := by
    rw [← Example.folder_eq isRead.absolute_output isRead.proper_output]
    exact hasEntry_of_ending_remove Example.isName_folder (Example.hasMagic_folder noMagic) removed
  by_contra standing
  obtain ⟨entry, standing⟩ := Option.ne_none_iff_exists'.mp standing
  rw [Example.place_folderOf] at standing
  have located : after.disk.locate after.here (folderOf project.output).text =
      .ok (project.output.place ++ [("examples" : Text)]) :=
    isRead.absolute_output.locate_below tree isRead.proper_output clear (List.cons_ne_nil _ _)
      standing isPath
  rw [Disk.hasEntry, Disk.find_eq_ok_iff.mpr ⟨located, standing⟩] at gone
  cases gone

/--
How a build comes from a quiet world to one in which its site was written.  It checks the
examples and plans a configuration, takes stale pages away, and writes the files that are due.
-/
structure IsBuilt (environment : Environment) (project : Project) (config : TextFile)
    (world planned cleaned after : World) : Prop where
  quiet : world.IsQuiet
  verified : ∃ read checked, OnlyLogs world read ∧
    ending (verify environment project) read = (.ok (), checked) ∧ OnlyLogs checked planned
  configured : config.path = Site.configPath project.settings.outputDir
  unified : Symbol.char '\r' ∉ config.content
  upToDate : Site.updateConfig config.content project.settings = config.content
  configDue : planned.isDue config = true
  removed : ending (remove environment (Site.stalePattern project.settings.outputDir)) planned =
    (.ok (), cleaned)
  written : ∃ middle values last, OnlyLogs cleaned middle ∧
    ending (forEach (environment.writing .site).writes
      (fun file : TextFile => writeText file.path file.content)
      ((project.siteFiles config).filter cleaned.isDue)) middle = (.ok values, last) ∧
    OnlyLogs last after

/-- A build that succeeds goes through its stages. -/
theorem exists_isBuilt {read : World} (quiet : world.IsQuiet)
    (documented : ending (documented environment path) world = (.ok project, read))
    (names : project.HasNoSlash) (lines : project.settings.HasNoBreak)
    (built : ending (build environment path) world = (.ok modules, after)) :
    modules = project.modules ∧
      ∃ config planned cleaned, IsBuilt environment project config world planned cleaned after := by
  have isRead := isRead_of_ending_documented documented
  have toRead : OnlyLogs world (ending (Run.documented environment path) world).2 :=
    keeps_documented path world
  rw [documented] at toRead
  obtain ⟨rfl, files, last, isPlan, published⟩ := exists_plan_and_publish documented built
  obtain ⟨_, checked, verified, rest⟩ := ending_bind_eq_ok_iff.mp isPlan
  obtain ⟨_, started, logged, prepared⟩ := ending_bind_eq_ok_iff.mp rest
  obtain ⟨config, final, configured, rest⟩ := ending_bind_eq_ok_iff.mp prepared
  cases rest
  obtain ⟨rfl, path, unified, upToDate, due⟩ := of_ending_configFile lines configured
  obtain ⟨_, planned, loggedAgain, rest⟩ := ending_bind_eq_ok_iff.mp published
  obtain ⟨_, cleaned, removed, rest⟩ := ending_bind_eq_ok_iff.mp rest
  obtain ⟨_, finished, wrote, ended⟩ := ending_bind_eq_ok_iff.mp rest
  have toStarted := keeps_log .info mainPart "Creating markdown files..." checked
  rw [logged] at toStarted
  have toPlanned := keeps_log .info mainPart "Writing markdown files..." last
  rw [loggedAgain] at toPlanned
  have toAfter := keeps_log .info mainPart "Docs generation succeeded!" finished
  rw [ended] at toAfter
  have brings := brings_verify isRead names read
  rw [verified] at brings
  have quietChecked := (brings (toRead.quiet quiet)).1
  have quietStarted := toStarted.quiet quietChecked
  obtain ⟨middle, isDue, toMiddle⟩ := ending_dueFiles (environment.writing .site).checks mainPart
    (project.siteFiles config) cleaned
  rw [writeAll] at wrote
  obtain ⟨values, _, wrote, rest⟩ :=
    ending_bind_eq_ok_iff.mp ((ending_bind_of_ok isDue _).symm.trans wrote)
  cases rest
  refine ⟨rfl, config, planned, cleaned, quiet, ⟨read, checked, toRead, verified,
    toStarted.trans toPlanned⟩, path, unified, upToDate, ?_, removed, middle, values, finished,
    toMiddle.toOnlyLogs, wrote, toAfter⟩
  rwa [World.isDue, toPlanned.disk quietStarted.noLogs, toPlanned.here]

namespace IsBuilt

variable {planned cleaned : World} {file : TextFile} {dir : CleanPath} {name : Text}
variable (isRead : project.IsRead environment world) (settled : project.IsSettled world)
  (built : IsBuilt environment project config world planned cleaned after)

include isRead settled built

/-! ### Before the site is written -/

/-- Planning works in the folder of the examples. -/
theorem to_planned :
    Evolves (belowPlace (folderOf project.output)) (belowPlace (folderOf project.output)) world
        planned ∧
      planned.IsQuiet ∧ Disk.Gains (belowPlace (folderOf project.output))
        (onWay (folderOf project.output)) world.disk planned.disk := by
  obtain ⟨read, checked, toRead, verified, toPlanned⟩ := built.verified
  have evolves := keeps_verify isRead settled.plain (fun _ _ => trivial) (fun _ => id)
    (fun file member => (isInFolder_of_mem_examples isRead settled.names member).isWrittenIn
      isRead.absolute_output isRead.proper_output) (fun _ _ _ _ => trivial) read
    (read.isFree fun _ => True)
  have brings := brings_verify isRead settled.names read
  rw [verified] at evolves brings
  obtain ⟨quiet, gains⟩ := brings (toRead.quiet built.quiet)
  refine ⟨(toRead.evolves _ _).trans (evolves.trans (toPlanned.evolves _ _)), toPlanned.quiet quiet,
    ?_⟩
  rwa [toPlanned.disk quiet.noLogs, ← toRead.disk built.quiet.noLogs]

theorem isClear_planned : planned.disk.IsClear project.output.text :=
  (settled.lasting.of_evolves ((built.to_planned isRead settled).1.mono (fun _ => id)
    fun _ => .inl)).isClear isRead.proper_output

/-- Before the site is written there is no folder of examples. -/
theorem noExamples_planned (isPath : IsPath (folderOf project.output).text) :
    planned.disk.entryAt (folderOf project.output).place = none := by
  obtain ⟨-, quiet, -⟩ := built.to_planned isRead settled
  have clear := built.isClear_planned isRead settled
  obtain ⟨read, checked, toRead, verified, toPlanned⟩ := built.verified
  have brings := brings_verify isRead settled.names read
  rw [verified] at brings
  have same := toPlanned.disk (brings (toRead.quiet built.quiet)).1.noLogs
  rw [same] at clear ⊢
  exact entryAt_folderOf_of_ending_verify isRead settled.plain isPath verified (same ▸ quiet.tree) clear

theorem to_cleaned :
    cleaned.IsQuiet ∧ cleaned.here = planned.here ∧
      Disk.Shrinks planned.disk cleaned.disk := by
  have brings : Brings nowhere nowhere planned
      (ending (remove environment (Site.stalePattern project.settings.outputDir)) planned).2 :=
    brings_remove _ planned
  have shrinks := shrinks_remove environment (Site.stalePattern project.settings.outputDir) planned
  rw [built.removed] at brings shrinks
  obtain ⟨found, left, -, -, rfl⟩ := exists_of_ending_remove built.removed
  exact ⟨(brings (built.to_planned isRead settled).2.1).1, rfl, shrinks⟩

/-- Before the site is written nothing looks like a page. -/
theorem noPage_cleaned {front : List Text} {last : Text}
    (visible : ∀ name ∈ front ++ [last], Glob.isHidden name = false)
    (ends : Text.endsWith last ".ts.md" = true)
    (isPath : IsPath (Path.join project.output.text (Text.joinWith "/" front))) :
    cleaned.disk.entryAt (project.output.place ++ (front ++ [last])) = none := by
  have removed := built.removed
  have pattern : Site.stalePattern project.settings.outputDir =
      (project.output.below [Glob.everything, .char '*' :: ".ts.md"]).text :=
    Site.stalePattern_eq isRead.absolute_output isRead.proper_output
  rw [pattern] at removed
  exact nothing_after_removal (isSearchBelow_output isRead settled.plain)
    (built.to_planned isRead settled).2.1.tree (built.isClear_planned isRead settled) removed visible
    ends isPath

/-- The configuration is still due when the site is written. -/
theorem isDue_config : cleaned.isDue config = true := by
  obtain ⟨-, here, shrinks⟩ := built.to_cleaned isRead settled
  have due := built.configDue
  rw [World.isDue, Bool.or_eq_true_iff, Bool.not_eq_true', here] at *
  refine due.imp_left fun missing => ?_
  rw [Bool.eq_false_iff] at missing ⊢
  exact mt shrinks.hasEntry missing

/-! ### The files that are written -/

/-- Writing the files that are due brings files of the site, and folders on the way there. -/
theorem exists_writing : ∃ middle values last, OnlyLogs cleaned middle ∧ middle.IsQuiet ∧
    ending (forEach (environment.writing .site).writes
      (fun file : TextFile => writeText file.path file.content)
      ((project.siteFiles config).filter cleaned.isDue)) middle = (.ok values, last) ∧
    last.IsQuiet ∧ OnlyLogs last after ∧
    Disk.Gains (fun place => ∃ file ∈ project.siteFiles config, placeOf (.ofText file.path) place)
      (fun place => ∃ file ∈ project.siteFiles config,
        onWay (CleanPath.ofText file.path).parent place) middle.disk last.disk := by
  obtain ⟨quiet, -, -⟩ := built.to_cleaned isRead settled
  obtain ⟨middle, values, last, toMiddle, wrote, toAfter⟩ := built.written
  have kept := (isFrame_brings (fun place => ∃ file ∈ project.siteFiles config,
    placeOf (.ofText file.path) place) (fun place => ∃ file ∈ project.siteFiles config,
      onWay (CleanPath.ofText file.path).parent place)).toIsKept
  have inSite {file : TextFile} (isDue : file ∈ (project.siteFiles config).filter cleaned.isDue) :
      file ∈ project.siteFiles config := List.mem_of_mem_filter isDue
  have brings : Keeps _ (forEach (environment.writing .site).writes
      (fun file : TextFile => writeText file.path file.content) _) :=
    .forEach kept fun file isDue => brings_writeText
      ⟨(settled.path_of_mem isRead built.quiet.tree built.configured (inSite isDue)).2,
        fun place isPlace => ⟨file, inSite isDue, isPlace⟩⟩
      fun place way => ⟨file, inSite isDue, way⟩
  have brought := brings middle
  rw [wrote] at brought
  obtain ⟨quietLast, gains⟩ := brought (toMiddle.quiet quiet)
  exact ⟨middle, values, last, toMiddle, toMiddle.quiet quiet, wrote, quietLast, toAfter,
    gains⟩

theorem to_after :
    after.IsQuiet ∧
      Disk.Gains (fun place => ∃ file ∈ project.siteFiles config, placeOf (.ofText file.path) place)
        (fun place => ∃ file ∈ project.siteFiles config,
          onWay (CleanPath.ofText file.path).parent place) cleaned.disk after.disk := by
  obtain ⟨quiet, -, -⟩ := built.to_cleaned isRead settled
  obtain ⟨middle, values, last, toMiddle, -, -, quietLast, toAfter, gains⟩ :=
    built.exists_writing isRead settled
  rw [toMiddle.disk quiet.noLogs, ← toAfter.disk quietLast.noLogs] at gains
  exact ⟨toAfter.quiet quietLast, gains⟩

/-- A file of the site other than one of these is written somewhere else. -/
theorem isWrittenIn_of_ne {other : TextFile} (member : file ∈ project.siteFiles config)
    (isPath : IsPath file.path) (isOther : other ∈ project.siteFiles config)
    (differs : other ≠ file) :
    IsWrittenIn (· ≠ file.place) other := by
  obtain ⟨written, fromRoot⟩ :=
    settled.path_of_mem isRead built.quiet.tree built.configured isOther
  refine ⟨fromRoot, ?_⟩
  rintro place ⟨otherPath, rfl⟩ same
  rw [written] at otherPath
  exact differs (settled.eq_of_place isRead built.quiet.tree built.configured isOther member otherPath
    isPath same)

/-- A file that is due stands in its folder when the site was written. -/
theorem standsIn_of_isDue (member : file ∈ project.siteFiles config)
    (due : cleaned.isDue file = true)
    (isFolder : project.IsSiteFolder dir) (isName : Path.IsName name) (notUp : name ≠ "..")
    (inFolder : file.path = (dir.below [name]).text) : file.StandsIn dir name after := by
  obtain ⟨middle, values, last, -, quietMiddle, wrote, quietLast, toAfter, -⟩ :=
    built.exists_writing isRead settled
  have absolute := isFolder.absolute isRead.absolute_output
  have proper := isFolder.proper isRead.proper_output
  have fileProper : (dir.below [name]).IsProper := proper.below (by simpa using isName)
  have isDue : file ∈ (project.siteFiles config).filter cleaned.isDue :=
    List.mem_filter.mpr ⟨member, due⟩
  have path (file : TextFile) (member : file ∈ (project.siteFiles config).filter cleaned.isDue) :=
    settled.path_of_mem isRead built.quiet.tree built.configured (List.mem_of_mem_filter member)
  obtain ⟨_, start, written, -, took, later⟩ := exists_ending_of_mem
    (Evolves.isKept (fun _ => True) nowhere) (fun file member =>
      (keeps_writeText_unlinked (path file member).2 file.content).widen (fun _ _ => trivial)
        fun _ => id)
    wrote isDue
  obtain ⟨fits, place, located, standing⟩ :=
    fitsIn_of_ending_writeText absolute proper isName notUp inFolder took
  have toEnd := later.trans (toAfter.evolves (fun _ => True) nowhere)
  obtain rfl : place = dir.place :=
    (Disk.eq_target_of_locate located).trans (absolute.target_text proper _)
  have stillLocated : after.disk.locate after.here dir.text = .ok dir.place := by
    rw [toEnd.here]
    exact Disk.locate_mono (fun place => toEnd.folder place id) located
  have read := read_of_ending_writeFiles wrote isDue (path file isDue).2
    (fun other isOther differs => built.isWrittenIn_of_ne isRead settled member fits.isPath
      (List.mem_of_mem_filter isOther) differs)
    (quietMiddle.not_isLogged _)
  obtain ⟨-, content⟩ := (Disk.read_eq_ok_iff).mp read
  rw [CleanPath.IsAbsolute.target_text (CleanPath.isAbsolute_ofText_iff.mpr (path file isDue).2)
    (CleanPath.isProper_ofText _)] at content
  refine ⟨fits, absolute, proper, stillLocated, toEnd.folder _ id standing, ?_⟩
  rw [toAfter.disk quietLast.noLogs]
  exact Disk.file?_eq_some_iff.mp content

/-- When the site was written each of its files is there, whether or not it was due. -/
theorem exists_entry (member : file ∈ project.siteFiles config) :
    after.disk.locate after.here file.path = .ok file.place ∧
      ∃ entry, after.disk.entryAt file.place = some entry := by
  have tree := built.quiet.tree
  cases due : cleaned.isDue file with
  | true =>
      obtain ⟨dir, name, isFolder, isName, notUp, inFolder⟩ :=
        settled.exists_folder isRead tree built.configured member
      have stands := built.standsIn_of_isDue isRead settled member due isFolder isName notUp inFolder
      have located := stands.locate stands.absolute stands.proper stands.located stands.isFolder
      rw [← stands.path, ← stands.place_eq] at located
      exact ⟨located, _, stands.standing⟩
  | false =>
      obtain ⟨written, fromRoot⟩ := settled.path_of_mem isRead tree built.configured member
      obtain ⟨middle, values, last, toMiddle, quietMiddle, wrote, quietLast, toAfter, -⟩ :=
        built.exists_writing isRead settled
      have found : cleaned.disk.hasEntry cleaned.here file.path = true := by
        rw [World.isDue, Bool.or_eq_false_iff, Bool.not_eq_false'] at due
        exact due.1
      obtain ⟨located, entry, standing⟩ := (Disk.hasEntry_iff).mp found
      have atPlace : Disk.target cleaned.here file.path = file.place := by
        rw [← CleanPath.target_text_ofText, CleanPath.IsAbsolute.target_text
          (CleanPath.isAbsolute_ofText_iff.mpr fromRoot) (CleanPath.isProper_ofText _)]
        rfl
      rw [atPlace] at located standing
      have isPath := Disk.isPath_of_locate located
      have others (other : TextFile)
          (isDue : other ∈ (project.siteFiles config).filter cleaned.isDue) : other ≠ file := by
        rintro rfl
        rw [List.mem_filter, due] at isDue
        cases isDue.2
      have evolves := evolves_of_ending_writeFiles (fun other isDue =>
        built.isWrittenIn_of_ne isRead settled member isPath (List.mem_of_mem_filter isDue)
          (others other isDue)) wrote
      have toEnd : Evolves (· ≠ file.place) nowhere cleaned after :=
        (toMiddle.evolves _ _).trans (evolves.trans (toAfter.evolves _ _))
      refine ⟨?_, ?_⟩
      · rw [toEnd.here]
        exact Disk.locate_mono (fun place => toEnd.folder place id) located
      · cases entry with
        | folder => exact ⟨_, toEnd.folder _ id standing⟩
        | file content =>
            refine ⟨.file content, Disk.file?_eq_some_iff.mp ?_⟩
            rw [toEnd.file _ (fun differs => differs rfl)
              ((built.to_cleaned isRead settled).1.not_isLogged _)]
            exact Disk.file?_eq_some_iff.mpr standing

/-! ### The site stands -/

theorem standsIn_config : config.StandsIn project.output "_config.yml" after :=
  have isName : Path.IsName "_config.yml" := by decide
  built.standsIn_of_isDue isRead settled (project.config_mem_siteFiles config)
    (built.isDue_config isRead settled) (.inl rfl) isName (by decide)
    (built.configured.trans (isRead.absolute_output.join_name isRead.proper_output isName))

theorem isPath_folderOf : IsPath (folderOf project.output).text := by
  have isPath := (built.standsIn_config isRead settled).isPath
  have outputDir : project.settings.outputDir = project.output.text := rfl
  rw [built.configured, Site.configPath, outputDir] at isPath
  rw [← Example.folder_eq isRead.absolute_output isRead.proper_output, Example.folder]
  exact Disk.isPath_join_of_shorter isRead.absolute_output.text_ne_nil rfl rfl (by decide)
    (by decide) isPath

/-- What is new where a run may take things away is a file of the site. -/
theorem exists_of_gained {place : Location} {entry : Entry}
    (disposable : IsDisposable project.output place) (gone : cleaned.disk.entryAt place = none)
    (standing : after.disk.entryAt place = some entry) :
    ∃ file ∈ project.siteFiles config, IsPath file.path ∧ place = file.place := by
  obtain ⟨-, gains⟩ := built.to_after isRead settled
  have tree := built.quiet.tree
  cases entry with
  | folder =>
      have noWay : ¬∃ file ∈ project.siteFiles config,
          onWay (CleanPath.ofText file.path).parent place := by
        rintro ⟨file, member, way⟩
        exact settled.not_isDisposable_of_onWay isRead tree built.configured member way disposable
      rw [gains.folder place noWay standing] at gone
      cases gone
  | file content =>
      by_contra none
      rw [gains.file place content ?_ standing] at gone
      · cases gone
      · rintro ⟨file, member, isPath, same⟩
        rw [(settled.path_of_mem isRead tree built.configured member).1] at isPath
        exact none ⟨file, member, isPath, same⟩

/-- There is no folder of examples in the end. -/
theorem noExamples : after.disk.entryAt (folderOf project.output).place = none := by
  have gone := built.noExamples_planned isRead settled (built.isPath_folderOf isRead settled)
  by_contra standing
  obtain ⟨entry, standing⟩ := Option.ne_none_iff_exists'.mp standing
  have goneNow : cleaned.disk.entryAt (folderOf project.output).place = none := by
    by_contra still
    obtain ⟨entry, still⟩ := Option.ne_none_iff_exists'.mp still
    rw [(built.to_cleaned isRead settled).2.2.entryAt still] at gone
    cases gone
  obtain ⟨file, member, isPath, same⟩ := built.exists_of_gained isRead settled
    (.inl (Disk.isWithin_self _)) goneNow standing
  have named := (isWrittenIn_of_mem_site isRead built.configured member).2 file.place
  rw [placeOf, (settled.path_of_mem isRead built.quiet.tree built.configured member).1] at named
  obtain ⟨front, name, cut, named⟩ := named ⟨isPath, rfl⟩
  rw [← same, Example.place_folderOf] at cut
  obtain ⟨-, single⟩ := List.append_inj' cut rfl
  obtain rfl := (List.cons.inj single).1
  revert named
  decide

/-- Every page stands as it was planned, since a page replaces what was there. -/
theorem exists_standsIn_page {page : TextFile} (isPage : page ∈ project.pages) :
    ∃ dir name, page.StandsIn dir name after := by
  have inSite : page ∈ project.siteFiles config := project.mem_siteFiles_of_mem_pages isPage
  obtain ⟨dir, name, isFolder, isName, notUp, inFolder⟩ :=
    settled.exists_folder isRead built.quiet.tree built.configured inSite
  refine ⟨dir, name, built.standsIn_of_isDue isRead settled inSite ?_ isFolder isName notUp inFolder⟩
  exact World.isDue_of_overwrite (project.overwrite_of_mem_pages isPage)

/-- A file of the site that is kept does not stand where a page stands. -/
theorem place_ne_of_kept {file page : TextFile} (inSite : file ∈ project.siteFiles config)
    (kept : file.overwrite = false) (isPage : page ∈ project.pages) : file.place ≠ page.place := by
  intro same
  have alsoInSite : page ∈ project.siteFiles config := project.mem_siteFiles_of_mem_pages isPage
  obtain ⟨located, -⟩ := built.exists_entry isRead settled inSite
  obtain ⟨pageLocated, -⟩ := built.exists_entry isRead settled alsoInSite
  have replacing := project.overwrite_of_mem_pages isPage
  rw [← settled.eq_of_place isRead built.quiet.tree built.configured inSite alsoInSite
    (Disk.isPath_of_locate located) (Disk.isPath_of_locate pageLocated) same, kept] at replacing
  cases replacing

/-- What has a visible way and the ending of a page below the site is a page of it. -/
theorem isPage_of_standing {front : List Text} {name : Text} {entry : Entry}
    (visible : ∀ other ∈ front ++ [name], Glob.isHidden other = false)
    (ends : Text.endsWith name ".ts.md" = true)
    (isPath : IsPath (Path.join project.output.text (Text.joinWith "/" front)))
    (standing : after.disk.entryAt (project.output.place ++ (front ++ [name])) = some entry) :
    IsPath (project.output.below (front ++ [name])).text ∧
      ∃ page ∈ project.pages, page.place = project.output.place ++ (front ++ [name]) := by
  have gone := built.noPage_cleaned isRead settled visible ends isPath
  obtain ⟨file, member, filePath, same⟩ := built.exists_of_gained isRead settled
    (.inr ⟨front ++ [name], rfl, name, by simp, ends⟩) gone standing
  rcases settled.exists_place isRead built.quiet.tree built.configured member filePath with
    ⟨position, names, -, isNames, place⟩ | ⟨position, module, isModule, rfl, place⟩
  · -- No file of the scaffold has the ending.
    rw [place] at same
    have cut := List.append_cancel_left same
    exact (Site.not_endsAsPage_of_mem_scaffold (List.mem_of_getElem? isNames)
      ⟨front, name, cut.symm, ends⟩).elim
  · have inModules := List.mem_of_getElem? isModule
    obtain ⟨inBounds, rfl⟩ := List.getElem?_eq_some_iff.mp isModule
    rw [same]
    refine ⟨?_, _, List.mem_mapIdx.mpr ⟨position, inBounds, rfl⟩, rfl⟩
    rw [place] at same
    rw [List.append_cancel_left same]
    exact settled.isPath_placeNames isRead built.quiet.tree inModules
      (isRead.isPath_page inModules filePath)

/-- After a build that succeeds the site of its project stands. -/
theorem hasSite : after.HasSite project config.content where
  quiet := (built.to_after isRead settled).1
  located := (built.standsIn_config isRead settled).located
  isFolder := (built.standsIn_config isRead settled).isFolder
  isPath := built.isPath_folderOf isRead settled
  noExamples := built.noExamples isRead settled
  unified := built.unified
  upToDate := built.upToDate
  written := by
    intro file member
    rcases List.mem_cons.mp member with rfl | isPage
    · have stands := (built.standsIn_config isRead settled).with_overwrite true
      rw [built.configured] at stands
      exact ⟨_, _, stands⟩
    · exact built.exists_standsIn_page isRead settled isPage
  found := by
    intro file member
    have inSite : file ∈ project.siteFiles config := by
      simp only [List.mem_cons, List.not_mem_nil, or_false] at member
      rcases member with rfl | rfl <;> simp [Project.siteFiles]
    have kept : file.overwrite = false := by
      simp only [List.mem_cons, List.not_mem_nil, or_false] at member
      rcases member with rfl | rfl <;> rfl
    obtain ⟨located, standing⟩ := built.exists_entry isRead settled inSite
    exact ⟨located, standing, fun page isPage =>
      built.place_ne_of_kept isRead settled inSite kept isPage⟩
  onlyPages := fun _ _ _ visible ends isPath standing =>
    built.isPage_of_standing isRead settled visible ends isPath standing

end IsBuilt

end Run

end ApiDocs
