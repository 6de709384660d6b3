import ApiDocs.Proofs.Disk.Filled
import ApiDocs.Proofs.Disk.Success
import ApiDocs.Proofs.Run.Quiet
import ApiDocs.Proofs.Run.Verify
import ApiDocs.Proofs.Run.Writing

/-!
# Examples that pass again

Whether a file can be written in a folder depends on its name and its content, and on the
folder being there.  So once the files of the examples were written, they can be written
again wherever the folder of the site is; the folder of the examples is made for them and is
taken away afterwards, and then the disk is as it was.
-/

namespace ApiDocs

open Disk (GoesDown IsPath)

/-- A file with a name and a content that can be written in a folder. -/
structure TextFile.FitsIn (file : TextFile) (dir : CleanPath) (name : Text) : Prop where
  isName : Path.IsName name
  down : GoesDown name
  path : file.path = (dir.below [name]).text
  isPath : IsPath file.path
  short : Disk.Name.size (Disk.Name.stored name) ≤ Disk.nameLimit
  encodable : Text.firstHalves? file.content = none

namespace TextFile.FitsIn

variable {file : TextFile} {dir : CleanPath} {name : Text} {disk : Disk} {here place : Location}
variable (fits : file.FitsIn dir name) (absolute : dir.IsAbsolute) (proper : dir.IsProper)

include fits

theorem isWrittenIn (absolute : dir.IsAbsolute) : Run.IsWrittenIn (fun _ => True) file := by
  refine ⟨?_, fun _ _ => trivial⟩
  rw [fits.path]
  exact (absolute.below [name]).isAbsolute_text

include absolute proper

/-- The path of the file leads into the folder, if that is there. -/
theorem locate (located : disk.locate here dir.text = .ok place)
    (isFolder : disk.entryAt place = some .folder) :
    disk.locate here (dir.below [name]).text = .ok (place ++ [Disk.Name.stored name]) :=
  (absolute.locate_concat_iff proper fits.isName fits.down).mpr
    ⟨fits.path ▸ fits.isPath, place, located, isFolder, fits.short, rfl⟩

theorem write_of_folder (located : disk.locate here dir.text = .ok place)
    (isFolder : disk.entryAt place = some .folder)
    (free : disk.entryAt (place ++ [Disk.Name.stored name]) ≠ some .folder) (bytes : List UInt8) :
    disk.write here file.path bytes =
      (.ok (), disk.put (place ++ [Disk.Name.stored name]) (.file bytes)) := by
  rw [fits.path]
  exact Disk.write_of_folder (proper.below (by simpa using fits.isName)) located isFolder
    (fits.locate absolute proper located isFolder) free

end TextFile.FitsIn

/-! ## A folder that is filled -/

namespace Disk

variable {before after : Disk} {name : Text}

/-- Files can be written in the folder if the folder above it is there. -/
theorem IsFilled.exists_write {dir : CleanPath} {inner : Text} {here place : Location}
    {file : TextFile}
    (filled : IsFilled (place ++ [inner]) before after) (tree : after.IsTree)
    (isName : IsName inner)
    (absolute : dir.IsAbsolute) (proper : dir.IsProper)
    (located : after.locate here dir.text = .ok place)
    (standing : after.entryAt place = some .folder)
    (fits : file.FitsIn (dir.below [inner]) name) (bytes : List UInt8) :
    ∃ written, after.write here file.path bytes = (.ok (), written) ∧
      IsFilled (place ++ [inner]) before written := by
  have innerProper : (dir.below [inner]).IsProper := proper.below (by simpa using isName.toIsName)
  have isPath : IsPath (dir.below [inner]).text :=
    (absolute.below [inner]).isPath_of_below innerProper fits.isName (fits.path ▸ fits.isPath)
  have inFolder {disk : Disk} (located : disk.locate here dir.text = .ok place)
      (standing : disk.entryAt place = some .folder) :
      disk.locate here (dir.below [inner]).text = .ok (place ++ [inner]) := by
    rw [absolute.locate_concat_iff proper isName.toIsName isName.goesDown, isName.shown]
    exact ⟨isPath, place, located, standing, isName.short, rfl⟩
  have write {disk : Disk} (filled : IsFilled (place ++ [inner]) before disk)
      (located : disk.locate here (dir.below [inner]).text = .ok (place ++ [inner]))
      (standing : disk.entryAt (place ++ [inner]) = some .folder) :
      ∃ written, disk.write here file.path bytes = (.ok (), written) ∧
        IsFilled (place ++ [inner]) before written :=
    ⟨_, fits.write_of_folder (absolute.below [inner]) innerProper located standing (filled.flat _)
      bytes,
      filled.put_file _ bytes⟩
  rcases filled.isFolder with nothing | isFolder
  · -- The folder is made first; writing is then the same as if it had been there.
    have below : place ++ [inner] ≠ [] := by simp
    have kept (other : Location) (isFolder : after.entryAt other = some .folder) :
        (after.put (place ++ [inner]) .folder).entryAt other = some .folder :=
      entryAt_put_of_folder (by simp [nothing]) isFolder
    have there := inFolder (locate_mono kept located) (kept place standing)
    have isMade : (after.put (place ++ [inner]) .folder).entryAt (place ++ [inner]) = some .folder :=
      entryAt_put_self below
    obtain ⟨written, wrote, still⟩ := write (filled.put_folder nothing tree) there isMade
    refine ⟨written, ?_, still⟩
    rw [← wrote, fits.path]
    have fileProper : ((dir.below [inner]).below [name]).IsProper :=
      innerProper.below (by simpa using fits.isName)
    rw [write_below_eq fileProper, write_below_eq fileProper,
      makeFolders_of_parent (inFolder located standing) nothing, makeFolders_of_folder there isMade]
  · exact write filled (inFolder located standing) isFolder

end Disk

namespace Run

open World (OnlyLogs)

variable {environment again : Environment} {world after : World} {dir : CleanPath}
variable {file : TextFile} {name content path part : Text} {values : List Unit}
variable {files list : List TextFile}

/-! ## What could be written -/

theorem encodable_of_ending_writeText
    (ended : ending (writeText path content) world = (.ok (), after)) :
    Text.firstHalves? content = none := by
  rw [writeText] at ended
  split at ended
  · assumption
  · obtain ⟨_, _, -, thrown⟩ := ending_bind_eq_ok_iff.mp ended
    cases thrown

/-- A file that was written in a folder fits in there, and the folder is there since then. -/
theorem fitsIn_of_ending_writeText (absolute : dir.IsAbsolute) (proper : dir.IsProper)
    (isName : Path.IsName name) (notUp : name ≠ "..")
    (inFolder : file.path = (dir.below [name]).text)
    (ended : ending (writeText file.path file.content) world = (.ok (), after)) :
    file.FitsIn dir name ∧ ∃ place, after.disk.locate after.here dir.text = .ok place ∧
      after.disk.entryAt place = some .folder := by
  have fileProper : (dir.below [name]).IsProper := proper.below (by simpa using isName)
  obtain ⟨located, -⟩ := (Disk.read_eq_ok_iff).mp (read_of_ending_writeText ended)
  rw [inFolder, fileProper.ofText_text] at located
  have isPath := Disk.isPath_of_locate located
  have down : GoesDown name := fileProper.goesDown isPath (by simp) notUp
  obtain ⟨-, place, inDir, isFolder, short, -⟩ :=
    (absolute.locate_concat_iff proper isName down).mp located
  exact ⟨⟨isName, down, inFolder, inFolder ▸ isPath, short, encodable_of_ending_writeText ended⟩,
    place, inDir, isFolder⟩

end Run

/-! ## Filling the folder of the examples -/

/-- A quiet world with the folder of a site, in which there is no folder of examples. -/
structure World.HasSiteFolder (output : CleanPath) (world : World) : Prop where
  quiet : world.IsQuiet
  located : world.disk.locate world.here output.text = .ok output.place
  isFolder : world.disk.entryAt output.place = some .folder
  isPath : IsPath (Example.folderOf output).text
  noExamples : world.disk.entryAt (Example.folderOf output).place = none

/-- A quiet world that has the folder of the examples with some files more than another one. -/
structure World.Fills (output : CleanPath) (world origin : World) : Prop where
  quiet : world.IsQuiet
  here : world.here = origin.here
  filled : Disk.IsFilled (Example.folderOf output).place origin.disk world.disk

/-- A quiet world with the present folder and the entries of another one. -/
structure World.Matches (world origin : World) : Prop where
  quiet : world.IsQuiet
  here : world.here = origin.here
  entries : ∀ place, world.disk.entryAt place = origin.disk.entryAt place

namespace World

variable {output : CleanPath} {origin world after : World} {disk : Disk}

theorem Matches.trans {first second third : World} (outer : third.Matches second)
    (inner : second.Matches first) : third.Matches first where
  quiet := outer.quiet
  here := outer.here.trans inner.here
  entries := fun place => (outer.entries place).trans (inner.entries place)

theorem OnlyLogs.matches (logs : OnlyLogs world after) (quiet : world.IsQuiet) :
    after.Matches world where
  quiet := logs.quiet quiet
  here := logs.here
  entries := fun place => by rw [logs.disk quiet.noLogs]

theorem HasSiteFolder.of_matches (site : world.HasSiteFolder output) (same : after.Matches world) :
    after.HasSiteFolder output where
  quiet := same.quiet
  located := by
    rw [same.here]
    exact Disk.locate_mono (fun place folder => (same.entries place).trans folder) site.located
  isFolder := (same.entries _).trans site.isFolder
  isPath := site.isPath
  noExamples := (same.entries _).trans site.noExamples

theorem Fills.of_logs (fills : world.Fills output origin) (logs : OnlyLogs world after) :
    after.Fills output origin where
  quiet := logs.quiet fills.quiet
  here := logs.here.trans fills.here
  filled := by
    rw [logs.disk fills.quiet.noLogs]
    exact fills.filled

theorem Fills.of_calls (fills : world.Fills output origin) (calls : List Call) :
    Fills output { world with calls } origin :=
  ⟨⟨fills.quiet.noLogs, fills.quiet.tree, fills.quiet.named⟩, fills.here, fills.filled⟩

namespace HasSiteFolder

variable (site : origin.HasSiteFolder output)

include site

theorem fills : origin.Fills output origin :=
  ⟨site.quiet, rfl, .refl site.quiet.tree site.noExamples⟩

/-- The folder of the site is still there. -/
theorem of_fills (fills : world.Fills output origin) :
    world.disk.locate world.here output.text = .ok output.place ∧
      world.disk.entryAt output.place = some .folder := by
  have folders (place : Location) (standing : origin.disk.entryAt place = some .folder) :
      world.disk.entryAt place = some .folder :=
    fills.filled.entryAt_folder site.quiet.tree site.noExamples standing
  rw [fills.here]
  exact ⟨Disk.locate_mono folders site.located, folders _ site.isFolder⟩

end HasSiteFolder

end World

/-- Where no log file is open, logging leaves everything as it was. -/
theorem Run.exists_ending_log {world : World} (quiet : world.IsQuiet) (level : Level)
    (part message : Text) :
    ∃ after, ending (log level part message) world = (.ok (), after) ∧ after.Matches world :=
  ⟨_, ending_log level part message world, (keeps_log level part message world).matches quiet⟩

namespace Run

open Disk (nowhere)
open World (Evolves)

variable {environment : Environment} {output : CleanPath} {origin world : World} {file : TextFile}
variable {name part report : Text} {list examples : List TextFile} {settings : Settings}
variable {schedule : WriteSchedule}

section

variable (absolute : output.IsAbsolute) (proper : output.IsProper)
variable (site : origin.HasSiteFolder output)
  (fills : world.Fills output origin)

include absolute proper site fills

/-- A file that fits in the folder of the examples is written there. -/
theorem exists_ending_writeText (fits : file.FitsIn (Example.folderOf output) name) :
    ∃ after, ending (writeText file.path file.content) world = (.ok (), after) ∧
      after.Fills output origin := by
  have folderAbsolute : (Example.folderOf output).IsAbsolute := absolute
  obtain ⟨located, isFolder⟩ := site.of_fills fills
  have filled := fills.filled
  rw [Example.place_folderOf] at filled
  obtain ⟨written, wrote, still⟩ := filled.exists_write fills.quiet.tree Example.isName_folder
    absolute proper located isFolder fits (Text.Utf8.encode file.content)
  have ended := ending_writeText_of_write fits.encodable wrote
  have brings : World.Brings (fun _ => True) (fun _ => True) world
      (ending (writeText file.path file.content) world).2 :=
    brings_writeText (fits.isWrittenIn folderAbsolute) (fun _ _ => trivial) world
  rw [ended] at brings
  rw [← Example.place_folderOf] at still
  exact ⟨_, ended, (brings fills.quiet).1, fills.here, still⟩

/-- Files that fit in the folder of the examples are written there. -/
theorem exists_ending_writeAll (fit : ∀ file ∈ list, file.overwrite = true ∧
      ∃ name, file.FitsIn (Example.folderOf output) name) :
    ∃ after, ending (writeAll part list schedule) world = (.ok (), after) ∧
      after.Fills output origin := by
  obtain ⟨middle, due, appends⟩ := ending_dueFiles schedule.checks part list world
  rw [World.filter_isDue_of_overwrite fun file member => (fit file member).1] at due
  have each : List.Forall₂ (fun (file : TextFile) (_ : Unit) => ∀ between : World,
      between.Fills output origin →
      ∃ last, ending (writeText file.path file.content) between = (.ok (), last) ∧
        last.Fills output origin) list (list.map fun _ => ()) := by
    rw [List.forall₂_map_right_iff, List.forall₂_same]
    intro file member between fills
    obtain ⟨-, name, fits⟩ := fit file member
    exact exists_ending_writeText absolute proper site fills fits
  obtain ⟨after, written, filled⟩ := exists_ending_forEach each (fills.of_logs appends.toOnlyLogs)
  refine ⟨after, ?_, filled⟩
  rw [writeAll, ending_bind_of_ok due]
  exact ending_bind_of_ok written _

/-- What the folder of the examples was filled with is taken away again. -/
theorem exists_ending_removeFolder (plain : Wildcard.hasMagic output.text = false)
    (allowed : environment.removalRefused = none) :
    ∃ after, ending (remove environment (Example.folder output.text)) world = (.ok (), after) ∧
      after.Matches origin := by
  have folderProper : (Example.folderOf output).IsProper := Example.isProper_folderOf proper
  have folderAbsolute : (Example.folderOf output).IsAbsolute := absolute
  have isName := Example.isName_folder
  obtain ⟨located, isFolder⟩ := site.of_fills fills
  have inFolder : world.disk.locate world.here (Example.folderOf output).text =
      .ok (Example.folderOf output).place := by
    rw [Example.place_folderOf, Example.folderOf, absolute.locate_concat_iff proper isName.toIsName
      isName.goesDown, isName.shown]
    exact ⟨site.isPath, _, located, isFolder, isName.short, rfl⟩
  have written : Example.folder output.text = (Example.folderOf output).text :=
    Example.folder_eq absolute proper
  have target : Disk.target world.here (Example.folderOf output).text =
      (Example.folderOf output).place := folderAbsolute.target_text folderProper world.here
  obtain ⟨left, removed, entries⟩ : ∃ left,
      world.disk.removeEach world.here
        (Glob.single world.disk world.here (Example.folder output.text)) = (.ok (), left) ∧
      ∀ place, left.entryAt place = origin.disk.entryAt place := by
    rw [Example.folder, single_join isName.whole isName.nonempty, ← Example.folder, written,
      Disk.hasName_eq_hasEntry]
    rcases fills.filled.isFolder with nothing | standing
    · rw [Disk.hasEntry_eq_false_of_entryAt (by rwa [target])]
      exact ⟨world.disk, rfl, fills.filled.entryAt_of_nothing site.quiet.tree fills.quiet.tree
        site.noExamples nothing⟩
    · have emptied (place : Location) (standing : origin.disk.entryAt place = some .folder) :
          (world.disk.empty (Example.folderOf output).place).entryAt place = some .folder :=
        fills.filled.entryAt_empty site.quiet.tree site.noExamples standing
      have way : (world.disk.empty (Example.folderOf output).place).locate world.here output.text =
          .ok output.place := by
        rw [fills.here]
        exact Disk.locate_mono emptied site.located
      rw [if_pos ((Disk.hasEntry_iff).mpr ⟨target ▸ inFolder, _, target ▸ standing⟩),
        Disk.removeEach, Example.folderOf, Disk.remove_of_folder absolute folderProper site.isPath
          (by decide) inFolder standing way (emptied _ site.isFolder)]
      exact ⟨_, rfl, fills.filled.entryAt_erase site.quiet.tree site.noExamples⟩
  have brings : World.Brings (fun _ => True) (fun _ => True) world
      (ending (remove environment (Example.folder output.text)) world).2 := brings_remove _ world
  have ended : ending (remove environment (Example.folder output.text)) world =
      (.ok (), (world.noteRemoval (Example.folder output.text)).withDisk left) := by
    rw [ending_remove_single (Example.hasMagic_folder plain) allowed, ending_change,
      World.noteRemoval_disk, World.noteRemoval_here, removed]
    rfl
  rw [ended] at brings
  exact ⟨_, ended, (brings fills.quiet).1, fills.here, entries⟩

end

/-- A type checker that finds nothing wrong only adds its call to the world. -/
theorem exists_ending_callChecker (passes : environment.verdict = .finished 0 report)
    (command executable : Text) (additions : List (Text × Text)) (world : World) :
    ∃ calls, ending (callChecker environment command executable additions) world =
      (.ok (), { world with calls }) := by
  refine ⟨world.calls ++ [{ command, executable, additions, disk := world.disk }], ?_⟩
  rw [callChecker, ending_bind_of_ok (ending_modify _ _), passes]
  rfl

/-- Files that can be written in the folder of the examples, and options for the type checker. -/
structure CanBeChecked (output : CleanPath) (settings : Settings) (examples : List TextFile) :
    Prop where
  fit : ∀ file ∈ examples, file.overwrite = true ∧
    ∃ name, file.FitsIn (Example.folderOf output) name
  own : ∃ options, Example.options settings.exampleOptions = .ok options ∧
    ∀ file ∈ Example.checkerFiles (Example.folder settings.outputDir) options examples,
      file.overwrite = true ∧ ∃ name, file.FitsIn (Example.folderOf output) name

section

variable (absolute : output.IsAbsolute) (proper : output.IsProper)
variable (site : origin.HasSiteFolder output)
  (passes : environment.verdict = .finished 0 report)

include absolute proper site passes

theorem exists_ending_writeAndCheck (checked : CanBeChecked output settings examples)
    (command : Text) :
    ∃ after, ending (writeAndCheck environment command examples settings) origin =
      (.ok (), after) ∧ after.Fills output origin := by
  obtain ⟨options, given, own⟩ := checked.own
  obtain ⟨first, wrote, filled⟩ : ∃ first,
      ending (writeAll examplesPart examples (environment.writing .examples)) origin =
        (.ok (), first) ∧ first.Fills output origin :=
    exists_ending_writeAll absolute proper site site.fills checked.fit
  obtain ⟨second, wroteOwn, filledOwn⟩ : ∃ second, ending (writeAll examplesPart
      (Example.checkerFiles (Example.folder settings.outputDir) options examples)
      (environment.writing .checker)) first = (.ok (), second) ∧ second.Fills output origin :=
    exists_ending_writeAll absolute proper site filled own
  rw [writeAndCheck, ending_bind_of_ok wrote, given]
  change ∃ after, ending (writeAll examplesPart
      (Example.checkerFiles (Example.folder settings.outputDir) options examples)
      (environment.writing .checker) >>= _) first = (.ok (), after) ∧ after.Fills output origin
  rw [ending_bind_of_ok wroteOwn, ending_bind_of_ok (ending_log _ _ _ _),
    ending_bind_of_ok (ending_get _)]
  have filledNow := filledOwn.of_logs (keeps_log .info examplesPart
    ("Type checking " ++ Number.intText examples.length ++ " examples...") second)
  rw [ending_log] at filledNow
  obtain ⟨calls, called⟩ := exists_ending_callChecker passes command _ _ _
  exact ⟨_, called, filledNow.of_calls calls⟩

/--
Where the examples of a project can be checked, a type checker that passes them leaves no trace.
-/
theorem exists_ending_checkExamples (plain : Wildcard.hasMagic output.text = false)
    (same : settings.outputDir = output.text) (allowed : environment.removalRefused = none)
    (checked : examples ≠ [] → CanBeChecked output settings examples) (command : Option Text) :
    ∃ after, ending (checkExamples environment command examples settings) origin =
      (.ok (), after) ∧ after.Matches origin := by
  have removes {world : World} (fills : world.Fills output origin) :
      ∃ after, ending (remove environment (Example.folder settings.outputDir)) world =
        (.ok (), after) ∧ after.Matches origin := by
    rw [same]
    exact exists_ending_removeFolder absolute proper site fills plain allowed
  unfold checkExamples
  extract_lets folder command
  by_cases none : examples.isEmpty = true
  · rw [if_pos none, ending_bind_of_ok (ending_log _ _ _ _)]
    exact removes (site.fills.of_logs (keeps_log _ _ _ origin))
  · rw [if_neg none, ending_bind, ending_attempt]
    have nonempty : examples ≠ [] := by simpa using none
    obtain ⟨middle, passed, filled⟩ :=
      exists_ending_writeAndCheck absolute proper site passes (checked nonempty) command
    rw [passed]
    exact removes filled

end

/-! ## Examples that were checked before -/

section

variable {after : World}

/-- What was written in a folder fits in there. -/
theorem fitsIn_of_ending_writeAll (absolute : output.IsAbsolute) (proper : output.IsProper)
    (ended : ending (writeAll part list schedule) world = (.ok (), after))
    (named : ∀ file ∈ list, file.overwrite = true ∧ ∃ name, Path.IsName name ∧ name ≠ ".." ∧
      file.path = (output.below [name]).text) :
    ∀ file ∈ list, file.overwrite = true ∧ ∃ name, file.FitsIn output name := by
  obtain ⟨middle, values, -, written⟩ := exists_of_ending_writeAll ended
  rw [World.filter_isDue_of_overwrite fun file member => (named file member).1] at written
  intro file member
  obtain ⟨overwrite, name, isName, notUp, path⟩ := named file member
  obtain ⟨_, start, last, wrote⟩ := exists_taken written member
  exact ⟨overwrite, name, (fitsIn_of_ending_writeText absolute proper isName notUp path wrote).1⟩

variable (absolute : output.IsAbsolute) (proper : output.IsProper)
  (same : settings.outputDir = output.text)

include absolute proper same

theorem exists_name_of_mem_checkerFiles {options : Text}
    (member : file ∈ Example.checkerFiles (Example.folder settings.outputDir) options examples) :
    file.overwrite = true ∧ ∃ name, Path.IsName name ∧ name ≠ ".." ∧
      file.path = ((Example.folderOf output).below [name]).text := by
  have folderAbsolute : (Example.folderOf output).IsAbsolute := absolute
  have replaces : file.overwrite = true := by
    rcases List.mem_cons.mp member with rfl | isOptions
    · rfl
    · rw [List.mem_singleton.mp isOptions]
  obtain ⟨name, isName, notUp, inFolder⟩ := Example.liesIn_of_mem_checkerFiles member
  rw [same, Example.folder_eq absolute proper,
    folderAbsolute.join_name (Example.isProper_folderOf proper) isName] at inFolder
  exact ⟨replaces, name, isName, notUp, inFolder⟩

/-- Examples that passed can be checked. -/
theorem canBeChecked_of_ending {command : Option Text}
    (named : ∀ file ∈ examples, file.overwrite = true ∧ ∃ name, Path.IsName name ∧ name ≠ ".." ∧
      file.path = ((Example.folderOf output).below [name]).text) (nonempty : examples ≠ [])
    (ended : ending (checkExamples environment command examples settings) world = (.ok (), after)) :
    CanBeChecked output settings examples := by
  have folderAbsolute : (Example.folderOf output).IsAbsolute := absolute
  have folderProper := Example.isProper_folderOf proper
  unfold checkExamples at ended
  extract_lets folder command at ended
  rw [if_neg (by simpa using nonempty), ending_bind, ending_attempt] at ended
  rcases passed : ending (writeAndCheck environment command examples settings) world with
    ⟨outcome, middle⟩
  rw [passed] at ended
  cases outcome with
  | error failure =>
      obtain ⟨_, _, -, thrown⟩ := ending_bind_eq_ok_iff.mp ended
      cases thrown
  | ok value =>
      obtain ⟨_, first, wrote, rest⟩ := ending_bind_eq_ok_iff.mp passed
      obtain ⟨options, second, given, rest⟩ := ending_bind_eq_ok_iff.mp rest
      obtain ⟨_, third, wroteOwn, -⟩ := ending_bind_eq_ok_iff.mp rest
      have options? : Example.options settings.exampleOptions = .ok options := by
        rw [ending_ofExcept, Prod.mk.injEq] at given
        cases made : Example.options settings.exampleOptions with
        | ok written =>
            rw [made] at given
            rw [show written = options from Except.ok.inj given.1]
        | error reason =>
            rw [made] at given
            cases given.1
      exact ⟨fitsIn_of_ending_writeAll folderAbsolute folderProper wrote named, options, options?,
        fitsIn_of_ending_writeAll folderAbsolute folderProper wroteOwn fun file member =>
          exists_name_of_mem_checkerFiles absolute proper same member⟩

end

variable {project : Project} {after : World} {again : Environment} {before : World}

/--
Without slashes in the declared names, every example has a name in the folder of the examples.
-/
theorem exists_name_of_mem_examples (isRead : project.IsRead environment world)
    (names : project.HasNoSlash) (member : file ∈ project.examples) :
    file.overwrite = true ∧ ∃ name, Path.IsName name ∧ name ≠ ".." ∧
      file.path = ((Example.folderOf project.output).below [name]).text := by
  have folderAbsolute : (Example.folderOf project.output).IsAbsolute := isRead.absolute_output
  obtain ⟨original, isOriginal, path, overwrite⟩ := Example.exists_of_mem_prepare member
  obtain ⟨front, whole, inFolder, replaces⟩ := Example.exists_name_of_mem_harvest
    (fun module inModules part inPath => (isRead.isName_of_mem_path inModules inPath).whole)
    (fun module inModules entry isDocumented =>
      Example.hasNoSlash_of_mem_documented (isRead.slash_not_mem_name inModules)
        (names module inModules) isDocumented) isOriginal
  have isName : Path.IsName (front ++ ".ts") := Example.isName_of_ending ".ts" whole (by decide) rfl
  have outputDir : project.settings.outputDir = project.output.text := rfl
  refine ⟨overwrite.trans replaces, front ++ ".ts", isName, ?_, ?_⟩
  · intro up
    have ends := Text.endsWith_append front ".ts"
    rw [up] at ends
    revert ends
    decide
  · rw [path, inFolder, outputDir, Example.folder_eq isRead.absolute_output isRead.proper_output,
      folderAbsolute.join_name (Example.isProper_folderOf isRead.proper_output) isName]

/--
If the examples of a project passed once, they pass again wherever the folder of its site is
there, and the disk is as before.
-/
theorem exists_ending_verify (isRead : project.IsRead environment world) (plain : project.IsPlain)
    (names : project.HasNoSlash)
    (verified : ending (verify environment project) before = (.ok (), after))
    (allowed : again.removalRefused = none) (passes : again.verdict = .finished 0 report)
    (site : origin.HasSiteFolder project.output) :
    ∃ last, ending (verify again project) origin = (.ok (), last) ∧ last.Matches origin := by
  have noMagic : Wildcard.hasMagic project.output.text = false :=
    isRead.hasMagic_output plain
  obtain ⟨_, started, -, checked⟩ := ending_bind_eq_ok_iff.mp verified
  have outputDir : project.settings.outputDir = project.output.text := rfl
  obtain ⟨_, logged, started⟩ :=
    exists_ending_log site.quiet .info mainPart "Type checking examples..."
  obtain ⟨last, ended, same⟩ := exists_ending_checkExamples isRead.absolute_output
    isRead.proper_output (site.of_matches started) passes noMagic outputDir allowed
    (fun nonempty => canBeChecked_of_ending isRead.absolute_output isRead.proper_output rfl
      (fun file member => exists_name_of_mem_examples isRead names member) nonempty checked) none
  exact ⟨last, (ending_bind_of_ok logged _).trans ended, same.trans started⟩

end Run

end ApiDocs
