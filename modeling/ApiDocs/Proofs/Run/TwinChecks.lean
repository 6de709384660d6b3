import ApiDocs.Proofs.Disk.CopyChange
import ApiDocs.Proofs.Run.Relocation
import ApiDocs.Proofs.Run.Verify

/-!
# Checks in two places

In two worlds that hold the same in two folders, the same files are written below both, the
same is removed there, and a check of the same examples ends alike.
-/

namespace ApiDocs

open Disk (ChangedAlike Fits GoesDown)
open World (AreTwins OnlyLogs)

namespace World

variable {world world' : World} {root root' : CleanPath}

theorem IsUnlogged.withDisk (unlogged : world.IsUnlogged root) (disk : Disk) :
    (world.withDisk disk).IsUnlogged root := by
  rintro place ⟨path, isOpen, standing⟩
  exact unlogged place ⟨path, (mem_openLogs_withDisk_iff.mp isOpen).1, fun _ => standing (by simp)⟩

theorem AreTwins.withDisk (twins : AreTwins root root' world world') {disk disk' : Disk}
    (copies : disk.AreCopies disk' root root') :
    AreTwins root root' (world.withDisk disk) (world'.withDisk disk') :=
  ⟨copies, twins.left.withDisk disk, twins.right.withDisk disk'⟩

end World

namespace CleanPath

variable {path : CleanPath} {names : List Text} {name : Text}

/-- The last piece of a path below another one is the last name. -/
theorem IsAbsolute.baseName_below (absolute : path.IsAbsolute) (proper : path.IsProper)
    (areNames : ∀ other ∈ names ++ [name], Path.IsName other) :
    Path.baseName (path.below (names ++ [name])).text = name := by
  have isName := areNames name (by simp)
  have isProper := proper.below fun other member => areNames other (List.mem_append_left _ member)
  rw [← below_below, ← (absolute.below names).join_name isProper isName, Path.baseName,
    Path.split_join_snd isName.whole]

end CleanPath

namespace Run

variable {environment : Environment} {root root' : CleanPath} {spot : Spot} {folder : List Text}
variable {file file' : TextFile} {files files' : List TextFile} {name : Text}

/-- Files with the same text under the same name in a folder below two others. -/
def FileAlike (root root' : CleanPath) (folder : List Text) (file file' : TextFile) : Prop :=
  ∃ name, file.path = (root.below (folder ++ [name])).text ∧
    file'.path = (root'.below (folder ++ [name])).text ∧
    Fits root { names := folder ++ [name] } ∧ Fits root' { names := folder ++ [name] } ∧
    file.content = file'.content ∧ file.overwrite = file'.overwrite

/-! ## Writing and removing -/

theorem exists?_alike (fits : Fits root spot) (fits' : Fits root' spot) :
    GoAlike (AreTwins root root') Eq (exists? (spot.text root)) (exists? (spot.text root')) :=
  .bind .get fun world world' twins =>
    .pure (twins.copies.hasEntry_eq world.here world'.here fits fits')

theorem isDue_alike (part : Text) (files : FileAlike root root' folder file file') :
    GoAlike (AreTwins root root') Eq (isDue part file) (isDue part file') := by
  have free := AreTwins.logsFreely root root'
  obtain ⟨name, atPath, atPath', fits, fits', -, overwrite⟩ := files
  have found := exists?_alike fits fits'
  rw [Spot.text_open, Spot.text_open, ← atPath, ← atPath'] at found
  rw [isDue, isDue, overwrite]
  refine .bind found ?_
  rintro found _ rfl
  cases found with
  | false => exact .pure rfl
  | true =>
      cases file'.overwrite with
      | false => exact .bind (.log free) fun _ _ _ => .pure rfl
      | true => exact .bind (.log free) fun _ _ _ => .pure rfl

/-- The same places are kept in lists that match. -/
theorem forall₂_filterMap_zip {α β : Type} {matched : α → β → Prop} {items : List α}
    {others : List β} (pairs : List.Forall₂ matched items others) (keep : List Bool) :
    List.Forall₂ matched
      ((items.zip keep).filterMap fun (item, kept) => if kept then some item else none)
      ((others.zip keep).filterMap fun (item, kept) => if kept then some item else none) := by
  induction pairs generalizing keep with
  | nil => exact .nil
  | cons pair _ ih =>
      cases keep with
      | nil => exact .nil
      | cons kept rest =>
          cases kept with
          | false => exact ih rest
          | true => exact .cons pair (ih rest)

theorem dueFiles_alike (schedule : Schedule) (part : Text)
    (pairs : List.Forall₂ (FileAlike root root' folder) files files') :
    GoAlike (AreTwins root root') (List.Forall₂ (FileAlike root root' folder))
      (dueFiles schedule part files) (dueFiles schedule part files') := by
  refine .bind (.forEach pairs fun _ _ pair => isDue_alike part pair) fun due due' same => .pure ?_
  rw [List.forall₂_eq_eq_eq] at same
  obtain rfl := same
  exact forall₂_filterMap_zip pairs due

theorem change_alike (action path path' : Text) {changed changed' : Disk → Location → Disk.Changed}
    (alike : ∀ first second : Disk, ∀ here there, first.AreCopies second root root' →
      ChangedAlike root root' (changed first here) (changed' second there)) :
    GoAlike (AreTwins root root') Eq (change action path changed) (change action path' changed') := by
  intro world world' twins
  have own := alike world.disk world'.disk world.here world'.here twins.copies
  rw [ending_change, ending_change]
  exact ⟨own.outcome.mapError fun _ _ => refusal_alike action path path', twins.withDisk own.copies⟩

theorem writeText_alike (pair : FileAlike root root' folder file file') :
    GoAlike (AreTwins root root') Eq (writeText file.path file.content)
      (writeText file'.path file'.content) := by
  obtain ⟨name, atPath, atPath', fits, fits', content, -⟩ := pair
  have written (bytes : List UInt8) : GoAlike (AreTwins root root') Eq
      (change "write" file.path fun disk here => disk.write here file.path bytes)
      (change "write" file'.path fun disk here => disk.write here file'.path bytes) :=
    change_alike _ _ _ fun first second here there copies => by
      rw [atPath, atPath']
      exact copies.write fits fits' bytes
  rw [writeText, writeText, content]
  split
  · exact written _
  · exact .bind (written _) fun _ _ _ => .throw (.same _)

/-- The same files are written below both folders. -/
theorem writeAll_alike (part : Text) (schedule : WriteSchedule)
    (pairs : List.Forall₂ (FileAlike root root' folder) files files') :
    GoAlike (AreTwins root root') (fun _ _ => True) (writeAll part files schedule)
      (writeAll part files' schedule) :=
  .bind (dueFiles_alike schedule.checks part pairs) fun _ _ due =>
    .discard (.forEach due fun _ _ pair => writeText_alike pair)

theorem single_below {disk : Disk} {root : CleanPath} (isBase : disk.IsBase root)
    (areNames : ∀ other ∈ folder ++ [name], Path.IsName other) (here : Location) :
    Glob.single disk here (root.below (folder ++ [name])).text =
      if disk.hasEntry here (root.below (folder ++ [name])).text
      then [(root.below (folder ++ [name])).text] else [] := by
  have isName := areNames name (by simp)
  have inFront : ∀ other ∈ folder, Path.IsName other := fun other member =>
    areNames other (List.mem_append_left _ member)
  have joined := (isBase.absolute.below folder).join_name (isBase.proper.below inFront) isName
  rw [CleanPath.below_below] at joined
  rw [← joined, ← Disk.hasName_eq_hasEntry]
  exact single_join isName.whole isName.nonempty disk here

section Removing

variable (fits : Fits root { names := folder ++ [name] })
  (fits' : Fits root' { names := folder ++ [name] })

include fits fits'

/-- A name without wildcards in a folder below both others matches itself in both, or nothing. -/
theorem matching_alike (plain : Wildcard.hasMagic (root.below (folder ++ [name])).text = false)
    (plain' : Wildcard.hasMagic (root'.below (folder ++ [name])).text = false) :
    GoAlike (AreTwins root root') (fun found found' => found = [] ∧ found' = [] ∨
        found = [(root.below (folder ++ [name])).text] ∧
          found' = [(root'.below (folder ++ [name])).text])
      (matching (root.below (folder ++ [name])).text)
      (matching (root'.below (folder ++ [name])).text) := by
  refine .bind .get fun world world' twins => .ofExcept ?_
  have same : world.disk.hasEntry world.here (root.below (folder ++ [name])).text =
      world'.disk.hasEntry world'.here (root'.below (folder ++ [name])).text :=
    twins.copies.hasEntry_eq world.here world'.here fits fits'
  rw [Glob.search, Glob.search, if_neg (by simp [plain]), if_neg (by simp [plain']),
    single_below twins.copies.left fits.areNames, single_below twins.copies.right fits.areNames, same]
  refine .ok ?_
  split
  · exact .inr ⟨rfl, rfl⟩
  · exact .inl ⟨rfl, rfl⟩

theorem removeEach_singleton_alike (down : GoesDown name) {first second : Disk}
    (here there : Location) (copies : first.AreCopies second root root') :
    ChangedAlike root root' (first.removeEach here [(root.below (folder ++ [name])).text])
      (second.removeEach there [(root'.below (folder ++ [name])).text]) := by
  obtain ⟨outcome, left⟩ : ChangedAlike root root'
      (first.remove here (root.below (folder ++ [name])).text)
      (second.remove there (root'.below (folder ++ [name])).text) :=
    copies.remove fits fits' down
  rw [Disk.removeEach, Disk.removeEach]
  revert outcome left
  rcases first.remove here (root.below (folder ++ [name])).text with ⟨outcome, left⟩
  rcases second.remove there (root'.below (folder ++ [name])).text with ⟨outcome', right⟩
  rintro (_ | refused) copies
  · exact ⟨.ok rfl, copies⟩
  · exact ⟨.error refused, copies⟩

/-- A name in a folder below both others is removed from both. -/
theorem remove_alike (down : GoesDown name)
    (plain : Wildcard.hasMagic (root.below (folder ++ [name])).text = false)
    (plain' : Wildcard.hasMagic (root'.below (folder ++ [name])).text = false) :
    GoAlike (AreTwins root root') (fun _ _ => True)
      (remove environment (root.below (folder ++ [name])).text)
      (remove environment (root'.below (folder ++ [name])).text) := by
  have noted {pattern pattern' : Text} : GoAlike (AreTwins root root') Eq
      (modify fun world => world.noteRemoval pattern)
      (modify fun world => world.noteRemoval pattern') :=
    fun _ _ twins => ⟨.ok rfl, twins.copies, twins.left, twins.right⟩
  refine .bind noted fun _ _ _ => ?_
  cases environment.removalRefused with
  | some reason => exact .throw (.resource _ _ _ _)
  | none =>
      refine .bind (matching_alike fits fits' plain plain') ?_
      rintro found found' (⟨rfl, rfl⟩ | ⟨rfl, rfl⟩)
      · exact (change_alike _ _ _ fun _ _ _ _ copies => ⟨.ok rfl, copies⟩).mono fun _ _ _ => trivial
      · exact (change_alike _ _ _ fun _ _ here there copies =>
          removeEach_singleton_alike fits fits' down here there copies).mono fun _ _ _ => trivial

end Removing

/-! ## Checking the examples -/

variable {settings settings' : Settings} {examples examples' : List TextFile}

theorem callChecker_alike {command executable executable' : Text}
    {additions additions' : List (Text × Text)} :
    GoAlike (AreTwins root root') Eq (callChecker environment command executable additions)
      (callChecker environment command executable' additions') := by
  have called : GoAlike (AreTwins root root') Eq
      (modify fun world => { world with
        calls := world.calls ++ [{ command, executable, additions, disk := world.disk }] })
      (modify fun world => { world with
        calls := world.calls ++
          [{ command, executable := executable', additions := additions', disk := world.disk }] }) :=
    fun _ _ twins => ⟨.ok rfl, twins.copies, twins.left, twins.right⟩
  refine .bind called fun _ _ _ => ?_
  split
  · exact .pure rfl
  · exact .throw (.same _)

theorem cleanUp_alike {path path' : Text} (removed : GoAlike (AreTwins root root') (fun _ _ => True)
    (remove environment path) (remove environment path')) :
    GoAlike (AreTwins root root') (fun _ _ => True) (cleanUp environment path)
      (cleanUp environment path') := by
  have logged {message message' : Text} : GoAlike (AreTwins root root') (fun _ _ => True)
      (log .warning examplesPart message) (log .warning examplesPart message') :=
    (GoAlike.log (AreTwins.logsFreely root root')).mono fun _ _ _ => trivial
  refine .bind removed.attempt ?_
  rintro _ _ (_ | @⟨own, other, alike⟩)
  · exact .pure trivial
  · cases alike with
    | same =>
        cases own with
        | resource => exact logged
        | _ => exact .throw (.same _)
    | settings problem problem' => exact .throw (.settings _ _)
    | resource => exact logged
    | fault cause cause' => exact .throw (.fault _ _)

section

variable (written : GoAlike (AreTwins root root') (fun _ _ => True)
  (writeAll examplesPart examples (environment.writing .examples))
  (writeAll examplesPart examples' (environment.writing .examples)))
variable (own : ∀ options, GoAlike (AreTwins root root') (fun _ _ => True)
  (writeAll examplesPart
    (Example.checkerFiles (Example.folder settings.outputDir) options examples)
    (environment.writing .checker))
  (writeAll examplesPart
    (Example.checkerFiles (Example.folder settings'.outputDir) options examples')
    (environment.writing .checker)))
variable (options : settings.exampleOptions = settings'.exampleOptions)

include written own options

theorem writeAndCheck_alike (command : Text) :
    GoAlike (AreTwins root root') Eq (writeAndCheck environment command examples settings)
      (writeAndCheck environment command examples' settings') := by
  have free := AreTwins.logsFreely root root'
  have given : GoAlike (AreTwins root root') Eq
      (ofExcept ((Example.options settings.exampleOptions).mapError (.fault ∘ .unwritable)))
      (ofExcept ((Example.options settings'.exampleOptions).mapError (.fault ∘ .unwritable))) := by
    rw [options]
    exact .ofExcept (.refl _)
  refine .bind written fun _ _ _ => .bind given ?_
  rintro content _ rfl
  exact .bind (own content) fun _ _ _ => .bind (.log free) fun _ _ _ =>
    .bind .get fun _ _ _ => callChecker_alike

/-- If the same files are written and the same folder is removed, checks of examples end alike. -/
theorem checkExamples_alike (same : examples.isEmpty = examples'.isEmpty)
    (removed : GoAlike (AreTwins root root') (fun _ _ => True)
      (remove environment (Example.folder settings.outputDir))
      (remove environment (Example.folder settings'.outputDir))) (command : Option Text) :
    GoAlike (AreTwins root root') (fun _ _ => True)
      (checkExamples environment command examples settings)
      (checkExamples environment command examples' settings') := by
  have free := AreTwins.logsFreely root root'
  unfold checkExamples
  extract_lets folder chosen folder'
  rw [same]
  by_cases none : examples'.isEmpty = true
  · rw [if_pos none, if_pos none]
    exact .bind (.log free) fun _ _ _ => removed
  · rw [if_neg none, if_neg none]
    refine .bind (writeAndCheck_alike written own options chosen).attempt ?_
    rintro _ _ (_ | ended)
    · exact removed
    · exact .bind (cleanUp_alike removed) fun _ _ _ => .throw ended

end

end Run

namespace Project

variable {project : Project} {environment : Environment} {start : World} {root' : CleanPath}

/-- The same project at another place. -/
def movedTo (project : Project) (root : CleanPath) : Project :=
  { project with root }

/-- The names that lead from a project to the folder of its examples. -/
def scratchNames (project : Project) : List Text :=
  Path.names project.configured.outputDir ++ [("examples" : Text)]

/-- The paths that a check of the examples writes to and removes. -/
def scratchPaths (project : Project) : List Text :=
  Example.folder project.settings.outputDir ::
    (Example.checkerFiles (Example.folder project.settings.outputDir) [] [] ++
      project.examples).map TextFile.path

/--
A project whose examples can be checked in another place as well: the folder of its site lies in
the project, and no path to its examples has wildcards, slashes in names or too many bytes.
-/
structure ChecksAlike (project : Project) (root' : CleanPath) : Prop where
  relative : Path.isAbsolute project.configured.outputDir = false
  plain : Wildcard.hasMagic project.configured.outputDir = false
  inside : (Path.depth? 0 (Path.names project.configured.outputDir)).isSome
  names : project.HasNoSlash
  short : Glob.AreShort project.root root' project.scratchPaths

theorem folder_eq {root : CleanPath} (absolute : root.IsAbsolute) (proper : root.IsProper)
    (relative : Path.isAbsolute project.configured.outputDir = false) :
    Example.folder (project.movedTo root).settings.outputDir =
      (root.below project.scratchNames).text := by
  have isFolder := Example.folder_eq (absolute.append project.configured.outputDir)
    (proper.append project.configured.outputDir)
  rw [Example.folderOf, CleanPath.append_eq_below relative, CleanPath.below_below] at isFolder
  rw [scratchNames, ← isFolder, settings, Settings.within, movedTo,
    CleanPath.append_eq_below relative]

theorem areNames_scratchNames : ∀ name ∈ project.scratchNames, Path.IsName name := by
  rw [scratchNames, List.forall_mem_append]
  exact ⟨fun name => Path.isName_of_mem_names, by decide⟩

section

variable (checks : project.ChecksAlike root') (isRead : project.IsRead environment start)

include checks

theorem ChecksAlike.fits_of_mem {names : List Text}
    (member : (project.root.below names).text ∈ project.scratchPaths)
    (stays : Spot.Stays { names }) :
    Fits project.root { names } ∧ Fits root' { names } := by
  obtain ⟨left, right⟩ := checks.short { names } member
  exact ⟨⟨stays, left⟩, ⟨stays, right⟩⟩

theorem ChecksAlike.stays {names : List Text} (areNames : ∀ name ∈ names, Path.IsName name)
    (plain : ∀ name ∈ names, name ≠ "..") :
    Spot.Stays { names := project.scratchNames ++ names } where
  areNames := List.forall_mem_append.mpr ⟨areNames_scratchNames, areNames⟩
  depth := by
    obtain ⟨reached, depth⟩ := Option.isSome_iff_exists.mp checks.inside
    have folder : Path.depth? reached [("examples" : Text)] = some (reached + 1) :=
      Path.depth?_of_ne (by decide) _
    rw [scratchNames, Path.depth?_append, Path.depth?_append, depth, Option.bind_some, folder,
      Option.bind_some, Path.depth?_of_plain plain]
    rfl

include isRead

theorem ChecksAlike.fits_folder :
    Fits project.root { names := project.scratchNames } ∧
      Fits root' { names := project.scratchNames } := by
  have isFolder : Example.folder project.settings.outputDir =
      (project.root.below project.scratchNames).text :=
    folder_eq isRead.absolute isRead.proper checks.relative
  have stays : Spot.Stays { names := project.scratchNames ++ [] } :=
    checks.stays (by simp) (by simp)
  rw [List.append_nil] at stays
  refine checks.fits_of_mem ?_ stays
  rw [← isFolder]
  exact List.mem_cons_self

variable (absolute : root'.IsAbsolute) (proper : root'.IsProper)

include absolute proper

/-- A file for a check is written under the same name below both places. -/
theorem ChecksAlike.fileAlike {name : Text} (isName : Path.IsName name) (plain : name ≠ "..")
    {file file' : TextFile} (member : file.path ∈ project.scratchPaths)
    (inFolder : file.path = Path.join (Example.folder project.settings.outputDir) name)
    (inFolder' : file'.path =
      Path.join (Example.folder (project.movedTo root').settings.outputDir) name)
    (content : file.content = file'.content) (overwrite : file.overwrite = file'.overwrite) :
    Run.FileAlike project.root root' project.scratchNames file file' := by
  have below {root : CleanPath} (absolute : root.IsAbsolute) (proper : root.IsProper) :
      Path.join (Example.folder (project.movedTo root).settings.outputDir) name =
        (root.below (project.scratchNames ++ [name])).text := by
    rw [folder_eq absolute proper checks.relative,
      (absolute.below project.scratchNames).join_name (proper.below areNames_scratchNames) isName,
      CleanPath.below_below]
  have own : file.path = (project.root.below (project.scratchNames ++ [name])).text :=
    inFolder.trans (below isRead.absolute isRead.proper)
  obtain ⟨fits, fits'⟩ := checks.fits_of_mem (own ▸ member)
    (checks.stays (by simpa using isName) (by simpa using plain))
  exact ⟨name, own, inFolder'.trans (below absolute proper), fits, fits', content, overwrite⟩

/-- The files of the examples are the same under the same names. -/
theorem ChecksAlike.examples_alike :
    List.Forall₂ (Run.FileAlike project.root root' project.scratchNames) project.examples
      (project.movedTo root').examples := by
  have pairs : List.Forall₂ (fun file file' : TextFile => ∃ name, Path.IsName name ∧ name ≠ ".." ∧
      file.path = Path.join (Example.folder project.settings.outputDir) name ∧
      file'.path = Path.join (Example.folder (project.movedTo root').settings.outputDir) name ∧
      file.content = file'.content ∧ file.overwrite = file'.overwrite)
      (Example.harvest project.modules project.settings.outputDir)
      (Example.harvest project.modules (project.movedTo root').settings.outputDir) := by
    refine Example.forall₂_harvest fun module inModules entry isDocumented index content => ?_
    obtain ⟨inKind, inName⟩ := Example.hasNoSlash_of_mem_documented
      (isRead.slash_not_mem_name inModules) (checks.names module inModules) isDocumented
    have whole := Example.slash_not_mem_fileName index
      (fun part inPath => (isRead.isName_of_mem_path inModules inPath).whole) inKind inName
    have down := CleanPath.goesDown_of_ending (show Disk.Name.IsAsciiString ".ts" by decide)
      (by decide) (show Example.fileName module.path entry.1 entry.2.name index = _ ++ _ from rfl)
    have notUp : Example.fileName module.path entry.1 entry.2.name index ≠ ".." := by
      intro up
      rw [up] at down
      exact down.notUp Disk.stored_up
    exact ⟨_, Example.isName_of_ending ".ts" whole (by decide) rfl, notUp, rfl, rfl, rfl, rfl⟩
  have inScratch : ∀ file ∈ Example.harvest project.modules project.settings.outputDir,
      file.path ∈ project.scratchPaths := by
    intro file member
    refine List.mem_cons_of_mem _ ?_
    rw [List.map_append]
    refine List.mem_append_right _ ?_
    rw [examples, Example.prepare, List.map_map]
    exact List.mem_map_of_mem (f := TextFile.path ∘ _) member
  rw [examples, examples, Example.prepare, Example.prepare, List.forall₂_map_left_iff,
    List.forall₂_map_right_iff]
  refine ((List.forall₂_and_left _ _).mpr ⟨inScratch, pairs⟩).imp ?_
  rintro file file' ⟨member, name, isName, notUp, inFolder, inFolder', content, overwrite⟩
  exact checks.fileAlike isRead absolute proper isName notUp member inFolder inFolder'
    (by rw [content]; rfl) overwrite

/-- The files for the type checker are the same under the same names. -/
theorem ChecksAlike.checkerFiles_alike (options : Text) :
    List.Forall₂ (Run.FileAlike project.root root' project.scratchNames)
      (Example.checkerFiles (Example.folder project.settings.outputDir) options project.examples)
      (Example.checkerFiles (Example.folder (project.movedTo root').settings.outputDir) options
        (project.movedTo root').examples) := by
  have lines : project.examples.map Example.importLine =
      (project.movedTo root').examples.map Example.importLine := by
    refine List.forall₂_eq_eq_eq ▸ ?_
    rw [List.forall₂_map_left_iff, List.forall₂_map_right_iff]
    refine (checks.examples_alike isRead absolute proper).imp ?_
    rintro file file' ⟨name, atPath, atPath', fits, -⟩
    rw [Example.importLine, Example.importLine, atPath, atPath',
      isRead.absolute.baseName_below isRead.proper fits.areNames,
      absolute.baseName_below proper fits.areNames]
  have inScratch : ∀ file ∈ Example.checkerFiles (Example.folder project.settings.outputDir) options
      project.examples, file.path ∈ project.scratchPaths := by
    intro file member
    refine List.mem_cons_of_mem _ ?_
    rw [List.map_append]
    refine List.mem_append_left _ ?_
    rcases List.mem_cons.mp member with rfl | isOptions
    · exact List.mem_cons_self
    · rw [List.mem_singleton.mp isOptions]
      exact List.mem_cons_of_mem _ List.mem_cons_self
  have members := List.forall_mem_cons.mp inScratch
  refine .cons ?_ (.cons ?_ .nil)
  · have isName : Path.IsName ("index.ts" : Text) := by decide
    exact checks.fileAlike isRead absolute proper isName (by decide) members.1 rfl rfl
      (by rw [Example.index, Example.index, lines]) rfl
  · have isName : Path.IsName ("tsconfig.json" : Text) := by decide
    exact checks.fileAlike isRead absolute proper isName (by decide)
      (members.2 _ List.mem_cons_self) rfl rfl rfl rfl

end

end Project

namespace Run

variable {environment : Environment} {project : Project} {before start start' : World}
variable {root' : CleanPath}

/-- The examples of a project are checked in two places with the same end. -/
theorem verify_alike (checks : project.ChecksAlike root')
    (isRead : project.IsRead environment before)
    (twins : AreTwins project.root root' start start')
    (plain : Wildcard.hasMagic project.root.text = false)
    (plain' : Wildcard.hasMagic root'.text = false) :
    GoAlike (AreTwins project.root root') (fun _ _ => True) (verify environment project)
      (verify environment (project.movedTo root')) := by
  have free := AreTwins.logsFreely project.root root'
  have absolute := twins.copies.right.absolute
  have proper := twins.copies.right.proper
  obtain ⟨fits, fits'⟩ := checks.fits_folder isRead
  have noMagic {root : CleanPath} (absolute : root.IsAbsolute)
      (plain : Wildcard.hasMagic root.text = false) :
      Wildcard.hasMagic (root.below project.scratchNames).text = false := by
    have names : ∀ name ∈ project.scratchNames, Wildcard.hasMagic name = false := by
      rw [Project.scratchNames, List.forall_mem_append]
      exact ⟨fun name member => CleanPath.hasMagic_of_mem_names checks.plain member, by decide⟩
    rw [absolute.hasMagic_below, plain, Bool.false_or, List.any_eq_false]
    exact fun name member => by simp [names name member]
  have down : GoesDown ("examples" : Text) :=
    CleanPath.goesDown_of_ending (show Disk.Name.IsAsciiString "examples" by decide) (by decide)
      (show ("examples" : Text) = [] ++ ("examples" : Text) from rfl)
  have removed : GoAlike (AreTwins project.root root') (fun _ _ => True)
      (remove environment (Example.folder project.settings.outputDir))
      (remove environment (Example.folder (project.movedTo root').settings.outputDir)) := by
    have isFolder : Example.folder project.settings.outputDir =
        (project.root.below project.scratchNames).text :=
      Project.folder_eq isRead.absolute isRead.proper checks.relative
    rw [isFolder, Project.folder_eq absolute proper checks.relative]
    exact remove_alike fits fits' down (noMagic isRead.absolute plain) (noMagic absolute plain')
  have files := checks.examples_alike isRead absolute proper
  exact .bind (.log free) fun _ _ _ => checkExamples_alike (writeAll_alike examplesPart _ files)
    (fun options => writeAll_alike examplesPart _
      (checks.checkerFiles_alike isRead absolute proper options))
    rfl (by rw [Bool.eq_iff_iff, List.isEmpty_iff_length_eq_zero, List.isEmpty_iff_length_eq_zero,
      files.length_eq]) removed none

end Run

end ApiDocs
