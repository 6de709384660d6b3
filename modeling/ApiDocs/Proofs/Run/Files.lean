import ApiDocs.Proofs.Disk.Way
import ApiDocs.Proofs.Glob.Levels
import ApiDocs.Proofs.Run.Due

/-!
# What file steps keep

Reading and searching change nothing.  Writing files changes the files at the given
places, and removing takes away what stands at or below the places that a pattern leads to.
-/

namespace ApiDocs

namespace World

variable {links : Bool} {files folders : Location → Prop} {world : World links} {disk : Disk links}

@[simp]
theorem noteRemoval_disk (world : World links) (pattern : Text) :
    (world.noteRemoval pattern).disk = world.disk := rfl

@[simp]
theorem noteRemoval_here (world : World links) (pattern : Text) :
    (world.noteRemoval pattern).here = world.here := rfl

/-- After the disk was replaced, a log file is open if it was and still stands there. -/
theorem mem_openLogs_withDisk_iff {path : Text} :
    path ∈ (world.withDisk disk).openLogs ↔
      path ∈ world.openLogs ∧ disk.hasFile world.here path = true := by
  simp only [openLogs, withDisk, List.mem_filter, Bool.not_eq_true', Bool.eq_false_iff, ne_eq,
    List.contains_iff_mem, not_and, Bool.or_eq_true, not_or, not_not]
  constructor
  · rintro ⟨inFiles, notLost⟩
    obtain ⟨open', standing⟩ := notLost inFiles
    exact ⟨⟨inFiles, open'⟩, standing⟩
  · rintro ⟨⟨inFiles, open'⟩, standing⟩
    exact ⟨inFiles, fun _ => ⟨open', standing⟩⟩

theorem evolves_withDisk (evolves : Disk.Evolves files folders world.disk disk) :
    Evolves files folders world (world.withDisk disk) where
  here := rfl
  logs := fun _ isOpen => (mem_openLogs_withDisk_iff.mp isOpen).1
  tree := evolves.tree
  noLink := evolves.noLink
  file := fun place outside _ => evolves.file place outside
  folder := evolves.folder

end World

namespace Run

open Disk (nowhere)
open World (Evolves OnlyLogs)

variable {links : Bool} {α : Type} {relation : World links → World links → Prop}
variable {files folders moreFiles free : Location → Prop}
variable {environment : Environment} {path pattern : Text} {world : World links}
variable {schedule : WriteSchedule}

/-! ## Reading -/

theorem keeps_readText (kept : IsKept relation) (path : Text) : Keeps relation (readText path) := by
  refine .bind kept (.get kept) fun world => ?_
  split
  · exact .pure kept _
  · exact .throw kept _
  · exact .throw kept _

theorem keeps_exists? (kept : IsKept relation) (path : Text) : Keeps relation (exists? path) :=
  .bind kept (.get kept) fun _ => .pure kept _

theorem keeps_search (kept : IsKept relation) (pattern : Text) (exclude : List Text) :
    Keeps relation (search pattern exclude) :=
  .bind kept (.get kept) fun _ => .ofExcept kept _

theorem keeps_configFile (kept : IsKept relation) (settings : Settings) :
    Keeps relation (configFile settings) := by
  refine .bind kept (keeps_exists? kept _) fun found => ?_
  split
  · exact .bind kept (keeps_readText kept _) fun _ => .pure kept _
  · exact .pure kept _

/-! ## Changing -/

theorem ending_change (action path : Text) (changed : Disk links → Location → Disk.Changed links)
    (world : World links) :
    ending (change action path changed) world =
      ((changed world.disk world.here).1.mapError (refusal action path),
        world.withDisk (changed world.disk world.here).2) := by
  rw [change, ending_bind_of_ok (ending_get world)]
  rcases changed world.disk world.here with ⟨outcome, disk⟩
  cases outcome <;> rfl

/-- The place of a path, if the disk takes its text as a path at all. -/
def placeOf (path : CleanPath) : Location → Prop :=
  fun place => Disk.IsPath path.text ∧ place = path.place

/-- A file is written where its path leads when it is read as a clean path. -/
theorem write_ofText (disk : Disk links) (here : Location) (path : Text) (content : List UInt8) :
    disk.write here (CleanPath.ofText path).text content = disk.write here path content := by
  rw [Disk.write, Disk.write, (CleanPath.isProper_ofText path).ofText_text]

/-- Writing a text changes at most the file where its path leads. -/
theorem evolves_writeText (path content : Text) (world : World links)
    (straight : world.disk.IsStraight world.here (CleanPath.ofText path).text := by simp) :
    Evolves (Disk.atPath world.here (CleanPath.ofText path).text) nowhere world
      (ending (writeText path content) world).2 := by
  have kept := @Evolves.isKept links (Disk.atPath world.here (CleanPath.ofText path).text) nowhere
  have written (bytes : List UInt8) :
      Evolves (Disk.atPath world.here (CleanPath.ofText path).text) nowhere world
        (ending (change "write" path fun disk here => disk.write here path bytes) world).2 := by
    rw [ending_change, ← write_ofText]
    exact World.evolves_withDisk
      (Disk.evolves_write (CleanPath.isProper_ofText path) bytes straight)
  rw [writeText]
  split
  · exact written _
  · exact kept.ending_bind (written _) fun _ _ _ _ => kept.refl _

/-- Whether an absolute path passes only places of a scope. -/
def PassesOnly (free : Location → Prop) (path : CleanPath) : Prop :=
  ∀ place ∈ Disk.way [] path.text, free place

theorem PassesOnly.isStraight {path : CleanPath} (passes : PassesOnly free path)
    (absolute : path.IsAbsolute) (isFree : world.IsFree free) :
    world.disk.IsStraight world.here path.text := by
  intro place passed
  rw [Disk.way, Disk.origin, if_pos absolute.isAbsolute_text] at passed
  refine isFree place (passes place ?_)
  rwa [Disk.way, Disk.origin, if_pos absolute.isAbsolute_text]

theorem PassesOnly.mono {wider : Location → Prop} {path : CleanPath} (passes : PassesOnly free path)
    (contained : ∀ place, free place → wider place) : PassesOnly wider path :=
  fun place passed => contained place (passes place passed)

theorem keeps_writeText (absolute : Path.isAbsolute path = true) (content : Text)
    (passes : PassesOnly free (.ofText path)) :
    Keeps (Provided (World.IsFree free) (Evolves (placeOf (.ofText path)) nowhere))
      (writeText path content : RunOn links Unit) := by
  intro world isFree
  have ofText : (CleanPath.ofText path).IsAbsolute := CleanPath.isAbsolute_ofText_iff.mpr absolute
  refine (evolves_writeText path content world (passes.isStraight ofText isFree)).mono ?_ fun _ => id
  rintro place ⟨isPath, rfl⟩
  exact ⟨isPath, ofText.target_text (CleanPath.isProper_ofText path) world.here⟩

/-- Where there are no links, a text is written where its path leads. -/
theorem keeps_writeText_unlinked (absolute : Path.isAbsolute path = true) (content : Text) :
    Keeps (Evolves (placeOf (.ofText path)) nowhere) (writeText path content : Run Unit) :=
  have passes : PassesOnly (fun _ => True) (.ofText path) := fun _ _ => trivial
  (keeps_writeText absolute content passes).of_ifFree

/-! ## Removing -/

/-- Keeping what is to be taken away changes nothing else. -/
theorem evolves_noteRemoval (files folders : Location → Prop) (pattern : Text)
    (world : World links) :
    Evolves files folders world (world.noteRemoval pattern) :=
  ⟨rfl, fun _ => id, id, fun _ => id, fun _ _ _ => rfl, fun _ _ => id⟩

/-- A removal fails at once, or takes away what the search for its pattern finds. -/
theorem ending_remove_cases (environment : Environment) (pattern : Text) (world : World links) :
    (∃ failure, ending (remove environment pattern) world =
        (.error failure, world.noteRemoval pattern)) ∨
      ∃ found, Glob.search world.disk world.here pattern = .ok found ∧
        ending (remove environment pattern) world =
          ending (change "remove" pattern fun disk here => disk.removeEach here found)
            (world.noteRemoval pattern) := by
  rw [remove, ending_bind_of_ok (ending_modify _ world)]
  cases environment.removalRefused with
  | some reason => exact .inl ⟨_, rfl⟩
  | none =>
      have matched :
          ending (matching pattern) (world.noteRemoval pattern) =
            ((Glob.search world.disk world.here pattern).mapError (.fault ∘ .disk),
              world.noteRemoval pattern) := by
        rw [matching, ending_bind_of_ok (ending_get _), ending_ofExcept]
        rfl
      cases searched : Glob.search world.disk world.here pattern with
      | error error =>
          rw [searched] at matched
          exact .inl ⟨_, ending_bind_of_error matched _⟩
      | ok found =>
          rw [searched] at matched
          exact .inr ⟨found, rfl, ending_bind_of_ok matched _⟩

/-- A removal that is not refused takes away what the search for its pattern finds. -/
theorem ending_remove_of_search {found : List Text} (allowed : environment.removalRefused = none)
    (searched : Glob.search world.disk world.here pattern = .ok found) :
    ending (remove environment pattern) world =
      ending (change "remove" pattern fun disk here => disk.removeEach here found)
        (world.noteRemoval pattern) := by
  rw [remove, allowed, ending_bind_of_ok (ending_modify _ world), matching, bind_assoc,
    ending_bind_of_ok (ending_get _)]
  simp only [World.noteRemoval_disk, World.noteRemoval_here, searched]
  rfl

/-- Where a removal succeeds, none is refused. -/
theorem removalRefused_of_ending_remove {after : World links}
    (ended : ending (remove environment pattern) world = (.ok (), after)) :
    environment.removalRefused = none := by
  cases refused : environment.removalRefused with
  | none => rfl
  | some reason =>
      rw [remove, refused] at ended
      cases ended

/-- A removal that succeeds has taken away what the search for its pattern found. -/
theorem exists_of_ending_remove {after : World links}
    (ended : ending (remove environment pattern) world = (.ok (), after)) :
    ∃ found left, Glob.search world.disk world.here pattern = .ok found ∧
      world.disk.removeEach world.here found = (.ok (), left) ∧
      after = (world.noteRemoval pattern).withDisk left := by
  rcases ending_remove_cases environment pattern world with
    ⟨failure, failed⟩ | ⟨found, searched, same⟩
  · rw [failed] at ended
    cases ended
  · rw [same, ending_change] at ended
    rw [World.noteRemoval_disk, World.noteRemoval_here] at ended
    rcases taken : world.disk.removeEach world.here found with ⟨outcome, left⟩
    rw [taken] at ended
    cases outcome with
    | error error => cases ended
    | ok value =>
        cases ended
        exact ⟨found, left, searched, taken, rfl⟩

/-- A removal leaves only what was there, whether or not it succeeds. -/
theorem shrinks_remove (environment : Environment) (pattern : Text) (world : World links) :
    Disk.Shrinks world.disk (ending (remove environment pattern) world).2.disk := by
  rcases ending_remove_cases environment pattern world with
    ⟨failure, ended⟩ | ⟨found, -, ended⟩
  · rw [ended]
    exact .refl _
  · rw [ended, ending_change]
    exact Disk.shrinks_removeEach found

/-- A removal takes away only what stands at or below the paths that its pattern finds. -/
theorem evolves_remove {scope : Location → Prop}
    (contained : ∀ found, Glob.search world.disk world.here pattern = .ok found →
      ∀ place, Disk.belowPaths world.here found place → scope place)
    (straight : ∀ found, Glob.search world.disk world.here pattern = .ok found →
      ∀ path ∈ found, world.disk.IsStraight world.here path := by simp) :
    Evolves scope scope world (ending (remove environment pattern) world).2 := by
  have noted := evolves_noteRemoval scope scope pattern world
  rcases ending_remove_cases environment pattern world with
    ⟨failure, ended⟩ | ⟨found, searched, ended⟩
  · rw [ended]
    exact noted
  · rw [ended, ending_change]
    have inScope := contained found searched
    have taken := Disk.evolves_removeEach found (straight found searched)
    exact noted.trans (World.evolves_withDisk (taken.mono inScope inScope))

theorem mem_single {disk : Disk links} {here : Location} {found : Text}
    (member : found ∈ Glob.single disk here path) : found = path := by
  have chosen (found? : Bool) (member : found ∈ if found? then [path] else []) : found = path := by
    cases found? with
    | false => cases member
    | true => exact List.mem_singleton.mp member
  exact chosen _ member

/-- The places at or below the place of a path. -/
def belowPlace (path : CleanPath) : Location → Prop :=
  fun place => Disk.isWithin path.place place

/-- The places on the way of a path, and those at or below its place. -/
def onWayOrBelow (path : CleanPath) : Location → Prop :=
  fun place => place ∈ Disk.way [] path.text ∨ belowPlace path place

instance (path : CleanPath) (place : Location) : Decidable (onWayOrBelow path place) :=
  inferInstanceAs (Decidable (place ∈ Disk.way [] path.text ∨ Disk.isWithin path.place place = true))

/-- A path whose names go on down from those of another one passes places on its way or below. -/
theorem onWayOrBelow_of_mem_way {path : CleanPath} {other : Text} {rest : List Text}
    {here place : Location} (absolute : path.IsAbsolute) (proper : path.IsProper)
    (fromRoot : Path.isAbsolute other = true) (read : Path.names other = path.names ++ rest)
    (down : ∀ name ∈ rest, Disk.GoesDown name) (passed : place ∈ Disk.way here other) :
    onWayOrBelow path place := by
  obtain ⟨front, isPrefix, rfl⟩ := Disk.mem_way_iff_names.mp passed
  rw [read] at isPrefix
  rw [Disk.origin, if_pos fromRoot]
  rcases List.prefix_or_prefix_of_prefix isPrefix (List.prefix_append path.names rest) with
    above | ⟨more, rfl⟩
  · left
    refine Disk.mem_way_iff_names.mpr ⟨front, ?_, ?_⟩
    · rwa [proper.names_text]
    · rw [Disk.origin, if_pos absolute.isAbsolute_text]
  · right
    have inRest : more <+: rest := (List.prefix_append_right_inj _).mp isPrefix
    rw [Disk.follow_append, Disk.follow_of_goesDown fun name member =>
      down name (inRest.subset member)]
    exact Disk.isWithin_iff.mpr ⟨_, rfl⟩

/-- Names that go down lead to places on the way of a path, or below it. -/
theorem onWayOrBelow_of_below {path : CleanPath} {names : List Text} {place : Location}
    (absolute : path.IsAbsolute) (proper : (path.below names).IsProper)
    (down : ∀ name ∈ names, Disk.GoesDown name) (inScope : onWayOrBelow (path.below names) place) :
    onWayOrBelow path place := by
  rcases inScope with passed | inside
  · exact onWayOrBelow_of_mem_way absolute
      (fun name member => proper name (List.mem_append_left names member))
      (absolute.below names).isAbsolute_text proper.names_text down passed
  · right
    obtain ⟨rest, rfl⟩ := Disk.isWithin_iff.mp inside
    rw [CleanPath.place_below_of_goesDown down, List.append_assoc]
    exact Disk.isWithin_iff.mpr ⟨_, rfl⟩

theorem passesOnly_onWayOrBelow (path : CleanPath) : PassesOnly (onWayOrBelow path) path :=
  fun _ => .inl

/-- Without wildcards a search finds at most the path itself. -/
theorem eq_of_mem_search {found : List Text} {other : Text}
    (plain : Wildcard.hasMagic pattern = false)
    (searched : Glob.search world.disk world.here pattern = .ok found) (member : other ∈ found) :
    other = pattern := by
  rw [Glob.search, if_neg (by simp [plain])] at searched
  cases searched
  exact mem_single member

/-- Without wildcards a removal takes away only what stands at or below its path. -/
theorem keeps_remove {path : CleanPath} (absolute : path.IsAbsolute) (proper : path.IsProper)
    (plain : Wildcard.hasMagic path.text = false) (passes : PassesOnly free path) :
    Keeps (Provided (World.IsFree free) (Evolves (belowPlace path) (belowPlace path)))
      (remove environment path.text : RunOn links Unit) := by
  intro world isFree
  refine evolves_remove (fun found searched place below => ?_) fun found searched other member => ?_
  · obtain ⟨other, member, inside⟩ := below
    obtain rfl := eq_of_mem_search plain searched member
    rw [Disk.belowPath, absolute.target_text proper] at inside
    exact inside
  · obtain rfl := eq_of_mem_search plain searched member
    exact passes.isStraight absolute isFree

/-! ## Writing several files -/

/-- Whether a file is written at a place of a scope. -/
def IsWrittenIn (files : Location → Prop) (file : TextFile) : Prop :=
  Path.isAbsolute file.path = true ∧ ∀ place, placeOf (.ofText file.path) place → files place

theorem IsWrittenIn.mono {file : TextFile} (written : IsWrittenIn files file)
    (wide : ∀ place, files place → moreFiles place) : IsWrittenIn moreFiles file :=
  ⟨written.1, fun place isPlace => wide place (written.2 place isPlace)⟩

/-- Writing files changes only the files to which the paths of those that are due lead. -/
theorem evolves_writeAll_of_paths (part : Text) {list : List TextFile}
    (contained : ∀ file ∈ list, world.isDue file = true →
      ∀ place, Disk.atPath world.here (CleanPath.ofText file.path).text place → files place)
    (straight : ∀ file ∈ list,
      world.disk.IsStraight world.here (CleanPath.ofText file.path).text := by simp) :
    Evolves files nowhere world (ending (writeAll part list schedule) world).2 := by
  have kept := @Evolves.isKept links files nowhere
  -- Whatever was written before, no link has come onto the way of a file.
  have keptHere : IsKept (Provided (fun middle : World links => middle.here = world.here ∧
      ∀ file ∈ list, middle.disk.IsStraight world.here (CleanPath.ofText file.path).text)
      (Evolves files nowhere)) :=
    kept.provided fun _ _ evolves holds =>
      ⟨evolves.here.trans holds.1, fun file member => evolves.straight (holds.2 file member)⟩
  obtain ⟨middle, ended, appends⟩ := ending_dueFiles schedule.checks part list world
  rw [writeAll, ending_bind_of_ok ended]
  refine kept.trans (appends.evolves files nowhere) ?_
  refine Keeps.discard keptHere (.forEach keptHere fun file member other holds => ?_) middle
    ⟨appends.here, fun file member => appends.straight (straight file member)⟩
  obtain ⟨inList, due⟩ := List.mem_filter.mp member
  obtain ⟨here, straight⟩ := holds
  exact (evolves_writeText file.path file.content other (here ▸ straight file inList)).mono
    (here ▸ contained file inList due) fun _ => id

/-- Writing files changes only the files at the places of those that are due. -/
theorem evolves_writeAll (part : Text) {list : List TextFile}
    (contained : ∀ file ∈ list, world.isDue file = true → IsWrittenIn files file)
    (straight : ∀ file ∈ list,
      world.disk.IsStraight world.here (CleanPath.ofText file.path).text := by simp) :
    Evolves files nowhere world (ending (writeAll part list schedule) world).2 := by
  refine evolves_writeAll_of_paths part (fun file member due place atPath => ?_) straight
  obtain ⟨absolute, inScope⟩ := contained file member due
  obtain ⟨isPath, rfl⟩ := atPath
  exact inScope _ ⟨isPath, (CleanPath.isAbsolute_ofText_iff.mpr absolute).target_text
    (CleanPath.isProper_ofText file.path) world.here⟩

/-- Writing files changes only the files at their places. -/
theorem keeps_writeAll (part : Text) {list : List TextFile}
    (contained : ∀ file ∈ list, IsWrittenIn files file)
    (passes : ∀ file ∈ list, PassesOnly free (.ofText file.path)) :
    Keeps (Provided (World.IsFree free) (Evolves files nowhere))
      (writeAll part list schedule : RunOn links Unit) :=
  fun _ isFree => evolves_writeAll part (fun file member _ => contained file member) fun file member =>
    (passes file member).isStraight
      (CleanPath.isAbsolute_ofText_iff.mpr (contained file member).1) isFree

end Run

end ApiDocs
