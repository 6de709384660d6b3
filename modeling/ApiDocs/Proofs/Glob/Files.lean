import ApiDocs.Proofs.Disk.Fault
import ApiDocs.Proofs.Glob.Below
import ApiDocs.Proofs.Order

/-!
# The files below a folder

Which files a search for an ending below a folder finds is a matter of the files that stand
there: their paths are written in one way, and whatever else is on the disk does not count.
So two disks with the same files of that kind are searched with the same result.
-/

namespace ApiDocs

/-- Whether the names of all folders and links on a disk are names that a path can have. -/
def Disk.HasPathNames {links : Bool} (disk : Disk links) : Prop :=
  ∀ place entry, disk.entryAt place = some entry → Glob.isPassable entry = true →
    ∀ name ∈ place, Disk.pathFault? name = none

theorem Disk.hasPathNames_of_entries {links : Bool} {disk : Disk links}
    (clean : ∀ place ∈ disk.entries.map Prod.fst, ∀ name ∈ place, Disk.pathFault? name = none) :
    disk.HasPathNames := by
  intro place entry standing _
  rcases eq_or_ne place [] with rfl | below
  · exact fun name none => nomatch none
  · exact clean place (List.mem_map_of_mem (mem_entries_of_entryAt below standing))

/-- What is put together of texts without a fault has none. -/
theorem Disk.pathFault?_append_eq_none_iff {first second : Text} :
    Disk.pathFault? (first ++ second) = none ↔
      Disk.pathFault? first = none ∧ Disk.pathFault? second = none := by
  simp only [Spot.pathFault?_eq_none_iff, List.forall_mem_append]

theorem Disk.pathFault?_joinWith {names : List Text}
    (clean : ∀ name ∈ names, Disk.pathFault? name = none) :
    Disk.pathFault? (Text.joinWith "/" names) = none := by
  have slash : ∀ symbol ∈ ("/" : Text), Spot.mayStand symbol := by
    simpa [Text.ofString, Text.ofChars] using Spot.mayStand_slash
  rw [Spot.pathFault?_eq_none_iff, Spot.forall_mem_joinWith_iff slash]
  exact fun name member => Spot.pathFault?_eq_none_iff.mp (clean name member)

theorem Disk.pathFault?_join {first second : Text} (clean : Disk.pathFault? first = none)
    (alsoClean : Disk.pathFault? second = none) :
    Disk.pathFault? (Path.join first second) = none := by
  have slash : Disk.pathFault? [Symbol.char '/'] = none := by decide
  cases absolute : Path.isAbsolute second with
  | true => rwa [Path.join_of_isAbsolute absolute]
  | false =>
      rcases Path.join_eq first absolute with ⟨joined, -⟩ | ⟨joined, -, -⟩
      · rw [joined]
        exact pathFault?_append_eq_none_iff.mpr ⟨clean, alsoClean⟩
      · rw [joined, ← List.singleton_append]
        exact pathFault?_append_eq_none_iff.mpr
          ⟨clean, pathFault?_append_eq_none_iff.mpr ⟨slash, alsoClean⟩⟩

/-- Where a name fits, a shorter one without a fault does as well. -/
theorem Disk.isPath_join_of_shorter {first second other : Text} (nonempty : first ≠ [])
    (relative : Path.isAbsolute second = false) (otherRelative : Path.isAbsolute other = false)
    (clean : Disk.pathFault? other = none)
    (shorter : Disk.Name.size other ≤ Disk.Name.size second)
    (isPath : Disk.IsPath (Path.join first second)) : Disk.IsPath (Path.join first other) := by
  obtain ⟨between, closed, joined⟩ := exists_join_eq_append first relative
  obtain ⟨_, otherClosed, otherJoined⟩ := exists_join_eq_append first otherRelative
  obtain rfl := List.append_cancel_left (closed.symm.trans otherClosed)
  obtain ⟨faultless, -, short⟩ := isPath
  rw [joined] at faultless short
  rw [otherJoined]
  refine ⟨pathFault?_append_eq_none_iff.mpr
    ⟨(pathFault?_append_eq_none_iff.mp faultless).1, clean⟩, by simp [nonempty], ?_⟩
  rw [Disk.Name.size, Disk.Name.bytes_append, List.length_append] at short ⊢
  exact Nat.le_trans (Nat.add_le_add_left shorter _) short

namespace Glob

open Disk (IsPath target)

variable {links : Bool} {disk : Disk links} {here there : Location} {path level ending name : Text}
variable {names paths found : List Text} {dir : CleanPath}

/-! ## When a search succeeds -/

/-- Only a text that is no path stops the listing of a folder. -/
theorem exists_folder?_iff (nonempty : path ≠ []) :
    (∃ folder, folder? disk here path = .ok folder) ↔ Disk.pathFault? path = none := by
  have notEmpty : ¬path = ("" : Text) := nonempty
  rw [folder?, if_neg notEmpty]
  constructor
  · rintro ⟨folder, listed⟩
    by_contra faulty
    obtain ⟨fault, isFault⟩ := Option.ne_none_iff_exists'.mp faulty
    have refused : disk.find here path = .error (.notAPath fault) := by
      rw [Disk.find, Disk.locate, Disk.locateBy_of_fault isFault]
    rw [refused] at listed
    cases listed
  · intro faultless
    split
    · exact ⟨_, rfl⟩
    · rename_i fault refused
      rw [Disk.pathFault?_of_find refused] at faultless
      cases faultless
    · exact ⟨_, rfl⟩

/-- A level can be followed from every path without a fault; no path is the present folder. -/
theorem exists_atLevel {foldersOnly : Bool} (faultless : Disk.pathFault? path = none) :
    ∃ parts, atLevel disk here foldersOnly level path = .ok parts := by
  obtain ⟨folder, listed⟩ : ∃ folder, folder? disk here path = .ok folder := by
    rcases eq_or_ne path [] with rfl | nonempty
    · have point : ("." : Text) ≠ [] := List.cons_ne_nil _ _
      have listed : ∃ folder, folder? disk here "." = .ok folder :=
        (exists_folder?_iff point).mpr (by decide)
      exact listed
    · exact (exists_folder?_iff nonempty).mpr faultless
  rw [atLevel, listed]
  split
  · cases folder <;> exact ⟨_, rfl⟩
  · split
    · cases folder <;> exact ⟨_, rfl⟩
    · split <;> exact ⟨_, rfl⟩

theorem exists_atLevelOfEach {foldersOnly : Bool}
    (faultless : ∀ path ∈ paths, Disk.pathFault? path = none) :
    ∃ found, atLevelOfEach disk here foldersOnly level paths = .ok found := by
  induction paths with
  | nil => exact ⟨[], rfl⟩
  | cons path others ih =>
      obtain ⟨parts, given⟩ := exists_atLevel (faultless path List.mem_cons_self)
      obtain ⟨rest, further⟩ :=
        ih fun other member => faultless other (List.mem_cons_of_mem path member)
      refine ⟨parts.map (Path.join path) ++ rest, ?_⟩
      rw [atLevelOfEach, given, further]

/-- A name on a way to what a search can go on from has no fault. -/
theorem IsOnWay.pathFault? (named : disk.HasPathNames) {name : Text}
    (onWay : IsOnWay disk true name) : Disk.pathFault? name = none := by
  obtain ⟨place, entry, standing, member, passable⟩ := onWay
  exact named place entry standing (passable rfl) name member

/-- What a level adds to lead further is the level itself, or is written with names on ways. -/
theorem pathFault?_of_mem_atLevel (tree : disk.IsTree) (named : disk.HasPathNames)
    (faultless : Disk.pathFault? level = none) {parts : List Text} {part : Text}
    (given : atLevel disk here true level path = .ok parts) (member : part ∈ parts) :
    Disk.pathFault? part = none := by
  cases gives_of_mem_atLevel tree given member with
  | itself => decide
  | beneath _ _ known =>
      exact Disk.pathFault?_joinWith fun name inNames => (known name inNames).2.pathFault? named
  | fitting _ _ standing passable =>
      exact named _ _ standing (passable rfl) part (by simp)
  | closing => exact faultless
  | literal => exact faultless

/--
Levels without a fault can be followed on a disk without one; of the last one nothing is asked.
-/
theorem exists_follow (tree : disk.IsTree) (named : disk.HasPathNames) {levels : List Text}
    (starts : ∀ path ∈ paths, Disk.pathFault? path = none)
    (faultless : ∀ level ∈ levels.dropLast, Disk.pathFault? level = none) :
    ∃ found, follow disk here paths levels = .ok found := by
  induction levels generalizing paths with
  | nil => exact ⟨paths, rfl⟩
  | cons level deeper ih =>
      obtain ⟨next, given⟩ : ∃ next,
          atLevelOfEach disk here (!deeper.isEmpty) level paths = .ok next :=
        exists_atLevelOfEach starts
      rw [follow, given]
      cases deeper with
      | nil => exact ⟨next, rfl⟩
      | cons second rest =>
          rw [List.dropLast_cons_cons] at faultless
          refine ih (fun path member => ?_) fun other inRest =>
            faultless other (List.mem_cons_of_mem level inRest)
          obtain ⟨start, inPaths, parts, part, atStart, inParts, rfl⟩ :=
            exists_of_mem_atLevelOfEach given member
          exact Disk.pathFault?_join (starts start inPaths) (pathFault?_of_mem_atLevel tree named
            (faultless level List.mem_cons_self) atStart inParts)

/-- What a level with wildcards gives stands in a folder with a path. -/
theorem standing_of_mem_atLevel {disk : Disk} (tree : disk.IsTree) {foldersOnly : Bool}
    (notEverything : level ≠ everything) (magic : Wildcard.hasMagic level = true)
    (given : atLevel disk here foldersOnly level path = .ok found) (member : name ∈ found)
    (nonempty : path ≠ []) :
    IsPath path ∧ ∃ entry, disk.entryAt (target here path ++ [name]) = some entry := by
  have notEmpty : ¬path = ("" : Text) := nonempty
  cases gives_of_mem_atLevel tree given member with
  | itself isEverything => exact absurd isEverything notEverything
  | beneath isEverything => exact absurd isEverything notEverything
  | fitting _ listed standing =>
      obtain rfl := eq_target_of_folder? listed
      rw [folder?_eq_some_iff, if_neg notEmpty] at listed
      exact ⟨Disk.isPath_of_locate (Disk.find_eq_ok_iff.mp listed).1, _, standing⟩
  | closing empty =>
      rw [empty] at magic
      cases magic
  | literal plain =>
      rw [plain] at magic
      cases magic

namespace IsSearchBelow

variable (search : IsSearchBelow dir ending)

include search

/-- Where the names of folders are names for paths, nothing stops a search. -/
theorem exists_search (tree : disk.IsTree) (named : disk.HasPathNames)
    (faultless : Disk.pathFault? dir.text = none) :
    ∃ found,
      Glob.search disk here (dir.below [everything, .char '*' :: ending]).text = .ok found := by
  rw [search.search_eq]
  refine exists_follow tree named ?_ ?_
  · simpa using faultless
  · intro level isFirst
    obtain rfl := List.mem_singleton.mp isFirst
    decide

/-- A search that was not stopped began with a path. -/
theorem pathFault?_of_search
    (searched :
      Glob.search disk here (dir.below [everything, .char '*' :: ending]).text = .ok found) :
    Disk.pathFault? dir.text = none := by
  obtain ⟨next, atFirst, -⟩ := search.search_eq_ok_iff.mp searched
  have listed : ∃ folder, folder? disk here dir.text = .ok folder := by
    cases listed : folder? disk here dir.text with
    | ok folder => exact ⟨folder, rfl⟩
    | error error =>
        rw [atLevelOfEach, atLevel_everything, listed] at atFirst
        cases atFirst
  exact (exists_folder?_iff search.absolute.text_ne_nil).mp listed

/-! ## What a search finds -/

/-- What the two levels give in turn is written as one path below the folder. -/
theorem join_join_text {part last : Text} (isPart : IsPart part) (isLast : Path.IsName last) :
    Path.join (Path.join dir.text part) last = (dir.below (Path.names part ++ [last])).text := by
  have areNames : ∀ other ∈ Path.names part, Path.IsName other := fun other =>
    Path.isName_of_mem_names
  rcases eq_or_ne (Path.names part) [] with none | nonempty
  · obtain rfl : part = [] := by
      rw [IsPart, none] at isPart
      exact isPart.symm
    rw [Path.join_join_nil search.absolute.text_ne_nil (isPart_of_isName isLast).relative,
      search.absolute.join_name search.proper isLast]
    rfl
  · have joined := search.absolute.join_text search.proper areNames nonempty
    rw [show Text.joinWith "/" (Path.names part) = part from isPart] at joined
    rw [joined, (search.absolute.below _).join_name (search.proper.below areNames) isLast,
      CleanPath.below_below]

/-- What is found is written as the path of the folder and the names below it, and stands there. -/
theorem exists_entry_of_mem {disk : Disk} (tree : disk.IsTree)
    (searched :
      Glob.search disk here (dir.below [everything, .char '*' :: ending]).text = .ok found)
    (member : path ∈ found) :
    ∃ front name entry, path = (dir.below (front ++ [name])).text ∧
      (∀ other ∈ front ++ [name], Disk.IsName other ∧ isHidden other = false) ∧
      Text.endsWith name ending = true ∧ IsPath (Path.join dir.text (Text.joinWith "/" front)) ∧
      disk.entryAt (dir.place ++ (front ++ [name])) = some entry := by
  obtain ⟨fromRoot, front, name, read, visible, ends⟩ := search.names_of_mem tree searched member
  obtain ⟨next, atFirst, atSecond⟩ := search.search_eq_ok_iff.mp searched
  obtain ⟨start, inNext, lasts, last, given, inLasts, rfl⟩ :=
    exists_of_mem_atLevelOfEach atSecond member
  obtain ⟨begin, isBegin, parts, part, given', inParts, rfl⟩ :=
    exists_of_mem_atLevelOfEach atFirst inNext
  obtain rfl := List.mem_singleton.mp isBegin
  obtain ⟨isPart, -⟩ := adds_of_atLevel tree (by decide) given' inParts
  obtain ⟨isPath, entry, standing⟩ := standing_of_mem_atLevel tree
    search.ending_ne_everything rfl given inLasts
    (Path.ne_nil_of_isAbsolute (Path.isAbsolute_join search.absolute.isAbsolute_text))
  have isName : Path.IsName last := by
    have areNames : ∀ part ∈ (Except.ok lasts : Except DiskError (List Text)).toOption.getD [],
        Path.IsName part :=
      given ▸ (nodup_fitting tree false search.ending_ne_everything rfl (Path.join dir.text part)).2
    exact areNames last inLasts
  have properNames : ∀ other ∈ Path.names part ++ [last], Path.IsName other := by
    simpa [or_imp, forall_and, isName] using fun other => Path.isName_of_mem_names
  have written := search.join_join_text isPart isName
  rw [written, (search.proper.below properNames).names_text, CleanPath.names_below,
    List.append_assoc] at read
  obtain ⟨rfl, single⟩ := List.append_inj' (List.append_cancel_left read) rfl
  obtain rfl := (List.cons.inj single).1
  refine ⟨Path.names part, last, entry, written, visible, ends, ?_, ?_⟩
  · rwa [show Text.joinWith "/" (Path.names part) = part from isPart]
  · rw [← standing, Disk.target_join_relative here dir.text isPart.relative,
      search.absolute.target_text search.proper, Disk.follow_of_isName fun other inPart =>
        (visible other (List.mem_append_left _ inPart)).1, List.append_assoc]

/-- The files among what is found are those with a visible way and with the ending. -/
theorem mem_and_hasFile_iff {disk : Disk} (tree : disk.IsTree) (clear : disk.IsClear dir.text)
    (searched :
      Glob.search disk here (dir.below [everything, .char '*' :: ending]).text = .ok found) :
    path ∈ found ∧ disk.hasFile here path = true ↔
      ∃ front name, path = (dir.below (front ++ [name])).text ∧
        (∀ other ∈ front ++ [name], Disk.IsName other ∧ isHidden other = false) ∧
        Text.endsWith name ending = true ∧ IsPath path ∧
        ∃ content, disk.file? (dir.place ++ (front ++ [name])) = some content := by
  have leads {front : List Text} {name : Text}
      (visible : ∀ other ∈ front ++ [name], Disk.IsName other ∧ isHidden other = false) :
      target here (dir.below (front ++ [name])).text = dir.place ++ (front ++ [name]) := by
    have areNames : ∀ other ∈ front ++ [name], Disk.IsName other := fun other inNames =>
      (visible other inNames).1
    rw [(search.absolute.below _).target_text
      (search.proper.below fun other inNames => (areNames other inNames).toIsName),
      CleanPath.place_below areNames]
  constructor
  · rintro ⟨member, isFile⟩
    obtain ⟨front, name, -, rfl, visible, ends, -⟩ := search.exists_entry_of_mem tree searched member
    obtain ⟨located, content, standing⟩ := (Disk.hasFile_iff).mp isFile
    refine ⟨front, name, rfl, visible, ends, Disk.isPath_of_locate located, content, ?_⟩
    rwa [Disk.file?_eq_some_iff, ← leads visible]
  · rintro ⟨front, name, rfl, visible, ends, isPath, content, standing⟩
    rw [Disk.file?_eq_some_iff] at standing
    have atDir : target here dir.text = dir.place := search.absolute.target_text search.proper here
    have below : disk.entryAt (target here dir.text ++ front ++ [name]) = some (.file content) := by
      rwa [atDir, List.append_assoc]
    obtain ⟨path, inFound, same⟩ := search.exists_mem_of_entry tree clear searched below
      (fun other inNames => (visible other inNames).2) ends
      (search.isPath_join (fun other inNames => (visible other inNames).1.toIsName) isPath)
    obtain ⟨otherFront, otherName, -, rfl, otherVisible, -⟩ :=
      search.exists_entry_of_mem tree searched inFound
    rw [leads otherVisible, atDir, List.append_assoc] at same
    rw [← List.append_cancel_left same] at visible isPath standing ⊢
    refine ⟨inFound, (Disk.hasFile_iff).mpr ⟨?_, content, by rwa [leads visible]⟩⟩
    rw [leads visible]
    exact search.absolute.locate_below tree search.proper clear (by simp) standing isPath

/-- Two disks with the same files for a search are searched with the same result. -/
theorem files_eq_of_same {disk other : Disk} (tree : disk.IsTree) (otherTree : other.IsTree)
    (clear : disk.IsClear dir.text) (otherClear : other.IsClear dir.text) {exclude : List Text}
    {listed : List Text} (named : other.HasPathNames)
    (given :
      Glob.files disk here (dir.below [everything, .char '*' :: ending]).text exclude = .ok listed)
    (same : ∀ front name,
      (∀ other ∈ front ++ [name], Disk.IsName other ∧ isHidden other = false) →
      Text.endsWith name ending = true →
      isExcluded (dir.below (front ++ [name])).text exclude = false →
      IsPath (dir.below (front ++ [name])).text →
        ((∃ content, disk.file? (dir.place ++ (front ++ [name])) = some content) ↔
          ∃ content, other.file? (dir.place ++ (front ++ [name])) = some content)) :
    Glob.files other there (dir.below [everything, .char '*' :: ending]).text exclude =
      .ok listed := by
  rw [Glob.files] at given
  split at given
  · cases given
  · rename_i found searched
    cases given
    obtain ⟨otherFound, otherSearched⟩ : ∃ otherFound, Glob.search other there
        (dir.below [everything, .char '*' :: ending]).text = .ok otherFound :=
      search.exists_search otherTree named (search.pathFault?_of_search searched)
    rw [Glob.files, otherSearched]
    refine congrArg Except.ok (Text.mergeSort_eq_of_perm ?_)
    have distinct := List.Nodup.of_map _ (search.nodup_names_of_search tree searched)
    have otherDistinct := List.Nodup.of_map _ (search.nodup_names_of_search otherTree otherSearched)
    rw [List.perm_ext_iff_of_nodup (otherDistinct.filter _) (distinct.filter _)]
    intro path
    simp only [List.mem_filter, Bool.and_eq_true, Bool.not_eq_true', ← and_assoc]
    rw [search.mem_and_hasFile_iff tree clear searched,
      search.mem_and_hasFile_iff otherTree otherClear otherSearched]
    constructor
    · rintro ⟨⟨front, name, rfl, visible, ends, isPath, standing⟩, kept⟩
      exact ⟨⟨front, name, rfl, visible, ends, isPath, (same front name visible ends
        kept isPath).mpr standing⟩, kept⟩
    · rintro ⟨⟨front, name, rfl, visible, ends, isPath, standing⟩, kept⟩
      exact ⟨⟨front, name, rfl, visible, ends, isPath, (same front name visible ends
        kept isPath).mp standing⟩, kept⟩

end IsSearchBelow

end Glob

end ApiDocs
