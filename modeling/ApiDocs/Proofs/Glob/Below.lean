import Mathlib.Data.List.Nodup
import ApiDocs.Proofs.Disk.Way
import ApiDocs.Proofs.Glob.Found

/-!
# Searching everything below a folder

A search for an ending below a folder finds every file that can be found at all, if its
name has that ending and no name on the way is hidden; and it finds nothing twice.
-/

namespace ApiDocs.Glob

open Disk (IsPath target target_join target_join_name isPath_of_join isPath_join_of_join_name)

variable {links : Bool} {disk : Disk links} {here folder : Location} {path level ending name : Text}
variable {names paths found rest : List Text} {dir : CleanPath}

/-! ## What one level takes -/

theorem folder?_eq_some (absolute : Path.isAbsolute path = true)
    (located : disk.locate here path = .ok folder)
    (isFolder : disk.entryAt folder = some .folder) :
    folder? disk here path = .ok (some folder) := by
  have nonempty : ¬path = ("" : Text) := Path.ne_nil_of_isAbsolute absolute
  rw [folder?_eq_some_iff, if_neg nonempty]
  exact Disk.find_eq_ok_iff.mpr ⟨located, isFolder⟩

theorem mem_atLevelOfEach {foldersOnly : Bool} {parts : List Text} {part : Text}
    (given : atLevelOfEach disk here foldersOnly level paths = .ok found) (start : path ∈ paths)
    (atStart : atLevel disk here foldersOnly level path = .ok parts) (member : part ∈ parts) :
    Path.join path part ∈ found := by
  induction paths generalizing found with
  | nil => cases start
  | cons first others ih =>
      obtain ⟨own, rest, atFirst, further, rfl⟩ := atLevelOfEach_cons_eq_ok_iff.mp given
      rcases List.mem_cons.mp start with rfl | inOthers
      · rw [atStart] at atFirst
        cases atFirst
        exact List.mem_append_left _ (List.mem_map_of_mem member)
      · exact List.mem_append_right _ (ih further inOthers)

/-- The level `**` leads to every folder below, unless a name on the way is hidden. -/
theorem join_mem_of_folder (tree : disk.IsTree) (start : path ∈ paths)
    (given : atLevelOfEach disk here true everything paths = .ok found)
    (listed : folder? disk here path = .ok (some folder))
    (standing : disk.entryAt (folder ++ names) = some .folder)
    (visible : ∀ other ∈ names, isHidden other = false) :
    Path.join path (Text.joinWith "/" names) ∈ found := by
  have atStart : atLevel disk here true everything path =
      .ok ("" :: beneath disk here true (Disk.linkLimit + 1) path folder) := by
    rw [atLevel_everything, listed]
    rfl
  refine mem_atLevelOfEach given start atStart ?_
  rcases eq_or_ne names [] with rfl | nonempty
  · exact List.mem_cons_self
  · have shown : names.any isHidden = false :=
      List.any_eq_false.mpr fun other member => by simpa using visible other member
    exact List.mem_cons_of_mem _ (List.mem_append_left _
      ((mem_below_iff tree).mpr ⟨names, .folder, nonempty, standing, rfl, shown, rfl⟩))

/-! ## Nothing is taken twice -/

/--
What was chosen from a list, seen as what it was chosen from, stands in the order of the list.
-/
theorem map_filterMap_sublist {α β γ : Type} {choose : α → Option β} {origin : β → γ} {key : α → γ}
    {list : List α}
    (readBack : ∀ item ∈ list, ∀ chosen, choose item = some chosen → origin chosen = key item) :
    ((list.filterMap choose).map origin).Sublist (list.map key) := by
  induction list with
  | nil => exact List.Sublist.slnil
  | cons item rest ih =>
      have others := ih fun other member => readBack other (List.mem_cons_of_mem item member)
      cases chosen : choose item with
      | none =>
          rw [List.filterMap_cons_none chosen, List.map_cons]
          exact others.cons _
      | some value =>
          rw [List.filterMap_cons_some chosen, List.map_cons, List.map_cons,
            readBack item List.mem_cons_self value chosen]
          exact others.cons_cons _

theorem nodup_names_below (tree : disk.IsTree) (foldersOnly : Bool) (folder : Location)
    (leads : Text → Bool) :
    ((below disk foldersOnly folder leads).map fun part => Path.names part).Nodup := by
  have places :
      ((below disk foldersOnly folder leads).map fun part => folder ++ Path.names part).Nodup := by
    refine tree.distinct.sublist (map_filterMap_sublist ?_)
    rintro ⟨location, entry⟩ member part chosen
    simp only at chosen
    split at chosen
    · rename_i kept
      cases chosen
      simp only [Bool.and_eq_true] at kept
      obtain ⟨names, rfl⟩ := Disk.isWithin_iff.mp kept.1.1.1
      rw [List.drop_left, Path.names_joinWith]
      exact fun name inNames =>
        (isName_of_mem_entries tree member (List.mem_append_right folder inNames)).toIsName
    · cases chosen
  have composed := List.map_map (f := fun part => Path.names part) (g := fun names => folder ++ names)
    (l := below disk foldersOnly folder leads)
  exact List.Nodup.of_map (fun names => folder ++ names) (composed ▸ places)

theorem nodup_namesIn (tree : disk.IsTree) (foldersOnly : Bool) (level : Text)
    (folder : Location) (leads : Text → Bool) :
    (namesIn disk foldersOnly level folder leads).Nodup := by
  have children :
      ((disk.children folder).map fun child => folder ++ [child.1]).Sublist
        (disk.entries.map Prod.fst) := by
    refine map_filterMap_sublist ?_
    rintro ⟨location, entry⟩ - ⟨name, standing⟩ chosen
    simp only at chosen
    split at chosen
    · cases chosen
    · rename_i last above reversed
      split at chosen
      · rename_i isFolder
        cases chosen
        rw [← isFolder, ← List.reverse_cons, ← reversed, List.reverse_reverse]
      · cases chosen
  have taken :
      ((namesIn disk foldersOnly level folder leads).map fun name => folder ++ [name]).Sublist
        ((disk.children folder).map fun child => folder ++ [child.1]) := by
    refine map_filterMap_sublist ?_
    rintro ⟨name, entry⟩ - part chosen
    simp only at chosen
    split at chosen
    · cases chosen
      rfl
    · cases chosen
  exact List.Nodup.of_map _ (tree.distinct.sublist (taken.trans children))

theorem adds_of_mem_parts (tree : disk.IsTree) (isName : Path.IsName level) {foldersOnly : Bool}
    {part : Text}
    (member : part ∈ (atLevel disk here foldersOnly level path).toOption.getD []) :
    IsPart part ∧ Adds level (Path.names part) := by
  cases given : atLevel disk here foldersOnly level path with
  | error error =>
      rw [given] at member
      cases member
  | ok parts =>
      rw [given] at member
      exact adds_of_atLevel tree isName given member

/-- Where no links lead back to what was found, `**` finds nothing twice. -/
theorem nodup_names_everything {disk : Disk} (tree : disk.IsTree) (foldersOnly : Bool)
    (path : Text) :
    (((atLevel disk here foldersOnly everything path).toOption.getD []).map
      fun part => Path.names part).Nodup := by
  rw [atLevel, if_pos rfl]
  split
  · exact List.nodup_nil
  · exact List.nodup_singleton _
  · rename_i folder _
    rw [beneath_eq_below]
    refine List.nodup_cons.mpr ⟨fun member => ?_, nodup_names_below tree foldersOnly folder _⟩
    obtain ⟨part, inBelow, none⟩ := List.mem_map.mp member
    obtain ⟨names, entry, nonempty, standing, -, -, rfl⟩ := (mem_below_iff tree).mp inBelow
    rw [Path.names_joinWith fun name inNames =>
      (tree.isName_of_mem standing (List.mem_append_right folder inNames)).toIsName] at none
    exact nonempty none

theorem nodup_fitting (tree : disk.IsTree) (foldersOnly : Bool)
    (notEverything : level ≠ everything) (magic : Wildcard.hasMagic level = true) (path : Text) :
    ((atLevel disk here foldersOnly level path).toOption.getD []).Nodup ∧
      ∀ part ∈ (atLevel disk here foldersOnly level path).toOption.getD [],
        Path.IsName part := by
  rw [atLevel, if_neg notEverything, if_pos magic]
  split
  · exact ⟨List.nodup_nil, fun _ none => absurd none List.not_mem_nil⟩
  · exact ⟨List.nodup_nil, fun _ none => absurd none List.not_mem_nil⟩
  · rename_i folder _
    simp only [Except.toOption, Option.getD_some]
    refine ⟨nodup_namesIn tree foldersOnly level folder _, fun part member => ?_⟩
    obtain ⟨entry, standing, -⟩ := (mem_namesIn_iff tree).mp member
    exact (tree.isName_of_mem standing (by simp)).toIsName

theorem atLevelOfEach_eq {foldersOnly : Bool}
    (given : atLevelOfEach disk here foldersOnly level paths = .ok found) :
    found = paths.flatMap fun path =>
      ((atLevel disk here foldersOnly level path).toOption.getD []).map (Path.join path) := by
  induction paths generalizing found with
  | nil =>
      cases given
      rfl
  | cons first others ih =>
      obtain ⟨own, rest, atFirst, further, rfl⟩ := atLevelOfEach_cons_eq_ok_iff.mp given
      rw [List.flatMap_cons, ← ih further, atFirst]
      rfl

/-- Different folders and different names in each of them give different paths. -/
theorem nodup_flatMap_join (distinct : (paths.map fun path => Path.names path).Nodup)
    {parts : Text → List Text}
    (areNames : ∀ path ∈ paths, (parts path).Nodup ∧ ∀ part ∈ parts path, Path.IsName part) :
    ((paths.flatMap fun path => (parts path).map (Path.join path)).map
      fun path => Path.names path).Nodup := by
  have read {path : Text} (member : path ∈ paths) :
      ((parts path).map (Path.join path)).map (fun path => Path.names path) =
        (parts path).map fun part => Path.names path ++ [part] := by
    rw [List.map_map]
    refine List.map_congr_left fun part inParts => ?_
    have isName := (areNames path member).2 part inParts
    rw [Function.comp_apply, Path.names_join (Path.isAbsolute_of_not_mem isName.whole),
      isName.names_eq]
  rw [List.map_flatMap, List.nodup_flatMap]
  constructor
  · intro path member
    rw [read member]
    refine (areNames path member).1.map fun left right same => ?_
    simpa using same
  · refine (List.pairwise_map.mp distinct).imp_of_mem fun {first second} inPaths alsoIn differ => ?_
    simp only [Function.onFun, read inPaths, read alsoIn]
    intro names inFirst inSecond
    obtain ⟨left, -, rfl⟩ := List.mem_map.mp inFirst
    obtain ⟨right, -, same⟩ := List.mem_map.mp inSecond
    exact differ (List.append_inj' same rfl).1.symm

/-! ## The search below a folder -/

/-- A search for an ending below a folder. -/
structure IsSearchBelow (dir : CleanPath) (ending : Text) : Prop where
  absolute : dir.IsAbsolute
  proper : dir.IsProper
  plain : ∀ name ∈ dir.names, Wildcard.hasMagic name = false
  plainEnding : Wildcard.hasMagic ending = false
  wholeEnding : Symbol.char '/' ∉ ending
  nonemptyEnding : ending ≠ []

namespace IsSearchBelow

variable (search : IsSearchBelow dir ending)

include search

theorem isName_ending : Path.IsName (.char '*' :: ending) where
  nonempty := List.cons_ne_nil _ _
  whole := List.not_mem_cons_of_ne_of_not_mem (by decide) search.wholeEnding
  notHere := by
    intro same
    cases same

theorem ending_ne_everything : .char '*' :: ending ≠ everything := by
  intro same
  obtain ⟨-, rest⟩ := List.cons.inj same
  have magic := search.plainEnding
  rw [rest] at magic
  cases magic

theorem isName_levels :
    ∀ level ∈ [everything, .char '*' :: ending], Path.IsName level := by
  intro level member
  rcases List.mem_cons.mp member with rfl | last
  · decide
  · rw [List.mem_singleton.mp last]
    exact search.isName_ending

theorem search_eq :
    Glob.search disk here (dir.below [everything, .char '*' :: ending]).text =
      follow disk here [dir.text] [everything, .char '*' :: ending] := by
  have magic :
      Wildcard.hasMagic (dir.below [everything, .char '*' :: ending]).text = true := by
    rw [search.absolute.hasMagic_below]
    simp [hasMagic_everything]
  rw [search_eq_follow (search.absolute.below _).isAbsolute_text magic,
    levels_below search.absolute search.proper search.plain search.isName_levels
      hasMagic_everything]

/-- The search has two levels: everything below the folder, and the names with the ending. -/
theorem search_eq_ok_iff :
    Glob.search disk here (dir.below [everything, .char '*' :: ending]).text = .ok found ↔
      ∃ next, atLevelOfEach disk here true everything [dir.text] = .ok next ∧
        atLevelOfEach disk here false (.char '*' :: ending) next = .ok found := by
  rw [search.search_eq, follow_cons_eq_ok_iff]
  simp only [follow_singleton, List.isEmpty_cons, Bool.not_false]

/-- What is found lies below the folder, and its last name has the ending. -/
theorem names_of_mem (tree : disk.IsTree)
    (searched :
      Glob.search disk here (dir.below [everything, .char '*' :: ending]).text = .ok found)
    (member : path ∈ found) :
    Path.isAbsolute path = true ∧ ∃ front name, Path.names path = dir.names ++ front ++ [name] ∧
      (∀ other ∈ front ++ [name], Disk.IsName other ∧ isHidden other = false) ∧
      Text.endsWith name ending = true := by
  rw [search.search_eq] at searched
  obtain ⟨start, isStart, names, descent, read, fromRoot⟩ :=
    exists_descent_of_follow tree search.isName_levels searched member
  obtain rfl := List.mem_singleton.mp isStart
  rw [search.proper.names_text] at read
  rw [← List.singleton_append] at descent
  obtain ⟨front, name, rfl, above, isName, visible, ends⟩ :=
    Descent.exists_concat search.plainEnding search.ending_ne_everything descent
  refine ⟨fromRoot search.absolute.isAbsolute_text, front, name, ?_, ?_, ends⟩
  · rw [read, List.append_assoc]
  · intro other inNames
    rcases List.mem_append.mp inNames with inFront | isLast
    · exact above.of_everything other inFront
    · rw [List.mem_singleton.mp isLast]
      exact ⟨isName, visible⟩

/-- The way to an entry is a path if the entry has one. -/
theorem isPath_join (areNames : ∀ other ∈ names ++ [name], Path.IsName other)
    (isPath : IsPath (dir.below (names ++ [name])).text) :
    IsPath (Path.join dir.text (Text.joinWith "/" names)) := by
  have middle :
      Path.join dir.text (Text.joinWith "/" (names ++ [name])) =
        (dir.below (names ++ [name])).text :=
    search.absolute.join_text search.proper areNames (by simp)
  rw [← middle] at isPath
  exact isPath_join_of_join_name search.absolute.isAbsolute_text
    (fun other member => areNames other (List.mem_append_left _ member)) (areNames name (by simp))
    isPath

/-- The second level takes every name with the ending in a folder, unless it is hidden. -/
theorem join_mem_of_entry (tree : disk.IsTree) {next : List Text} {entry : Entry links}
    (atSecond : atLevelOfEach disk here false (.char '*' :: ending) next = .ok found)
    (inNext : path ∈ next) (listed : folder? disk here path = .ok (some folder))
    (standing : disk.entryAt (folder ++ [name]) = some entry) (visible : isHidden name = false)
    (ends : Text.endsWith name ending = true) :
    Path.join path name ∈ found := by
  have magic : Wildcard.hasMagic (.char '*' :: ending) = true := rfl
  have given : atLevel disk here false (.char '*' :: ending) path =
      .ok (namesIn disk false (.char '*' :: ending) folder fun name =>
        disk.hasFolder here (Path.join path name)) := by
    rw [atLevel_of_hasMagic search.ending_ne_everything magic, listed]
    rfl
  have shown : (isHidden (.char '*' :: ending) || !isHidden name) = true := by
    rw [visible]
    exact Bool.or_true _
  exact mem_atLevelOfEach atSecond inNext given ((mem_namesIn_iff tree).mpr
    ⟨entry, standing, rfl, shown, (Wildcard.fitsText_run_iff search.plainEnding).mpr ends⟩)

/-- The folder and each folder below it are listed where they stand. -/
theorem folder?_join {disk : Disk} (tree : disk.IsTree) (clear : disk.IsClear dir.text)
    (areNames : ∀ other ∈ names, Disk.IsName other)
    (isFolder : disk.entryAt (target here dir.text ++ names) = some .folder)
    (isPath : IsPath (Path.join dir.text (Text.joinWith "/" names))) :
    folder? disk here (Path.join dir.text (Text.joinWith "/" names)) =
      .ok (some (target here dir.text ++ names)) := by
  have fromRoot : Path.isAbsolute (Path.join dir.text (Text.joinWith "/" names)) = true :=
    Path.isAbsolute_join search.absolute.isAbsolute_text
  have own : ∀ other ∈ names, Path.IsName other := fun other member =>
    (areNames other member).toIsName
  have clearBelow : disk.IsClear (Path.join dir.text (Text.joinWith "/" names)) := by
    refine clear.append areNames ?_
    rw [Path.names_join (Path.isAbsolute_joinWith own), Path.names_joinWith own]
  have leads : target here (Path.join dir.text (Text.joinWith "/" names)) =
      target here dir.text ++ names :=
    target_join search.absolute.isAbsolute_text areNames
  rw [← leads] at isFolder ⊢
  exact folder?_eq_some fromRoot (tree.locate_of_folder isPath fromRoot clearBelow isFolder) isFolder

/--
Everything below the folder that a path leads to is found, unless a name on the way is hidden
or the way is too long.
-/
theorem exists_mem_of_entry {disk : Disk} (tree : disk.IsTree) (clear : disk.IsClear dir.text)
    (searched :
      Glob.search disk here (dir.below [everything, .char '*' :: ending]).text = .ok found)
    {entry : Entry} (standing : disk.entryAt (target here dir.text ++ names ++ [name]) = some entry)
    (visible : ∀ other ∈ names ++ [name], isHidden other = false)
    (ends : Text.endsWith name ending = true)
    (middlePath : IsPath (Path.join dir.text (Text.joinWith "/" names))) :
    ∃ path ∈ found, target here path = target here dir.text ++ names ++ [name] := by
  have fromRoot := search.absolute.isAbsolute_text
  have isName : ∀ other ∈ names ++ [name], Disk.IsName other := by
    intro other member
    refine tree.isName_of_mem standing ?_
    rw [List.append_assoc]
    exact List.mem_append_right _ member
  rw [List.forall_mem_append] at isName visible
  obtain ⟨areNames, lastIsName⟩ := isName
  have isFolder : disk.entryAt (target here dir.text ++ names) = some .folder :=
    tree.entryAt_parent standing
  have start : disk.entryAt (target here dir.text) = some .folder := by
    rcases eq_or_ne names [] with rfl | nonempty
    · rwa [List.append_nil] at isFolder
    · exact tree.entryAt_above nonempty isFolder
  have relative : Path.isAbsolute (Text.joinWith "/" names) = false :=
    Path.isAbsolute_joinWith fun other member => (areNames other member).toIsName
  have listed : folder? disk here dir.text = .ok (some (target here dir.text)) :=
    folder?_eq_some fromRoot
      (tree.locate_of_folder (isPath_of_join fromRoot relative middlePath) fromRoot clear start) start
  -- The first level takes the folder of the entry, and the second one its name.
  obtain ⟨next, atFirst, atSecond⟩ := search.search_eq_ok_iff.mp searched
  have inNext := join_mem_of_folder tree (List.mem_singleton_self _) atFirst listed isFolder visible.1
  refine ⟨_, search.join_mem_of_entry tree atSecond inNext
    (search.folder?_join tree clear areNames isFolder middlePath) standing
    (visible.2 name (List.mem_singleton_self name)) ends, ?_⟩
  rw [target_join_name (Path.isAbsolute_join fromRoot) (lastIsName name (List.mem_singleton_self name)),
    target_join fromRoot areNames]

/-- Nothing is found twice below a folder. -/
theorem nodup_names_of_search {disk : Disk} (tree : disk.IsTree)
    (searched :
      Glob.search disk here (dir.below [everything, .char '*' :: ending]).text = .ok found) :
    (found.map fun path => Path.names path).Nodup := by
  have magic : Wildcard.hasMagic (.char '*' :: ending) = true := rfl
  obtain ⟨next, atFirst, atSecond⟩ := search.search_eq_ok_iff.mp searched
  rw [atLevelOfEach_eq atSecond]
  refine nodup_flatMap_join ?_ fun path _ =>
    nodup_fitting tree _ search.ending_ne_everything magic path
  have first := atLevelOfEach_eq atFirst
  rw [List.flatMap_cons, List.flatMap_nil, List.append_nil] at first
  have read : (((atLevel disk here true everything dir.text).toOption.getD []).map
      (Path.join dir.text)).map (fun path => Path.names path) =
        (((atLevel disk here true everything dir.text).toOption.getD []).map
          fun part => Path.names part).map (dir.names ++ ·) := by
    rw [List.map_map, List.map_map]
    refine List.map_congr_left fun part member => ?_
    obtain ⟨isPart, -⟩ := adds_of_mem_parts tree (by decide) member
    rw [Function.comp_apply, Function.comp_apply, Path.names_join isPart.relative,
      search.proper.names_text]
  rw [first, read]
  exact (nodup_names_everything tree true dir.text).map (List.append_right_injective _)

end IsSearchBelow

end ApiDocs.Glob
