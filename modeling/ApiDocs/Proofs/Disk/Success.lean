import ApiDocs.Proofs.Disk.Copy

/-!
# Changes that succeed

What a change leaves if nothing stands in its way: a folder that is there need not be made,
a file in such a folder is put where its path leads, and what a path leads to is taken away.
-/

namespace ApiDocs

open Disk (GoesDown IsPath)

namespace CleanPath

variable {path dir : CleanPath} {name : Text} {disk : Disk} {here location folder : Location}

/-! ## The way to a name in a folder -/

/-- An absolute path that the disk takes leads where its names lead. -/
theorem IsAbsolute.locate_text_iff (absolute : path.IsAbsolute) (proper : path.IsProper)
    (isPath : IsPath path.text) :
    disk.locate here path.text = .ok location ↔
      disk.walk [] (path.names.map Disk.Name.stored) = .ok location := by
  have areNames : ∀ name ∈ path.names, Path.IsName name ∧ Disk.Name.stored name ≠ [] :=
    fun name member => ⟨proper name member, proper.stored_ne_nil isPath member⟩
  rw [Disk.locate_eq_ok_iff, Disk.origin, if_pos absolute.isAbsolute_text,
    absolute.steps_text areNames, and_iff_right isPath]
  split
  · rename_i none
    rw [none]
    change disk.walk [] [("." : Text)] = .ok location ↔ Except.ok [] = Except.ok location
    rw [Disk.walk_here (Disk.entryAt_root disk)]
  · rw [List.append_nil]

/-- An absolute path leads to the same place as long as the folders on its way stay. -/
theorem IsAbsolute.locate_of_folders {other : Disk} (absolute : path.IsAbsolute)
    (proper : path.IsProper)
    (folders : ∀ front rest, path.names = front ++ rest →
      disk.entryAt (Disk.follow [] front) = some .folder →
      other.entryAt (Disk.follow [] front) = some .folder)
    (located : disk.locate here path.text = .ok location) :
    other.locate here path.text = .ok location := by
  have isPath := Disk.isPath_of_locate located
  rw [absolute.locate_text_iff proper isPath] at located ⊢
  refine Disk.walk_mono (fun name member => ?_) (fun front name rest cut => ?_) located
  · obtain ⟨original, inPath, rfl⟩ := List.mem_map.mp member
    exact proper.stored_ne_nil isPath inPath
  · obtain ⟨above, below, names, rfl, -⟩ := List.map_eq_append_iff.mp cut
    exact folders above below names

/-- The path before its last name is one that the disk takes. -/
theorem IsAbsolute.isPath_of_below (absolute : dir.IsAbsolute) (proper : dir.IsProper)
    (isName : Path.IsName name) (isPath : IsPath (dir.below [name]).text) : IsPath dir.text := by
  rw [← absolute.join_name proper isName] at isPath
  exact Disk.isPath_of_join absolute.isAbsolute_text (Path.isAbsolute_of_not_mem isName.whole) isPath

/-- A name in a folder can be located exactly if the folder can and the name is not too long. -/
theorem IsAbsolute.locate_concat_iff (absolute : dir.IsAbsolute) (proper : dir.IsProper)
    (isName : Path.IsName name) (down : GoesDown name) :
    disk.locate here (dir.below [name]).text = .ok location ↔
      IsPath (dir.below [name]).text ∧
        ∃ folder, disk.locate here dir.text = .ok folder ∧ disk.entryAt folder = some .folder ∧
          Disk.Name.size (Disk.Name.stored name) ≤ Disk.nameLimit ∧
          location = folder ++ [Disk.Name.stored name] := by
  have properBelow : (dir.below [name]).IsProper := proper.below (by simpa using isName)
  have goes (folder : Location) : Disk.advance folder (Disk.Name.stored name) =
      folder ++ [Disk.Name.stored name] := by
    rw [Disk.advance, if_neg (by simp [down.nonempty, down.notHere]), if_neg down.notUp]
  have step (folder : Location) : disk.walk folder [Disk.Name.stored name] = .ok location ↔
      disk.entryAt folder = some .folder ∧
        Disk.Name.size (Disk.Name.stored name) ≤ Disk.nameLimit ∧
        location = folder ++ [Disk.Name.stored name] := by
    rw [Disk.walk_cons_eq_ok_iff down.nonempty, goes]
    constructor
    · rintro ⟨canStep, same⟩
      cases same
      exact ⟨canStep.fromFolder, (canStep.short.resolve_left down.notHere).resolve_left down.notUp, rfl⟩
    · rintro ⟨isFolder, short, rfl⟩
      exact ⟨⟨isFolder, .inr (.inr short)⟩, rfl⟩
  constructor
  · intro located
    have isPath := Disk.isPath_of_locate located
    rw [(absolute.below [name]).locate_text_iff properBelow isPath, names_below, List.map_append,
      Disk.walk_append] at located
    refine ⟨isPath, ?_⟩
    cases walked : disk.walk [] (dir.names.map Disk.Name.stored) with
    | error cause =>
        rw [walked] at located
        cases located
    | ok folder =>
        rw [walked] at located
        refine ⟨folder, ?_, (step folder).mp located⟩
        exact (absolute.locate_text_iff proper
          (absolute.isPath_of_below proper isName isPath)).mpr walked
  · rintro ⟨isPath, folder, located, last⟩
    rw [absolute.locate_text_iff proper (absolute.isPath_of_below proper isName isPath)] at located
    rw [(absolute.below [name]).locate_text_iff properBelow isPath, names_below, List.map_append,
      Disk.walk_append, located]
    exact (step folder).mpr last

/-- The way of a path that can be located is clear. -/
theorem IsAbsolute.isClear_of_locate {path : CleanPath} (absolute : path.IsAbsolute)
    (proper : path.IsProper)
    (located : disk.locate here path.text = .ok location) : disk.IsClear path.text := by
  have isPath := Disk.isPath_of_locate located
  rw [absolute.locate_text_iff proper isPath, Disk.walk_eq_ok_iff fun name member => by
    obtain ⟨original, inPath, rfl⟩ := List.mem_map.mp member
    exact proper.stored_ne_nil isPath inPath] at located
  intro front name rest cut up
  rw [proper.names_text] at cut
  refine (located.1 (front.map Disk.Name.stored) (Disk.Name.stored name)
    (rest.map Disk.Name.stored) ?_).fromFolder
  rw [cut, List.map_append, List.map_cons]

end CleanPath

namespace Disk

variable {disk : Disk} {dir : CleanPath} {name path : Text} {content old : List UInt8}
variable {here location folder place : Location}

/-! ## Writing -/

theorem hasFolder_of_locate (located : disk.locate here path = .ok folder)
    (isFolder : disk.entryAt folder = some .folder) : disk.hasFolder here path = true := by
  rw [hasFolder_of_find (find_eq_ok_iff.mpr ⟨located, isFolder⟩), Entry.isFolder_folder]

/-- A folder that is there need not be made. -/
theorem makeFolders_of_folder (located : disk.locate here dir.text = .ok folder)
    (isFolder : disk.entryAt folder = some .folder) :
    disk.makeFolders here dir = (.ok (), disk) := by
  rw [makeFolders]
  rcases List.eq_nil_or_concat dir.names with none | ⟨above, name, cut⟩
  · rw [none]
    rfl
  · have same : CleanPath.mk dir.anchor (name :: above.reverse).reverse = dir := by
      rw [List.reverse_cons, List.reverse_reverse, ← List.concat_eq_append, ← cut]
    have there : disk.makeFolder here dir.text = (.error (.refused .entryExists dir.text), disk) := by
      rw [makeFolder, placeName_eq_place, Disk.place, located]
      simp only [isFolder]
    rw [cut, List.concat_eq_append, List.reverse_append, List.reverse_singleton,
      List.singleton_append, makeFoldersUpTo]
    simp only [same, there]
    rw [unlessFolder, if_pos (hasFolder_of_locate located isFolder)]

/-- Where nothing stands in a folder that is there, one folder is made. -/
theorem makeFolders_of_parent (located : disk.locate here (dir.below [name]).text = .ok location)
    (nothing : disk.entryAt location = none) :
    disk.makeFolders here (dir.below [name]) = (.ok (), disk.put location .folder) := by
  have made : disk.makeFolder here (dir.below [name]).text =
      (.ok (), disk.put location .folder) := by
    rw [makeFolder, placeName_eq_place, Disk.place, located]
    simp only [nothing]
  have same : CleanPath.mk dir.anchor (name :: dir.names.reverse).reverse = dir.below [name] := by
    rw [List.reverse_cons, List.reverse_reverse]
    rfl
  rw [makeFolders, CleanPath.names_below, CleanPath.anchor_below, List.reverse_append,
    List.reverse_singleton, List.singleton_append, makeFoldersUpTo]
  simp only [same, made]

theorem writeInFolder_of_locate (located : disk.locate here path = .ok location)
    (free : disk.entryAt location ≠ some .folder) :
    disk.writeInFolder here path content = (.ok (), disk.put location (.file content)) := by
  rw [writeInFolder, Disk.place, located]
  exact if_neg (mt any_isFolder_iff.mp free)

section

variable (proper : (dir.below [name]).IsProper)

include proper

theorem write_below_eq :
    disk.write here (dir.below [name]).text content =
      match disk.makeFolders here dir with
      | (.error error, made) => (.error error, made)
      | (.ok (), made) => made.writeInFolder here (dir.below [name]).text content := by
  have parent : (dir.below [name]).parent = dir := by
    rw [CleanPath.parent, CleanPath.names_below, List.dropLast_concat]
    rfl
  rw [write]
  simp only [proper.ofText_text, parent]
  rcases disk.makeFolders here dir with ⟨_ | _, made⟩ <;> rfl

/-- A file in a folder that is there is put where its path leads. -/
theorem write_of_folder (inFolder : disk.locate here dir.text = .ok folder)
    (isFolder : disk.entryAt folder = some .folder)
    (located : disk.locate here (dir.below [name]).text = .ok location)
    (free : disk.entryAt location ≠ some .folder) :
    disk.write here (dir.below [name]).text content =
      (.ok (), disk.put location (.file content)) := by
  rw [write_below_eq proper, makeFolders_of_folder inFolder isFolder]
  exact writeInFolder_of_locate located free

end

/-! ## Taking away -/

/-- On a tree only the file itself goes when it is taken away. -/
theorem IsTree.entryAt_erase_file (tree : disk.IsTree)
    (standing : disk.entryAt location = some (.file old)) (place : Location) :
    (disk.erase location).entryAt place =
      if place = location then none else disk.entryAt place := by
  have notRoot : location ≠ [] := by
    rintro rfl
    rw [entryAt_root] at standing
    cases standing
  rw [entryAt_erase]
  rcases eq_or_ne place location with rfl | other
  · rw [if_neg notRoot, if_pos (isWithin_self place), if_pos rfl]
  · rw [if_neg other]
    split
    · rename_i root
      rw [root, entryAt_root]
    · split
      · rename_i inside
        obtain ⟨rest, rfl⟩ := isWithin_iff.mp inside
        cases below : disk.entryAt (location ++ rest) with
        | none => rfl
        | some entry =>
            have nonempty : rest ≠ [] := by
              rintro rfl
              exact other (List.append_nil location)
            rw [tree.entryAt_above nonempty below] at standing
            cases standing
      · rfl

theorem remove_of_file (located : disk.locate here path = .ok location)
    (standing : disk.entryAt location = some (.file old)) :
    disk.remove here path = (.ok (), disk.erase location) := by
  have found := find_eq_ok_iff.mpr ⟨located, standing⟩
  rw [← findName_eq_find] at found
  exact remove_of_other_name found (by simp)

/-- Files in different places are taken away one after the other, and nothing else goes. -/
theorem exists_removeEach_of_files {paths : List Text} (tree : disk.IsTree)
    (distinct : (paths.map fun path => target here path).Nodup)
    (areFiles : ∀ path ∈ paths, disk.locate here path = .ok (target here path) ∧
      ∃ content, disk.entryAt (target here path) = some (.file content)) :
    ∃ left, disk.removeEach here paths = (.ok (), left) ∧ left.IsTree ∧
      ∀ place, left.entryAt place =
        if place ∈ paths.map fun path => target here path then none else disk.entryAt place := by
  induction paths generalizing disk with
  | nil => exact ⟨disk, rfl, tree, fun place => by simp⟩
  | cons path rest ih =>
      obtain ⟨located, content, standing⟩ := areFiles path List.mem_cons_self
      obtain ⟨notIn, restDistinct⟩ := List.nodup_cons.mp distinct
      have stays {place : Location} (other : place ≠ target here path) :
          (disk.erase (target here path)).entryAt place = disk.entryAt place := by
        rw [tree.entryAt_erase_file standing, if_neg other]
      have folders (place : Location) (folder : disk.entryAt place = some .folder) :
          (disk.erase (target here path)).entryAt place = some .folder := by
        rw [stays, folder]
        rintro rfl
        rw [standing] at folder
        cases folder
      obtain ⟨left, removed, leftTree, entries⟩ := ih (tree.erase (target here path)) restDistinct
        fun other member => by
          obtain ⟨otherLocated, content, otherStanding⟩ :=
            areFiles other (List.mem_cons_of_mem path member)
          refine ⟨locate_mono folders otherLocated, content, ?_⟩
          rw [stays, otherStanding]
          exact fun same => notIn (List.mem_map.mpr ⟨other, member, same⟩)
      refine ⟨left, ?_, leftTree, fun place => ?_⟩
      · rw [removeEach, remove_of_file located standing]
        exact removed
      · rw [entries, tree.entryAt_erase_file standing, List.map_cons]
        by_cases inRest : place ∈ rest.map fun path => target here path
        · rw [if_pos inRest, if_pos (List.mem_cons_of_mem _ inRest)]
        · rw [if_neg inRest]
          simp [List.mem_cons, inRest]

/-- A folder is taken away with everything in it, if the way to it stays when it is emptied. -/
theorem remove_of_folder (absolute : dir.IsAbsolute) (proper : (dir.below [name]).IsProper)
    (isPath : IsPath (dir.below [name]).text) (notUp : name ≠ "..")
    (located : disk.locate here (dir.below [name]).text = .ok location)
    (standing : disk.entryAt location = some .folder)
    (way : (disk.empty location).locate here dir.text = .ok folder)
    (stays : (disk.empty location).entryAt folder = some .folder) :
    disk.remove here (dir.below [name]).text = (.ok (), disk.erase location) := by
  have found := find_eq_ok_iff.mpr ⟨located, standing⟩
  have member : name ∈ (dir.below [name]).names := by simp
  have down : GoesDown name := proper.goesDown isPath member notUp
  have dirProper : dir.IsProper := fun other inDir => proper other (List.mem_append_left _ inDir)
  have dirPath := absolute.isPath_of_below dirProper (proper name member) isPath
  have pieces : shownPieces (dir.below [name]).text =
      dir.names.map Name.stored ++ [Name.stored name] := by
    rw [(absolute.below [name]).shownPieces_text fun other inBelow =>
      ⟨proper other inBelow, proper.stored_ne_nil isPath inBelow⟩, CleanPath.names_below,
      List.map_append]
    rfl
  have removable : refusesRemoval (some (Name.stored name)) = none :=
    refusesRemoval_eq_none_iff.mpr ⟨_, rfl, down.notHere, down.notUp⟩
  obtain ⟨reached, walked⟩ : ∃ reached, (disk.empty location).walk
      (origin here (dir.below [name]).text) (stepsAbove (dir.below [name]).text) = .ok reached := by
    rw [stepsAbove, pieces, origin, if_pos (absolute.below [name]).isAbsolute_text,
      List.dropLast_concat]
    split
    · exact ⟨_, rfl⟩
    · refine ⟨folder, ?_⟩
      rw [walk_append, (absolute.locate_text_iff dirProper dirPath).mp way]
      exact walk_here stays
  have accepted : (disk.empty location).refusesFolder here (dir.below [name]).text = none := by
    rw [refusesFolder_of_find found, walked, pieces, List.getLast?_concat]
    exact removable
  rw [remove_of_folder_name ((findName_eq_find _ _ _).trans found), accepted]

end Disk

end ApiDocs
