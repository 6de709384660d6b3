import ApiDocs.Proofs.Disk.Copy

/-!
# Changes of copies

The same change at the same path below two copies of a folder leaves copies again: it is
refused in both for the same cause or succeeds in both.
-/

namespace ApiDocs

namespace Text

variable {separator : Text}

theorem joinWith_prefix (front rest : List Text) :
    joinWith separator front <+: joinWith separator (front ++ rest) := by
  rcases eq_or_ne front [] with rfl | nonempty
  · exact List.nil_prefix
  · rcases eq_or_ne rest [] with rfl | more
    · simp
    · rw [joinWith_append _ nonempty more, List.append_assoc]
      exact List.prefix_append _ _

end Text

namespace Disk

variable {disk first second : Disk} {root root' : CleanPath} {base base' place : Location}
variable {here there : Location} {spot : Spot} {names front rest : List Text} {name : Text}

/-- Names above those of a path that is short enough make one as well. -/
theorem Fits.above (absolute : root.IsAbsolute) (fits : Fits root { names := front ++ rest }) :
    Fits root { names := front } := by
  refine ⟨⟨fun name member => fits.areNames name (List.mem_append_left rest member), ?_⟩, ?_⟩
  · obtain ⟨reached, depth⟩ := Option.isSome_iff_exists.mp fits.depth
    rw [Path.depth?_append, Option.bind_eq_some_iff] at depth
    obtain ⟨begun, depth, -⟩ := depth
    exact Option.isSome_iff_exists.mpr ⟨begun, depth⟩
  · have above : (root.below front).text <+: (root.below (front ++ rest)).text := by
      rw [(absolute.below front).text_eq, (absolute.below (front ++ rest)).text_eq,
        ← CleanPath.below_below]
      exact (List.prefix_append_right_inj _).mpr (Text.joinWith_prefix _ _)
    obtain ⟨behind, whole⟩ := above
    have short : Name.size (root.below (front ++ rest)).text ≤ pathLimit := fits.short
    rw [← whole, Name.size_append] at short
    exact Nat.le_trans (Nat.le_add_right _ _) short

/-! ## Single changes -/

theorem HoldSame.put (same : HoldSame first second base base') (below : base ++ place ≠ [])
    (below' : base' ++ place ≠ []) (entry : Entry) :
    HoldSame (first.put (base ++ place) entry) (second.put (base' ++ place) entry) base base' := by
  intro names
  rcases eq_or_ne names place with rfl | other
  · rw [entryAt_put, entryAt_put, if_neg below, if_neg below', if_pos rfl, if_pos rfl]
  · rw [entryAt_put_of_ne (mt List.append_cancel_left other),
      entryAt_put_of_ne (mt List.append_cancel_left other)]
    exact same names

theorem isWithin_append_left (base place names : Location) :
    isWithin (base ++ place) (base ++ names) = isWithin place names := by
  rw [Bool.eq_iff_iff, isWithin_iff, isWithin_iff]
  simp only [List.append_assoc, List.append_cancel_left_eq]

theorem HoldSame.erase (same : HoldSame first second base base') (below : place ≠ []) :
    HoldSame (first.erase (base ++ place)) (second.erase (base' ++ place)) base base' := by
  intro names
  cases inside : isWithin place names with
  | true =>
      obtain ⟨rest, rfl⟩ := isWithin_iff.mp inside
      have notRoot (base : Location) : base ++ (place ++ rest) ≠ [] := by simp [below]
      rw [entryAt_erase, entryAt_erase, if_neg (notRoot base), if_neg (notRoot base'),
        isWithin_append_left, isWithin_append_left, inside, if_pos rfl, if_pos rfl]
  | false =>
      rw [entryAt_erase_of_outside (by simp [isWithin_append_left, inside]),
        entryAt_erase_of_outside (by simp [isWithin_append_left, inside])]
      exact same names

theorem HoldSame.empty (same : HoldSame first second base base') (below : place ≠ []) :
    HoldSame (first.empty (base ++ place)) (second.empty (base' ++ place)) base base' := by
  intro names
  cases inside : isWithin place names with
  | true =>
      obtain ⟨rest, rfl⟩ := isWithin_iff.mp inside
      have notRoot (base : Location) : base ++ (place ++ rest) ≠ [] := by simp [below]
      rw [entryAt_empty, entryAt_empty, if_neg (notRoot base), if_neg (notRoot base'),
        isWithin_append_left, isWithin_append_left, inside]
      simp only [ne_eq, List.append_cancel_left_eq, same (place ++ rest)]
  | false =>
      rw [entryAt_empty_of_outside (by simp [isWithin_append_left, inside]),
        entryAt_empty_of_outside (by simp [isWithin_append_left, inside])]
      exact same names

/-- A change that takes no folder away at the place of the base leaves it a base. -/
theorem IsBase.of_evolves {files folders : Location → Prop} (isBase : first.IsBase root)
    (evolves : Evolves files folders first second) (outside : ¬folders root.place) :
    second.IsBase root :=
  { isBase with
    tree := evolves.tree isBase.tree
    folder := evolves.folder _ outside isBase.folder }

/-- Changes that are refused for the same cause or succeed, and leave copies of each other. -/
structure ChangedAlike (root root' : CleanPath) (changed changed' : Changed) : Prop where
  outcome : SameOutcome RefusedAlike Eq changed.1 changed'.1
  copies : AreCopies changed.2 changed'.2 root root'

namespace AreCopies

variable (copies : AreCopies first second root root') (fits : Fits root spot)
variable (fits' : Fits root' spot)

include copies

theorem ne_nil_of_entryAt (place : Location)
    (noFolder : first.entryAt (root.place ++ place) ≠ some .folder) :
    root.place ++ place ≠ [] ∧ root'.place ++ place ≠ [] := by
  constructor
  · intro none
    rw [none, entryAt_root] at noFolder
    exact noFolder rfl
  · intro none
    rw [copies.same place, none, entryAt_root] at noFolder
    exact noFolder rfl

include fits fits'

theorem makeFolder :
    ChangedAlike root root' (first.makeFolder here (spot.text root))
      (second.makeFolder there (spot.text root')) := by
  have left : (first.makeFolder here (spot.text root)).2.IsBase root :=
    copies.left.of_evolves evolves_makeFolder id
  have right : (second.makeFolder there (spot.text root')).2.IsBase root' :=
    copies.right.of_evolves evolves_makeFolder id
  have located := copies.locate here there fits fits'
  have atSpot := copies.same spot.place
  have notRoot := copies.ne_nil_of_entryAt spot.place
  rw [Disk.makeFolder, placeName_eq_place, Disk.place] at left
  rw [Disk.makeFolder, placeName_eq_place, Disk.place] at right
  rw [Disk.makeFolder, Disk.makeFolder, placeName_eq_place, placeName_eq_place, Disk.place,
    Disk.place]
  revert located left right
  generalize first.locate here (spot.text root) = placed
  generalize second.locate there (spot.text root') = placed'
  rintro left right (⟨rfl, rfl⟩ | refused)
  · simp only [atSpot] at left right ⊢
    rw [atSpot] at notRoot
    cases standing : second.entryAt (root'.place ++ spot.place) with
    | some entry => exact ⟨.error (.refused _ _ _), copies⟩
    | none =>
        rw [standing] at left right notRoot
        obtain ⟨below, below'⟩ := notRoot (by simp)
        exact ⟨.ok rfl, left, right, copies.same.put below below' _⟩
  · exact ⟨.error refused, copies⟩

theorem writeInFolder (content : List UInt8) :
    ChangedAlike root root' (first.writeInFolder here (spot.text root) content)
      (second.writeInFolder there (spot.text root') content) := by
  have left : (first.writeInFolder here (spot.text root) content).2.IsBase root :=
    copies.left.of_evolves (evolves_writeInFolder content) id
  have right : (second.writeInFolder there (spot.text root') content).2.IsBase root' :=
    copies.right.of_evolves (evolves_writeInFolder content) id
  have located := copies.locate here there fits fits'
  have atSpot := copies.same spot.place
  have notRoot := copies.ne_nil_of_entryAt spot.place
  rw [Disk.writeInFolder, Disk.place] at left
  rw [Disk.writeInFolder, Disk.place] at right
  rw [Disk.writeInFolder, Disk.writeInFolder, Disk.place, Disk.place]
  revert located left right
  generalize first.locate here (spot.text root) = placed
  generalize second.locate there (spot.text root') = placed'
  rintro left right (⟨rfl, rfl⟩ | refused)
  · simp only [atSpot] at left right ⊢
    rw [atSpot] at notRoot
    by_cases folder : (second.entryAt (root'.place ++ spot.place)).any Entry.isFolder = true
    · rw [if_pos folder, if_pos folder]
      exact ⟨.error (.refused _ _ _), copies⟩
    · rw [if_neg folder] at left right ⊢
      rw [if_neg folder]
      obtain ⟨below, below'⟩ := notRoot (mt any_isFolder_iff.mpr folder)
      exact ⟨.ok rfl, left, right, copies.same.put below below' _⟩
  · exact ⟨.error refused, copies⟩

theorem unlessFolder {error error' : DiskError} (refused : RefusedAlike error error') :
    ChangedAlike root root' (first.unlessFolder here (spot.text root) error)
      (second.unlessFolder there (spot.text root') error') := by
  rw [Disk.unlessFolder, Disk.unlessFolder, copies.hasFolder_eq here there fits fits']
  split
  · exact ⟨.ok rfl, copies⟩
  · exact ⟨.error refused, copies⟩

end AreCopies

/-! ## Writing -/

/-- No folder has to be made on the way to a folder. -/
theorem IsBase.makeFoldersUpTo_root (isBase : disk.IsBase root) :
    disk.makeFoldersUpTo here root.anchor root.names.reverse = (.ok (), disk) := by
  rcases List.eq_nil_or_concat root.names with none | ⟨above, name, cut⟩
  · rw [none]
    rfl
  · have isPath : IsPath (Spot.text root { names := [] }) := by
      simpa [Spot.text] using isBase.isPath
    have located : disk.locate here (Spot.text root { names := [] }) = _ :=
      Spot.locate_text isBase ⟨by simp, rfl⟩ isPath
    have atRoot : Spot.text root { names := [] } = root.text := by simp [Spot.text]
    rw [atRoot, Spot.steps, List.map_nil, if_neg Bool.false_ne_true, List.append_nil, walk]
      at located
    have written : (CleanPath.mk root.anchor root.names) = root := rfl
    have made : disk.makeFolder here root.text =
        (.error (.refused .entryExists root.text), disk) := by
      rw [Disk.makeFolder, placeName_eq_place, Disk.place, located]
      simp only [Except.mapError, isBase.folder]
    have isFolder : disk.hasFolder here root.text = true := by
      rw [hasFolder, Disk.find, located]
      simp only [Except.mapError, isBase.folder, Entry.isFolder_folder]
    have isWhole : (CleanPath.mk root.anchor (name :: above.reverse).reverse).text = root.text := by
      rw [List.reverse_cons, List.reverse_reverse, ← List.concat_eq_append, ← cut]
    rw [cut, List.concat_eq_append, List.reverse_concat, Disk.makeFoldersUpTo, isWhole, made]
    simp only [Disk.unlessFolder, isFolder, if_true]

theorem names_below_concat (root : CleanPath) (front : List Text) (name : Text) :
    (root.below (front ++ [name])).names.reverse = name :: (root.below front).names.reverse := by
  simp [CleanPath.names_below]

theorem mk_reverse_names_below (root : CleanPath) (front : List Text) (name : Text) :
    CleanPath.mk root.anchor (name :: (root.below front).names.reverse).reverse =
      root.below (front ++ [name]) := by
  rw [← names_below_concat, List.reverse_reverse]
  rfl

/-- The same folders are made in two copies on the way to the same path. -/
theorem AreCopies.makeFoldersUpTo (copies : AreCopies first second root root')
    (fits : Fits root { names }) (fits' : Fits root' { names }) :
    ChangedAlike root root'
      (first.makeFoldersUpTo here root.anchor (root.below names).names.reverse)
      (second.makeFoldersUpTo there root'.anchor (root'.below names).names.reverse) := by
  induction names using List.reverseRecOn with
  | nil =>
      rw [CleanPath.below_nil, CleanPath.below_nil, copies.left.makeFoldersUpTo_root,
        copies.right.makeFoldersUpTo_root]
      exact ⟨.ok rfl, copies⟩
  | append_singleton front name ih =>
      have above := ih (fits.above copies.left.absolute) (fits'.above copies.right.absolute)
      have last {disk disk' : Disk} (copies : AreCopies disk disk' root root') :
          ChangedAlike root root' (disk.makeFolder here (root.below (front ++ [name])).text)
            (disk'.makeFolder there (root'.below (front ++ [name])).text) :=
        copies.makeFolder fits fits'
      have accepted {disk disk' : Disk} (copies : AreCopies disk disk' root root')
          {error error' : DiskError} (refused : RefusedAlike error error') :
          ChangedAlike root root' (disk.unlessFolder here (root.below (front ++ [name])).text error)
            (disk'.unlessFolder there (root'.below (front ++ [name])).text error') :=
        copies.unlessFolder fits fits' refused
      rw [names_below_concat, names_below_concat, Disk.makeFoldersUpTo, Disk.makeFoldersUpTo,
        mk_reverse_names_below, mk_reverse_names_below]
      obtain ⟨outcome, made⟩ := last copies
      revert outcome made
      rcases first.makeFolder here (root.below (front ++ [name])).text with ⟨outcome, left⟩
      rcases second.makeFolder there (root'.below (front ++ [name])).text with ⟨outcome', right⟩
      rintro (_ | ⟨cause, path, path'⟩ | ⟨fault, fault'⟩) made
      · exact ⟨.ok rfl, made⟩
      · cases cause with
        | noSuchEntry =>
            simp only
            obtain ⟨outcome, made⟩ := above
            revert outcome made
            rcases first.makeFoldersUpTo here root.anchor (root.below front).names.reverse with
              ⟨outcome, left⟩
            rcases second.makeFoldersUpTo there root'.anchor (root'.below front).names.reverse with
              ⟨outcome', right⟩
            rintro (_ | refused) made
            · simp only
              obtain ⟨outcome, finished⟩ := last made
              revert outcome finished
              rcases left.makeFolder here (root.below (front ++ [name])).text with ⟨outcome, left⟩
              rcases right.makeFolder there (root'.below (front ++ [name])).text with
                ⟨outcome', right⟩
              rintro (_ | refused) finished
              · exact ⟨.ok rfl, finished⟩
              · exact accepted finished refused
            · exact ⟨.error refused, made⟩
        | _ => exact accepted copies (.refused _ path path')
      · exact accepted copies (.notAPath fault fault')

/-- The same file is written below two copies. -/
theorem AreCopies.write (copies : AreCopies first second root root')
    (fits : Fits root { names := front ++ [name] })
    (fits' : Fits root' { names := front ++ [name] })
    (content : List UInt8) :
    ChangedAlike root root' (first.write here (root.below (front ++ [name])).text content)
      (second.write there (root'.below (front ++ [name])).text content) := by
  have read {disk : Disk} {root : CleanPath} (isBase : disk.IsBase root)
      (fits : Fits root { names := front ++ [name] }) :
      CleanPath.ofText (root.below (front ++ [name])).text = root.below (front ++ [name]) :=
    (isBase.proper.below fits.areNames).ofText_text
  have parent (root : CleanPath) : (root.below (front ++ [name])).parent = root.below front := by
    simp [CleanPath.parent, CleanPath.below, ← List.append_assoc]
  obtain ⟨outcome, made⟩ : ChangedAlike root root'
      (first.makeFoldersUpTo here (root.below front).anchor (root.below front).names.reverse)
      (second.makeFoldersUpTo there (root'.below front).anchor (root'.below front).names.reverse) :=
    copies.makeFoldersUpTo (fits.above copies.left.absolute) (fits'.above copies.right.absolute)
  rw [Disk.write, Disk.write, read copies.left fits, read copies.right fits', parent, parent,
    Disk.makeFolders, Disk.makeFolders]
  revert outcome made
  rcases first.makeFoldersUpTo here (root.below front).anchor (root.below front).names.reverse with
    ⟨outcome, left⟩
  rcases second.makeFoldersUpTo there (root'.below front).anchor (root'.below front).names.reverse
    with ⟨outcome', right⟩
  rintro (_ | refused) made
  · exact made.writeInFolder fits fits' content
  · exact ⟨.error refused, made⟩

/-! ## Taking away -/

namespace AreCopies

theorem not_isWithin_place (root : CleanPath) (below : place ≠ []) :
    ¬isWithin (root.place ++ place) root.place := by
  intro inside
  have cancelled := isWithin_append_left root.place place []
  rw [List.append_nil, inside] at cancelled
  obtain ⟨rest, none⟩ := isWithin_iff.mp cancelled.symm
  exact below (List.append_eq_nil_iff.mp none.symm).1

variable (copies : AreCopies first second root root')

include copies

theorem erase (below : place ≠ []) :
    AreCopies (first.erase (root.place ++ place)) (second.erase (root'.place ++ place)) root root' :=
  ⟨copies.left.of_evolves (evolves_erase _ _) (not_isWithin_place root below),
    copies.right.of_evolves (evolves_erase _ _) (not_isWithin_place root' below),
    copies.same.erase below⟩

theorem empty (below : place ≠ []) :
    AreCopies (first.empty (root.place ++ place)) (second.empty (root'.place ++ place)) root root' :=
  ⟨copies.left.of_evolves (evolves_empty _ _) (not_isWithin_place root below),
    copies.right.of_evolves (evolves_empty _ _) (not_isWithin_place root' below),
    copies.same.empty below⟩

end AreCopies

/-- The names of a path below a folder, as the disk shows them. -/
theorem IsBase.shownPieces_concat (isBase : disk.IsBase root)
    (areNames : ∀ other ∈ front ++ [name], Path.IsName other)
    (isPath : IsPath (root.below (front ++ [name])).text) :
    shownPieces (root.below (front ++ [name])).text =
      (root.names ++ front).map Name.stored ++ [Name.stored name] := by
  have proper := isBase.proper.below areNames
  rw [(isBase.absolute.below _).shownPieces_text fun other member =>
    ⟨proper other member, proper.stored_ne_nil isPath member⟩, CleanPath.names_below,
    ← List.append_assoc, List.map_append, List.map_singleton]

/-- The way above a path, as it is followed once more when its folder was emptied. -/
theorem IsBase.walk_stepsAbove (isBase : disk.IsBase root) (here : Location)
    (areNames : ∀ other ∈ front ++ [name], Path.IsName other)
    (isPath : IsPath (root.below (front ++ [name])).text) :
    disk.walk (origin here (root.below (front ++ [name])).text)
        (stepsAbove (root.below (front ++ [name])).text) =
      disk.walk root.place (Spot.steps { names := front, closed := true }) := by
  have steps : Spot.steps { names := front, closed := true } =
      front.map Name.stored ++ [("." : Text)] := rfl
  rw [origin, if_pos (isBase.absolute.below _).isAbsolute_text, stepsAbove,
    isBase.shownPieces_concat areNames isPath, steps]
  rcases eq_or_ne (root.names ++ front) [] with none | several
  · obtain ⟨noRoot, rfl⟩ := List.append_eq_nil_iff.mp none
    have atRoot : root.place = [] := by rw [isBase.place_eq, noRoot, List.map_nil]
    rw [none, atRoot]
    simp [walk, step]
  · have long : ¬((root.names ++ front).map Name.stored ++ [Name.stored name]).length ≤ 1 := by
      have := List.length_pos_iff.mpr several
      simp only [List.length_append, List.length_map, List.length_singleton] at this ⊢
      omega
    rw [if_neg long, List.dropLast_concat, List.map_append, List.append_assoc, walk_append,
      isBase.walk_root]
    rfl

/-- The same folder below two copies is taken away in both. -/
theorem AreCopies.remove_folder (copies : AreCopies first second root root')
    (fits : Fits root { names := front ++ [name] })
    (fits' : Fits root' { names := front ++ [name] })
    (below : Spot.place { names := front ++ [name] } ≠ [])
    (found : first.find here (root.below (front ++ [name])).text =
      .ok (root.place ++ Spot.place { names := front ++ [name] }, .folder))
    (found' : second.find there (root'.below (front ++ [name])).text =
      .ok (root'.place ++ Spot.place { names := front ++ [name] }, .folder)) :
    ChangedAlike root root' (first.remove here (root.below (front ++ [name])).text)
      (second.remove there (root'.below (front ++ [name])).text) := by
  have isPath := isPath_of_locate (find_eq_ok_iff.mp found).1
  have isPath' := isPath_of_locate (find_eq_ok_iff.mp found').1
  have emptied := copies.empty below
  have areNames : ∀ other ∈ front, other = ".." ∨ GoesDown other := fun other member =>
    copies.left.goesDown_below fits.areNames isPath (List.mem_append_left _ member)
  have walked := @AreCopies.walk_steps _ _ _ _ { names := front, closed := true }
    emptied areNames (fits.above copies.left.absolute).depth
  rw [← emptied.left.walk_stepsAbove here fits.areNames isPath,
    ← emptied.right.walk_stepsAbove there fits'.areNames isPath'] at walked
  rw [remove_of_folder_name ((findName_eq_find _ _ _).trans found),
    remove_of_folder_name ((findName_eq_find _ _ _).trans found'), refusesFolder_of_find found,
    refusesFolder_of_find found', copies.left.shownPieces_concat fits.areNames isPath,
    copies.right.shownPieces_concat fits'.areNames isPath', List.getLast?_concat,
    List.getLast?_concat]
  rcases walked with ⟨cause, left, right⟩ | ⟨left, right⟩
  · rw [left, right]
    exact ⟨.error (.refused cause _ _), emptied⟩
  · rw [left, right]
    cases refusesRemoval (some (Name.stored name)) with
    | some cause => exact ⟨.error (.refused cause _ _), emptied⟩
    | none => exact ⟨.ok rfl, copies.erase below⟩

/-- What stands at the same path below two copies is taken away in both. -/
theorem AreCopies.remove (copies : AreCopies first second root root')
    (fits : Fits root { names := front ++ [name] })
    (fits' : Fits root' { names := front ++ [name] })
    (down : GoesDown name) :
    ChangedAlike root root' (first.remove here (root.below (front ++ [name])).text)
      (second.remove there (root'.below (front ++ [name])).text) := by
  have below : Spot.place { names := front ++ [name] } ≠ [] := by
    rw [Spot.place, follow_append, follow_of_goesDown (by simpa using down)]
    simp
  have found : SameOutcome RefusedAlike _ (first.find here (root.below (front ++ [name])).text)
      (second.find there (root'.below (front ++ [name])).text) :=
    copies.find here there fits fits'
  cases left : first.find here (root.below (front ++ [name])).text with
  | error error =>
      cases right : second.find there (root'.below (front ++ [name])).text with
      | ok pair =>
          rw [left, right] at found
          cases found
      | error error' =>
          rw [left, right] at found
          rw [remove_of_no_name ((findName_eq_find _ _ _).trans left),
            remove_of_no_name ((findName_eq_find _ _ _).trans right)]
          cases found with
          | error refused => exact ⟨.error refused, copies⟩
  | ok pair =>
      obtain ⟨location, entry⟩ := pair
      cases right : second.find there (root'.below (front ++ [name])).text with
      | error error =>
          rw [left, right] at found
          cases found
      | ok pair' =>
          obtain ⟨location', entry'⟩ := pair'
          rw [left, right] at found
          obtain ⟨rfl, rfl, equal⟩ : location = root.place ++ Spot.place { names := front ++ [name] } ∧
              location' = root'.place ++ Spot.place { names := front ++ [name] } ∧
                entry = entry' := by
            cases found with
            | ok same => exact same
          subst equal
          by_cases folder : entry = .folder
          · subst folder
            exact copies.remove_folder fits fits' below left right
          · rw [remove_of_other_name ((findName_eq_find _ _ _).trans left) folder,
              remove_of_other_name ((findName_eq_find _ _ _).trans right) folder]
            exact ⟨.ok rfl, copies.erase below⟩

end Disk

end ApiDocs
