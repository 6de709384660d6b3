import ApiDocs.Proofs.Disk.Removable

/-!
# Taking several things away

Paths are taken away one after the other, and each one has to name something when its turn
comes.  Whether all of them go is known from the disk as it was: every path can be taken away by
itself, and names the same without what stands under an earlier one.

What is left, then, is what stood neither at nor below the place of any of the names.
-/

namespace ApiDocs.Disk

variable {links : Bool} {disk other after left emptied both : Disk links}
variable {here place location : Location} {path first second : Text} {paths front : List Text}

/-- The second path names the same when what stands under the first one is gone. -/
def Spares (disk : Disk links) (here : Location) (first second : Text) : Prop :=
  ∀ place ∈ disk.nameAt? here first,
    (disk.erase place).nameAt? here second = disk.nameAt? here second

instance (disk : Disk links) (here : Location) (first second : Text) :
    Decidable (disk.Spares here first second) :=
  inferInstanceAs (Decidable (∀ _ ∈ _, _))

/-- The places at or below the names of some paths. -/
def belowNames (disk : Disk links) (here : Location) (paths : List Text) : Location → Prop :=
  fun place => ∃ path ∈ paths, ∃ name ∈ disk.nameAt? here path, isWithin name place = true

instance (disk : Disk links) (here : Location) (paths : List Text) (place : Location) :
    Decidable (disk.belowNames here paths place) :=
  inferInstanceAs (Decidable (∃ path ∈ paths, ∃ name ∈ disk.nameAt? here path,
    isWithin name place = true))

/-! ## The way to an empty folder -/

/-- The steps that are taken again lead where what is in front of the last name leads. -/
theorem lead_stepsAbove_iff {name : Text} (cut : shownPieces path = front ++ [name]) :
    disk.lead true linkLimit (origin here path) (stepsAbove path) = .ok location ↔
      (∃ trail, Leads disk true linkLimit (origin here path) front trail location) ∧
        (front = [] ∨ disk.entryAt location = some .folder) := by
  have pointNonempty : ("." : Text) ≠ [] := List.cons_ne_nil _ _
  rw [lead_eq_ok_iff, stepsAbove, cut, List.dropLast_concat, List.length_append, List.length_singleton]
  split
  · rename_i short
    obtain rfl : front = [] := List.length_eq_zero_iff.mp (by omega)
    simp
  · rename_i long
    have several : front ≠ [] := by
      rintro rfl
      exact long (by simp)
    rw [or_iff_right several]
    constructor
    · rintro ⟨trail, leads⟩
      obtain ⟨above, folder, budget, behind, toFolder, stays⟩ := leads.exists_front
      have isFolder {next : Location} (stepped : disk.step folder "." = .ok next) :
          next = folder ∧ disk.entryAt folder = some .folder := by
        obtain ⟨canStep, same⟩ := (step_eq_ok_iff pointNonempty).mp stepped
        exact ⟨same.trans (advance_here folder), canStep.fromFolder⟩
      cases stays with
      | step stepped _ further =>
          cases further
          obtain ⟨same, standing⟩ := isFolder stepped
          rw [same]
          exact ⟨⟨_, toFolder⟩, standing⟩
      | link stepped isLink _ _ =>
          obtain ⟨same, standing⟩ := isFolder stepped
          rw [same, linkAt?, standing] at isLink
          cases isLink
    · rintro ⟨⟨trail, leads⟩, folder⟩
      exact leads.concat_here folder

/-- An empty folder can be taken away if it stands in the folder to which the other names lead. -/
theorem refusesFolder_eq_none_iff :
    disk.refusesFolder here path = none ↔
      ∃ (front : List Text) (name : Text) (folder : Location), shownPieces path = front ++ [name] ∧
        name ≠ "." ∧ name ≠ ".." ∧
        (∃ trail, Leads disk true linkLimit (origin here path) front trail folder) ∧
        (front = [] ∨ disk.entryAt folder = some .folder) ∧
        disk.entryAt (folder ++ [name]) = some .folder := by
  rw [refusesFolder_eq]
  constructor
  · intro accepted
    split at accepted
    · cases accepted
    · rename_i folder led
      obtain ⟨name, isLast, notHere, notUp, standing⟩ := refusesName_eq_none_iff.mp accepted
      obtain ⟨front, cut⟩ := List.getLast?_eq_some_iff.mp isLast
      obtain ⟨leads, isFolder⟩ := (lead_stepsAbove_iff cut).mp led
      exact ⟨front, name, folder, cut, notHere, notUp, leads, isFolder, standing⟩
  · rintro ⟨front, name, folder, cut, notHere, notUp, leads, isFolder, standing⟩
    rw [(lead_stepsAbove_iff cut).mpr ⟨leads, isFolder⟩]
    exact refusesName_eq_none_iff.mpr
      ⟨name, by rw [cut, List.getLast?_concat], notHere, notUp, standing⟩

/-- What a smaller disk accepts, a larger one accepts. -/
theorem Shrinks.refusesFolder (shrinks : Shrinks disk after)
    (accepted : after.refusesFolder here path = none) : disk.refusesFolder here path = none := by
  obtain ⟨front, name, folder, cut, notHere, notUp, ⟨trail, leads⟩, isFolder, standing⟩ :=
    refusesFolder_eq_none_iff.mp accepted
  refine refusesFolder_eq_none_iff.mpr
    ⟨front, name, folder, cut, notHere, notUp, ?_, isFolder.imp_right shrinks.entryAt,
      shrinks.entryAt standing⟩
  rcases isFolder with rfl | isFolder
  · cases leads
    exact ⟨_, .here _ _⟩
  · exact ⟨trail, shrinks.leads leads isFolder⟩

/--
A folder to which a path leads on a smaller disk can still be taken away when it is empty, if it
can on the disk itself.
-/
theorem refusesFolder_of_both (shrinks : Shrinks disk other) (empties : Shrinks disk emptied)
    (have_both : ∀ place entry, other.entryAt place = some entry →
      emptied.entryAt place = some entry → both.entryAt place = some entry)
    (found : other.findName here path = .ok (location, .folder))
    (accepted : emptied.refusesFolder here path = none) : both.refusesFolder here path = none := by
  obtain ⟨front, name, folder, cut, notHere, notUp, ⟨trail, leads⟩, isFolder, standing⟩ :=
    refusesFolder_eq_none_iff.mp accepted
  obtain ⟨ending, stays, steps⟩ := exists_steps_eq cut
  obtain ⟨located, isEntry⟩ := findName_eq_ok_iff.mp found
  obtain ⟨-, whole, named⟩ := locateName_eq_ok_iff.mp located
  rw [steps] at named
  obtain ⟨above, folder', budget, behind, toFolder, onward⟩ := named.exists_front
  have fromFolder : other.entryAt folder' = some .folder := by
    have own : name ≠ [] := ne_nil_of_shownPieces_eq cut name (by simp)
    cases onward with
    | step stepped _ _ => exact ((step_eq_ok_iff own).mp stepped).1.fromFolder
    | link stepped _ _ _ => exact ((step_eq_ok_iff own).mp stepped).1.fromFolder
  have onDisk : folder = folder' := by
    rcases isFolder with rfl | isFolder
    · cases leads
      cases toFolder
      rfl
    · exact ((empties.leads leads isFolder).unique (shrinks.leads toFolder fromFolder)).2
  subst onDisk
  -- On the disk itself the name is one of the folder, so the path names that folder.
  have last : location = folder ++ [name] :=
    (shrinks.leads onward isEntry).eq_concat_of_folder (empties.entryAt standing)
      (ne_nil_of_shownPieces_eq cut name (by simp)) notHere notUp stays
  refine refusesFolder_eq_none_iff.mpr ⟨front, name, folder, cut, notHere, notUp, ?_,
    isFolder.imp_right (have_both _ _ fromFolder), have_both _ _ (last ▸ isEntry) standing⟩
  rcases isFolder with rfl | isFolder
  · cases leads
    exact ⟨_, .here _ _⟩
  · exact ⟨_, .of_both shrinks empties have_both toFolder fromFolder leads isFolder⟩

/-! ## One after the other -/

theorem entryAt_erase_eq_some {entry : Entry links} (belowRoot : location ≠ [])
    (standing : (disk.erase location).entryAt place = some entry) :
    isWithin location place = false ∧ disk.entryAt place = some entry := by
  refine ⟨?_, (shrinks_erase disk location).entryAt standing⟩
  rw [Bool.eq_false_iff]
  intro inside
  rw [entryAt_erase_of_within belowRoot inside] at standing
  cases standing

/-- What is left on two disks without some places is left on the disk without all of them. -/
theorem entryAt_erase_of_both {entry : Entry links}
    (belowRoot : location ≠ []) (inFirst : (disk.erase location).entryAt place = some entry)
    (inSecond : other.entryAt place = some entry) :
    (other.erase location).entryAt place = some entry := by
  obtain ⟨outside, -⟩ := entryAt_erase_eq_some belowRoot inFirst
  rwa [entryAt_erase_of_outside (ne_true_of_eq_false outside)]

theorem shrinks_erase_congr (shrinks : Shrinks disk after) :
    Shrinks (disk.erase location) (after.erase location) := by
  intro place
  rw [entryAt_erase, entryAt_erase]
  split
  · exact .inr rfl
  · split
    · exact .inl rfl
    · exact shrinks place

theorem shrinks_empty_congr (shrinks : Shrinks disk after) :
    Shrinks (disk.empty location) (after.empty location) := by
  intro place
  rw [entryAt_empty, entryAt_empty]
  split
  · exact .inr rfl
  · split
    · exact .inl rfl
    · exact shrinks place

/-- What is left of a path's name on a disk without some place stands there under the same name. -/
theorem spares_iff_of_nameAt? {name : Location} (isFirst : disk.nameAt? here first = some place)
    (isSecond : disk.nameAt? here second = some name) :
    disk.Spares here first second ↔ (disk.erase place).nameAt? here second = some name := by
  simp [Spares, isFirst, isSecond]

/-- After a removal the same can be taken away as before, if its name stays. -/
theorem isRemovable_erase_iff (isFirst : disk.nameAt? here first = some place) :
    (disk.erase place).IsRemovable here second ↔
      disk.IsRemovable here second ∧ disk.Spares here first second := by
  have shrinks := shrinks_erase disk place
  constructor
  · rintro ⟨standing, accepted⟩
    obtain ⟨name, isLeft⟩ := hasName_iff.mp standing
    have isName := shrinks.nameAt? isLeft
    refine ⟨⟨hasName_iff.mpr ⟨name, isName⟩, fun folder isFolder => ?_⟩,
      (spares_iff_of_nameAt? isFirst isName).mpr isLeft⟩
    obtain ⟨entry, found⟩ := nameAt?_eq_some_iff.mp isLeft
    have before := folderAt?_eq_some_iff.mp isFolder
    rw [shrinks.findName found] at before
    cases before
    exact (shrinks_empty_congr shrinks).refusesFolder (accepted _ (folderAt?_eq_some_iff.mpr found))
  · rintro ⟨⟨standing, accepted⟩, spares⟩
    obtain ⟨name, isName⟩ := hasName_iff.mp standing
    have isLeft := (spares_iff_of_nameAt? isFirst isName).mp spares
    refine ⟨hasName_iff.mpr ⟨name, isLeft⟩, fun folder isFolder => ?_⟩
    have found := folderAt?_eq_some_iff.mp isFolder
    have before := shrinks.findName found
    refine refusesFolder_of_both shrinks (shrinks_empty disk folder)
      (fun place entry inLeft inEmpty => ?_)
      found (accepted folder (folderAt?_eq_some_iff.mpr before))
    have whole := shrinks.entryAt inLeft
    rw [entryAt_empty] at inEmpty ⊢
    split
    · rename_i root
      rwa [if_pos root] at inEmpty
    · rename_i belowRoot
      rw [if_neg belowRoot] at inEmpty
      split
      · rename_i inside
        rw [if_pos inside] at inEmpty
        cases inEmpty
      · exact inLeft

/-- Among paths whose names stay after a removal, the same ones spare each other. -/
theorem spares_erase_iff {third : Text} (isFirst : disk.nameAt? here first = some place)
    (isSecond : disk.IsRemovable here second ∧ disk.Spares here first second)
    (isThird : disk.IsRemovable here third ∧ disk.Spares here first third) :
    (disk.erase place).Spares here second third ↔ disk.Spares here second third := by
  obtain ⟨name, isName⟩ := hasName_iff.mp isSecond.1.standing
  obtain ⟨last, isLast⟩ := hasName_iff.mp isThird.1.standing
  have nameLeft := (spares_iff_of_nameAt? isFirst isName).mp isSecond.2
  have lastLeft := (spares_iff_of_nameAt? isFirst isLast).mp isThird.2
  rw [spares_iff_of_nameAt? isName isLast, spares_iff_of_nameAt? nameLeft lastLeft]
  have nameBelowRoot : name ≠ [] := isSecond.1.ne_nil isName
  constructor
  · exact (shrinks_erase_congr (shrinks_erase disk place)).nameAt?
  · intro withoutSecond
    obtain ⟨entry, onFirst⟩ := nameAt?_eq_some_iff.mp withoutSecond
    obtain ⟨other, onSecond⟩ := nameAt?_eq_some_iff.mp lastLeft
    exact nameAt?_eq_some_iff.mpr ⟨entry, findName_of_both (shrinks_erase disk name)
      (shrinks_erase disk place)
      (fun _ _ inFirst inSecond => entryAt_erase_of_both nameBelowRoot inFirst inSecond)
      onFirst onSecond⟩

/-- Whether all paths go is known from the disk as it was. -/
theorem exists_removeEach_iff :
    (∃ left, disk.removeEach here paths = (.ok (), left)) ↔
      (∀ path ∈ paths, disk.IsRemovable here path) ∧ paths.Pairwise (disk.Spares here) := by
  induction paths generalizing disk with
  | nil => exact iff_of_true ⟨disk, rfl⟩ ⟨fun _ member => absurd member List.not_mem_nil, .nil⟩
  | cons path rest ih =>
      rw [List.forall_mem_cons, List.pairwise_cons, removeEach]
      by_cases removable : disk.IsRemovable here path
      · obtain ⟨place, isFirst⟩ := hasName_iff.mp removable.standing
        rw [remove_eq_ok_iff.mpr ⟨removable, place, isFirst, rfl⟩]
        change (∃ left, (disk.erase place).removeEach here rest = (.ok (), left)) ↔ _
        rw [ih]
        constructor
        · rintro ⟨each, pairwise⟩
          have before (other : Text) (member : other ∈ rest) :=
            (isRemovable_erase_iff isFirst).mp (each other member)
          exact ⟨⟨removable, fun other member => (before other member).1⟩,
            fun other member => (before other member).2,
            pairwise.imp_of_mem fun inRest inRest' spares =>
              (spares_erase_iff isFirst (before _ inRest) (before _ inRest')).mp spares⟩
        · rintro ⟨⟨-, each⟩, spares, pairwise⟩
          have both (other : Text) (member : other ∈ rest) := And.intro (each other member)
            (spares other member)
          exact ⟨fun other member => (isRemovable_erase_iff isFirst).mpr (both other member),
            pairwise.imp_of_mem fun inRest inRest' spares =>
              (spares_erase_iff isFirst (both _ inRest) (both _ inRest')).mpr spares⟩
      · refine iff_of_false ?_ fun both => removable both.1.1
        rintro ⟨left, removed⟩
        split at removed
        · cases removed
        · rename_i outcome
          exact removable (remove_eq_ok_iff.mp outcome).1

/-! ## What is left -/

/-- A removal leaves the disk as it was, or takes something at or below the place of the name. -/
theorem remove_name_cases (disk : Disk links) (here : Location) (path : Text) :
    (∃ error, disk.remove here path = (.error error, disk)) ∨
      ∃ place, disk.nameAt? here path = some place ∧
        ((∃ error, disk.remove here path = (.error error, disk.empty place)) ∨
          disk.remove here path = (.ok (), disk.erase place)) := by
  cases named : disk.nameAt? here path with
  | none =>
      obtain ⟨error, missing⟩ := nameAt?_eq_none_iff.mp named
      exact .inl ⟨error, remove_of_no_name missing⟩
  | some place =>
      refine .inr ⟨place, rfl, ?_⟩
      obtain ⟨entry, found⟩ := nameAt?_eq_some_iff.mp named
      by_cases folder : entry = .folder
      · subst folder
        rw [remove_of_folder_name found]
        split
        · exact .inl ⟨_, rfl⟩
        · exact .inr rfl
      · exact .inr (remove_of_other_name found folder)

theorem Shrinks.belowNames (shrinks : Shrinks disk after)
    (below : after.belowNames here paths place) :
    disk.belowNames here paths place := by
  obtain ⟨path, member, name, isName, inside⟩ := below
  exact ⟨path, member, name, shrinks.nameAt? isName, inside⟩

/-- Whether or not all paths go, nothing else changes. -/
theorem entryAt_removeEach_of_outside (outside : ¬disk.belowNames here paths place) :
    (disk.removeEach here paths).2.entryAt place = disk.entryAt place := by
  induction paths generalizing disk with
  | nil => rfl
  | cons path rest ih =>
      have others : ¬disk.belowNames here rest place := fun ⟨other, member, inside⟩ =>
        outside ⟨other, List.mem_cons_of_mem path member, inside⟩
      rw [removeEach]
      rcases remove_name_cases disk here path with ⟨error, same⟩ | ⟨name, isName, taken⟩
      · rw [same]
      · have own : ¬isWithin name place = true := fun inside =>
          outside ⟨path, List.mem_cons_self, name, isName, inside⟩
        rcases taken with ⟨error, same⟩ | same <;> rw [same]
        · exact entryAt_empty_of_outside own
        · exact (ih (mt (shrinks_erase disk name).belowNames others)).trans
            (entryAt_erase_of_outside own)

/-- Where all paths go, so does everything at or below their names. -/
theorem entryAt_removeEach_of_below (removed : disk.removeEach here paths = (.ok (), left))
    (below : disk.belowNames here paths place) : left.entryAt place = none := by
  induction paths generalizing disk with
  | nil =>
      obtain ⟨path, member, -⟩ := below
      cases member
  | cons path rest ih =>
      obtain ⟨each, pairwise⟩ := exists_removeEach_iff.mp ⟨left, removed⟩
      obtain ⟨removable, others⟩ := List.forall_mem_cons.mp each
      obtain ⟨name, isName⟩ := hasName_iff.mp removable.standing
      have gone := remove_eq_ok_iff.mpr ⟨removable, name, isName, rfl⟩
      rw [removeEach, gone] at removed
      change (disk.erase name).removeEach here rest = _ at removed
      obtain ⟨other, member, otherName, isOther, inside⟩ := below
      rcases List.mem_cons.mp member with rfl | inRest
      · rw [isName] at isOther
        cases isOther
        have shrinks : Shrinks (disk.erase name) ((disk.erase name).removeEach here rest).2 :=
          shrinks_removeEach rest
        rw [removed] at shrinks
        rcases shrinks place with none | same
        · exact none
        · exact same.trans (entryAt_erase_of_within (removable.ne_nil isName) inside)
      · have spares := (List.pairwise_cons.mp pairwise).1 other inRest
        have stays := (spares_iff_of_nameAt? isName isOther).mp spares
        exact ih removed ⟨other, inRest, otherName, stays, inside⟩

theorem IsTree.removeEach (tree : disk.IsTree) (here : Location) (paths : List Text) :
    (disk.removeEach here paths).2.IsTree := by
  induction paths generalizing disk with
  | nil => exact tree
  | cons path rest ih =>
      rw [Disk.removeEach]
      rcases remove_name_cases disk here path with
        ⟨error, same⟩ | ⟨name, -, ⟨error, same⟩ | same⟩ <;> rw [same]
      · exact tree
      · exact tree.empty name
      · exact ih (tree.erase name)

theorem entries_removeEach_sublist (disk : Disk links) (here : Location) (paths : List Text) :
    (disk.removeEach here paths).2.entries.Sublist disk.entries := by
  induction paths generalizing disk with
  | nil => exact .refl _
  | cons path rest ih =>
      rw [removeEach]
      rcases remove_name_cases disk here path with
        ⟨error, same⟩ | ⟨name, -, ⟨error, same⟩ | same⟩ <;> rw [same]
      · exact List.filter_sublist
      · exact (ih _).trans List.filter_sublist

end ApiDocs.Disk
