import Mathlib.Tactic.MkIffOfInductiveProp
import ApiDocs.Proofs.Disk.Lead
import ApiDocs.Proofs.Disk.Way

/-!
# What can be taken away

A file or a link can be taken away by every path to it.  A folder is emptied first; after that
the path has to lead there still, and it has to end in a name of the folder, which `.` and `..`
are not, nor a link with a slash behind it.

A path that passes no link and never climbs passes only places above the one to which it leads, so
emptying that place leaves the way to it as it is.
-/

namespace ApiDocs.Disk

variable {links : Bool} {disk after left : Disk links} {here place location last : Location}
variable {entry : Entry links} {path : Text} {list : List Text}

/-! ## At or below a place -/

theorem ne_nil_of_isWithin (belowRoot : location ≠ []) (inside : isWithin location place = true) :
    place ≠ [] := by
  rintro rfl
  exact belowRoot (List.prefix_nil.mp (List.isPrefixOf_iff_prefix.mp inside))

theorem entryAt_erase_of_within (belowRoot : location ≠ [])
    (inside : isWithin location place = true) :
    (disk.erase location).entryAt place = none := by
  rw [entryAt_erase, if_neg (ne_nil_of_isWithin belowRoot inside), if_pos inside]

/-! ## Whether a path leads to something -/

theorem hasEntry_iff (straight : disk.IsStraight here path := by simp) :
    disk.hasEntry here path = true ↔
      disk.locate here path = .ok (target here path) ∧
        ∃ entry, disk.entryAt (target here path) = some entry := by
  rw [hasEntry]
  constructor
  · intro standing
    cases found : disk.find here path with
    | error error =>
        rw [found] at standing
        cases standing
    | ok pair =>
        obtain ⟨location, entry⟩ := pair
        obtain ⟨located, isEntry⟩ := find_eq_ok_iff.mp found
        obtain rfl := eq_target_of_locate located straight
        exact ⟨located, entry, isEntry⟩
  · rintro ⟨located, entry, isEntry⟩
    rw [find_eq_ok_iff.mpr ⟨located, isEntry⟩]
    rfl

theorem hasEntry_eq_false_of_entryAt (nothing : disk.entryAt (target here path) = none)
    (straight : disk.IsStraight here path := by simp) : disk.hasEntry here path = false := by
  rw [Bool.eq_false_iff]
  intro standing
  obtain ⟨-, entry, isEntry⟩ := (hasEntry_iff straight).mp standing
  rw [nothing] at isEntry
  cases isEntry

theorem hasFolder_iff_find :
    disk.hasFolder here path = true ↔ ∃ place, disk.find here path = .ok (place, .folder) := by
  rw [hasFolder]
  cases found : disk.find here path with
  | error error => simp
  | ok pair =>
      obtain ⟨location, entry⟩ := pair
      simp [Entry.isFolder_iff]

theorem Shrinks.hasEntry (shrinks : Shrinks disk after)
    (standing : after.hasEntry here path = true) : disk.hasEntry here path = true := by
  rw [Disk.hasEntry] at standing
  cases found : after.find here path with
  | error error =>
      rw [found] at standing
      cases standing
  | ok pair =>
      rw [Disk.hasEntry, shrinks.find found]
      rfl

theorem Shrinks.hasFolder (shrinks : Shrinks disk after)
    (standing : after.hasFolder here path = true) : disk.hasFolder here path = true := by
  obtain ⟨place, found⟩ := hasFolder_iff_find.mp standing
  exact hasFolder_iff_find.mpr ⟨place, shrinks.find found⟩

/-! ## The place of a name -/

/-- The place of the last name of a path, if something stands there. -/
def nameAt? (disk : Disk links) (here : Location) (path : Text) : Option Location :=
  (disk.findName here path).toOption.map Prod.fst

/-- The place of the last name of a path, if a folder stands there. -/
def folderAt? (disk : Disk links) (here : Location) (path : Text) : Option Location :=
  (disk.nameAt? here path).filter fun place => (disk.entryAt place).any Entry.isFolder

theorem nameAt?_eq_some_iff :
    disk.nameAt? here path = some place ↔
      ∃ entry, disk.findName here path = .ok (place, entry) := by
  rw [nameAt?]
  cases disk.findName here path with
  | error error => simp [Except.toOption]
  | ok pair =>
      obtain ⟨location, entry⟩ := pair
      simp [Except.toOption]

theorem nameAt?_eq_none_iff :
    disk.nameAt? here path = none ↔ ∃ error, disk.findName here path = .error error := by
  rw [nameAt?]
  cases disk.findName here path <;> simp [Except.toOption]

theorem hasName_iff : disk.hasName here path = true ↔ ∃ place, disk.nameAt? here path = some place := by
  rw [hasName, nameAt?, ← Option.isSome_iff_exists, Option.isSome_map]

theorem isPath_of_hasName (standing : disk.hasName here path = true) : IsPath path := by
  obtain ⟨place, named⟩ := hasName_iff.mp standing
  obtain ⟨entry, found⟩ := nameAt?_eq_some_iff.mp named
  exact (locateName_eq_ok_iff.mp (findName_eq_ok_iff.mp found).1).1

theorem hasName_of_find (found : disk.find here path = .ok (place, entry)) :
    disk.hasName here path = true := by
  obtain ⟨location, standing, named⟩ := exists_findName_of_find found
  exact hasName_iff.mpr ⟨location, nameAt?_eq_some_iff.mpr ⟨standing, named⟩⟩

theorem folderAt?_eq_some_iff :
    disk.folderAt? here path = some place ↔ disk.findName here path = .ok (place, .folder) := by
  rw [folderAt?, Option.filter_eq_some_iff, nameAt?_eq_some_iff]
  constructor
  · rintro ⟨⟨entry, found⟩, isFolder⟩
    have standing := (findName_eq_ok_iff.mp found).2
    rw [standing, Option.any_some, Entry.isFolder_iff] at isFolder
    rwa [← isFolder]
  · intro found
    refine ⟨⟨_, found⟩, ?_⟩
    rw [(findName_eq_ok_iff.mp found).2]
    rfl

theorem Shrinks.nameAt? (shrinks : Shrinks disk after)
    (standing : after.nameAt? here path = some place) : disk.nameAt? here path = some place := by
  obtain ⟨entry, found⟩ := nameAt?_eq_some_iff.mp standing
  exact nameAt?_eq_some_iff.mpr ⟨entry, shrinks.findName found⟩

theorem Shrinks.hasName (shrinks : Shrinks disk after) (standing : after.hasName here path = true) :
    disk.hasName here path = true := by
  obtain ⟨place, named⟩ := hasName_iff.mp standing
  exact hasName_iff.mpr ⟨place, shrinks.nameAt? named⟩

/-! ## Taking something away -/

/-- The pieces of a path that are not empty, as the disk shows them. -/
def shownPieces (path : Text) : List Text :=
  (Path.pieces (Name.stored path)).filter fun piece => !piece.isEmpty

/-- A folder can be taken away under a name of its own. -/
theorem refusesRemoval_eq_none_iff {name : Option Text} :
    refusesRemoval name = none ↔ ∃ last, name = some last ∧ last ≠ "." ∧ last ≠ ".." := by
  cases name with
  | none =>
      refine iff_of_false (fun same => nomatch same) ?_
      rintro ⟨last, same, -⟩
      cases same
  | some last =>
      constructor
      · intro allowed
        refine ⟨last, rfl, ?_, ?_⟩ <;> rintro rfl <;> cases allowed
      · rintro ⟨_, same, notHere, notUp⟩
        obtain rfl := Option.some.inj same
        rw [refusesRemoval.eq_def]
        split
        · rename_i same
          cases same
        · rename_i same
          exact absurd (Option.some.inj same) notHere
        · rename_i same
          exact absurd (Option.some.inj same) notUp
        · rfl

/-- A folder is taken away by a name of its own, if it stands there. -/
theorem refusesName_eq_none_iff {name : Option Text} :
    disk.refusesName location name = none ↔
      ∃ last, name = some last ∧ last ≠ "." ∧ last ≠ ".." ∧
        disk.entryAt (location ++ [last]) = some .folder := by
  rw [refusesName]
  cases refuses : refusesRemoval name with
  | some cause =>
      refine iff_of_false (fun same => nomatch same) ?_
      rintro ⟨last, same, notHere, notUp, -⟩
      rw [refusesRemoval_eq_none_iff.mpr ⟨last, same, notHere, notUp⟩] at refuses
      cases refuses
  | none =>
      obtain ⟨last, rfl, notHere, notUp⟩ := refusesRemoval_eq_none_iff.mp refuses
      simp only [Option.toList_some, Option.some.injEq, exists_eq_left', ne_eq, notHere, notUp,
        not_false_eq_true, true_and]
      cases disk.entryAt (location ++ [last]) with
      | none => simp
      | some entry =>
          simp only [Option.some.injEq, ← Entry.isFolder_iff]
          cases entry.isFolder <;> simp

/-- The steps that a path to a folder asks for again when the folder is empty. -/
def stepsAbove (path : Text) : List Text :=
  if (shownPieces path).length ≤ 1 then [] else (shownPieces path).dropLast ++ [("." : Text)]

theorem refusesFolder_eq (disk : Disk links) (here : Location) (path : Text) :
    disk.refusesFolder here path =
      match disk.lead true linkLimit (origin here path) (stepsAbove path) with
      | .error cause => some cause
      | .ok folder => disk.refusesName folder (shownPieces path).getLast? :=
  rfl

/--
A path that can be taken away.  If a folder stands under its last name, it can be taken away by the
path when it is empty.
-/
@[mk_iff]
structure IsRemovable (disk : Disk links) (here : Location) (path : Text) : Prop where
  standing : disk.hasName here path = true
  accepted : ∀ place ∈ disk.folderAt? here path, (disk.empty place).refusesFolder here path = none

instance (disk : Disk links) (here : Location) (path : Text) :
    Decidable (disk.IsRemovable here path) :=
  decidable_of_iff' _ (isRemovable_iff disk here path)

theorem remove_of_folder_name (found : disk.findName here path = .ok (place, .folder)) :
    disk.remove here path =
      match (disk.empty place).refusesFolder here path with
      | some cause => (.error (.refused cause path), disk.empty place)
      | none => (.ok (), disk.erase place) := by
  have leads := find_of_findName found rfl
  have isFolder : disk.hasFolder here path = true := hasFolder_iff_find.mpr ⟨place, leads⟩
  have noLink : disk.hasLink here path = false := by rw [hasLink, found]; rfl
  rw [remove, if_pos (by rw [isFolder, noLink]; rfl), removeFolder, leads]
  rfl

theorem remove_of_other_name (found : disk.findName here path = .ok (place, entry))
    (noFolder : entry ≠ .folder) : disk.remove here path = (.ok (), disk.erase place) := by
  have isOther : entry.isFolder = false := Bool.eq_false_iff.mpr (mt Entry.isFolder_iff.mp noFolder)
  have takesName : (disk.hasFolder here path && !disk.hasLink here path) = false := by
    cases isLink : entry.target? with
    | some target =>
        have linked : disk.hasLink here path = true := by rw [hasLink, found]; simp [isLink]
        rw [linked, Bool.not_true, Bool.and_false]
    | none =>
        have leads := find_of_findName found isLink
        have noFolder : disk.hasFolder here path = false := by rw [hasFolder, leads]; exact isOther
        rw [noFolder, Bool.false_and]
  rw [remove, if_neg (by simp [takesName]), removeFile, found]
  simp [isOther]

/-- Nothing is taken away under a name where nothing stands. -/
theorem remove_of_no_name {error : DiskError} (missing : disk.findName here path = .error error) :
    disk.remove here path = (.error error, disk) := by
  have noFolder : disk.hasFolder here path = false := by
    rw [Bool.eq_false_iff]
    intro isFolder
    obtain ⟨place, found⟩ := hasFolder_iff_find.mp isFolder
    obtain ⟨other, entry, same⟩ := exists_findName_of_find found
    rw [missing] at same
    cases same
  rw [remove, noFolder, Bool.false_and, if_neg (by simp), removeFile, missing]

/-- A path is taken away exactly if it can be, with everything at or below the place of its name. -/
theorem remove_eq_ok_iff :
    disk.remove here path = (.ok (), left) ↔
      disk.IsRemovable here path ∧
        ∃ place, disk.nameAt? here path = some place ∧ left = disk.erase place := by
  cases named : disk.nameAt? here path with
  | none =>
      obtain ⟨error, missing⟩ := nameAt?_eq_none_iff.mp named
      rw [remove_of_no_name missing]
      refine iff_of_false (by simp) ?_
      rintro ⟨-, place, same, -⟩
      cases same
  | some place =>
      obtain ⟨entry, found⟩ := nameAt?_eq_some_iff.mp named
      have standing : disk.hasName here path = true := hasName_iff.mpr ⟨place, named⟩
      by_cases folder : entry = .folder
      · subst folder
        have isFolder := folderAt?_eq_some_iff.mpr found
        rw [remove_of_folder_name found, isRemovable_iff, and_iff_right standing, isFolder]
        cases accepted : (disk.empty place).refusesFolder here path with
        | none => simp [accepted, eq_comm]
        | some cause => simp [accepted]
      · have noFolder : disk.folderAt? here path = none := by
          rw [Option.eq_none_iff_forall_ne_some]
          intro other isFolder
          rw [folderAt?_eq_some_iff, found] at isFolder
          cases isFolder
          exact folder rfl
        rw [remove_of_other_name found folder, isRemovable_iff, and_iff_right standing, noFolder]
        simp [eq_comm]

/-- What is removable is no root. -/
theorem IsRemovable.ne_nil (removable : disk.IsRemovable here path)
    (standing : disk.nameAt? here path = some place) : place ≠ [] := by
  rintro rfl
  obtain ⟨entry, found⟩ := nameAt?_eq_some_iff.mp standing
  have isRoot := (findName_eq_ok_iff.mp found).2
  rw [entryAt_root] at isRoot
  cases isRoot
  have accepted := removable.accepted [] (folderAt?_eq_some_iff.mpr found)
  rw [refusesFolder_eq] at accepted
  split at accepted
  · cases accepted
  · rename_i folder _
    obtain ⟨name, -, -, -, standing⟩ := refusesName_eq_none_iff.mp accepted
    -- Nothing is left below the root when that is empty.
    rw [entryAt_empty, if_neg (by simp), if_pos ⟨by simp, rfl⟩] at standing
    cases standing

/-! ## Paths with a name at their end -/

/-- A way can be gone up to a point if it can be gone at all and passes folders only. -/
theorem exists_walk_here_iff (nonempty : ∀ name ∈ list, name ≠ [])
    (walked : disk.walk location list = .ok last) :
    (∃ reached, after.walk location (list ++ [("." : Text)]) = .ok reached) ↔
      ∀ place ∈ list.scanl advance location, after.entryAt place = some .folder := by
  have pointNonempty : ("." : Text) ≠ [] := List.cons_ne_nil _ _
  induction list generalizing location with
  | nil =>
      simp only [List.nil_append, walk_cons_eq_ok_iff pointNonempty, List.scanl_nil,
        List.mem_singleton, forall_eq]
      constructor
      · rintro ⟨reached, canStep, -⟩
        exact canStep.fromFolder
      · intro folder
        exact ⟨_, ⟨folder, .inl rfl⟩, rfl⟩
  | cons name rest ih =>
      obtain ⟨own, others⟩ := List.forall_mem_cons.mp nonempty
      obtain ⟨canStep, walked⟩ := (walk_cons_eq_ok_iff own).mp walked
      simp only [List.cons_append, walk_cons_eq_ok_iff own, exists_and_left, ih others walked,
        List.scanl_cons, List.forall_mem_cons]
      -- The step is as short on the one disk as on the other one.
      exact and_congr_left' ⟨fun canStep => canStep.fromFolder, fun folder => ⟨folder, canStep.short⟩⟩

theorem entryAt_empty_eq_folder_iff (belowRoot : location ≠ [])
    (folder : disk.entryAt place = some .folder) :
    (disk.empty location).entryAt place = some .folder ↔
      (isWithin location place = true → place = location) := by
  rw [entryAt_empty]
  split
  · rename_i root
    exact iff_of_true rfl fun inside => absurd root (ne_nil_of_isWithin belowRoot inside)
  · split
    · rename_i below
      exact iff_of_false (fun same => nomatch same) fun stays => below.1 (stays below.2)
    · rename_i outside
      refine iff_of_true folder fun inside => ?_
      by_contra other
      exact outside ⟨other, inside⟩

/-! ### A path with a name at its end -/

section Named

variable {front : List Text} {name : Text} (cut : shownPieces path = front ++ [name])
variable (notHere : name ≠ ".") (notUp : name ≠ "..")

include cut in
theorem ne_nil_of_shownPieces_eq : ∀ other ∈ front ++ [name], other ≠ [] := by
  intro other member
  rw [← cut, shownPieces] at member
  simpa using (List.mem_filter.mp member).2

include cut in
theorem exists_steps_eq : ∃ ending, (ending = [] ∨ ending = [("." : Text)]) ∧
    steps (Name.stored path) = front ++ name :: ending := by
  refine ⟨if Path.endsInSlash (Name.stored path) then ["."] else [], ?_, ?_⟩
  · split
    · exact .inr rfl
    · exact .inl rfl
  · rw [shownPieces] at cut
    rw [steps, cut, List.append_assoc]
    rfl

include cut notHere notUp

theorem target_eq_concat : target here path = front.foldl advance (origin here path) ++ [name] := by
  obtain ⟨ending, stays, steps⟩ := exists_steps_eq cut
  have nonempty : name ≠ [] := ne_nil_of_shownPieces_eq cut name (by simp)
  rw [target, ← foldl_advance_steps, steps, List.foldl_append, List.foldl_cons, advance,
    if_neg (by simp [nonempty, notHere]), if_neg notUp]
  rcases stays with rfl | rfl
  · rfl
  · rw [List.foldl_cons, List.foldl_nil, advance_here]

omit notHere notUp in
/-- A path that leads somewhere passes only folders in front of its last name. -/
theorem exists_walk_front (located : disk.locate here path = .ok (target here path))
    (straight : disk.IsStraight here path := by simp) :
    ∃ reached, disk.walk (origin here path) front = .ok reached ∧
      ∀ place ∈ front.scanl advance (origin here path), disk.entryAt place = some .folder := by
  obtain ⟨ending, -, steps⟩ := exists_steps_eq cut
  have nonempty : ∀ other ∈ front, other ≠ [] := fun other member =>
    ne_nil_of_shownPieces_eq cut other (by simp [member])
  obtain ⟨-, walked⟩ := (locate_eq_ok_iff straight).mp located
  rw [steps, walk_append] at walked
  cases parent : disk.walk (origin here path) front with
  | error cause =>
      rw [parent] at walked
      cases walked
  | ok reached =>
      rw [parent] at walked
      have own : name ≠ [] := ne_nil_of_shownPieces_eq cut name (by simp)
      have fromFolder : disk.entryAt reached = some .folder :=
        ((walk_cons_eq_ok_iff own).mp walked).1.fromFolder
      refine ⟨reached, rfl, ?_⟩
      rw [← exists_walk_here_iff nonempty parent, walk_append, parent]
      exact ⟨reached, walk_here fromFolder⟩

/-- Behind the steps that are taken again, the last name leads where the path leads. -/
theorem foldl_stepsAbove :
    (stepsAbove path).foldl advance (origin here path) ++ [name] = target here path := by
  rw [target_eq_concat cut notHere notUp, stepsAbove, cut, List.dropLast_concat, List.length_append,
    List.length_singleton]
  split
  · rename_i short
    obtain rfl : front = [] := List.length_eq_zero_iff.mp (by omega)
    rfl
  · rw [List.foldl_append, List.foldl_cons, List.foldl_nil, advance_here]

end Named

/-! ## Without links on the way -/

/-- The steps that are taken again pass places of the way. -/
theorem mem_way_of_stepsAbove
    (passed : place ∈ (stepsAbove path).scanl advance (origin here path)) :
    place ∈ way here path := by
  rw [stepsAbove] at passed
  split at passed
  · rw [List.scanl_nil, List.mem_singleton] at passed
    rw [passed]
    exact self_mem_scanl _ _
  · have isFront : (shownPieces path).dropLast <+: steps (Name.stored path) :=
      (List.dropLast_prefix _).trans (List.prefix_append _ _)
    obtain ⟨front, begins, rfl⟩ := mem_scanl_iff.mp passed
    rcases List.prefix_concat_iff.mp begins with rfl | inFront
    · refine mem_scanl_iff.mpr ⟨_, isFront, ?_⟩
      rw [List.foldl_append, List.foldl_cons, List.foldl_nil, advance_here]
    · exact mem_scanl_iff.mpr ⟨_, inFront.trans isFront, rfl⟩

theorem ne_nil_of_mem_stepsAbove {name : Text} (member : name ∈ stepsAbove path) : name ≠ [] := by
  rw [stepsAbove] at member
  split at member
  · cases member
  · rcases List.mem_append.mp member with isPiece | isLast
    · have inPieces := List.dropLast_subset _ isPiece
      rw [shownPieces] at inPieces
      simpa using (List.mem_filter.mp inPieces).2
    · obtain rfl := List.mem_singleton.mp isLast
      exact List.cons_ne_nil _ _

/-- An empty folder to which a straight way leads is refused for the way or for its last name. -/
theorem refusesFolder_of_find (found : disk.find here path = .ok (location, .folder))
    (straight : disk.IsStraight here path := by simp) :
    (disk.empty location).refusesFolder here path =
      match (disk.empty location).walk (origin here path) (stepsAbove path) with
      | .error cause => some cause
      | .ok _ => refusesRemoval (shownPieces path).getLast? := by
  obtain ⟨located, folder⟩ := find_eq_ok_iff.mp found
  obtain rfl := eq_target_of_locate located straight
  have leads : (disk.empty (target here path)).lead true linkLimit (origin here path)
      (stepsAbove path) = (disk.empty (target here path)).walk (origin here path) (stepsAbove path) :=
    lead_of_straight _ (fun _ => ne_nil_of_mem_stepsAbove) fun place passed =>
      (shrinks_empty disk _).noLink (straight place (mem_way_of_stepsAbove passed))
  rw [refusesFolder_eq, leads]
  cases walked : (disk.empty (target here path)).walk (origin here path) (stepsAbove path) with
  | error cause => rfl
  | ok reached =>
      change refusesName _ reached _ = refusesRemoval _
      cases refuses : refusesRemoval (shownPieces path).getLast? with
      | some cause => rw [refusesName, refuses]
      | none =>
          obtain ⟨name, isLast, notHere, notUp⟩ := refusesRemoval_eq_none_iff.mp refuses
          obtain ⟨front, cut⟩ := List.getLast?_eq_some_iff.mp isLast
          obtain ⟨-, rfl⟩ := (walk_eq_ok_iff fun _ => ne_nil_of_mem_stepsAbove).mp walked
          refine refusesName_eq_none_iff.mpr ⟨name, isLast, notHere, notUp, ?_⟩
          rw [foldl_stepsAbove cut notHere notUp, entryAt_empty]
          split
          · rfl
          · rw [if_neg (by simp), folder]

/-! ## Paths that never climb -/

/-- Steps that never climb pass places above the one to which they lead. -/
theorem isWithin_of_mem_scanl (climbs : ∀ name ∈ list, name ≠ "..")
    (passed : place ∈ list.scanl advance location) :
    isWithin place (list.foldl advance location) = true := by
  induction list generalizing location place with
  | nil =>
      rw [List.scanl_nil, List.mem_singleton] at passed
      rw [passed]
      exact isWithin_self location
  | cons name rest ih =>
      have further : ∀ other ∈ rest.scanl advance (advance location name),
          isWithin other (rest.foldl advance (advance location name)) = true := fun other =>
        ih fun other member => climbs other (List.mem_cons_of_mem name member)
      rw [List.scanl_cons] at passed
      rcases List.mem_cons.mp passed with rfl | later
      · refine isWithin_trans ?_ (further _ (self_mem_scanl rest _))
        rw [advance]
        split
        · exact isWithin_self place
        · rw [if_neg (climbs name List.mem_cons_self)]
          exact isWithin_iff.mpr ⟨_, rfl⟩
      · exact further place later

/-- A path that never climbs passes only places above the one to which it leads. -/
theorem isWithin_of_mem_way (climbs : ∀ name ∈ shownPieces path, name ≠ "..")
    (passed : place ∈ way here path) : isWithin place (target here path) = true := by
  rw [target, ← foldl_advance_steps]
  refine isWithin_of_mem_scanl (fun name member => ?_) passed
  rcases List.mem_append.mp member with isPiece | ending
  · exact climbs name isPiece
  · split at ending
    · rw [List.mem_singleton.mp ending]
      decide
    · cases ending

/-- The way to an emptied folder stays, if it never climbs. -/
theorem exists_walk_stepsAbove {front : List Text} {name : Text}
    (climbs : ∀ name ∈ shownPieces path, name ≠ "..") (cut : shownPieces path = front ++ [name])
    (belowRoot : target here path ≠ [])
    (located : disk.locate here path = .ok (target here path))
    (straight : disk.IsStraight here path := by simp) :
    ∃ reached, (disk.empty (target here path)).walk (origin here path) (stepsAbove path) =
      .ok reached := by
  obtain ⟨reached, parent, folders⟩ := exists_walk_front cut located straight
  have stays (place : Location) (passed : place ∈ front.scanl advance (origin here path)) :
      (disk.empty (target here path)).entryAt place = some .folder := by
    rw [entryAt_empty_eq_folder_iff belowRoot (folders place passed)]
    intro inside
    have onWay : place ∈ way here path := by
      obtain ⟨ending, -, steps⟩ := exists_steps_eq cut
      rw [way, steps]
      exact mem_scanl_append_iff.mpr (.inl passed)
    have above := isWithin_of_mem_way climbs onWay
    rw [isWithin, List.isPrefixOf_iff_prefix] at above inside
    exact above.eq_of_length_le inside.length_le
  rw [stepsAbove, cut, List.dropLast_concat]
  split
  · exact ⟨_, rfl⟩
  · exact (exists_walk_here_iff (fun other member =>
      ne_nil_of_shownPieces_eq cut other (by simp [member])) parent).mpr stays

/-- A path that never climbs can be taken away if it passes no link and ends in a name. -/
theorem IsRemovable.of_not_climbs (climbs : ∀ name ∈ shownPieces path, name ≠ "..")
    (standing : disk.hasName here path = true)
    (named : ∃ name, (shownPieces path).getLast? = some name ∧ name ≠ ".")
    (straight : disk.IsStraight here path := by simp) : disk.IsRemovable here path where
  standing := standing
  accepted := fun place isFolder => by
    have found := folderAt?_eq_some_iff.mp isFolder
    rw [findName_of_straight straight] at found
    have located := (find_eq_ok_iff.mp found).1
    obtain rfl := eq_target_of_locate located straight
    obtain ⟨name, isLast, notHere⟩ := named
    have notUp : name ≠ ".." := climbs name (List.mem_of_getLast? isLast)
    obtain ⟨front, cut⟩ := List.getLast?_eq_some_iff.mp isLast
    have belowRoot : target here path ≠ [] := by simp [target_eq_concat cut notHere notUp]
    obtain ⟨reached, walked⟩ := exists_walk_stepsAbove climbs cut belowRoot located straight
    rw [refusesFolder_of_find found straight, walked]
    exact refusesRemoval_eq_none_iff.mpr ⟨name, isLast, notHere, notUp⟩

end ApiDocs.Disk
