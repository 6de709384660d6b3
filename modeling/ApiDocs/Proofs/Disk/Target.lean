import Mathlib.Data.List.TakeWhile
import ApiDocs.Disk.Walk
import ApiDocs.Proofs.Disk.Name
import ApiDocs.Proofs.Path.Clean

/-!
# The place that a path means

Where a path without links on its way leads does not depend on what stands on the disk; the
disk only decides whether it leads there.  `target` says where: the names of the path are taken
one by one, `..` goes up, and every other name goes down.  The way exists if every step starts
from a folder and asks for a name that is not too long.
-/

namespace ApiDocs.Disk

variable {links follows : Bool} {disk other : Disk links} {here location last : Location}
variable {path rest : Text} {list : List Text}

/-- Where a step leads if the disk does not refuse it. -/
def advance (location : Location) (name : Text) : Location :=
  if name = [] ∨ name = "." then location
  else if name = ".." then location.dropLast
  else location ++ [name]

/-- Where names lead, as the disk shows them. -/
def follow (location : Location) (list : List Text) : Location :=
  (list.map Name.stored).foldl advance location

/-- The place that a path means. -/
def target (here : Location) (path : Text) : Location :=
  follow (origin here path) (Path.names path)

/-! ## Following names -/

@[simp]
theorem advance_nil (location : Location) : advance location [] = location := by
  simp [advance]

@[simp]
theorem advance_here (location : Location) : advance location "." = location := by
  simp [advance]

@[simp]
theorem advance_up (location : Location) : advance location ".." = location.dropLast := by
  rw [advance, if_neg (by decide), if_pos rfl]

@[simp]
theorem follow_nil (location : Location) : follow location [] = location := rfl

@[simp]
theorem follow_append (location : Location) (front rest : List Text) :
    follow location (front ++ rest) = follow (follow location front) rest := by
  simp [follow]

theorem stored_dot : Name.stored "." = "." :=
  Name.stored_of_isAsciiText (Name.isAsciiText_ofString (by decide))

theorem foldl_filter_of_neutral {keep : Text → Bool}
    (neutral : ∀ name, keep name = false → ∀ location, advance location name = location) :
    (list.filter keep).foldl advance location = list.foldl advance location := by
  rw [List.foldl_filter]
  congr 1
  funext place name
  cases kept : keep name with
  | true => rfl
  | false => exact (neutral name kept place).symm

/-- The steps that the disk takes for a path lead where its names lead. -/
theorem foldl_advance_steps (location : Location) (path : Text) :
    (steps (Name.stored path)).foldl advance location = follow location (Path.names path) := by
  have ending (place : Location) :
      (if Path.endsInSlash (Name.stored path) then [(".": Text)] else []).foldl advance place =
        place := by
    split
    · exact advance_here place
    · rfl
  have shown :
      follow location (Path.names path) =
        ((Path.pieces path).map Name.stored).foldl advance location := by
    rw [follow, Path.names, List.foldl_map, List.foldl_filter, List.foldl_map]
    congr 1
    funext place piece
    split
    · rfl
    · rename_i skipped
      simp only [Bool.and_eq_true, Bool.not_eq_true', List.isEmpty_eq_false_iff, bne_iff_ne,
        not_and_or, not_not] at skipped
      rcases skipped with rfl | rfl
      · simp
      · rw [stored_dot, advance_here]
  rw [steps, List.foldl_append, ending, Name.pieces_stored, shown]
  apply foldl_filter_of_neutral
  intro name empty place
  obtain rfl : name = [] := by simpa using empty
  exact advance_nil place

/-! ## The way of a path -/

/-- Whether a step for a name can be taken from a location. -/
structure CanStep (disk : Disk links) (location : Location) (name : Text) : Prop where
  fromFolder : disk.entryAt location = some .folder
  short : name = "." ∨ name = ".." ∨ Name.size name ≤ nameLimit

theorem step_eq_ok_iff {name : Text} (nonempty : name ≠ []) :
    disk.step location name = .ok last ↔
      disk.CanStep location name ∧ last = advance location name := by
  have shape : disk.CanStep location name ↔
      disk.entryAt location = some .folder ∧
        (name = "." ∨ name = ".." ∨ Name.size name ≤ nameLimit) :=
    ⟨fun ⟨folder, short⟩ => ⟨folder, short⟩, fun ⟨folder, short⟩ => ⟨folder, short⟩⟩
  rw [shape, step, advance]
  cases standing : disk.entryAt location with
  | none => simp
  | some entry =>
      by_cases folder : entry = .folder
      · rw [folder]
        simp only [Entry.isFolder_folder, Bool.not_true, Bool.false_eq_true, if_false]
        by_cases isHere : name = "."
        · rw [if_pos isHere, if_pos (.inr isHere)]
          simp only [isHere, Except.ok.injEq, true_or, and_self, true_and]
          exact eq_comm
        · by_cases isUp : name = ".."
          · rw [if_neg isHere, if_pos isUp, if_neg (by simp [isHere, nonempty]), if_pos isUp]
            simp only [isUp, Except.ok.injEq, true_or, or_true, and_self, true_and]
            exact eq_comm
          · by_cases long : nameLimit < Name.size name
            · simp [isHere, isUp, long, Nat.not_le.mpr long]
            · rw [if_neg isHere, if_neg isUp, if_neg long, if_neg (by simp [isHere, nonempty]),
                if_neg isUp]
              simp only [Nat.not_lt.mp long, Except.ok.injEq, or_true, and_self, true_and]
              exact eq_comm
      · have noFolder : entry.isFolder = false :=
          Bool.eq_false_iff.mpr (mt Entry.isFolder_iff.mp folder)
        simp [noFolder, folder]

theorem walk_cons (name : Text) (rest : List Text) :
    disk.walk location (name :: rest) =
      (disk.step location name).bind fun next => disk.walk next rest := by
  rw [walk]
  cases disk.step location name <;> rfl

theorem walk_cons_eq_ok_iff {name : Text} {rest : List Text} (nonempty : name ≠ []) :
    disk.walk location (name :: rest) = .ok last ↔
      disk.CanStep location name ∧ disk.walk (advance location name) rest = .ok last := by
  rw [walk_cons]
  constructor
  · intro walked
    cases stepped : disk.step location name with
    | error cause =>
        rw [stepped] at walked
        cases walked
    | ok next =>
        rw [stepped] at walked
        obtain ⟨canStep, rfl⟩ := (step_eq_ok_iff nonempty).mp stepped
        exact ⟨canStep, walked⟩
  · rintro ⟨canStep, walked⟩
    rw [(step_eq_ok_iff nonempty).mpr ⟨canStep, rfl⟩]
    exact walked

theorem walk_append (front rest : List Text) :
    disk.walk location (front ++ rest) =
      (disk.walk location front).bind fun next => disk.walk next rest := by
  induction front generalizing location with
  | nil => rfl
  | cons name front ih =>
      rw [List.cons_append, walk_cons, walk_cons]
      cases disk.step location name with
      | error cause => rfl
      | ok next => exact ih

theorem walk_here (folder : disk.entryAt location = some .folder) :
    disk.walk location [("." : Text)] = .ok location := by
  have nonempty : ("." : Text) ≠ [] := List.cons_ne_nil _ _
  rw [walk_cons_eq_ok_iff nonempty, advance_here]
  exact ⟨⟨folder, .inl rfl⟩, rfl⟩

/-- A way ends where its names lead, and every step of it can be taken. -/
theorem walk_eq_ok_iff (nonempty : ∀ name ∈ list, name ≠ []) :
    disk.walk location list = .ok last ↔
      (∀ front name rest, list = front ++ name :: rest →
        disk.CanStep (front.foldl advance location) name) ∧
      last = list.foldl advance location := by
  induction list generalizing location with
  | nil =>
      rw [walk]
      constructor
      · intro same
        cases same
        exact ⟨fun front name rest cut => by simp at cut, rfl⟩
      · rintro ⟨-, rfl⟩
        rfl
  | cons name list ih =>
      have own := nonempty name List.mem_cons_self
      have others : ∀ other ∈ list, other ≠ [] := fun other member =>
        nonempty other (List.mem_cons_of_mem name member)
      rw [walk_cons_eq_ok_iff own, ih others]
      constructor
      · rintro ⟨canStep, canGo, rfl⟩
        refine ⟨fun front other rest cut => ?_, rfl⟩
        cases front with
        | nil =>
            obtain ⟨rfl, -⟩ := List.cons.inj cut
            exact canStep
        | cons first front =>
            obtain ⟨rfl, inRest⟩ := List.cons.inj cut
            exact canGo front other rest inRest
      · rintro ⟨canStep, rfl⟩
        exact ⟨canStep [] name list rfl,
          fun front other rest cut => canStep (name :: front) other rest (by rw [cut]; rfl), rfl⟩

/-- A way can be gone on every disk that has the folders of one on which it can be gone. -/
theorem walk_mono (nonempty : ∀ name ∈ list, name ≠ [])
    (folders : ∀ front name rest, list = front ++ name :: rest →
      disk.entryAt (front.foldl advance location) = some .folder →
      other.entryAt (front.foldl advance location) = some .folder)
    (walked : disk.walk location list = .ok last) : other.walk location list = .ok last := by
  rw [walk_eq_ok_iff nonempty] at walked ⊢
  obtain ⟨canStep, rfl⟩ := walked
  refine ⟨fun front name rest cut => ?_, rfl⟩
  obtain ⟨folder, short⟩ := canStep front name rest cut
  exact ⟨folders front name rest cut folder, short⟩

/-! ## Locating a path -/

/-- A text that the disk takes as a path. -/
structure IsPath (path : Text) : Prop where
  faultless : pathFault? path = none
  nonempty : path ≠ []
  short : Name.size path ≤ pathLimit

theorem ne_nil_of_mem_steps {name : Text} (member : name ∈ steps path) : name ≠ [] := by
  rcases List.mem_append.mp member with piece | ending
  · simpa using (List.mem_filter.mp piece).2
  · split at ending
    · obtain rfl := List.mem_singleton.mp ending
      exact List.cons_ne_nil _ _
    · cases ending

/-- The places that a path passes, the one to which it leads among them. -/
def way (here : Location) (path : Text) : List Location :=
  (steps (Name.stored path)).scanl advance (origin here path)

theorem self_mem_scanl (list : List Text) (location : Location) :
    location ∈ list.scanl advance location := by
  cases list <;> simp

theorem mem_scanl_append_iff {place : Location} {front rest : List Text} :
    place ∈ (front ++ rest).scanl advance location ↔
      place ∈ front.scanl advance location ∨
        place ∈ rest.scanl advance (front.foldl advance location) := by
  induction front generalizing location with
  | nil =>
      cases rest <;> simp
  | cons name front ih =>
      simp only [List.cons_append, List.scanl_cons, List.mem_cons, List.foldl_cons, ih, or_assoc]

theorem mem_scanl_iff {place : Location} :
    place ∈ list.scanl advance location ↔
      ∃ front, front <+: list ∧ place = front.foldl advance location := by
  induction list generalizing location with
  | nil => simp
  | cons name rest ih =>
      simp only [List.scanl_cons, List.mem_cons, ih, List.prefix_cons_iff]
      constructor
      · rintro (rfl | ⟨front, isPrefix, rfl⟩)
        · exact ⟨[], .inl rfl, rfl⟩
        · exact ⟨name :: front, .inr ⟨front, rfl, isPrefix⟩, rfl⟩
      · rintro ⟨front, rfl | ⟨rest, rfl, isPrefix⟩, rfl⟩
        · exact .inl rfl
        · exact .inr ⟨rest, isPrefix, rfl⟩

/-- Names that lead nowhere add no places. -/
theorem mem_scanl_filter_iff {place : Location} {keep : Text → Bool}
    (neutral : ∀ name ∈ list, keep name = false → ∀ location, advance location name = location) :
    place ∈ (list.filter keep).scanl advance location ↔ place ∈ list.scanl advance location := by
  induction list generalizing location with
  | nil => exact .rfl
  | cons name rest ih =>
      obtain ⟨own, others⟩ := List.forall_mem_cons.mp neutral
      cases kept : keep name with
      | true =>
          rw [List.filter_cons_of_pos kept, List.scanl_cons, List.scanl_cons, List.mem_cons,
            List.mem_cons, ih others]
      | false =>
          rw [List.filter_cons_of_neg (by simp [kept]), ih others, List.scanl_cons, List.mem_cons,
            own kept, or_iff_right_of_imp]
          rintro rfl
          exact self_mem_scanl rest place

/-- Whether a step for a name leads away from where it starts. -/
def moves (name : Text) : Bool :=
  !name.isEmpty && name != "."

theorem advance_of_not_moves {name : Text} (stays : moves name = false) (location : Location) :
    advance location name = location := by
  have isNeutral : name = [] ∨ name = "." := by
    simpa [moves, ← or_iff_not_imp_left] using stays
  rw [advance, if_pos isNeutral]

/-- The steps of a path that move are those of its names, as the disk shows them. -/
theorem filter_moves_steps (path : Text) :
    (steps (Name.stored path)).filter moves =
      ((Path.names path).map Name.stored).filter moves := by
  have ending :
      (if Path.endsInSlash (Name.stored path) then [(".": Text)] else []).filter moves = [] := by
    split <;> rfl
  have moving (piece : Text) (shown : moves (Name.stored piece) = true) : moves piece = true := by
    rw [moves, Bool.and_eq_true, Bool.not_eq_true', List.isEmpty_eq_false_iff, bne_iff_ne] at *
    constructor
    · rintro rfl
      exact shown.1 Name.stored_nil
    · rintro rfl
      exact shown.2 stored_dot
  rw [steps, List.filter_append, ending, List.append_nil, Name.pieces_stored, List.filter_filter,
    Path.names, List.filter_map, List.filter_map, List.filter_filter]
  congr 1
  apply List.filter_congr
  intro piece _
  cases shown : moves (Name.stored piece) with
  | false => simp [shown]
  | true =>
      have isMoving := moving piece shown
      have nonempty : (!(Name.stored piece).isEmpty) = true := by
        rw [moves, Bool.and_eq_true] at shown
        exact shown.1
      rw [moves] at isMoving
      simp only [Function.comp_apply, nonempty, isMoving]

/-- A path passes the places to which its names lead, one after the other. -/
theorem mem_way_iff_names {place : Location} :
    place ∈ way here path ↔
      ∃ front, front <+: Path.names path ∧ place = follow (origin here path) front := by
  have neutral (list : List Text) : ∀ name ∈ list, moves name = false → ∀ location,
      advance location name = location :=
    fun _ _ stays => advance_of_not_moves stays
  rw [way, ← mem_scanl_filter_iff (neutral _), filter_moves_steps, mem_scanl_filter_iff (neutral _),
    mem_scanl_iff]
  constructor
  · rintro ⟨front, isPrefix, rfl⟩
    obtain ⟨names, inPath, rfl⟩ := List.prefix_map_iff.mp isPrefix
    exact ⟨names, inPath, rfl⟩
  · rintro ⟨front, isPrefix, rfl⟩
    exact ⟨front.map Name.stored, isPrefix.map _, rfl⟩

/-- Whether a path passes no link. -/
def IsStraight (disk : Disk links) (here : Location) (path : Text) : Prop :=
  ∀ place ∈ way here path, disk.linkAt? place = none

/-- On a disk without links every path is straight. -/
@[simp]
theorem isStraight (disk : Disk) (here : Location) (path : Text) : disk.IsStraight here path :=
  fun place _ => linkAt?_eq_none disk place

/-- What a straight path begins with is straight. -/
theorem IsStraight.of_prefix {path : CleanPath} {front : List Text} (proper : path.IsProper)
    (straight : disk.IsStraight here path.text) (isPrefix : front <+: path.names) :
    disk.IsStraight here (CleanPath.mk path.anchor front).text := by
  have properFront : (CleanPath.mk path.anchor front).IsProper := fun name member =>
    proper name (isPrefix.subset member)
  have sameOrigin : origin here (CleanPath.mk path.anchor front).text = origin here path.text := by
    have absolute (names : List Text) (proper : (CleanPath.mk path.anchor names).IsProper) :
        Path.isAbsolute (CleanPath.mk path.anchor names).text = false ↔ path.anchor = .relative := by
      rw [← Path.anchorOf_eq_relative_iff, proper.anchorOf_text]
    have same : Path.isAbsolute (CleanPath.mk path.anchor front).text =
        Path.isAbsolute path.text := by
      rw [Bool.eq_iff_iff, ← Bool.not_eq_false, ← Bool.not_eq_false, absolute front properFront,
        absolute path.names proper]
    rw [origin, origin, same]
  intro place passed
  obtain ⟨further, isFurther, rfl⟩ := mem_way_iff_names.mp passed
  rw [properFront.names_text] at isFurther
  refine straight _ (mem_way_iff_names.mpr ⟨further, ?_, by rw [sameOrigin]⟩)
  rw [proper.names_text]
  exact isFurther.trans isPrefix

theorem firstLink?_eq_none (nonempty : ∀ name ∈ list, name ≠ [])
    (straight : ∀ place ∈ list.scanl advance location, disk.linkAt? place = none) :
    disk.firstLink? follows location list = none := by
  induction list generalizing location with
  | nil => rfl
  | cons name rest ih =>
      obtain ⟨own, others⟩ := List.forall_mem_cons.mp nonempty
      rw [List.scanl_cons] at straight
      have further := (List.forall_mem_cons.mp straight).2
      rw [firstLink?]
      cases stepped : disk.step location name with
      | error cause => rfl
      | ok next =>
          obtain ⟨-, rfl⟩ := (step_eq_ok_iff own).mp stepped
          simp only [further _ (self_mem_scanl rest _)]
          exact ih others further

/-- Where there is no link on a way, names lead where they go. -/
theorem lead_of_straight (budget : Nat) (nonempty : ∀ name ∈ list, name ≠ [])
    (straight : ∀ place ∈ list.scanl advance location, disk.linkAt? place = none) :
    disk.lead follows budget location list = disk.walk location list := by
  have none : disk.firstLink? follows location list = none := firstLink?_eq_none nonempty straight
  cases budget <;> rw [lead, none]

@[simp]
theorem lead_eq_walk (disk : Disk) (follows : Bool) (budget : Nat) (location : Location)
    (list : List Text) : disk.lead follows budget location list = disk.walk location list := by
  have none : disk.firstLink? follows location list = none := by
    induction list generalizing location with
    | nil => rfl
    | cons name rest ih =>
        rw [firstLink?]
        cases disk.step location name with
        | error cause => rfl
        | ok next =>
            simp only [linkAt?_eq_none]
            exact ih next
  cases budget <;> rw [lead, none]

theorem locateBy_of_fault {fault : PathFault} (faulty : pathFault? path = some fault) :
    disk.locateBy follows here path = .error (.notAPath fault) := by
  rw [locateBy, faulty]

theorem locateBy_of_isPath (isPath : IsPath path) :
    disk.locateBy follows here path =
      (disk.lead follows linkLimit (origin here path) (steps (Name.stored path))).mapError
        (.refused · path) := by
  rw [locateBy, isPath.faultless]
  simp only [List.isEmpty_iff, if_neg isPath.nonempty, if_neg (Nat.not_lt.mpr isPath.short)]
  cases disk.lead follows linkLimit (origin here path) (steps (Name.stored path)) <;> rfl

theorem locateBy_eq_ok_iff :
    disk.locateBy follows here path = .ok location ↔
      IsPath path ∧
        disk.lead follows linkLimit (origin here path) (steps (Name.stored path)) =
          .ok location := by
  have shape : IsPath path ↔
      pathFault? path = none ∧ path ≠ [] ∧ Name.size path ≤ pathLimit :=
    ⟨fun ⟨faultless, nonempty, short⟩ => ⟨faultless, nonempty, short⟩,
      fun ⟨faultless, nonempty, short⟩ => ⟨faultless, nonempty, short⟩⟩
  rw [shape, locateBy]
  cases pathFault? path with
  | some fault => simp
  | none =>
      by_cases empty : path = []
      · simp [empty]
      · by_cases long : pathLimit < Name.size path
        · simp [empty, long, Nat.not_le.mpr long]
        · simp only [List.isEmpty_iff, empty, if_neg long, Nat.not_lt.mp long, if_false,
            ne_eq, not_false_eq_true, true_and]
          cases disk.lead follows linkLimit (origin here path) (steps (Name.stored path)) <;> simp

/-- A path without links on its way leads where its steps lead, and so does its last name. -/
theorem locateBy_of_straight (straight : disk.IsStraight here path) :
    disk.locateBy follows here path = .ok location ↔
      IsPath path ∧ disk.walk (origin here path) (steps (Name.stored path)) = .ok location := by
  rw [locateBy_eq_ok_iff, lead_of_straight _ (fun _ => ne_nil_of_mem_steps) straight]

theorem locate_eq_ok_iff (straight : disk.IsStraight here path := by simp) :
    disk.locate here path = .ok location ↔
      IsPath path ∧ disk.walk (origin here path) (steps (Name.stored path)) = .ok location :=
  locateBy_of_straight straight

/-- A path is located at the place that it means, or not at all. -/
theorem eq_target_of_locate (located : disk.locate here path = .ok location)
    (straight : disk.IsStraight here path := by simp) : location = target here path := by
  obtain ⟨-, walked⟩ := (locate_eq_ok_iff straight).mp located
  obtain ⟨-, rfl⟩ := (walk_eq_ok_iff fun _ => ne_nil_of_mem_steps).mp walked
  exact foldl_advance_steps _ _

theorem isPath_of_locate (located : disk.locate here path = .ok location) : IsPath path :=
  (locateBy_eq_ok_iff.mp located).1

/-- Without links on the way, a link at the end plays no part. -/
theorem locateName_of_straight (straight : disk.IsStraight here path) :
    disk.locateName here path = disk.locate here path := by
  have same : disk.lead false linkLimit (origin here path) (steps (Name.stored path)) =
      disk.lead true linkLimit (origin here path) (steps (Name.stored path)) := by
    rw [lead_of_straight _ (fun _ => ne_nil_of_mem_steps) straight,
      lead_of_straight _ (fun _ => ne_nil_of_mem_steps) straight]
  rw [locateName, locate, locateBy, locateBy, same]

theorem findName_of_straight (straight : disk.IsStraight here path) :
    disk.findName here path = disk.find here path := by
  rw [findName, find, locateName_of_straight straight]

@[simp]
theorem locateName_eq_locate (disk : Disk) (here : Location) (path : Text) :
    disk.locateName here path = disk.locate here path :=
  locateName_of_straight (isStraight disk here path)

@[simp]
theorem placeName_eq_place (disk : Disk) (here : Location) (path : Text) :
    disk.placeName here path = disk.place here path := by
  rw [placeName, place, locateName_eq_locate]

@[simp]
theorem findName_eq_find (disk : Disk) (here : Location) (path : Text) :
    disk.findName here path = disk.find here path :=
  findName_of_straight (isStraight disk here path)

@[simp]
theorem hasName_eq_hasEntry (disk : Disk) (here : Location) (path : Text) :
    disk.hasName here path = disk.hasEntry here path := by
  rw [hasName, hasEntry, findName_eq_find]

@[simp]
theorem hasLink_eq_false (disk : Disk) (here : Location) (path : Text) :
    disk.hasLink here path = false := by
  rw [hasLink]
  split <;> simp

theorem hasFolder_of_find {entry : Entry links}
    (found : disk.find here path = .ok (location, entry)) :
    disk.hasFolder here path = entry.isFolder := by
  rw [hasFolder, found]

theorem any_isFolder_iff {standing : Option (Entry links)} :
    standing.any Entry.isFolder = true ↔ standing = some .folder := by
  cases standing <;> simp [Entry.isFolder_iff]

theorem locate_mono {disk other : Disk}
    (folders : ∀ place, disk.entryAt place = some .folder → other.entryAt place = some .folder)
    (located : disk.locate here path = .ok location) : other.locate here path = .ok location := by
  rw [locate_eq_ok_iff] at located ⊢
  exact ⟨located.1, walk_mono (fun _ => ne_nil_of_mem_steps) (fun _ _ _ _ => folders _) located.2⟩

theorem find_eq_ok_iff {entry : Entry links} :
    disk.find here path = .ok (location, entry) ↔
      disk.locate here path = .ok location ∧ disk.entryAt location = some entry := by
  rw [find]
  cases disk.locate here path with
  | error error => simp
  | ok place =>
      simp only [Except.ok.injEq]
      constructor
      · intro found
        cases standing : disk.entryAt place with
        | none =>
            rw [standing] at found
            cases found
        | some other =>
            rw [standing] at found
            cases found
            exact ⟨rfl, standing⟩
      · rintro ⟨rfl, standing⟩
        rw [standing]

theorem findName_eq_ok_iff {entry : Entry links} :
    disk.findName here path = .ok (location, entry) ↔
      disk.locateName here path = .ok location ∧ disk.entryAt location = some entry := by
  rw [findName]
  cases disk.locateName here path with
  | error error => simp
  | ok place =>
      simp only [Except.ok.injEq]
      cases standing : disk.entryAt place with
      | none =>
          simp only [reduceCtorEq, false_iff, not_and]
          rintro rfl
          simp [standing]
      | some other =>
          simp only [Except.ok.injEq, Prod.mk.injEq]
          constructor
          · rintro ⟨rfl, rfl⟩
            exact ⟨rfl, standing⟩
          · rintro ⟨rfl, same⟩
            exact ⟨rfl, Option.some.inj (standing.symm.trans same)⟩

theorem hasFile_iff (straight : disk.IsStraight here path := by simp) :
    disk.hasFile here path = true ↔
      disk.locate here path = .ok (target here path) ∧
        ∃ content, disk.entryAt (target here path) = some (.file content) := by
  rw [hasFile]
  cases found : disk.find here path with
  | error error =>
      simp only [Bool.false_eq_true, false_iff, not_and, not_exists]
      intro located content standing
      rw [find_eq_ok_iff.mpr ⟨located, standing⟩] at found
      cases found
  | ok pair =>
      obtain ⟨location, entry⟩ := pair
      obtain ⟨located, standing⟩ := find_eq_ok_iff.mp found
      obtain rfl := eq_target_of_locate located straight
      simp [located, standing, Option.isSome_iff_exists, Entry.content?_eq_some_iff]

/-- A path to a file leads to one. -/
theorem exists_file_of_hasFile (located : disk.locate here path = .ok location)
    (isFile : disk.hasFile here path = true) :
    ∃ content, disk.entryAt location = some (.file content) := by
  rw [hasFile] at isFile
  cases found : disk.find here path with
  | error error => simp [found] at isFile
  | ok pair =>
      obtain ⟨place, entry⟩ := pair
      obtain ⟨alsoLocated, standing⟩ := find_eq_ok_iff.mp found
      obtain rfl := Except.ok.inj (located.symm.trans alsoLocated)
      simp only [found, Option.isSome_iff_exists, Entry.content?_eq_some_iff] at isFile
      obtain ⟨content, rfl⟩ := isFile
      exact ⟨content, standing⟩

theorem file?_eq_some_iff {content : List UInt8} :
    disk.file? location = some content ↔ disk.entryAt location = some (.file content) := by
  rw [file?, Option.bind_eq_some_iff]
  simp [Entry.content?_eq_some_iff]

theorem read_eq_ok_iff {content : List UInt8} (straight : disk.IsStraight here path := by simp) :
    disk.read here path = .ok content ↔
      disk.locate here path = .ok (target here path) ∧
        disk.file? (target here path) = some content := by
  rw [file?_eq_some_iff, ← find_eq_ok_iff, read]
  constructor
  · intro readable
    cases found : disk.find here path with
    | error error =>
        rw [found] at readable
        cases readable
    | ok pair =>
        obtain ⟨place, entry⟩ := pair
        rw [found] at readable
        obtain rfl := eq_target_of_locate (find_eq_ok_iff.mp found).1 straight
        cases isFile : entry.content? with
        | none => simp [isFile] at readable
        | some bytes =>
            simp only [isFile, Except.ok.injEq] at readable
            rw [Entry.content?_eq_some_iff.mp isFile, readable]
  · intro found
    rw [found]
    rfl

/-! ## Paths and their beginnings -/

theorem halvesFrom?_eq_none_iff {property : Symbol → Bool} {text : Text} :
    Text.halvesFrom? property text = none ↔ ∀ symbol ∈ text, property symbol = false := by
  have nothing :
      text.drop (text.takeWhile fun symbol => !property symbol).length = [] ↔
        ∀ symbol ∈ text, property symbol = false := by
    have front := List.takeWhile_prefix (l := text) fun symbol => !property symbol
    have whole := List.takeWhile_eq_self_iff (p := fun symbol => !property symbol) (l := text)
    simp only [Bool.not_eq_true'] at whole
    rw [List.drop_eq_nil_iff, ← whole]
    constructor
    · exact front.eq_of_length_le
    · intro same
      rw [same]
  rw [← nothing, Text.halvesFrom?]
  split
  · rename_i none
    simp [none]
  · rename_i some
    simp [some]

theorem pathFault?_eq_none_iff :
    pathFault? path = none ↔
      (∀ symbol ∈ path, Name.isStray symbol = false) ∧ Symbol.char '\x00' ∉ path := by
  rw [pathFault?, ← halvesFrom?_eq_none_iff]
  cases Text.halvesFrom? Name.isStray path with
  | some halves => simp
  | none => simp

/-- The beginning of a path is a path. -/
theorem IsPath.of_append (isPath : IsPath (path ++ rest)) (nonempty : path ≠ []) :
    IsPath path := by
  obtain ⟨faultless, -, short⟩ := isPath
  rw [pathFault?_eq_none_iff] at faultless
  refine ⟨pathFault?_eq_none_iff.mpr ⟨fun symbol member => ?_, fun member => ?_⟩, nonempty, ?_⟩
  · exact faultless.1 symbol (List.mem_append_left rest member)
  · exact faultless.2 (List.mem_append_left rest member)
  · rw [Name.size, Name.bytes_append, List.length_append] at short
    exact Nat.le_trans (Nat.le_add_right _ _) short

/-- Every symbol in a name of a path that the disk takes has bytes. -/
theorem IsPath.hasBytes {piece : Text} (isPath : IsPath path) (member : piece ∈ Path.pieces path) :
    ∀ symbol ∈ piece, Name.isStray symbol = false := by
  intro symbol inPiece
  refine (pathFault?_eq_none_iff.mp isPath.faultless).1 symbol ?_
  rw [← Text.joinWith_splitOn (.char '/') path]
  exact Text.mem_joinWith_of_mem member inPiece

/-- A path that does not begin at the root asks for at least one step. -/
theorem steps_ne_nil (isPath : IsPath path) (relative : Path.isAbsolute path = false) :
    steps (Name.stored path) ≠ [] := by
  intro none
  have pieces := (List.append_eq_nil_iff.mp none).1
  rw [Name.pieces_stored, List.filter_eq_nil_iff] at pieces
  obtain ⟨first, others, cut⟩ :=
    List.exists_cons_of_ne_nil (List.splitOn_ne_nil (Symbol.char '/') path)
  have inPieces : first ∈ Path.pieces path := by
    rw [Path.pieces, cut]
    exact List.mem_cons_self
  have shown : Name.stored first = [] := by
    simpa using pieces _ (List.mem_map_of_mem inPieces)
  -- The first piece is empty, so the path begins with a slash or is empty itself.
  obtain rfl : first = [] :=
    Name.eq_of_stored_eq (fun _ nothing => nomatch nothing) (isPath.hasBytes inPieces) shown
  have whole := Text.joinWith_splitOn (.char '/') path
  rw [cut] at whole
  rcases eq_or_ne others [] with rfl | further
  · exact isPath.nonempty whole.symm
  · rw [Text.joinWith_cons _ _ further] at whole
    rw [Path.isAbsolute_iff.mpr ⟨_, whole.symm⟩] at relative
    cases relative

end ApiDocs.Disk
