import ApiDocs.Disk.Text
import ApiDocs.Proofs.Disk.Removal
import ApiDocs.Proofs.Outcome
import ApiDocs.Proofs.Path.Relative

/-!
# Copies of a folder

Two disks may hold the same in two folders.  A path below one of the folders and the same
path below the other one lead to the same place in them, or are refused for the same cause,
as long as the path never climbs out of the folder and is not too long for either disk.
-/

namespace ApiDocs

open Disk (IsPath)

namespace Disk

variable {path : Text} {name : Text} {list : List Text}

/-! ## The steps of an absolute path -/

theorem shownPieces_of_whole (whole : Symbol.char '/' ∉ name) (shown : Name.stored name ≠ []) :
    shownPieces name = [Name.stored name] := by
  have one : Path.pieces (Name.stored name) = [Name.stored name] := by
    rw [Name.pieces_stored, Path.pieces, List.splitOn_eq_singleton whole]
    rfl
  rw [shownPieces, one, List.filter_cons_of_pos (by simpa using shown), List.filter_nil]

theorem shownPieces_joinWith
    (areNames : ∀ name ∈ list, Path.IsName name ∧ Name.stored name ≠ []) :
    shownPieces (Text.joinWith "/" list) = list.map Name.stored := by
  induction list with
  | nil => exact shownPieces_nil
  | cons name rest ih =>
      have own := areNames name List.mem_cons_self
      have others := ih fun other member => areNames other (List.mem_cons_of_mem name member)
      have first := shownPieces_of_whole own.1.whole own.2
      rcases eq_or_ne rest [] with rfl | nonempty
      · exact first
      · rw [Text.joinWith_cons _ _ nonempty, Path.append_slash_append, shownPieces_append_slash,
          first, others]
        rfl

end Disk

namespace CleanPath

variable {path : CleanPath} {names : List Text}

theorem IsAbsolute.shownPieces_text (absolute : path.IsAbsolute)
    (areNames : ∀ name ∈ path.names, Path.IsName name ∧ Disk.Name.stored name ≠ []) :
    Disk.shownPieces path.text = path.names.map Disk.Name.stored := by
  have slash (rest : Text) : Disk.shownPieces (.char '/' :: rest) = Disk.shownPieces rest := by
    have cut := Disk.shownPieces_append_slash [] rest
    rwa [Disk.shownPieces_nil] at cut
  have written := Disk.shownPieces_joinWith areNames
  rw [absolute.text_eq]
  cases anchored : path.anchor with
  | relative => exact absurd anchored absolute
  | root => exact (slash _).trans written
  | doubleRoot => exact ((slash _).trans (slash _)).trans written

theorem IsAbsolute.endsInSlash_stored (absolute : path.IsAbsolute)
    (areNames : ∀ name ∈ path.names, Path.IsName name ∧ Disk.Name.stored name ≠ []) :
    Path.endsInSlash (Disk.Name.stored path.text) = decide (path.names = []) := by
  rcases eq_or_ne path.names [] with none | several
  · rw [absolute.text_eq, none, decide_eq_true rfl]
    cases anchored : path.anchor with
    | relative => exact absurd anchored absolute
    | root => decide +kernel
    | doubleRoot => decide +kernel
  · obtain ⟨parent, name, rfl⟩ := exists_below several
    have parentAbsolute : parent.IsAbsolute := absolute
    have isLast := areNames name (by simp)
    obtain ⟨front, written, -⟩ := parentAbsolute.exists_text_concat
      (fun other member => (areNames other (List.mem_append_left _ member)).1) isLast.1
    have whole : Symbol.char '/' ∉ Disk.Name.stored name :=
      mt (Disk.Name.char_mem_stored_iff (by decide) name).mp isLast.1.whole
    rw [written, Disk.Name.stored_append_cons (by decide), ← List.singleton_append,
      ← List.append_assoc, Disk.endsInSlash_append_of_whole _ isLast.2 whole,
      decide_eq_false several]

/-- The steps of an absolute path are its names, as the disk shows them. -/
theorem IsAbsolute.steps_text (absolute : path.IsAbsolute)
    (areNames : ∀ name ∈ path.names, Path.IsName name ∧ Disk.Name.stored name ≠ []) :
    Disk.steps (Disk.Name.stored path.text) = path.names.map Disk.Name.stored ++
      if path.names = [] then [("." : Text)] else [] := by
  have pieces := absolute.shownPieces_text areNames
  rw [Disk.shownPieces] at pieces
  rw [Disk.steps, pieces, absolute.endsInSlash_stored areNames]
  simp

/-- A slash at the end of an absolute path asks for one more step. -/
theorem IsAbsolute.steps_join_nil (absolute : path.IsAbsolute)
    (areNames : ∀ name ∈ path.names, Path.IsName name ∧ Disk.Name.stored name ≠ []) :
    Disk.steps (Disk.Name.stored (Path.join path.text [])) =
      path.names.map Disk.Name.stored ++ [("." : Text)] := by
  have relative : Path.isAbsolute [] = false := rfl
  rcases Path.join_eq path.text relative with ⟨joined, none | closed⟩ | ⟨joined, -, -⟩
  · exact absurd none absolute.text_ne_nil
  · have none : path.names = [] := by
      by_contra several
      have unfinished := Path.endsInSlash_append_joinWith path.anchor.text
        (fun name member => (areNames name member).1) several
      rw [← absolute.text_eq, closed] at unfinished
      cases unfinished
    rw [joined, List.append_nil, absolute.steps_text areNames, if_pos none]
  · have pieces := absolute.shownPieces_text areNames
    have slash := Disk.shownPieces_append_slash path.text []
    rw [Disk.shownPieces_nil, List.append_nil, pieces, Disk.shownPieces] at slash
    have ends : Path.endsInSlash (Disk.Name.stored (path.text ++ [Symbol.char '/'])) = true := by
      rw [Disk.Name.stored_append_cons (by decide), Disk.Name.stored_nil]
      exact Path.endsInSlash_iff.mpr ⟨_, rfl⟩
    rw [joined, Disk.steps, slash, ends]
    rfl

/-- Every name of a path that the disk takes is shown as some name. -/
theorem IsProper.stored_ne_nil (proper : path.IsProper) (isPath : IsPath path.text) {name : Text}
    (member : name ∈ path.names) : Disk.Name.stored name ≠ [] := by
  intro nothing
  have isPiece : name ∈ Path.pieces path.text := by
    rw [← proper.names_text] at member
    exact (List.mem_filter.mp member).1
  exact (proper name member).nonempty
    (Disk.Name.eq_of_stored_eq (fun _ none => nomatch none) (isPath.hasBytes isPiece) nothing)

theorem IsProper.goesDown (proper : path.IsProper) (isPath : IsPath path.text) {name : Text}
    (member : name ∈ path.names) (notUp : name ≠ "..") : Disk.GoesDown name := by
  have isPiece : name ∈ Path.pieces path.text := by
    rw [← proper.names_text] at member
    exact (List.mem_filter.mp member).1
  exact Disk.goesDown_of_isName (proper name member) notUp (isPath.hasBytes isPiece)

end CleanPath

/-! ## The folder and the ways below it -/

namespace Disk

variable {first second : Disk} {base base' location : Location} {name : Text} {list : List Text}

/-- Two disks hold the same at and below two places. -/
def HoldSame (first second : Disk) (base base' : Location) : Prop :=
  ∀ names, first.entryAt (base ++ names) = second.entryAt (base' ++ names)

theorem HoldSame.symm (same : HoldSame first second base base') :
    HoldSame second first base' base :=
  fun names => (same names).symm

/--
One step from the same place in two copies is refused for the same cause or leads to the same place.
-/
theorem HoldSame.step (same : HoldSame first second base base')
    (below : name = ".." → location ≠ []) (nonempty : name ≠ []) :
    (∃ cause, first.step (base ++ location) name = .error cause ∧
        second.step (base' ++ location) name = .error cause) ∨
      first.step (base ++ location) name = .ok (base ++ advance location name) ∧
        second.step (base' ++ location) name = .ok (base' ++ advance location name) := by
  rw [Disk.step, Disk.step, ← same location]
  cases first.entryAt (base ++ location) with
  | none => exact .inl ⟨_, rfl, rfl⟩
  | some entry =>
      cases entry with
      | file content => exact .inl ⟨_, rfl, rfl⟩
      | folder =>
          by_cases isHere : name = "."
          · simp [isHere]
          · by_cases isUp : name = ".."
            · have climbed (base : Location) :
                  (base ++ location).dropLast = base ++ advance location name := by
                rw [isUp, advance_up, List.dropLast_append_of_ne_nil (below isUp)]
              simp only [if_neg isHere, if_pos isUp, climbed]
              simp
            · have down (base : Location) :
                  base ++ location ++ [name] = base ++ advance location name := by
                rw [advance, if_neg (by simp [nonempty, isHere]), if_neg isUp, List.append_assoc]
              simp only [Entry.isFolder_folder, Bool.not_true, Bool.false_eq_true, if_false,
                if_neg isHere, if_neg isUp, down]
              split
              · simp
              · simp

theorem stored_up : Name.stored ".." = ".." :=
  Name.stored_of_isAsciiText (Name.isAsciiText_ofString (by decide))

/-- The same way from the same place in two copies, as long as it never climbs out of them. -/
theorem HoldSame.walk (same : HoldSame first second base base') {names : List Text} {reached : Nat}
    (areNames : ∀ name ∈ names, name = ".." ∨ GoesDown name)
    (stays : Path.depth? location.length names = some reached) :
    (∃ cause, first.walk (base ++ location) (names.map Name.stored) = .error cause ∧
        second.walk (base' ++ location) (names.map Name.stored) = .error cause) ∨
      first.walk (base ++ location) (names.map Name.stored) = .ok (base ++ follow location names) ∧
        second.walk (base' ++ location) (names.map Name.stored) =
          .ok (base' ++ follow location names) := by
  induction names generalizing location with
  | nil => exact .inr ⟨rfl, rfl⟩
  | cons name rest ih =>
      have others : ∀ other ∈ rest, other = ".." ∨ GoesDown other := fun other member =>
        areNames other (List.mem_cons_of_mem name member)
      have own := areNames name List.mem_cons_self
      have nonempty : Name.stored name ≠ [] := by
        rcases own with rfl | down
        · rw [stored_up]
          exact List.cons_ne_nil _ _
        · exact down.nonempty
      have isUp (up : Name.stored name = "..") : name = ".." :=
        own.resolve_right fun down => down.notUp up
      -- The step keeps count of how deep the way leads.
      have further : Path.depth? (advance location (Name.stored name)).length rest = some reached ∧
          (Name.stored name = ".." → location ≠ []) := by
        by_cases climbs : name = ".."
        · subst climbs
          obtain ⟨below, further⟩ := Path.depth?_up_eq_some_iff.mp stays
          rw [stored_up, advance_up, List.length_dropLast]
          exact ⟨further, fun _ => by simpa using below⟩
        · have down := own.resolve_left climbs
          rw [Path.depth?_of_ne climbs] at stays
          rw [advance, if_neg (by simp [down.nonempty, down.notHere]), if_neg down.notUp,
            List.length_append]
          exact ⟨stays, fun up => absurd up down.notUp⟩
      rw [List.map_cons, walk_cons, walk_cons]
      rcases same.step further.2 nonempty with ⟨cause, left, right⟩ | ⟨left, right⟩
      · rw [left, right]
        exact .inl ⟨cause, rfl, rfl⟩
      · rw [left, right]
        exact ih others further.1

/-- A folder on a disk with an absolute path that never climbs. -/
structure IsBase (disk : Disk) (root : CleanPath) : Prop where
  tree : disk.IsTree
  fromRoot : root.anchor = .root
  proper : root.IsProper
  staysDown : ((".." : Text)) ∉ root.names
  isPath : IsPath root.text
  folder : disk.entryAt root.place = some .folder

/-- Two disks that hold the same in two folders. -/
structure AreCopies (first second : Disk) (here there : CleanPath) : Prop where
  left : IsBase first here
  right : IsBase second there
  same : HoldSame first second here.place there.place

theorem AreCopies.symm {here there : CleanPath} (copies : AreCopies first second here there) :
    AreCopies second first there here :=
  ⟨copies.right, copies.left, copies.same.symm⟩

namespace IsBase

variable {disk : Disk} {root : CleanPath} {names : List Text} {here : Location}

section

variable (isBase : IsBase disk root)

include isBase

theorem absolute : root.IsAbsolute := by
  rw [CleanPath.IsAbsolute, isBase.fromRoot]
  decide

theorem goesDown (member : name ∈ root.names) : GoesDown name := by
  refine isBase.proper.goesDown isBase.isPath member ?_
  rintro rfl
  exact isBase.staysDown member

theorem place_eq : root.place = root.names.map Name.stored := by
  rw [CleanPath.place, follow_of_goesDown fun _ => isBase.goesDown, List.nil_append]

/-- There is a way to the folder. -/
theorem walk_root : disk.walk [] (root.names.map Name.stored) = .ok root.place := by
  have folders : ∀ front rest, root.names = front ++ rest →
      disk.entryAt (follow [] front) = some .folder := by
    refine isBase.tree.folder_of_follow (fun front name rest cut up => ?_) isBase.folder
    have inRoot : name ∈ root.names := by simp [cut]
    exact absurd up (isBase.goesDown inRoot).notUp
  have moving : (root.names.map Name.stored).filter moves = root.names.map Name.stored := by
    refine List.filter_eq_self.mpr fun shown member => ?_
    obtain ⟨name, inRoot, rfl⟩ := List.mem_map.mp member
    have down := isBase.goesDown inRoot
    simp [moves, down.nonempty, down.notHere]
  rw [← moving]
  exact isBase.tree.walk_of_folders folders

/-- The names of a path below the folder climb or lead down. -/
theorem goesDown_below (areNames : ∀ name ∈ names, Path.IsName name)
    (isPath : IsPath (root.below names).text) (member : name ∈ names) :
    name = ".." ∨ GoesDown name := by
  have proper := isBase.proper.below areNames
  exact or_iff_not_imp_left.mpr (proper.goesDown isPath (List.mem_append_right _ member))

end

end IsBase

/-! ## Paths below the folder -/

theorem locate_of_isPath {disk : Disk} {here : Location} {path : Text} (isPath : IsPath path) :
    disk.locate here path =
      (disk.walk (origin here path) (steps (Name.stored path))).mapError (.refused · path) := by
  rw [locate, locateBy_of_isPath isPath, lead_eq_walk]

end Disk

/-- A path below a folder: its names there, and whether it ends in a slash. -/
structure Spot where
  names : List Text
  closed : Bool := false
  deriving DecidableEq, Repr

namespace Spot

/-- The path as a text, below the path of the folder. -/
def text (root : CleanPath) (spot : Spot) : Text :=
  if spot.closed then Path.join (root.below spot.names).text [] else (root.below spot.names).text

theorem text_open (root : CleanPath) (names : List Text) :
    Spot.text root { names } = (root.below names).text := rfl

/-- The steps that the path asks for behind the folder. -/
def steps (spot : Spot) : List Text :=
  spot.names.map Disk.Name.stored ++ if spot.closed then [("." : Text)] else []

/-- The place that the path means, as seen from the folder. -/
def place (spot : Spot) : Location :=
  Disk.follow [] spot.names

/-- A path with proper names that never climbs out of the folder. -/
structure Stays (spot : Spot) : Prop where
  areNames : ∀ name ∈ spot.names, Path.IsName name
  depth : (Path.depth? 0 spot.names).isSome

variable {disk first second : Disk} {root root' : CleanPath} {spot : Spot} {here there : Location}

theorem isAbsolute_text (absolute : root.IsAbsolute) : Path.isAbsolute (spot.text root) = true := by
  have below := (absolute.below spot.names).isAbsolute_text
  rw [text]
  split
  · exact Path.isAbsolute_join below
  · exact below

theorem isPath_below (absolute : root.IsAbsolute) (isPath : IsPath (spot.text root)) :
    IsPath (root.below spot.names).text := by
  rw [text] at isPath
  split at isPath
  · exact Disk.isPath_of_join (absolute.below spot.names).isAbsolute_text rfl isPath
  · exact isPath

/-- A path below a folder is located by a walk that begins there. -/
theorem locate_text (isBase : disk.IsBase root) (stays : spot.Stays)
    (isPath : IsPath (spot.text root)) :
    disk.locate here (spot.text root) =
      (disk.walk root.place spot.steps).mapError (.refused · (spot.text root)) := by
  have absolute := isBase.absolute.below spot.names
  have proper := isBase.proper.below stays.areNames
  have isPathBelow := isPath_below isBase.absolute isPath
  have areNames : ∀ name ∈ (root.below spot.names).names,
      Path.IsName name ∧ Disk.Name.stored name ≠ [] := fun name member =>
    ⟨proper name member, proper.stored_ne_nil isPathBelow member⟩
  have fromRoot : Disk.origin here (spot.text root) = [] := by
    rw [Disk.origin, if_pos (isAbsolute_text isBase.absolute)]
  have goesOn (rest : List Text) :
      disk.walk [] ((root.below spot.names).names.map Disk.Name.stored ++ rest) =
        disk.walk root.place (spot.names.map Disk.Name.stored ++ rest) := by
    rw [CleanPath.names_below, List.map_append, List.append_assoc, Disk.walk_append,
      isBase.walk_root]
    rfl
  rw [Disk.locate_of_isPath isPath, fromRoot]
  congr 1
  rw [text, steps]
  cases spot.closed with
  | true =>
      rw [if_pos rfl, if_pos rfl, absolute.steps_join_nil areNames]
      exact goesOn _
  | false =>
      rw [if_neg Bool.false_ne_true, if_neg Bool.false_ne_true, absolute.steps_text areNames]
      split
      · rename_i none
        -- The path is the root of the disk, whose slash asks for one more step there.
        have alone : root.names = [] ∧ spot.names = [] := List.append_eq_nil_iff.mp none
        have atRoot : root.place = [] := by rw [isBase.place_eq, alone.1, List.map_nil]
        rw [none, alone.2, atRoot]
        simp [Disk.walk, Disk.step]
      · exact goesOn _

/-- What stands behind the path of the folder in the text of a path below it. -/
def rest (spot : Spot) : Text :=
  .char '/' :: Text.joinWith "/" spot.names ++ if spot.closed then [Symbol.char '/'] else []

theorem exists_text_eq_append (isBase : disk.IsBase root) :
    ∃ front, ∀ spot : Spot, spot.names ≠ [] → (∀ name ∈ spot.names, Path.IsName name) →
      spot.text root = front ++ rest spot := by
  have absolute := isBase.absolute
  have slash : root.anchor.text = [Symbol.char '/'] := by
    rw [isBase.fromRoot]
    rfl
  -- Below the root of the disk there is no slash but the one of the root itself.
  have open' : ∃ front, ∀ names : List Text, names ≠ [] →
      (root.below names).text = front ++ .char '/' :: Text.joinWith "/" names := by
    rcases eq_or_ne root.names [] with none | several
    · refine ⟨[], fun names _ => ?_⟩
      rw [(absolute.below names).text_eq, CleanPath.anchor_below, CleanPath.names_below, none, slash]
      rfl
    · refine ⟨root.text, fun names nonempty => ?_⟩
      rw [(absolute.below names).text_eq, absolute.text_eq, CleanPath.anchor_below,
        CleanPath.names_below, Text.joinWith_append _ several nonempty, ← List.append_assoc,
        ← List.append_assoc, Path.append_slash_append]
  obtain ⟨front, written⟩ := open'
  refine ⟨front, fun spot nonempty areNames => ?_⟩
  have belowNames : (root.below spot.names).names ≠ [] :=
    List.append_ne_nil_of_right_ne_nil _ nonempty
  have unfinished := Path.endsInSlash_append_joinWith root.anchor.text (isBase.proper.below areNames)
    belowNames
  have relative : Path.isAbsolute [] = false := rfl
  rw [text, rest]
  cases spot.closed with
  | false => rw [if_neg Bool.false_ne_true, if_neg Bool.false_ne_true, List.append_nil,
      written _ nonempty]
  | true =>
      rw [if_pos rfl, if_pos rfl]
      rcases Path.join_eq (root.below spot.names).text relative with
        ⟨-, none | closed⟩ | ⟨joined, -, -⟩
      · exact absurd none (absolute.below _).text_ne_nil
      · rw [(absolute.below _).text_eq, CleanPath.anchor_below, unfinished] at closed
        cases closed
      · rw [joined, written _ nonempty, List.append_assoc]

/-- Read as a clean path, a path below a folder has the names of both. -/
theorem ofText_text (absolute : root.IsAbsolute) (proper : (root.below spot.names).IsProper) :
    CleanPath.ofText (spot.text root) = root.below spot.names := by
  have relative : Path.isAbsolute [] = false := rfl
  have written := proper.ofText_text
  rw [text]
  split
  · rcases Path.join_eq (root.below spot.names).text relative with
      ⟨joined, -⟩ | ⟨joined, -, unfinished⟩
    · rw [joined, List.append_nil, written]
    · have several : (root.below spot.names).names ≠ [] := by
        intro none
        rw [(absolute.below _).text_eq, none] at unfinished
        have closed := Path.Anchor.endsInSlash_text (absolute.below spot.names)
        rw [show Text.joinWith "/" ([] : List Text) = [] from rfl, List.append_nil, closed]
          at unfinished
        cases unfinished
      have behind : Path.isAbsolute
          (Text.joinWith "/" (root.below spot.names).names ++ [Symbol.char '/']) = false := by
        rw [Path.isAbsolute_append (Path.joinWith_ne_nil proper several)]
        exact Path.isAbsolute_joinWith proper
      have names : Path.names (Path.join (root.below spot.names).text []) =
          (root.below spot.names).names := by
        rw [Path.names_join relative, Path.names_nil, List.append_nil, proper.names_text]
      have anchor : Path.anchorOf (Path.join (root.below spot.names).text []) =
          (root.below spot.names).anchor := by
        rw [joined, (absolute.below _).text_eq, List.append_assoc]
        exact Path.anchorOf_text_append _ behind
      rw [CleanPath.ofText, names, anchor]
  · exact written

/-! ## How long paths are -/

/-- A path below a folder is not much longer than that of the folder and its own names. -/
theorem size_text_le (absolute : root.IsAbsolute) (spot : Spot) :
    Disk.Name.size (spot.text root) ≤
      Disk.Name.size root.text + Disk.Name.size (Text.joinWith "/" spot.names) + 2 := by
  have slash : Disk.Name.size [Symbol.char '/'] = 1 := by decide
  have below : Disk.Name.size (root.below spot.names).text ≤
      Disk.Name.size root.text + Disk.Name.size (Text.joinWith "/" spot.names) + 1 := by
    rw [(absolute.below spot.names).text_eq, absolute.text_eq, CleanPath.anchor_below,
      CleanPath.names_below]
    rcases eq_or_ne root.names [] with none | several
    · rw [none, List.nil_append, Disk.Name.size_append, Disk.Name.size_append]
      omega
    · rcases eq_or_ne spot.names [] with nothing | more
      · rw [nothing, List.append_nil]
        omega
      · rw [Text.joinWith_append _ several more, ← List.append_assoc, ← List.append_assoc,
          Disk.Name.size_append, Disk.Name.size_append]
        exact Nat.le_of_eq (by rw [show Disk.Name.size ("/" : Text) = 1 from slash]; omega)
  rw [text]
  split
  · rcases Path.join_eq (root.below spot.names).text (show Path.isAbsolute [] = false from rfl) with
      ⟨joined, -⟩ | ⟨joined, -, -⟩
    · rw [joined, List.append_nil]
      omega
    · rw [joined, Disk.Name.size_append, slash]
      omega
  · omega

/-- The names of a path are not longer than the path. -/
theorem size_joinWith_le (absolute : root.IsAbsolute) (spot : Spot) :
    Disk.Name.size (Text.joinWith "/" spot.names) ≤ Disk.Name.size (spot.text root) := by
  have below : Disk.Name.size (Text.joinWith "/" spot.names) ≤
      Disk.Name.size (root.below spot.names).text := by
    rw [(absolute.below spot.names).text_eq, CleanPath.anchor_below, CleanPath.names_below]
    rcases eq_or_ne root.names [] with none | several
    · rw [none, List.nil_append, Disk.Name.size_append]
      omega
    · rcases eq_or_ne spot.names [] with nothing | more
      · rw [nothing]
        exact Nat.zero_le _
      · rw [Text.joinWith_append _ several more, Disk.Name.size_append, Disk.Name.size_append]
        omega
  rw [text]
  split
  · obtain ⟨between, joined, -⟩ :=
      Disk.exists_join_eq_append (root.below spot.names).text (show Path.isAbsolute [] = false from rfl)
    rw [joined, Disk.Name.size_append]
    omega
  · exact below

/-! ## Paths that the disk takes -/

/-- Whether a symbol may stand in a path. -/
def mayStand (symbol : Symbol) : Prop :=
  Disk.Name.isStray symbol = false ∧ symbol ≠ .char '\x00'

theorem pathFault?_eq_none_iff {path : Text} :
    Disk.pathFault? path = none ↔ ∀ symbol ∈ path, mayStand symbol := by
  rw [Disk.pathFault?_eq_none_iff]
  constructor
  · rintro ⟨noStray, noNull⟩ symbol member
    refine ⟨noStray symbol member, ?_⟩
    rintro rfl
    exact noNull member
  · intro clean
    exact ⟨fun symbol member => (clean symbol member).1, fun member => (clean _ member).2 rfl⟩

theorem mayStand_slash : mayStand (.char '/') := by
  refine ⟨rfl, ?_⟩
  decide

theorem forall_mem_joinWith_iff {property : Symbol → Prop} {separator : Text}
    (ofSeparator : ∀ symbol ∈ separator, property symbol) (list : List Text) :
    (∀ symbol ∈ Text.joinWith separator list, property symbol) ↔
      ∀ name ∈ list, ∀ symbol ∈ name, property symbol := by
  constructor
  · exact fun each name inList symbol member => each symbol (Text.mem_joinWith_of_mem inList member)
  · intro each
    induction list with
    | nil => exact fun symbol none => nomatch none
    | cons name rest ih =>
        have own := each name List.mem_cons_self
        have others := ih fun other member => each other (List.mem_cons_of_mem name member)
        rcases eq_or_ne rest [] with rfl | nonempty
        · exact own
        · rw [Text.joinWith_cons _ _ nonempty]
          intro symbol member
          rcases List.mem_append.mp member with front | behind
          · rcases List.mem_append.mp front with inName | inSeparator
            · exact own symbol inName
            · exact ofSeparator symbol inSeparator
          · exact others symbol behind

theorem forall_mem_text_iff {path : CleanPath} (absolute : path.IsAbsolute) :
    (∀ symbol ∈ path.text, mayStand symbol) ↔
      ∀ name ∈ path.names, ∀ symbol ∈ name, mayStand symbol := by
  have slashes : ∀ symbol ∈ path.anchor.text, mayStand symbol := by
    have only : ∀ symbol ∈ path.anchor.text, symbol = .char '/' := by
      cases path.anchor <;> decide
    intro symbol member
    rw [only symbol member]
    exact mayStand_slash
  have separator : ∀ symbol ∈ ("/" : Text), mayStand symbol := by
    simpa [Text.ofString, Text.ofChars] using mayStand_slash
  have names := forall_mem_joinWith_iff separator path.names
  rw [absolute.text_eq, List.forall_mem_append, names, and_iff_right slashes]

/-- Whether the disk takes a path below a folder depends on the names below it only. -/
theorem pathFault?_text_eq_none_iff (isBase : disk.IsBase root) (spot : Spot) :
    Disk.pathFault? (spot.text root) = none ↔
      ∀ name ∈ spot.names, ∀ symbol ∈ name, mayStand symbol := by
  have inRoot := (forall_mem_text_iff isBase.absolute).mp
    (pathFault?_eq_none_iff.mp isBase.isPath.faultless)
  have below : (∀ symbol ∈ (root.below spot.names).text, mayStand symbol) ↔
      ∀ name ∈ spot.names, ∀ symbol ∈ name, mayStand symbol := by
    rw [forall_mem_text_iff (isBase.absolute.below spot.names), CleanPath.names_below,
      List.forall_mem_append, and_iff_right inRoot]
  rw [pathFault?_eq_none_iff, ← below, text]
  split
  · have relative : Path.isAbsolute [] = false := rfl
    rcases Path.join_eq (root.below spot.names).text relative with
      ⟨joined, -⟩ | ⟨joined, -, -⟩
    · rw [joined, List.append_nil]
    · rw [joined, List.forall_mem_append]
      simp [mayStand_slash]
  · rfl

end Spot

namespace Disk

/-- Two accesses refused for the same cause, or two paths that the disk does not take. -/
inductive RefusedAlike : DiskError → DiskError → Prop where
  | refused (cause : Cause) (path path' : Text) :
      RefusedAlike (.refused cause path) (.refused cause path')
  | notAPath (fault fault' : PathFault) : RefusedAlike (.notAPath fault) (.notAPath fault')

/-- Two texts that cannot be read for causes that are alike. -/
inductive UnreadableAlike : TextError → TextError → Prop where
  | disk {error error' : DiskError} : RefusedAlike error error' →
      UnreadableAlike (.disk error) (.disk error')
  | undecodable (failure : Text.Utf8.Failure) :
      UnreadableAlike (.undecodable failure) (.undecodable failure)

/-- A path below the folder that the disk does not refuse for its length. -/
structure Fits (root : CleanPath) (spot : Spot) : Prop extends spot.Stays where
  short : Name.size (spot.text root) ≤ pathLimit

/-- Without the slash at its end a path is not longer. -/
theorem Fits.withoutSlash {root : CleanPath} {spot : Spot} (fits : Fits root spot) :
    Fits root { names := spot.names } := by
  refine ⟨⟨fits.areNames, fits.depth⟩, ?_⟩
  have short := fits.short
  rw [Spot.text] at short
  split at short
  · obtain ⟨between, joined, -⟩ :=
      exists_join_eq_append (root.below spot.names).text (show Path.isAbsolute [] = false from rfl)
    rw [joined, Name.size_append] at short
    exact Nat.le_trans (Nat.le_add_right _ _) short
  · exact short

namespace AreCopies

/-- A copy of a copy is a copy. -/
theorem trans {first second third : Disk} {root root' root'' : CleanPath}
    (copies : AreCopies first second root root') (further : AreCopies second third root' root'') :
    AreCopies first third root root'' :=
  ⟨copies.left, further.right, fun names => (copies.same names).trans (further.same names)⟩

variable {first second : Disk} {root root' : CleanPath} (here there : Location) {spot : Spot}

/-- The steps of a path below two copies lead to the same place in them, or are refused in both. -/
theorem walk_steps (copies : AreCopies first second root root')
    (areNames : ∀ name ∈ spot.names, name = ".." ∨ GoesDown name)
    (depth : (Path.depth? 0 spot.names).isSome) :
    (∃ cause, first.walk root.place spot.steps = .error cause ∧
        second.walk root'.place spot.steps = .error cause) ∨
      first.walk root.place spot.steps = .ok (root.place ++ spot.place) ∧
        second.walk root'.place spot.steps = .ok (root'.place ++ spot.place) := by
  obtain ⟨reached, depth⟩ := Option.isSome_iff_exists.mp depth
  have walked := copies.same.walk areNames (show Path.depth? ([] : Location).length _ = _ from depth)
  simp only [List.append_nil] at walked
  rw [Spot.steps, walk_append, walk_append]
  rcases walked with ⟨cause, left, right⟩ | ⟨left, right⟩
  · rw [left, right]
    exact .inl ⟨cause, rfl, rfl⟩
  · rw [left, right]
    cases spot.closed with
    | false => exact .inr ⟨rfl, rfl⟩
    | true =>
        have stays (up : ("." : Text) = "..") : spot.place ≠ [] := nomatch up
        have stepped := copies.same.step stays (List.cons_ne_nil _ _)
        change (∃ cause, first.walk (root.place ++ spot.place) [("." : Text)] = .error cause ∧
            second.walk (root'.place ++ spot.place) [("." : Text)] = .error cause) ∨
          first.walk (root.place ++ spot.place) [("." : Text)] = .ok (root.place ++ spot.place) ∧
            second.walk (root'.place ++ spot.place) [("." : Text)] = .ok (root'.place ++ spot.place)
        rw [walk_cons, walk_cons]
        rcases stepped with ⟨cause, left, right⟩ | ⟨left, right⟩
        · rw [left, right]
          exact .inl ⟨cause, rfl, rfl⟩
        · rw [left, right, advance_here]
          exact .inr ⟨rfl, rfl⟩

variable (copies : AreCopies first second root root') (fits : Fits root spot)
variable (fits' : Fits root' spot)

include copies fits fits'

/-- The same path below two copies leads to the same place in them, or is refused in both. -/
theorem locate :
    SameOutcome RefusedAlike (fun place place' => place = root.place ++ spot.place ∧
        place' = root'.place ++ spot.place)
      (first.locate here (spot.text root)) (second.locate there (spot.text root')) := by
  have faultless := Spot.pathFault?_text_eq_none_iff copies.left spot
  rw [← Spot.pathFault?_text_eq_none_iff copies.right spot] at faultless
  have nonempty {disk : Disk} {root : CleanPath} (isBase : disk.IsBase root) :
      spot.text root ≠ [] :=
    Path.ne_nil_of_isAbsolute (Spot.isAbsolute_text isBase.absolute)
  cases fault : pathFault? (spot.text root) with
  | some cause =>
      cases fault' : pathFault? (spot.text root') with
      | some cause' =>
          rw [Disk.locate, Disk.locate, locateBy_of_fault fault, locateBy_of_fault fault']
          exact .error (.notAPath cause cause')
      | none =>
          rw [faultless.mpr fault'] at fault
          cases fault
  | none =>
      have isPath : IsPath (spot.text root) := ⟨fault, nonempty copies.left, fits.short⟩
      have isPath' : IsPath (spot.text root') :=
        ⟨faultless.mp fault, nonempty copies.right, fits'.short⟩
      have areNames : ∀ name ∈ spot.names, name = ".." ∨ GoesDown name := fun name member =>
        copies.left.goesDown_below fits.areNames (Spot.isPath_below copies.left.absolute isPath)
          member
      rw [Spot.locate_text copies.left fits.toStays isPath,
        Spot.locate_text copies.right fits.toStays isPath']
      rcases copies.walk_steps areNames fits.depth with ⟨cause, left, right⟩ | ⟨left, right⟩
      · rw [left, right]
        exact .error (.refused cause _ _)
      · rw [left, right]
        exact .ok ⟨rfl, rfl⟩

/-- The same path below two copies leads to the same there. -/
theorem find :
    SameOutcome RefusedAlike (fun found found' => found.1 = root.place ++ spot.place ∧
        found'.1 = root'.place ++ spot.place ∧ found.2 = found'.2)
      (first.find here (spot.text root)) (second.find there (spot.text root')) := by
  have located := copies.locate here there fits fits'
  have same := copies.same spot.place
  rw [Disk.find, Disk.find]
  revert located
  generalize first.locate here (spot.text root) = left
  generalize second.locate there (spot.text root') = right
  rintro (⟨rfl, rfl⟩ | ⟨⟨cause, path, path'⟩ | ⟨fault, fault'⟩⟩)
  · simp only [same]
    cases second.entryAt (root'.place ++ spot.place) with
    | none => exact .error (.refused _ _ _)
    | some entry => exact .ok ⟨rfl, rfl, rfl⟩
  · exact .error (.refused cause path path')
  · exact .error (.notAPath fault fault')

theorem hasEntry_eq :
    first.hasEntry here (spot.text root) = second.hasEntry there (spot.text root') := by
  have found := copies.find here there fits fits'
  rw [hasEntry, hasEntry]
  revert found
  generalize first.find here (spot.text root) = left
  generalize second.find there (spot.text root') = right
  rintro (_ | _) <;> rfl

theorem hasFile_eq :
    first.hasFile here (spot.text root) = second.hasFile there (spot.text root') := by
  have found := copies.find here there fits fits'
  rw [hasFile, hasFile]
  revert found
  generalize first.find here (spot.text root) = left
  generalize second.find there (spot.text root') = right
  rintro (@⟨⟨_, entry⟩, ⟨_, entry'⟩, _, _, equal⟩ | _)
  · obtain rfl : entry = entry' := equal
    cases entry <;> rfl
  · rfl

theorem hasFolder_eq :
    first.hasFolder here (spot.text root) = second.hasFolder there (spot.text root') := by
  have found := copies.find here there fits fits'
  rw [hasFolder, hasFolder]
  revert found
  generalize first.find here (spot.text root) = left
  generalize second.find there (spot.text root') = right
  rintro (@⟨⟨_, entry⟩, ⟨_, entry'⟩, _, _, equal⟩ | _)
  · obtain rfl : entry = entry' := equal
    cases entry <;> rfl
  · rfl

/-- The file at the same path below two copies has the same content. -/
theorem read :
    SameOutcome RefusedAlike Eq (first.read here (spot.text root))
      (second.read there (spot.text root')) := by
  have found := copies.find here there fits fits'
  rw [Disk.read, Disk.read]
  revert found
  generalize first.find here (spot.text root) = left
  generalize second.find there (spot.text root') = right
  rintro (@⟨⟨_, entry⟩, ⟨_, entry'⟩, _, _, equal⟩ | ⟨⟨cause, path, path'⟩ | ⟨fault, fault'⟩⟩)
  · obtain rfl : entry = entry' := equal
    cases entry with
    | folder => exact .error (.refused _ _ _)
    | file content => exact .ok rfl
  · exact .error (.refused cause path path')
  · exact .error (.notAPath fault fault')

theorem readText :
    SameOutcome UnreadableAlike Eq (first.readText here (spot.text root))
      (second.readText there (spot.text root')) := by
  have content := copies.read here there fits fits'
  rw [Disk.readText, Disk.readText]
  revert content
  generalize first.read here (spot.text root) = left
  generalize second.read there (spot.text root') = right
  rintro (⟨rfl⟩ | refused)
  · simp only
    split
    · exact .error (.undecodable _)
    · exact .ok rfl
  · exact .error (.disk refused)

end AreCopies

end Disk

end ApiDocs
