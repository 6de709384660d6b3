import ApiDocs.Path.Clean
import ApiDocs.Proofs.Text.Pieces
import ApiDocs.Proofs.Text.Search

/-!
# The names of a path

The names of a path are its pieces without the empty ones and without the present
folder.  Two paths one behind the other have the names of both, however many slashes
stand between them; and a list of names can be read back from the path that it is
written as.
-/

namespace ApiDocs.Path

/-- A text that stands for itself among the names of a path. -/
structure IsName (name : Text) : Prop where
  nonempty : name ≠ []
  whole : Symbol.char '/' ∉ name
  notHere : name ≠ "."

instance (name : Text) : Decidable (IsName name) :=
  decidable_of_iff (name ≠ [] ∧ Symbol.char '/' ∉ name ∧ name ≠ ".")
    ⟨fun ⟨nonempty, whole, notHere⟩ => ⟨nonempty, whole, notHere⟩,
      fun ⟨nonempty, whole, notHere⟩ => ⟨nonempty, whole, notHere⟩⟩

variable {path first second name : Text} {list : List Text}

/-! ## Names and slashes -/

theorem isName_of_mem_names (member : name ∈ names path) : IsName name := by
  obtain ⟨isPiece, kept⟩ := List.mem_filter.mp member
  simp only [Bool.and_eq_true, Bool.not_eq_true', List.isEmpty_eq_false_iff, bne_iff_ne]
    at kept
  exact ⟨kept.1, Text.not_mem_of_mem_splitOn _ isPiece, kept.2⟩

theorem pieces_append_slash (left right : Text) :
    pieces (left ++ .char '/' :: right) = pieces left ++ pieces right :=
  List.splitOn_append_cons_self left right

/-- A path without slashes is its only piece. -/
theorem pieces_eq_singleton_iff {piece : Text} :
    pieces path = [piece] ↔ piece = path ∧ Symbol.char '/' ∉ path := by
  constructor
  · intro one
    have joined := Text.joinWith_splitOn (Symbol.char '/') path
    rw [show path.splitOn (Symbol.char '/') = [piece] from one] at joined
    obtain rfl : piece = path := joined
    have itself : piece ∈ piece.splitOn (Symbol.char '/') := by
      rw [show piece.splitOn (Symbol.char '/') = [piece] from one]
      exact List.mem_singleton_self piece
    exact ⟨rfl, Text.not_mem_of_mem_splitOn (Symbol.char '/') itself⟩
  · rintro ⟨rfl, whole⟩
    exact List.splitOn_eq_singleton whole

@[simp]
theorem names_nil : names [] = [] := rfl

@[simp]
theorem names_append_slash (left right : Text) :
    names (left ++ .char '/' :: right) = names left ++ names right := by
  simp only [names, pieces_append_slash, List.filter_append]

@[simp]
theorem names_slash (right : Text) : names (.char '/' :: right) = names right :=
  names_append_slash [] right

theorem IsName.names_eq (isName : IsName name) : names name = [name] := by
  have one : pieces name = [name] := pieces_eq_singleton_iff.mpr ⟨rfl, isName.whole⟩
  simp [names, one, isName.nonempty, isName.notHere]

theorem append_slash_append (left right : Text) :
    left ++ ("/" : Text) ++ right = left ++ .char '/' :: right := by
  rw [List.append_assoc]
  rfl

/-- Names can be read back from the path that they are written as. -/
theorem names_joinWith (areNames : ∀ name ∈ list, IsName name) :
    names (Text.joinWith "/" list) = list := by
  induction list with
  | nil => rfl
  | cons name rest ih =>
      have own := areNames name List.mem_cons_self
      have others := ih fun other member => areNames other (List.mem_cons_of_mem name member)
      rcases eq_or_ne rest [] with rfl | nonempty
      · exact own.names_eq
      · rw [Text.joinWith_cons _ _ nonempty, append_slash_append, names_append_slash,
          own.names_eq, others]
        rfl

/-! ## Absolute paths -/

theorem isAbsolute_iff : isAbsolute path = true ↔ ∃ rest, path = .char '/' :: rest :=
  Text.startsWith_iff

theorem isAbsolute_append (nonempty : path ≠ []) (rest : Text) :
    isAbsolute (path ++ rest) = isAbsolute path := by
  obtain ⟨symbol, others, rfl⟩ := List.exists_cons_of_ne_nil nonempty
  rw [Bool.eq_iff_iff, isAbsolute_iff, isAbsolute_iff]
  simp

theorem isAbsolute_of_not_mem (absent : Symbol.char '/' ∉ path) : isAbsolute path = false := by
  rw [Bool.eq_false_iff]
  intro absolute
  obtain ⟨rest, rfl⟩ := isAbsolute_iff.mp absolute
  exact absent List.mem_cons_self

theorem endsInSlash_iff : endsInSlash path = true ↔ ∃ front, path = front ++ [.char '/'] :=
  Text.endsWith_iff

theorem ne_nil_of_isAbsolute (absolute : isAbsolute path = true) : path ≠ [] := by
  obtain ⟨rest, rfl⟩ := isAbsolute_iff.mp absolute
  exact List.cons_ne_nil _ _

/-- Written names do not make an absolute path. -/
theorem isAbsolute_joinWith (areNames : ∀ name ∈ list, IsName name) :
    isAbsolute (Text.joinWith "/" list) = false := by
  rw [Bool.eq_false_iff]
  intro absolute
  obtain ⟨rest, written⟩ := isAbsolute_iff.mp absolute
  cases list with
  | nil => cases written
  | cons name others =>
      have own := areNames name List.mem_cons_self
      obtain ⟨symbol, tail, rfl⟩ := List.exists_cons_of_ne_nil own.nonempty
      have isFirst : symbol = .char '/' := by
        rcases eq_or_ne others [] with rfl | nonempty
        · exact (List.cons.inj written).1
        · rw [Text.joinWith_cons _ _ nonempty] at written
          exact (List.cons.inj written).1
      exact own.whole (isFirst ▸ List.mem_cons_self)

/-! ## Joined paths -/

theorem join_of_isAbsolute (absolute : isAbsolute second = true) : join first second = second := by
  rw [join, if_pos absolute]

/-- A joined path is the first one, a slash if there is none yet, and the second one. -/
theorem join_eq (first : Text) (relative : isAbsolute second = false) :
    join first second = first ++ second ∧ (first = [] ∨ endsInSlash first = true) ∨
      join first second = first ++ .char '/' :: second ∧ first ≠ [] ∧
        endsInSlash first = false := by
  rw [join, if_neg (by simp [relative])]
  by_cases closed : (first.isEmpty || endsInSlash first) = true
  · left
    rw [if_pos closed]
    simpa using closed
  · right
    rw [if_neg closed, append_slash_append]
    simpa using closed

/-- A joined path ends with the second path. -/
theorem endsWith_join (first second : Text) : Text.endsWith (join first second) second = true := by
  rw [Text.endsWith_iff]
  by_cases absolute : isAbsolute second = true
  · exact ⟨[], join_of_isAbsolute absolute⟩
  · rcases join_eq first (by simpa using absolute) with ⟨joined, -⟩ | ⟨joined, -, -⟩
    · exact ⟨first, joined⟩
    · exact ⟨first ++ [.char '/'], by simp [joined]⟩

@[simp]
theorem names_join (relative : isAbsolute second = false) :
    names (join first second) = names first ++ names second := by
  rcases join_eq first relative with ⟨joined, rfl | closed⟩ | ⟨joined, -, -⟩
  · rw [joined]
    rfl
  · obtain ⟨front, rfl⟩ := endsInSlash_iff.mp closed
    rw [joined, List.append_assoc, List.singleton_append, names_append_slash,
      names_append_slash, names_nil, List.append_nil]
  · rw [joined, names_append_slash]

/-- A slash at the end does not matter for what is joined. -/
theorem join_join_nil (nonempty : first ≠ []) (relative : isAbsolute second = false) :
    join (join first []) second = join first second := by
  have noSlash : isAbsolute [] = false := rfl
  rcases join_eq first noSlash with ⟨joined, closed⟩ | ⟨joined, -, unfinished⟩
  · rw [joined, List.append_nil]
  · have closed : endsInSlash (first ++ [Symbol.char '/']) = true := endsInSlash_iff.mpr ⟨_, rfl⟩
    rw [joined, join, if_neg (by simp [relative]), if_pos (by simp [closed]), join,
      if_neg (by simp [relative]), if_neg (by simp [nonempty, unfinished]), List.append_assoc]
    exact (List.append_assoc first ("/" : Text) second).symm

theorem isAbsolute_join_of_relative (relative : isAbsolute second = false) :
    isAbsolute (join first second) = isAbsolute first := by
  rcases join_eq first relative with ⟨joined, nothing | closed⟩ | ⟨joined, nonempty, -⟩
  · rw [joined, nothing, List.nil_append, relative]
    rfl
  · obtain ⟨front, rfl⟩ := endsInSlash_iff.mp closed
    rw [joined, isAbsolute_append (by simp) second]
  · rw [joined, isAbsolute_append nonempty]

theorem isAbsolute_join (absolute : isAbsolute first = true) :
    isAbsolute (join first second) = true := by
  by_cases alone : isAbsolute second = true
  · rwa [join_of_isAbsolute alone]
  · obtain ⟨rest, rfl⟩ := isAbsolute_iff.mp absolute
    rcases join_eq _ (by simpa using alone) with ⟨joined, -⟩ | ⟨joined, -, -⟩
    · exact isAbsolute_iff.mpr ⟨rest ++ second, joined⟩
    · exact isAbsolute_iff.mpr ⟨rest ++ .char '/' :: second, joined⟩

end ApiDocs.Path

namespace ApiDocs.CleanPath

open Path (IsName)

/-- A clean path with proper names. -/
def IsProper (path : CleanPath) : Prop :=
  ∀ name ∈ path.names, IsName name

theorem isProper_ofText (path : Text) : (ofText path).IsProper :=
  fun _ member => Path.isName_of_mem_names member

theorem IsProper.append {path : CleanPath} (proper : path.IsProper) (further : Text) :
    (path.append further).IsProper := by
  intro name member
  rw [CleanPath.append] at member
  split at member
  · rcases List.mem_append.mp member with own | added
    · exact proper name own
    · exact Path.isName_of_mem_names added
  · exact Path.isName_of_mem_names member

/-- The names of a path can be read back from its text. -/
theorem IsProper.names_text {path : CleanPath} (proper : path.IsProper) :
    Path.names path.text = path.names := by
  have written := Path.names_joinWith proper
  rw [CleanPath.text]
  split
  · rename_i nothing
    have none : Text.joinWith "/" path.names = [] := (List.append_eq_nil_iff.mp nothing).2
    rw [none] at written
    rw [← written]
    rfl
  · cases path.anchor with
    | relative => exact written
    | root => exact (Path.names_slash _).trans written
    | doubleRoot => exact ((Path.names_slash _).trans (Path.names_slash _)).trans written

end ApiDocs.CleanPath
