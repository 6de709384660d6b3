import ApiDocs.Proofs.Glob.Levels
import ApiDocs.Proofs.Glob.Match

/-!
# Paths that literal patterns leave out

A pattern leaves a path out if it fits the path, a folder above it, or the end of one of them.  For
patterns without wildcards this is one question about texts: whether the pattern, without the
slashes at its end and put between two slashes, occurs in the path between two slashes.  It is the
same to say that the pieces of the pattern stand among the pieces of the path, one after the other:
a pattern never takes a part of a piece.
-/

namespace ApiDocs

namespace Text

/-! ## Texts between separators -/

variable {separator : Symbol} {piece text : Text}

/-- Between separators a text occurs at both ends, at the beginning, at the end or inside. -/
theorem between_infix_between_iff :
    separator :: (piece ++ [separator]) <:+: separator :: (text ++ [separator]) ↔
      text = piece ∨ piece ++ [separator] <+: text ∨ separator :: piece <:+ text ∨
        separator :: (piece ++ [separator]) <:+: text := by
  have atStart : separator :: (piece ++ [separator]) <+: separator :: (text ++ [separator]) ↔
      text = piece ∨ piece ++ [separator] <+: text := by
    rw [List.cons_prefix_cons, List.prefix_concat_iff, List.append_left_inj]
    simp [eq_comm]
  have atEnd : separator :: (piece ++ [separator]) <:+ text ++ [separator] ↔
      separator :: piece <:+ text := by
    rw [← List.cons_append, ← List.reverse_prefix, List.reverse_concat, List.reverse_concat,
      List.cons_prefix_cons, List.reverse_prefix]
    simp
  rw [List.infix_cons_iff, atStart, List.infix_concat_iff, atEnd, or_assoc]

theorem flatMap_concat_eq_joinWith {list : List Text} (nonempty : list ≠ []) :
    list.flatMap (· ++ [separator]) = joinWith [separator] list ++ [separator] := by
  induction list with
  | nil => exact absurd rfl nonempty
  | cons first rest ih =>
      rcases eq_or_ne rest [] with rfl | nonempty
      · simp [joinWith]
      · rw [List.flatMap_cons, joinWith_cons _ _ nonempty, ih nonempty]
        simp only [List.append_assoc]

/-- Separators behind texts and one in front are separators in front of them and one behind. -/
theorem cons_flatMap_concat (separator : Symbol) (list : List Text) :
    separator :: list.flatMap (· ++ [separator]) =
      list.flatMap (separator :: ·) ++ [separator] := by
  induction list with
  | nil => rfl
  | cons first rest ih => simp [← ih]

theorem flatMap_concat_splitOn (separator : Symbol) (text : Text) :
    (text.splitOn separator).flatMap (· ++ [separator]) = text ++ [separator] := by
  rw [flatMap_concat_eq_joinWith (List.splitOn_ne_nil separator text), joinWith_splitOn]

theorem infix_between_of_pieces
    (inRow : piece.splitOn separator <:+: text.splitOn separator) :
    separator :: (piece ++ [separator]) <:+: separator :: (text ++ [separator]) := by
  obtain ⟨front, back, cut⟩ := inRow
  refine ⟨front.flatMap (separator :: ·), back.flatMap (· ++ [separator]), ?_⟩
  have joined := flatMap_concat_splitOn separator text
  rw [← cut, List.flatMap_append, List.flatMap_append, flatMap_concat_splitOn] at joined
  calc front.flatMap (separator :: ·) ++ separator :: (piece ++ [separator]) ++
        back.flatMap (· ++ [separator])
    _ = front.flatMap (separator :: ·) ++ [separator] ++ (piece ++ [separator]) ++
          back.flatMap (· ++ [separator]) := by simp
    _ = separator :: front.flatMap (· ++ [separator]) ++ (piece ++ [separator]) ++
          back.flatMap (· ++ [separator]) := by rw [cons_flatMap_concat]
    _ = separator :: (text ++ [separator]) := by
          rw [← joined, List.cons_append, List.cons_append]

theorem infix_pieces_of_between
    (occurs : separator :: (piece ++ [separator]) <:+: separator :: (text ++ [separator])) :
    piece.splitOn separator <:+: text.splitOn separator := by
  obtain ⟨front, back, joined⟩ := occurs
  obtain ⟨first, others, isFront⟩ :=
    List.exists_cons_of_ne_nil (List.splitOn_ne_nil separator front)
  obtain ⟨before, last, isBack⟩ :=
    (List.eq_nil_or_concat' (back.splitOn separator)).resolve_left
      (List.splitOn_ne_nil separator back)
  -- On both sides the first and the last piece are what stands outside of the separators.
  have cut : first :: (others ++ piece.splitOn separator ++ before ++ [last]) =
      [] :: (text.splitOn separator ++ [[]]) := by
    calc first :: (others ++ piece.splitOn separator ++ before ++ [last])
      _ = front.splitOn separator ++ (piece.splitOn separator ++ back.splitOn separator) := by
          rw [isFront, isBack]
          simp
      _ = (front ++ separator :: (piece ++ separator :: back)).splitOn separator := by
          rw [List.splitOn_append_cons_self, List.splitOn_append_cons_self]
      _ = ([] ++ separator :: (text ++ separator :: [])).splitOn separator := by
          rw [List.nil_append, ← joined]
          simp
      _ = [] :: (text.splitOn separator ++ [[]]) := by
          rw [List.splitOn_append_cons_self, List.splitOn_append_cons_self, List.splitOn_nil]
          rfl
  obtain ⟨whole, -⟩ := List.append_inj' (List.cons.inj cut).2 rfl
  exact ⟨others, before, whole⟩

/-- The pieces of a text stand in a row in another text exactly if it occurs there as a whole. -/
theorem splitOn_infix_splitOn_iff :
    piece.splitOn separator <:+: text.splitOn separator ↔
      separator :: (piece ++ [separator]) <:+: separator :: (text ++ [separator]) :=
  ⟨infix_between_of_pieces, infix_pieces_of_between⟩

end Text

namespace Path

variable {path whole : Text}

/-- The path between two slashes. -/
def betweenSlashes (path : Text) : Text :=
  "/" ++ path ++ "/"

/-- The second path is the first one with slashes behind it; the first one ends in none. -/
structure AddsSlashes (whole path : Text) : Prop where
  exists_count : ∃ count, path = whole ++ List.replicate count (Symbol.char '/')
  not_endsInSlash : endsInSlash whole = false

theorem AddsSlashes.withoutEndSlashes_eq (adds : AddsSlashes whole path) :
    withoutEndSlashes path = whole := by
  obtain ⟨count, rfl⟩ := adds.exists_count
  have slashes : ∀ symbol ∈ List.replicate count (Symbol.char '/'),
      (symbol == Symbol.char '/') = true := by simp
  rw [withoutEndSlashes, Text.dropEndWhile_append slashes]
  rcases List.eq_nil_or_concat' whole with rfl | ⟨front, last, rfl⟩
  · rfl
  · apply Text.dropEndWhile_concat
    rw [beq_eq_false_iff_ne]
    rintro rfl
    exact Bool.false_ne_true (adds.not_endsInSlash.symm.trans (endsInSlash_iff.mpr ⟨front, rfl⟩))

/-- Every path is one without slashes at its end with slashes behind it. -/
theorem addsSlashes_withoutEndSlashes (path : Text) :
    AddsSlashes (withoutEndSlashes path) path where
  exists_count := by
    let slashes := path.rtakeWhile (· == Symbol.char '/')
    have same : slashes = List.replicate slashes.length (Symbol.char '/') :=
      List.eq_replicate_iff.mpr ⟨rfl, fun symbol member => by
        simpa using List.mem_rtakeWhile_imp member⟩
    refine ⟨slashes.length, ?_⟩
    rw [← same, withoutEndSlashes, Text.dropEndWhile_eq_rdropWhile,
      List.rdropWhile_append_rtakeWhile]
  not_endsInSlash := by
    rw [Bool.eq_false_iff]
    intro ends
    obtain ⟨front, cut⟩ := endsInSlash_iff.mp ends
    rw [withoutEndSlashes, Text.dropEndWhile_eq_rdropWhile] at cut
    have stays := List.rdropWhile_idempotent (· == Symbol.char '/') path
    rw [cut] at stays
    have drops := List.rdropWhile_concat_pos (· == Symbol.char '/') front (Symbol.char '/') (by simp)
    have shorter := (List.rdropWhile_prefix (· == Symbol.char '/') front).length_le
    rw [← drops, stays, List.length_append] at shorter
    exact Nat.not_succ_le_self _ shorter

theorem addsSlashes_iff : AddsSlashes whole path ↔ withoutEndSlashes path = whole :=
  ⟨AddsSlashes.withoutEndSlashes_eq, fun same => same ▸ addsSlashes_withoutEndSlashes path⟩

theorem AddsSlashes.hasMagic_eq_false (adds : AddsSlashes whole path)
    (plain : Wildcard.hasMagic path = false) : Wildcard.hasMagic whole = false := by
  obtain ⟨count, rfl⟩ := adds.exists_count
  rw [CleanPath.hasMagic_append, Bool.or_eq_false_iff] at plain
  exact plain.1

end Path

namespace Wildcard

variable {text whole : Text}

/-- The four forms in which a literal is tried take the paths that have it between slashes. -/
theorem fitsText_forms_iff (plain : hasMagic whole = false) :
    (fitsText whole text || fitsText (whole ++ "/*") text || fitsText ("*/" ++ whole) text ||
        fitsText ("*/" ++ whole ++ "/*") text) = true ↔
      Path.betweenSlashes whole <:+: Path.betweenSlashes text := by
  have slash : hasMagic "/" = false := rfl
  have isBelow : fitsText (whole ++ "/*") text = true ↔ whole ++ [.char '/'] <+: text := by
    have plainBehind : hasMagic (whole ++ "/") = false := by
      rw [CleanPath.hasMagic_append, plain, slash, Bool.or_false]
    have written : whole ++ ("/*" : Text) = whole ++ "/" ++ "*" :=
      (List.append_assoc whole "/" "*").symm
    rw [written]
    exact fitsText_append_run_iff plainBehind
  have endsSo : fitsText ("*/" ++ whole) text = true ↔ .char '/' :: whole <:+ text := by
    have plainFront : hasMagic ("/" ++ whole) = false := by
      rw [CleanPath.hasMagic_append, plain, slash, Bool.or_false]
    refine (fitsText_run_iff plainFront).trans (Text.endsWith_iff.trans ?_)
    exact exists_congr fun _ => eq_comm
  have hasInside : fitsText ("*/" ++ whole ++ "/*") text = true ↔
      .char '/' :: (whole ++ [.char '/']) <:+: text := by
    have plainBetween : hasMagic ("/" ++ whole ++ "/") = false := by
      rw [CleanPath.hasMagic_append, CleanPath.hasMagic_append, plain, slash, Bool.or_false,
        Bool.or_false]
    have written : ("*/" ++ whole ++ "/*" : Text) =
        Symbol.char '*' :: ("/" ++ whole ++ "/" ++ "*" : Text) :=
      (List.append_assoc ("*/" ++ whole : Text) "/" "*").symm
    rw [written]
    exact fitsText_between_runs_iff plainBetween
  simp only [Bool.or_eq_true, or_assoc]
  rw [fitsText_literal_iff plain, isBelow, endsSo, hasInside]
  exact Text.between_infix_between_iff.symm

end Wildcard

namespace Glob

/--
Patterns without wildcards leave a path out exactly if one of them, without the slashes at its end,
occurs as a whole in the clean path: between two slashes in the path between two slashes, or, which
is the same, with its pieces one after the other among the pieces of the path.
-/
theorem literal_patterns_exclude_whole_pieces (path : Text) {patterns : List Text}
    (literal : ∀ pattern ∈ patterns, Wildcard.hasMagic pattern = false) :
    (isExcluded path patterns = true ↔
      ∃ pattern ∈ patterns, ∃ whole, Path.AddsSlashes whole pattern ∧
        Path.betweenSlashes whole <:+: Path.betweenSlashes (CleanPath.ofText path).text) ∧
    (isExcluded path patterns = true ↔
      ∃ pattern ∈ patterns, ∃ whole, Path.AddsSlashes whole pattern ∧
        Path.pieces whole <:+: Path.pieces (CleanPath.ofText path).text) := by
  have excluded : isExcluded path patterns = true ↔
      ∃ pattern ∈ patterns, ∃ whole, Path.AddsSlashes whole pattern ∧
        Path.betweenSlashes whole <:+: Path.betweenSlashes (CleanPath.ofText path).text := by
    rw [isExcluded, List.any_eq_true]
    refine exists_congr fun pattern => and_congr_right fun member => ?_
    have plain : Wildcard.hasMagic (Path.withoutEndSlashes pattern) = false :=
      (Path.addsSlashes_withoutEndSlashes pattern).hasMagic_eq_false (literal pattern member)
    rw [Wildcard.fitsText_forms_iff plain]
    simp only [Path.addsSlashes_iff, exists_eq_left']
  refine ⟨excluded, excluded.trans ?_⟩
  have samePieces (whole : Text) :
      Path.betweenSlashes whole <:+: Path.betweenSlashes (CleanPath.ofText path).text ↔
        Path.pieces whole <:+: Path.pieces (CleanPath.ofText path).text :=
    Text.splitOn_infix_splitOn_iff.symm
  simp only [samePieces]

/-- A folder with slashes behind it, and the end of the name of a folder. -/
def literalPatterns : List Text :=
  ["ternal", "src/internal//"]

theorem literalPatterns_exclude_whole_pieces :
    (∀ pattern ∈ literalPatterns, Wildcard.hasMagic pattern = false) ∧
      isExcluded "/home//src/./internal/b.ts" literalPatterns = true ∧
      isExcluded "/home/src/internal.ts" literalPatterns = false ∧
      ∃ pattern ∈ literalPatterns, ∃ whole, Path.AddsSlashes whole pattern ∧
        Path.pieces whole <:+:
          Path.pieces (CleanPath.ofText "/home//src/./internal/b.ts").text := by
  have literal : ∀ pattern ∈ literalPatterns, Wildcard.hasMagic pattern = false := by decide
  have excluded : isExcluded "/home//src/./internal/b.ts" literalPatterns = true := by
    decide +kernel
  exact ⟨literal, excluded, by decide +kernel,
    (literal_patterns_exclude_whole_pieces _ literal).2.mp excluded⟩

end Glob

end ApiDocs
