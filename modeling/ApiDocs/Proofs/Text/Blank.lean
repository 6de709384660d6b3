import Mathlib.Data.List.DropRight
import ApiDocs.Proofs.Text.Pieces
import ApiDocs.Text.Lines
import ApiDocs.Text.Blank

/-!
# Trimmed texts

Blanks at the ends of a text do not matter for trimming, and trimming a part at the end first
does not matter either.  A block of lines that is joined and trimmed may therefore have blank
lines at its start or its end, or a last line that is trimmed already.
-/

namespace ApiDocs.Text

variable {inClass : Symbol → Bool} {front back text line : Text} {symbol : Symbol}

/-! ## Dropping symbols at the end -/

theorem dropEndWhile_append (all : ∀ symbol ∈ back, inClass symbol = true) :
    dropEndWhile inClass (front ++ back) = dropEndWhile inClass front := by
  have none : ∀ {back : Text}, (∀ symbol ∈ back, inClass symbol = true) →
      dropEndWhile inClass back = [] := by
    intro back all
    induction back with
    | nil => rfl
    | cons symbol rest ih =>
        have own := all symbol List.mem_cons_self
        rw [dropEndWhile, ih fun other member => all other (List.mem_cons_of_mem _ member)]
        simp [own]
  induction front with
  | nil => exact none all
  | cons symbol rest ih => rw [List.cons_append, dropEndWhile, ih, dropEndWhile]

theorem dropEndWhile_concat (other : inClass symbol = false) :
    dropEndWhile inClass (front ++ [symbol]) = front ++ [symbol] := by
  induction front with
  | nil => simp [dropEndWhile, other]
  | cons first rest ih =>
      rw [List.cons_append, dropEndWhile, ih]
      cases rest <;> rfl

theorem dropEndWhile_eq_rdropWhile (inClass : Symbol → Bool) (text : Text) :
    dropEndWhile inClass text = text.rdropWhile inClass := by
  induction text using List.reverseRecOn with
  | nil => rfl
  | append_singleton front symbol ih =>
      rw [List.rdropWhile_concat]
      split
      · rename_i drops
        rw [dropEndWhile_append (by simpa using drops), ih]
      · rename_i stays
        exact dropEndWhile_concat (Bool.eq_false_iff.mpr stays)

/-! ## Trimming -/

theorem trimEnd_eq_rdropWhile (text : Text) : trimEnd text = text.rdropWhile isBlank :=
  dropEndWhile_eq_rdropWhile isBlank text

theorem isBlank_of_isLineBreak (breaks : isLineBreak symbol = true) : isBlank symbol = true := by
  simp only [isLineBreak, Bool.or_eq_true, beq_iff_eq] at breaks
  rcases breaks with (((((((((rfl | rfl) | rfl) | rfl) | rfl) | rfl) | rfl) | rfl) | rfl) | rfl) <;>
    rfl

theorem isBlankText_iff : isBlankText text = true ↔ ∀ symbol ∈ text, isBlank symbol = true := by
  rw [isBlankText, List.all_eq_true]

@[simp]
theorem trimEnd_eq_nil_iff : trimEnd text = [] ↔ isBlankText text = true := by
  rw [trimEnd_eq_rdropWhile, List.rdropWhile_eq_nil_iff, isBlankText_iff]

@[simp]
theorem trimStart_eq_nil_iff : trimStart text = [] ↔ isBlankText text = true := by
  rw [trimStart, List.dropWhile_eq_nil_iff, isBlankText_iff]

@[simp]
theorem trimEnd_trimEnd (text : Text) : trimEnd (trimEnd text) = trimEnd text := by
  rw [trimEnd_eq_rdropWhile, trimEnd_eq_rdropWhile, List.rdropWhile_idempotent]

/-- A text without blanks at its end is what trimming leaves. -/
theorem trimEnd_concat (other : isBlank symbol = false) :
    trimEnd (front ++ [symbol]) = front ++ [symbol] :=
  dropEndWhile_concat other

theorem trimEnd_append_of_isBlankText (blank : isBlankText back = true) :
    trimEnd (front ++ back) = trimEnd front :=
  dropEndWhile_append (isBlankText_iff.mp blank)

theorem trimEnd_subset (text : Text) : trimEnd text ⊆ text := by
  rw [trimEnd_eq_rdropWhile]
  exact (List.rdropWhile_prefix isBlank text).subset

theorem trim_subset (text : Text) : trim text ⊆ text :=
  List.Subset.trans (trimEnd_subset _) (List.dropWhile_sublist isBlank).subset

/-- Behind what trimming leaves there are only blanks. -/
theorem exists_eq_trimEnd_append (text : Text) :
    ∃ blanks, text = trimEnd text ++ blanks ∧ isBlankText blanks = true := by
  refine ⟨text.rtakeWhile isBlank, ?_, ?_⟩
  · rw [trimEnd_eq_rdropWhile, List.rdropWhile_append_rtakeWhile]
  · exact isBlankText_iff.mpr fun symbol => List.mem_rtakeWhile_imp

theorem trimEnd_append (notBlank : isBlankText back = false) :
    trimEnd (front ++ back) = front ++ trimEnd back := by
  obtain ⟨blanks, cut, areBlank⟩ := exists_eq_trimEnd_append back
  have nonempty : trimEnd back ≠ [] := by simp [notBlank]
  obtain ⟨kept, last, same⟩ := (List.eq_nil_or_concat' (trimEnd back)).resolve_left nonempty
  have lastStays : isBlank last = false := by
    have stays := List.rdropWhile_last_not isBlank back
    rw [← trimEnd_eq_rdropWhile] at stays
    simpa [same] using stays nonempty
  calc trimEnd (front ++ back)
      = trimEnd (front ++ trimEnd back) := by
        conv_lhs => rw [cut, ← List.append_assoc]
        exact trimEnd_append_of_isBlankText areBlank
    _ = front ++ trimEnd back := by
        rw [same, ← List.append_assoc, trimEnd_concat lastStays]

theorem isBlankText_append :
    isBlankText (front ++ back) = (isBlankText front && isBlankText back) := by
  simp [isBlankText]

@[simp]
theorem isBlankText_trimEnd (text : Text) : isBlankText (trimEnd text) = isBlankText text := by
  rw [Bool.eq_iff_iff, ← trimEnd_eq_nil_iff, trimEnd_trimEnd, trimEnd_eq_nil_iff]

theorem trimStart_append_of_isBlankText (blank : isBlankText front = true) :
    trimStart (front ++ back) = trimStart back :=
  List.dropWhile_append_of_pos (isBlankText_iff.mp blank)

/-- What begins with a symbol that is no blank keeps it when blanks are trimmed. -/
theorem trimStart_append_cons {rest : Text} (blank : isBlankText front = true)
    (solid : isBlank symbol = false) : trimStart (front ++ symbol :: rest) = symbol :: rest := by
  rw [trimStart_append_of_isBlankText blank, trimStart,
    List.dropWhile_cons_of_neg (by simp [solid])]

/-- Blanks in front of a text do not matter for trimming it. -/
theorem trim_append_of_isBlankText (blank : isBlankText front = true) :
    trim (front ++ back) = trim back := by
  rw [trim, trimStart_append_of_isBlankText blank, trim]

theorem trimStart_append (notBlank : isBlankText front = false) :
    trimStart (front ++ back) = trimStart front ++ back := by
  have nonempty : (front.dropWhile isBlank).isEmpty = false := by
    rw [List.isEmpty_eq_false_iff, ne_eq, ← trimStart, trimStart_eq_nil_iff, notBlank]
    exact Bool.false_ne_true
  rw [trimStart, List.dropWhile_append, nonempty]
  rfl

theorem trim_eq_nil_of_isBlankText (blank : isBlankText text = true) : trim text = [] := by
  rw [trim, trimStart_eq_nil_iff.mpr blank, trimEnd_nil]

/-- Blanks behind a text do not matter for trimming it. -/
theorem trim_append_blank (blank : isBlankText back = true) :
    trim (front ++ back) = trim front := by
  cases frontBlank : isBlankText front with
  | true =>
      rw [trim_append_of_isBlankText frontBlank, trim_eq_nil_of_isBlankText blank,
        trim_eq_nil_of_isBlankText frontBlank]
  | false =>
      rw [trim, trimStart_append frontBlank, trimEnd_append_of_isBlankText blank, trim]

/-- Whether the end of a text is trimmed before does not matter. -/
theorem trim_append_trimEnd (front back : Text) :
    trim (front ++ trimEnd back) = trim (front ++ back) := by
  obtain ⟨blanks, cut, areBlank⟩ := exists_eq_trimEnd_append back
  conv_rhs => rw [cut, ← List.append_assoc]
  rw [trim_append_blank areBlank]

@[simp]
theorem trim_trimEnd (text : Text) : trim (trimEnd text) = trim text :=
  trim_append_trimEnd [] text

/-! ## Joined lines -/

section Joined

variable {block : List Text}

theorem unlines_concat (nonempty : block ≠ []) (line : Text) :
    unlines (block ++ [line]) = unlines block ++ .char '\n' :: line := by
  rw [unlines, joinWith_append _ nonempty (List.cons_ne_nil _ _), List.append_assoc]
  rfl

/-- Trimming the end of joined lines is trimming the end of the last one. -/
theorem trimEnd_unlines_concat (block : List Text) (notBlank : isBlankText line = false) :
    trimEnd (unlines (block ++ [line])) = unlines (block ++ [trimEnd line]) := by
  rcases eq_or_ne block [] with rfl | nonempty
  · rfl
  · rw [unlines_concat nonempty, unlines_concat nonempty, List.append_cons, trimEnd_append notBlank,
      ← List.append_cons]

/-- An empty line in front of others goes with trimming. -/
theorem trim_unlines_cons_nil (block : List Text) :
    trim (unlines ([] :: block)) = trim (unlines block) := by
  rcases eq_or_ne block [] with rfl | nonempty
  · rfl
  · rw [unlines, joinWith_cons _ _ nonempty]
    exact trim_append_of_isBlankText rfl

/-- A blank line behind others goes with trimming. -/
theorem trim_unlines_concat_blank (blank : isBlankText line = true) :
    trim (unlines (block ++ [line])) = trim (unlines block) := by
  rcases eq_or_ne block [] with rfl | nonempty
  · exact trim_eq_nil_of_isBlankText blank
  · rw [unlines_concat nonempty]
    have withBreak : isBlankText (.char '\n' :: line) = true := by
      rw [isBlankText, List.all_cons, ← isBlankText, blank]
      rfl
    exact trim_append_blank withBreak

theorem trim_unlines_concat_trimEnd (block : List Text) (line : Text) :
    trim (unlines (block ++ [trimEnd line])) = trim (unlines (block ++ [line])) := by
  rcases eq_or_ne block [] with rfl | nonempty
  · exact trim_trimEnd line
  · rw [unlines_concat nonempty, unlines_concat nonempty, List.append_cons, trim_append_trimEnd,
      ← List.append_cons]

end Joined

end ApiDocs.Text
