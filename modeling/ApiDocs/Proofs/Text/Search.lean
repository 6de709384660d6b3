import Mathlib.Data.List.Flatten
import ApiDocs.Text.Search

/-!
# Beginnings, endings and pieces of texts

What the searches for a beginning, for an ending and for a piece find, said by appending; and what
a scan does that replaces pieces.
-/

namespace ApiDocs.Text

variable {text pattern : Text}

theorem afterPrefix?_eq_some_iff {rest : Text} :
    afterPrefix? pattern text = some rest ↔ text = pattern ++ rest := by
  induction pattern generalizing text with
  | nil => simp [eq_comm]
  | cons first pattern ih =>
      cases text with
      | nil => simp [afterPrefix?]
      | cons symbol text =>
          by_cases same : first = symbol
          · simp [afterPrefix?, same, ih]
          · simp [afterPrefix?, same, Ne.symm same]

theorem afterPrefix?_append (pattern rest : Text) :
    afterPrefix? pattern (pattern ++ rest) = some rest :=
  afterPrefix?_eq_some_iff.mpr rfl

/-- A symbol that the pattern lacks ends the search for it. -/
theorem afterPrefix?_append_cons {rest : Text} {symbol : Symbol} (absent : symbol ∉ pattern) :
    afterPrefix? pattern (text ++ symbol :: rest) =
      (afterPrefix? pattern text).map (· ++ symbol :: rest) := by
  induction pattern generalizing text with
  | nil => rfl
  | cons first pattern ih =>
      obtain ⟨differs, others⟩ := List.ne_and_not_mem_of_not_mem_cons absent
      cases text with
      | nil => exact if_neg (Ne.symm differs)
      | cons second text =>
          rw [List.cons_append, afterPrefix?, afterPrefix?, ih others]
          split <;> rfl

theorem startsWith_iff : startsWith text pattern = true ↔ ∃ rest, text = pattern ++ rest := by
  simp only [startsWith, Option.isSome_iff_exists, afterPrefix?_eq_some_iff]

theorem endsWith_iff : endsWith text pattern = true ↔ ∃ front, text = front ++ pattern := by
  simp only [endsWith, Option.isSome_iff_exists, afterPrefix?_eq_some_iff]
  constructor
  · rintro ⟨rest, reversed⟩
    refine ⟨rest.reverse, ?_⟩
    rw [← text.reverse_reverse, reversed]
    simp
  · rintro ⟨front, rfl⟩
    exact ⟨front.reverse, by simp⟩

@[simp]
theorem endsWith_append (front pattern : Text) : endsWith (front ++ pattern) pattern = true :=
  endsWith_iff.mpr ⟨front, rfl⟩

theorem occursIn_append (front : Text) (occurs : occursIn pattern text = true) :
    occursIn pattern (front ++ text) = true := by
  induction front with
  | nil => exact occurs
  | cons symbol front ih => rw [List.cons_append, occursIn, ih, Bool.or_true]

/-!
## Replacing in one scan

At the beginning of a text the scan puts out a replacement and goes on behind the piece that was
replaced, or it passes over symbols at none of which the rule applies.
-/

variable {rule : Text → Option (Text × Text)} {front rest replacement : Text}

@[simp]
theorem substitute_nil (rule : Text → Option (Text × Text)) : substitute rule [] = [] := by
  rw [substitute]

theorem substitute_cons_of_none {symbol : Symbol} (keeps : rule (symbol :: rest) = none) :
    substitute rule (symbol :: rest) = symbol :: substitute rule rest := by
  rw [substitute, keeps]

/-- Where the rule applies, the scan goes on behind the piece that is replaced. -/
theorem substitute_of_some (applies : rule text = some (replacement, rest))
    (shorter : rest.length < text.length) :
    substitute rule text = replacement ++ substitute rule rest := by
  cases text with
  | nil => cases shorter
  | cons symbol kept =>
      rw [List.length_cons, Nat.lt_succ_iff] at shorter
      rw [substitute, applies]
      exact if_pos shorter

/-- The scan passes over symbols at none of which the rule applies. -/
theorem substitute_append_of_none
    (passes : ∀ before after, front = before ++ after → after ≠ [] → rule (after ++ rest) = none) :
    substitute rule (front ++ rest) = front ++ substitute rule rest := by
  induction front with
  | nil => rfl
  | cons symbol front ih =>
      have here : rule (symbol :: front ++ rest) = none :=
        passes [] (symbol :: front) rfl (List.cons_ne_nil _ _)
      rw [List.cons_append] at here ⊢
      rw [substitute_cons_of_none here, ih]
      · rfl
      · rintro before after rfl nonempty
        exact passes (symbol :: before) after rfl nonempty

/-- A pattern of one symbol is replaced wherever the symbol stands. -/
theorem replaceAll_singleton (symbol : Symbol) (replacement text : Text) :
    replaceAll [symbol] replacement text =
      text.flatMap fun other => if other = symbol then replacement else [other] := by
  induction text with
  | nil => exact substitute_nil _
  | cons first text ih =>
      rw [List.flatMap_cons, ← ih]
      by_cases same : symbol = first
      · rw [if_pos same.symm]
        exact substitute_of_some (by simp [afterPrefix?, same]) (Nat.lt_succ_self _)
      · rw [if_neg (Ne.symm same)]
        exact substitute_cons_of_none (by simp [afterPrefix?, same])

end ApiDocs.Text
