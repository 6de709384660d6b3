import Mathlib.Data.List.Basic
import ApiDocs.Number.Notation

/-!
# Texts cut at a symbol

Joining texts with a separator can be undone only as far as the texts do not have
the separator themselves.  Cutting at the separator says how far that is: two joined
texts are equal exactly if the pieces of their parts are, taken in a row.

Decimal numbers never have a dash, so a number behind the last dash of a text can
always be read back.
-/

namespace ApiDocs.Text

theorem joinWith_cons (separator piece : Text) {others : List Text} (nonempty : others ≠ []) :
    joinWith separator (piece :: others) =
      piece ++ separator ++ joinWith separator others := by
  cases others with
  | nil => exact absurd rfl nonempty
  | cons next rest => rfl

/-- Joining two lists is joining the two joined texts. -/
theorem joinWith_append (separator : Text) {first second : List Text}
    (firstNonempty : first ≠ []) (secondNonempty : second ≠ []) :
    joinWith separator (first ++ second) =
      joinWith separator first ++ separator ++ joinWith separator second := by
  induction first with
  | nil => exact absurd rfl firstNonempty
  | cons piece others ih =>
      cases others with
      | nil => exact joinWith_cons separator piece secondNonempty
      | cons next rest =>
          have joined := ih (List.cons_ne_nil next rest)
          rw [List.cons_append, joinWith_cons separator piece (by simp), joined,
            joinWith_cons separator piece (List.cons_ne_nil next rest)]
          simp only [List.append_assoc]

/-- Texts that are kept where they are first seen are distinct. -/
theorem nodup_eraseDups (texts : List Text) : texts.eraseDups.Nodup := by
  match texts with
  | [] => exact List.nodup_nil
  | text :: others =>
      rw [List.eraseDups_cons, List.nodup_cons]
      exact ⟨by simp, nodup_eraseDups _⟩
termination_by texts.length
decreasing_by exact Nat.lt_succ_of_le (List.length_filter_le _ _)

theorem mem_joinWith_of_mem {separator text : Text} {list : List Text} {symbol : Symbol}
    (member : text ∈ list) (inText : symbol ∈ text) : symbol ∈ joinWith separator list := by
  induction list with
  | nil => cases member
  | cons first rest ih =>
      rcases eq_or_ne rest [] with rfl | nonempty
      · rwa [List.mem_singleton.mp member] at inText
      · rw [joinWith_cons _ _ nonempty]
        rcases List.mem_cons.mp member with rfl | inRest
        · simp [inText]
        · simp [ih inRest]

theorem not_mem_joinWith {separator : Text} {list : List Text} {symbol : Symbol}
    (notSeparator : symbol ∉ separator)
    (absent : ∀ text ∈ list, symbol ∉ text) : symbol ∉ joinWith separator list := by
  induction list with
  | nil => exact List.not_mem_nil
  | cons text rest ih =>
      have own := absent text List.mem_cons_self
      have others := ih fun other member => absent other (List.mem_cons_of_mem text member)
      rcases eq_or_ne rest [] with rfl | nonempty
      · exact own
      · rw [joinWith_cons _ _ nonempty]
        simp only [List.mem_append, not_or]
        exact ⟨⟨own, notSeparator⟩, others⟩

/-- A joined text ends with its last piece. -/
theorem exists_joinWith_concat (separator : Text) (front : List Text) (last : Text) :
    ∃ before, joinWith separator (front ++ [last]) = before ++ last := by
  rcases eq_or_ne front [] with rfl | nonempty
  · exact ⟨[], rfl⟩
  · exact ⟨_, joinWith_append separator nonempty (List.cons_ne_nil last [])⟩

variable (symbol : Symbol)

/-- A text is determined by its pieces. -/
theorem splitOn_injective : Function.Injective fun text : Text => text.splitOn symbol := by
  intro left right same
  have joined := congrArg (List.intercalate [symbol]) same
  simpa only [List.intercalate_splitOn] using joined

/-- The pieces on both sides of a separator are those of the two sides. -/
theorem splitOn_append_separator (left right : Text) :
    (left ++ [symbol] ++ right).splitOn symbol =
      left.splitOn symbol ++ right.splitOn symbol := by
  rw [List.append_assoc]
  exact List.splitOn_append_cons_self left right

/-- The pieces of joined texts are the pieces of the texts in a row. -/
theorem splitOn_joinWith {list : List Text} (nonempty : list ≠ []) :
    (joinWith [symbol] list).splitOn symbol =
      list.flatMap fun text => text.splitOn symbol := by
  induction list with
  | nil => exact absurd rfl nonempty
  | cons first rest ih =>
      cases rest with
      | nil => simp [joinWith]
      | cons second others =>
          rw [joinWith, splitOn_append_separator, ih (List.cons_ne_nil second others)]
          · rfl
          · simp

/-- Texts without the separator are the pieces of what they are joined to. -/
theorem splitOn_joinWith_of_not_mem {list : List Text} (nonempty : list ≠ [])
    (absent : ∀ text ∈ list, symbol ∉ text) :
    (joinWith [symbol] list).splitOn symbol = list := by
  rw [splitOn_joinWith symbol nonempty]
  have whole : list.map (fun text => text.splitOn symbol) = list.map fun text => [text] :=
    List.map_congr_left fun text member => List.splitOn_eq_singleton (absent text member)
  rw [List.flatMap_def, whole, ← List.flatMap_def, List.flatMap_singleton']

/-- Pieces do not have the symbol at which a text was cut. -/
theorem not_mem_of_mem_splitOn {text piece : Text} (member : piece ∈ text.splitOn symbol) :
    symbol ∉ piece := by
  induction text generalizing piece with
  | nil =>
      obtain rfl : piece = [] := by simpa using member
      exact List.not_mem_nil
  | cons first rest ih =>
      rw [List.splitOn_cons_eq_if_modifyHead] at member
      split at member
      · rcases List.mem_cons.mp member with rfl | inRest
        · exact List.not_mem_nil
        · exact ih inRest
      · rename_i differs
        obtain ⟨head, others, cut⟩ := List.exists_cons_of_ne_nil (List.splitOn_ne_nil symbol rest)
        rw [cut, List.modifyHead_cons] at member
        rcases List.mem_cons.mp member with rfl | inOthers
        · have notFirst : symbol ≠ first := fun same => differs (by simp [same])
          have notHead : symbol ∉ head := ih (by rw [cut]; exact List.mem_cons_self)
          exact List.not_mem_cons_of_ne_of_not_mem notFirst notHead
        · exact ih (by rw [cut]; exact List.mem_cons_of_mem _ inOthers)

/-- The pieces of a text, joined again, are the text. -/
theorem joinWith_splitOn (text : Text) : joinWith [symbol] (text.splitOn symbol) = text := by
  apply splitOn_injective symbol
  exact splitOn_joinWith_of_not_mem symbol (List.splitOn_ne_nil symbol text)
    fun _ member => not_mem_of_mem_splitOn symbol member

end ApiDocs.Text

namespace ApiDocs.Number

theorem intText_natCast (value : Nat) : intText (value : Int) = digitsOf value := by
  have nonnegative : ¬(value : Int) < 0 := by omega
  rw [intText, if_neg nonnegative, Int.natAbs_natCast]

/-- A natural number can be read back from its digits. -/
theorem digitsOf_injective : Function.Injective digitsOf := by
  have readBack :
      Function.LeftInverse (fun digits => Nat.ofDigitChars 10 digits 0) (Nat.toDigits 10) :=
    fun _ => Nat.ofDigitChars_ten_toDigits
  have symbols : Function.Injective (List.map Symbol.char) :=
    List.map_injective_iff.mpr fun _ _ => Symbol.char.inj
  exact symbols.comp readBack.injective

/-- The digits of a natural number are digits. -/
theorem isDigit_of_mem_digitsOf {value : Nat} {symbol : Symbol}
    (member : symbol ∈ digitsOf value) : symbol.isDigit = true := by
  obtain ⟨c, digit, rfl⟩ := List.mem_map.mp member
  exact Nat.isDigit_of_mem_toDigits (by decide) (by decide) digit

theorem dash_not_mem_digitsOf (value : Nat) : (Symbol.char '-') ∉ digitsOf value := by
  intro member
  have digit := isDigit_of_mem_digitsOf member
  revert digit
  decide

/-- A text and a number behind it can be told apart, whatever dashes the text has. -/
theorem dashed_number_inj {left right : Text} {first second : Nat} :
    left ++ "-" ++ intText first = right ++ "-" ++ intText second ↔
      left = right ∧ first = second := by
  constructor
  · intro same
    have pieces := congrArg (fun text : Text => text.splitOn (Symbol.char '-')) same
    have numberPiece (value : Nat) :
        (intText value).splitOn (Symbol.char '-') = [digitsOf value] := by
      rw [intText_natCast]
      exact List.splitOn_eq_singleton (dash_not_mem_digitsOf value)
    have cut (text : Text) (value : Nat) :
        (text ++ "-" ++ intText value).splitOn (Symbol.char '-') =
          text.splitOn (Symbol.char '-') ++ [digitsOf value] := by
      rw [← numberPiece]
      exact Text.splitOn_append_separator (Symbol.char '-') text (intText value)
    simp only [cut] at pieces
    obtain ⟨texts, numbers⟩ := List.append_inj' pieces rfl
    refine ⟨Text.splitOn_injective _ texts, digitsOf_injective ?_⟩
    exact List.head_eq_of_cons_eq numbers
  · rintro ⟨rfl, rfl⟩
    rfl

end ApiDocs.Number
