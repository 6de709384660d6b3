/-!
# Symbols and texts

A text is a list of symbols.  A symbol is a character, or one half of a pair of code
units that stands alone: formats that write the characters beyond `U+FFFF` as pairs of
units let a text hold such a half, which is no character.  Symbols are ordered by
their codes, where the codes of the halves fill the gap between `U+D7FF` and `U+E000`.

The main statements say that a symbol is determined by its code, and that every code
up to `U+10FFFF` is the code of a symbol.
-/

namespace ApiDocs

/-- A character, or half of a pair that stands alone. -/
inductive Symbol where
  | char (c : Char)
  /-- A half, known by its distance from the first one. -/
  | half (offset : Fin 0x800)
  deriving DecidableEq, Repr

/-- A text. -/
abbrev Text := List Symbol

namespace Symbol

instance : Inhabited Symbol := ⟨.char ' '⟩

instance : Coe Char Symbol := ⟨.char⟩

/-- The code of a symbol. -/
def code : Symbol → Nat
  | .char c => c.toNat
  | .half offset => 0xD800 + offset.val

/-- The symbol with a code; codes above the last one give the null character. -/
def ofCode (code : Nat) : Symbol :=
  if inGap : 0xD800 ≤ code ∧ code < 0xE000 then .half ⟨code - 0xD800, by omega⟩
  else .char (Char.ofNat code)

/-- The code of a character is below the gap or above it. -/
theorem toNat_char_cases (c : Char) :
    c.toNat < 0xD800 ∨ (0xE000 ≤ c.toNat ∧ c.toNat < 0x110000) := by
  have valid := c.valid
  have same : c.val.toNat = c.toNat := rfl
  simp only [UInt32.isValidChar, Nat.isValidChar] at valid
  rw [same] at valid
  omega

/-- A symbol is determined by its code. -/
@[simp]
theorem ofCode_code (symbol : Symbol) : ofCode symbol.code = symbol := by
  cases symbol with
  | char c =>
      have outside : ¬(0xD800 ≤ c.toNat ∧ c.toNat < 0xE000) := by
        have := toNat_char_cases c
        omega
      simp [ofCode, code, outside]
  | half offset =>
      have inside : 0xD800 ≤ 0xD800 + offset.val ∧ 0xD800 + offset.val < 0xE000 := by
        have := offset.isLt
        omega
      simp [ofCode, code, inside]

/-- Every code up to the last one is the code of a symbol. -/
theorem code_ofCode {value : Nat} (bound : value < 0x110000) : (ofCode value).code = value := by
  unfold ofCode
  split
  · rename_i inGap
    simp only [code]
    omega
  · rename_i outside
    have valid : value.isValidChar := by
      simp only [Nat.isValidChar]
      omega
    have same : Char.ofNat value = Char.ofNatAux value valid := dif_pos valid
    simp only [code]
    rw [same]
    rfl

instance : LT Symbol := ⟨fun first second => first.code < second.code⟩

instance : LE Symbol := ⟨fun first second => first.code ≤ second.code⟩

instance (first second : Symbol) : Decidable (first < second) :=
  inferInstanceAs (Decidable (first.code < second.code))

instance (first second : Symbol) : Decidable (first ≤ second) :=
  inferInstanceAs (Decidable (first.code ≤ second.code))

/-- Whether a symbol is half of a pair. -/
def isHalf : Symbol → Bool
  | .char _ => false
  | .half _ => true

/-- Whether a symbol is a digit of ASCII. -/
def isDigit : Symbol → Bool
  | .char c => c.isDigit
  | .half _ => false

/-- Whether a symbol is a letter of ASCII. -/
def isAlpha : Symbol → Bool
  | .char c => c.isAlpha
  | .half _ => false

/-- Whether a symbol is a capital letter of ASCII. -/
def isUpper : Symbol → Bool
  | .char c => c.isUpper
  | .half _ => false

/-- Whether a symbol is a letter or a digit of ASCII. -/
def isAlphanum : Symbol → Bool
  | .char c => c.isAlphanum
  | .half _ => false

/-- The small letter of a capital letter of ASCII; other symbols stay. -/
def toLower : Symbol → Symbol
  | .char c => .char c.toLower
  | .half offset => .half offset

/-- The capital letter of a small letter of ASCII; other symbols stay. -/
def toUpper : Symbol → Symbol
  | .char c => .char c.toUpper
  | .half offset => .half offset

end Symbol

namespace Text

/-- The text of a list of characters. -/
def ofChars (chars : List Char) : Text :=
  chars.map .char

/-- The text of a string. -/
def ofString (string : String) : Text :=
  ofChars string.toList

instance : Coe String Text := ⟨ofString⟩

/-- The characters of a text, if it has no halves. -/
def chars? : Text → Option (List Char)
  | [] => some []
  | .char c :: rest => (chars? rest).map (c :: ·)
  | .half _ :: _ => none

/-- A text without halves as a string. -/
def string? (text : Text) : Option String :=
  (chars? text).map String.ofList

/-- The text that repeats one symbol. -/
def copies (count : Nat) (symbol : Symbol) : Text :=
  List.replicate count symbol

@[simp]
theorem length_copies (count : Nat) (symbol : Symbol) : (copies count symbol).length = count := by
  simp [copies]

/-- Joins pieces with one separator between neighbours. -/
def joinWith (separator : Text) : List Text → Text
  | [] => []
  | [piece] => piece
  | piece :: others => piece ++ separator ++ joinWith separator others

/-- Whether a text comes before another or is the same, by the codes of their symbols. -/
def atMost : Text → Text → Bool
  | [], _ => true
  | _ :: _, [] => false
  | first :: left, second :: right =>
    first < second || (first == second && atMost left right)

@[simp]
theorem atMost_nil (text : Text) : atMost [] text = true := by
  cases text <;> rfl

/-- Every text is at most itself. -/
@[simp]
theorem atMost_self (text : Text) : atMost text text = true := by
  induction text with
  | nil => rfl
  | cons first rest ih => simp [atMost, ih]

/-! ### Classes of characters

A class of characters outside ASCII is a list of ranges of codes, first and last code included, in
increasing order.
-/

/-- Whether one of the ranges holds the code point. -/
def inRanges (ranges : Array (Nat × Nat)) (code : Nat) : Bool :=
  ranges.any fun (first, last) => first ≤ code && code ≤ last

end Text

/-- Whether a symbol is one of the characters of a text. -/
def Symbol.isOneOf (symbol : Symbol) (choice : Text) : Bool :=
  choice.contains symbol

end ApiDocs
