import ApiDocs.Text.Symbol

/-!
# Pairs of code units

Some formats write a character beyond `U+FFFF` as two code units: a high half and a low
half.  A half that is not part of such a pair is a symbol of its own.
-/

namespace ApiDocs.Text

/-- Whether a code unit starts a pair for one character. -/
def isHighHalf (unit : Nat) : Bool :=
  0xD800 ≤ unit && unit ≤ 0xDBFF

/-- Whether a code unit ends a pair for one character. -/
def isLowHalf (unit : Nat) : Bool :=
  0xDC00 ≤ unit && unit ≤ 0xDFFF

/-- The character of a pair of code units. -/
def pairSymbol (high low : Nat) : Symbol :=
  .ofCode (0x10000 + (high - 0xD800) * 0x400 + (low - 0xDC00))

/-- The place of the first halves in a text: where they start, and how many follow each other. -/
structure Halves where
  position : Nat
  first : Nat
  count : Nat
  deriving DecidableEq, Repr, Inhabited

/-- The halves from the first symbol with a property on, if a symbol has it. -/
def halvesFrom? (property : Symbol → Bool) (text : Text) : Option Halves :=
  let before := text.takeWhile fun symbol => !property symbol
  match text.drop before.length with
  | [] => none
  | first :: rest => some ⟨before.length, first.code, (rest.takeWhile Symbol.isHalf).length + 1⟩

/-- The first halves in a text, if it has any. -/
def firstHalves? (text : Text) : Option Halves :=
  halvesFrom? Symbol.isHalf text

end ApiDocs.Text
