import ApiDocs.Text.Symbol

/-!
# Blanks at the ends of a text

Texts are lists of symbols.  A *blank* is a character with the white space
property of the Unicode standard, together with the four separators `U+001C` to
`U+001F`.  The module supplies the class and the three ways of cutting blanks
off a text: at its start, at its end, and at both.
-/

namespace ApiDocs.Text

/-- White space: the characters that trimming removes. -/
def isBlank (c : Symbol) : Bool :=
  let code := c.code
  (0x09 ≤ code && code ≤ 0x0D) || (0x1C ≤ code && code ≤ 0x20) || code == 0x85 ||
    code == 0xA0 || code == 0x1680 || (0x2000 ≤ code && code ≤ 0x200A) ||
    code == 0x2028 || code == 0x2029 || code == 0x202F || code == 0x205F || code == 0x3000

/-- Drops the longest end of the text that consists of characters of the class. -/
def dropEndWhile (inClass : Symbol → Bool) : Text → Text
  | [] => []
  | c :: rest =>
    match dropEndWhile inClass rest with
    | [] => if inClass c then [] else [c]
    | kept => c :: kept

@[simp]
theorem dropEndWhile_nil (inClass : Symbol → Bool) : dropEndWhile inClass [] = [] := rfl

/-- The text without the blanks it starts with. -/
def trimStart (text : Text) : Text :=
  text.dropWhile isBlank

/-- The text without the blanks it ends with. -/
def trimEnd (text : Text) : Text :=
  dropEndWhile isBlank text

/-- The text without the blanks at either end. -/
def trim (text : Text) : Text :=
  trimEnd (trimStart text)

@[simp]
theorem trimEnd_nil : trimEnd [] = [] := rfl

@[simp]
theorem trim_nil : trim [] = [] := rfl

/-- Whether the text has no character other than blanks. -/
def isBlankText (text : Text) : Bool :=
  text.all isBlank

end ApiDocs.Text
