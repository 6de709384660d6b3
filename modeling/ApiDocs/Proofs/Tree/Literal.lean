import Mathlib.Data.List.Basic
import ApiDocs.Json.Reader
import ApiDocs.Proofs.Source.Cut
import ApiDocs.Proofs.Text.Search
import ApiDocs.Tree.TypeText

/-!
# What a string literal stands for

The items of a string literal are symbols that stand for themselves and symbols behind a backslash.
Its value is a list of code units.  Some escapes take more than one item, so a literal is read item
by item, where an escape may be open.

The type of a string that cannot change is its literal in double quotes.  Changing the quotes item
by item keeps the value.  The text of a literal is changed instead, without regard to its items,
and that is the same exactly for literals in which no double quote stands behind a backslash.
-/

namespace ApiDocs

/-- The code units for a code: one, or a pair for a code beyond `U+FFFF`. -/
def codeUnits (code : Nat) : List Nat :=
  if code < 0x10000 then [code]
  else [0xD800 + (code - 0x10000) / 0x400, 0xDC00 + (code - 0x10000) % 0x400]

/-- An item of a string literal. -/
inductive LiteralItem where
  | plain (symbol : Symbol)
  /-- A symbol behind a backslash. -/
  | escaped (symbol : Symbol)
  deriving DecidableEq, Repr

/-- Which escape is open when the next item of a literal is read. -/
inductive OpenEscape where
  | none
  /-- No digit may follow `\0`. -/
  | null
  /-- Behind `\u`. -/
  | unicode
  /-- Some hexadecimal digits of a code are missing. -/
  | digits (missing code : Nat)
  /-- Inside the braces behind `\u`, with the code of the digits so far. -/
  | braces (code : Option Nat)
  deriving DecidableEq, Repr

namespace LiteralItem

/-- The item as it is written. -/
def text : LiteralItem → Text
  | plain symbol => [symbol]
  | escaped symbol => ['\\', symbol]

/-- Whether the item can stand between two quotes of the given kind. -/
def FitsIn (quote : Symbol) : LiteralItem → Prop
  | plain symbol => symbol ≠ quote ∧ symbol ≠ '\\' ∧ symbol ≠ '\n' ∧ symbol ≠ '\r'
  | escaped _ => True

instance (quote : Symbol) (item : LiteralItem) : Decidable (item.FitsIn quote) :=
  match item with
  | plain symbol =>
    inferInstanceAs (Decidable (symbol ≠ quote ∧ symbol ≠ '\\' ∧ symbol ≠ '\n' ∧ symbol ≠ '\r'))
  | escaped _ => .isTrue trivial

/-- The value of the item as a hexadecimal digit. -/
def hexValue? : LiteralItem → Option Nat
  | plain symbol => Json.hexValue? symbol
  | escaped _ => none

/-- Whether the item is a decimal digit. -/
def isDigit : LiteralItem → Bool
  | plain symbol => symbol.isDigit
  | escaped _ => false

/-- The code units for a symbol behind a backslash that stands for itself or for a control code. -/
def escapedUnits (symbol : Symbol) : List Nat :=
  if symbol = 'b' then [0x08]
  else if symbol = 't' then [0x09]
  else if symbol = 'n' then [0x0A]
  else if symbol = 'v' then [0x0B]
  else if symbol = 'f' then [0x0C]
  else if symbol = 'r' then [0x0D]
  else if symbol.code ∈ [0x0A, 0x0D, 0x2028, 0x2029] then []
  else codeUnits symbol.code

/-- Reads an item where no escape is open: its code units, and the escape that it opens. -/
def readFirst : LiteralItem → Option (List Nat × OpenEscape)
  | plain symbol => some (codeUnits symbol.code, .none)
  | escaped symbol =>
    if symbol = 'x' then some ([], .digits 2 0)
    else if symbol = 'u' then some ([], .unicode)
    else if symbol = '0' then some ([0], .null)
    else if symbol.isDigit then none
    else some (escapedUnits symbol, .none)

/-- Reads an item as the next digit of a code that has two digits or four. -/
def readDigit (missing code : Nat) (item : LiteralItem) : Option (List Nat × OpenEscape) :=
  item.hexValue?.map fun digit =>
    if missing = 1 then ([16 * code + digit], .none)
    else ([], .digits (missing - 1) (16 * code + digit))

/-- Reads an item inside the braces behind `\u`. -/
def readInBraces (code : Option Nat) (item : LiteralItem) : Option (List Nat × OpenEscape) :=
  match item.hexValue? with
  | some digit =>
    let next := 16 * code.getD 0 + digit
    if next < 0x110000 then some ([], .braces (some next)) else none
  | none => if item = plain '\x7d' then code.map fun code => (codeUnits code, .none) else none

/-- Reads the next item of a literal. -/
def read (item : LiteralItem) : OpenEscape → Option (List Nat × OpenEscape)
  | .none => item.readFirst
  | .null => if item.isDigit then none else item.readFirst
  | .unicode => if item = plain '\x7b' then some ([], .braces none) else item.readDigit 4 0
  | .digits missing code => item.readDigit missing code
  | .braces code => item.readInBraces code

/-- The code units for some items; there are none if an escape is not one of the language. -/
def units? : OpenEscape → List LiteralItem → Option (List Nat)
  | .none, [] | .null, [] => some []
  | _, [] => none
  | escape, item :: rest => do
    let (units, next) ← item.read escape
    let others ← units? next rest
    return units ++ others

end LiteralItem

/-- A string literal between two quotes of the given kind. -/
structure Literal (quote : Symbol) where
  items : List LiteralItem
  fits : ∀ item ∈ items, item.FitsIn quote

namespace Literal

variable {quote : Symbol}

/-- The literal as it is written. -/
def text (literal : Literal quote) : Text :=
  quote :: (literal.items.flatMap LiteralItem.text ++ [quote])

/-- The code units of the string for which the literal stands. -/
def value? (literal : Literal quote) : Option (List Nat) :=
  LiteralItem.units? .none literal.items

end Literal

namespace LiteralItem

variable {quote : Symbol} {item : LiteralItem} {items front : List LiteralItem} {rest : Text}

/-! ## Items can be told apart -/

/-- Items of which the text begins with that of other items begin with those items. -/
theorem exists_append_of_flatMap_text (fits : ∀ item ∈ items, item.FitsIn quote)
    (fitsFront : ∀ item ∈ front, item.FitsIn quote)
    (same : items.flatMap text = front.flatMap text ++ rest) :
    ∃ others, items = front ++ others ∧ others.flatMap text = rest := by
  induction front generalizing items with
  | nil => exact ⟨items, rfl, same⟩
  | cons first front ih =>
      obtain ⟨fitsFirst, fitsOthers⟩ := List.forall_mem_cons.mp fitsFront
      cases items with
      | nil => cases first <;> cases same
      | cons item items =>
          obtain ⟨fitsItem, fitsItems⟩ := List.forall_mem_cons.mp fits
          rw [List.flatMap_cons, List.flatMap_cons, List.append_assoc] at same
          cases item with
          | plain symbol =>
              cases first with
              | plain other =>
                  obtain ⟨rfl, behind⟩ := List.cons.inj same
                  obtain ⟨others, rfl, isRest⟩ := ih fitsItems fitsOthers behind
                  exact ⟨others, rfl, isRest⟩
              | escaped other => exact absurd (List.cons.inj same).1 fitsItem.2.1
          | escaped symbol =>
              cases first with
              | plain other => exact absurd (List.cons.inj same).1.symm fitsFirst.2.1
              | escaped other =>
                  obtain ⟨rfl, behind⟩ := List.cons.inj (List.cons.inj same).2
                  obtain ⟨others, rfl, isRest⟩ := ih fitsItems fitsOthers behind
                  exact ⟨others, rfl, isRest⟩

theorem text_ne_nil (item : LiteralItem) : item.text ≠ [] := by
  cases item <;> exact List.cons_ne_nil _ _

/-- The items of a literal are determined by its text. -/
theorem eq_of_flatMap_text_eq (fits : ∀ item ∈ items, item.FitsIn quote)
    (fitsFront : ∀ item ∈ front, item.FitsIn quote)
    (same : items.flatMap text = front.flatMap text) : items = front := by
  rw [← List.append_nil (front.flatMap text)] at same
  obtain ⟨others, rfl, none⟩ := exists_append_of_flatMap_text fits fitsFront same
  cases others with
  | nil => rw [List.append_nil]
  | cons item _ => exact absurd (List.append_eq_nil_iff.mp none).1 item.text_ne_nil

/-- Between two quotes, no text of items begins with such a quote. -/
theorem ne_quote_of_flatMap_text_eq (fits : ∀ item ∈ items, item.FitsIn quote)
    (notBackslash : quote ≠ '\\') {symbol : Symbol}
    (same : items.flatMap text = symbol :: rest) : symbol ≠ quote := by
  cases items with
  | nil => cases same
  | cons item items =>
      have fitsItem := fits item List.mem_cons_self
      rintro rfl
      cases item with
      | plain other => exact fitsItem.1 (List.cons.inj same).1
      | escaped other => exact notBackslash (List.cons.inj same).1.symm

/-! ## Changing the quotes -/

/-- An item that stood between single quotes, for double quotes. -/
def requoted : LiteralItem → LiteralItem
  | plain symbol => if symbol = '"' then escaped '"' else plain symbol
  | escaped symbol => if symbol = '\x27' then plain '\x27' else escaped symbol

/-- What is written in place of an item when a literal is put in double quotes. -/
def requotedText (item : LiteralItem) : Text :=
  if item = escaped '"' then ['\\', '\\', '"'] else item.requoted.text

theorem fitsIn_requoted (fits : item.FitsIn '\x27') : item.requoted.FitsIn '"' := by
  cases item with
  | plain symbol =>
      rw [requoted]
      split
      · trivial
      · rename_i notQuote
        exact ⟨notQuote, fits.2⟩
  | escaped symbol =>
      rw [requoted]
      split
      · decide
      · trivial

/-- What does not tell a quote behind a backslash from one without does not see the change. -/
theorem apply_requoted {α : Type} (see : LiteralItem → α)
    (double : see (escaped '"') = see (plain '"'))
    (single : see (plain '\x27') = see (escaped '\x27')) (item : LiteralItem) :
    see item.requoted = see item := by
  cases item with
  | plain symbol =>
      rw [requoted]
      split
      · rename_i isQuote
        rw [isQuote, double]
      · rfl
  | escaped symbol =>
      rw [requoted]
      split
      · rename_i isQuote
        rw [isQuote, single]
      · rfl

theorem read_requoted (item : LiteralItem) (escape : OpenEscape) :
    item.requoted.read escape = item.read escape := by
  apply apply_requoted (fun item => item.read escape)
  · cases escape <;> rfl
  · cases escape <;> rfl

/-- With other quotes, items stand for the same code units. -/
theorem units?_map_requoted (escape : OpenEscape) (items : List LiteralItem) :
    units? escape (items.map requoted) = units? escape items := by
  induction items generalizing escape with
  | nil => rfl
  | cons item items ih =>
      simp only [List.map_cons, units?, read_requoted, ih]

/-! ## Replacing in the text -/

/-- A quote behind a backslash gets rid of it, if the quote is a single one. -/
def withoutSingle (item : LiteralItem) : LiteralItem :=
  if item = escaped '\x27' then plain '\x27' else item

theorem replaceAll_single (fits : ∀ item ∈ items, item.FitsIn '\x27') :
    Text.replaceAll ['\\', '\x27'] "\x27" (items.flatMap text) =
      (items.map withoutSingle).flatMap text := by
  induction items with
  | nil => exact Text.substitute_nil _
  | cons item items ih =>
      obtain ⟨fitsItem, fitsItems⟩ := List.forall_mem_cons.mp fits
      rw [List.map_cons, List.flatMap_cons, List.flatMap_cons, ← ih fitsItems, withoutSingle]
      cases item with
      | plain symbol =>
          rw [if_neg (by simp)]
          exact Text.substitute_cons_of_none (by simp [Text.afterPrefix?, fitsItem.2.1.symm])
      | escaped symbol =>
          by_cases isSingle : symbol = '\x27'
          · rw [isSingle, if_pos rfl]
            have applies : Text.afterPrefix? ['\\', '\x27']
                (text (escaped '\x27') ++ items.flatMap text) = some (items.flatMap text) :=
              Text.afterPrefix?_eq_some_iff.mpr rfl
            have shorter : (items.flatMap text).length <
                (text (escaped '\x27') ++ items.flatMap text).length := by
              rw [List.length_append]
              exact Nat.lt_add_of_pos_left (by decide)
            exact Text.substitute_of_some (by rw [applies]; rfl) shorter
          · have notSingle : ¬escaped symbol = escaped '\x27' := by simpa using isSingle
            rw [if_neg notSingle]
            -- A backslash behind a backslash stands for itself: no single quote follows it.
            have behind :
                Text.afterPrefix? ['\\', '\x27'] (symbol :: items.flatMap text) = none := by
              rw [Option.eq_none_iff_forall_ne_some]
              intro rest found
              have same := (List.cons.inj (Text.afterPrefix?_eq_some_iff.mp found)).2
              exact ne_quote_of_flatMap_text_eq fitsItems (by decide) same rfl
            have here : Text.afterPrefix? ['\\', '\x27']
                ('\\' :: symbol :: items.flatMap text) = none := by
              simp [Text.afterPrefix?, Ne.symm isSingle]
            calc Text.replaceAll ['\\', '\x27'] "\x27" (.char '\\' :: symbol :: items.flatMap text)
              _ = .char '\\' ::
                    Text.replaceAll ['\\', '\x27'] "\x27" (symbol :: items.flatMap text) :=
                Text.substitute_cons_of_none (by rw [here]; rfl)
              _ = .char '\\' :: symbol ::
                    Text.replaceAll ['\\', '\x27'] "\x27" (items.flatMap text) :=
                congrArg (Symbol.char '\\' :: ·)
                  (Text.substitute_cons_of_none (by rw [behind]; rfl))

/-- A double quote gets a backslash in front of it. -/
def withBackslash (symbol : Symbol) : Text :=
  if symbol = '"' then ['\\', '"'] else [symbol]

/-- Both replacements in the text are one replacement of each item. -/
theorem flatMap_requotedText (items : List LiteralItem) :
    ((items.map withoutSingle).flatMap text).flatMap withBackslash =
      items.flatMap requotedText := by
  rw [List.flatMap_map, List.flatMap_assoc]
  apply List.flatMap_congr
  intro item _
  cases item with
  | plain symbol =>
      by_cases isQuote : symbol = '"'
      · subst isQuote
        decide
      · simp [withoutSingle, requotedText, requoted, text, withBackslash, isQuote]
  | escaped symbol =>
      by_cases isSingle : symbol = '\x27'
      · subst isSingle
        decide
      · by_cases isQuote : symbol = '"'
        · subst isQuote
          decide
        · simp [withoutSingle, requotedText, requoted, text, withBackslash, isQuote, isSingle]

theorem flatMap_requotedText_of_not_mem (noQuote : escaped '"' ∉ items) :
    items.flatMap requotedText = (items.map requoted).flatMap text := by
  rw [List.flatMap_map]
  apply List.flatMap_congr
  intro item member
  have other : item ≠ escaped '"' := by
    rintro rfl
    exact noQuote member
  exact if_neg other

/-- A double quote behind a backslash loses it: the text cannot be read as items any more. -/
theorem flatMap_text_ne_of_mem (fits : ∀ item ∈ items, item.FitsIn '\x27')
    (quote : escaped '"' ∈ items) {others : List LiteralItem}
    (fitsOthers : ∀ item ∈ others, item.FitsIn '"') :
    others.flatMap text ≠ items.flatMap requotedText := by
  intro same
  obtain ⟨front, back, rfl, noQuote⟩ := List.eq_append_cons_of_mem quote
  have fitsFront : ∀ item ∈ front.map requoted ++ [escaped '\\'], item.FitsIn '"' := by
    rw [List.forall_mem_append, List.forall_mem_map]
    refine ⟨fun item member => fitsIn_requoted (fits item (List.mem_append_left _ member)), ?_⟩
    exact List.forall_mem_singleton.mpr trivial
  have isText : others.flatMap text = (front.map requoted ++ [escaped '\\']).flatMap text ++
      .char '"' :: back.flatMap requotedText := by
    rw [same, List.flatMap_append, flatMap_requotedText_of_not_mem noQuote, List.flatMap_append]
    simp [requotedText, text]
  obtain ⟨behind, rfl, isBehind⟩ := exists_append_of_flatMap_text fitsOthers fitsFront isText
  rw [List.forall_mem_append] at fitsOthers
  exact ne_quote_of_flatMap_text_eq fitsOthers.2 (by decide) isBehind rfl

end LiteralItem

namespace TypeText

open LiteralItem (escaped requoted requotedText)

theorem stringLiteral_between (content : Text) :
    stringLiteral (Symbol.char '\x27' :: (content ++ [Symbol.char '\x27'])) =
      "\"" ++ Text.replaceAll "\"" ['\\', '"']
        (Text.replaceAll ['\\', '\x27'] "\x27" content) ++ "\"" := by
  simp [stringLiteral]

theorem stringLiteral_text (raw : Literal '\x27') :
    stringLiteral raw.text =
      Symbol.char '"' :: (raw.items.flatMap requotedText ++ [Symbol.char '"']) := by
  have double : ("\"" : Text) = [Symbol.char '"'] := rfl
  rw [Literal.text, stringLiteral_between, LiteralItem.replaceAll_single raw.fits, double,
    Text.replaceAll_singleton, ← LiteralItem.flatMap_requotedText]
  rfl

/-- A literal in double quotes that is put in place of another one has its items, one for one. -/
theorem items_of_text_eq {raw : Literal '\x27'} {literal : Literal '"'}
    (same : literal.text = stringLiteral raw.text) :
    escaped '"' ∉ raw.items ∧ literal.items = raw.items.map requoted := by
  rw [stringLiteral_text, Literal.text] at same
  have between : literal.items.flatMap LiteralItem.text = raw.items.flatMap requotedText :=
    List.append_cancel_right (List.cons.inj same).2
  have noQuote : escaped '"' ∉ raw.items := fun quote =>
    LiteralItem.flatMap_text_ne_of_mem raw.fits quote literal.fits between
  rw [LiteralItem.flatMap_requotedText_of_not_mem noQuote] at between
  have fits : ∀ item ∈ raw.items.map requoted, item.FitsIn '"' :=
    List.forall_mem_map.mpr fun item member => LiteralItem.fitsIn_requoted (raw.fits item member)
  exact ⟨noQuote, LiteralItem.eq_of_flatMap_text_eq literal.fits fits between⟩

/-- Without a double quote behind a backslash, another literal is put in place of a literal. -/
theorem exists_text_eq {raw : Literal '\x27'} (noQuote : escaped '"' ∉ raw.items) :
    ∃ literal : Literal '"', literal.text = stringLiteral raw.text := by
  refine ⟨⟨raw.items.map requoted, List.forall_mem_map.mpr fun item member =>
    LiteralItem.fitsIn_requoted (raw.fits item member)⟩, ?_⟩
  rw [stringLiteral_text, Literal.text, LiteralItem.flatMap_requotedText_of_not_mem noQuote]

/-- The type of a string that cannot change is its literal. -/
theorem infer_string {source : SourceBytes} {scope : Scope} {node : Node} {raw : Text}
    (isString : node.kind = "string") (shown : source.textOf node = .ok raw) :
    infer source scope true node = .ok (stringLiteral raw) := by
  cases node with
  | mk kind named start stop field children =>
      subst isString
      show (source.textOf (.mk "string" named start stop field children)).map stringLiteral = _
      rw [shown]
      rfl

/--
The type of a single-quoted string that cannot change is a literal in double quotes exactly if no
double quote stands behind a backslash in the string, and then it stands for the same string.
-/
theorem literal_type_keeps_value {source : SourceBytes} {scope : Scope} {node : Node}
    (raw : Literal '\x27') (isString : node.kind = "string")
    (shown : source.textOf node = .ok raw.text) :
    ∃ type, infer source scope true node = .ok type ∧
      ((∃ literal : Literal '"', literal.text = type) ↔ escaped '"' ∉ raw.items) ∧
      ∀ literal : Literal '"', literal.text = type → literal.value? = raw.value? := by
  refine ⟨stringLiteral raw.text, infer_string isString shown, ?_, ?_⟩
  · constructor
    · rintro ⟨literal, same⟩
      exact (items_of_text_eq same).1
    · exact exists_text_eq
  · intro literal same
    rw [Literal.value?, (items_of_text_eq same).2, LiteralItem.units?_map_requoted, Literal.value?]

/-- A string with quotes of both kinds, where one stands behind a backslash, and with codes. -/
def mixedLiteral : Literal '\x27' where
  items :=
    [.plain 'i', .plain 't', .escaped '\x27', .plain 's', .plain '"', .escaped 'x', .plain '4',
      .plain '1', .escaped 'u', .plain '\x7b', .plain '1', .plain 'F', .plain '6', .plain '0',
      .plain '0', .plain '\x7d', .plain '"', .escaped '\\', .escaped 'n']
  fits := by decide

def mixedLiteralSource : SourceBytes :=
  Text.Utf8.encode "'it\\'s\"\\x41\\u\x7b1F600\x7d\"\\\\\\n'"

def mixedLiteralNode : Node :=
  .mk "string" true 0 29 none []

theorem literal_type_of_mixedLiteral :
    mixedLiteralNode.kind = "string" ∧
      mixedLiteralSource.textOf mixedLiteralNode = .ok mixedLiteral.text ∧
      escaped '"' ∉ mixedLiteral.items ∧
      mixedLiteral.value? =
        some [0x69, 0x74, 0x27, 0x73, 0x22, 0x41, 0xD83D, 0xDE00, 0x22, 0x5C, 0x0A] ∧
      ∃ type, infer mixedLiteralSource [] true mixedLiteralNode = .ok type ∧
        ((∃ literal : Literal '"', literal.text = type) ↔ escaped '"' ∉ mixedLiteral.items) ∧
        ∀ literal : Literal '"', literal.text = type → literal.value? = mixedLiteral.value? := by
  have shown : mixedLiteralSource.textOf mixedLiteralNode = .ok mixedLiteral.text :=
    SourceBytes.decode_eq_ok_iff.mpr ⟨by decide +kernel, by decide⟩
  exact ⟨rfl, shown, by decide, by decide +kernel, literal_type_keeps_value mixedLiteral rfl shown⟩

/-- A string with two double quotes behind backslashes, as they may stand in any literal. -/
def quotedWordLiteral : Literal '\x27' where
  items := [.plain 'a', .plain ' ', .escaped '"', .plain 'b', .escaped '"']
  fits := by decide

def quotedWordSource : SourceBytes :=
  Text.Utf8.encode "'a \\\"b\\\"'"

def quotedWordNode : Node :=
  .mk "string" true 0 9 none []

/-- Each of the two quotes is left without a backslash, so that the type ends at the first one. -/
theorem type_of_quotedWordLiteral_is_no_literal :
    quotedWordSource.textOf quotedWordNode = .ok quotedWordLiteral.text ∧
      quotedWordLiteral.value? = some [0x61, 0x20, 0x22, 0x62, 0x22] ∧
      infer quotedWordSource [] true quotedWordNode = .ok "\"a \\\\\"b\\\\\"\"" ∧
      ¬∃ literal : Literal '"', literal.text = "\"a \\\\\"b\\\\\"\"" := by
  have shown : quotedWordSource.textOf quotedWordNode = .ok quotedWordLiteral.text :=
    SourceBytes.decode_eq_ok_iff.mpr ⟨by decide +kernel, by decide⟩
  have type : stringLiteral quotedWordLiteral.text = "\"a \\\\\"b\\\\\"\"" := by decide +kernel
  refine ⟨shown, by decide +kernel, ?_, ?_⟩
  · rw [infer_string rfl shown, type]
  · rintro ⟨literal, same⟩
    exact (items_of_text_eq (same.trans type.symm)).1 (by decide)

end TypeText

end ApiDocs
