import ApiDocs.Number.Notation

/-!
# What can be wrong with a JSON document

A document that is not well formed is refused with the first problem and its
place: the index of a character, counted from zero, and the line and column of
that character, counted from one.  Two kinds of document are refused although they
may be well formed: those with an integer of more digits than the reader takes, and
those with arrays and objects inside each other to a greater depth than it takes.
-/

namespace ApiDocs.Json

/-- The problems of a document. -/
inductive Problem where
  | byteOrderMark
  | expectingValue
  | expectingName
  | expectingColon
  | expectingComma
  | extraData
  | unterminatedString
  | controlCharacter
  | invalidEscape
  | invalidCodeEscape
  deriving DecidableEq, Repr, Inhabited

/-- The words for a problem. -/
def Problem.words : Problem → Text
  | .byteOrderMark => "Unexpected UTF-8 BOM (decode using utf-8-sig)"
  | .expectingValue => "Expecting value"
  | .expectingName => "Expecting property name enclosed in double quotes"
  | .expectingColon => "Expecting ':' delimiter"
  | .expectingComma => "Expecting ',' delimiter"
  | .extraData => "Extra data"
  | .unterminatedString => "Unterminated string starting at"
  | .controlCharacter => "Invalid control character at"
  | .invalidEscape => "Invalid \\escape"
  | .invalidCodeEscape => "Invalid \\uXXXX escape"

/-- Why a document is refused. -/
inductive Failure where
  | malformed (problem : Problem) (index line column : Nat)
  | tooManyDigits (count : Nat)
  /-- The array or object that is one too many inside each other. -/
  | tooDeep (isObject : Bool)
  deriving DecidableEq, Repr, Inhabited

/-- How many arrays and objects may stand inside each other. -/
def depthLimit : Nat := 990

/-- The sentence for a failure. -/
def Failure.message : Failure → Text
  | .malformed problem index line column =>
    problem.words ++ ": line " ++ Number.intText line ++ " column " ++ Number.intText column ++
      " (char " ++ Number.intText index ++ ")"
  | .tooManyDigits count => Number.tooManyDigitsText count
  | .tooDeep isObject =>
    "maximum recursion depth exceeded while decoding a JSON " ++
      (if isObject then "object" else "array") ++ " from a unicode string"

/-- The failure for a problem at an index of the document. -/
def Failure.at (document : Text) (problem : Problem) (index : Nat) : Failure :=
  let before := document.take index
  let line := before.countP (· == Symbol.char '\n') + 1
  let last : Text := before.reverse.takeWhile (· != '\n')
  let column := last.length + 1
  .malformed problem index line column

end ApiDocs.Json
