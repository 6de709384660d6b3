import ApiDocs.Yaml.Cursor

/-!
# Tokens of a YAML document

The indentation of a document is made explicit by tokens that open and close
block collections; everything else is a token of the text.
-/

namespace ApiDocs.Yaml

/-- A tag as written: a handle, if there is one, and the text behind it. -/
structure TagText where
  handle : Option Text
  suffix : Text
  deriving DecidableEq, Repr, Inhabited

/-- A directive in front of a document. -/
inductive Directive where
  | version (major minor : Nat)
  | tag (handle uri : Text)
  | other
  deriving DecidableEq, Repr, Inhabited

/-- The tokens. -/
inductive Token where
  | directive (directive : Directive)
  | documentStart
  | documentEnd
  | streamEnd
  | blockSequenceStart
  | blockMappingStart
  | blockEnd
  | flowSequenceStart
  | flowSequenceEnd
  | flowMappingStart
  | flowMappingEnd
  | blockEntry
  | flowEntry
  | key
  | value
  | alias (name : Text)
  | anchor (name : Text)
  | tag (tag : TagText)
  | scalar (text : Text) (plain : Bool)
  deriving DecidableEq, Repr, Inhabited

end ApiDocs.Yaml
