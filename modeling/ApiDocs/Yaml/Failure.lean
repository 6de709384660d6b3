import ApiDocs.Text.Symbol

/-!
# What can be wrong with a YAML document

A document is refused either because it is not well formed or not loadable, for
which there is one cause with no further detail, or because a scalar that claims
a type by tag or by form does not denote a value of that type.  The second kind
names what was wrong with the scalar.
-/

namespace ApiDocs.Yaml

/-- Why a document is refused. -/
inductive Failure where
  /-- The document breaks a rule of the format or has a node that cannot be loaded. -/
  | malformed
  /-- A scalar is no number or no day; the sentence says why. -/
  | invalidNumber (sentence : Text)
  /-- A number has no character at all. -/
  | emptyNumber
  /-- A scalar is no truth value. -/
  | unknownTruth (word : Text)
  /-- A scalar tagged as an instant does not have its form. -/
  | notAnInstant
  /-- An escape gives a code that is too large for a character. -/
  | codeTooLarge
  /-- An escape gives a code that does not even fit into a signed word of 32 bits. -/
  | codeBeyondWord
  /-- A group of sixty stands for more than the largest floating-point number. -/
  | numberTooLarge
  /-- A mapping with a default stands where an instant is asked for. -/
  | collectionAsInstant
  /-- A mapping is its own default. -/
  | endlessDefault
  /-- A collection is one too many inside the others. -/
  | tooDeep
  deriving DecidableEq, Repr, Inhabited

end ApiDocs.Yaml
