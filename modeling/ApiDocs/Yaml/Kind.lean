import ApiDocs.Yaml.Form

/-!
# Types of nodes

A node has the type of its tag.  Without a tag, or with a tag that leaves the type
open, it has the type of its form or the common one of its shape.
-/

namespace ApiDocs.Yaml

/-- The types of nodes. -/
inductive Kind where
  | null
  | truth
  | integer
  | float
  | binary
  | instant
  | orderedMap
  | pairs
  | set
  | text
  | sequence
  | mapping
  | merge
  | default
  | unknown
  deriving DecidableEq, Repr, Inhabited

/-- What the standard tags start with. -/
def standardTag : Text :=
  "tag:yaml.org,2002:"

/-- The type with a complete tag. -/
def Kind.ofTag (tag : Text) : Kind :=
  let known : List (Text × Kind) :=
    [("null", .null), ("bool", .truth), ("int", .integer), ("float", .float), ("binary", .binary),
      ("timestamp", .instant), ("omap", .orderedMap), ("pairs", .pairs), ("set", .set),
      ("str", .text), ("seq", .sequence), ("map", .mapping), ("merge", .merge),
      ("value", .default)]
  match known.find? fun (name, _) => standardTag ++ name == tag with
  | some (_, kind) => kind
  | none => .unknown

/-- The type of a form. -/
def Kind.ofForm : Form → Kind
  | .null => .null
  | .truth => .truth
  | .float => .float
  | .integer => .integer
  | .merge => .merge
  | .instant => .instant
  | .default => .default
  | .mark => .unknown
  | .text => .text

/-- Whether a type is loaded from the text of a scalar. -/
def Kind.isScalar : Kind → Bool
  | .null | .truth | .integer | .float | .binary | .instant | .text => true
  | _ => false

end ApiDocs.Yaml
