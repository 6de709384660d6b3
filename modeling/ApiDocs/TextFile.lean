import ApiDocs.Text.Symbol

/-!
# Files to be written

A text for a path.  An existing file is replaced only if the new one says so.
-/

namespace ApiDocs

/-- A text for a path. -/
structure TextFile where
  path : Text
  content : Text
  overwrite : Bool := false
  deriving DecidableEq, Repr, Inhabited

end ApiDocs
