import ApiDocs.Failure
import ApiDocs.Json.Reader

/-!
# The package description

A project describes itself in a JSON document, from which the name and the
homepage are taken.  Both have to be texts that are not empty.
-/

namespace ApiDocs

/-- What a project says about itself. -/
structure Package where
  name : Text
  homepage : Text
  deriving DecidableEq, Repr, Inhabited

namespace Package

/-- A text of a document that is not empty. -/
def textAt? (name : Text) (entries : Value.Entries) : Option Text :=
  match Value.lookup (.text name) entries with
  | some (.text value) => if value = "" then none else some value
  | _ => none

/-- The name and homepage among the entries of a document. -/
def ofEntries (entries : Value.Entries) : Except SettingsProblem Package :=
  match textAt? "name" entries, textAt? "homepage" entries with
  | none, _ => .error .packageWithoutName
  | some _, none => .error .packageWithoutHomepage
  | some name, some homepage => .ok { name, homepage }

/-- Reads a package description. -/
def read (document : Text) : Except Failure Package :=
  match Json.read document with
  | .error (.malformed problem index line column) =>
    .error (.settings (.packageMalformed (.malformed problem index line column)))
  | .error failure => .error (.fault (.document failure))
  | .ok (.map entries) => (ofEntries entries).mapError .settings
  | .ok _ => .error (.settings .packageNotObject)

end Package

end ApiDocs
