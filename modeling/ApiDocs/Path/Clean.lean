import ApiDocs.Path.Basic

/-!
# Clean paths

A clean path is an anchor and a list of names, none of them empty or `.`; the
name `..` may stand anywhere, since only the disk knows where it leads.
-/

namespace ApiDocs

/-- An anchor and the names that follow it. -/
structure CleanPath where
  anchor : Path.Anchor
  names : List Text
  deriving DecidableEq, Repr, Inhabited

namespace CleanPath

/-- Reads a path. -/
def ofText (path : Text) : CleanPath :=
  { anchor := Path.anchorOf path, names := Path.names path }

/-- Writes a path; a path without anything is the present place. -/
def text (path : CleanPath) : Text :=
  let written := path.anchor.text ++ Text.joinWith "/" path.names
  if written = "" then "." else written

/-- The anchor, if there is one, and the names. -/
def parts (path : CleanPath) : List Text :=
  match path.anchor with
  | .relative => path.names
  | anchor => anchor.text :: path.names

/-- The path without its last name. -/
def parent (path : CleanPath) : CleanPath :=
  { path with names := path.names.dropLast }

/-- A further path seen from this one; an absolute one stands alone. -/
def append (path : CleanPath) (further : Text) : CleanPath :=
  match Path.anchorOf further with
  | .relative => { path with names := path.names ++ Path.names further }
  | anchor => { anchor, names := Path.names further }

/-- The last name; none if the path has only an anchor. -/
def lastName (path : CleanPath) : Text :=
  path.names.getLastD ""

/--
The last name without its ending.  The ending begins at the last point, which is
neither the first nor the last character of the name.
-/
def stem (path : CleanPath) : Text :=
  let name := path.lastName
  let ending : Text := name.reverse.takeWhile (· != '.')
  let before := name.length - ending.length - 1
  if ending.length < name.length && 0 < before && !ending.isEmpty then
    name.take before
  else path.lastName

end CleanPath

end ApiDocs
