import ApiDocs.Disk.Walk
import ApiDocs.Text.Lines
import ApiDocs.Text.Utf8

/-!
# Text files

A text file holds UTF-8.  Reading one unifies the ends of its lines; writing one
keeps them as they are.
-/

namespace ApiDocs.Disk

variable {links : Bool}

/-- Why a text file cannot be read. -/
inductive TextError where
  | disk (error : DiskError)
  | undecodable (failure : Text.Utf8.Failure)
  deriving Inhabited

/-- The text of the file to which the path leads. -/
def readText (disk : Disk links) (here : Location) (path : Text) : Except TextError Text :=
  match disk.read here path with
  | .error error => .error (.disk error)
  | .ok bytes =>
    match Text.Utf8.decode bytes with
    | .error failure => .error (.undecodable failure)
    | .ok text => .ok (Text.unifyBreaks text)

end ApiDocs.Disk
