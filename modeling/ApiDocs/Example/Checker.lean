import ApiDocs.Json.Writer
import ApiDocs.Path.Basic
import ApiDocs.TextFile

/-!
# What the type checker gets

The checker is started on one file that imports every example, and reads its options
from a second file beside it.
-/

namespace ApiDocs.Example

/-- The line that imports an example. -/
def importLine (file : TextFile) : Text :=
  "import './" ++ Path.baseName file.path ++ "'\n"

/-- The file that imports every example. -/
def index (files : List TextFile) : Text :=
  List.flatten (files.map importLine) ++ "\n"

/-- The file with the options of the checker. -/
def options (entries : Value.Entries) : Except Json.Unwritable Text :=
  (Json.write (.map [(.text "compilerOptions", .map entries)])).map (· ++ "\n")

end ApiDocs.Example
