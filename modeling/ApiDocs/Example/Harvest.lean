import ApiDocs.Module.Basic
import ApiDocs.Number.Notation
import ApiDocs.Path.Basic
import ApiDocs.TextFile

/-!
# Examples of documented modules

Every example of a module, of its classes and their methods, and of its interfaces,
type aliases, constants and functions becomes a file of its own.  The name of the
file says where the example comes from.
-/

namespace ApiDocs.Example

/-- The folder for the files of the examples. -/
def folder (outputDir : Text) : Text :=
  Path.join outputDir "examples"

/-- The documented things of a class, with a word for their kind. -/
def ofClass (record : Class) : List (Text × Doc) :=
  let ofKind (kind : Text) (member : Callable) : Text × Doc :=
    (record.doc.name ++ kind, member.doc)
  ("class", record.doc) ::
    (record.methods.map (ofKind "-method") ++ record.staticMethods.map (ofKind "-staticmethod"))

/-- The documented things of a module whose examples are checked, with a word for their kind. -/
def documented (module : Module) : List (Text × Doc) :=
  let ofItem (kind : Text) (record : Item) : Text × Doc := (kind, record.doc)
  let ofFunction (record : Callable) : Text × Doc := ("function", record.doc)
  ("module", module.doc) ::
    (module.classes.flatMap ofClass ++ module.interfaces.map (ofItem "interface") ++
      module.typeAliases.map (ofItem "typealias") ++ module.constants.map (ofItem "constant") ++
      module.functions.map ofFunction)

/-- The name of the file for an example. -/
def fileName (path : List Text) (kind name : Text) (index : Nat) : Text :=
  Text.joinWith "-" path ++ "-" ++ kind ++ "-" ++ name ++ "-" ++ Number.intText index ++ ".ts"

/-- The file for an example. -/
def file (outputDir : Text) (path : List Text) (kind name : Text) (index : Nat)
    (content : Text) : TextFile :=
  { path := Path.join (folder outputDir) (fileName path kind name index)
    content := content ++ "\n"
    overwrite := true }

/-- The files for the examples of one documented thing. -/
def filesOf (outputDir : Text) (path : List Text) (kind : Text) (doc : Doc) :
    List TextFile :=
  doc.examples.mapIdx fun index content => file outputDir path kind doc.name index content

/-- The files for the examples of all modules. -/
def harvest (modules : List Module) (outputDir : Text) : List TextFile :=
  modules.flatMap fun module =>
    (documented module).flatMap fun (kind, doc) => filesOf outputDir module.path kind doc

end ApiDocs.Example
