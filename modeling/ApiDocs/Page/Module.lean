import ApiDocs.Page.Contents
import ApiDocs.Page.Entry

/-!
# Pages of modules

The page of a module has a header, what is said about the module itself, a table of
contents, and the entries of the module grouped by category.  Categories and the
entries of a category are in alphabetical order.
-/

namespace ApiDocs.Page

/-- Texts in alphabetical order. -/
def sorted (texts : List Text) : List Text :=
  texts.mergeSort Text.atMost

/-- The section for a category. -/
def categorySection (printables : List Printable) (category : Text) : Text :=
  let entries := (printables.filter fun printable => printable.category == category).map
    Printable.text
  "# " ++ category ++ "\n\n" ++ joinBlocks (sorted entries)

/-- The entries of some things by category. -/
def contentOf (printables : List Printable) : Text :=
  let categories := sorted (printables.map Printable.category).eraseDups
  joinBlocks (categories.map (categorySection printables))

/-- The entries of a module by category. -/
def content (module : Module) : Text :=
  contentOf (Printable.ofModule module)

/-- The header of a page. -/
def header (module : Module) (order : Int) : Text :=
  "---\ntitle: " ++ Text.joinWith "/" (module.path.drop 1) ++
    "\nnav_order: " ++ Number.intText (order + 1) ++ "\nparent: Modules\n---\n\n"

/-- A paragraph of a page. -/
def paragraph (text : Text) : Text :=
  text ++ "\n\n"

/-- What is said about the module itself. -/
def overview (doc : Doc) : Text :=
  "## " ++ doc.name ++ " overview\n\n" ++
    (given doc.description).flatMap paragraph ++
    doc.examples.flatMap (fun content => paragraph (exampleBlock content)) ++
    (given doc.since).flatMap fun version => paragraph ("Added in v" ++ version)

/-- The page of the module at a position among all modules, counted from zero. -/
def text (module : Module) (order : Int) : Text :=
  let content := content module
  header module order ++ overview module.doc ++
    "---\n\n<h2 class=\"text-delta\">Table of contents</h2>\n\n" ++ Contents.ofPage content ++
    "\n\n---\n\n" ++ content ++ "\n"

end ApiDocs.Page
