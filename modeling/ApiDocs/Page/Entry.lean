import ApiDocs.Module.Basic

/-!
# Entries of a page

A page shows each thing of a module with a heading, its description, its signatures,
its examples and the version since which it exists.  A class is followed by its
members.  A deprecated thing is struck out.
-/

namespace ApiDocs.Page

/-- Joins the blocks of a page with an empty line between them. -/
def joinBlocks (blocks : List Text) : Text :=
  Text.joinWith "\n\n" blocks

/-- A piece of code. -/
def code (text : Text) : Text :=
  "```ts\n" ++ text ++ "\n```"

/-- The title of a thing. -/
def title (doc : Doc) (label : Text) : Text :=
  (if doc.deprecated then "~~" ++ doc.name ++ "~~" else doc.name) ++ label

/-- A text that is there and not empty. -/
def given (text : Option Text) : List Text :=
  match text with
  | some text => if text = "" then [] else [text]
  | none => []

/-- The block for an example. -/
def exampleBlock (content : Text) : Text :=
  "**Example**\n\n" ++ code content

/-- The entry for a thing. -/
def entry (heading : Text) (doc : Doc) (signatures : List Text) : Text :=
  joinBlocks <|
    [heading] ++ given doc.description ++
      ["**Signature**\n\n" ++ code (joinBlocks signatures)] ++
      doc.examples.map exampleBlock ++
      (given doc.since).map fun version : Text => "Added in v" ++ version

/-- The entry for a method. -/
def method (label : Text) (record : Callable) : Text :=
  entry ("### " ++ title record.doc label) record.doc record.signatures

/-- The entry for a property. -/
def property (record : Item) : Text :=
  entry ("### " ++ title record.doc " (property)") record.doc [record.signature]

/-- The entry for a class, with the entries for its members. -/
def classEntry (record : Class) : Text :=
  joinBlocks <|
    entry ("## " ++ title record.doc " (class)") record.doc [record.signature] ::
      record.staticMethods.map (method " (static method)") ++
      record.methods.map (method " (method)") ++
      record.properties.map property

/-- A thing that has an entry of its own on the page of its module. -/
inductive Printable where
  | classLike (record : Class)
  | constant (record : Item)
  | exported (record : Item)
  | function (record : Callable)
  | interface (record : Item)
  | typeAlias (record : Item)
  deriving DecidableEq, Repr, Inhabited

namespace Printable

/-- The documentation of a thing. -/
def doc : Printable → Doc
  | .classLike record => record.doc
  | .constant record => record.doc
  | .exported record => record.doc
  | .function record => record.doc
  | .interface record => record.doc
  | .typeAlias record => record.doc

/-- The entry for a thing. -/
def text : Printable → Text
  | .classLike record => classEntry record
  | .constant record => entry ("## " ++ title record.doc "") record.doc [record.signature]
  | .exported record => entry ("## " ++ title record.doc "") record.doc [record.signature]
  | .function record => entry ("## " ++ title record.doc "") record.doc record.signatures
  | .interface record =>
    entry ("## " ++ title record.doc " (interface)") record.doc [record.signature]
  | .typeAlias record =>
    entry ("## " ++ title record.doc " (type alias)") record.doc [record.signature]

/-- The category for things without one. -/
def defaultCategory : Text := "utils"

/-- The category under which a thing is shown. -/
def category (printable : Printable) : Text :=
  (given printable.doc.category).headD defaultCategory

/-- The things of a module that have an entry of their own. -/
def ofModule (module : Module) : List Printable :=
  module.classes.map .classLike ++ module.constants.map .constant ++
    module.exports.map .exported ++ module.functions.map .function ++
    module.interfaces.map .interface ++ module.typeAliases.map .typeAlias

end Printable

end ApiDocs.Page
