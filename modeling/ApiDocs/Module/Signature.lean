import ApiDocs.Source.Basic
import ApiDocs.Text.Search
import ApiDocs.Text.Word

/-!
# Signatures

The signature of a declaration is its source text up to its body, with two changes:
qualifiers that import a type in place are left out, and an exported function is
shown as a declared one.
-/

namespace ApiDocs.Signature

/-- What follows an in-place import qualifier at the beginning of a text. -/
def afterImport? (text : Text) : Option Text :=
  match Text.afterPrefix? "import(\"" text with
  | none => none
  | some inner =>
    Text.afterPrefix? "\")." (inner.dropWhile fun c => c != '"' && c != '\n')

/-- The text without its in-place import qualifiers. -/
def withoutImports (text : Text) : Text :=
  Text.substitute (fun here => (afterImport? here).map fun rest => ([], rest)) text

/-- What follows the head of an exported function at the beginning of a text. -/
def afterExportedFunction? (text : Text) : Option Text :=
  let afterFunction? (rest : Text) : Option Text :=
    match Text.afterPrefix? "function" rest with
    | none => none
    | some rest => if Text.atWordEnd rest then some rest else none
  match Text.afterPrefix? "export " text with
  | none => none
  | some rest =>
    match Text.afterPrefix? "async " rest with
    | none => afterFunction? rest
    | some rest => afterFunction? rest

/-- An exported function shown as a declared one. -/
def declareFunction (text : Text) : Text :=
  match afterExportedFunction? text with
  | none => text
  | some rest => "export declare function" ++ rest

/-- The text of a form up to its body; a form without one loses the semicolons at its end. -/
def beforeBody (form : CallForm) : Text :=
  match form.bodyStart with
  | none =>
    Text.dropEndWhile (· == ';') (Text.trimEnd form.text)
  | some bodyStart =>
    Text.trimEnd (Text.takeSigned (bodyStart - form.start) form.text)

/-- The signatures of the overloads and of the form that stands for them. -/
def ofForms (overloads : List CallForm) (implementation : CallForm) : List Text :=
  overloads.map beforeBody ++ [beforeBody implementation]

/-- The signature of a class: its name, its type parameters and its first constructor. -/
def ofClass (declaration : ClassDeclaration) : Text :=
  let parameters : Text :=
    if declaration.typeParameters.isEmpty then ""
    else "<" ++ Text.joinWith ", " declaration.typeParameters ++ ">"
  let head := "export declare class " ++ declaration.name.getD "None" ++ parameters
  withoutImports <|
    match declaration.constructors with
    | [] => head
    | first :: _ => head ++ " \x7b " ++ beforeBody first ++ " \x7d"

/-- The signature of a variable. -/
def ofVariable (name typeText : Text) : Text :=
  withoutImports ("export declare const " ++ name ++ ": " ++ typeText)

/-- The signature of a property. -/
def ofProperty (property : PropertyDeclaration) : Text :=
  withoutImports
    ((if property.isReadonly then "readonly " else "") ++ property.name ++ ": " ++
      property.typeText)

end ApiDocs.Signature
