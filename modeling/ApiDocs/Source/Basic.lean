import ApiDocs.Text.Symbol

/-!
# Declarations of a source file

What is known of a source file once its syntax tree is read: its declarations, each
with the documentation comments in front of it.  Offsets count characters of the
source.  The text of an exported declaration begins at the word `export`.
-/

namespace ApiDocs

/-- One form of a function: a signature, or an implementation with a body. -/
structure CallForm where
  name : Option Text := none
  text : Text := ""
  start : Int := 0
  bodyStart : Option Int := none
  jsdocs : List Text := []
  deriving DecidableEq, Repr, Inhabited

/-- The comments that document a group of forms: those of its first form. -/
def documentationOf (overloads : List CallForm) (implementation : CallForm) : List Text :=
  match overloads with
  | [] => implementation.jsdocs
  | first :: _ => first.jsdocs

/-- A function with its overloads. -/
structure FunctionDeclaration where
  implementation : CallForm := {}
  overloads : List CallForm := []
  exported : Bool := false
  deriving DecidableEq, Repr, Inhabited

/-- The name of a function. -/
def FunctionDeclaration.name (function : FunctionDeclaration) : Option Text :=
  function.implementation.name

/-- The comments that document a function. -/
def FunctionDeclaration.jsdocs (function : FunctionDeclaration) : List Text :=
  documentationOf function.overloads function.implementation

/-- An interface or a type alias. -/
structure TypeDeclaration where
  name : Text := ""
  text : Text := ""
  exported : Bool := false
  jsdocs : List Text := []
  deriving DecidableEq, Repr, Inhabited

/-- A variable. -/
structure VariableDeclaration where
  name : Option Text := none
  typeText : Text := ""
  hasInitializer : Bool := false
  isFunction : Bool := false
  exported : Bool := false
  jsdocs : List Text := []
  deriving DecidableEq, Repr, Inhabited

/-- A method of a class with its overloads. -/
structure MethodDeclaration where
  name : Text := ""
  implementation : CallForm := {}
  overloads : List CallForm := []
  isStatic : Bool := false
  isPrivate : Bool := false
  deriving DecidableEq, Repr, Inhabited

/-- The comments that document a method. -/
def MethodDeclaration.jsdocs (method : MethodDeclaration) : List Text :=
  documentationOf method.overloads method.implementation

/-- A property of a class. -/
structure PropertyDeclaration where
  name : Text := ""
  typeText : Text := ""
  isStatic : Bool := false
  isPrivate : Bool := false
  isReadonly : Bool := false
  jsdocs : List Text := []
  deriving DecidableEq, Repr, Inhabited

/-- A class. -/
structure ClassDeclaration where
  name : Option Text := none
  typeParameters : List Text := []
  constructors : List CallForm := []
  methods : List MethodDeclaration := []
  properties : List PropertyDeclaration := []
  exported : Bool := false
  jsdocs : List Text := []
  deriving DecidableEq, Repr, Inhabited

/-- A name in an export clause, with all comments directly in front of it. -/
structure ExportSpecifier where
  name : Text := ""
  localName : Text := ""
  typeText : Text := ""
  leadingComments : List Text := []
  deriving DecidableEq, Repr, Inhabited

/-- The declarations of a source file, in the order of the source. -/
structure SourceFile where
  path : Text := ""
  leadingComments : List Text := []
  interfaces : List TypeDeclaration := []
  functions : List FunctionDeclaration := []
  typeAliases : List TypeDeclaration := []
  variableList : List VariableDeclaration := []
  classes : List ClassDeclaration := []
  exports : List ExportSpecifier := []
  deriving DecidableEq, Repr, Inhabited

end ApiDocs
