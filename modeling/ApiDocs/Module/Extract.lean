import ApiDocs.Comment.Reader
import ApiDocs.Failure
import ApiDocs.Module.Basic
import ApiDocs.Module.Signature
import ApiDocs.Path.Clean

/-!
# Documentation of the declarations of a source file

Each kind of declaration has a function that turns the visible declarations of a
source file into records, or reports every error in them.  A declaration is visible
if it is exported and its comment does not hide it.
-/

namespace ApiDocs

/-- Where a declaration stands, and the rules for it. -/
structure Context where
  path : List Text
  settings : Settings
  deriving Inhabited

namespace Context

/-- The path of the module as one text. -/
def location (context : Context) : Text :=
  Text.joinWith "/" context.path

/-- The error for a declaration without a name. -/
def missingName {α : Type} (context : Context) (kind : Text) : Checked α :=
  .fail ("Missing " ++ kind ++ " name in module " ++ context.location)

/-- Checks the comment of a declaration. -/
def check (context : Context) (name : Text) (comment : Comment) : Checked Summary :=
  Policy.check name context.path comment false context.settings

/-- The name of the module: the last part of its path without its ending. -/
def moduleName (context : Context) : Except Fault Text :=
  match context.path.getLast? with
  | none => .error .emptyModulePath
  | some last => .ok (CleanPath.ofText last).stem

end Context

namespace Extract

/-- Records in the order of their names; records with one name keep their order. -/
def sortByName {α : Type} (nameOf : α → Text) (records : List α) : List α :=
  records.mergeSort fun left right => Text.atMost (nameOf left) (nameOf right)

/-- Whether the documentation of a declaration hides it. -/
def isHidden (jsdocs : List Text) : Bool :=
  (Comment.ofBlocks jsdocs).hides

/-- The record of a method. -/
def method (context : Context) (declaration : MethodDeclaration) : Checked Callable :=
  (context.check declaration.name (Comment.ofBlocks declaration.jsdocs)).map fun summary =>
    { doc := Doc.ofSummary declaration.name summary
      signatures :=
        (Signature.ofForms declaration.overloads declaration.implementation).map
          Signature.withoutImports }

/-- The methods of a class that are shown, either the static ones or the others. -/
def visibleMethods (isStatic : Bool) (declaration : ClassDeclaration) : List MethodDeclaration :=
  declaration.methods.filter fun method =>
    method.isStatic == isStatic && !method.isPrivate && !isHidden method.jsdocs

/-- The record of a property, which errors name together with its class. -/
def property (context : Context) (className : Text) (declaration : PropertyDeclaration) :
    Checked Item :=
  (context.check (className ++ "#" ++ declaration.name)
    (Comment.ofBlocks declaration.jsdocs)).map fun summary =>
    { doc := Doc.ofSummary declaration.name summary
      signature := Signature.ofProperty declaration }

/-- The properties of a class that are shown. -/
def visibleProperties (declaration : ClassDeclaration) : List PropertyDeclaration :=
  declaration.properties.filter fun property =>
    !property.isStatic && !property.isPrivate && !isHidden property.jsdocs

/-- The record of a class. -/
def classRecord (context : Context) (declaration : ClassDeclaration) : Checked Class :=
  match declaration.name with
  | none => context.missingName "class"
  | some name =>
    let checks :=
      (context.check name (Comment.ofBlocks declaration.jsdocs)).both <|
        (Checked.each (method context) (visibleMethods false declaration)).both <|
          (Checked.each (method context) (visibleMethods true declaration)).both <|
            Checked.each (property context name) (visibleProperties declaration)
    checks.map fun (summary, methods, staticMethods, properties) =>
      { doc := Doc.ofSummary name summary
        signature := Signature.ofClass declaration
        methods, staticMethods, properties }

/-- The classes of a file that are shown. -/
def visibleClasses (source : SourceFile) : List ClassDeclaration :=
  source.classes.filter fun declaration => declaration.exported && !isHidden declaration.jsdocs

/-- The records of the classes. -/
def classes (source : SourceFile) (context : Context) : Checked (List Class) :=
  (Checked.each (classRecord context) (visibleClasses source)).map
    (sortByName fun record => record.doc.name)

/-- The record of an interface or a type alias. -/
def typeRecord (context : Context) (declaration : TypeDeclaration) : Checked Item :=
  (context.check declaration.name (Comment.ofBlocks declaration.jsdocs)).map fun summary =>
    { doc := Doc.ofSummary declaration.name summary
      signature := Signature.withoutImports declaration.text }

/-- The interfaces or type aliases that are shown. -/
def visibleTypes (declarations : List TypeDeclaration) : List TypeDeclaration :=
  declarations.filter fun declaration => declaration.exported && !isHidden declaration.jsdocs

/-- The records of the interfaces. -/
def interfaces (source : SourceFile) (context : Context) : Checked (List Item) :=
  (Checked.each (typeRecord context) (visibleTypes source.interfaces)).map
    (sortByName fun record => record.doc.name)

/-- The records of the type aliases. -/
def typeAliases (source : SourceFile) (context : Context) : Checked (List Item) :=
  (Checked.each (typeRecord context) (visibleTypes source.typeAliases)).map
    (sortByName fun record => record.doc.name)

/-- The record of a declared function. -/
def functionRecord (context : Context) (declaration : FunctionDeclaration) : Checked Callable :=
  match declaration.name with
  | none => context.missingName "function"
  | some name =>
    (context.check name (Comment.ofBlocks declaration.jsdocs)).map fun summary =>
      { doc := Doc.ofSummary name summary
        signatures :=
          (Signature.ofForms declaration.overloads declaration.implementation).map fun text =>
            Signature.withoutImports (Signature.declareFunction text) }

/-- The record of a variable that holds a function. -/
def functionVariable (context : Context) (declaration : VariableDeclaration) : Checked Callable :=
  match declaration.name with
  | none => context.missingName "function"
  | some name =>
    (context.check name (Comment.ofBlocks declaration.jsdocs)).map fun summary =>
      { doc := Doc.ofSummary name summary
        signatures := [Signature.ofVariable name declaration.typeText] }

/-- The declared functions that are shown. -/
def visibleFunctions (source : SourceFile) : List FunctionDeclaration :=
  source.functions.filter fun declaration => declaration.exported && !isHidden declaration.jsdocs

/-- The variables with a value that are shown, either those that hold functions or the others. -/
def visibleVariables (isFunction : Bool) (source : SourceFile) : List VariableDeclaration :=
  source.variableList.filter fun declaration =>
    declaration.exported && declaration.hasInitializer && declaration.isFunction == isFunction &&
      !isHidden declaration.jsdocs

/-- The records of the functions: first the declared ones, then those that variables hold. -/
def functions (source : SourceFile) (context : Context) : Checked (List Callable) :=
  (Checked.all
    ((visibleFunctions source).map (functionRecord context) ++
      (visibleVariables true source).map (functionVariable context))).map
    (sortByName fun record => record.doc.name)

/-- The record of a constant. -/
def constantRecord (context : Context) (declaration : VariableDeclaration) : Checked Item :=
  match declaration.name with
  | none => context.missingName "constant"
  | some name =>
    (context.check name (Comment.ofBlocks declaration.jsdocs)).map fun summary =>
      { doc := Doc.ofSummary name summary
        signature := Signature.ofVariable name declaration.typeText }

/-- The records of the constants, in the order of the source. -/
def constants (source : SourceFile) (context : Context) : Checked (List Item) :=
  Checked.each (constantRecord context) (visibleVariables false source)

/-- The record of an export; a hidden one has none, and one without a comment is an error. -/
def exportRecord? (context : Context) (specifier : ExportSpecifier) : Option (Checked Item) :=
  match specifier.leadingComments with
  | [] =>
    some (.fail ("Missing " ++ specifier.name ++ " documentation in " ++ context.location))
  | first :: _ =>
    let comment := Comment.read first
    if comment.hides then none
    else
      some <| (context.check specifier.name comment).map fun summary =>
        { doc := Doc.ofSummary specifier.name summary
          signature := Signature.ofVariable specifier.name specifier.typeText }

/-- The records of the exports, in the order of the source. -/
def exports (source : SourceFile) (context : Context) : Checked (List Item) :=
  Checked.all (source.exports.filterMap (exportRecord? context))

/-- The documentation of the module itself: the first comment of the file. -/
def documentation (source : SourceFile) (context : Context) : Except Fault (Checked Summary) :=
  match source.leadingComments with
  | first :: _ =>
    context.moduleName.map fun name =>
      Policy.check name context.path (Comment.read first) true context.settings
  | [] =>
    if context.settings.enforceDescriptions || context.settings.enforceVersion then
      .ok (.fail ("Missing documentation in " ++ context.location ++ " module"))
    else .ok (.accepted {})

end Extract

end ApiDocs
