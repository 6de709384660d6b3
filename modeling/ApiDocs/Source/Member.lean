import ApiDocs.Source.Overload
import ApiDocs.Tree.TypeText

/-!
# Reading a class

A class is read from its node: its name, its type parameters, and the constructors,
methods and properties in its body.  Getters and setters are not methods.
-/

namespace ApiDocs

/-- Whether a comment documents what stands behind it. -/
def isJsdoc (comment : Text) : Bool :=
  Text.startsWith comment "/**"

/-- The documentation comments among some comments. -/
def jsdocsOf (source : SourceBytes) (comments : List Node) : Except Fault (List Text) :=
  (source.textsOf comments).map fun texts => texts.filter isJsdoc

/-- The type of a declaration: its annotation, or what its initializer shows. -/
def declaredType (source : SourceBytes) (scope : Scope) (fixed : Bool) (node : Node) :
    Except Fault Text :=
  match node.at? "type", node.at? "value" with
  | some annotation, _ => TypeText.annotation source annotation
  | none, some value => TypeText.infer source scope fixed value
  | none, none => .ok TypeText.unknown

/-- One form of a function; `outer` is the node whose text is shown. -/
def callForm (source : SourceBytes) (name : Option Text) (node outer : Node)
    (jsdocs : List Text) : Except Fault CallForm := do
  let text ← source.textOf outer
  let start ← source.charsBefore outer.start
  match node.at? "body" with
  | none => return { name, text, start, bodyStart := none, jsdocs }
  | some body =>
    let bodyStart ← source.charsBefore body.start
    return { name, text, start, bodyStart := some bodyStart, jsdocs }

/-- What the words in front of a member's name say. -/
structure Modifiers where
  isStatic : Bool := false
  isPrivate : Bool := false
  isReadonly : Bool := false
  isAccessor : Bool := false
  deriving DecidableEq, Repr, Inhabited

namespace Modifiers

/-- Takes one more word into account. -/
def add (source : SourceBytes) (modifiers : Modifiers) (node : Node) : Except Fault Modifiers :=
  if node.kind = "accessibility_modifier" then
    if modifiers.isPrivate then .ok modifiers
    else (source.textOf node).map fun (text : Text) =>
      { modifiers with isPrivate := text == "private" }
  else if node.kind = "static" then .ok { modifiers with isStatic := true }
  else if node.kind = "readonly" then .ok { modifiers with isReadonly := true }
  else if node.kind = "get" || node.kind = "set" then .ok { modifiers with isAccessor := true }
  else .ok modifiers

/-- Takes words into account, one after the other. -/
def addAll (source : SourceBytes) (modifiers : Modifiers) : List Node → Except Fault Modifiers
  | [] => .ok modifiers
  | node :: rest => do
    let next ← add source modifiers node
    addAll source next rest

/-- The modifiers of a member: the words in front of its name, and the name itself. -/
def of (source : SourceBytes) (member name : Node) : Except Fault Modifiers :=
  addAll source { isPrivate := name.kind == "private_property_identifier" }
    (member.children.takeWhile fun child => child.start < name.start)

end Modifiers

/-- The members of a class that have been read. -/
structure Members where
  constructors : List CallForm := []
  methodForms : List MethodForm := []
  properties : List PropertyDeclaration := []
  deriving DecidableEq, Repr, Inhabited

namespace Members

/-- Reads a method, an overload of one, or a constructor. -/
def addMethod (source : SourceBytes) (members : Members) (implements : Bool) (member : Node)
    (jsdocs : List Text) : Except Fault Members :=
  match member.at? "name" with
  | none => .ok members
  | some nameNode => do
    let name ← source.textOf nameNode
    let modifiers ← Modifiers.of source member nameNode
    let call ← callForm source (some name) member member jsdocs
    let isStatic := modifiers.isStatic
    let isPrivate := modifiers.isPrivate
    if name = "constructor" then
      return { members with constructors := members.constructors ++ [call] }
    else if modifiers.isAccessor then return members
    else
      return { members with
        methodForms := members.methodForms ++ [{ call, implements, isStatic, isPrivate }] }

/-- Reads a property. -/
def addProperty (source : SourceBytes) (scope : Scope) (members : Members) (member : Node)
    (jsdocs : List Text) : Except Fault Members :=
  match member.at? "name" with
  | none => .ok members
  | some nameNode => do
    let modifiers ← Modifiers.of source member nameNode
    let typeText ← declaredType source scope modifiers.isReadonly member
    let name ← source.textOf nameNode
    let property : PropertyDeclaration :=
      { name, typeText, jsdocs
        isStatic := modifiers.isStatic
        isPrivate := modifiers.isPrivate
        isReadonly := modifiers.isReadonly }
    return { members with properties := members.properties ++ [property] }

/-- Reads one member with the comments in front of it. -/
def add (source : SourceBytes) (scope : Scope) (members : Members) (comments : List Node)
    (member : Node) : Except Fault Members := do
  let jsdocs ← jsdocsOf source comments
  match MemberKind.ofNode member with
  | .method | .abstractMethod => addMethod source members true member jsdocs
  | .methodSignature => addMethod source members false member jsdocs
  | .property => addProperty source scope members member jsdocs
  | .other => return members

/-- Reads members, one after the other. -/
def addAll (source : SourceBytes) (scope : Scope) (members : Members) :
    List (List Node × Node) → Except Fault Members
  | [] => .ok members
  | (comments, member) :: rest => do
    let next ← add source scope members comments member
    addAll source scope next rest

end Members

namespace ClassDeclaration

/-- The names of the type parameters of a class. -/
def typeParameterNames (source : SourceBytes) (node : Node) : Except Fault (List Text) :=
  match node.at? "type_parameters" with
  | none => .ok []
  | some list =>
    source.textsOf (list.namedChildren.filterMap fun parameter =>
      if parameter.kind = "type_parameter" then parameter.at? "name" else none)

/-- The members in the body of a class; a decorator does not separate a comment from a member. -/
def bodyMembers (node : Node) : List (List Node × Node) :=
  match node.at? "body" with
  | none => []
  | some body => attachComments (fun child => child.kind == "decorator") [] body.children

/-- Reads a class. -/
def ofNode (source : SourceBytes) (scope : Scope) (exported : Bool) (jsdocs : List Text)
    (node : Node) : Except Fault ClassDeclaration := do
  let name ← source.textAt? node "name"
  let typeParameters ← typeParameterNames source node
  let members ← Members.addAll source scope {} (bodyMembers node)
  return { name, typeParameters, exported, jsdocs
           constructors := members.constructors
           methods := MethodForm.methods members.methodForms
           properties := members.properties }

end ClassDeclaration

end ApiDocs
