import ApiDocs.Text.Search
import ApiDocs.Tree.Kind

/-!
# Types told from the form of an expression

A declaration without a type annotation gets the type that the form of its
initializer shows.  Literals give their own type where the value cannot change and
a wider type elsewhere; a name gives the type with which it was declared before;
functions, arrays and objects are put together from their parts.  Where the form
shows nothing the type is `any`.

The type of an expression is told from the types of the expressions in it, each by a call
inside the call for the outer one.  Only so many calls may be inside each other, and an
expression that is nested more deeply is a fault.
-/

namespace ApiDocs

/-- The types of the names declared so far. -/
abbrev Scope := List (Text × Text)

namespace Scope

/-- The type of a name. -/
def typeOf? (scope : Scope) (name : Text) : Option Text :=
  scope.lookup name

/-- Gives a name a type, whatever it had before. -/
def declare (scope : Scope) (name type : Text) : Scope :=
  (name, type) :: scope

/-- Gives a name a type unless it has one. -/
def declareOnce (scope : Scope) (name type : Text) : Scope :=
  if (scope.typeOf? name).isSome then scope else (name, type) :: scope

@[simp]
theorem typeOf?_declare (scope : Scope) (name type : Text) :
    (scope.declare name type).typeOf? name = some type := by
  simp [declare, typeOf?]

end Scope

namespace TypeText

/-- The type of which nothing is known. -/
def unknown : Text := "any"

/-- A type annotation without its colon. -/
def ofAnnotation (text : Text) : Text :=
  match Text.trim text with
  | ':' :: type => (Text.trim type)
  | type => type

/-- The type that an annotation gives. -/
def annotation (source : SourceBytes) (node : Node) : Except Fault Text :=
  (source.textOf node).map ofAnnotation

/-- The parameter list of a function; a single parameter may stand without parentheses. -/
def parameters (source : SourceBytes) (node : Node) : Except Fault Text :=
  match node.at? "parameters" with
  | some list => source.textOf list
  | none =>
    match node.at? "parameter" with
    | some single => (source.textOf single).map fun text => "(" ++ text ++ ")"
    | none => .ok "()"

/-- The result type of a function. -/
def result (source : SourceBytes) (node : Node) : Except Fault Text :=
  match node.at? "return_type" with
  | some type => annotation source type
  | none =>
    if node.children.any fun child => child.kind == "async" then
      .ok ("Promise<" ++ unknown ++ ">")
    else .ok unknown

/-- The type of a function. -/
def function (source : SourceBytes) (node : Node) : Except Fault Text := do
  let parameters ← parameters source node
  let result ← result source node
  let generics ← source.textAt? node "type_parameters"
  return generics.getD "" ++ parameters ++ " => " ++ result

/-- A string literal in double quotes. -/
def stringLiteral (raw : Text) : Text :=
  match raw with
  | '\x27' :: rest =>
    match rest.reverse with
    | '\x27' :: inner =>
      let content := Text.replaceAll ['\\', '\x27'] "\x27" inner.reverse
      "\"" ++ Text.replaceAll "\"" ['\\', '"'] content ++ "\""
    | _ => raw
  | _ => raw

/-- The type of an array whose elements have the given types. -/
def arrayOf (types : List Text) : Text :=
  match types with
  | [] => unknown ++ "[]"
  | type :: others =>
    if others.all (· == type) && !Text.occursIn "=>" type &&
        !Text.occursIn "|" type then type ++ "[]"
    else unknown ++ "[]"

/-- The type of an object with the given members. -/
def objectOf : Option (List Text) → Text
  | none => unknown
  | some [] => "\x7b\x7d"
  | some members => "\x7b " ++ Text.joinWith " " members ++ " \x7d"

/-- The type of a number with a sign in front. -/
def signed (source : SourceBytes) (fixed : Bool) (node : Node) : Except Fault Text :=
  match node.at? "argument" with
  | none => .ok unknown
  | some operand =>
    if operand.kind != "number" then .ok unknown
    else do
      let text ← source.textOf node
      if Text.startsWith text "-" then
        if fixed then return "-" ++ (← source.textOf operand) else return "number"
      else return unknown

/-- The type of a constructed value. -/
def constructed (source : SourceBytes) (node : Node) : Except Fault Text :=
  match node.at? "constructor" with
  | none => .ok unknown
  | some constructor => do
    let name ← source.textOf constructor
    let arguments ← source.textAt? node "type_arguments"
    return name ++ arguments.getD ""

/-- The type of a name. -/
def named (source : SourceBytes) (scope : Scope) (node : Node) : Except Fault Text := do
  let name ← source.textOf node
  if name = "undefined" then return "undefined" else return (scope.typeOf? name).getD unknown

/-- Whether a member of an object with this key has a type of its own. -/
def isPlainKey (node : Node) : Bool :=
  node.kind ∈ ["property_identifier", "string", "number"]

/-- How many calls may be inside each other while a type is told. -/
def callLimit : Nat := 980

mutual

/--
The type of an expression, if there is room for the given number of calls; `fixed` says that
the value of the expression cannot change.  An element of an array takes two calls of its own
beside that for the element, and a member of an object takes one.
-/
def inferWithin (source : SourceBytes) (scope : Scope) (room : Nat) (fixed : Bool) (node : Node) :
    Except Fault Text :=
  match room, node with
  | 0, _ => .error .tooDeep
  | room + 1, .mk kind flag start stop field children =>
    let node := Node.mk kind flag start stop field children
    match ExpressionKind.ofName kind with
    | .parenthesized | .satisfaction => inferFirst source scope room fixed children
    | .string => if fixed then (source.textOf node).map stringLiteral else .ok "string"
    | .template => .ok "string"
    | .number => if fixed then source.textOf node else .ok "number"
    | .unary => signed source fixed node
    | .truth => .ok (if fixed then kind else "boolean")
    | .null => .ok "null"
    | .undefined => .ok "undefined"
    | .identifier => named source scope node
    | .regex => .ok "RegExp"
    | .construction => constructed source node
    | .cast =>
      match children.getLast? with
      | none => .error .castWithoutTarget
      | some target =>
        if target.kind = "const" then inferFirst source scope room true children
        else source.textOf target
    | .function => function source node
    | .array =>
      if room < 2 then .error .tooDeep
      else (inferParts source scope (room - 2) children).map arrayOf
    | .object =>
      if room < 1 then .error .tooDeep
      else (inferMembers source scope (room - 1) children).map objectOf
    | .other => .ok unknown

/-- The type of the first part among some nodes. -/
def inferFirst (source : SourceBytes) (scope : Scope) (room : Nat) (fixed : Bool) :
    List Node → Except Fault Text
  | [] => .ok unknown
  | node :: rest =>
    if node.isPart then inferWithin source scope room fixed node
    else inferFirst source scope room fixed rest

/-- The types of the parts among some nodes. -/
def inferParts (source : SourceBytes) (scope : Scope) (room : Nat) :
    List Node → Except Fault (List Text)
  | [] => .ok []
  | node :: rest =>
    if node.isPart then do
      let type ← inferWithin source scope room false node
      let types ← inferParts source scope room rest
      return type :: types
    else inferParts source scope room rest

/-- The members of an object; none if one of its parts is not a plain pair. -/
def inferMembers (source : SourceBytes) (scope : Scope) (room : Nat) :
    List Node → Except Fault (Option (List Text))
  | [] => .ok (some [])
  | node :: rest =>
    if node.isPart then
      match node.kind == "pair", node.at? "key" with
      | true, some key =>
        if (node.at? "value").isSome && isPlainKey key then do
          let name ← source.textOf key
          let type ← inferValue source scope room node
          match ← inferMembers source scope room rest with
          | none => return none
          | some members => return some ((name ++ ": " ++ type ++ ";") :: members)
        else .ok none
      | _, _ => .ok none
    else inferMembers source scope room rest

/-- The type of the value of a pair. -/
def inferValue (source : SourceBytes) (scope : Scope) (room : Nat) (node : Node) :
    Except Fault Text :=
  match node with
  | .mk _ _ _ _ _ children => inferInField source scope room "value" children

/-- The type of the first node that stands in a field. -/
def inferInField (source : SourceBytes) (scope : Scope) (room : Nat) (field : String) :
    List Node → Except Fault Text
  | [] => .ok unknown
  | node :: rest =>
    if node.field == some field then inferWithin source scope room false node
    else inferInField source scope room field rest

end

/-- The type of an expression; `fixed` says that its value cannot change. -/
def infer (source : SourceBytes) (scope : Scope) (fixed : Bool) (node : Node) :
    Except Fault Text :=
  inferWithin source scope callLimit fixed node

end TypeText

mutual

/-- The expression inside any number of parentheses. -/
def Node.unwrapped (node : Node) : Node :=
  match node with
  | .mk kind flag start stop field children =>
    if kind = "parenthesized_expression" then
      (Node.unwrappedFirst? children).getD (.mk kind flag start stop field children)
    else .mk kind flag start stop field children

/-- The unwrapped first part among some nodes. -/
def Node.unwrappedFirst? : List Node → Option Node
  | [] => none
  | node :: rest => if node.isPart then some node.unwrapped else Node.unwrappedFirst? rest

end

end ApiDocs
