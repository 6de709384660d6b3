import ApiDocs.Tree.Node

/-!
# Kinds of nodes

The grammar has many kinds of node, of which a few matter here: the declarations
that can be documented, the members of a class, and the expressions whose type can
be told from their form.
-/

namespace ApiDocs

/-- The kinds of declaration. -/
inductive DeclarationKind where
  | interface
  | typeAlias
  | function
  | classLike
  | variableList
  | other
  deriving DecidableEq, Repr, Inhabited

/-- The kind of declaration that a kind of node is. -/
def DeclarationKind.ofNode (node : Node) : DeclarationKind :=
  let kind := node.kind
  if kind = "interface_declaration" then .interface
  else if kind = "type_alias_declaration" then .typeAlias
  else if kind ∈ ["function_declaration", "generator_function_declaration",
      "function_signature"] then .function
  else if kind ∈ ["class_declaration", "abstract_class_declaration"] then .classLike
  else if kind ∈ ["lexical_declaration", "variable_declaration"] then .variableList
  else .other

/-- The kinds of member of a class. -/
inductive MemberKind where
  | method
  | methodSignature
  | abstractMethod
  | property
  | other
  deriving DecidableEq, Repr, Inhabited

/-- The kind of member that a node is. -/
def MemberKind.ofNode (node : Node) : MemberKind :=
  let kind := node.kind
  if kind = "method_definition" then .method
  else if kind = "method_signature" then .methodSignature
  else if kind = "abstract_method_signature" then .abstractMethod
  else if kind = "public_field_definition" then .property
  else .other

/-- The kinds of expression whose type can be told from their form. -/
inductive ExpressionKind where
  | parenthesized
  | string
  | template
  | number
  | unary
  | truth
  | null
  | undefined
  | identifier
  | regex
  | construction
  | cast
  | satisfaction
  | function
  | array
  | object
  | other
  deriving DecidableEq, Repr, Inhabited

/-- Whether a kind of node is a function used as a value. -/
def isFunctionValue (kind : String) : Bool :=
  kind ∈ ["arrow_function", "function_expression", "function", "generator_function"]

/-- The kind of expression that a kind of node is. -/
def ExpressionKind.ofName (kind : String) : ExpressionKind :=
  if kind = "parenthesized_expression" then .parenthesized
  else if kind = "string" then .string
  else if kind = "template_string" then .template
  else if kind = "number" then .number
  else if kind = "unary_expression" then .unary
  else if kind = "true" || kind = "false" then .truth
  else if kind = "null" then .null
  else if kind = "undefined" then .undefined
  else if kind = "identifier" then .identifier
  else if kind = "regex" then .regex
  else if kind = "new_expression" then .construction
  else if kind = "as_expression" then .cast
  else if kind = "satisfies_expression" then .satisfaction
  else if isFunctionValue kind then .function
  else if kind = "array" then .array
  else if kind = "object" then .object
  else .other

end ApiDocs
