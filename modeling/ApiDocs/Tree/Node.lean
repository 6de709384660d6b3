import ApiDocs.Failure

/-!
# Syntax trees

A syntax tree describes a source text by nodes.  A node has a kind, says where in
the bytes of the source it begins and ends, and may stand in a named field of the
node above it.  A named node is a part of the language; the other nodes are
keywords and punctuation.
-/

namespace ApiDocs

/-- A node of a syntax tree. -/
inductive Node where
  | mk (kind : String) (named : Bool) (start stop : Nat) (field : Option String)
      (children : List Node)
  deriving Inhabited

namespace Node

/-- What the node is. -/
def kind : Node → String
  | .mk kind _ _ _ _ _ => kind

/-- Whether the node is a part of the language and not only a token. -/
def isNamed : Node → Bool
  | .mk _ named _ _ _ _ => named

/-- The byte at which the node begins. -/
def start : Node → Nat
  | .mk _ _ start _ _ _ => start

/-- The byte behind the node. -/
def stop : Node → Nat
  | .mk _ _ _ stop _ _ => stop

/-- The field of the node above in which the node stands. -/
def field : Node → Option String
  | .mk _ _ _ _ field _ => field

/-- The nodes below the node, in order. -/
def children : Node → List Node
  | .mk _ _ _ _ _ children => children

/-- The node in a field: the first one that stands there. -/
def at? (node : Node) (field : String) : Option Node :=
  node.children.find? fun child => child.field == some field

/-- The named nodes below the node. -/
def namedChildren (node : Node) : List Node :=
  node.children.filter isNamed

/-- Whether the node is a comment. -/
def isComment (node : Node) : Bool :=
  node.kind == "comment"

/-- Whether the node is named and no comment. -/
def isPart (node : Node) : Bool :=
  node.isNamed && !node.isComment

/-- The first part below the node. -/
def firstPart? (node : Node) : Option Node :=
  node.children.find? isPart

end Node

/-- A syntax tree, and whether a part of the source could not be parsed. -/
structure Tree where
  root : Node
  hasError : Bool := false
  deriving Inhabited

/-- The bytes of a source text. -/
abbrev SourceBytes := List UInt8

namespace SourceBytes

/-- The text that some bytes of the source encode. -/
def decode (bytes : SourceBytes) : Except Fault Text :=
  (Text.Utf8.decode bytes).mapError .undecodable

/-- The source text of a node. -/
def textOf (source : SourceBytes) (node : Node) : Except Fault Text :=
  decode ((source.drop node.start).take (node.stop - node.start))

/-- The number of characters before a byte. -/
def charsBefore (source : SourceBytes) (byte : Nat) : Except Fault Int :=
  (decode (source.take byte)).map fun text => text.length

/-- The source texts of several nodes. -/
def textsOf (source : SourceBytes) : List Node → Except Fault (List Text)
  | [] => .ok []
  | node :: rest => do
    let text ← source.textOf node
    let texts ← textsOf source rest
    return text :: texts

/-- The source text of the node in a field, if there is one. -/
def textAt? (source : SourceBytes) (node : Node) (field : String) :
    Except Fault (Option Text) :=
  match node.at? field with
  | none => .ok none
  | some child => (source.textOf child).map some

end SourceBytes

/--
Pairs every node that is not a comment with the comments that stand between it and
the node before it.  Nodes that `passes` accepts are left out and do not separate a
comment from the node behind them.
-/
def attachComments (passes : Node → Bool) : List Node → List Node → List (List Node × Node)
  | _, [] => []
  | pending, node :: rest =>
    if node.isComment then attachComments passes (pending ++ [node]) rest
    else if passes node then attachComments passes pending rest
    else (pending, node) :: attachComments passes [] rest

@[simp]
theorem attachComments_nil (passes : Node → Bool) (pending : List Node) :
    attachComments passes pending [] = [] := rfl

end ApiDocs
