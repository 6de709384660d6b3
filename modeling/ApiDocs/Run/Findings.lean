import ApiDocs.Json.Reader
import ApiDocs.Run.World

/-!
# What is found outside of a run

A run relies on two things that it does not do itself: sources are parsed, and the type
checker is run on the examples.  What they find can be handed over in a JSON document
with two entries.  `trees` lists the texts of the sources, each with its syntax tree;
`checker` holds the code and the report with which the type checker ends, or nothing if
there is no type checker.  A node of a syntax tree is written as the list of its kind,
one or zero for whether it is named, its first byte, the byte behind it, its field and
its children.
-/

namespace ApiDocs

/-- The number that a value denotes, if it is a number of the kind that offsets are. -/
def Value.offset? : Value → Option Nat
  | .int value => if value < 0 then none else some value.toNat
  | _ => none

/-- The name of a field: a text, or nothing. -/
def Value.field? : Value → Option (Option String)
  | .null => some none
  | .text name => name.string?.map some
  | _ => none

mutual

/-- The node that a value describes. -/
def Node.ofValue? : Value → Option Node
  | .list [.text kind, .int named, start, stop, field, .list children] => do
    let kind ← kind.string?
    let start ← start.offset?
    let stop ← stop.offset?
    let field ← field.field?
    let children ← Node.listOfValues? children
    some (.mk kind (named == 1) start stop field children)
  | _ => none

/-- The nodes that some values describe. -/
def Node.listOfValues? : List Value → Option (List Node)
  | [] => some []
  | value :: rest => do
    let node ← Node.ofValue? value
    let nodes ← Node.listOfValues? rest
    some (node :: nodes)

end

/-- The syntax tree that a value describes. -/
def Tree.ofValue? : Value → Option Tree
  | .map entries =>
    match Value.lookup (.text "root") entries, Value.lookup (.text "has_error") entries with
    | some root, some (.bool hasError) => (Node.ofValue? root).map fun root => { root, hasError }
    | _, _ => none
  | _ => none

/-- The end of the type checker that a value describes. -/
def Verdict.ofValue? : Value → Option Verdict
  | .null => some .missing
  | .list [.int code, .text report] => some (.finished code report)
  | _ => none

/-- The syntax trees of sources, and how the type checker ends. -/
structure Findings where
  trees : List (Text × Tree) := []
  verdict : Verdict := .finished 0 ""
  deriving Inhabited

namespace Findings

/-- A source with its syntax tree. -/
def sourceOfValue? : Value → Option (Text × Tree)
  | .list [.text source, tree] => (Tree.ofValue? tree).map fun tree => (source, tree)
  | _ => none

/-- The findings that a value describes. -/
def ofValue? : Value → Option Findings
  | .map entries =>
    match Value.lookup (.text "trees") entries, Value.lookup (.text "checker") entries with
    | some (.list sources), some checker => do
      let trees ← sources.mapM sourceOfValue?
      let verdict ← Verdict.ofValue? checker
      some { trees, verdict }
    | _, _ => none
  | _ => none

/-- The findings in a document. -/
def read? (document : Text) : Option Findings :=
  match Json.read document with
  | .ok value => ofValue? value
  | .error _ => none

/-- The environment of a run that relies on the findings. -/
def environment (findings : Findings) : Environment :=
  { parse := fun file => (findings.trees.lookup file.content).getD default
    verdict := findings.verdict }

end Findings

end ApiDocs
