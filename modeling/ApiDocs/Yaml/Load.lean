import ApiDocs.Yaml.Atom
import ApiDocs.Yaml.Node

/-!
# Loading YAML

A node is loaded as the value that its type gives.  Scalars are loaded when they
are met; a collection is noted down, and its parts are loaded after everything that
was noted down before it, so that of several wrong scalars the one nearest to the
root is reported.  Every node is loaded once, however many aliases it has.

Before a mapping is loaded it takes over the entries of the mappings that it names
under the merge key, in front of its own.  That changes the node, for good: it has no
merge keys any more, and keys that named a default value are texts from then on.
-/

namespace ApiDocs.Yaml

/-- A loaded part of a collection: a value, or another collection by the number of its node. -/
inductive Part where
  | value (value : Value)
  | collection (number : Nat)
  deriving Inhabited

/-- A loaded collection. -/
inductive Collection where
  | list (parts : List Part)
  | map (entries : List (Value × Part))
  | set (items : List Value)
  | pairs (pairs : List (Part × Part))
  deriving Inhabited

/-- The state of loading. -/
structure Loading where
  nodes : Array Node
  /-- What the nodes were loaded as, by number. -/
  loaded : Array (Option Part)
  /-- The collections whose parts are loaded, by number. -/
  filled : Array (Option Collection)
  /-- The collections whose parts are to be loaded, the last one first. -/
  waiting : List Nat := []
  deriving Inhabited

/-- A step of loading. -/
abbrev Load := StateT Loading (Except Failure)

namespace Load

/-- The document has a node that cannot be loaded. -/
def refuse {α : Type} : Load α :=
  throw .malformed

/-- The node with a number. -/
def nodeAt (number : Nat) : Load Node := do
  match (← get).nodes[number]? with
  | some node => return node
  | none => refuse

/-- Changes the node with a number. -/
def changeNode (number : Nat) (change : Node → Node) : Load Unit :=
  modify fun loading => { loading with nodes := loading.nodes.modify number change }

/-- The entries of a mapping. -/
def entriesOf (number : Nat) : Load (List (Nat × Nat)) := do
  match (← nodeAt number).content with
  | .mapping entries => return entries
  | _ => refuse

/-- The items of a sequence. -/
def itemsOf (number : Nat) : Load (List Nat) := do
  match (← nodeAt number).content with
  | .sequence items => return items
  | _ => refuse

/-- Replaces the entries of a mapping. -/
def setEntries (number : Nat) (entries : List (Nat × Nat)) : Load Unit :=
  changeNode number fun node => { node with content := .mapping entries }

/-! ## Merging -/

mutual

/--
Merges the entries that a mapping names under merge keys, from the entry with the
given index on; `merged` are those that were found before.
-/
def flattenFrom : Nat → Nat → Nat → List (Nat × Nat) → Load Unit
  | 0, _, _, _ => refuse
  | fuel + 1, number, index, merged => do
    let entries ← entriesOf number
    match entries[index]? with
    | none => if merged.isEmpty then return () else setEntries number (merged ++ entries)
    | some (key, value) =>
      match (← nodeAt key).kind with
      | .merge =>
        setEntries number (entries.eraseIdx index)
        let added ← mergeable fuel value
        flattenFrom fuel number index (merged ++ added)
      | .default =>
        changeNode key fun node => { node with kind := .text }
        flattenFrom fuel number (index + 1) merged
      | _ => flattenFrom fuel number (index + 1) merged

/-- The entries that a node gives under a merge key: its own, or those of the mappings in it. -/
def mergeable : Nat → Nat → Load (List (Nat × Nat))
  | 0, _ => refuse
  | fuel + 1, number => do
    match (← nodeAt number).content with
    | .scalar _ => refuse
    | .mapping _ =>
      flattenFrom fuel number 0 []
      entriesOf number
    | .sequence items => mergeableItems fuel items

/-- The entries of several mappings, those of the last one first. -/
def mergeableItems : Nat → List Nat → Load (List (Nat × Nat))
  | 0, _ => refuse
  | _ + 1, [] => return []
  | fuel + 1, item :: rest => do
    match (← nodeAt item).content with
    | .mapping _ =>
      flattenFrom fuel item 0 []
      let here ← entriesOf item
      let more ← mergeableItems fuel rest
      return more ++ here
    | _ => refuse

end

/-! ## Loading one node -/

/-- The text of a node that is used as a scalar; a mapping may name it as its default. -/
def scalarText : Nat → Nat → Load Text
  | 0, _ => throw .endlessDefault
  | fuel + 1, number => do
    match (← nodeAt number).content with
    | .scalar text => return text
    | .sequence _ => refuse
    | .mapping entries =>
      let nodes := (← get).nodes
      match entries.find? fun (key, _) => (nodes[key]?.map Node.kind) == some .default with
      | some (_, value) => scalarText fuel value
      | none => refuse

/-- Notes down what a node was loaded as. -/
def note (number : Nat) (part : Part) : Load Part := do
  modify fun loading => { loading with loaded := loading.loaded.setIfInBounds number (some part) }
  return part

/-- Loads a node, unless it was loaded before; the parts of a collection have to wait. -/
def part (number : Nat) : Load Part := do
  match ((← get).loaded[number]?).join with
  | some part => return part
  | none =>
    let node ← nodeAt number
    if node.kind.isScalar then
      let text ← scalarText ((← get).nodes.size + 1) number
      match node.kind, node.content with
      | .instant, .mapping _ => throw .collectionAsInstant
      | kind, _ => note number (.value (← loadScalar kind text))
    else
      match node.kind with
      | .sequence | .mapping | .set | .orderedMap | .pairs =>
        modify fun loading => { loading with waiting := number :: loading.waiting }
        note number (.collection number)
      | _ => refuse

/-! ## Loading collections -/

/-- Loads several nodes. -/
def parts : List Nat → Load (List Part)
  | [] => return []
  | item :: rest => do
    let here ← part item
    let more ← parts rest
    return here :: more

/--
Whether two keys are the same.  No number is the same key as anything; but a key is
the same as itself, and all that are written with the word of the format are one.
-/
def sameKey (nodes : Array Node) (first second : Nat × Value) : Bool :=
  let isWord (number : Nat) : Bool :=
    match nodes[number]? with
    | some ⟨_, .scalar text⟩ => text.contains '.'
    | _ => false
  let isUndefined : Value → Bool
    | .float value => value != value
    | _ => false
  if isUndefined first.2 && isUndefined second.2 then
    first.1 == second.1 || (isWord first.1 && isWord second.1)
  else first.2.sameKey second.2

/-- Sets the part under a key: in place if the key is there, at the end if it is new. -/
def insert (nodes : Array Node) (key : Nat × Value) (value : Part) :
    List ((Nat × Value) × Part) → List ((Nat × Value) × Part)
  | [] => [(key, value)]
  | (other, old) :: rest =>
    if sameKey nodes other key then (other, value) :: rest
    else (other, old) :: insert nodes key value rest

/-- Loads the entries of a mapping behind those loaded before; a key is not a collection. -/
def entries (before : List ((Nat × Value) × Part)) :
    List (Nat × Nat) → Load (List ((Nat × Value) × Part))
  | [] => return before
  | (key, value) :: rest => do
    match ← part key with
    | .collection _ => refuse
    | .value loaded =>
      let here ← part value
      entries (insert (← get).nodes (key, loaded) here before) rest

/-- Loads a mapping after merging. -/
def mapping (fuel number : Nat) : Load (List (Value × Part)) := do
  let _ ← entriesOf number
  flattenFrom fuel number 0 []
  let loaded ← entries [] (← entriesOf number)
  return loaded.map fun ((_, key), value) => (key, value)

/-- Loads ordered pairs, each a mapping with one entry. -/
def pairs : List Nat → Load (List (Part × Part))
  | [] => return []
  | item :: rest => do
    match ← entriesOf item with
    | [(key, value)] =>
      let first ← part key
      let second ← part value
      let more ← pairs rest
      return (first, second) :: more
    | _ => refuse

/-- Loads the parts of a collection. -/
def collection (fuel number : Nat) : Load Collection := do
  match (← nodeAt number).kind with
  | .sequence => return .list (← parts (← itemsOf number))
  | .mapping => return .map (← mapping fuel number)
  | .set => return .set ((← mapping fuel number).map Prod.fst)
  | .orderedMap | .pairs => return .pairs (← pairs (← itemsOf number))
  | _ => refuse

/-- Loads the parts of the given collections in turn. -/
def fillEach (fuel : Nat) : List Nat → Load Unit
  | [] => return ()
  | number :: rest => do
    let filled ← collection fuel number
    modify fun loading =>
      { loading with filled := loading.filled.setIfInBounds number (some filled) }
    fillEach fuel rest

/-- Loads the parts of the collections that wait, round after round, until none waits. -/
def rounds (fuel : Nat) : Nat → Load Unit
  | 0 => return ()
  | left + 1 => do
    let waiting := (← get).waiting.reverse
    if waiting.isEmpty then return ()
    else
      modify fun loading => { loading with waiting := [] }
      fillEach fuel waiting
      rounds fuel left

end Load

/--
Loads the node with a number and everything in it.  A document with `n` nodes has
fewer than `n` merge keys, and a mapping can name another one again for each of them.
-/
def Load.all (root : Nat) : Load Part := do
  let size := (← get).nodes.size + 2
  let loaded ← Load.part root
  Load.rounds (size * size * size) size
  return loaded

/-- The state before anything is loaded. -/
def Loading.start (nodes : Array Node) : Loading :=
  { nodes
    loaded := Array.replicate nodes.size none
    filled := Array.replicate nodes.size none }

end ApiDocs.Yaml
