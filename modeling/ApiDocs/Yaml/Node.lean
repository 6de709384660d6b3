import ApiDocs.Yaml.Kind
import ApiDocs.Yaml.Tokens

/-!
# Nodes of a YAML document

The tokens of a document form nodes: scalars, sequences and mappings.  A node is
known by its number, and collections hold the numbers of their parts, so that
an alias is the very node with that anchor.  An anchor counts from where it
stands, also inside its own node: a collection may hold itself.

Tokens are asked for only when they are needed, so that of several faults in a
document the one that is met first is reported.
-/

namespace ApiDocs.Yaml

/-- What a node holds. -/
inductive Content where
  | scalar (text : Text)
  | sequence (items : List Nat)
  | mapping (entries : List (Nat × Nat))
  deriving DecidableEq, Repr, Inhabited

/-- A node: its type and what it holds. -/
structure Node where
  kind : Kind
  content : Content
  deriving DecidableEq, Repr, Inhabited

/-- What stands behind the tag handles of a document. -/
abbrev Handles := List (Text × Text)

/-- The handles that every document has. -/
def standardHandles : Handles :=
  [(['!'], ['!']), (['!', '!'], standardTag)]

/-- What was read so far and what is left. -/
structure Parse where
  scan : Scan
  nodes : Array Node := #[]
  /-- The anchors so far and the numbers of their nodes. -/
  anchors : List (Text × Nat) := []
  handles : Handles := standardHandles
  /-- How many collections are open. -/
  depth : Nat := 0
  deriving Inhabited

/-- How many collections may stand inside each other. -/
def depthLimit : Nat := 486

/-- A step of reading nodes. -/
abbrev Reading := StateT Parse (Except Failure)

namespace Reading

/-- The document breaks a rule of the format. -/
def refuse {α : Type} : Reading α :=
  throw .malformed

/-- The next token. -/
def peek : Reading Token := do
  let parse ← get
  let (token, scan) ← parse.scan.peek
  set { parse with scan }
  return token

/-- Goes on behind the next token, which was looked at. -/
def skip : Reading Unit :=
  modify fun parse => { parse with scan := parse.scan.skip }

/-- Adds a node and gives its number. -/
def add (node : Node) : Reading Nat := do
  let parse ← get
  set { parse with nodes := parse.nodes.push node }
  return parse.nodes.size

/-- A scalar that was left out. -/
def addEmpty : Reading Nat :=
  add { kind := .null, content := .scalar [] }

/-- Gives a node what it holds. -/
def fillNode (number : Nat) (content : Content) : Reading Unit :=
  modify fun parse =>
    { parse with nodes := parse.nodes.modify number fun node => { node with content } }

/-- The node of an alias. -/
def resolve (name : Text) : Reading Nat := do
  match (← get).anchors.lookup name with
  | some number => return number
  | none => refuse

/-- Gives an anchor to a node; the anchor must not have been given before. -/
def declare (anchor : Option Text) (number : Nat) : Reading Unit := do
  let parse ← get
  match anchor with
  | none => return ()
  | some anchor =>
    match parse.anchors.lookup anchor with
    | some _ => refuse
    | none => set { parse with anchors := (anchor, number) :: parse.anchors }

/-- Reads what a collection holds; it must not be too deep inside others. -/
def inside {α : Type} (body : Reading α) : Reading α := do
  let depth := (← get).depth
  if depthLimit ≤ depth then throw .tooDeep
  modify fun parse => { parse with depth := depth + 1 }
  let held ← body
  modify fun parse => { parse with depth }
  return held

/-- What may stand in front of a node. -/
structure Properties where
  anchor : Option Text := none
  tag : Option TagText := none

/-- Reads the anchor and the tag in front of a node, in either order. -/
def properties : Reading Properties := do
  match ← peek with
  | .anchor name =>
    skip
    match ← peek with
    | .tag tag =>
      skip
      return { anchor := some name, tag := some tag }
    | _ => return { anchor := some name }
  | .tag tag =>
    skip
    match ← peek with
    | .anchor name =>
      skip
      return { anchor := some name, tag := some tag }
    | _ => return { tag := some tag }
  | _ => return {}

/-- The complete tag; a handle must have been declared. -/
def completeTag : Option TagText → Reading (Option Text)
  | none => return none
  | some ⟨none, suffix⟩ => return some suffix
  | some ⟨some handle, suffix⟩ => do
    match (← get).handles.lookup handle with
    | some start => return some (start ++ suffix)
    | none => refuse

/-- The type that a tag gives; without one, or with one that leaves it open, the given type. -/
def kindOr (tag : Option Text) (kind : Kind) : Kind :=
  match tag with
  | none | some ['!'] => kind
  | some tag => .ofTag tag

/-- The type of a scalar; its form counts if it is plain or if its tag leaves the type open. -/
def scalarKind (tag : Option Text) (plain : Bool) (text : Text) : Kind :=
  kindOr tag (if plain || tag.isSome then .ofForm (.of text) else .text)

/-- Which collections a node may be at its place. -/
inductive Context where
  | flow
  | block
  | blockOrIndentless
  deriving DecidableEq, Repr

/-- How a node goes on behind its properties. -/
inductive Shape where
  | scalar (text : Text) (plain : Bool)
  | omitted
  | flowSequence
  | flowMapping
  | indentlessSequence
  | blockSequence
  | blockMapping
  deriving DecidableEq, Repr

/-- The shape of a node by its first token; one with properties may be left out. -/
def shapeOf? (context : Context) (hasProperties : Bool) (token : Token) : Option Shape :=
  let omitted? : Option Shape := if hasProperties then some .omitted else none
  match token with
  | .scalar text plain => some (.scalar text plain)
  | .flowSequenceStart => some .flowSequence
  | .flowMappingStart => some .flowMapping
  | .blockEntry => if context = .blockOrIndentless then some .indentlessSequence else omitted?
  | .blockSequenceStart => if context = .flow then omitted? else some .blockSequence
  | .blockMappingStart => if context = .flow then omitted? else some .blockMapping
  | _ => omitted?

mutual

/-- Reads a node and gives its number. -/
def node : Nat → Context → Reading Nat
  | 0, _ => refuse
  | fuel + 1, context => do
    match ← peek with
    | .alias name =>
      skip
      resolve name
    | _ =>
      let given ← properties
      let tag ← completeTag given.tag
      let token ← peek
      match shapeOf? context (given.anchor.isSome || tag.isSome) token with
      | none => refuse
      | some (.scalar text plain) =>
        skip
        let number ← add { kind := scalarKind tag plain text, content := .scalar text }
        declare given.anchor number
        return number
      | some .omitted =>
        let number ← add { kind := scalarKind tag true [], content := .scalar [] }
        declare given.anchor number
        return number
      | some .flowSequence =>
        let number ← add { kind := kindOr tag .sequence, content := .sequence [] }
        declare given.anchor number
        skip
        let items ← inside (flowItems fuel true)
        fillNode number (.sequence items)
        return number
      | some .indentlessSequence =>
        let number ← add { kind := kindOr tag .sequence, content := .sequence [] }
        declare given.anchor number
        let items ← inside (indentlessItems fuel)
        fillNode number (.sequence items)
        return number
      | some .blockSequence =>
        let number ← add { kind := kindOr tag .sequence, content := .sequence [] }
        declare given.anchor number
        skip
        let items ← inside (blockItems fuel)
        fillNode number (.sequence items)
        return number
      | some .flowMapping =>
        let number ← add { kind := kindOr tag .mapping, content := .mapping [] }
        declare given.anchor number
        skip
        let entries ← inside (flowEntries fuel true)
        fillNode number (.mapping entries)
        return number
      | some .blockMapping =>
        let number ← add { kind := kindOr tag .mapping, content := .mapping [] }
        declare given.anchor number
        skip
        let entries ← inside (blockEntries fuel)
        fillNode number (.mapping entries)
        return number

/-- Reads the entries of a block sequence up to its end. -/
def blockItems : Nat → Reading (List Nat)
  | 0 => refuse
  | fuel + 1 => do
    match ← peek with
    | .blockEntry =>
      skip
      let item ←
        match ← peek with
        | .blockEntry | .blockEnd => addEmpty
        | _ => node fuel .block
      let items ← blockItems fuel
      return item :: items
    | .blockEnd =>
      skip
      return []
    | _ => refuse

/-- Reads the entries of a sequence at the indentation of its mapping. -/
def indentlessItems : Nat → Reading (List Nat)
  | 0 => refuse
  | fuel + 1 => do
    match ← peek with
    | .blockEntry =>
      skip
      let item ←
        match ← peek with
        | .blockEntry | .key | .value | .blockEnd => addEmpty
        | _ => node fuel .block
      let items ← indentlessItems fuel
      return item :: items
    | _ => return []

/-- Reads the entries of a block mapping up to its end. -/
def blockEntries : Nat → Reading (List (Nat × Nat))
  | 0 => refuse
  | fuel + 1 => do
    match ← peek with
    | .key =>
      skip
      let key ←
        match ← peek with
        | .key | .value | .blockEnd => addEmpty
        | _ => node fuel .blockOrIndentless
      let value ← blockValue fuel
      let entries ← blockEntries fuel
      return (key, value) :: entries
    | .blockEnd =>
      skip
      return []
    | _ => refuse

/-- Reads the value of an entry of a block mapping. -/
def blockValue : Nat → Reading Nat
  | 0 => refuse
  | fuel + 1 => do
    match ← peek with
    | .value =>
      skip
      match ← peek with
      | .key | .value | .blockEnd => addEmpty
      | _ => node fuel .blockOrIndentless
    | _ => addEmpty

/-- Reads the items of a flow sequence up to its end; an item with a key is a mapping. -/
def flowItems : Nat → Bool → Reading (List Nat)
  | 0, _ => refuse
  | fuel + 1, first => do
    match ← peek with
    | .flowSequenceEnd =>
      skip
      return []
    | opening =>
      if first then pure () else if opening = .flowEntry then skip else refuse
      match ← peek with
      | .flowSequenceEnd =>
        skip
        return []
      | .key =>
        let number ← add { kind := .mapping, content := .mapping [] }
        skip
        let entry ← inside (flowEntry fuel .flowSequenceEnd)
        fillNode number (.mapping [entry])
        let items ← flowItems fuel false
        return number :: items
      | _ =>
        let item ← node fuel .flow
        let items ← flowItems fuel false
        return item :: items

/-- Reads the entries of a flow mapping up to its end. -/
def flowEntries : Nat → Bool → Reading (List (Nat × Nat))
  | 0, _ => refuse
  | fuel + 1, first => do
    match ← peek with
    | .flowMappingEnd =>
      skip
      return []
    | opening =>
      if first then pure () else if opening = .flowEntry then skip else refuse
      match ← peek with
      | .flowMappingEnd =>
        skip
        return []
      | .key =>
        skip
        let entry ← flowEntry fuel .flowMappingEnd
        let entries ← flowEntries fuel false
        return entry :: entries
      | _ =>
        let key ← node fuel .flow
        let value ← addEmpty
        let entries ← flowEntries fuel false
        return (key, value) :: entries

/-- Reads a key and a value inside a flow collection with the given end. -/
def flowEntry : Nat → Token → Reading (Nat × Nat)
  | 0, _ => refuse
  | fuel + 1, ending => do
    let next ← peek
    let key ←
      if next = .value || next = .flowEntry || next = ending then addEmpty
      else node fuel .flow
    match ← peek with
    | .value =>
      skip
      let next ← peek
      let value ←
        if next = .flowEntry || next = ending then addEmpty
        else node fuel .flow
      return (key, value)
    | _ => return (key, ← addEmpty)

end

/-- Reads the directives in front of a document and takes over the handles that they declare. -/
def directives : Nat → Bool → Handles → Reading Unit
  | 0, _, _ => refuse
  | fuel + 1, versioned, declared => do
    match ← peek with
    | .directive (.version major _) =>
      skip
      if versioned || major != 1 then refuse else directives fuel true declared
    | .directive (.tag handle uri) =>
      skip
      if (declared.lookup handle).isSome then refuse
      else directives fuel versioned (declared ++ [(handle, uri)])
    | .directive .other =>
      skip
      directives fuel versioned declared
    | _ => modify fun parse => { parse with handles := declared ++ standardHandles }

/-- Passes over the markers that end documents. -/
def dropEnds : Nat → Reading Unit
  | 0 => refuse
  | fuel + 1 => do
    match ← peek with
    | .documentEnd =>
      skip
      dropEnds fuel
    | _ => return ()

/-- Makes sure that no other document follows. -/
def finish (size : Nat) : Reading Unit := do
  dropEnds size
  match ← peek with
  | .streamEnd => return ()
  | _ =>
    directives size false []
    refuse

/-- Whether a token cannot be part of a document. -/
def isBoundary : Token → Bool
  | .directive _ | .documentStart | .documentEnd | .streamEnd => true
  | _ => false

/-- Reads the only document of a stream; nothing if there is none. -/
def document (size : Nat) : Reading (Option Nat) := do
  match ← peek with
  | .streamEnd => return none
  | .directive _ | .documentStart =>
    directives size false []
    match ← peek with
    | .documentStart =>
      skip
      let root ← if isBoundary (← peek) then addEmpty else node size .block
      finish size
      return some root
    | _ => refuse
  | _ =>
    let root ← node size .block
    finish size
    return some root

end Reading

/--
The nodes of a document and the number of its root; no number if the document is
empty.  There are at most four tokens for a character, and a token is at most two
steps of reading.
-/
def Node.read? (document : Text) : Except Failure (Array Node × Option Nat) := do
  let scan ← Scan.start document
  let (root, parse) ← (Reading.document (8 * scan.size + 8)).run { scan }
  return (parse.nodes, root)

end ApiDocs.Yaml
