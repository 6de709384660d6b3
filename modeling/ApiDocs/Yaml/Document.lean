import ApiDocs.Yaml.Load

/-!
# The value of a YAML document

Loaded collections refer to each other by number, and may hold themselves.  As a
value a collection is unfolded; where it would come again inside itself, only that
it does is kept.  What has no part in a cycle is unfolded once and shared.  The
values under the root are unfolded each on its own, since each is shown on its own.
-/

namespace ApiDocs.Yaml

/-- Unfolded collections that have no part in a cycle, by number. -/
abbrev Unfolded := Array (Option Value)

/-- A value and the collections around it that it refers to. -/
structure Open where
  value : Value
  refers : List Nat := []
  deriving Inhabited

/-- The value that stands for a collection inside itself. -/
def Collection.again : Collection → Value
  | .map _ => .enclosingMap
  | _ => .enclosingList

/-- Puts unfolded parts together. -/
def Open.ofParts (make : List Value → Value) (parts : List Open) : Open :=
  { value := make (parts.map Open.value), refers := parts.flatMap Open.refers }

/-- Unfolds a part inside the given collections, each of which is around it once. -/
def unfold (filled : Array (Option Collection)) :
    Nat → List Nat → Part → StateM Unfolded Open
  | _, _, .value value => return { value }
  | 0, _, .collection _ => return { value := .null }
  | fuel + 1, around, .collection number => do
    match ((← get)[number]?).join, (filled[number]?).join with
    | some value, _ => return { value }
    | none, none => return { value := .null }
    | none, some content =>
      if around.contains number then return { value := content.again, refers := [number] }
      else
        let inside (part : Part) : StateM Unfolded Open :=
          unfold filled fuel (number :: around) part
        let made ←
          match content with
          | .list parts => Open.ofParts .list <$> parts.mapM inside
          | .map entries =>
            Open.ofParts (fun values => .map ((entries.map Prod.fst).zip values)) <$>
              entries.mapM fun (_, value) => inside value
          | .set items => pure { value := .ofItems items }
          | .pairs pairs =>
            Open.ofParts .list <$> pairs.mapM fun (first, second) => do
              let left ← inside first
              let right ← inside second
              pure { value := .pair left.value right.value, refers := left.refers ++ right.refers }
        if made.refers.isEmpty then
          modify fun unfolded => unfolded.setIfInBounds number (some made.value)
          return made
        else return { made with refers := (made.refers.filter (· != number)).eraseDups }

/-- Unfolds a part that stands alone. -/
def unfoldAlone (filled : Array (Option Collection)) (part : Part) : StateM Unfolded Value := do
  return (← unfold filled (filled.size + 1) [] part).value

/-- The value of a loaded document. -/
def valueOf (filled : Array (Option Collection)) (root : Part) : Value :=
  let unfolded : StateM Unfolded Value :=
    match root with
    | .value value => pure value
    | .collection number =>
      match (filled[number]?).join with
      | some (.map entries) =>
        Value.map <$> entries.mapM fun (key, value) => do
          return (key, ← unfoldAlone filled value)
      | _ => unfoldAlone filled root
  (StateT.run unfolded (Array.replicate filled.size none)).fst

/-- The value of a document; an empty document has the null value. -/
def load (document : Text) : Except Failure Value := do
  let (nodes, root) ← Node.read? document
  match root with
  | none => return .null
  | some root =>
    let (part, loading) ← (Load.all root).run (.start nodes)
    return valueOf loading.filled part

end ApiDocs.Yaml
