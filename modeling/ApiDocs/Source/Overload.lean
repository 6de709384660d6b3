import ApiDocs.Source.Basic

/-!
# Overloads

The forms of a function stand one after the other: signatures and then the
implementation.  Forms are grouped in the order of the source.  A group ends with
an implementation, or before a form of another function.
-/

namespace ApiDocs

/-- Forms that belong together: the overloads and the form that stands for the group. -/
structure FormGroup (α : Type) where
  overloads : List α
  last : α
  deriving DecidableEq, Repr

namespace FormGroup

variable {α : Type}

/-- All forms of a group. -/
def forms (group : FormGroup α) : List α :=
  group.overloads ++ [group.last]

/-- The group of some waiting forms; none if no form is waiting. -/
def ofWaiting (waiting : List α) : List (FormGroup α) :=
  match waiting.getLast? with
  | none => []
  | some last => [{ overloads := waiting.dropLast, last }]

@[simp]
theorem ofWaiting_nil : ofWaiting ([] : List α) = [] := rfl

/-- Whether the form belongs to the waiting forms. -/
def joins (same : α → α → Bool) (waiting : List α) (form : α) : Bool :=
  match waiting with
  | [] => true
  | first :: _ => same first form

/-- Groups forms, of which some are waiting for their implementation. -/
def groupFrom (same : α → α → Bool) (implements : α → Bool) :
    List α → List α → List (FormGroup α)
  | waiting, [] => ofWaiting waiting
  | waiting, form :: rest =>
    let closed := if joins same waiting form then [] else ofWaiting waiting
    let open' := if joins same waiting form then waiting else []
    closed ++
      if implements form then
        { overloads := open', last := form } :: groupFrom same implements [] rest
      else groupFrom same implements (open' ++ [form]) rest

/-- Groups forms. -/
def group (same : α → α → Bool) (implements : α → Bool) (list : List α) : List (FormGroup α) :=
  groupFrom same implements [] list

/-- The form that speaks for a group: its implementation, or else its first form. -/
def speaker (implements : α → Bool) (group : FormGroup α) : α :=
  if implements group.last then group.last else group.overloads.headD group.last

end FormGroup

/-- A form of a function, with what belongs to the function. -/
structure FunctionForm where
  call : CallForm
  implements : Bool
  exported : Bool
  deriving DecidableEq, Repr, Inhabited

/-- The functions that some forms make up. -/
def FunctionForm.functions (forms : List FunctionForm) : List FunctionDeclaration :=
  (FormGroup.group (fun left right => left.call.name == right.call.name) implements forms).map
    fun group =>
      { implementation := group.last.call
        overloads := group.overloads.map call
        exported := (group.speaker implements).exported }

/-- A form of a method, with what belongs to the method. -/
structure MethodForm where
  call : CallForm
  implements : Bool
  isStatic : Bool
  isPrivate : Bool
  deriving DecidableEq, Repr, Inhabited

/-- The methods that some forms make up. -/
def MethodForm.methods (forms : List MethodForm) : List MethodDeclaration :=
  (FormGroup.group
    (fun left right => left.call.name == right.call.name && left.isStatic == right.isStatic)
    implements forms).map
    fun group =>
      { name := group.last.call.name.getD ""
        implementation := group.last.call
        overloads := group.overloads.map call
        isStatic := (group.speaker implements).isStatic
        isPrivate := (group.speaker implements).isPrivate }

end ApiDocs
