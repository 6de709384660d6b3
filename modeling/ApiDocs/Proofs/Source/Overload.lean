import Mathlib.Data.List.Chain
import ApiDocs.Proofs.Outcome
import ApiDocs.Proofs.Source.Member
import ApiDocs.Source.Reader

/-!
# Overloads and their implementations

Grouping forms cuts their list into groups and changes nothing else.  The laws of such a cut
are stated with a key that tells forms of different functions apart: the forms of a group have
one key, its overloads implement nothing, and a group ends only with an implementation or
before another key.  There is exactly one cut that follows these laws.
-/

namespace ApiDocs

namespace FormGroup

variable {α κ : Type} {key : α → κ} {implements : α → Bool}

theorem head?_forms (group : FormGroup α) :
    group.forms.head? = some (group.overloads.headD group.last) := by
  rw [forms]
  cases group.overloads with
  | nil => rfl
  | cons first more => rfl

/-- A list of forms is cut into groups. -/
structure Partitions (key : α → κ) (implements : α → Bool) (list : List α)
    (groups : List (FormGroup α)) : Prop where
  /-- The groups give back all forms in their order. -/
  whole : groups.flatMap forms = list
  /-- The forms of a group have the same key. -/
  alike : ∀ group ∈ groups, ∀ form ∈ group.forms, key form = key group.last
  /-- No overload is an implementation. -/
  overloads : ∀ group ∈ groups, ∀ form ∈ group.overloads, implements form = false
  /-- Groups are cut only behind an implementation or between different keys. -/
  apart : groups.IsChain fun first second =>
    implements first.last = true ∨ key first.last ≠ key second.last

namespace Partitions

variable {list rest : List α} {group : FormGroup α} {groups : List (FormGroup α)}

theorem nil : Partitions key implements [] [] where
  whole := rfl
  alike := by simp
  overloads := by simp
  apart := List.isChain_nil

/-- The first form has the key of the first group. -/
theorem exists_cons {form : α} (cut : Partitions key implements (form :: rest) groups) :
    ∃ first others, groups = first :: others ∧ key form = key first.last := by
  have whole := cut.whole
  cases groups with
  | nil => cases whole
  | cons first others =>
      refine ⟨first, others, rfl, cut.alike first List.mem_cons_self form ?_⟩
      obtain ⟨more, isForms⟩ := List.head?_eq_some_iff.mp first.head?_forms
      rw [List.flatMap_cons, isForms, List.cons_append] at whole
      rw [isForms, ← (List.cons.inj whole).1]
      exact List.mem_cons_self

theorem key_of_mem_head? {form : α} (cut : Partitions key implements (form :: rest) groups)
    (isFirst : group ∈ groups.head?) : key form = key group.last := by
  obtain ⟨first, others, rfl, same⟩ := cut.exists_cons
  cases isFirst
  exact same

/-- A group is put in front of others. -/
theorem cons (cut : Partitions key implements rest groups) (group : FormGroup α)
    (alike : ∀ form ∈ group.overloads, key form = key group.last)
    (overloads : ∀ form ∈ group.overloads, implements form = false)
    (apart : ∀ next ∈ groups.head?, implements group.last = true ∨ key group.last ≠ key next.last) :
    Partitions key implements (group.forms ++ rest) (group :: groups) where
  whole := by rw [List.flatMap_cons, cut.whole]
  alike := by
    rw [List.forall_mem_cons]
    refine ⟨fun form member => ?_, cut.alike⟩
    rcases List.mem_append.mp member with isOverload | isLast
    · exact alike form isOverload
    · rw [List.mem_singleton.mp isLast]
  overloads := List.forall_mem_cons.mpr ⟨overloads, cut.overloads⟩
  apart := List.isChain_cons.mpr ⟨apart, cut.apart⟩

theorem tail (cut : Partitions key implements list (group :: groups)) :
    Partitions key implements (groups.flatMap forms) groups where
  whole := rfl
  alike := fun other member => cut.alike other (List.mem_cons_of_mem _ member)
  overloads := fun other member => cut.overloads other (List.mem_cons_of_mem _ member)
  apart := cut.apart.tail

/-- A group does not end while the group of another cut goes on. -/
theorem eq_nil_of_forms_append {other : FormGroup α} {others : List (FormGroup α)} {more : List α}
    (cut : Partitions key implements list (group :: groups))
    (recut : Partitions key implements list (other :: others))
    (longer : other.forms = group.forms ++ more)
    (rest : groups.flatMap forms = more ++ others.flatMap forms) : more = [] := by
  cases more with
  | nil => rfl
  | cons form more =>
      have isOverload : group.last ∈ other.overloads := by
        have cutShort := congrArg List.dropLast longer
        rw [forms, List.dropLast_concat, List.dropLast_append_of_ne_nil (List.cons_ne_nil _ _)]
          at cutShort
        rw [cutShort]
        exact List.mem_append_left _ (List.mem_append_right _ (List.mem_singleton.mpr rfl))
      have sameKey : key group.last = key form := by
        rw [recut.alike other List.mem_cons_self group.last (List.mem_append_left _ isOverload),
          recut.alike other List.mem_cons_self form ?_]
        rw [longer]
        exact List.mem_append_right _ List.mem_cons_self
      have others := cut.tail
      rw [rest, List.cons_append] at others
      obtain ⟨next, _, rfl, nextKey⟩ := others.exists_cons
      rcases (List.isChain_cons_cons.mp cut.apart).1 with isLast | apart
      · rw [recut.overloads other List.mem_cons_self _ isOverload] at isLast
        cases isLast
      · exact absurd (sameKey.trans nextKey) apart

/-- The laws leave one cut. -/
theorem unique {others : List (FormGroup α)} (cut : Partitions key implements list groups)
    (recut : Partitions key implements list others) : others = groups := by
  induction groups generalizing list others with
  | nil =>
      cases others with
      | nil => rfl
      | cons other others =>
          have whole := recut.whole
          rw [← cut.whole, List.flatMap_nil, List.flatMap_cons, forms] at whole
          simp at whole
  | cons group groups ih =>
      cases others with
      | nil =>
          have whole := cut.whole
          rw [← recut.whole, List.flatMap_nil, List.flatMap_cons, forms] at whole
          simp at whole
      | cons other others =>
          have same := recut.whole.trans cut.whole.symm
          rw [List.flatMap_cons, List.flatMap_cons] at same
          have ends : other.forms = group.forms ∧ others.flatMap forms = groups.flatMap forms := by
            rcases List.append_eq_append_iff.mp same with ⟨more, longer, rest⟩ | ⟨more, longer, rest⟩
            · have noMore := recut.eq_nil_of_forms_append cut longer rest
              subst noMore
              exact ⟨by simpa using longer.symm, rest⟩
            · have noMore := cut.eq_nil_of_forms_append recut longer rest
              subst noMore
              exact ⟨by simpa using longer, rest.symm⟩
          obtain ⟨overloads, last⟩ := List.append_inj' ends.1 rfl
          have sameGroup : other = group := by
            obtain ⟨_, _⟩ := other
            obtain ⟨_, _⟩ := group
            cases overloads
            cases last
            rfl
          have restCut := recut.tail
          rw [ends.2] at restCut
          rw [sameGroup, ih cut.tail restCut]

end Partitions

@[simp]
theorem ofWaiting_concat (front : List α) (last : α) :
    ofWaiting (front ++ [last]) = [{ overloads := front, last }] := by
  simp [ofWaiting]

/-- Waiting forms make up a group in front of forms of another function. -/
theorem Partitions.ofWaiting_append {waiting rest : List α} {groups : List (FormGroup α)}
    (cut : Partitions key implements rest groups)
    (alike : ∀ first ∈ waiting, ∀ second ∈ waiting, key first = key second)
    (signatures : ∀ form ∈ waiting, implements form = false)
    (apart : ∀ next ∈ groups.head?, ∀ form ∈ waiting, key form ≠ key next.last) :
    Partitions key implements (waiting ++ rest) (ofWaiting waiting ++ groups) := by
  rcases List.eq_nil_or_concat' waiting with rfl | ⟨front, last, rfl⟩
  · exact cut
  · have inFront {form : α} (member : form ∈ front) : form ∈ front ++ [last] :=
      List.mem_append_left _ member
    have isLast : last ∈ front ++ [last] := List.mem_append_right _ (List.mem_singleton.mpr rfl)
    rw [ofWaiting_concat, List.singleton_append]
    refine cut.cons { overloads := front, last } ?_ ?_ ?_
    · exact fun form member => alike form (inFront member) last isLast
    · exact fun form member => signatures form (inFront member)
    · exact fun next isNext => .inr (apart next isNext last isLast)

section GroupFrom

variable {same : α → α → Bool}
variable (decides : ∀ first second, same first second = true ↔ key first = key second)

include decides

theorem joins_iff {waiting : List α} {form : α}
    (alike : ∀ first ∈ waiting, ∀ second ∈ waiting, key first = key second) :
    joins same waiting form = true ↔ ∀ first ∈ waiting, key first = key form := by
  cases waiting with
  | nil => simp [joins]
  | cons first more =>
      rw [joins, decides]
      refine ⟨fun isSame other member => ?_, fun every => every first List.mem_cons_self⟩
      exact (alike other member first List.mem_cons_self).trans isSame

/-- Waiting forms of one function, none of which is an implementation, keep the laws. -/
theorem partitions_groupFrom (waiting list : List α)
    (alike : ∀ first ∈ waiting, ∀ second ∈ waiting, key first = key second)
    (signatures : ∀ form ∈ waiting, implements form = false) :
    Partitions key implements (waiting ++ list) (groupFrom same implements waiting list) := by
  induction list generalizing waiting with
  | nil =>
      have closed := Partitions.nil.ofWaiting_append alike signatures (by simp)
      rw [List.append_nil] at closed ⊢
      rwa [List.append_nil] at closed
  | cons form rest ih =>
      -- Either the form ends the group of the forms that wait with it, or it waits with them.
      have joined (waiting : List α) (sameKey : ∀ other ∈ waiting, key other = key form)
          (signatures : ∀ form ∈ waiting, implements form = false) :
          Partitions key implements (waiting ++ form :: rest)
            (if implements form then
              { overloads := waiting, last := form } :: groupFrom same implements [] rest
            else groupFrom same implements (waiting ++ [form]) rest) := by
        rw [List.append_cons]
        split
        · rename_i isLast
          have closed := ih [] (by simp) (by simp)
          exact closed.cons { overloads := waiting, last := form } sameKey signatures
            fun _ _ => .inl isLast
        · rename_i notLast
          have keys : ∀ other ∈ waiting ++ [form], key other = key form := by
            simpa [or_imp, forall_and] using sameKey
          refine ih _ (fun first inFirst second inSecond => ?_) ?_
          · rw [keys first inFirst, keys second inSecond]
          · intro other member
            rcases List.mem_append.mp member with waits | isForm
            · exact signatures other waits
            · rw [List.mem_singleton.mp isForm, Bool.eq_false_iff]
              exact notLast
      rw [groupFrom]
      by_cases joins : joins same waiting form = true
      · simp only [joins, if_true, List.nil_append]
        exact joined waiting ((joins_iff decides alike).mp joins) signatures
      · simp only [joins]
        have others := joined [] (by simp) (by simp)
        refine others.ofWaiting_append alike signatures ?_
        intro next isNext other waits sameKey
        have nextKey := others.key_of_mem_head? isNext
        refine joins ((joins_iff decides alike).mpr fun form' waits' => ?_)
        rw [alike form' waits' other waits, sameKey, nextKey]

/-- Grouping a list of forms gives the one cut that follows the laws. -/
theorem partitions_iff_group {list : List α} {groups : List (FormGroup α)} :
    Partitions key implements list groups ↔ groups = group same implements list := by
  have cut : Partitions key implements list (group same implements list) :=
    partitions_groupFrom decides [] list (by simp) (by simp)
  refine ⟨cut.unique, ?_⟩
  rintro rfl
  exact cut

end GroupFrom

end FormGroup

/-! ## Forms read from a syntax tree -/

theorem callForm_bodyStart {source : SourceBytes} {name : Option Text} {node outer : Node}
    {jsdocs : List Text} {call : CallForm}
    (read : callForm source name node outer jsdocs = .ok call) :
    call.bodyStart.isSome = (node.at? "body").isSome := by
  rw [callForm] at read
  obtain ⟨text, -, read⟩ := bind_eq_ok_iff.mp read
  obtain ⟨start, -, read⟩ := bind_eq_ok_iff.mp read
  cases body : node.at? "body" with
  | none =>
      rw [body] at read
      cases read
      rfl
  | some body' =>
      rw [body] at read
      obtain ⟨bodyStart, -, read⟩ := bind_eq_ok_iff.mp read
      cases read
      rfl

namespace Reading

variable {source : SourceBytes} {reading next : Reading} {exported fixed : Bool}
variable {jsdocs : List Text} {node outer : Node}

/-- The forms of functions that are implementations are those with a body. -/
def FormsHaveBodies (reading : Reading) : Prop :=
  ∀ form ∈ reading.functionForms, form.implements = form.call.bodyStart.isSome

theorem FormsHaveBodies.addFunction (before : reading.FormsHaveBodies)
    (read : reading.addFunction source exported jsdocs node outer = .ok next) :
    next.FormsHaveBodies := by
  rw [Reading.addFunction] at read
  obtain ⟨name, -, read⟩ := bind_eq_ok_iff.mp read
  obtain ⟨call, made, read⟩ := bind_eq_ok_iff.mp read
  have forms : next.functionForms =
      reading.functionForms ++ [{ call, implements := (node.at? "body").isSome, exported }] := by
    dsimp only at read
    split at read
    · cases read
      rfl
    · obtain ⟨type, -, read⟩ := bind_eq_ok_iff.mp read
      cases read
      rfl
  intro form member
  rw [forms] at member
  rcases List.mem_append.mp member with old | isNew
  · exact before form old
  · rw [List.mem_singleton.mp isNew, callForm_bodyStart made]

theorem functionForms_addInterface
    (read : reading.addInterface source exported jsdocs node outer = .ok next) :
    next.functionForms = reading.functionForms := by
  rw [addInterface] at read
  obtain ⟨name, -, read⟩ := bind_eq_ok_iff.mp read
  obtain ⟨text, -, read⟩ := bind_eq_ok_iff.mp read
  cases read
  rfl

theorem functionForms_addTypeAlias
    (read : reading.addTypeAlias source exported jsdocs node outer = .ok next) :
    next.functionForms = reading.functionForms := by
  rw [addTypeAlias] at read
  obtain ⟨name, -, read⟩ := bind_eq_ok_iff.mp read
  obtain ⟨text, -, read⟩ := bind_eq_ok_iff.mp read
  cases read
  rfl

theorem functionForms_addClass (read : reading.addClass source exported jsdocs node = .ok next) :
    next.functionForms = reading.functionForms := by
  rw [addClass] at read
  obtain ⟨declaration, -, read⟩ := bind_eq_ok_iff.mp read
  dsimp only at read
  split at read <;> cases read <;> rfl

theorem functionForms_addVariable
    (read : reading.addVariable source exported fixed jsdocs node = .ok next) :
    next.functionForms = reading.functionForms := by
  rw [addVariable] at read
  obtain ⟨name, -, read⟩ := bind_eq_ok_iff.mp read
  obtain ⟨typeText, -, read⟩ := bind_eq_ok_iff.mp read
  dsimp only at read
  split at read <;> cases read <;> rfl

theorem functionForms_addVariables {nodes : List Node}
    (read : reading.addVariables source exported fixed jsdocs nodes = .ok next) :
    next.functionForms = reading.functionForms := by
  induction nodes generalizing reading with
  | nil =>
      cases read
      rfl
  | cons node rest ih =>
      obtain ⟨middle, first, others⟩ := bind_eq_ok_iff.mp read
      rw [ih others, functionForms_addVariable first]

theorem functionForms_addSpecifiers {nodes : List (List Node × Node)}
    (read : reading.addSpecifiers source nodes = .ok next) :
    next.functionForms = reading.functionForms := by
  induction nodes generalizing reading with
  | nil =>
      cases read
      rfl
  | cons pair rest ih =>
      rw [addSpecifiers] at read
      split at read
      · obtain ⟨localName, -, read⟩ := bind_eq_ok_iff.mp read
        obtain ⟨name, -, read⟩ := bind_eq_ok_iff.mp read
        obtain ⟨texts, -, read⟩ := bind_eq_ok_iff.mp read
        have others := ih read
        exact others
      · exact ih read

theorem functionForms_addClauses {nodes : List Node}
    (read : reading.addClauses source nodes = .ok next) :
    next.functionForms = reading.functionForms := by
  induction nodes generalizing reading with
  | nil =>
      cases read
      rfl
  | cons node rest ih =>
      rw [addClauses] at read
      split at read
      · obtain ⟨middle, clause, others⟩ := bind_eq_ok_iff.mp read
        exact (ih others).trans (functionForms_addSpecifiers clause)
      · exact ih read

theorem FormsHaveBodies.of_eq (before : reading.FormsHaveBodies)
    (same : next.functionForms = reading.functionForms) : next.FormsHaveBodies := by
  rwa [FormsHaveBodies, same]

theorem FormsHaveBodies.addDeclaration (before : reading.FormsHaveBodies)
    (read : reading.addDeclaration source exported jsdocs node outer = .ok next) :
    next.FormsHaveBodies := by
  rw [Reading.addDeclaration] at read
  split at read
  · exact before.of_eq (functionForms_addInterface read)
  · exact before.of_eq (functionForms_addTypeAlias read)
  · exact before.addFunction read
  · exact before.of_eq (functionForms_addClass read)
  · exact before.of_eq (functionForms_addVariables read)
  · cases read
    exact before

theorem FormsHaveBodies.addExport (before : reading.FormsHaveBodies)
    (read : reading.addExport source jsdocs node = .ok next) : next.FormsHaveBodies := by
  rw [Reading.addExport] at read
  split at read
  · split at read
    · split at read
      · cases read
        exact before
      · exact before.addDeclaration read
    · exact before.addDeclaration read
  · split at read
    · exact before.addFunction read
    · split at read
      · exact before.of_eq (functionForms_addClass read)
      · cases read
        exact before
  · exact before.of_eq (functionForms_addClauses read)

theorem FormsHaveBodies.addStatement (before : reading.FormsHaveBodies) {comments : List Node}
    (read : reading.addStatement source comments node = .ok next) : next.FormsHaveBodies := by
  obtain ⟨jsdocs, -, read⟩ := bind_eq_ok_iff.mp read
  split at read
  · exact before.addExport read
  · split at read
    · split at read
      · cases read
        exact before
      · exact before.addDeclaration read
    · exact before.addDeclaration read

theorem FormsHaveBodies.addStatements (before : reading.FormsHaveBodies)
    {statements : List (List Node × Node)}
    (read : reading.addStatements source statements = .ok next) : next.FormsHaveBodies := by
  induction statements generalizing reading with
  | nil =>
      cases read
      exact before
  | cons statement rest ih =>
      obtain ⟨middle, first, others⟩ := bind_eq_ok_iff.mp read
      exact ih (before.addStatement first) others

end Reading

/-- The functions of a file are made of forms, of which those with a body are implementations. -/
theorem SourceFile.exists_functionForms {path : Text} {source : SourceBytes} {root : Node}
    {file : SourceFile} (read : SourceFile.ofTree path source root = .ok file) :
    ∃ forms, file.functions = FunctionForm.functions forms ∧
      ∀ form ∈ forms, form.implements = form.call.bodyStart.isSome := by
  rw [ofTree] at read
  obtain ⟨leading, -, read⟩ := bind_eq_ok_iff.mp read
  obtain ⟨reading, made, read⟩ := bind_eq_ok_iff.mp read
  cases read
  have before : Reading.FormsHaveBodies {} := by simp [Reading.FormsHaveBodies]
  exact ⟨_, rfl, before.addStatements made⟩

theorem MemberKind.ofNode_eq_methodSignature_iff (node : Node) :
    MemberKind.ofNode node = .methodSignature ↔ node.kind = "method_signature" := by
  simp only [MemberKind.ofNode]
  grind

/-- A form of a method is an implementation unless its member is a method signature. -/
theorem MemberEntry.IsOf.implements_iff {source : SourceBytes} {scope : Scope}
    {comments : List Node} {member : Node} {form : MethodForm}
    (isOf : MemberEntry.IsOf source scope comments member (.method form)) :
    form.implements = true ↔ member.kind ≠ "method_signature" := by
  rw [Ne, ← MemberKind.ofNode_eq_methodSignature_iff]
  cases isOf with
  | method => exact decide_eq_true_iff

/-- Each form of a method is made of the member for which it stands. -/
theorem ClassDeclaration.exists_methodForms {source : SourceBytes} {scope : Scope} {exported : Bool}
    {jsdocs : List Text} {node : Node} {declaration : ClassDeclaration}
    (read : ClassDeclaration.ofNode source scope exported jsdocs node = .ok declaration) :
    ∃ entries,
      declaration.methods = MethodForm.methods (entries.filterMap MemberEntry.method?) ∧
      List.Forall₂ (fun pair entry => MemberEntry.IsOf source scope pair.1 pair.2 entry ∧
        ∀ form, entry = .method form → (form.implements = true ↔ pair.2.kind ≠ "method_signature"))
        (memberNodes node) entries := by
  obtain ⟨-, -, -, entries, areOf, made⟩ := exists_memberEntries read
  refine ⟨entries, made.methods, areOf.imp fun pair entry isOf => ⟨isOf, ?_⟩⟩
  rintro form rfl
  exact isOf.implements_iff

/-! ## Declarations -/

/-- A function is made of a group of forms. -/
structure FunctionForm.MakesUp (group : FormGroup FunctionForm) (function : FunctionDeclaration) :
    Prop where
  implementation : function.implementation = group.last.call
  overloads : function.overloads = group.overloads.map call
  exported : group.last.implements = true → function.exported = group.last.exported
  /-- Without an implementation the first form says whether the function is exported. -/
  exportedByFirst : group.last.implements = false →
    ∀ first ∈ group.forms.head?, function.exported = first.exported

/-- A method is made of a group of forms. -/
structure MethodForm.MakesUp (group : FormGroup MethodForm) (method : MethodDeclaration) :
    Prop where
  name : method.name = group.last.call.name.getD ""
  implementation : method.implementation = group.last.call
  overloads : method.overloads = group.overloads.map call
  isStatic : ∀ form ∈ group.forms, method.isStatic = form.isStatic
  isPrivate : group.last.implements = true → method.isPrivate = group.last.isPrivate
  /-- Without an implementation the first form says whether the method is private. -/
  privateByFirst : group.last.implements = false →
    ∀ first ∈ group.forms.head?, method.isPrivate = first.isPrivate

theorem FormGroup.speaker_of_not_implements {α : Type} {implements : α → Bool} {group : FormGroup α}
    {first : α} (notLast : implements group.last = false) (isFirst : first ∈ group.forms.head?) :
    group.speaker implements = first := by
  rw [head?_forms] at isFirst
  cases isFirst
  rw [speaker, notLast, if_neg Bool.false_ne_true]

theorem FormGroup.speaker_mem_forms {α : Type} (implements : α → Bool) (group : FormGroup α) :
    group.speaker implements ∈ group.forms := by
  rw [speaker]
  split
  · exact List.mem_append_right _ (List.mem_singleton.mpr rfl)
  · exact List.mem_of_mem_head? group.head?_forms

theorem FunctionForm.makesUp_functions (forms : List FunctionForm) :
    List.Forall₂ MakesUp (FormGroup.group
      (fun left right => left.call.name == right.call.name) implements forms) (functions forms) := by
  rw [functions, List.forall₂_map_right_iff, List.forall₂_same]
  intro group _
  refine ⟨rfl, rfl, fun isLast => ?_, fun notLast first isFirst => ?_⟩
  · simp [FormGroup.speaker, isLast]
  · dsimp only
    rw [FormGroup.speaker_of_not_implements notLast isFirst]

theorem MethodForm.makesUp_methods {forms : List MethodForm} {groups : List (FormGroup MethodForm)}
    (cut : FormGroup.Partitions (fun form => (form.call.name, form.isStatic)) implements forms groups)
    (made : groups = FormGroup.group (fun left right =>
      left.call.name == right.call.name && left.isStatic == right.isStatic) implements forms) :
    List.Forall₂ MakesUp groups (methods forms) := by
  rw [methods, ← made, List.forall₂_map_right_iff, List.forall₂_same]
  intro group member
  refine ⟨rfl, rfl, rfl, fun form inGroup => ?_, fun isLast => ?_, fun notLast first isFirst => ?_⟩
  · have speaks := cut.alike group member _ (FormGroup.speaker_mem_forms implements group)
    have same := cut.alike group member form inGroup
    exact (congrArg Prod.snd speaks).trans (congrArg Prod.snd same).symm
  · simp [FormGroup.speaker, isLast]
  · dsimp only
    rw [FormGroup.speaker_of_not_implements notLast isFirst]

/--
The functions and methods of a source file cut its forms into groups.  For all forms of functions
there is one cut that keeps them in order, with forms of one name in each group, overloads that
are no implementations, and cuts behind implementations or between names only; and the functions
are made of its groups.  The same holds for methods, whose static forms are kept apart as well.
In a source file, the forms of functions that are implementations are those with a body; in a
class, each form of a method is made of its own member, and it is an implementation unless that
member is a method signature.
-/
theorem declarations_partition_forms :
    (∀ forms : List FunctionForm, ∃ groups,
      (∀ cut, FormGroup.Partitions (fun form => form.call.name) FunctionForm.implements forms cut ↔
        cut = groups) ∧
      List.Forall₂ FunctionForm.MakesUp groups (FunctionForm.functions forms)) ∧
    (∀ forms : List MethodForm, ∃ groups,
      (∀ cut, FormGroup.Partitions (fun form => (form.call.name, form.isStatic))
          MethodForm.implements forms cut ↔ cut = groups) ∧
      List.Forall₂ MethodForm.MakesUp groups (MethodForm.methods forms)) ∧
    (∀ path source root file, SourceFile.ofTree path source root = .ok file →
      ∃ forms, file.functions = FunctionForm.functions forms ∧
        ∀ form ∈ forms, form.implements = form.call.bodyStart.isSome) ∧
    ∀ source scope exported jsdocs node declaration,
      ClassDeclaration.ofNode source scope exported jsdocs node = .ok declaration →
        ∃ entries,
          declaration.methods = MethodForm.methods (entries.filterMap MemberEntry.method?) ∧
          List.Forall₂ (fun pair entry => MemberEntry.IsOf source scope pair.1 pair.2 entry ∧
            ∀ form, entry = .method form →
              (form.implements = true ↔ pair.2.kind ≠ "method_signature"))
            (ClassDeclaration.memberNodes node) entries := by
  refine ⟨fun forms => ⟨_, fun cut => ?_, FunctionForm.makesUp_functions forms⟩,
    fun forms => ?_, fun path source root file => SourceFile.exists_functionForms,
    fun source scope exported jsdocs node declaration => ClassDeclaration.exists_methodForms⟩
  · exact FormGroup.partitions_iff_group fun first second => by simp
  · have cuts (cut : List (FormGroup MethodForm)) :
        FormGroup.Partitions (fun form => (form.call.name, form.isStatic)) MethodForm.implements forms
          cut ↔ cut = FormGroup.group (fun left right =>
            left.call.name == right.call.name && left.isStatic == right.isStatic)
            MethodForm.implements forms :=
      FormGroup.partitions_iff_group fun first second => by simp
    exact ⟨_, cuts, MethodForm.makesUp_methods ((cuts _).mpr rfl) rfl⟩

/-- A class with a static signature and a method of the same name that is not static. -/
def neighbourClass : Node :=
  .mk "class_declaration" true 27 52 none
    [.mk "class" false 27 32 none [], .mk "type_identifier" true 33 34 (some "name") [],
      .mk "class_body" true 34 52 (some "body")
        [.mk "method_signature" true 35 45 none
            [.mk "static" false 35 41 none [], .mk "property_identifier" true 42 43 (some "name") [],
              .mk "formal_parameters" true 43 45 (some "parameters") []],
          .mk "method_definition" true 46 51 none
            [.mk "property_identifier" true 46 47 (some "name") [],
              .mk "formal_parameters" true 47 49 (some "parameters") [],
              .mk "statement_block" true 49 51 (some "body") []]]]

/-- The class behind a function with one overload. -/
def neighbourFile : Node :=
  .mk "program" true 0 52 none
    [.mk "function_signature" true 0 13 none
        [.mk "function" false 0 8 none [], .mk "identifier" true 9 10 (some "name") [],
          .mk "formal_parameters" true 10 12 (some "parameters") []],
      .mk "function_declaration" true 13 27 none
        [.mk "function" false 13 21 none [], .mk "identifier" true 22 23 (some "name") [],
          .mk "formal_parameters" true 23 25 (some "parameters") [],
          .mk "statement_block" true 25 27 (some "body") []],
      neighbourClass]

def neighbourSource : SourceBytes :=
  Text.Utf8.encode "function f();function f()\x7b\x7dclass A\x7bstatic m();m()\x7b\x7d\x7d"

/-- The forms of the function make up one group, and those of the methods two. -/
theorem neighbourSource_partitions_forms :
    (∃ file forms group, SourceFile.ofTree "a.ts" neighbourSource neighbourFile = .ok file ∧
      (∀ form ∈ forms, form.implements = form.call.bodyStart.isSome) ∧
      FormGroup.Partitions (fun form => form.call.name) FunctionForm.implements forms [group] ∧
      List.Forall₂ FunctionForm.MakesUp [group] file.functions) ∧
    ∃ declaration forms static own,
      ClassDeclaration.ofNode neighbourSource [] false [] neighbourClass = .ok declaration ∧
      FormGroup.Partitions (fun form => (form.call.name, form.isStatic)) MethodForm.implements forms
        [static, own] ∧
      List.Forall₂ MethodForm.MakesUp [static, own] declaration.methods := by
  obtain ⟨functions, methods, bodies, signatures⟩ := declarations_partition_forms
  constructor
  · have one : ((SourceFile.ofTree "a.ts" neighbourSource neighbourFile).map
        fun file => file.functions.length).toOption = some 1 := by
      decide +kernel
    cases read : SourceFile.ofTree "a.ts" neighbourSource neighbourFile with
    | error fault =>
        rw [read] at one
        cases one
    | ok file =>
        rw [read] at one
        obtain ⟨forms, made, marked⟩ := bodies _ _ _ _ read
        obtain ⟨groups, cuts, makeUp⟩ := functions forms
        rw [← made] at makeUp
        obtain ⟨group, rfl⟩ := List.length_eq_one_iff.mp (makeUp.length_eq.trans (Option.some.inj one))
        exact ⟨file, forms, group, rfl, marked, (cuts _).mpr rfl, makeUp⟩
  · have two : ((ClassDeclaration.ofNode neighbourSource [] false [] neighbourClass).map
        fun declaration => declaration.methods.length).toOption = some 2 := by
      decide +kernel
    cases read : ClassDeclaration.ofNode neighbourSource [] false [] neighbourClass with
    | error fault =>
        rw [read] at two
        cases two
    | ok declaration =>
        rw [read] at two
        obtain ⟨entries, made, -⟩ := signatures _ _ _ _ _ _ read
        obtain ⟨groups, cuts, makeUp⟩ := methods (entries.filterMap MemberEntry.method?)
        rw [← made] at makeUp
        obtain ⟨static, own, rfl⟩ :=
          List.length_eq_two.mp (makeUp.length_eq.trans (Option.some.inj two))
        exact ⟨declaration, _, static, own, rfl, (cuts _).mpr rfl, makeUp⟩

end ApiDocs
