import ApiDocs.Proofs.Outcome
import ApiDocs.Proofs.Source.Attachment
import ApiDocs.Source.Member

/-!
# The members of a class

Reading a class goes over the members of its body, and each member adds one thing at most to what
was read before.  What a member is read as does not depend on the other members: it is told by a
relation between the member, with the comments in front of it, and an *entry*.  A class is then
made of the entries of its members, in their order.
-/

namespace ApiDocs

/-- What a member of a class is read as. -/
inductive MemberEntry where
  | constructor (form : CallForm)
  | method (form : MethodForm)
  | property (declaration : PropertyDeclaration)
  /-- A class keeps nothing of an accessor or of a member without a name. -/
  | nothing
  deriving DecidableEq, Repr

namespace MemberEntry

/-- The form of a constructor. -/
def constructor? : MemberEntry → Option CallForm
  | constructor form => some form
  | _ => none

/-- The form of a method. -/
def method? : MemberEntry → Option MethodForm
  | method form => some form
  | _ => none

/-- The property. -/
def property? : MemberEntry → Option PropertyDeclaration
  | property declaration => some declaration
  | _ => none

/-- The comments that document the member. -/
def jsdocs : MemberEntry → List Text
  | constructor form => form.jsdocs
  | method form => form.call.jsdocs
  | property declaration => declaration.jsdocs
  | nothing => []

/-- The form that was made of the member, if it is a method or a constructor. -/
def form? : MemberEntry → Option CallForm
  | constructor form => some form
  | method form => some form.call
  | _ => none

end MemberEntry

/-- The kinds of member that have parameters. -/
def MemberKind.isMethod : MemberKind → Bool
  | .method | .methodSignature | .abstractMethod => true
  | .property | .other => false

/-- A member, with the comments in front of it, is read as an entry. -/
inductive MemberEntry.IsOf (source : SourceBytes) (scope : Scope) (comments : List Node)
    (member : Node) : MemberEntry → Prop where
  | constructor {jsdocs : List Text} {nameNode : Node} {form : CallForm}
      (documented : jsdocsOf source comments = .ok jsdocs)
      (isMethod : (MemberKind.ofNode member).isMethod = true)
      (named : member.at? "name" = some nameNode)
      (called : source.textOf nameNode = .ok "constructor")
      (made : callForm source (some "constructor") member member jsdocs = .ok form) :
      IsOf source scope comments member (.constructor form)
  | method {jsdocs : List Text} {nameNode : Node} {name : Text} {modifiers : Modifiers}
      {call : CallForm}
      (documented : jsdocsOf source comments = .ok jsdocs)
      (isMethod : (MemberKind.ofNode member).isMethod = true)
      (named : member.at? "name" = some nameNode)
      (called : source.textOf nameNode = .ok name)
      (noConstructor : name ≠ "constructor")
      (modified : Modifiers.of source member nameNode = .ok modifiers)
      (noAccessor : modifiers.isAccessor = false)
      (made : callForm source (some name) member member jsdocs = .ok call) :
      IsOf source scope comments member
        (.method
          { call
            implements := decide (MemberKind.ofNode member ≠ .methodSignature)
            isStatic := modifiers.isStatic
            isPrivate := modifiers.isPrivate })
  | property {jsdocs : List Text} {nameNode : Node} {name typeText : Text} {modifiers : Modifiers}
      (documented : jsdocsOf source comments = .ok jsdocs)
      (isProperty : MemberKind.ofNode member = .property)
      (named : member.at? "name" = some nameNode)
      (called : source.textOf nameNode = .ok name)
      (modified : Modifiers.of source member nameNode = .ok modifiers)
      (typed : declaredType source scope modifiers.isReadonly member = .ok typeText) :
      IsOf source scope comments member
        (.property
          { name, typeText, jsdocs
            isStatic := modifiers.isStatic
            isPrivate := modifiers.isPrivate
            isReadonly := modifiers.isReadonly })
  /-- Something else than a method and a property. -/
  | other (isOther : MemberKind.ofNode member = .other) :
      IsOf source scope comments member .nothing
  | nameless (noName : member.at? "name" = none) : IsOf source scope comments member .nothing
  | accessor {nameNode : Node} {modifiers : Modifiers}
      (isMethod : (MemberKind.ofNode member).isMethod = true)
      (named : member.at? "name" = some nameNode)
      (modified : Modifiers.of source member nameNode = .ok modifiers)
      (isAccessor : modifiers.isAccessor = true) :
      IsOf source scope comments member .nothing

namespace Members

variable {source : SourceBytes} {scope : Scope} {members next : Members}
variable {comments : List Node} {member : Node} {jsdocs : List Text}

/-- Adds the entry of one more member. -/
def push (members : Members) : MemberEntry → Members
  | .constructor form => { members with constructors := members.constructors ++ [form] }
  | .method form => { members with methodForms := members.methodForms ++ [form] }
  | .property declaration => { members with properties := members.properties ++ [declaration] }
  | .nothing => members

theorem foldl_push (members : Members) (entries : List MemberEntry) :
    entries.foldl push members =
      { constructors := members.constructors ++ entries.filterMap MemberEntry.constructor?
        methodForms := members.methodForms ++ entries.filterMap MemberEntry.method?
        properties := members.properties ++ entries.filterMap MemberEntry.property? } := by
  induction entries generalizing members with
  | nil => simp
  | cons entry rest ih =>
      rw [List.foldl_cons, ih]
      cases entry <;>
        simp [push, List.filterMap_cons, MemberEntry.constructor?, MemberEntry.method?,
          MemberEntry.property?]

/-- Adding a method adds its entry. -/
theorem exists_of_addMethod {implements : Bool}
    (documented : jsdocsOf source comments = .ok jsdocs)
    (isMethod : (MemberKind.ofNode member).isMethod = true)
    (marked : implements = decide (MemberKind.ofNode member ≠ .methodSignature))
    (read : members.addMethod source implements member jsdocs = .ok next) :
    ∃ entry, MemberEntry.IsOf source scope comments member entry ∧ next = members.push entry := by
  rw [addMethod] at read
  cases named : member.at? "name" with
  | none =>
      rw [named] at read
      cases read
      exact ⟨.nothing, .nameless named, rfl⟩
  | some nameNode =>
      rw [named] at read
      obtain ⟨name, isName, read⟩ := bind_eq_ok_iff.mp read
      obtain ⟨modifiers, modified, read⟩ := bind_eq_ok_iff.mp read
      obtain ⟨call, made, read⟩ := bind_eq_ok_iff.mp read
      dsimp only at read
      split at read
      · rename_i isConstructor
        cases read
        subst isConstructor
        exact ⟨.constructor call, .constructor documented isMethod named isName made, rfl⟩
      · rename_i noConstructor
        split at read
        · rename_i isAccessor
          cases read
          exact ⟨.nothing, .accessor isMethod named modified isAccessor, rfl⟩
        · rename_i noAccessor
          rw [Bool.not_eq_true] at noAccessor
          cases read
          subst marked
          exact ⟨_, .method documented isMethod named isName noConstructor modified noAccessor made,
            rfl⟩

theorem exists_of_addProperty (documented : jsdocsOf source comments = .ok jsdocs)
    (isProperty : MemberKind.ofNode member = .property)
    (read : members.addProperty source scope member jsdocs = .ok next) :
    ∃ entry, MemberEntry.IsOf source scope comments member entry ∧ next = members.push entry := by
  rw [addProperty] at read
  cases named : member.at? "name" with
  | none =>
      rw [named] at read
      cases read
      exact ⟨.nothing, .nameless named, rfl⟩
  | some nameNode =>
      rw [named] at read
      obtain ⟨modifiers, modified, read⟩ := bind_eq_ok_iff.mp read
      obtain ⟨typeText, typed, read⟩ := bind_eq_ok_iff.mp read
      obtain ⟨name, isName, read⟩ := bind_eq_ok_iff.mp read
      cases read
      exact ⟨_, .property documented isProperty named isName modified typed, rfl⟩

/-- One step of reading a class adds the entry of one member. -/
theorem exists_of_add (read : members.add source scope comments member = .ok next) :
    ∃ entry, MemberEntry.IsOf source scope comments member entry ∧ next = members.push entry := by
  obtain ⟨jsdocs, documented, read⟩ := bind_eq_ok_iff.mp read
  cases kind : MemberKind.ofNode member with
  | method | abstractMethod | methodSignature =>
      rw [kind] at read
      exact exists_of_addMethod documented (by rw [kind]; rfl) (by rw [kind]; rfl) read
  | property =>
      rw [kind] at read
      exact exists_of_addProperty documented kind read
  | other =>
      rw [kind] at read
      cases read
      exact ⟨.nothing, .other kind, rfl⟩

theorem exists_of_addAll {list : List (List Node × Node)}
    (read : members.addAll source scope list = .ok next) :
    ∃ entries,
      List.Forall₂ (fun pair => MemberEntry.IsOf source scope pair.1 pair.2) list entries ∧
      next = entries.foldl push members := by
  induction list generalizing members with
  | nil =>
      cases read
      exact ⟨[], .nil, rfl⟩
  | cons pair rest ih =>
      obtain ⟨middle, first, others⟩ := bind_eq_ok_iff.mp read
      obtain ⟨entry, isOf, rfl⟩ := exists_of_add first
      obtain ⟨entries, areOf, rfl⟩ := ih others
      exact ⟨entry :: entries, .cons isOf areOf, rfl⟩

end Members

namespace ClassDeclaration

/-- The members of a class, each with the comments in front of it. -/
def memberNodes (node : Node) : List (List Node × Node) :=
  match node.at? "body" with
  | none => []
  | some body => documentable (fun child => child.kind == "decorator") body.children

/-- A class has the constructors, methods and properties of some entries, in their order. -/
structure IsMadeOf (declaration : ClassDeclaration) (entries : List MemberEntry) : Prop where
  constructors : declaration.constructors = entries.filterMap MemberEntry.constructor?
  methods : declaration.methods = MethodForm.methods (entries.filterMap MemberEntry.method?)
  properties : declaration.properties = entries.filterMap MemberEntry.property?

theorem bodyMembers_eq_memberNodes (node : Node) : bodyMembers node = memberNodes node := by
  rw [bodyMembers, memberNodes]
  cases node.at? "body" with
  | none => rfl
  | some body => exact attachComments_eq_documentable _ body.children

/-- A class is made of the entries of its members. -/
theorem exists_memberEntries {source : SourceBytes} {scope : Scope} {exported : Bool}
    {jsdocs : List Text} {node : Node} {declaration : ClassDeclaration}
    (read : ofNode source scope exported jsdocs node = .ok declaration) :
    source.textAt? node "name" = .ok declaration.name ∧ declaration.exported = exported ∧
      declaration.jsdocs = jsdocs ∧
      ∃ entries,
        List.Forall₂ (fun pair => MemberEntry.IsOf source scope pair.1 pair.2) (memberNodes node)
          entries ∧
        declaration.IsMadeOf entries := by
  rw [ofNode] at read
  obtain ⟨name, named, read⟩ := bind_eq_ok_iff.mp read
  obtain ⟨typeParameters, -, read⟩ := bind_eq_ok_iff.mp read
  obtain ⟨members, made, read⟩ := bind_eq_ok_iff.mp read
  cases read
  obtain ⟨entries, areOf, rfl⟩ := Members.exists_of_addAll made
  rw [bodyMembers_eq_memberNodes] at areOf
  refine ⟨named, rfl, rfl, entries, areOf, ?_, ?_, ?_⟩ <;>
    simp [Members.foldl_push]

end ClassDeclaration

end ApiDocs
