import Mathlib.Data.List.Forall2
import ApiDocs.Proofs.Module.Collections
import ApiDocs.Proofs.Module.LastBlock
import ApiDocs.Proofs.Source.Documentation
import ApiDocs.Proofs.Source.Overload

/-!
# The block that counts

Of the blocks in front of a declaration, the last one says whether the declaration is hidden, and
the documentation in the record is that of the last block; the overloads of a function or method
are documented in front of the first of them.  Export specifiers do not follow this rule: the
first comment in front of a specifier counts, whatever it is.

Declarations of all kinds are compared by their *candidates*, which hold what the rule speaks of.
-/

namespace ApiDocs

/-- What may get documentation. -/
structure Candidate where
  /-- The name in the record; without a name there is none. -/
  name : Option Text
  /-- The name that errors use. -/
  label : Text
  isOpen : Bool
  /-- The blocks in front of it. -/
  blocks : List Text
  deriving DecidableEq, Repr

namespace Candidate

/-- The last block. -/
def comment (candidate : Candidate) : Comment :=
  Comment.read (candidate.blocks.getLast?.getD "")

/-- A candidate is shown if it is open and its last block does not hide it. -/
def isShown (candidate : Candidate) : Bool :=
  candidate.isOpen && decide candidate.comment.Admits

/-- The documentation in the last block of a candidate. -/
def Gives (context : Context) (candidate : Candidate) (doc : Doc) : Prop :=
  candidate.name = some doc.name ∧
    ∃ summary, context.check candidate.label candidate.comment = .accepted summary ∧
      doc = Doc.ofSummary doc.name summary

/-- The documentation of the shown ones among some candidates, in their order. -/
def ListedAs (context : Context) (candidates : List Candidate) (docs : List Doc) : Prop :=
  List.Forall₂ (Gives context) (candidates.filter isShown) docs

/-- The documentation of the shown ones among some candidates, in the order of their names. -/
def SortedAs (context : Context) (candidates : List Candidate) (ordered : List Doc) : Prop :=
  ∃ docs, ListedAs context candidates docs ∧ StableSort Doc.name docs ordered

end Candidate

/-! ## The candidates of each kind -/

/-- The first form of a group. -/
def FormGroup.first {α : Type} (group : FormGroup α) : α :=
  group.overloads.headD group.last

/-- An interface or a type alias. -/
def TypeDeclaration.candidate (declaration : TypeDeclaration) : Candidate where
  name := some declaration.name
  label := declaration.name
  isOpen := declaration.exported
  blocks := declaration.jsdocs

/-- A class. -/
def ClassDeclaration.candidate (declaration : ClassDeclaration) : Candidate where
  name := declaration.name
  label := declaration.name.getD ""
  isOpen := declaration.exported
  blocks := declaration.jsdocs

/-- A variable. -/
def VariableDeclaration.candidate (declaration : VariableDeclaration) : Candidate where
  name := declaration.name
  label := declaration.name.getD ""
  isOpen := declaration.exported && declaration.hasInitializer
  blocks := declaration.jsdocs

/-- The forms of a function, with the blocks in front of the first one. -/
def FunctionForm.candidate (group : FormGroup FunctionForm) : Candidate where
  name := group.last.call.name
  label := group.last.call.name.getD ""
  isOpen := (group.speaker implements).exported
  blocks := group.first.call.jsdocs

/-- The forms of a method, with the blocks in front of the first one. -/
def MethodForm.candidate (group : FormGroup MethodForm) : Candidate where
  name := some (group.last.call.name.getD "")
  label := group.last.call.name.getD ""
  isOpen := !(group.speaker implements).isPrivate
  blocks := group.first.call.jsdocs

/-- A property. -/
def PropertyDeclaration.candidate (className : Text) (declaration : PropertyDeclaration) :
    Candidate where
  name := some declaration.name
  label := className ++ "#" ++ declaration.name
  isOpen := !declaration.isStatic && !declaration.isPrivate
  blocks := declaration.jsdocs

/-- An export specifier, of whose comments the first one counts. -/
def ExportSpecifier.candidate (name : Text) (comments : List Text) : Candidate where
  name := some name
  label := name
  isOpen := true
  blocks := comments.take 1

/-! ## Records of candidates -/

/-- The members in the record of a class have the documentation in their last blocks. -/
structure Class.IsDocumentedBy (context : Context) (record : Class) (members : List MemberEntry) :
    Prop where
  methods : ∃ groups,
    FormGroup.Partitions (fun form => (form.call.name, form.isStatic)) MethodForm.implements
      (members.filterMap MemberEntry.method?) groups ∧
    ∀ isStatic, Candidate.ListedAs context
      ((groups.filter fun group =>
        (group.speaker MethodForm.implements).isStatic == isStatic).map MethodForm.candidate)
      ((if isStatic then record.staticMethods else record.methods).map Callable.doc)
  properties : Candidate.ListedAs context
    ((members.filterMap MemberEntry.property?).map (PropertyDeclaration.candidate record.doc.name))
    (record.properties.map Item.doc)

/-- A class has the documentation in its last block, and so have its members. -/
def ClassDeclaration.IsDocumentedIn (context : Context) (declaration : ClassDeclaration)
    (record : Class) : Prop :=
  declaration.candidate.Gives context record.doc ∧
    ∀ members, declaration.IsMadeOf members → record.IsDocumentedBy context members

/-- The records of a module have the documentation in the last blocks of what they document. -/
structure Module.IsDocumentedBy (context : Context) (module : Module) (entries : List SiteEntry) :
    Prop where
  classes : ∃ records,
    List.Forall₂ (ClassDeclaration.IsDocumentedIn context)
      ((entries.filterMap SiteEntry.class?).filter fun declaration => declaration.candidate.isShown)
      records ∧
    StableSort (fun record => record.doc.name) records module.classes
  interfaces : Candidate.SortedAs context
    ((entries.filterMap SiteEntry.interface?).map TypeDeclaration.candidate)
    (module.interfaces.map Item.doc)
  typeAliases : Candidate.SortedAs context
    ((entries.filterMap SiteEntry.typeAlias?).map TypeDeclaration.candidate)
    (module.typeAliases.map Item.doc)
  functions : ∃ groups,
    FormGroup.Partitions (fun form => form.call.name) FunctionForm.implements
      (entries.filterMap SiteEntry.form?) groups ∧
    Candidate.SortedAs context
      (groups.map FunctionForm.candidate ++
        ((entries.filterMap SiteEntry.binding?).filter VariableDeclaration.isFunction).map
          VariableDeclaration.candidate)
      (module.functions.map Callable.doc)
  constants : Candidate.ListedAs context
    (((entries.filterMap SiteEntry.binding?).filter fun declaration => !declaration.isFunction).map
      VariableDeclaration.candidate)
    (module.constants.map Item.doc)
  exports :
    (∀ specifier ∈ entries.filterMap SiteEntry.specifier?, specifier.2.2 ≠ []) ∧
      Candidate.ListedAs context
        ((entries.filterMap SiteEntry.specifier?).map fun (name, _, comments) =>
          ExportSpecifier.candidate name comments)
        (module.exports.map Item.doc)

/-! ## Lists of records -/

section Lists

variable {α β γ : Type} {context : Context}

/-- A stable sort sorts what the records stand for. -/
theorem StableSort.map {labelOf : γ → Text} {change : α → γ} {records ordered : List α}
    (sorted : StableSort (labelOf ∘ change) records ordered) :
    StableSort labelOf (records.map change) (ordered.map change) where
  perm := sorted.perm.map change
  ascending := List.pairwise_map.mpr sorted.ascending
  stable := by
    intro name
    rw [List.filter_map, List.filter_map]
    exact congrArg (List.map change) (sorted.stable name)

theorem forall₂_of_map_eq_map {first : α → γ} {second : β → γ} {left : List α} {right : List β}
    (same : left.map first = right.map second) :
    List.Forall₂ (fun item other => first item = second other) left right := by
  rwa [← List.forall₂_eq_eq_eq, List.forall₂_map_left_iff, List.forall₂_map_right_iff] at same

/-- Checks that were accepted one by one have records one by one. -/
theorem RecordsOf.forall₂ {check : α → Checked β} {declarations : List α} {records : List β}
    (made : RecordsOf check declarations records) :
    List.Forall₂ (fun declaration record => check declaration = .accepted record)
      declarations records :=
  forall₂_of_map_eq_map made

namespace Candidate

theorem decide_isShown_eq (isOpen : Bool) (jsdocs : List Text) :
    decide (IsShown isOpen jsdocs) =
      (isOpen && decide (Comment.read (jsdocs.getLast?.getD "")).Admits) := by
  rw [Bool.eq_iff_iff, decide_eq_true_eq]
  simp [IsShown, Comment.ofBlocks]

/-- A record made of an accepted comment has the documentation in that comment. -/
theorem gives_of_map {candidate : Candidate} {name : Text} {make : Summary → β} {docOf : β → Doc}
    {record : β} (named : candidate.name = some name)
    (made : (context.check candidate.label candidate.comment).map make = .accepted record)
    (documents : ∀ summary, docOf (make summary) = Doc.ofSummary name summary) :
    candidate.Gives context (docOf record) := by
  obtain ⟨summary, checked, rfl⟩ := (Checked.map_eq_accepted_iff _ _ _).mp made
  rw [documents]
  exact ⟨named, summary, checked, rfl⟩

/-- What may be without a name has a record under its name only. -/
theorem gives_of_named {candidate : Candidate} {kind : Text} {make : Text → Summary → β}
    {docOf : β → Doc} {record : β} (labelled : candidate.label = candidate.name.getD "")
    (made : (match candidate.name with
      | none => context.missingName kind
      | some name => (context.check name candidate.comment).map (make name)) = .accepted record)
    (documents : ∀ name summary, docOf (make name summary) = Doc.ofSummary name summary) :
    candidate.Gives context (docOf record) := by
  cases named : candidate.name with
  | none =>
      rw [named] at made
      cases made
  | some name =>
      rw [named] at made labelled
      rw [Option.getD_some] at labelled
      dsimp only at made
      rw [← labelled] at made
      exact gives_of_map named made (labelled ▸ documents candidate.label)

theorem ListedAs.append {candidates more : List Candidate} {docs others : List Doc}
    (listed : ListedAs context candidates docs) (listedToo : ListedAs context more others) :
    ListedAs context (candidates ++ more) (docs ++ others) := by
  rw [ListedAs, List.filter_append]
  exact List.rel_append listed listedToo

/-- Records that follow the rule one by one follow it as a list. -/
theorem listedAs_of_forall₂ {recorded : α → β → Prop} {isShown : α → Bool}
    {candidate : α → Candidate} {docOf : β → Doc} {declarations : List α} {records : List β}
    (shown : ∀ declaration, isShown declaration = (candidate declaration).isShown)
    (gives : ∀ declaration record, recorded declaration record →
      (candidate declaration).Gives context (docOf record))
    (made : List.Forall₂ recorded (declarations.filter isShown) records) :
    ListedAs context (declarations.map candidate) (records.map docOf) := by
  rw [ListedAs, List.filter_map, List.forall₂_map_left_iff, List.forall₂_map_right_iff]
  have same : Candidate.isShown ∘ candidate = isShown := (funext shown).symm
  rw [same]
  exact made.imp gives

theorem sortedAs_of_sortedRecordsOf {check : α → Checked β} {isShown : α → Bool}
    {candidate : α → Candidate} {docOf : β → Doc} {declarations : List α} {ordered : List β}
    (shown : ∀ declaration, isShown declaration = (candidate declaration).isShown)
    (gives : ∀ declaration record, check declaration = .accepted record →
      (candidate declaration).Gives context (docOf record))
    (made : SortedRecordsOf check (fun record => (docOf record).name) (declarations.filter isShown)
      ordered) :
    SortedAs context (declarations.map candidate) (ordered.map docOf) := by
  obtain ⟨records, each, sorted⟩ := made
  exact ⟨records.map docOf, listedAs_of_forall₂ shown gives each.forall₂, sorted.map⟩

end Candidate

end Lists

/-! ## Types and variables -/

namespace Extract

variable {context : Context}

theorem gives_of_typeRecord (declaration : TypeDeclaration) (record : Item)
    (made : typeRecord context declaration = .accepted record) :
    declaration.candidate.Gives context record.doc :=
  Candidate.gives_of_map rfl made fun _ => rfl

theorem gives_of_functionVariable (declaration : VariableDeclaration) (record : Callable)
    (made : functionVariable context declaration = .accepted record) :
    declaration.candidate.Gives context record.doc :=
  Candidate.gives_of_named rfl made fun _ _ => rfl

theorem gives_of_constantRecord (declaration : VariableDeclaration) (record : Item)
    (made : constantRecord context declaration = .accepted record) :
    declaration.candidate.Gives context record.doc :=
  Candidate.gives_of_named rfl made fun _ _ => rfl

end Extract

theorem TypeDeclaration.isShown_eq (declaration : TypeDeclaration) :
    declaration.isShown = declaration.candidate.isShown :=
  Candidate.decide_isShown_eq _ _

theorem VariableDeclaration.isShown_eq (declaration : VariableDeclaration) :
    declaration.isShown = declaration.candidate.isShown :=
  Candidate.decide_isShown_eq _ _

theorem SourceFile.shownVariablesOf_eq (isFunction : Bool) (file : SourceFile) :
    file.shownVariablesOf isFunction =
      (file.variableList.filter fun declaration => declaration.isFunction == isFunction).filter
        VariableDeclaration.isShown := by
  rw [shownVariablesOf, shownVariables, List.filter_filter, List.filter_filter]
  apply List.filter_congr
  intro declaration _
  exact Bool.and_comm _ _

/-! ## Functions and methods -/

/-- A function with its overloads. -/
def FunctionDeclaration.candidate (declaration : FunctionDeclaration) : Candidate where
  name := declaration.name
  label := declaration.name.getD ""
  isOpen := declaration.exported
  blocks := declaration.jsdocs

/-- A method with its overloads. -/
def MethodDeclaration.candidate (declaration : MethodDeclaration) : Candidate where
  name := some declaration.name
  label := declaration.name
  isOpen := !declaration.isPrivate
  blocks := declaration.jsdocs

theorem FormGroup.documentationOf_map {α : Type} (group : FormGroup α) (call : α → CallForm) :
    documentationOf (group.overloads.map call) (call group.last) = (call group.first).jsdocs := by
  rw [first]
  cases group.overloads with
  | nil => rfl
  | cons form more => rfl

/-- The candidates of functions are those of the groups of their forms. -/
theorem FunctionForm.map_candidate_functions (forms : List FunctionForm) :
    (functions forms).map FunctionDeclaration.candidate =
      (FormGroup.group (fun left right => left.call.name == right.call.name) implements
        forms).map candidate := by
  rw [functions, List.map_map]
  apply List.map_congr_left
  intro group _
  simp [FunctionDeclaration.candidate, candidate, FunctionDeclaration.name,
    FunctionDeclaration.jsdocs, FormGroup.documentationOf_map]

theorem MethodForm.map_candidate_methods (isStatic : Bool) (forms : List MethodForm) :
    ((methods forms).filter fun method => method.isStatic == isStatic).map
        MethodDeclaration.candidate =
      ((FormGroup.group (fun left right => left.call.name == right.call.name &&
          left.isStatic == right.isStatic) implements forms).filter fun group =>
        (group.speaker implements).isStatic == isStatic).map candidate := by
  rw [methods, List.filter_map, List.map_map]
  apply List.map_congr_left
  intro group _
  simp [MethodDeclaration.candidate, candidate, MethodDeclaration.jsdocs,
    FormGroup.documentationOf_map]

theorem FunctionDeclaration.isShown_eq (declaration : FunctionDeclaration) :
    declaration.isShown = declaration.candidate.isShown :=
  Candidate.decide_isShown_eq _ _

theorem MethodDeclaration.isShown_eq (declaration : MethodDeclaration) :
    declaration.isShown = declaration.candidate.isShown :=
  Candidate.decide_isShown_eq _ _

namespace Extract

variable {context : Context}

theorem gives_of_functionRecord (declaration : FunctionDeclaration) (record : Callable)
    (made : functionRecord context declaration = .accepted record) :
    declaration.candidate.Gives context record.doc :=
  Candidate.gives_of_named rfl made fun _ _ => rfl

theorem gives_of_method (declaration : MethodDeclaration) (record : Callable)
    (made : method context declaration = .accepted record) :
    declaration.candidate.Gives context record.doc :=
  Candidate.gives_of_map rfl made fun _ => rfl

end Extract

/-! ## Classes and their members -/

theorem ClassDeclaration.isShown_eq (declaration : ClassDeclaration) :
    declaration.isShown = declaration.candidate.isShown :=
  Candidate.decide_isShown_eq _ _

theorem PropertyDeclaration.isShown_eq (className : Text) (declaration : PropertyDeclaration) :
    declaration.isShown = (declaration.candidate className).isShown :=
  Candidate.decide_isShown_eq _ _

theorem ClassDeclaration.shownMethodsOf_eq (isStatic : Bool) (declaration : ClassDeclaration) :
    declaration.shownMethodsOf isStatic =
      (declaration.methods.filter fun method => method.isStatic == isStatic).filter
        MethodDeclaration.isShown := by
  rw [shownMethodsOf, shownMethods, List.filter_filter, List.filter_filter]
  apply List.filter_congr
  intro method _
  exact Bool.and_comm _ _

namespace Extract

variable {context : Context} {declaration : ClassDeclaration} {record : Class}

theorem gives_of_property (className : Text) (declaration : PropertyDeclaration) (record : Item)
    (made : property context className declaration = .accepted record) :
    (declaration.candidate className).Gives context record.doc :=
  Candidate.gives_of_map rfl made fun _ => rfl

theorem gives_of_classRecord (made : classRecord context declaration = .accepted record) :
    declaration.candidate.Gives context record.doc := by
  rw [classRecord] at made
  cases named : declaration.name with
  | none =>
      rw [named] at made
      cases made
  | some name =>
      rw [named] at made
      simp only [Checked.map_eq_accepted_iff, Checked.both_eq_accepted_iff] at made
      obtain ⟨⟨summary, members⟩, ⟨checked, -⟩, rfl⟩ := made
      have labelled : declaration.candidate.label = name := by
        simp [ClassDeclaration.candidate, named]
      refine ⟨named, summary, ?_, rfl⟩
      rw [labelled]
      exact checked

/-- The methods of a class, static or not, are documented like the groups of their forms. -/
theorem listedAs_of_methods {forms : List MethodForm} {isStatic : Bool} {records : List Callable}
    (madeOf : declaration.methods = MethodForm.methods forms)
    (made : RecordsOf (method context) (declaration.shownMethodsOf isStatic) records) :
    Candidate.ListedAs context
      (((FormGroup.group (fun left right => left.call.name == right.call.name &&
          left.isStatic == right.isStatic) MethodForm.implements forms).filter fun group =>
        (group.speaker MethodForm.implements).isStatic == isStatic).map MethodForm.candidate)
      (records.map Callable.doc) := by
  rw [ClassDeclaration.shownMethodsOf_eq, madeOf] at made
  rw [← MethodForm.map_candidate_methods]
  exact Candidate.listedAs_of_forall₂ MethodDeclaration.isShown_eq gives_of_method made.forall₂

theorem isDocumentedIn_of_classRecord
    (made : classRecord context declaration = .accepted record) :
    declaration.IsDocumentedIn context record := by
  have given := gives_of_classRecord made
  have listed := isListedBy_of_classRecord made
  refine ⟨given, fun members madeOf => ⟨?_, ?_⟩⟩
  · refine ⟨FormGroup.group (fun left right =>
        left.call.name == right.call.name && left.isStatic == right.isStatic)
      MethodForm.implements _, (FormGroup.partitions_iff_group fun _ _ => by simp).mpr rfl, ?_⟩
    intro isStatic
    cases isStatic with
    | false => exact listedAs_of_methods madeOf.methods listed.methods
    | true => exact listedAs_of_methods madeOf.methods listed.staticMethods
  · rw [← madeOf.properties]
    exact Candidate.listedAs_of_forall₂ (PropertyDeclaration.isShown_eq record.doc.name)
      (gives_of_property record.doc.name) (listed.properties record.doc.name given.1).forall₂

end Extract

/-! ## Exports -/

theorem ExportSpecifier.isShown_eq (specifier : ExportSpecifier) :
    specifier.isShown = (candidate specifier.name specifier.leadingComments).isShown := by
  rw [isShown, candidate, Candidate.isShown, Bool.true_and, decide_eq_decide]
  cases specifier.leadingComments with
  | nil =>
      have unhidden : (Comment.read "").Admits := by decide +kernel
      exact iff_of_true (by simp) unhidden
  | cons first others =>
      constructor
      · exact fun admits => admits first rfl
      · rintro admits _ ⟨⟩
        exact admits

namespace Extract

variable {context : Context} {file : SourceFile} {module : Module}

/-- An export that has a record has a comment, and the first one documents it. -/
theorem gives_of_exportRecord? {specifier : ExportSpecifier} {record : Item}
    (made : exportRecord? context specifier = some (.accepted record)) :
    specifier.leadingComments ≠ [] ∧
      (ExportSpecifier.candidate specifier.name specifier.leadingComments).Gives context
        record.doc := by
  rw [exportRecord?] at made
  cases comments : specifier.leadingComments with
  | nil =>
      rw [comments] at made
      cases made
  | cons first others =>
      simp only [comments] at made
      split at made
      · cases made
      · exact ⟨List.cons_ne_nil _ _,
          Candidate.gives_of_map rfl (Option.some.inj made) fun _ => rfl⟩

/-- Every export has a comment, and the first one documents it unless it hides it. -/
theorem listedAs_of_exports
    (made : file.shownExports.map (exportRecord? context) =
      module.exports.map fun record => some (.accepted record)) :
    (∀ specifier ∈ file.exports, specifier.leadingComments ≠ []) ∧
      Candidate.ListedAs context
        (file.exports.map fun specifier =>
          ExportSpecifier.candidate specifier.name specifier.leadingComments)
        (module.exports.map Item.doc) := by
  constructor
  · intro specifier member uncommented
    have shown : specifier ∈ file.shownExports := by
      simp [SourceFile.shownExports, member, ExportSpecifier.isShown, uncommented]
    have listed := List.mem_map_of_mem (f := exportRecord? context) shown
    rw [made] at listed
    obtain ⟨record, -, recorded⟩ := List.mem_map.mp listed
    exact (gives_of_exportRecord? recorded.symm).1 uncommented
  · exact Candidate.listedAs_of_forall₂ ExportSpecifier.isShown_eq
      (fun _ _ recorded => (gives_of_exportRecord? recorded).2) (forall₂_of_map_eq_map made)

end Extract

/-! ## The whole module -/

namespace Module

variable {file : SourceFile} {context : Context} {module : Module} {entries : List SiteEntry}

theorem classes_isDocumentedBy (madeOf : file.IsMadeOf entries)
    (listed : file.IsListedBy context module) :
    ∃ records,
      List.Forall₂ (ClassDeclaration.IsDocumentedIn context)
        ((entries.filterMap SiteEntry.class?).filter fun declaration =>
          declaration.candidate.isShown)
        records ∧
      StableSort (fun record => record.doc.name) records module.classes := by
  obtain ⟨records, each, sorted⟩ := listed.classes
  refine ⟨records, ?_, sorted⟩
  have shown : (fun declaration : ClassDeclaration => declaration.candidate.isShown) =
      ClassDeclaration.isShown := (funext ClassDeclaration.isShown_eq).symm
  rw [← madeOf.classes, shown]
  exact each.forall₂.imp fun _ _ => Extract.isDocumentedIn_of_classRecord

theorem functions_isDocumentedBy (madeOf : file.IsMadeOf entries)
    (listed : file.IsListedBy context module) :
    ∃ groups,
      FormGroup.Partitions (fun form => form.call.name) FunctionForm.implements
        (entries.filterMap SiteEntry.form?) groups ∧
      Candidate.SortedAs context
        (groups.map FunctionForm.candidate ++
          ((entries.filterMap SiteEntry.binding?).filter VariableDeclaration.isFunction).map
            VariableDeclaration.candidate)
        (module.functions.map Callable.doc) := by
  obtain ⟨declared, held, ofDeclared, ofHeld, sorted⟩ := listed.functions
  refine ⟨FormGroup.group (fun left right => left.call.name == right.call.name)
    FunctionForm.implements _, (FormGroup.partitions_iff_group fun _ _ => by simp).mpr rfl,
    declared.map Callable.doc ++ held.map Callable.doc, ?_, ?_⟩
  · rw [← FunctionForm.map_candidate_functions, ← madeOf.functions, ← madeOf.variableList]
    simp only [SourceFile.shownVariablesOf_eq, beq_true] at ofHeld
    exact (Candidate.listedAs_of_forall₂ FunctionDeclaration.isShown_eq
        Extract.gives_of_functionRecord ofDeclared.forall₂).append
      (Candidate.listedAs_of_forall₂ VariableDeclaration.isShown_eq
        Extract.gives_of_functionVariable ofHeld.forall₂)
  · rw [← List.map_append]
    exact sorted.map

theorem constants_isDocumentedBy (madeOf : file.IsMadeOf entries)
    (listed : file.IsListedBy context module) :
    Candidate.ListedAs context
      (((entries.filterMap SiteEntry.binding?).filter fun declaration =>
          !declaration.isFunction).map VariableDeclaration.candidate)
      (module.constants.map Item.doc) := by
  have constants := listed.constants
  simp only [SourceFile.shownVariablesOf_eq, beq_false] at constants
  rw [← madeOf.variableList]
  exact Candidate.listedAs_of_forall₂ VariableDeclaration.isShown_eq
    Extract.gives_of_constantRecord constants.forall₂

/-- The records of a module follow the rule, if it was made of a file with the given entries. -/
theorem isDocumentedBy_of_ofSource (madeOf : file.IsMadeOf entries)
    (accepted : ofSource file context = .ok (.accepted module)) :
    module.IsDocumentedBy context entries := by
  have listed := isListedBy_of_ofSource accepted
  obtain ⟨commented, exports⟩ := Extract.listedAs_of_exports listed.exports
  refine ⟨classes_isDocumentedBy madeOf listed, ?_, ?_, functions_isDocumentedBy madeOf listed,
    constants_isDocumentedBy madeOf listed, ?_⟩
  · rw [← madeOf.interfaces]
    exact Candidate.sortedAs_of_sortedRecordsOf TypeDeclaration.isShown_eq
      Extract.gives_of_typeRecord listed.interfaces
  · rw [← madeOf.typeAliases]
    exact Candidate.sortedAs_of_sortedRecordsOf TypeDeclaration.isShown_eq
      Extract.gives_of_typeRecord listed.typeAliases
  · rw [← madeOf.exports, List.map_map]
    refine ⟨?_, exports⟩
    intro specifier member
    obtain ⟨original, isExport, rfl⟩ := List.mem_map.mp member
    exact commented original isExport

end Module

/--
Only the last documentation comment in front of a declaration matters, for a module as for errors,
and in a module that was made the documentation and the decision what is shown come from it.  This
holds for classes and their members, interfaces, type aliases, functions, function variables and
constants; the overloads of a function or method have the comments of the first of them.  An export
specifier has its documentation from the first comment in front of it, of whatever kind.
-/
theorem SourceFile.last_block_documents {path : Text} {source : SourceBytes} {root : Node}
    {file : SourceFile} (read : ofTree path source root = .ok file) :
    (∀ context, Module.ofSource file.lastBlocks context = Module.ofSource file context) ∧
    ∃ entries, file.IsMadeOf entries ∧
      List.Forall₂ (SiteEntry.Documents source) (Site.ofTree root) entries ∧
      ∀ context module, Module.ofSource file context = .ok (.accepted module) →
        module.IsDocumentedBy context entries := by
  obtain ⟨-, entries, given, madeOf, -⟩ := exists_entries read
  refine ⟨Module.ofSource_lastBlocks file, entries, madeOf, ?_,
    fun _ _ => Module.isDocumentedBy_of_ofSource madeOf⟩
  exact given.forall₂.imp fun _ _ ⟨_, gives⟩ => gives.documents

/-- A class with two blocks in front of it and of its method, and an export with two blocks. -/
def blockFile : Node :=
  .mk "program" true 0 177 none
    [.mk "comment" true 0 19 none [], .mk "comment" true 20 39 none [],
      .mk "export_statement" true 40 127 none
        [.mk "export" false 40 46 none [],
          .mk "class_declaration" true 47 127 (some "declaration")
            [.mk "class" false 47 52 none [], .mk "type_identifier" true 53 54 (some "name") [],
              .mk "class_body" true 55 127 (some "body")
                [.mk "\x7b" false 55 56 none [], .mk "comment" true 57 76 none [],
                  .mk "comment" true 77 96 none [],
                  .mk "method_signature" true 97 100 none
                    [.mk "property_identifier" true 97 98 (some "name") [],
                      .mk "formal_parameters" true 98 100 (some "parameters") []],
                  .mk ";" false 100 101 none [], .mk "comment" true 102 118 none [],
                  .mk "method_definition" true 119 125 none
                    [.mk "property_identifier" true 119 120 (some "name") [],
                      .mk "formal_parameters" true 120 122 (some "parameters") [],
                      .mk "statement_block" true 123 125 (some "body") []],
                  .mk "\x7d" false 126 127 none []]]],
      .mk "export_statement" true 128 177 none
        [.mk "export" false 128 134 none [],
          .mk "export_clause" true 135 177 none
            [.mk "\x7b" false 135 136 none [], .mk "comment" true 137 156 none [],
              .mk "comment" true 157 173 none [],
              .mk "export_specifier" true 174 175 none
                [.mk "identifier" true 174 175 (some "name") []],
              .mk "\x7d" false 176 177 none []]]]

def blockSource : SourceBytes :=
  Text.Utf8.encode ("/** @since 1.0.0 */\n/** @since 2.0.0 */\nexport class A \x7b " ++
    "/** @since 3.0.0 */ /** @since 4.0.0 */ m(); /** @internal */ m() \x7b\x7d \x7d\n" ++
    "export \x7b /** @since 5.0.0 */ /** @internal */ A \x7d")

/-- The versions in the records of classes, of their methods and of exports. -/
def Module.versions (module : Module) : List Text :=
  (module.classes.map Class.doc ++ (module.classes.flatMap Class.methods).map Callable.doc ++
    module.exports.map Item.doc).filterMap Doc.since

/-- Where the file of the examples stands. -/
def blockContext : Context :=
  { path := ["src", "a.ts"], settings := {} }

/-- The comments of the exports in a file, and the versions in its module. -/
def commentsAndVersions (source : SourceBytes) (root : Node) :
    Option (List (List Text) × List Text) :=
  match SourceFile.ofTree "src/a.ts" source root with
  | .error _ => none
  | .ok file =>
    match Module.ofSource file blockContext with
    | .ok (.accepted module) =>
      some (file.exports.map ExportSpecifier.leadingComments, module.versions)
    | _ => none

theorem exists_of_commentsAndVersions (source : SourceBytes) (root : Node)
    (comments : List (List Text)) (versions : List Text)
    (found : commentsAndVersions source root = some (comments, versions)) :
    ∃ file module, SourceFile.ofTree "src/a.ts" source root = .ok file ∧
      Module.ofSource file blockContext = .ok (.accepted module) ∧
      file.exports.map ExportSpecifier.leadingComments = comments ∧ module.versions = versions := by
  rw [commentsAndVersions] at found
  split at found
  · cases found
  · rename_i file read
    split at found
    · rename_i module accepted
      cases found
      exact ⟨file, module, read, accepted, rfl, rfl⟩
    · cases found

/-- The last blocks document the class and its method, and the first one documents the export. -/
theorem blockFile_is_documented :
    ∃ file module, SourceFile.ofTree "src/a.ts" blockSource blockFile = .ok file ∧
      Module.ofSource file blockContext = .ok (.accepted module) ∧
      module.versions = ["2.0.0", "4.0.0", "5.0.0"] ∧
      Module.ofSource file.lastBlocks blockContext = .ok (.accepted module) ∧
      ∃ entries, file.IsMadeOf entries ∧
        List.Forall₂ (SiteEntry.Documents blockSource) (Site.ofTree blockFile) entries ∧
        module.IsDocumentedBy blockContext entries := by
  obtain ⟨file, module, read, accepted, -, versions⟩ :=
    exists_of_commentsAndVersions blockSource blockFile
      [["/** @since 5.0.0 */", "/** @internal */"]] ["2.0.0", "4.0.0", "5.0.0"] (by decide +kernel)
  obtain ⟨same, entries, madeOf, documents, isDocumentedBy⟩ := SourceFile.last_block_documents read
  exact ⟨file, module, read, accepted, versions, (same _).trans accepted, entries, madeOf,
    documents, isDocumentedBy _ _ accepted⟩

def twoBlockExport : Node :=
  .mk "program" true 0 73 none
    [.mk "comment" true 0 19 none [],
      .mk "export_statement" true 20 72 none
        [.mk "export" false 20 26 none [],
          .mk "export_clause" true 27 72 none
            [.mk "\x7b" false 27 28 none [], .mk "comment" true 29 48 none [],
              .mk "comment" true 49 68 none [],
              .mk "export_specifier" true 69 70 none
                [.mk "identifier" true 69 70 (some "name") []],
              .mk "\x7d" false 71 72 none []]]]

def twoBlockSource : SourceBytes :=
  Text.Utf8.encode
    "/** @since 1.0.0 */\nexport \x7b /** @since 2.0.0 */ /** @since 3.0.0 */ a \x7d\n"

/-- The comments in front of the export, both of them blocks. -/
def twoBlocks : List Text :=
  ["/** @since 2.0.0 */", "/** @since 3.0.0 */"]

/-- The last block in front of an export does not document it: its version is another one. -/
theorem last_block_does_not_document_export :
    ∃ file module, SourceFile.ofTree "src/a.ts" twoBlockSource twoBlockExport = .ok file ∧
      Module.ofSource file blockContext = .ok (.accepted module) ∧
      file.exports.map ExportSpecifier.leadingComments = [twoBlocks] ∧
      twoBlocks.filter isJsdoc = twoBlocks ∧ module.versions = ["2.0.0"] ∧
      (blockContext.check "a" (Comment.ofBlocks twoBlocks)).map Summary.since =
        .accepted (some "3.0.0") := by
  obtain ⟨file, module, read, accepted, comments, versions⟩ :=
    exists_of_commentsAndVersions twoBlockSource twoBlockExport [twoBlocks] ["2.0.0"]
      (by decide +kernel)
  exact ⟨file, module, read, accepted, comments, by decide +kernel, versions, by decide +kernel⟩

end ApiDocs
