import ApiDocs.Proofs.Checked
import ApiDocs.Proofs.Module.Report
import ApiDocs.Proofs.Order

/-!
# The collections of a module

A module that was made has one record for each shown declaration, and nothing else.
Classes, interfaces, functions and type aliases are sorted by name, constants and
exports keep the order of the source.

Two facts need more than following one list.  The variables of a file are read twice,
once for functions and once for constants, and the methods of a class are read twice,
once for its objects and once for the class itself; both pairs of lists are proved to
be exact splits.
-/

namespace ApiDocs

/-- Two lists make up a third one: each keeps its order, and nothing is in both. -/
structure IsSplit {α : Type} (left right whole : List α) : Prop where
  /-- Nothing is lost and nothing is doubled. -/
  perm : (left ++ right).Perm whole
  left_sublist : left.Sublist whole
  right_sublist : right.Sublist whole
  disjoint : ∀ item ∈ left, item ∉ right

/-- What has a mark and what has the other one make up a list. -/
theorem isSplit_filter_beq {α : Type} (mark : α → Bool) (flag : Bool) (list : List α) :
    IsSplit (list.filter fun item => mark item == flag)
      (list.filter fun item => mark item == !flag) list where
  perm := by
    have complement :
        (list.filter fun item => mark item == !flag) =
          list.filter fun item => !(mark item == flag) := by
      apply List.filter_congr
      intro item _
      cases mark item <;> cases flag <;> rfl
    rw [complement]
    exact List.filter_append_perm _ list
  left_sublist := List.filter_sublist
  right_sublist := List.filter_sublist
  disjoint := by
    intro item inLeft inRight
    have left := (List.mem_filter.mp inLeft).2
    have right := (List.mem_filter.mp inRight).2
    rw [beq_iff_eq] at left right
    rw [left] at right
    cases flag <;> cases right

/-- The records of some declarations: one for each of them, in the same order. -/
def RecordsOf {α β : Type} (check : α → Checked β) (declarations : List α)
    (records : List β) : Prop :=
  declarations.map check = records.map .accepted

/-- The records of some declarations, in the order of their names. -/
def SortedRecordsOf {α β : Type} (check : α → Checked β) (nameOf : β → Text)
    (declarations : List α) (ordered : List β) : Prop :=
  ∃ records, RecordsOf check declarations records ∧ StableSort nameOf records ordered

/-- The record of a class shows the shown members of the class. -/
structure ClassDeclaration.IsListedBy (declaration : ClassDeclaration) (context : Context)
    (record : Class) : Prop where
  methods :
    RecordsOf (Extract.method context) (declaration.shownMethodsOf false) record.methods
  staticMethods :
    RecordsOf (Extract.method context) (declaration.shownMethodsOf true) record.staticMethods
  properties : ∀ name, declaration.name = some name →
    RecordsOf (Extract.property context name) declaration.shownProperties record.properties
  /-- Every shown method is either a method of the objects or one of the class. -/
  split :
    IsSplit (declaration.shownMethodsOf false) (declaration.shownMethodsOf true)
      declaration.shownMethods

/-- The collections of a module show the shown declarations of a source file. -/
structure SourceFile.IsListedBy (source : SourceFile) (context : Context)
    (module : Module) : Prop where
  classes :
    SortedRecordsOf (Extract.classRecord context) (fun record => record.doc.name)
      source.shownClasses module.classes
  members : ∀ declaration ∈ source.shownClasses, ∀ record,
    Extract.classRecord context declaration = .accepted record →
      declaration.IsListedBy context record
  interfaces :
    SortedRecordsOf (Extract.typeRecord context) (fun record => record.doc.name)
      source.shownInterfaces module.interfaces
  typeAliases :
    SortedRecordsOf (Extract.typeRecord context) (fun record => record.doc.name)
      source.shownTypeAliases module.typeAliases
  /-- The declared functions come first, then the variables that hold functions. -/
  functions : ∃ declared held,
    RecordsOf (Extract.functionRecord context) source.shownFunctions declared ∧
      RecordsOf (Extract.functionVariable context) (source.shownVariablesOf true) held ∧
      StableSort (fun record => record.doc.name) (declared ++ held) module.functions
  constants :
    RecordsOf (Extract.constantRecord context) (source.shownVariablesOf false)
      module.constants
  /-- Every shown variable is either a function or a constant. -/
  split :
    IsSplit (source.shownVariablesOf true) (source.shownVariablesOf false)
      source.shownVariables
  exports :
    source.shownExports.map (Extract.exportRecord? context) =
      module.exports.map fun record => some (.accepted record)

namespace Extract

variable {context : Context} {source : SourceFile}

theorem isListedBy_of_classRecord {declaration : ClassDeclaration} {record : Class}
    (made : classRecord context declaration = .accepted record) :
    declaration.IsListedBy context record := by
  cases named : declaration.name with
  | none =>
      simp only [classRecord, named, Context.missingName, Checked.fail] at made
      cases made
  | some name =>
      simp only [classRecord, named, visibleMethods_eq, visibleProperties_eq,
        Checked.map_eq_accepted_iff, Checked.both_eq_accepted_iff,
        Checked.each_eq_accepted_iff] at made
      obtain ⟨parts, ⟨_, methods, staticMethods, properties⟩, rfl⟩ := made
      refine ⟨methods, staticMethods, ?_, isSplit_filter_beq _ false _⟩
      intro other same
      obtain rfl : name = other := Option.some.inj (named.symm.trans same)
      exact properties

theorem sortedRecordsOf_of_sorted {α β : Type} {check : α → Checked β}
    {nameOf : β → Text} {declarations : List α} {ordered : List β}
    (made : (Checked.each check declarations).map (sortByName nameOf) = .accepted ordered) :
    SortedRecordsOf check nameOf declarations ordered := by
  obtain ⟨records, each, rfl⟩ := (Checked.map_eq_accepted_iff _ _ _).mp made
  exact ⟨records, (Checked.each_eq_accepted_iff _ _ _).mp each,
    stableSort_sortByName nameOf records⟩

theorem recordsOf_functions {ordered : List Callable}
    (made : functions source context = .accepted ordered) :
    ∃ declared held,
      RecordsOf (functionRecord context) source.shownFunctions declared ∧
        RecordsOf (functionVariable context) (source.shownVariablesOf true) held ∧
        StableSort (fun record => record.doc.name) (declared ++ held) ordered := by
  simp only [functions, visibleFunctions_eq, visibleVariables_eq,
    Checked.map_eq_accepted_iff, Checked.all_eq_accepted_iff] at made
  obtain ⟨records, checks, rfl⟩ := made
  obtain ⟨declared, held, rfl, first, second⟩ := List.append_eq_map_iff.mp checks
  exact ⟨declared, held, first.symm, second.symm, stableSort_sortByName _ _⟩

/-- A shown export has a record, so looking for records loses none of them. -/
theorem map_exportRecord?_shownExports :
    source.shownExports.map (exportRecord? context) =
      (source.shownExports.filterMap (exportRecord? context)).map some := by
  rw [List.map_filterMap, ← List.filterMap_eq_map]
  apply List.filterMap_congr
  intro specifier member
  have shown : specifier.isShown = true := (List.mem_filter.mp member).2
  have present : exportRecord? context specifier ≠ none := by
    rw [Ne, exportRecord?_eq_none_iff, shown]
    simp
  obtain ⟨record, found⟩ := Option.ne_none_iff_exists'.mp present
  simp [found]

theorem recordsOf_exports {records : List Item}
    (made : exports source context = .accepted records) :
    source.shownExports.map (exportRecord? context) =
      records.map fun record => some (.accepted record) := by
  rw [exports, ← filterMap_exportRecord?, Checked.all_eq_accepted_iff] at made
  rw [map_exportRecord?_shownExports, SourceFile.shownExports, made, List.map_map]
  rfl

end Extract

namespace Module

variable {source : SourceFile} {context : Context} {module : Module}

/-- A module that was made was put together from accepted collections. -/
theorem collections_of_ofSource
    (accepted : ofSource source context = .ok (.accepted module)) :
    Extract.classes source context = .accepted module.classes ∧
      Extract.interfaces source context = .accepted module.interfaces ∧
      Extract.functions source context = .accepted module.functions ∧
      Extract.typeAliases source context = .accepted module.typeAliases ∧
      Extract.constants source context = .accepted module.constants ∧
      Extract.exports source context = .accepted module.exports := by
  rw [ofSource] at accepted
  split at accepted
  · cases accepted
  · split at accepted
    · cases accepted
    · rename_i summary listed both
      have recorded := ((Checked.both_eq_accepted_iff _ _ _).mp both).2
      cases named : context.moduleName with
      | error fault =>
          rw [named] at accepted
          cases accepted
      | ok name =>
          rw [named] at accepted
          cases accepted
          simp only [records, Checked.map_eq_accepted_iff,
            Checked.both_eq_accepted_iff] at recorded
          obtain ⟨parts, checks, rfl⟩ := recorded
          exact checks

/-- A module that was made shows the shown declarations of its source file. -/
theorem isListedBy_of_ofSource (accepted : ofSource source context = .ok (.accepted module)) :
    source.IsListedBy context module := by
  obtain ⟨classes, interfaces, functions, typeAliases, constants, exports⟩ :=
    collections_of_ofSource accepted
  rw [Extract.classes, Extract.visibleClasses_eq] at classes
  rw [Extract.interfaces, Extract.visibleTypes_eq] at interfaces
  rw [Extract.typeAliases, Extract.visibleTypes_eq] at typeAliases
  rw [Extract.constants, Extract.visibleVariables_eq,
    Checked.each_eq_accepted_iff] at constants
  exact
    { classes := Extract.sortedRecordsOf_of_sorted classes
      members := fun _ _ _ made => Extract.isListedBy_of_classRecord made
      interfaces := Extract.sortedRecordsOf_of_sorted interfaces
      typeAliases := Extract.sortedRecordsOf_of_sorted typeAliases
      functions := Extract.recordsOf_functions functions
      constants := constants
      split := isSplit_filter_beq _ true _
      exports := Extract.recordsOf_exports exports }

/--
The collections of a module that was made show exactly the shown declarations, and
hidden declarations change nothing in the module.
-/
theorem ofSource_lists_shown_declarations
    (accepted : ofSource source context = .ok (.accepted module)) :
    source.IsListedBy context module ∧
      ∀ other : SourceFile, other.SameShown source →
        ofSource other context = .ok (.accepted module) := by
  refine ⟨isListedBy_of_ofSource accepted, ?_⟩
  intro other same
  rw [ofSource_eq_of_sameShown same, accepted]

/-- A class with a method of each kind, a function variable, a constant and hidden ones. -/
def mixedDeclarations : SourceFile :=
  { leadingComments := ["/** @since 1.0.0 */"]
    classes :=
      [{ name := some "A", exported := true, jsdocs := ["/** @since 1.0.0 */"]
         methods :=
          [{ name := "m", implementation := { jsdocs := ["/** @since 1.0.0 */"] } },
            { name := "s", isStatic := true
              implementation := { jsdocs := ["/** @since 1.0.0 */"] } },
            { name := "p", isPrivate := true }] }]
    variableList :=
      [{ name := some "f", exported := true, hasInitializer := true, isFunction := true
         jsdocs := ["/** @since 1.0.0 */"] },
        { name := some "c", exported := true, hasInitializer := true
          jsdocs := ["/** @since 1.0.0 */"] },
        { name := some "hidden", exported := true, hasInitializer := true
          jsdocs := ["/** @internal */"] }] }

theorem ofSource_lists_mixedDeclarations :
    ∃ module : Module,
      ofSource mixedDeclarations { path := ["src", "a.ts"], settings := {} } =
          .ok (.accepted module) ∧
        mixedDeclarations.IsListedBy { path := ["src", "a.ts"], settings := {} } module ∧
        ∀ other : SourceFile, other.SameShown mixedDeclarations →
          ofSource other { path := ["src", "a.ts"], settings := {} } =
            .ok (.accepted module) := by
  obtain ⟨checked, made, errors⟩ := ofSource_of_located mixedDeclarations
    (show ({ path := ["src", "a.ts"], settings := {} } : Context).path ≠ [] by simp)
  have clean : checked.errors = [] := errors.trans (by decide +kernel)
  cases checked with
  | accepted module => exact ⟨module, made, ofSource_lists_shown_declarations made⟩
  | rejected first others => simp at clean

end Module

end ApiDocs
