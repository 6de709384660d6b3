import ApiDocs.Proofs.Module.Visible
import ApiDocs.Proofs.Policy

/-!
# The errors of a source file

The errors of a source file are told without running the extraction.  A *subject* is
something whose documentation is asked for: the module itself, a shown declaration,
or a shown member of a shown class.  Each subject has its own errors, which do not
depend on any other subject.

The main statement says that making a module reports the own errors of all subjects,
subject by subject, and that it fails exactly if one of them has an error.
-/

namespace ApiDocs

/-- Something whose documentation is asked for. -/
inductive Subject where
  /-- The module, with the first comment of its file. -/
  | module (comment : Option Comment)
  /-- A declaration or a member, under the name that errors give it. -/
  | documented (name : Text) (comment : Comment)
  /-- A declaration without a name. -/
  | nameless (kind : Text)
  /-- An export without a comment. -/
  | uncommented (name : Text)
  deriving DecidableEq, Repr

namespace Subject

/-- The name of a module: the last part of its path without its ending. -/
def moduleName (path : List Text) : Text :=
  (CleanPath.ofText (path.getLastD "")).stem

/-- The errors that a subject has on its own. -/
def errors (context : Context) : Subject → List Text
  | .module none =>
      if context.settings.enforceDescriptions ∨ context.settings.enforceVersion then
        ["Missing documentation in " ++ context.location ++ " module"]
      else []
  | .module (some comment) =>
      (Policy.gaps context.settings true comment).map
        (Policy.Gap.message (Policy.place context.path (moduleName context.path)))
  | .documented name comment =>
      (Policy.gaps context.settings false comment).map
        (Policy.Gap.message (Policy.place context.path name))
  | .nameless kind => ["Missing " ++ kind ++ " name in module " ++ context.location]
  | .uncommented name => ["Missing " ++ name ++ " documentation in " ++ context.location]

/-- A declaration that may be without a name. -/
def ofDeclaration (kind : Text) (name : Option Text) (jsdocs : List Text) : Subject :=
  match name with
  | none => .nameless kind
  | some name => .documented name (Comment.ofBlocks jsdocs)

/-- An interface or a type alias. -/
def ofType (declaration : TypeDeclaration) : Subject :=
  .documented declaration.name (Comment.ofBlocks declaration.jsdocs)

/-- A method; errors do not name its class. -/
def ofMethod (method : MethodDeclaration) : Subject :=
  .documented method.name (Comment.ofBlocks method.jsdocs)

/-- A property; errors name it together with its class. -/
def ofProperty (className : Text) (property : PropertyDeclaration) : Subject :=
  .documented (className ++ "#" ++ property.name) (Comment.ofBlocks property.jsdocs)

/-- A class and its members; the members of a class without a name are not looked at. -/
def ofClass (declaration : ClassDeclaration) : List Subject :=
  match declaration.name with
  | none => [.nameless "class"]
  | some name =>
      .documented name (Comment.ofBlocks declaration.jsdocs) ::
        ((declaration.shownMethodsOf false).map ofMethod ++
          (declaration.shownMethodsOf true).map ofMethod ++
          declaration.shownProperties.map (ofProperty name))

/-- An export, with the first comment in front of it. -/
def ofExport (specifier : ExportSpecifier) : Subject :=
  match specifier.leadingComments with
  | [] => .uncommented specifier.name
  | first :: _ => .documented specifier.name (Comment.read first)

/-- The subjects of a source file, in the order in which their errors are reported. -/
def ofSource (source : SourceFile) : List Subject :=
  .module (source.leadingComments.head?.map Comment.read) ::
    (source.shownClasses.flatMap ofClass ++
      source.shownInterfaces.map ofType ++
      (source.shownFunctions.map fun declaration =>
        ofDeclaration "function" declaration.name declaration.jsdocs) ++
      ((source.shownVariablesOf true).map fun declaration =>
        ofDeclaration "function" declaration.name declaration.jsdocs) ++
      source.shownTypeAliases.map ofType ++
      ((source.shownVariablesOf false).map fun declaration =>
        ofDeclaration "constant" declaration.name declaration.jsdocs) ++
      source.shownExports.map ofExport)

end Subject

/-! ## Own errors of one declaration -/

namespace Extract

variable (context : Context)

/-- Checking a comment reports the own errors of what it documents. -/
theorem errors_contextCheck (name : Text) (comment : Comment) :
    (context.check name comment).errors =
      (Subject.documented name comment).errors context :=
  Policy.errors_check context.settings false comment name context.path

theorem errors_missingName {α : Type} (kind : Text) :
    (context.missingName kind : Checked α).errors =
      (Subject.nameless kind).errors context := rfl

theorem errors_method (declaration : MethodDeclaration) :
    (method context declaration).errors =
      (Subject.ofMethod declaration).errors context := by
  rw [method, Checked.errors_map, errors_contextCheck, Subject.ofMethod]

theorem errors_property (className : Text) (declaration : PropertyDeclaration) :
    (property context className declaration).errors =
      (Subject.ofProperty className declaration).errors context := by
  rw [property, Checked.errors_map, errors_contextCheck, Subject.ofProperty]

theorem errors_typeRecord (declaration : TypeDeclaration) :
    (typeRecord context declaration).errors =
      (Subject.ofType declaration).errors context := by
  rw [typeRecord, Checked.errors_map, errors_contextCheck, Subject.ofType]

/-- Whatever its record is made of, a declaration that may be nameless reports its own errors. -/
theorem errors_namedRecord {α : Type} (kind : Text) (name : Option Text) (jsdocs : List Text)
    (make : Text → Summary → α) :
    (match name with
      | none => context.missingName kind
      | some name => (context.check name (Comment.ofBlocks jsdocs)).map (make name)).errors =
      (Subject.ofDeclaration kind name jsdocs).errors context := by
  cases name with
  | none => exact errors_missingName context kind
  | some name =>
      rw [Checked.errors_map, errors_contextCheck]
      rfl

theorem errors_functionRecord (declaration : FunctionDeclaration) :
    (functionRecord context declaration).errors =
      (Subject.ofDeclaration "function" declaration.name declaration.jsdocs).errors context :=
  errors_namedRecord context "function" declaration.name declaration.jsdocs _

theorem errors_functionVariable (declaration : VariableDeclaration) :
    (functionVariable context declaration).errors =
      (Subject.ofDeclaration "function" declaration.name declaration.jsdocs).errors context :=
  errors_namedRecord context "function" declaration.name declaration.jsdocs _

theorem errors_constantRecord (declaration : VariableDeclaration) :
    (constantRecord context declaration).errors =
      (Subject.ofDeclaration "constant" declaration.name declaration.jsdocs).errors context :=
  errors_namedRecord context "constant" declaration.name declaration.jsdocs _

/-- A class reports its own errors and those of its shown members. -/
theorem errors_classRecord (declaration : ClassDeclaration) :
    (classRecord context declaration).errors =
      (Subject.ofClass declaration).flatMap (Subject.errors context) := by
  cases named : declaration.name with
  | none =>
      simp [classRecord, Subject.ofClass, named, errors_missingName]
  | some name =>
      simp [classRecord, Subject.ofClass, named, Checked.each, Checked.errors_all,
        errors_contextCheck, errors_method, errors_property, visibleMethods_eq,
        visibleProperties_eq, List.flatMap_map, List.flatMap_append]

/-- A shown export has a record whose errors are its own. -/
theorem exportRecord?_of_isShown {specifier : ExportSpecifier}
    (shown : specifier.isShown = true) :
    ∃ record, exportRecord? context specifier = some record ∧
      record.errors = (Subject.ofExport specifier).errors context := by
  have present : exportRecord? context specifier ≠ none := by
    rw [Ne, exportRecord?_eq_none_iff, shown]
    simp
  obtain ⟨record, found⟩ := Option.ne_none_iff_exists'.mp present
  refine ⟨record, found, ?_⟩
  cases comments : specifier.leadingComments with
  | nil =>
      simp only [exportRecord?, comments, Option.some.injEq] at found
      rw [← found, Subject.ofExport, comments]
      rfl
  | cons first others =>
      simp only [exportRecord?, comments, Option.ite_none_left_eq_some,
        Option.some.injEq] at found
      rw [← found.2, Checked.errors_map, errors_contextCheck, Subject.ofExport, comments]

/-! ## Errors of all declarations of a kind -/

variable (source : SourceFile)

theorem errors_classes :
    (classes source context).errors =
      (source.shownClasses.flatMap Subject.ofClass).flatMap (Subject.errors context) := by
  simp [classes, visibleClasses_eq, Checked.each, Checked.errors_all, errors_classRecord,
    List.flatMap_map, List.flatMap_assoc]

theorem errors_interfaces :
    (interfaces source context).errors =
      (source.shownInterfaces.map Subject.ofType).flatMap (Subject.errors context) := by
  simp [interfaces, visibleTypes_eq, Checked.each, Checked.errors_all, errors_typeRecord,
    List.flatMap_map, SourceFile.shownInterfaces]

theorem errors_typeAliases :
    (typeAliases source context).errors =
      (source.shownTypeAliases.map Subject.ofType).flatMap (Subject.errors context) := by
  simp [typeAliases, visibleTypes_eq, Checked.each, Checked.errors_all, errors_typeRecord,
    List.flatMap_map, SourceFile.shownTypeAliases]

theorem errors_functions :
    (functions source context).errors =
      ((source.shownFunctions.map fun declaration =>
          Subject.ofDeclaration "function" declaration.name declaration.jsdocs) ++
        (source.shownVariablesOf true).map fun declaration =>
          Subject.ofDeclaration "function" declaration.name declaration.jsdocs).flatMap
        (Subject.errors context) := by
  simp [functions, visibleFunctions_eq, visibleVariables_eq, Checked.errors_all,
    errors_functionRecord, errors_functionVariable, List.flatMap_map, List.flatMap_append]

theorem errors_constants :
    (constants source context).errors =
      ((source.shownVariablesOf false).map fun declaration =>
        Subject.ofDeclaration "constant" declaration.name declaration.jsdocs).flatMap
        (Subject.errors context) := by
  simp [constants, visibleVariables_eq, Checked.each, Checked.errors_all,
    errors_constantRecord, List.flatMap_map]

/-- Shown exports report their own errors, one export after the other. -/
theorem errors_exportRecords {specifiers : List ExportSpecifier}
    (shown : ∀ specifier ∈ specifiers, specifier.isShown = true) :
    (specifiers.filterMap (exportRecord? context)).flatMap Checked.errors =
      (specifiers.map Subject.ofExport).flatMap (Subject.errors context) := by
  induction specifiers with
  | nil => rfl
  | cons specifier rest ih =>
      obtain ⟨record, found, own⟩ :=
        exportRecord?_of_isShown context (shown specifier List.mem_cons_self)
      have restShown : ∀ other ∈ rest, other.isShown = true :=
        fun other member => shown other (List.mem_cons_of_mem specifier member)
      simp [found, own, ih restShown]

theorem errors_exports :
    (exports source context).errors =
      (source.shownExports.map Subject.ofExport).flatMap (Subject.errors context) := by
  rw [exports, ← filterMap_exportRecord?, Checked.errors_all]
  exact errors_exportRecords context fun specifier member => (List.mem_filter.mp member).2

theorem errors_records :
    (Module.records source context).errors =
      (Subject.ofSource source).tail.flatMap (Subject.errors context) := by
  simp only [Module.records, Checked.errors_map, Checked.errors_both, errors_classes,
    errors_interfaces, errors_functions, errors_typeAliases, errors_constants, errors_exports,
    Subject.ofSource, List.tail_cons, List.flatMap_append, List.append_assoc]

/-- A module with a path has a name. -/
theorem moduleName_of_located {context : Context} (located : context.path ≠ []) :
    context.moduleName = .ok (Subject.moduleName context.path) := by
  rw [Context.moduleName, Subject.moduleName, List.getLastD_eq_getLast?,
    List.getLast?_eq_some_getLast located]
  rfl

/-- The documentation of a module reports its own errors, if the module has a path. -/
theorem documentation_of_located {context : Context} (located : context.path ≠ []) :
    ∃ summary : Checked Summary,
      documentation source context = .ok summary ∧
        summary.errors =
          (Subject.module (source.leadingComments.head?.map Comment.read)).errors context := by
  cases comments : source.leadingComments with
  | nil =>
      by_cases enforced :
          context.settings.enforceDescriptions ∨ context.settings.enforceVersion
      · refine ⟨.fail ("Missing documentation in " ++ context.location ++ " module"), ?_, ?_⟩
        · simp only [documentation, comments, Bool.or_eq_true, enforced, if_true]
        · simp [Subject.errors, enforced]
      · refine ⟨.accepted {}, ?_, ?_⟩
        · simp only [documentation, comments, Bool.or_eq_true, enforced, if_false]
        · simp [Subject.errors, enforced]
  | cons first others =>
      refine ⟨Policy.check (Subject.moduleName context.path) context.path
        (Comment.read first) true context.settings, ?_, ?_⟩
      · simp only [documentation, comments, moduleName_of_located located]
        rfl
      · simp only [List.head?_cons, Option.map_some, Subject.errors]
        exact Policy.errors_check context.settings true (Comment.read first) _ context.path

end Extract

namespace Module

/-- Making a module ends with a check whose errors are the own errors of the subjects. -/
theorem ofSource_of_located (source : SourceFile) {context : Context}
    (located : context.path ≠ []) :
    ∃ checked : Checked Module,
      ofSource source context = .ok checked ∧
        checked.errors = (Subject.ofSource source).flatMap (Subject.errors context) := by
  obtain ⟨summary, documented, own⟩ := Extract.documentation_of_located source located
  have allErrors :
      (summary.both (records source context)).errors =
        (Subject.ofSource source).flatMap (Subject.errors context) := by
    rw [Checked.errors_both, own, Extract.errors_records]
    rfl
  cases both : summary.both (records source context) with
  | accepted pair =>
      refine ⟨.accepted { pair.2 with
        doc := Doc.ofSummary (Subject.moduleName context.path) pair.1 }, ?_, ?_⟩
      · simp only [ofSource, documented, both, Extract.moduleName_of_located located]
        rfl
      · rw [← allErrors, both]
        rfl
  | rejected first others =>
      refine ⟨.rejected first others, ?_, ?_⟩
      · simp only [ofSource, documented, both]
      · rw [← allErrors, both]
        rfl

/--
Making a module reports the own errors of all subjects, subject by subject.  It fails
exactly if a subject has an own error, and hidden declarations change nothing.
-/
theorem ofSource_reports_own_errors (source : SourceFile) (context : Context)
    (located : context.path ≠ []) :
    ∃ checked : Checked Module,
      ofSource source context = .ok checked ∧
        checked.errors = (Subject.ofSource source).flatMap (Subject.errors context) ∧
        (checked.value? = none ↔
          ∃ subject ∈ Subject.ofSource source, subject.errors context ≠ []) ∧
        ∀ other : SourceFile, other.SameShown source →
          ofSource other context = .ok checked := by
  obtain ⟨checked, made, errors⟩ := ofSource_of_located source located
  refine ⟨checked, made, errors, ?_, ?_⟩
  · rw [Checked.value?_eq_none_iff, errors, Ne, List.flatMap_eq_nil_iff]
    push Not
    rfl
  · intro other same
    rw [ofSource_eq_of_sameShown same, made]

/-- A class without a name, one with a bad property, a hidden function and a bare export. -/
def fourErrors : SourceFile :=
  { leadingComments := ["/** @since 1.0.0 */"]
    classes :=
      [{ exported := true, methods := [{ name := "m" }] },
        { name := some "A", exported := true, jsdocs := ["/** A class. */"]
          methods := [{ name := "n", isPrivate := true }]
          properties := [{ name := "p" }] }]
    functions := [{ exported := false }]
    exports := [{ name := "b" }] }

theorem ofSource_reports_fourErrors :
    (["src", "a.ts"] : List Text) ≠ [] ∧
      ∃ checked : Checked Module,
        ofSource fourErrors { path := ["src", "a.ts"], settings := {} } = .ok checked ∧
          checked.errors =
            (["Missing class name in module src/a.ts",
              "Missing \"@since\" tag in src/a.ts#A documentation",
              "Missing \"@since\" tag in src/a.ts#A#p documentation",
              "Missing b documentation in src/a.ts"] : List Text) := by
  have located : (["src", "a.ts"] : List Text) ≠ [] := by simp
  obtain ⟨checked, made, errors, -⟩ :=
    ofSource_reports_own_errors fourErrors { path := ["src", "a.ts"], settings := {} } located
  exact ⟨located, checked, made, errors.trans (by decide +kernel)⟩

end Module

end ApiDocs
