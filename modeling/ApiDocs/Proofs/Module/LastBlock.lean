import ApiDocs.Module.Assemble

/-!
# Nothing but the last block matters

In front of a declaration there may be several documentation comments, called *blocks* here.
Taking away every block but the last one leaves the outcome of a file as it was, be it a module
or errors: neither the documentation nor the decision whether a declaration is shown depends on
the other blocks.  Of the forms of a function or method only the first one needs its last block;
the comments of constructors do not matter at all, and of the comments in front of an export
only the first one does.
-/

namespace ApiDocs

/-- The last one of some blocks, if there is any. -/
def lastBlock (blocks : List Text) : List Text :=
  blocks.getLast?.toList

theorem Comment.ofBlocks_lastBlock (blocks : List Text) :
    ofBlocks (lastBlock blocks) = ofBlocks blocks := by
  rw [ofBlocks, ofBlocks, lastBlock]
  cases blocks.getLast? <;> rfl

@[simp]
theorem Extract.isHidden_lastBlock (blocks : List Text) :
    isHidden (lastBlock blocks) = isHidden blocks := by
  rw [isHidden, isHidden, Comment.ofBlocks_lastBlock]

/-! ## Forms -/

namespace CallForm

/-- The form with other blocks in front of it. -/
def withBlocks (form : CallForm) (blocks : List Text) : CallForm :=
  { form with jsdocs := blocks }

/-- The overloads and the implementation of one function, with the last block of the first form. -/
def lastBlocks (overloads : List CallForm) (implementation : CallForm) :
    List CallForm × CallForm :=
  match overloads with
  | [] => ([], implementation.withBlocks (lastBlock implementation.jsdocs))
  | first :: others =>
    (first.withBlocks (lastBlock first.jsdocs) :: others.map fun form => form.withBlocks [],
      implementation.withBlocks [])

theorem beforeBody_withBlocks (form : CallForm) (blocks : List Text) :
    Signature.beforeBody (form.withBlocks blocks) = Signature.beforeBody form := rfl

variable (overloads : List CallForm) (implementation : CallForm)

theorem documentationOf_lastBlocks :
    documentationOf (lastBlocks overloads implementation).1
        (lastBlocks overloads implementation).2 =
      lastBlock (documentationOf overloads implementation) := by
  cases overloads with
  | nil => rfl
  | cons first others => rfl

theorem ofForms_lastBlocks :
    Signature.ofForms (lastBlocks overloads implementation).1
        (lastBlocks overloads implementation).2 =
      Signature.ofForms overloads implementation := by
  cases overloads with
  | nil => rfl
  | cons first others =>
      simp [lastBlocks, Signature.ofForms, beforeBody_withBlocks, Function.comp_def]

end CallForm

/-! ## Declarations -/

/-- An interface or a type alias with its last block. -/
def TypeDeclaration.lastBlocks (declaration : TypeDeclaration) : TypeDeclaration :=
  { declaration with jsdocs := lastBlock declaration.jsdocs }

/-- A variable with its last block. -/
def VariableDeclaration.lastBlocks (declaration : VariableDeclaration) : VariableDeclaration :=
  { declaration with jsdocs := lastBlock declaration.jsdocs }

/-- A property with its last block. -/
def PropertyDeclaration.lastBlocks (declaration : PropertyDeclaration) : PropertyDeclaration :=
  { declaration with jsdocs := lastBlock declaration.jsdocs }

/-- A function with the last block of its first form. -/
def FunctionDeclaration.lastBlocks (declaration : FunctionDeclaration) : FunctionDeclaration :=
  let forms := CallForm.lastBlocks declaration.overloads declaration.implementation
  { declaration with overloads := forms.1, implementation := forms.2 }

/-- A method with the last block of its first form. -/
def MethodDeclaration.lastBlocks (declaration : MethodDeclaration) : MethodDeclaration :=
  let forms := CallForm.lastBlocks declaration.overloads declaration.implementation
  { declaration with overloads := forms.1, implementation := forms.2 }

/-- A class with its last block, and its members with theirs. -/
def ClassDeclaration.lastBlocks (declaration : ClassDeclaration) : ClassDeclaration :=
  { declaration with
    jsdocs := lastBlock declaration.jsdocs
    constructors := declaration.constructors.map fun form => form.withBlocks []
    methods := declaration.methods.map MethodDeclaration.lastBlocks
    properties := declaration.properties.map PropertyDeclaration.lastBlocks }

/-- An export with the first comment in front of it. -/
def ExportSpecifier.firstComment (specifier : ExportSpecifier) : ExportSpecifier :=
  { specifier with leadingComments := specifier.leadingComments.take 1 }

/-- A source file with the comments that matter. -/
def SourceFile.lastBlocks (file : SourceFile) : SourceFile :=
  { file with
    interfaces := file.interfaces.map TypeDeclaration.lastBlocks
    functions := file.functions.map FunctionDeclaration.lastBlocks
    typeAliases := file.typeAliases.map TypeDeclaration.lastBlocks
    variableList := file.variableList.map VariableDeclaration.lastBlocks
    classes := file.classes.map ClassDeclaration.lastBlocks
    exports := file.exports.map ExportSpecifier.firstComment }

namespace Extract

variable (context : Context) (file : SourceFile)

/-- What neither check nor filter tells apart has the same checks. -/
theorem map_filter_map {α β : Type} {check : α → β} {keep : α → Bool} {change : α → α}
    (sameCheck : ∀ item, check (change item) = check item)
    (sameKeep : ∀ item, keep (change item) = keep item) (list : List α) :
    ((list.map change).filter keep).map check = (list.filter keep).map check := by
  have kept : keep ∘ change = keep := funext sameKeep
  have checked : check ∘ change = check := funext sameCheck
  rw [List.filter_map, List.map_map, kept, checked]

theorem typeRecord_lastBlocks (declaration : TypeDeclaration) :
    typeRecord context declaration.lastBlocks = typeRecord context declaration := by
  simp only [typeRecord, TypeDeclaration.lastBlocks, Comment.ofBlocks_lastBlock]

theorem method_lastBlocks (declaration : MethodDeclaration) :
    method context declaration.lastBlocks = method context declaration := by
  simp only [method, MethodDeclaration.jsdocs, MethodDeclaration.lastBlocks,
    CallForm.documentationOf_lastBlocks, CallForm.ofForms_lastBlocks, Comment.ofBlocks_lastBlock]

theorem property_lastBlocks (className : Text) (declaration : PropertyDeclaration) :
    property context className declaration.lastBlocks = property context className declaration := by
  have same := Comment.ofBlocks_lastBlock declaration.jsdocs
  rw [property, property, PropertyDeclaration.lastBlocks, same]
  rfl

theorem functionRecord_lastBlocks (declaration : FunctionDeclaration) :
    functionRecord context declaration.lastBlocks = functionRecord context declaration := by
  have named : declaration.lastBlocks.name = declaration.name := by
    rw [FunctionDeclaration.name, FunctionDeclaration.name, FunctionDeclaration.lastBlocks]
    cases declaration.overloads <;> rfl
  rw [functionRecord, functionRecord, named]
  simp only [FunctionDeclaration.jsdocs, FunctionDeclaration.lastBlocks,
    CallForm.documentationOf_lastBlocks, CallForm.ofForms_lastBlocks, Comment.ofBlocks_lastBlock]

theorem functionVariable_lastBlocks (declaration : VariableDeclaration) :
    functionVariable context declaration.lastBlocks = functionVariable context declaration := by
  simp only [functionVariable, VariableDeclaration.lastBlocks, Comment.ofBlocks_lastBlock]

theorem constantRecord_lastBlocks (declaration : VariableDeclaration) :
    constantRecord context declaration.lastBlocks = constantRecord context declaration := by
  simp only [constantRecord, VariableDeclaration.lastBlocks, Comment.ofBlocks_lastBlock]

theorem ofClass_lastBlocks (declaration : ClassDeclaration) :
    Signature.ofClass declaration.lastBlocks = Signature.ofClass declaration := by
  rw [Signature.ofClass, Signature.ofClass, ClassDeclaration.lastBlocks]
  cases declaration.constructors <;> rfl

theorem methods_lastBlocks (isStatic : Bool) (declaration : ClassDeclaration) :
    Checked.each (method context) (visibleMethods isStatic declaration.lastBlocks) =
      Checked.each (method context) (visibleMethods isStatic declaration) := by
  have kept (form : MethodDeclaration) :
      (form.lastBlocks.isStatic == isStatic && !form.lastBlocks.isPrivate &&
        !isHidden form.lastBlocks.jsdocs) =
      (form.isStatic == isStatic && !form.isPrivate && !isHidden form.jsdocs) := by
    simp only [MethodDeclaration.jsdocs, MethodDeclaration.lastBlocks,
      CallForm.documentationOf_lastBlocks, isHidden_lastBlock]
  exact congrArg Checked.all (map_filter_map (method_lastBlocks context) kept declaration.methods)

theorem properties_lastBlocks (className : Text) (declaration : ClassDeclaration) :
    Checked.each (property context className) (visibleProperties declaration.lastBlocks) =
      Checked.each (property context className) (visibleProperties declaration) := by
  refine congrArg Checked.all (map_filter_map (property_lastBlocks context className) ?_
    declaration.properties)
  intro form
  simp only [PropertyDeclaration.lastBlocks, isHidden_lastBlock]

theorem classRecord_lastBlocks (declaration : ClassDeclaration) :
    classRecord context declaration.lastBlocks = classRecord context declaration := by
  rw [classRecord, classRecord]
  simp only [methods_lastBlocks, properties_lastBlocks, ofClass_lastBlocks]
  simp only [ClassDeclaration.lastBlocks, Comment.ofBlocks_lastBlock]

theorem exportRecord?_firstComment (specifier : ExportSpecifier) :
    exportRecord? context specifier.firstComment = exportRecord? context specifier := by
  rw [exportRecord?, exportRecord?, ExportSpecifier.firstComment]
  cases specifier.leadingComments with
  | nil => rfl
  | cons first others => rfl

/-! ## Whole files -/

theorem classes_lastBlocks : classes file.lastBlocks context = classes file context := by
  refine congrArg (fun checks => (Checked.all checks).map _)
    (map_filter_map (classRecord_lastBlocks context) ?_ file.classes)
  intro declaration
  simp only [ClassDeclaration.lastBlocks, isHidden_lastBlock]

theorem visibleTypes_lastBlocks (declarations : List TypeDeclaration) :
    (visibleTypes (declarations.map TypeDeclaration.lastBlocks)).map (typeRecord context) =
      (visibleTypes declarations).map (typeRecord context) := by
  refine map_filter_map (typeRecord_lastBlocks context) ?_ declarations
  intro declaration
  simp only [TypeDeclaration.lastBlocks, isHidden_lastBlock]

theorem interfaces_lastBlocks : interfaces file.lastBlocks context = interfaces file context :=
  congrArg (fun checks => (Checked.all checks).map _)
    (visibleTypes_lastBlocks context file.interfaces)

theorem typeAliases_lastBlocks : typeAliases file.lastBlocks context = typeAliases file context :=
  congrArg (fun checks => (Checked.all checks).map _)
    (visibleTypes_lastBlocks context file.typeAliases)

/-- The records of variables are the same, whatever is made of each variable. -/
theorem visibleVariables_lastBlocks {β : Type} {check : VariableDeclaration → β}
    (same : ∀ declaration, check declaration.lastBlocks = check declaration) (isFunction : Bool) :
    (visibleVariables isFunction file.lastBlocks).map check =
      (visibleVariables isFunction file).map check := by
  refine map_filter_map same ?_ file.variableList
  intro declaration
  simp only [VariableDeclaration.lastBlocks, isHidden_lastBlock]

theorem constants_lastBlocks : constants file.lastBlocks context = constants file context :=
  congrArg Checked.all
    (visibleVariables_lastBlocks file (constantRecord_lastBlocks context) false)

theorem functions_lastBlocks : functions file.lastBlocks context = functions file context := by
  have declared : (visibleFunctions file.lastBlocks).map (functionRecord context) =
      (visibleFunctions file).map (functionRecord context) := by
    refine map_filter_map (functionRecord_lastBlocks context) ?_ file.functions
    intro declaration
    simp only [FunctionDeclaration.jsdocs, FunctionDeclaration.lastBlocks,
      CallForm.documentationOf_lastBlocks, isHidden_lastBlock]
  rw [functions, functions, declared,
    visibleVariables_lastBlocks file (functionVariable_lastBlocks context)]

theorem exports_lastBlocks : exports file.lastBlocks context = exports file context := by
  have same : exportRecord? context ∘ ExportSpecifier.firstComment = exportRecord? context :=
    funext (exportRecord?_firstComment context)
  rw [exports, exports, SourceFile.lastBlocks, List.filterMap_map, same]

end Extract

/-- The outcome of a file does not change when all other comments are taken away. -/
theorem Module.ofSource_lastBlocks (file : SourceFile) (context : Context) :
    ofSource file.lastBlocks context = ofSource file context := by
  have documentation :
      Extract.documentation file.lastBlocks context = Extract.documentation file context := rfl
  simp only [ofSource, records, documentation, Extract.classes_lastBlocks,
    Extract.interfaces_lastBlocks, Extract.functions_lastBlocks, Extract.typeAliases_lastBlocks,
    Extract.constants_lastBlocks, Extract.exports_lastBlocks]

end ApiDocs
