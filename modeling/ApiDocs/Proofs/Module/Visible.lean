import Mathlib.Data.List.Basic
import ApiDocs.Module.Assemble

/-!
# Visible declarations

A declaration is *shown* if it is open to other modules and its comment has none of
the tags that hide it.  The rule is stated once, as a predicate on each kind of
declaration, and every filter of the extraction is proved to follow it.

Removing everything hidden from a source file gives its *shown part*.  The main
statement says that a module is made from the shown part alone, so that files which
differ only in hidden declarations give the same module or the same errors.
-/

namespace ApiDocs

/-- A comment admits its declaration unless it has one of the hiding tags. -/
def Comment.Admits (comment : Comment) : Prop :=
  ∀ tag ∈ ["internal", "ignore"], comment.hasTag tag = false

instance (comment : Comment) : Decidable comment.Admits :=
  inferInstanceAs (Decidable (∀ tag ∈ ["internal", "ignore"], comment.hasTag tag = false))

theorem Comment.admits_iff_not_hides (comment : Comment) :
    comment.Admits ↔ comment.hides = false := by
  simp [Admits, hides]

/-- A declaration is shown if it is open and the comment in front of it admits it. -/
def IsShown (isOpen : Bool) (jsdocs : List Text) : Prop :=
  isOpen = true ∧ (Comment.ofBlocks jsdocs).Admits

instance (isOpen : Bool) (jsdocs : List Text) : Decidable (IsShown isOpen jsdocs) :=
  inferInstanceAs (Decidable (_ ∧ _))

theorem decide_isShown (isOpen : Bool) (jsdocs : List Text) :
    decide (IsShown isOpen jsdocs) = (isOpen && !Extract.isHidden jsdocs) := by
  rw [Bool.eq_iff_iff, decide_eq_true_eq, IsShown, Comment.admits_iff_not_hides]
  simp [Extract.isHidden]

/-! ## What is shown of a class -/

/-- A method is shown unless it is private or hidden. -/
def MethodDeclaration.isShown (method : MethodDeclaration) : Bool :=
  decide (IsShown (!method.isPrivate) method.jsdocs)

/-- A property is shown unless it is static, private or hidden. -/
def PropertyDeclaration.isShown (property : PropertyDeclaration) : Bool :=
  decide (IsShown (!property.isStatic && !property.isPrivate) property.jsdocs)

namespace ClassDeclaration

/-- A class is shown if it is exported and not hidden. -/
def isShown (declaration : ClassDeclaration) : Bool :=
  decide (IsShown declaration.exported declaration.jsdocs)

/-- The shown methods, static or not. -/
def shownMethods (declaration : ClassDeclaration) : List MethodDeclaration :=
  declaration.methods.filter MethodDeclaration.isShown

/-- The shown properties. -/
def shownProperties (declaration : ClassDeclaration) : List PropertyDeclaration :=
  declaration.properties.filter PropertyDeclaration.isShown

/-- The shown methods of the class itself, or those of its objects. -/
def shownMethodsOf (isStatic : Bool) (declaration : ClassDeclaration) : List MethodDeclaration :=
  declaration.shownMethods.filter fun method => method.isStatic == isStatic

/-- The class without its hidden members. -/
def shownPart (declaration : ClassDeclaration) : ClassDeclaration :=
  { declaration with
    methods := declaration.shownMethods
    properties := declaration.shownProperties }

end ClassDeclaration

namespace Extract

theorem visibleMethods_eq (isStatic : Bool) (declaration : ClassDeclaration) :
    visibleMethods isStatic declaration = declaration.shownMethodsOf isStatic := by
  simp only [visibleMethods, ClassDeclaration.shownMethodsOf, ClassDeclaration.shownMethods,
    List.filter_filter]
  apply List.filter_congr
  intro method _
  simp [MethodDeclaration.isShown, decide_isShown, Bool.and_assoc]

theorem visibleProperties_eq (declaration : ClassDeclaration) :
    visibleProperties declaration = declaration.shownProperties := by
  apply List.filter_congr
  intro property _
  simp [PropertyDeclaration.isShown, decide_isShown]

/-- The record of a class does not depend on its hidden members. -/
theorem classRecord_shownPart (context : Context) (declaration : ClassDeclaration) :
    classRecord context declaration.shownPart = classRecord context declaration := by
  have methods : declaration.shownPart.shownMethods = declaration.shownMethods := by
    simp [ClassDeclaration.shownPart, ClassDeclaration.shownMethods]
  have properties :
      declaration.shownPart.shownProperties = declaration.shownProperties := by
    simp [ClassDeclaration.shownPart, ClassDeclaration.shownProperties]
  simp only [classRecord, visibleMethods_eq, visibleProperties_eq,
    ClassDeclaration.shownMethodsOf, methods, properties]
  rfl

end Extract

/-! ## What is shown of a source file -/

/-- An interface or a type alias is shown if it is exported and not hidden. -/
def TypeDeclaration.isShown (declaration : TypeDeclaration) : Bool :=
  decide (IsShown declaration.exported declaration.jsdocs)

/-- A function is shown if it is exported and not hidden. -/
def FunctionDeclaration.isShown (declaration : FunctionDeclaration) : Bool :=
  decide (IsShown declaration.exported declaration.jsdocs)

/-- A variable is shown if it is exported, has a value and is not hidden. -/
def VariableDeclaration.isShown (declaration : VariableDeclaration) : Bool :=
  decide (IsShown (declaration.exported && declaration.hasInitializer) declaration.jsdocs)

/-- An export is shown unless the first comment in front of it hides it. -/
def ExportSpecifier.isShown (specifier : ExportSpecifier) : Bool :=
  decide (∀ first ∈ specifier.leadingComments.head?, (Comment.read first).Admits)

namespace SourceFile

/-- The shown classes. -/
def shownClasses (source : SourceFile) : List ClassDeclaration :=
  source.classes.filter ClassDeclaration.isShown

/-- The shown interfaces. -/
def shownInterfaces (source : SourceFile) : List TypeDeclaration :=
  source.interfaces.filter TypeDeclaration.isShown

/-- The shown functions that are declared as such. -/
def shownFunctions (source : SourceFile) : List FunctionDeclaration :=
  source.functions.filter FunctionDeclaration.isShown

/-- The shown type aliases. -/
def shownTypeAliases (source : SourceFile) : List TypeDeclaration :=
  source.typeAliases.filter TypeDeclaration.isShown

/-- The shown variables. -/
def shownVariables (source : SourceFile) : List VariableDeclaration :=
  source.variableList.filter VariableDeclaration.isShown

/-- The shown variables that hold functions, or those that hold anything else. -/
def shownVariablesOf (isFunction : Bool) (source : SourceFile) : List VariableDeclaration :=
  source.shownVariables.filter fun declaration => declaration.isFunction == isFunction

/-- The shown exports. -/
def shownExports (source : SourceFile) : List ExportSpecifier :=
  source.exports.filter ExportSpecifier.isShown

/-- The source file without its hidden declarations and hidden members. -/
def shownPart (source : SourceFile) : SourceFile :=
  { source with
    interfaces := source.shownInterfaces
    functions := source.shownFunctions
    typeAliases := source.shownTypeAliases
    variableList := source.shownVariables
    classes := source.shownClasses.map ClassDeclaration.shownPart
    exports := source.shownExports }

/-- Two source files differ only in hidden declarations if their shown parts agree. -/
def SameShown (source other : SourceFile) : Prop :=
  source.shownPart = other.shownPart

end SourceFile

namespace Extract

theorem visibleClasses_eq (source : SourceFile) :
    visibleClasses source = source.shownClasses := by
  apply List.filter_congr
  intro declaration _
  simp [ClassDeclaration.isShown, decide_isShown]

theorem visibleTypes_eq (declarations : List TypeDeclaration) :
    visibleTypes declarations = declarations.filter TypeDeclaration.isShown := by
  apply List.filter_congr
  intro declaration _
  simp [TypeDeclaration.isShown, decide_isShown]

theorem visibleFunctions_eq (source : SourceFile) :
    visibleFunctions source = source.shownFunctions := by
  apply List.filter_congr
  intro declaration _
  simp [FunctionDeclaration.isShown, decide_isShown]

theorem visibleVariables_eq (isFunction : Bool) (source : SourceFile) :
    visibleVariables isFunction source = source.shownVariablesOf isFunction := by
  simp only [visibleVariables, SourceFile.shownVariablesOf, SourceFile.shownVariables,
    List.filter_filter]
  apply List.filter_congr
  intro declaration _
  rw [VariableDeclaration.isShown, decide_isShown]
  cases declaration.isFunction == isFunction <;> simp

/-- An export without a record is a hidden one. -/
theorem exportRecord?_eq_none_iff (context : Context) (specifier : ExportSpecifier) :
    exportRecord? context specifier = none ↔ specifier.isShown = false := by
  cases comments : specifier.leadingComments with
  | nil =>
      simp [exportRecord?, ExportSpecifier.isShown, comments]
  | cons first others =>
      simp [exportRecord?, ExportSpecifier.isShown, comments, Comment.admits_iff_not_hides]

/-- The checks of the exports are those of the shown ones. -/
theorem filterMap_exportRecord? (context : Context) (specifiers : List ExportSpecifier) :
    (specifiers.filter ExportSpecifier.isShown).filterMap (exportRecord? context) =
      specifiers.filterMap (exportRecord? context) := by
  rw [List.filterMap_filter]
  apply List.filterMap_congr
  intro specifier _
  split
  · rfl
  · rename_i hidden
    rw [Bool.not_eq_true] at hidden
    exact ((exportRecord?_eq_none_iff context specifier).mpr hidden).symm

end Extract

/-! ## Hidden declarations do not matter -/

namespace Extract

variable (source : SourceFile) (context : Context)

theorem classes_shownPart : classes source.shownPart context = classes source context := by
  have shown : source.shownPart.shownClasses = source.shownPart.classes := by
    apply List.filter_eq_self.mpr
    intro declaration member
    obtain ⟨original, kept, rfl⟩ := List.mem_map.mp member
    exact (List.mem_filter.mp kept).2
  have records :
      source.shownPart.classes.map (classRecord context) =
        source.shownClasses.map (classRecord context) := by
    simp [SourceFile.shownPart, Function.comp_def, classRecord_shownPart]
  simp only [classes, visibleClasses_eq, Checked.each, shown, records]

theorem interfaces_shownPart :
    interfaces source.shownPart context = interfaces source context := by
  simp [interfaces, visibleTypes_eq, SourceFile.shownPart, SourceFile.shownInterfaces]

theorem typeAliases_shownPart :
    typeAliases source.shownPart context = typeAliases source context := by
  simp [typeAliases, visibleTypes_eq, SourceFile.shownPart, SourceFile.shownTypeAliases]

theorem functions_shownPart : functions source.shownPart context = functions source context := by
  simp [functions, visibleFunctions_eq, visibleVariables_eq, SourceFile.shownPart,
    SourceFile.shownFunctions, SourceFile.shownVariablesOf, SourceFile.shownVariables]

theorem constants_shownPart : constants source.shownPart context = constants source context := by
  simp [constants, visibleVariables_eq, SourceFile.shownPart,
    SourceFile.shownVariablesOf, SourceFile.shownVariables]

theorem exports_shownPart : exports source.shownPart context = exports source context := by
  simp only [exports, SourceFile.shownPart, SourceFile.shownExports, filterMap_exportRecord?]

end Extract

/-- A module is made from the shown part of its source file. -/
theorem Module.ofSource_shownPart (source : SourceFile) (context : Context) :
    Module.ofSource source.shownPart context = Module.ofSource source context := by
  have documentation :
      Extract.documentation source.shownPart context =
        Extract.documentation source context := rfl
  simp only [Module.ofSource, Module.records, documentation, Extract.classes_shownPart,
    Extract.interfaces_shownPart, Extract.functions_shownPart, Extract.typeAliases_shownPart,
    Extract.constants_shownPart, Extract.exports_shownPart]

/-- Source files that differ only in hidden declarations have the same outcome. -/
theorem Module.ofSource_eq_of_sameShown {source other : SourceFile}
    (same : source.SameShown other) (context : Context) :
    Module.ofSource source context = Module.ofSource other context := by
  rw [← Module.ofSource_shownPart source, same, Module.ofSource_shownPart]

end ApiDocs
