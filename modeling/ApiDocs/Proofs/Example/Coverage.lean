import Mathlib.Data.List.Count
import ApiDocs.Example.Harvest
import ApiDocs.Proofs.Page.Shown

/-!
# Which examples are checked

A page shows the examples of everything in its module.  The examples that are checked
are those of the module, of classes and their methods, and of interfaces, type aliases,
constants and functions.  What is left over are the examples of exports and of the
properties of classes: so all examples of a page are checked exactly if these have none.
-/

namespace ApiDocs.Example

/-- The examples of a module that are checked, in the order of their files. -/
def checkedExamples (module : Module) : List Text :=
  (documented module).flatMap fun entry => entry.2.examples

/-- The examples of the properties of a class. -/
def ofProperties (record : Class) : List Text :=
  record.properties.flatMap fun property => property.doc.examples

/-- The examples of a module for which there is no file. -/
def uncheckedExamples (module : Module) : List Text :=
  module.exports.flatMap (fun record => record.doc.examples) ++
    module.classes.flatMap ofProperties

variable (module : Module) (outputDir : Text)

/-- Each file has one of the checked examples and a line break. -/
theorem map_content_harvest :
    (harvest [module] outputDir).map TextFile.content =
      (checkedExamples module).map fun content : Text => content ++ ("\n" : Text) := by
  simp only [harvest, checkedExamples, List.flatMap_cons, List.flatMap_nil, List.append_nil,
    List.map_flatMap]
  apply List.flatMap_congr
  intro entry _
  apply List.ext_getElem
  · simp [filesOf]
  · intro index _ _
    simp [filesOf, file]

theorem examples_class_perm (record : Class) :
    ((ofClass record).flatMap (fun entry => entry.2.examples) ++ ofProperties record).Perm
      record.examples := by
  rw [List.perm_iff_count]
  intro content
  simp only [ofClass, ofProperties, Class.examples, List.flatMap_cons, List.flatMap_append,
    List.flatMap_map, List.count_append]
  omega

/-- Every example of a module is either checked or not, and none is counted twice. -/
theorem examples_perm :
    (checkedExamples module ++ uncheckedExamples module).Perm module.examples := by
  have inClasses :
      (module.classes.flatMap
          (fun record => (ofClass record).flatMap fun entry => entry.2.examples) ++
        module.classes.flatMap ofProperties).Perm (module.classes.flatMap Class.examples) :=
    (List.flatMap_append_perm _ _ _).trans
      (List.Perm.flatMap_left _ fun record _ => examples_class_perm record)
  rw [List.perm_iff_count] at inClasses ⊢
  intro content
  have classCount := inClasses content
  simp only [checkedExamples, uncheckedExamples, documented, Module.examples,
    List.flatMap_cons, List.flatMap_append, List.flatMap_map, List.flatMap_assoc,
    List.count_append] at classCount ⊢
  omega

/-- An example has one file for each time it is given, unless it is given unchecked. -/
theorem count_examples (content : Text) :
    module.examples.count content =
      ((harvest [module] outputDir).map TextFile.content).count (content ++ "\n") +
        (uncheckedExamples module).count content := by
  have lineBreak : Function.Injective fun content : Text => content ++ ("\n" : Text) :=
    List.append_left_injective _
  rw [map_content_harvest, List.count_map_of_injective _ _ lineBreak, ← List.count_append]
  exact ((examples_perm module).count_eq content).symm

theorem uncheckedExamples_eq_nil_iff :
    uncheckedExamples module = [] ↔
      (∀ record ∈ module.exports, record.doc.examples = []) ∧
        ∀ record ∈ module.classes, ∀ property ∈ record.properties,
          property.doc.examples = [] := by
  simp only [uncheckedExamples, ofProperties, List.append_eq_nil_iff, List.flatMap_eq_nil_iff]

/-- All examples have files exactly if no example is unchecked. -/
theorem count_examples_le_iff :
    (∀ content, module.examples.count content ≤
        ((harvest [module] outputDir).map TextFile.content).count (content ++ "\n")) ↔
      uncheckedExamples module = [] := by
  constructor
  · intro covered
    apply List.eq_nil_iff_forall_not_mem.mpr
    intro content member
    have given := count_examples module outputDir content
    have enough := covered content
    have positive := List.count_pos_iff.mpr member
    omega
  · intro none content
    rw [count_examples module outputDir content, none]
    exact Nat.le_refl _

/--
A page shows all examples of its module, and the files of the harvest have only such
examples.  Every example has as many files as it is given times on the page exactly if
no export and no property of a class has an example.
-/
theorem harvest_covers_page_iff (order : Int) :
    (∃ shown : List Text,
        shown.Perm module.examples ∧ Page.Shows shown (Page.text module order)) ∧
      (∀ file ∈ harvest [module] outputDir,
        ∃ content ∈ module.examples, file.content = content ++ "\n") ∧
      (∀ content, module.examples.count content =
        ((harvest [module] outputDir).map TextFile.content).count (content ++ "\n") +
          (uncheckedExamples module).count content) ∧
      ((∀ content, module.examples.count content ≤
          ((harvest [module] outputDir).map TextFile.content).count (content ++ "\n")) ↔
        (∀ record ∈ module.exports, record.doc.examples = []) ∧
          ∀ record ∈ module.classes, ∀ property ∈ record.properties,
            property.doc.examples = []) := by
  refine ⟨Page.exists_shows_text module order, ?_, count_examples module outputDir, ?_⟩
  · intro file member
    have listed : file.content ∈ (harvest [module] outputDir).map TextFile.content :=
      List.mem_map_of_mem member
    rw [map_content_harvest] at listed
    obtain ⟨content, isChecked, same⟩ := List.mem_map.mp listed
    refine ⟨content, ?_, same.symm⟩
    exact (examples_perm module).subset (List.mem_append_left _ isChecked)
  · rw [count_examples_le_iff, uncheckedExamples_eq_nil_iff]

/-- A module whose only examples are those of a property and an export. -/
def boxModule : Module :=
  { doc := { name := "index", since := some "1.0.0" }
    path := ["src", "index.ts"]
    classes :=
      [{ doc := { name := "Box", since := some "1.0.0" }
         signature := "export declare class Box"
         properties :=
          [{ doc := { name := "size", since := some "1.0.0", examples := ["box.size"] }
             signature := "size: number" }] }]
    exports :=
      [{ doc := { name := "b", since := some "1.0.0", examples := ["b(1)"] }
         signature := "export declare const b: any" }] }

/-- The page shows both examples, and neither has a file. -/
theorem boxModule_examples_unchecked :
    (Page.exampleBlock "box.size" <:+: Page.text boxModule 0 ∧
        ("box.size\n" : Text) ∉ (harvest [boxModule] "docs").map TextFile.content) ∧
      Page.exampleBlock "b(1)" <:+: Page.text boxModule 0 ∧
        ("b(1)\n" : Text) ∉ (harvest [boxModule] "docs").map TextFile.content := by
  have noFile : harvest [boxModule] "docs" = [] := by decide +kernel
  obtain ⟨shown, same, onPage⟩ := Page.exists_shows_text boxModule 0
  have blockOnPage (content : Text) (given : content ∈ boxModule.examples) :
      Page.exampleBlock content <:+: Page.text boxModule 0 :=
    onPage.isInfix content (same.symm.subset given)
  rw [noFile]
  refine ⟨⟨blockOnPage "box.size" (by decide +kernel), by simp⟩,
    blockOnPage "b(1)" (by decide +kernel), by simp⟩

end ApiDocs.Example
