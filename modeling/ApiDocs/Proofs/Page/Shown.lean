import Mathlib.Data.List.Perm.Basic
import ApiDocs.Page.Module
import ApiDocs.Proofs.Text.Pieces

/-!
# The examples on a page

A text shows a list of examples if the blocks for them stand in it, one behind the
other and in the order of the list.  An entry shows the examples of its thing, and
an entry for a class also those of the members.

On a page the entries are ordered by category and then by their text.  So a page
shows all examples of its module, each as often as it is given, in some order.
-/

namespace ApiDocs

/-- The examples of a class and its members. -/
def Class.examples (record : Class) : List Text :=
  record.doc.examples ++
    record.staticMethods.flatMap (fun method => method.doc.examples) ++
    record.methods.flatMap (fun method => method.doc.examples) ++
    record.properties.flatMap (fun property => property.doc.examples)

/-- The examples of a module and of everything in it. -/
def Module.examples (module : Module) : List Text :=
  module.doc.examples ++
    module.classes.flatMap Class.examples ++
    module.constants.flatMap (fun record => record.doc.examples) ++
    module.exports.flatMap (fun record => record.doc.examples) ++
    module.functions.flatMap (fun record => record.doc.examples) ++
    module.interfaces.flatMap (fun record => record.doc.examples) ++
    module.typeAliases.flatMap (fun record => record.doc.examples)

namespace Page

/-! ## Grouping by category -/

/-- Grouping things by category neither loses nor repeats one. -/
theorem flatMap_filter_category_perm {categories : List Text} (distinct : categories.Nodup)
    {printables : List Printable}
    (covered : ∀ printable ∈ printables, printable.category ∈ categories) :
    (categories.flatMap fun category =>
      printables.filter fun printable => printable.category == category).Perm printables := by
  induction categories generalizing printables with
  | nil =>
      have empty : printables = [] :=
        List.eq_nil_iff_forall_not_mem.mpr fun printable member => by
          simpa using covered printable member
      simp [empty]
  | cons category others ih =>
      obtain ⟨absent, distinct⟩ := List.nodup_cons.mp distinct
      -- The other groups are taken from the things outside the first group.
      have otherGroups :
          (others.flatMap fun other =>
            printables.filter fun printable => printable.category == other) =
          others.flatMap fun other =>
            (printables.filter fun printable => !(printable.category == category)).filter
              fun printable => printable.category == other := by
        apply List.flatMap_congr
        intro other member
        rw [List.filter_filter]
        apply List.filter_congr
        intro printable _
        by_cases same : printable.category = other
        · have different : other ≠ category := fun equal => absent (equal ▸ member)
          simp [same, different]
        · simp [same]
      have coveredOutside :
          ∀ printable ∈ printables.filter fun printable => !(printable.category == category),
            printable.category ∈ others := by
        intro printable member
        obtain ⟨listed, different⟩ := List.mem_filter.mp member
        rcases List.mem_cons.mp (covered printable listed) with same | inOthers
        · simp [same] at different
        · exact inOthers
      rw [List.flatMap_cons, otherGroups]
      exact ((ih distinct coveredOutside).append_left _).trans (List.filter_append_perm _ _)

/-! ## Texts that show examples -/

/-- The blocks for the examples stand in the text, one behind the other. -/
inductive Shows : List Text → Text → Prop where
  | plain (text : Text) : Shows [] text
  | block (content : Text) : Shows [content] (exampleBlock content)
  | append {first second : List Text} {left right : Text} :
      Shows first left → Shows second right → Shows (first ++ second) (left ++ right)

namespace Shows

/-- The block for an example that is shown is a part of the text. -/
theorem isInfix {examples : List Text} {text : Text} (shown : Shows examples text) :
    ∀ content ∈ examples, exampleBlock content <:+: text := by
  induction shown with
  | plain text => simp
  | block content => simp
  | append _ _ leftInfix rightInfix =>
      intro content member
      rcases List.mem_append.mp member with inLeft | inRight
      · exact (leftInfix content inLeft).trans (List.prefix_append _ _).isInfix
      · exact (rightInfix content inRight).trans (List.suffix_append _ _).isInfix

theorem append_plain {examples : List Text} {text : Text} (shown : Shows examples text)
    (rest : Text) : Shows examples (text ++ rest) := by
  have both := shown.append (plain rest)
  rwa [List.append_nil] at both

theorem plain_append {examples : List Text} {text : Text} (front : Text)
    (shown : Shows examples text) : Shows examples (front ++ text) :=
  (plain front).append shown

/-- Joined blocks show what both halves of them show. -/
theorem joinBlocks_append {first second : List Text} {left right : List Text}
    (firstShown : Shows first (joinBlocks left)) (secondShown : Shows second (joinBlocks right)) :
    Shows (first ++ second) (joinBlocks (left ++ right)) := by
  have both := firstShown.append secondShown
  cases left with
  | nil => exact both
  | cons block others =>
      cases right with
      | nil => simpa [joinBlocks, Text.joinWith] using both
      | cons next rest =>
          rw [joinBlocks, Text.joinWith_append _ (by simp) (by simp)]
          exact (firstShown.append_plain "\n\n").append secondShown

/-- The joined texts of some things show the examples of each thing. -/
theorem joinBlocks_map {α : Type} {examplesOf : α → List Text} {textOf : α → Text}
    (each : ∀ item, Shows (examplesOf item) (textOf item)) (items : List α) :
    Shows (items.flatMap examplesOf) (joinBlocks (items.map textOf)) := by
  induction items with
  | nil => exact plain _
  | cons item rest ih =>
      have first : Shows (examplesOf item) (joinBlocks [textOf item]) := each item
      exact first.joinBlocks_append ih

/-- The same for texts that stand directly behind each other. -/
theorem flatMap {α : Type} {examplesOf : α → List Text} {textOf : α → Text}
    (each : ∀ item, Shows (examplesOf item) (textOf item)) (items : List α) :
    Shows (items.flatMap examplesOf) (items.flatMap textOf) := by
  induction items with
  | nil => exact plain _
  | cons item rest ih => exact (each item).append ih

end Shows

/-! ## Entries -/

/-- An entry shows the examples of its thing. -/
theorem shows_entry (heading : Text) (doc : Doc) (signatures : List Text) :
    Shows doc.examples (entry heading doc signatures) := by
  have blocks : Shows doc.examples (joinBlocks (doc.examples.map exampleBlock)) := by
    have each := Shows.joinBlocks_map Shows.block doc.examples
    rwa [List.flatMap_singleton'] at each
  have front := Shows.plain (joinBlocks
    ([heading] ++ given doc.description ++
      ["**Signature**\n\n" ++ code (joinBlocks signatures)]))
  have back := Shows.plain (joinBlocks
    ((given doc.since).map fun version : Text => "Added in v" ++ version))
  have all := (front.joinBlocks_append blocks).joinBlocks_append back
  rwa [List.nil_append, List.append_nil] at all

theorem shows_method (label : Text) (record : Callable) :
    Shows record.doc.examples (method label record) :=
  shows_entry _ record.doc record.signatures

theorem shows_property (record : Item) : Shows record.doc.examples (property record) :=
  shows_entry _ record.doc [record.signature]

theorem shows_classEntry (record : Class) : Shows record.examples (classEntry record) := by
  have own : Shows record.doc.examples
      (joinBlocks [entry ("## " ++ title record.doc " (class)") record.doc [record.signature]]) :=
    shows_entry _ record.doc [record.signature]
  have staticMethods := Shows.joinBlocks_map (shows_method " (static method)") record.staticMethods
  have methods := Shows.joinBlocks_map (shows_method " (method)") record.methods
  have properties := Shows.joinBlocks_map shows_property record.properties
  exact ((own.joinBlocks_append staticMethods).joinBlocks_append methods).joinBlocks_append
    properties

namespace Printable

/-- The examples in the entry for a thing. -/
def examples : Printable → List Text
  | .classLike record => record.examples
  | .constant record => record.doc.examples
  | .exported record => record.doc.examples
  | .function record => record.doc.examples
  | .interface record => record.doc.examples
  | .typeAlias record => record.doc.examples

theorem shows_text (printable : Printable) : Shows printable.examples printable.text := by
  cases printable with
  | classLike record => exact shows_classEntry record
  | constant record => exact shows_entry _ record.doc _
  | exported record => exact shows_entry _ record.doc _
  | function record => exact shows_entry _ record.doc _
  | interface record => exact shows_entry _ record.doc _
  | typeAlias record => exact shows_entry _ record.doc _

theorem flatMap_examples_ofModule (module : Module) :
    module.doc.examples ++ (ofModule module).flatMap examples = module.examples := by
  simp only [ofModule, Module.examples, List.flatMap_append, List.flatMap_map, examples,
    List.append_assoc]

/-! ## The order of the entries -/

/-- Things in the alphabetical order of their entries. -/
def byText (printables : List Printable) : List Printable :=
  printables.mergeSort fun left right => Text.atMost left.text right.text

theorem sorted_map_text (printables : List Printable) :
    sorted (printables.map text) = (byText printables).map text := by
  rw [sorted, byText, List.map_mergeSort]
  intro _ _ _ _
  rfl

/-- The categories of some things, in alphabetical order. -/
def categories (printables : List Printable) : List Text :=
  sorted (printables.map category).eraseDups

theorem nodup_categories (printables : List Printable) : (categories printables).Nodup :=
  (List.mergeSort_perm _ _).nodup_iff.mpr (Text.nodup_eraseDups _)

theorem category_mem_categories {printables : List Printable} {printable : Printable}
    (listed : printable ∈ printables) : printable.category ∈ categories printables := by
  rw [categories, sorted, List.mem_mergeSort, List.mem_eraseDups]
  exact List.mem_map_of_mem listed

/-- Things in the order in which their entries stand on a page. -/
def inPageOrder (printables : List Printable) : List Printable :=
  (categories printables).flatMap fun category =>
    byText (printables.filter fun printable => printable.category == category)

/-- A page has one entry for each thing. -/
theorem inPageOrder_perm (printables : List Printable) :
    (inPageOrder printables).Perm printables := by
  have groups := flatMap_filter_category_perm (nodup_categories printables)
    fun _ listed => category_mem_categories listed
  apply List.Perm.trans _ groups
  apply List.Perm.flatMap_left
  intro category _
  exact List.mergeSort_perm _ _

end Printable

/-! ## Pages -/

theorem shows_categorySection (printables : List Printable) (category : Text) :
    Shows
      ((Printable.byText
        (printables.filter fun printable => printable.category == category)).flatMap
          Printable.examples)
      (categorySection printables category) := by
  rw [categorySection, Printable.sorted_map_text]
  exact Shows.plain_append _ (Shows.joinBlocks_map Printable.shows_text _)

theorem shows_contentOf (printables : List Printable) :
    Shows ((Printable.inPageOrder printables).flatMap Printable.examples)
      (contentOf printables) := by
  rw [Printable.inPageOrder, List.flatMap_assoc]
  exact Shows.joinBlocks_map (shows_categorySection printables) (Printable.categories printables)

theorem shows_overview (doc : Doc) : Shows doc.examples (overview doc) := by
  have paragraphs : Shows doc.examples
      (doc.examples.flatMap fun content => paragraph (exampleBlock content)) := by
    have each (content : Text) : Shows [content] (paragraph (exampleBlock content)) :=
      (Shows.block content).append_plain "\n\n"
    have all := Shows.flatMap each doc.examples
    rwa [List.flatMap_singleton'] at all
  exact (Shows.plain_append _ paragraphs).append_plain _

/-- The page of a module shows all examples of the module. -/
theorem exists_shows_text (module : Module) (order : Int) :
    ∃ shown : List Text, shown.Perm module.examples ∧ Shows shown (text module order) := by
  have entries := shows_contentOf (Printable.ofModule module)
  refine ⟨module.doc.examples ++
    (Printable.inPageOrder (Printable.ofModule module)).flatMap Printable.examples, ?_, ?_⟩
  · rw [← Printable.flatMap_examples_ofModule]
    exact ((Printable.inPageOrder_perm _).flatMap_right _).append_left _
  · have overview := Shows.plain_append (header module order) (shows_overview module.doc)
    have contents := (overview.append_plain
      "---\n\n<h2 class=\"text-delta\">Table of contents</h2>\n\n").append_plain
        (Contents.ofPage (content module))
    exact ((contents.append_plain "\n\n---\n\n").append entries).append_plain "\n"

end Page

end ApiDocs
