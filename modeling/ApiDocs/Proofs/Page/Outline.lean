import ApiDocs.Proofs.Page.Anchors
import ApiDocs.Proofs.Page.Groups
import ApiDocs.Proofs.Page.Scan

/-!
# The outline of a page

The outline of a page has a heading for each category, for each thing under it, and for each member
of a class.  The table of contents does not know it: it reads the headings off the page.  Where
names fill a line, and no line of a description, a signature or an example looks like a heading or a
fence, both are the same.
-/

namespace ApiDocs

open Contents (Heading IsCode IsProse Scans)
open Text (IsLabel IsTitle)

/-- Documentation that has no heading on the page but its own. -/
@[mk_iff]
structure Doc.IsClear (doc : Doc) : Prop where
  name : doc.name.IsTitle
  category : ∀ category ∈ Page.given doc.category, category.IsTitle
  description : ∀ text ∈ Page.given doc.description, IsProse text
  since : ∀ text ∈ Page.given doc.since, IsProse text
  examples : ∀ content ∈ doc.examples, IsCode content

instance (doc : Doc) : Decidable doc.IsClear :=
  decidable_of_iff' _ (Doc.isClear_iff doc)

/-- The same for a thing with one signature. -/
@[mk_iff]
structure Item.IsClear (item : Item) : Prop where
  doc : item.doc.IsClear
  signature : IsCode item.signature

instance (item : Item) : Decidable item.IsClear :=
  decidable_of_iff' _ (Item.isClear_iff item)

/-- The same for a thing with several signatures. -/
@[mk_iff]
structure Callable.IsClear (callable : Callable) : Prop where
  doc : callable.doc.IsClear
  signatures : ∀ signature ∈ callable.signatures, IsCode signature

instance (callable : Callable) : Decidable callable.IsClear :=
  decidable_of_iff' _ (Callable.isClear_iff callable)

/-- The same for a class and its members. -/
@[mk_iff]
structure Class.IsClear (record : Class) : Prop where
  doc : record.doc.IsClear
  signature : IsCode record.signature
  staticMethods : ∀ method ∈ record.staticMethods, method.IsClear
  methods : ∀ method ∈ record.methods, method.IsClear
  properties : ∀ property ∈ record.properties, property.IsClear

instance (record : Class) : Decidable record.IsClear :=
  decidable_of_iff' _ (Class.isClear_iff record)

/-- The same for a module. -/
@[mk_iff]
structure Module.IsClear (module : Module) : Prop where
  classes : ∀ record ∈ module.classes, record.IsClear
  constants : ∀ record ∈ module.constants, record.IsClear
  exports : ∀ record ∈ module.exports, record.IsClear
  functions : ∀ record ∈ module.functions, record.IsClear
  interfaces : ∀ record ∈ module.interfaces, record.IsClear
  typeAliases : ∀ record ∈ module.typeAliases, record.IsClear

instance (module : Module) : Decidable module.IsClear :=
  decidable_of_iff' _ (Module.isClear_iff module)

namespace Page

variable {doc : Doc} {module : Module} {printables : List Printable} {printable : Printable}
variable {groups : List Group} {group : Group} {heading label text : Text} {found : List Heading}

/-- The headings of a class: its own one, and one for each member. -/
def classHeadings (record : Class) : List Heading :=
  ⟨2, title record.doc " (class)"⟩ ::
    (record.staticMethods.map fun method => ⟨3, title method.doc " (static method)"⟩) ++
    (record.methods.map fun method => ⟨3, title method.doc " (method)"⟩) ++
    record.properties.map fun property => ⟨3, title property.doc " (property)"⟩

namespace Printable

/-- The headings of a thing. -/
def headings : Printable → List Heading
  | .classLike record => classHeadings record
  | .constant record => [⟨2, title record.doc ""⟩]
  | .exported record => [⟨2, title record.doc ""⟩]
  | .function record => [⟨2, title record.doc ""⟩]
  | .interface record => [⟨2, title record.doc " (interface)"⟩]
  | .typeAlias record => [⟨2, title record.doc " (type alias)"⟩]

/-- Whether a thing has no headings on the page but those of its outline. -/
def IsClear : Printable → Prop
  | .classLike record => record.IsClear
  | .constant record => record.IsClear
  | .exported record => record.IsClear
  | .function record => record.IsClear
  | .interface record => record.IsClear
  | .typeAlias record => record.IsClear

end Printable

/-- The headings of a group: its category, and then its things. -/
def Group.headings (group : Group) : List Heading :=
  ⟨1, group.category⟩ :: group.members.flatMap Printable.headings

/-! ## Entries -/

theorem isTitle_title (clear : doc.IsClear) (isLabel : IsLabel label) :
    (title doc label).IsTitle := by
  rw [title]
  split
  · have struck : (Text.ofString "~~" ++ doc.name ++ Text.ofString "~~").IsTitle :=
      (clear.name.cons_append (by rfl) (by decide)).append (by decide)
    exact struck.append isLabel
  · exact clear.name.append isLabel

/-- A piece of code under a caption is scanned without headings. -/
theorem scans_captioned {caption : Text} (isProse : IsProse caption)
    (scans : Scans true text [] true) :
    Scans false (caption ++ "\n\n" ++ code text) [] false := by
  have cut : caption ++ Text.ofString "\n\n" ++ code text =
      caption ++ .char '\n' :: ([] ++ .char '\n' :: code text) := by
    rw [List.append_assoc]
    rfl
  rw [cut]
  exact (Scans.of_isProse isProse).append ((Scans.nil false).append scans.code)

/-- A line that begins with a star is prose. -/
theorem isProse_caption {caption : Text} (whole : Text.IsWhole caption)
    (starred : caption.head? = some (.char '*')) : IsProse caption := by
  obtain ⟨rest, rfl⟩ := List.head?_eq_some_iff.mp starred
  have isProse : IsProse [] := fun _ member => nomatch member
  have captioned := isProse.cons_append (by rfl) (by decide) (by decide) whole
  rwa [List.append_nil] at captioned

theorem scans_exampleBlock (isCode : IsCode text) : Scans false (exampleBlock text) [] false := by
  have isProse : IsProse "**Example**" := isProse_caption (by decide) (by decide)
  exact scans_captioned isProse (.of_isCode isCode)

/-- An entry has the headings of its first block. -/
theorem scans_entry {signatures : List Text} (opening : Scans false heading found false)
    (clear : doc.IsClear) (areCode : ∀ signature ∈ signatures, IsCode signature) :
    Scans false (entry heading doc signatures) found false := by
  have description : Scans false (joinBlocks (given doc.description)) [] false :=
    .joinBlocks_of_nil fun text member => .of_isProse (clear.description text member)
  have signature : Scans false
      (joinBlocks ["**Signature**\n\n" ++ code (joinBlocks signatures)]) [] false := by
    have isProse : IsProse "**Signature**" := isProse_caption (by decide) (by decide)
    exact scans_captioned isProse
      (.joinBlocks_of_nil fun text member => .of_isCode (areCode text member))
  have examples : Scans false (joinBlocks (doc.examples.map exampleBlock)) [] false := by
    refine .joinBlocks_of_nil fun block member => ?_
    obtain ⟨content, given, rfl⟩ := List.mem_map.mp member
    exact scans_exampleBlock (clear.examples content given)
  have since : Scans false
      (joinBlocks ((given doc.since).map fun version : Text => "Added in v" ++ version)) [] false := by
    refine .joinBlocks_of_nil fun block member => ?_
    obtain ⟨version, given, rfl⟩ := List.mem_map.mp member
    have isProse : IsProse (Text.ofString "Added in v" ++ version) :=
      (clear.since version given).cons_append (by rfl) (by decide) (by decide) (by decide)
    exact .of_isProse isProse
  have first : Scans false (joinBlocks [heading]) found false := opening
  have all := (((first.joinBlocks_append description).joinBlocks_append signature).joinBlocks_append
    examples).joinBlocks_append since
  rw [entry]
  simpa only [List.append_nil] using all

/-- A heading of one to three hashes and a title is scanned as it is written. -/
theorem scans_heading {marks : Text} {level : Nat} (least : 1 ≤ level) (most : level ≤ 3)
    (areMarks : marks = Text.copies level (.char '#') ++ [.char ' ']) (clear : doc.IsClear)
    (isLabel : IsLabel label) :
    Scans false (marks ++ title doc label) [⟨level, title doc label⟩] false := by
  have scans := Scans.heading least most (isTitle_title clear isLabel)
  rwa [List.append_cons, ← areMarks] at scans

theorem scans_method {record : Callable} (clear : record.IsClear) (isLabel : IsLabel label) :
    Scans false (method label record) [⟨3, title record.doc label⟩] false :=
  scans_entry (scans_heading (by decide) (by decide) (by decide) clear.doc isLabel) clear.doc
    clear.signatures

/-- The entry for a thing with one signature, under a heading of its own. -/
theorem scans_item {marks : Text} {level : Nat} {record : Item} (least : 1 ≤ level)
    (most : level ≤ 3) (areMarks : marks = Text.copies level (.char '#') ++ [.char ' '])
    (clear : record.IsClear) (isLabel : IsLabel label) :
    Scans false (entry (marks ++ title record.doc label) record.doc [record.signature])
      [⟨level, title record.doc label⟩] false :=
  scans_entry (scans_heading least most areMarks clear.doc isLabel) clear.doc
    (by simpa using clear.signature)

theorem scans_classEntry {record : Class} (clear : record.IsClear) :
    Scans false (classEntry record) (classHeadings record) false := by
  have own : Scans false
      (joinBlocks [entry ("## " ++ title record.doc " (class)") record.doc [record.signature]])
      [⟨2, title record.doc " (class)"⟩] false :=
    scans_entry (scans_heading (by decide) (by decide) (by decide) clear.doc (by decide)) clear.doc
      (by simpa using clear.signature)
  have staticMethods := Scans.joinBlocks_map fun method member =>
    scans_method (clear.staticMethods method member) (show IsLabel " (static method)" by decide)
  have methods := Scans.joinBlocks_map fun method member =>
    scans_method (clear.methods method member) (show IsLabel " (method)" by decide)
  have properties : Scans false (joinBlocks (record.properties.map property))
      (record.properties.flatMap fun property => [⟨3, title property.doc " (property)"⟩]) false :=
    .joinBlocks_map fun property member =>
      scans_item (by decide) (by decide) (by decide) (clear.properties property member) (by decide)
  have all := ((own.joinBlocks_append staticMethods).joinBlocks_append methods).joinBlocks_append
    properties
  simp only [← List.map_eq_flatMap] at all
  exact all

namespace Printable

/-- The entry for a thing has the headings of the thing. -/
theorem scans_text (clear : printable.IsClear) :
    Scans false printable.text printable.headings false := by
  have two : ("## " : Text) = Text.copies 2 (.char '#') ++ [.char ' '] := by decide
  cases printable with
  | classLike record => exact scans_classEntry clear
  | constant record => exact scans_item (by decide) (by decide) two clear (by decide)
  | exported record => exact scans_item (by decide) (by decide) two clear (by decide)
  | function record =>
      exact scans_entry (scans_heading (by decide) (by decide) two clear.doc (by decide)) clear.doc
        clear.signatures
  | interface record => exact scans_item (by decide) (by decide) two clear (by decide)
  | typeAlias record => exact scans_item (by decide) (by decide) two clear (by decide)

theorem isTitle_of_isUnder {category : Text} (clear : printable.IsClear)
    (isUnder : printable.IsUnder category) : category.IsTitle := by
  have docClear : printable.doc.IsClear := by
    cases printable <;> exact clear.doc
  cases isUnder with
  | given chosen nonempty => exact docClear.category category (by simp [given, chosen, nonempty])
  | missing => exact ⟨by decide, by decide, by decide⟩
  | empty => exact ⟨by decide, by decide, by decide⟩

theorem isClear_of_mem_ofModule (clear : module.IsClear) (member : printable ∈ ofModule module) :
    printable.IsClear := by
  simp only [ofModule, List.mem_append, List.mem_map] at member
  rcases member with ((((⟨record, given, rfl⟩ | ⟨record, given, rfl⟩) | ⟨record, given, rfl⟩) |
    ⟨record, given, rfl⟩) | ⟨record, given, rfl⟩) | ⟨record, given, rfl⟩
  · exact clear.classes record given
  · exact clear.constants record given
  · exact clear.exports record given
  · exact clear.functions record given
  · exact clear.interfaces record given
  · exact clear.typeAliases record given

end Printable

/-! ## Groups -/

/-- The section for a group has the headings of the group. -/
theorem Group.scans_text (isTitle : group.category.IsTitle)
    (clear : ∀ printable ∈ group.members, printable.IsClear) :
    Scans false group.text group.headings false := by
  have opening := Scans.heading (Nat.le_refl 1) (by decide) isTitle
  have entries := Scans.joinBlocks_map fun printable member =>
    Printable.scans_text (clear printable member)
  have cut : group.text = Text.copies 1 (.char '#') ++ .char ' ' :: group.category ++
      .char '\n' :: ([] ++ .char '\n' :: joinBlocks (group.members.map Printable.text)) := by
    simp [Group.text, Text.copies, Text.ofString, Text.ofChars]
  rw [cut]
  exact opening.append ((Scans.nil false).append entries)

/-- The headings that are read off a page are those of its groups. -/
theorem IsGrouping.headings_contentOf (grouping : IsGrouping printables groups)
    (clear : ∀ printable ∈ printables, printable.IsClear) :
    Contents.headings (contentOf printables) = groups.flatMap Group.headings := by
  have scans : Scans false (joinBlocks (groups.map Group.text)) (groups.flatMap Group.headings)
      false := by
    refine .joinBlocks_map fun group isGroup => ?_
    have clearMembers : ∀ printable ∈ group.members, printable.IsClear := fun printable member =>
      clear printable (grouping.once.subset (List.mem_flatMap.mpr ⟨group, isGroup, member⟩))
    obtain ⟨printable, member⟩ := List.exists_mem_of_ne_nil _ (grouping.inhabited group isGroup)
    exact Group.scans_text (Printable.isTitle_of_isUnder (clearMembers printable member)
      (grouping.under group isGroup printable member)) clearMembers
  rw [grouping.contentOf_eq]
  exact scans.headings_eq

/-! ## Tables of contents -/

theorem Printable.level_of_mem_headings {heading : Heading}
    (member : heading ∈ printable.headings) : 2 ≤ heading.level := by
  cases printable with
  | classLike record =>
      simp only [Printable.headings, classHeadings, List.mem_append, List.mem_cons,
        List.mem_map] at member
      rcases member with ((rfl | ⟨method, -, rfl⟩) | ⟨method, -, rfl⟩) | ⟨property, -, rfl⟩ <;> simp
  | _ =>
      rw [List.mem_singleton.mp member]

theorem Group.level_of_mem_headings {heading : Heading} (member : heading ∈ group.headings) :
    1 ≤ heading.level := by
  rcases List.mem_cons.mp member with rfl | below
  · exact Nat.le_refl 1
  · obtain ⟨printable, -, shown⟩ := List.mem_flatMap.mp below
    exact Nat.le_of_succ_le (Printable.level_of_mem_headings shown)

/-- The topmost level is that of the categories. -/
theorem top_headings (nonempty : groups ≠ []) :
    Contents.top (groups.flatMap Group.headings) = 1 := by
  have least : ∀ heading ∈ groups.flatMap Group.headings, 1 ≤ heading.level := by
    intro heading member
    obtain ⟨group, -, shown⟩ := List.mem_flatMap.mp member
    exact Group.level_of_mem_headings shown
  obtain ⟨group, rest, rfl⟩ := List.exists_cons_of_ne_nil nonempty
  have shallow : Heading.level ⟨1, group.category⟩ ≤ Contents.deepest := by
    simp [Contents.deepest]
  exact Contents.top_cons shallow fun heading member => least heading (List.mem_cons_of_mem _ member)

/--
Where all names and texts of a module are clear, its table of contents has exactly the headings of
its groups, in their order: a line for each, indented by its level and with an anchor of its title.
-/
theorem contents_list_groups (clear : module.IsClear) :
    (∃ groups, IsGrouping (Printable.ofModule module) groups) ∧
      ∀ groups, IsGrouping (Printable.ofModule module) groups →
        Contents.headings (content module) = groups.flatMap Group.headings ∧
          List.Forall₂ (fun (heading : Heading) line => ∃ count, line =
              Text.copies (2 * (heading.level - 1)) ' ' ++ "- [" ++ heading.title ++ "](#" ++
                Contents.numbered (Contents.slug heading.title) count ++ ")")
            (groups.flatMap Group.headings) (Text.lines (Contents.ofPage (content module))) := by
  refine ⟨exists_isGrouping _, fun groups grouping => ?_⟩
  have headings : Contents.headings (content module) = groups.flatMap Group.headings :=
    grouping.headings_contentOf fun _ member => Printable.isClear_of_mem_ofModule clear member
  refine ⟨headings, ?_⟩
  rw [Contents.lines_ofPage, headings]
  rcases eq_or_ne groups [] with rfl | nonempty
  · exact .nil
  · rw [top_headings nonempty]
    exact Contents.forall₂_lines 1 [] _

/-- A class with a member of each kind, and with texts in which headings and fences are near. -/
def boxClass : Class where
  doc :=
    { name := "Box", description := some "A box\n####  deep\n#none", since := some "1.0.0",
      category := some "model" }
  signature := "export declare class Box<A> \x7b\n  # get\n\x7d"
  staticMethods := [⟨{ name := "of", deprecated := true }, ["of<A>(a: A)"]⟩]
  methods := [⟨{ name := "get", examples := ["# a comment\nget()"] }, ["get(): A"]⟩]
  properties := [⟨{ name := "size" }, "size: number"⟩]

/-- The class stands under its category with all members, and the constant under another one. -/
theorem contents_of_box :
    Contents.headings (content { classes := [boxClass], constants := [plainConstant] }) =
        [⟨1, "model"⟩, ⟨2, "Box (class)"⟩, ⟨3, "~~of~~ (static method)"⟩, ⟨3, "get (method)"⟩,
          ⟨3, "size (property)"⟩, ⟨1, "utils"⟩, ⟨2, "b"⟩] := by
  have clear : Module.IsClear { classes := [boxClass], constants := [plainConstant] } := by
    decide +kernel
  have grouping : IsGrouping
      (Printable.ofModule { classes := [boxClass], constants := [plainConstant] })
      [⟨"model", [.classLike boxClass]⟩, ⟨"utils", [.constant plainConstant]⟩] := by
    constructor
    case once => decide +kernel
    case ascending => decide +kernel
    case inhabited => decide +kernel
    case under =>
      simp only [List.forall_mem_cons]
      exact ⟨⟨.given rfl (by decide), nofun⟩, ⟨.missing rfl, nofun⟩, nofun⟩
    case inOrder => decide +kernel
  rw [((contents_list_groups clear).2 _ grouping).1]
  rfl

end Page

end ApiDocs
