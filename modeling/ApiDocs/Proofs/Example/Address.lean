import Mathlib.Data.List.Nodup
import ApiDocs.Example.Harvest
import ApiDocs.Proofs.Module.Paths
import ApiDocs.Proofs.Path.Names

/-!
# Which examples share a file

The file of an example is named after its owner: the path of the module, a word for
the kind and the name, all joined with dashes, and then the number of the example.

Owners that have examples need different places, and nothing more is needed: the
numbers never get in the way.  Joining with dashes is what can go wrong.  Two owners
have the same place exactly if their paths, kinds and names have the same pieces
between dashes; if there are no further dashes, that means the same path, the same
kind and the same name.
-/

namespace ApiDocs

namespace Path

/-- What stands behind a path does not change where the path begins. -/
theorem join_append (first : Text) {second : Text} (nonempty : second ≠ [])
    (rest : Text) : join first (second ++ rest) = join first second ++ rest := by
  simp only [join, isAbsolute_append nonempty]
  split_ifs <;> simp

theorem join_inj_of_isAbsolute_eq {first left right : Text}
    (same : isAbsolute left = isAbsolute right) :
    join first left = join first right ↔ left = right := by
  simp only [join, same]
  split_ifs <;> simp

end Path

namespace Example

/-- A documented thing of a module, which may have examples. -/
structure Owner where
  path : List Text
  kind : Text
  doc : Doc
  deriving DecidableEq, Repr

/-- The documented things of some modules whose examples are checked. -/
def owners (modules : List Module) : List Owner :=
  modules.flatMap fun module =>
    (documented module).map fun entry =>
      { path := module.path, kind := entry.1, doc := entry.2 }

namespace Owner

def HasExamples (owner : Owner) : Prop :=
  owner.doc.examples ≠ []

def stem (owner : Owner) : Text :=
  Text.joinWith "-" owner.path

/-- What the files of all examples of an owner begin with. -/
def label (owner : Owner) : Text :=
  owner.stem ++ "-" ++ owner.kind ++ "-" ++ owner.doc.name

/-- The place for the files of an owner: its label in the folder of the examples. -/
def place (outputDir : Text) (owner : Owner) : Text :=
  Path.join (folder outputDir) owner.label

/-- The path of the file for one of the examples. -/
def filePath (outputDir : Text) (owner : Owner) (index : Nat) : Text :=
  owner.place outputDir ++ "-" ++ Number.intText index ++ ".ts"

/-- Two owners share a file if both have examples and the same place. -/
def Collides (outputDir : Text) (first second : Owner) : Prop :=
  first.HasExamples ∧ second.HasExamples ∧
    first.place outputDir = second.place outputDir

/-- The pieces between the dashes of a label. -/
def pieces (owner : Owner) : List Text :=
  owner.stem.splitOn (.char '-') ++ owner.kind.splitOn (.char '-') ++
    owner.doc.name.splitOn (.char '-')

theorem label_ne_nil (owner : Owner) : owner.label ≠ [] := by
  simp [label, Text.ofString, Text.ofChars]

theorem path_file (outputDir : Text) (owner : Owner) (index : Nat) (content : Text) :
    (file outputDir owner.path owner.kind owner.doc.name index content).path =
      owner.filePath outputDir index := by
  rw [filePath, place, List.append_assoc, List.append_assoc,
    ← Path.join_append _ owner.label_ne_nil]
  simp only [file, fileName, label, stem, List.append_assoc]

theorem filePath_inj {outputDir : Text} {first second : Owner} {left right : Nat} :
    first.filePath outputDir left = second.filePath outputDir right ↔
      first.place outputDir = second.place outputDir ∧ left = right := by
  rw [filePath, filePath, List.append_left_inj, Number.dashed_number_inj]

/-- The paths of the files of an owner. -/
def filePaths (outputDir : Text) (owner : Owner) : List Text :=
  (filesOf outputDir owner.path owner.kind owner.doc).map TextFile.path

theorem filePaths_eq (outputDir : Text) (owner : Owner) :
    owner.filePaths outputDir =
      (List.range owner.doc.examples.length).map (owner.filePath outputDir) := by
  apply List.ext_getElem
  · simp [filePaths, filesOf]
  · intro index _ _
    simp [filePaths, filesOf, path_file]

theorem nodup_filePaths (outputDir : Text) (owner : Owner) :
    (owner.filePaths outputDir).Nodup := by
  rw [filePaths_eq]
  exact List.nodup_range.map fun _ _ same => (filePath_inj.mp same).2

/-- Owners that do not collide have no file in common, and others have the first one. -/
theorem disjoint_filePaths_iff (outputDir : Text) (first second : Owner) :
    List.Disjoint (first.filePaths outputDir) (second.filePaths outputDir) ↔
      ¬first.Collides outputDir second := by
  rw [filePaths_eq, filePaths_eq]
  constructor
  · rintro disjoint ⟨firstHas, secondHas, samePlace⟩
    have firstFile : first.filePath outputDir 0 ∈
        (List.range first.doc.examples.length).map (first.filePath outputDir) :=
      List.mem_map_of_mem (List.mem_range.mpr (List.length_pos_iff.mpr firstHas))
    have secondFile : second.filePath outputDir 0 ∈
        (List.range second.doc.examples.length).map (second.filePath outputDir) :=
      List.mem_map_of_mem (List.mem_range.mpr (List.length_pos_iff.mpr secondHas))
    rw [filePath_inj.mpr ⟨samePlace, rfl⟩] at firstFile
    exact disjoint firstFile secondFile
  · intro apart path inFirst inSecond
    obtain ⟨left, leftBound, rfl⟩ := List.mem_map.mp inFirst
    obtain ⟨right, rightBound, same⟩ := List.mem_map.mp inSecond
    rw [List.mem_range] at leftBound rightBound
    apply apart
    refine ⟨?_, ?_, (filePath_inj.mp same).1.symm⟩
    · exact List.length_pos_iff.mp (Nat.zero_lt_of_lt leftBound)
    · exact List.length_pos_iff.mp (Nat.zero_lt_of_lt rightBound)

end Owner

theorem map_path_harvest (modules : List Module) (outputDir : Text) :
    (harvest modules outputDir).map TextFile.path =
      (owners modules).flatMap (Owner.filePaths outputDir) := by
  simp only [harvest, owners, List.map_flatMap, List.flatMap_assoc, List.flatMap_map]
  rfl

/-- Harvested files have different paths exactly if no two owners collide. -/
theorem nodup_harvest_iff (modules : List Module) (outputDir : Text) :
    ((harvest modules outputDir).map TextFile.path).Nodup ↔
      (owners modules).Pairwise fun first second => ¬first.Collides outputDir second := by
  rw [map_path_harvest, List.nodup_flatMap]
  constructor
  · rintro ⟨_, disjoint⟩
    exact disjoint.imp fun apart => (Owner.disjoint_filePaths_iff outputDir _ _).mp apart
  · intro apart
    refine ⟨fun owner _ => owner.nodup_filePaths outputDir, ?_⟩
    exact apart.imp fun noCollision =>
      (Owner.disjoint_filePaths_iff outputDir _ _).mpr noCollision

/-! ## When two owners have the same place -/

namespace Owner

theorem splitOn_label (owner : Owner) : owner.label.splitOn (.char '-') = owner.pieces := by
  rw [pieces, ← Text.splitOn_append_separator, ← Text.splitOn_append_separator]
  rfl

theorem label_eq_iff (first second : Owner) :
    first.label = second.label ↔ first.pieces = second.pieces := by
  rw [← splitOn_label, ← splitOn_label]
  exact (Text.splitOn_injective (.char '-')).eq_iff.symm

theorem isAbsolute_label (owner : Owner) :
    Path.isAbsolute owner.label = Path.isAbsolute owner.stem := by
  rw [label, List.append_assoc, List.append_assoc, List.append_assoc]
  cases owner.stem with
  | nil => rfl
  | cons symbol others => exact Path.isAbsolute_append (List.cons_ne_nil _ _) _

/-- Owners in modules of one root have one place exactly if their labels have the same pieces. -/
theorem place_eq_iff (outputDir : Text) {first second : Owner}
    (sameRoot : Path.isAbsolute first.stem = Path.isAbsolute second.stem) :
    first.place outputDir = second.place outputDir ↔ first.pieces = second.pieces := by
  rw [← label_eq_iff]
  apply Path.join_inj_of_isAbsolute_eq
  rw [isAbsolute_label, isAbsolute_label, sameRoot]

/--
An owner is plain if its module has a relative path and no dash stands in a part of
that path, in the name of its class or in its own name.
-/
structure IsPlain (owner : Owner) : Prop where
  located : owner.path ≠ []
  relative : Path.isAbsolute owner.stem = false
  pathParts : ∀ part ∈ owner.path, Symbol.char '-' ∉ part
  /-- The kind of a member is the name of its class, a dash and a word. -/
  kind : owner.kind.count (Symbol.char '-') ≤ 1
  name : Symbol.char '-' ∉ owner.doc.name

end Owner

/-- The words for the kinds of things that are not members of a class. -/
def ownWords : List Text :=
  ["module", "class", "interface", "typealias", "constant", "function"]

/-- The words for the kinds of members of a class. -/
def memberWords : List Text :=
  ["method", "staticmethod"]

theorem kind_of_mem_ofClass {record : Class} {entry : Text × Doc}
    (listed : entry ∈ ofClass record) :
    entry.1 ∈ ownWords ∨ ∃ word ∈ memberWords, entry.1 = record.doc.name ++ "-" ++ word := by
  simp only [ofClass, List.mem_cons, List.mem_append, List.mem_map] at listed
  rcases listed with rfl | ⟨method, _, rfl⟩ | ⟨method, _, rfl⟩
  · left
    simp [ownWords]
  · right
    refine ⟨"method", by decide, ?_⟩
    rw [List.append_assoc]
    rfl
  · right
    refine ⟨"staticmethod", by decide, ?_⟩
    rw [List.append_assoc]
    rfl

/-- The kind of a documented thing is a word, or the name of a class and a word. -/
theorem kind_of_mem_documented {module : Module} {entry : Text × Doc}
    (listed : entry ∈ documented module) :
    entry.1 ∈ ownWords ∨
      ∃ className, ∃ word ∈ memberWords, entry.1 = className ++ "-" ++ word := by
  simp only [documented, List.mem_cons, List.mem_append, List.mem_map,
    List.mem_flatMap] at listed
  rcases listed with rfl | (((⟨record, _, inClass⟩ | own) | own) | own) | own
  · left
    simp [ownWords]
  · exact (kind_of_mem_ofClass inClass).imp_right fun named => ⟨record.doc.name, named⟩
  all_goals
    obtain ⟨record, _, rfl⟩ := own
    left
    simp [ownWords]

theorem kind_of_mem_owners {modules : List Module} {owner : Owner}
    (member : owner ∈ owners modules) :
    owner.kind ∈ ownWords ∨
      ∃ className, ∃ word ∈ memberWords, owner.kind = className ++ "-" ++ word := by
  obtain ⟨module, _, inModule⟩ := List.mem_flatMap.mp member
  obtain ⟨entry, listed, rfl⟩ := List.mem_map.mp inModule
  exact kind_of_mem_documented listed

namespace Owner

/-- The kind of a plain owner has one piece, or the name of a class and one piece. -/
theorem IsPlain.splitOn_kind {modules : List Module} {owner : Owner} (plain : owner.IsPlain)
    (member : owner ∈ owners modules) :
    (∃ word ∈ ownWords, owner.kind.splitOn (.char '-') = [word]) ∨
      ∃ className, ∃ word ∈ memberWords,
        owner.kind.splitOn (.char '-') = [className, word] := by
  have whole : ∀ word ∈ ownWords ++ memberWords, Symbol.char '-' ∉ word := by decide
  rcases kind_of_mem_owners member with isOwn | ⟨className, word, isMember, same⟩
  · left
    refine ⟨owner.kind, isOwn, ?_⟩
    exact List.splitOn_eq_singleton (whole owner.kind (List.mem_append_left _ isOwn))
  · right
    refine ⟨className, word, isMember, ?_⟩
    have classPart : Symbol.char '-' ∉ className := by
      have atMostOne := plain.kind
      rw [same, List.count_append, List.count_append,
        show (("-" : Text).count (Symbol.char '-')) = 1 by decide] at atMostOne
      rw [← List.count_eq_zero]
      omega
    rw [same]
    calc
      (className ++ "-" ++ word).splitOn (.char '-') =
          className.splitOn (.char '-') ++ word.splitOn (.char '-') :=
        Text.splitOn_append_separator (.char '-') className word
      _ = [className, word] := by
        rw [List.splitOn_eq_singleton classPart,
          List.splitOn_eq_singleton (whole word (List.mem_append_right _ isMember))]
        rfl

theorem IsPlain.pieces_eq {owner : Owner} (plain : owner.IsPlain) :
    owner.pieces = owner.path ++ owner.kind.splitOn (.char '-') ++ [owner.doc.name] := by
  have path : owner.stem.splitOn (.char '-') = owner.path :=
    Text.splitOn_joinWith_of_not_mem (.char '-') plain.located plain.pathParts
  rw [pieces, path, List.splitOn_eq_singleton plain.name]

/-- Plain owners have the same pieces only if they have the same path, kind and name. -/
theorem IsPlain.pieces_eq_iff {modules : List Module} {first second : Owner}
    (firstPlain : first.IsPlain) (firstMember : first ∈ owners modules)
    (secondPlain : second.IsPlain) (secondMember : second ∈ owners modules) :
    first.pieces = second.pieces ↔
      first.path = second.path ∧ first.kind = second.kind ∧
        first.doc.name = second.doc.name := by
  constructor
  · intro same
    rw [firstPlain.pieces_eq, secondPlain.pieces_eq] at same
    obtain ⟨front, names⟩ := List.append_inj' same rfl
    have words : ∀ word ∈ ownWords, word ∉ memberWords := by decide
    -- The last piece of a kind tells whether the owner is a member, and so how many there are.
    have sameLength :
        (first.kind.splitOn (.char '-')).length =
          (second.kind.splitOn (.char '-')).length := by
      have lastPieces := congrArg List.getLast? front
      rcases firstPlain.splitOn_kind firstMember with
        ⟨left, leftOwn, leftPieces⟩ | ⟨leftClass, left, leftMember, leftPieces⟩ <;>
      rcases secondPlain.splitOn_kind secondMember with
        ⟨right, rightOwn, rightPieces⟩ | ⟨rightClass, right, rightMember, rightPieces⟩ <;>
      rw [leftPieces, rightPieces] at lastPieces ⊢
      · rfl
      · obtain rfl : left = right := by simpa using lastPieces
        exact absurd rightMember (words left leftOwn)
      · obtain rfl : left = right := by simpa using lastPieces
        exact absurd leftMember (words left rightOwn)
      · rfl
    obtain ⟨paths, kinds⟩ := List.append_inj' front sameLength
    exact ⟨paths, Text.splitOn_injective _ kinds, List.head_eq_of_cons_eq names⟩
  · rintro ⟨paths, kinds, names⟩
    rw [firstPlain.pieces_eq, secondPlain.pieces_eq, paths, kinds, names]

/-- Plain owners have one place exactly if they have the same path, kind and name. -/
theorem IsPlain.place_eq_iff {modules : List Module} (outputDir : Text) {first second : Owner}
    (firstPlain : first.IsPlain) (firstMember : first ∈ owners modules)
    (secondPlain : second.IsPlain) (secondMember : second ∈ owners modules) :
    first.place outputDir = second.place outputDir ↔
      first.path = second.path ∧ first.kind = second.kind ∧
        first.doc.name = second.doc.name := by
  have sameRoot : Path.isAbsolute first.stem = Path.isAbsolute second.stem := by
    rw [firstPlain.relative, secondPlain.relative]
  rw [Owner.place_eq_iff outputDir sameRoot]
  exact firstPlain.pieces_eq_iff firstMember secondPlain secondMember

end Owner

/--
Harvested files have different paths exactly if no two owners with examples have one
place.  Owners of modules with a common root have one place exactly if their labels
have the same pieces; plain owners, if they have the same path, kind and name.
-/
theorem harvest_paths_distinct_iff (modules : List Module) (outputDir : Text) :
    (((harvest modules outputDir).map TextFile.path).Nodup ↔
        (owners modules).Pairwise fun first second => ¬first.Collides outputDir second) ∧
      (∀ first second : Owner,
        Path.isAbsolute first.stem = Path.isAbsolute second.stem →
          (first.place outputDir = second.place outputDir ↔ first.pieces = second.pieces)) ∧
      ∀ first ∈ owners modules, ∀ second ∈ owners modules,
        first.IsPlain → second.IsPlain →
          (first.place outputDir = second.place outputDir ↔
            first.path = second.path ∧ first.kind = second.kind ∧
              first.doc.name = second.doc.name) := by
  refine ⟨nodup_harvest_iff modules outputDir, ?_, ?_⟩
  · intro first second sameRoot
    exact Owner.place_eq_iff outputDir sameRoot
  · intro first firstMember second secondMember firstPlain secondPlain
    exact firstPlain.place_eq_iff outputDir firstMember secondPlain secondMember

/-! ## Two interfaces of one name -/

/-- A file that declares an interface in two parts, each with an example. -/
def mergedFile : TextFile :=
  { path := "src/index.ts"
    content := Text.joinWith "\n"
      ["/** @since 1.0.0 */", "import * as fs from 'fs'", "",
        "/**", " * @since 1.0.0", " * @example", " * first", " */",
        "export interface A \x7b a: 1 \x7d", "",
        "/**", " * @since 1.0.0", " * @example", " * second", " */",
        "export interface A \x7b b: 2 \x7d", ""] }

/-- The node of a part of the interface that begins at the given byte. -/
def partNode (start : Nat) : Node :=
  .mk "export_statement" true start (start + 27) none
    [.mk "export" false start (start + 6) none [],
      .mk "interface_declaration" true (start + 7) (start + 27) (some "declaration")
        [.mk "interface" false (start + 7) (start + 16) none [],
          .mk "type_identifier" true (start + 17) (start + 18) (some "name") [],
          .mk "interface_body" true (start + 19) (start + 27) (some "body") []]]

def mergedTree : Tree :=
  { root := .mk "program" true 0 194 none
      [.mk "comment" true 0 19 none [], .mk "import_statement" true 20 44 none [],
        .mk "comment" true 46 90 none [], partNode 91,
        .mk "comment" true 120 165 none [], partNode 166] }

/-- What is read of the file. -/
def mergedSource : SourceFile :=
  { path := "src/index.ts"
    leadingComments := ["/** @since 1.0.0 */"]
    interfaces :=
      [{ name := "A", text := "export interface A \x7b a: 1 \x7d", exported := true
         jsdocs := ["/**\n * @since 1.0.0\n * @example\n * first\n */"] },
        { name := "A", text := "export interface A \x7b b: 2 \x7d", exported := true
          jsdocs := ["/**\n * @since 1.0.0\n * @example\n * second\n */"] }] }

def mergedRecords : List Item :=
  [{ doc := { name := "A", since := some "1.0.0", examples := ["first"] }
     signature := "export interface A \x7b a: 1 \x7d" },
    { doc := { name := "A", since := some "1.0.0", examples := ["second"] }
      signature := "export interface A \x7b b: 2 \x7d" }]

def mergedModule : Module :=
  { doc := { name := "index", since := some "1.0.0" }
    path := ["src", "index.ts"]
    interfaces := mergedRecords }

/-- The owner of the example in one of the parts. -/
def mergedOwner (content : Text) : Owner :=
  { path := mergedModule.path
    kind := "interface"
    doc := { name := "A", since := some "1.0.0", examples := [content] } }

theorem isPlain_mergedOwner (content : Text) : (mergedOwner content).IsPlain where
  located := by simp [mergedOwner, mergedModule]
  relative := by
    show Path.isAbsolute (Text.joinWith "-" mergedModule.path) = false
    decide
  pathParts := by
    show ∀ part ∈ mergedModule.path, Symbol.char '-' ∉ part
    decide
  kind := by
    show ("interface" : Text).count (Symbol.char '-') ≤ 1
    decide
  name := by
    show Symbol.char '-' ∉ ("A" : Text)
    decide

theorem mergedOwners_share_place :
    mergedOwner "first" ∈ owners [mergedModule] ∧
      mergedOwner "second" ∈ owners [mergedModule] ∧
      (mergedOwner "first").IsPlain ∧ (mergedOwner "second").IsPlain ∧
      (mergedOwner "first").place "docs" = (mergedOwner "second").place "docs" := by
  have first : mergedOwner "first" ∈ owners [mergedModule] := by decide +kernel
  have second : mergedOwner "second" ∈ owners [mergedModule] := by decide +kernel
  refine ⟨first, second, isPlain_mergedOwner _, isPlain_mergedOwner _, ?_⟩
  have samePlace := (harvest_paths_distinct_iff [mergedModule] "docs").2.2 _ first _ second
    (isPlain_mergedOwner _) (isPlain_mergedOwner _)
  exact samePlace.mpr ⟨rfl, rfl, rfl⟩

theorem interfaces_mergedSource :
    Extract.interfaces mergedSource (Module.contextOf {} mergedFile) =
      .accepted mergedRecords := by
  have each :
      Checked.each (Extract.typeRecord (Module.contextOf {} mergedFile))
          (Extract.visibleTypes mergedSource.interfaces) = .accepted mergedRecords := by
    decide +kernel
  rw [Extract.interfaces, each, Checked.map_accepted, Extract.sortByName,
    List.mergeSort_of_pairwise (by decide +kernel)]

/-- A file `src/index.ts` whose first comment gives nothing but a version. -/
theorem documentation_of_since {source : SourceFile} {file : TextFile}
    (leading : source.leadingComments = ["/** @since 1.0.0 */"])
    (isIndex : file.path = "src/index.ts") :
    Extract.documentation source (Module.contextOf {} file) =
      .ok (.accepted { since := some "1.0.0" }) := by
  have checked :
      Policy.check "index" (Module.pathOf "src/index.ts") (Comment.read "/** @since 1.0.0 */")
          true {} =
        .accepted { since := some "1.0.0" } := by
    decide +kernel
  rw [Extract.documentation, leading, Module.contextOf, isIndex]
  exact congrArg Except.ok checked

theorem ofSource_mergedSource :
    Module.ofSource mergedSource (Module.contextOf {} mergedFile) =
      .ok (.accepted mergedModule) := by
  have records :
      Module.records mergedSource (Module.contextOf {} mergedFile) =
        .accepted { path := Module.pathOf mergedFile.path, interfaces := mergedRecords } := by
    rw [Module.records, interfaces_mergedSource]
    decide +kernel
  exact Module.ofSource_eq_accepted (documentation_of_since rfl rfl) records rfl

/-- The files of a project may differ and the files of their examples still collide. -/
theorem mergedFile_examples_collide :
    ([mergedFile].map TextFile.path).Nodup ∧
      ∃ modules,
        Module.ofFiles (fun _ => mergedTree) {} [mergedFile] = .ok (.accepted modules) ∧
          ¬((harvest modules "docs").map TextFile.path).Nodup := by
  refine ⟨by simp, [mergedModule], ?_, by decide +kernel⟩
  exact Module.ofFiles_singleton _ _ (by decide +kernel) ofSource_mergedSource rfl

end Example

end ApiDocs
