import ApiDocs.Example.Checker
import ApiDocs.Proofs.Disk.Removal
import ApiDocs.Proofs.Example.Address
import ApiDocs.Proofs.Example.Import
import ApiDocs.Proofs.Text.Lines

/-!
# Which examples the checker sees

The checker is started on an index, each line of which imports the file of one example from the
folder of the examples.  The name of the file is put into the line as it is, and it is made of
names that the sources declare.  The line imports the file exactly if none of them has a character
that ends the quoted text, the line or the name of the file.
-/

namespace ApiDocs

namespace Path

variable {first second : Text}

/-- The normal form is told from the anchor and the names. -/
theorem normal_congr (sameAnchor : anchorOf first = anchorOf second)
    (sameNames : names first = names second) : normal first = normal second := by
  rw [normal, normal, normalNames, normalNames, sameAnchor, sameNames]

end Path

namespace Example

variable {outputDir name : Text} {modules : List Module} {owner : Owner}

/-! ## Files in the folder of the examples -/

theorem exists_folder_eq (outputDir : Text) : ∃ front, folder outputDir = front ++ "examples" :=
  Text.endsWith_iff.mp (Path.endsWith_join outputDir "examples")

/-- A relative path stands in the folder of the examples behind a slash. -/
theorem join_folder (relative : Path.isAbsolute name = false) :
    Path.join (folder outputDir) name = folder outputDir ++ .char '/' :: name := by
  obtain ⟨front, isFolder⟩ := exists_folder_eq outputDir
  rcases Path.join_eq (folder outputDir) relative with ⟨-, nothing | closed⟩ | ⟨joined, -, -⟩
  · rw [isFolder] at nothing
    cases (List.append_eq_nil_iff.mp nothing).2
  · obtain ⟨other, same⟩ := Path.endsInSlash_iff.mp closed
    have last := congrArg List.getLast? (isFolder.symm.trans same)
    rw [List.getLast?_append_of_ne_nil _ (by decide), List.getLast?_concat] at last
    exact absurd last (by decide)
  · exact joined

/-- A path is a file of the folder exactly if it is no more than a name behind the folder. -/
theorem pieces_join_folder_iff {other : Text} (relative : Path.isAbsolute name = false) :
    Path.pieces (Path.join (folder outputDir) name) = Path.pieces (folder outputDir) ++ [other] ↔
      other = name ∧ Symbol.char '/' ∉ name := by
  rw [join_folder relative, Path.pieces_append_slash, List.append_cancel_left_eq,
    Path.pieces_eq_singleton_iff]

/-- Seen from the folder, a name stands for the same path with the present folder in front. -/
theorem normal_join_folder (whole : Symbol.char '/' ∉ name) :
    Path.normal (Path.join (folder outputDir) ("./" ++ name)) =
      Path.normal (Path.join (folder outputDir) name) := by
  obtain ⟨front, isFolder⟩ := exists_folder_eq outputDir
  have inFolder : Symbol.char 'e' ∈ folder outputDir := by
    rw [isFolder]
    exact List.mem_append_right front (by decide)
  have relative := Path.isAbsolute_of_not_mem whole
  have here : ("./" : Text) ≠ [] := by decide
  have relativeHere : Path.isAbsolute ("./" ++ name) = false := Path.isAbsolute_append here name
  apply Path.normal_congr
  · rw [join_folder relative, join_folder relativeHere,
      Path.anchorOf_append inFolder (by decide), Path.anchorOf_append inFolder (by decide)]
  · rw [Path.names_join relative, Path.names_join relativeHere]
    exact congrArg (Path.names (folder outputDir) ++ ·) (Path.names_append_slash "." name)

/-- A line imports a path from a folder: it quotes the one name of the path behind the folder. -/
structure IsImportOf (folder path name line : Text) : Prop where
  inFolder : Path.pieces path = Path.pieces folder ++ [name]
  written : line = "import './" ++ name ++ "'"
  quotable : HasNoQuote name
  resolves : Path.normal (Path.join folder ("./" ++ name)) = Path.normal path

/-- A line imports a path from a folder. -/
def Imports (folder path line : Text) : Prop :=
  ∃ name, IsImportOf folder path name line

/-- The line of the index for a file, without the line feed. -/
def importOf (file : TextFile) : Text :=
  "import './" ++ Path.baseName file.path ++ "'"

/-! ## Names that can be imported -/

/-- A text that ends neither a quoted text nor a name of a path nor a line. -/
def IsImportable (text : Text) : Prop :=
  ∀ symbol ∈ text, isQuote symbol = false ∧ symbol ≠ '/' ∧ symbol ≠ '\n'

instance (text : Text) : Decidable (IsImportable text) :=
  inferInstanceAs
    (Decidable (∀ symbol ∈ text, isQuote symbol = false ∧ symbol ≠ '/' ∧ symbol ≠ '\n'))

namespace IsImportable

variable {text : Text}

theorem append_iff {first second : Text} :
    IsImportable (first ++ second) ↔ IsImportable first ∧ IsImportable second :=
  List.forall_mem_append

theorem joinWith_iff {separator : Text} (between : IsImportable separator) {list : List Text} :
    IsImportable (Text.joinWith separator list) ↔ ∀ text ∈ list, IsImportable text := by
  constructor
  · intro joined text member symbol inText
    exact joined symbol (Text.mem_joinWith_of_mem member inText)
  · intro each
    induction list with
    | nil => exact fun _ member => nomatch member
    | cons first rest ih =>
        obtain ⟨own, others⟩ := List.forall_mem_cons.mp each
        rcases eq_or_ne rest [] with rfl | nonempty
        · exact own
        · rw [Text.joinWith_cons _ _ nonempty, append_iff, append_iff]
          exact ⟨⟨own, between⟩, ih others⟩

theorem hasNoQuote (importable : IsImportable text) : HasNoQuote text :=
  fun symbol member => (importable symbol member).1

theorem slash_not_mem (importable : IsImportable text) : Symbol.char '/' ∉ text :=
  fun member => (importable _ member).2.1 rfl

theorem feed_not_mem (importable : IsImportable text) : Symbol.char '\n' ∉ text :=
  fun member => (importable _ member).2.2 rfl

theorem of_not_mem (quotable : HasNoQuote text) (noSlash : Symbol.char '/' ∉ text)
    (noFeed : Symbol.char '\n' ∉ text) : IsImportable text := by
  intro symbol member
  refine ⟨quotable symbol member, ?_, ?_⟩
  · rintro rfl
    exact noSlash member
  · rintro rfl
    exact noFeed member

theorem intText (index : Nat) : IsImportable (Number.intText index) := by
  rw [Number.intText_natCast]
  intro symbol member
  have digit := Number.isDigit_of_mem_digitsOf member
  refine ⟨?_, ?_, ?_⟩
  · rw [Bool.eq_false_iff]
    intro quote
    rw [isQuote, Bool.or_eq_true, beq_iff_eq, beq_iff_eq] at quote
    rcases quote with rfl | rfl <;> cases digit
  · rintro rfl
    cases digit
  · rintro rfl
    cases digit

end IsImportable

namespace Owner

/-- The name of the file for one of the examples, where nothing stands for a folder. -/
def fileName (owner : Owner) (index : Nat) : Text :=
  Example.fileName owner.path owner.kind owner.doc.name index

theorem filePath_eq (outputDir : Text) (owner : Owner) (index : Nat) :
    owner.filePath outputDir index = Path.join (folder outputDir) (owner.fileName index) :=
  (owner.path_file outputDir index []).symm

/-- All that is put into the names of the files of an owner can be imported. -/
structure IsImportable (owner : Owner) : Prop where
  path : ∀ part ∈ owner.path, Example.IsImportable part
  kind : Example.IsImportable owner.kind
  name : Example.IsImportable owner.doc.name

theorem isImportable_fileName_iff (owner : Owner) (index : Nat) :
    Example.IsImportable (owner.fileName index) ↔ owner.IsImportable := by
  have dash : Example.IsImportable "-" := by decide
  have ending : Example.IsImportable ".ts" := by decide
  simp only [fileName, Example.fileName, IsImportable.append_iff, IsImportable.joinWith_iff dash,
    IsImportable.intText, dash, ending, and_true]
  constructor
  · rintro ⟨⟨path, kind⟩, name⟩
    exact ⟨path, kind, name⟩
  · rintro ⟨path, kind, name⟩
    exact ⟨⟨path, kind⟩, name⟩

theorem isAbsolute_fileName (owner : Owner) (index : Nat) :
    Path.isAbsolute (owner.fileName index) = Path.isAbsolute owner.stem := by
  rw [← isAbsolute_label, ← Path.isAbsolute_append owner.label_ne_nil
    ("-" ++ Number.intText index ++ ".ts")]
  simp only [fileName, Example.fileName, label, stem, List.append_assoc]

theorem IsImportable.relative (importable : owner.IsImportable) :
    Path.isAbsolute owner.stem = false := by
  apply Path.isAbsolute_of_not_mem
  exact ((IsImportable.joinWith_iff (by decide)).mpr importable.path).slash_not_mem

end Owner

/-! ## The lines of the index -/

theorem importLine_eq (file : TextFile) : importLine file = importOf file ++ [.char '\n'] := by
  have ending : ("'\n" : Text) = "'" ++ [Symbol.char '\n'] := rfl
  rw [importLine, importOf, ending, List.append_assoc]
  simp only [List.append_assoc]

/-- The index has the lines for all files in a row, and an empty line behind them. -/
theorem fileLines_index (files : List TextFile) :
    Text.fileLines (index files) =
      (files.flatMap fun file => Text.fileLines (importOf file)) ++ [[], []] := by
  induction files with
  | nil => rfl
  | cons file files ih =>
      have first : index (file :: files) = importOf file ++ .char '\n' :: index files := by
        rw [index, List.map_cons, List.flatten_cons, importLine_eq, List.append_assoc,
          List.append_assoc]
        rfl
      rw [first, List.flatMap_cons, List.append_assoc, ← ih]
      simp only [Text.fileLines_eq_splitOn]
      exact List.splitOn_append_cons_self (importOf file) (index files)

theorem importOf_eq {file : TextFile} (whole : Symbol.char '/' ∉ name)
    (inFolder : file.path = Path.join (folder outputDir) name) :
    importOf file = "import './" ++ name ++ "'" := by
  rw [importOf, inFolder, Path.baseName, Path.split_join_snd whole]

/-- A file with an importable name is imported by its own line, which is one line. -/
theorem imports_importOf {file : TextFile} (importable : IsImportable name)
    (inFolder : file.path = Path.join (folder outputDir) name) :
    Text.fileLines (importOf file) = [importOf file] ∧
      Imports (folder outputDir) file.path (importOf file) := by
  have whole := importable.slash_not_mem
  have written := importOf_eq whole inFolder
  constructor
  · rw [Text.fileLines_eq_splitOn, written]
    apply List.splitOn_eq_singleton
    simp only [List.mem_append, not_or]
    exact ⟨⟨by decide, importable.feed_not_mem⟩, by decide⟩
  · refine ⟨name, ?_, written, importable.hasNoQuote, ?_⟩
    · rw [inFolder, pieces_join_folder_iff (Path.isAbsolute_of_not_mem whole)]
      exact ⟨rfl, whole⟩
    · rw [inFolder, normal_join_folder whole]

/-- Whatever line imports a relative name, the name can be imported. -/
theorem isImportable_of_imports {line path : Text}
    (imports : Imports (folder outputDir) path line) (noFeed : Symbol.char '\n' ∉ line)
    (relative : Path.isAbsolute name = false)
    (inFolder : path = Path.join (folder outputDir) name) : IsImportable name := by
  obtain ⟨other, imports⟩ := imports
  have isName := imports.inFolder
  rw [inFolder, pieces_join_folder_iff relative] at isName
  obtain ⟨rfl, whole⟩ := isName
  refine .of_not_mem imports.quotable whole fun member => noFeed ?_
  rw [imports.written]
  exact List.mem_append_left _ (List.mem_append_right _ member)

/-- Some line of the index of some files imports a path. -/
def IsReached (files : List TextFile) (folder path : Text) : Prop :=
  ∃ line ∈ Text.fileLines (index files), Imports folder path line

theorem exists_owner_of_mem_harvest {file : TextFile} (member : file ∈ harvest modules outputDir) :
    ∃ owner ∈ owners modules, ∃ number < owner.doc.examples.length,
      file.path = owner.filePath outputDir number := by
  have isPath := List.mem_map_of_mem (f := TextFile.path) member
  rw [map_path_harvest, List.mem_flatMap] at isPath
  obtain ⟨owner, isOwner, isPath⟩ := isPath
  rw [Owner.filePaths_eq, List.mem_map] at isPath
  obtain ⟨number, bound, same⟩ := isPath
  exact ⟨owner, isOwner, number, List.mem_range.mp bound, same.symm⟩

theorem exists_mem_harvest_of_owner (outputDir : Text) (isOwner : owner ∈ owners modules)
    {number : Nat} (bound : number < owner.doc.examples.length) :
    ∃ file ∈ harvest modules outputDir, file.path = owner.filePath outputDir number := by
  have isPath :
      owner.filePath outputDir number ∈ (harvest modules outputDir).map TextFile.path := by
    rw [map_path_harvest, List.mem_flatMap]
    refine ⟨owner, isOwner, ?_⟩
    rw [Owner.filePaths_eq]
    exact List.mem_map_of_mem (List.mem_range.mpr bound)
  obtain ⟨file, member, same⟩ := List.mem_map.mp isPath
  exact ⟨file, member, same⟩

/-- An example of a module with a relative path is reached if and only if its name allows it. -/
theorem isReached_iff (isOwner : owner ∈ owners modules)
    (relative : Path.isAbsolute owner.stem = false) {number : Nat}
    (bound : number < owner.doc.examples.length) :
    IsReached (harvest modules outputDir) (folder outputDir) (owner.filePath outputDir number) ↔
      owner.IsImportable := by
  rw [← owner.isImportable_fileName_iff number]
  constructor
  · rintro ⟨line, isLine, imports⟩
    refine isImportable_of_imports imports (Text.feed_not_mem_of_mem_fileLines isLine) ?_
      (owner.filePath_eq outputDir number)
    rw [Owner.isAbsolute_fileName, relative]
  · intro importable
    obtain ⟨file, member, isPath⟩ := exists_mem_harvest_of_owner outputDir isOwner bound
    obtain ⟨oneLine, imports⟩ :=
      imports_importOf importable (isPath.trans (owner.filePath_eq outputDir number))
    refine ⟨importOf file, ?_, isPath ▸ imports⟩
    rw [fileLines_index, List.mem_append, List.mem_flatMap]
    exact .inl ⟨file, member, oneLine ▸ List.mem_singleton_self _⟩

/-- If all names allow it, the lines of the index import the examples one after the other. -/
theorem exists_lines_of_isImportable
    (importable : ∀ owner ∈ owners modules, owner.HasExamples → owner.IsImportable) :
    ∃ lines, Text.fileLines (index (harvest modules outputDir)) = lines ++ [[], []] ∧
      List.Forall₂ (fun line file => Imports (folder outputDir) file.path line)
        lines (harvest modules outputDir) := by
  have imported : ∀ file ∈ harvest modules outputDir,
      Text.fileLines (importOf file) = [importOf file] ∧
        Imports (folder outputDir) file.path (importOf file) := by
    intro file member
    obtain ⟨owner, isOwner, number, bound, isPath⟩ := exists_owner_of_mem_harvest member
    have hasExamples : owner.HasExamples := List.length_pos_iff.mp (Nat.zero_lt_of_lt bound)
    have nameImportable :=
      (owner.isImportable_fileName_iff number).mpr (importable owner isOwner hasExamples)
    exact imports_importOf nameImportable (isPath.trans (owner.filePath_eq outputDir number))
  refine ⟨(harvest modules outputDir).map importOf, ?_, ?_⟩
  · rw [fileLines_index, ← List.flatMap_singleton' ((harvest modules outputDir).map importOf),
      List.flatMap_map]
    exact congrArg (· ++ [[], []])
      (List.flatMap_congr fun file member => (imported file member).1)
  · rw [List.forall₂_map_left_iff, List.forall₂_same]
    exact fun file member => (imported file member).2

/--
An example of a module with a relative path lies in the folder of the examples and is imported by
a line of the index if and only if neither the path of the module nor the names of its class and of
the thing that is documented have quotes, slashes or line feeds.  If that holds of everything that
has examples, there is one such line for each example, in the order of the files.  The path of an
example of a module with an absolute path does not depend on the folder of the examples.
-/
theorem index_imports_examples (modules : List Module) (outputDir : Text) :
    (∀ owner ∈ owners modules, Path.isAbsolute owner.stem = false →
      ∀ number < owner.doc.examples.length,
        (IsReached (harvest modules outputDir) (folder outputDir)
          (owner.filePath outputDir number) ↔ owner.IsImportable)) ∧
      ((∀ owner ∈ owners modules, owner.HasExamples → owner.IsImportable) →
        ∃ lines, Text.fileLines (index (harvest modules outputDir)) = lines ++ [[], []] ∧
          List.Forall₂ (fun line file => Imports (folder outputDir) file.path line)
            lines (harvest modules outputDir)) ∧
      ∀ owner ∈ owners modules, Path.isAbsolute owner.stem = true →
        ∀ number, owner.filePath outputDir number = owner.fileName number := by
  refine ⟨?_, exists_lines_of_isImportable, ?_⟩
  · intro owner isOwner relative number bound
    exact isReached_iff isOwner relative bound
  · intro owner _ absolute number
    rw [Owner.filePath_eq, Path.join_of_isAbsolute]
    rw [Owner.isAbsolute_fileName, absolute]

/-- A class with a method, which has the given name and an example. -/
def methodModule (path : List Text) (name : Text) : Module :=
  { doc := { name := "index", since := some "1.0.0" }
    path
    classes :=
      [{ doc := { name := "A", since := some "1.0.0" }
         signature := "export declare class A"
         methods :=
          [{ doc := { name, since := some "1.0.0", examples := ["call()"] }
             signatures := [name ++ "()"] }] }] }

/-- The owner of the example of the method. -/
def methodOwner (path : List Text) (name : Text) : Owner :=
  { path
    kind := "A-method"
    doc := { name, since := some "1.0.0", examples := ["call()"] } }

theorem owners_methodModule (path : List Text) (name : Text) :
    owners [methodModule path name] =
      [{ path, kind := "module", doc := (methodModule path name).doc },
        { path, kind := "class", doc := { name := "A", since := some "1.0.0" } },
        methodOwner path name] := rfl

theorem methodOwner_mem_owners (path : List Text) (name : Text) :
    methodOwner path name ∈ owners [methodModule path name] := by
  rw [owners_methodModule]
  simp

theorem methodModule_examples_imported :
    IsReached (harvest [methodModule ["index.ts"] "a"] "docs") (folder "docs")
        "docs/examples/index.ts-A-method-a-0.ts" ∧
      ¬IsReached (harvest [methodModule ["index.ts"] "'a'"] "docs") (folder "docs")
        "docs/examples/index.ts-A-method-'a'-0.ts" ∧
      (∃ lines,
        Text.fileLines (index (harvest [methodModule ["index.ts"] "a"] "docs")) =
            lines ++ [[], []] ∧
          List.Forall₂ (fun line file => Imports (folder "docs") file.path line)
            lines (harvest [methodModule ["index.ts"] "a"] "docs")) ∧
      (methodOwner ["/", "index.ts"] "a").filePath "docs" 0 = "/-index.ts-A-method-a-0.ts" := by
  have plain := index_imports_examples [methodModule ["index.ts"] "a"] "docs"
  have quoted := index_imports_examples [methodModule ["index.ts"] "'a'"] "docs"
  have beside := index_imports_examples [methodModule ["/", "index.ts"] "a"] "docs"
  have importable : (methodOwner ["index.ts"] "a").IsImportable := ⟨by decide, by decide, by decide⟩
  refine ⟨?_, ?_, plain.2.1 ?_, ?_⟩
  · exact (plain.1 _ (methodOwner_mem_owners _ _) (by decide) 0 (by decide)).mpr importable
  · intro reached
    have isImportable :=
      (quoted.1 _ (methodOwner_mem_owners _ _) (by decide) 0 (by decide)).mp reached
    exact absurd isImportable.name (by decide)
  · intro owner member hasExamples
    rw [owners_methodModule] at member
    simp only [List.mem_cons, List.not_mem_nil, or_false] at member
    rcases member with rfl | rfl | rfl
    · exact absurd rfl hasExamples
    · exact absurd rfl hasExamples
    · exact importable
  · exact beside.2.2 _ (methodOwner_mem_owners _ _) (by decide) 0

def stringNameFile : TextFile :=
  { path := "src/index.ts"
    content := Text.joinWith "\n"
      ["/** @since 1.0.0 */", "import * as fs from 'fs'", "",
        "/** @since 1.0.0 */", "export class A \x7b",
        "  /**", "   * @since 1.0.0", "   * @example", "   * call()", "   */",
        "  'a'() \x7b\x7d", "\x7d", ""] }

def stringNameTree : Tree :=
  { root := .mk "program" true 0 152 none
      [.mk "comment" true 0 19 none [], .mk "import_statement" true 20 44 none [],
        .mk "comment" true 46 65 none [],
        .mk "export_statement" true 66 151 none
          [.mk "export" false 66 72 none [],
            .mk "class_declaration" true 73 151 (some "declaration")
              [.mk "class" false 73 78 none [], .mk "type_identifier" true 79 80 (some "name") [],
                .mk "class_body" true 81 151 (some "body")
                  [.mk "\x7b" false 81 82 none [], .mk "comment" true 85 138 none [],
                    .mk "method_definition" true 141 149 none
                      [.mk "string" true 141 144 (some "name") [],
                        .mk "formal_parameters" true 144 146 (some "parameters") [],
                        .mk "statement_block" true 147 149 (some "body") []],
                    .mk "\x7d" false 150 151 none []]]]] }

def stringNameMethod : MethodDeclaration :=
  { name := "'a'"
    implementation :=
      { name := some "'a'", text := "'a'() \x7b\x7d", start := 141, bodyStart := some 147
        jsdocs := ["/**\n   * @since 1.0.0\n   * @example\n   * call()\n   */"] } }

/-- What is read of the file. -/
def stringNameSource : SourceFile :=
  { path := "src/index.ts"
    leadingComments := ["/** @since 1.0.0 */"]
    classes :=
      [{ name := some "A", exported := true, jsdocs := ["/** @since 1.0.0 */"]
         methods := [stringNameMethod] }] }

theorem classes_stringNameSource :
    Extract.classes stringNameSource (Module.contextOf {} stringNameFile) =
      .accepted (methodModule ["src", "index.ts"] "'a'").classes := by
  have each :
      Checked.each (Extract.classRecord (Module.contextOf {} stringNameFile))
          (Extract.visibleClasses stringNameSource) =
        .accepted (methodModule ["src", "index.ts"] "'a'").classes := by
    decide +kernel
  rw [Extract.classes, each, Checked.map_accepted, Extract.sortByName,
    List.mergeSort_of_pairwise (by decide +kernel)]

theorem ofSource_stringNameSource :
    Module.ofSource stringNameSource (Module.contextOf {} stringNameFile) =
      .ok (.accepted (methodModule ["src", "index.ts"] "'a'")) := by
  have records :
      Module.records stringNameSource (Module.contextOf {} stringNameFile) =
        .accepted { methodModule ["src", "index.ts"] "'a'" with doc := {} } := by
    rw [Module.records, classes_stringNameSource]
    decide +kernel
  exact Module.ofSource_eq_accepted (documentation_of_since rfl rfl) records rfl

/--
The name of a method may be a string literal.  The quotes in it are in the name of the file for the
example as well, so the quoted text in the line for that file ends too soon.
-/
theorem stringName_example_not_imported :
    ∃ modules,
      Module.ofFiles (fun _ => stringNameTree) {} [stringNameFile] = .ok (.accepted modules) ∧
        (harvest modules "docs").map TextFile.path =
          ["docs/examples/src-index.ts-A-method-'a'-0.ts"] ∧
        Text.fileLines (index (harvest modules "docs")) =
          ["import './src-index.ts-A-method-'a'-0.ts'", "", ""] ∧
        ¬IsReached (harvest modules "docs") (folder "docs")
          "docs/examples/src-index.ts-A-method-'a'-0.ts" := by
  refine ⟨[methodModule ["src", "index.ts"] "'a'"], ?_, by decide +kernel, by decide +kernel, ?_⟩
  · exact Module.ofFiles_singleton _ _ (by decide +kernel) ofSource_stringNameSource rfl
  · intro reached
    have named : IsReached (harvest [methodModule ["src", "index.ts"] "'a'"] "docs") (folder "docs")
        ((methodOwner ["src", "index.ts"] "'a'").filePath "docs" 0) := reached
    have importable := (isReached_iff (methodOwner_mem_owners _ _) (by decide) (by decide)).mp named
    exact absurd importable.name (by decide)

end Example

end ApiDocs
