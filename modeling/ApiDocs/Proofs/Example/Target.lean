import ApiDocs.Proofs.Example.Index
import ApiDocs.Proofs.Glob.Levels
import ApiDocs.Proofs.Run.Verify

/-!
# Where the imports of examples lead

An example is checked in the folder in which its file stands.  Its imports of the project are
rewritten as paths that climb twice and go down to `src`.  If no name in the path of the file has a
slash, the file stands in the folder of the examples, which stands in the folder of the site: then
the imports lead to the folder `src` beside the folder of the site, wherever the sources stand.

`Rewrites` follows the scan that rewrites the imports of a text, whatever its quotes look like.
-/

namespace ApiDocs

open Disk (GoesDown follow target)

namespace Example

variable {project text rest replacement path part : Text} {quote : Symbol}

/-! ## Imports that are rewritten -/

/-- A specifier that names a part of a project. -/
structure ProjectImport (project : Text) where
  specifier : Text
  part : Text
  names : Names project specifier part

/-- One text comes from another by importing parts of the project from the sources. -/
inductive Rewrites (project : Text) : Text → List (ProjectImport project) → Text → Prop where
  | nil : Rewrites project [] [] []
  | keep {rest next : Text} {imports : List (ProjectImport project)} (symbol : Symbol) :
      Rewrites project rest imports next →
      Rewrites project (symbol :: rest) imports (symbol :: next)
  | sources {rest next : Text} {imports : List (ProjectImport project)} {quote : Symbol}
      (own : ProjectImport project) : isQuote quote = true → Rewrites project rest imports next →
      Rewrites project ("from " ++ quote :: (own.specifier ++ quote :: rest)) (own :: imports)
        ("from " ++ quote :: (sourcesOf own.part ++ quote :: next))

/-- What is read as a part ends in front of the quote that closes it. -/
theorem exists_of_subPath? (found : subPath? quote text = some (path, rest)) :
    ∃ tail, HasNoQuote tail ∧ partBehind? tail = some path ∧ text = tail ++ quote :: rest := by
  unfold subPath? at found
  split at found
  · rename_i behind
    obtain ⟨others, closed, same⟩ := Option.map_eq_some_iff.mp found
    cases same
    have plain : HasNoQuote (behind.takeWhile fun symbol => !isQuote symbol) := by
      intro symbol member
      simpa using List.mem_takeWhile_imp member
    have cut := List.prefix_iff_eq_append.mp
      (List.takeWhile_prefix (l := behind) fun symbol => !isQuote symbol)
    rw [Text.afterPrefix?_eq_some_iff.mp closed] at cut
    exact ⟨'/' :: _, List.forall_mem_cons.mpr ⟨rfl, plain⟩, rfl, congrArg (List.cons _) cut.symm⟩
  · obtain ⟨others, closed, same⟩ := Option.map_eq_some_iff.mp found
    cases same
    have plain : HasNoQuote [] := fun _ none => nomatch none
    have isText := Text.afterPrefix?_eq_some_iff.mp closed
    exact ⟨[], plain, rfl, isText⟩

/-- The same with the folder of the compiled project in front. -/
theorem exists_of_librarySubPath? (closes : isQuote quote = true)
    (found : librarySubPath? quote text = some (path, rest)) :
    ∃ tail, libraryPart? tail = some path ∧ text = tail ++ quote :: rest := by
  have read {tail : Text} (plain : HasNoQuote tail) (isText : text = tail ++ quote :: rest) :
      libraryPart? tail = some path := by
    rw [isText, librarySubPath?_append_quote plain closes] at found
    obtain ⟨other, isPart, same⟩ := Option.map_eq_some_iff.mp found
    cases same
    exact isPart
  have inLibraryOrNot := found
  unfold librarySubPath? at inLibraryOrNot
  split at inLibraryOrNot
  · rename_i pair inLibrary
    cases inLibraryOrNot
    obtain ⟨behind, isBehind, part⟩ := Option.bind_eq_some_iff.mp inLibrary
    obtain ⟨tail, plain, -, rfl⟩ := exists_of_subPath? part
    have plainTail : HasNoQuote ("/lib" ++ tail) :=
      HasNoQuote.append_iff.mpr ⟨by decide, plain⟩
    have isText := (Text.afterPrefix?_eq_some_iff.mp isBehind).trans
      (List.append_assoc _ _ _).symm
    exact ⟨"/lib" ++ tail, read plainTail isText, isText⟩
  · obtain ⟨tail, plain, -, isText⟩ := exists_of_subPath? inLibraryOrNot
    exact ⟨tail, read plain isText, isText⟩

/-- An import that is replaced names a part of the project, in quotes behind the word `from`. -/
theorem exists_of_sourceImport? (found : sourceImport? project text = some (replacement, rest)) :
    ∃ (own : ProjectImport project) (quote : Symbol), isQuote quote = true ∧
      text = "from " ++ quote :: (own.specifier ++ quote :: rest) ∧
      replacement = "from " ++ quote :: sourcesOf own.part ++ [quote] := by
  unfold sourceImport? at found
  split at found
  · rename_i quote others start
    split at found
    · rename_i opens
      obtain ⟨⟨path, last⟩, isPath, same⟩ := Option.map_eq_some_iff.mp found
      cases same
      obtain ⟨behind, isBehind, inProject⟩ := Option.bind_eq_some_iff.mp isPath
      obtain ⟨tail, isPart, rfl⟩ := exists_of_librarySubPath? opens inProject
      have names : Names project (project ++ tail) path := by
        rw [← bind_libraryPart?_eq_some_iff, Text.afterPrefix?_append]
        exact isPart
      refine ⟨⟨project ++ tail, path, names⟩, quote, opens, ?_, rfl⟩
      rw [Text.afterPrefix?_eq_some_iff.mp start, Text.afterPrefix?_eq_some_iff.mp isBehind,
        List.append_assoc]
    · cases found
  · cases found

/-- Importing the sources rewrites some imports of the project, and keeps everything else. -/
theorem exists_rewrites (source project : Text) :
    ∃ imports, Rewrites project source imports (importSources source project) := by
  rw [importSources]
  fun_induction Text.substitute (sourceImport? project) source with
  | case1 => exact ⟨[], .nil⟩
  | case2 symbol kept replacement rest found shorter ih =>
      obtain ⟨imports, rewrites⟩ := ih
      obtain ⟨own, quote, opens, isText, rfl⟩ := exists_of_sourceImport? found
      refine ⟨own :: imports, ?_⟩
      rw [isText]
      simpa using Rewrites.sources own opens rewrites
  | case3 symbol kept replacement rest found long ih =>
      obtain ⟨imports, rewrites⟩ := ih
      exact ⟨imports, .keep symbol rewrites⟩
  | case4 symbol kept found ih =>
      obtain ⟨imports, rewrites⟩ := ih
      exact ⟨imports, .keep symbol rewrites⟩

/-! ## Where they lead -/

theorem isAbsolute_sourcesOf (part : Text) : Path.isAbsolute (sourcesOf part) = false := by
  rw [sourcesOf]
  split <;> rfl

theorem names_sourcesOf (part : Text) :
    Path.names (sourcesOf part) = [("..": Text), "..", "src"] ++ Path.names part := by
  have folder : Path.names "../../src" = [("..": Text), "..", "src"] := by decide
  rw [sourcesOf]
  split
  · rename_i empty
    rw [List.isEmpty_iff.mp empty, Path.names_nil, List.append_nil, folder]
  · rw [← folder]
    exact Path.names_append_slash "../../src" part

theorem target_folder (here : Location) (output : Text) :
    target here (folder output) = target here output ++ [("examples" : Text)] := by
  have down : follow (target here output) ["examples"] =
      target here output ++ [("examples" : Text)] := by
    apply Disk.follow_of_isName
    decide +kernel
  rw [folder, Disk.target_join_relative here output rfl]
  exact down

/-- A path that climbs twice and goes down to `src` leads there from every folder. -/
theorem target_sourcesOf (here : Location) (path part : Text) :
    target here (Path.join path (sourcesOf part)) =
      follow ((target here path).dropLast.dropLast ++ [("src" : Text)]) (Path.names part) := by
  have source (place : Location) : follow place ["src"] = place ++ [("src" : Text)] := by
    apply Disk.follow_of_isName
    decide +kernel
  have climbs (place : Location) : follow place ["..", ".."] = place.dropLast.dropLast := by
    have shown : Disk.Name.stored ".." = ".." := by decide +kernel
    rw [follow, List.map_cons, List.map_cons, List.map_nil, shown, List.foldl_cons,
      List.foldl_cons, List.foldl_nil, Disk.advance_up, Disk.advance_up]
  rw [Disk.target_join_relative here _ (isAbsolute_sourcesOf part), names_sourcesOf,
    Disk.follow_append]
  congr 1
  exact (Disk.follow_append _ ["..", ".."] ["src"]).trans (by rw [climbs, source])

/-- A file with a name of one piece stands in the folder of the examples itself. -/
theorem parentText_join_folder {outputDir name : Text} (whole : Symbol.char '/' ∉ name) :
    Path.parentText (Path.join (folder outputDir) name) = folder outputDir := by
  obtain ⟨front, isFolder⟩ := exists_folder_eq outputDir
  have kept : Path.withoutEndSlashes (folder outputDir) = folder outputDir := by
    have cut : folder outputDir = (front ++ "example") ++ [Symbol.char 's'] := by
      rw [isFolder, List.append_assoc]
      rfl
    rw [cut]
    exact Text.dropEndWhile_concat (by decide)
  have nonempty : (folder outputDir).isEmpty = false := by
    rw [isFolder, List.isEmpty_eq_false_iff]
    exact List.append_ne_nil_of_right_ne_nil front (by decide)
  rw [join_folder (Path.isAbsolute_of_not_mem whole), Path.parentText, Path.split_append _ whole,
    kept, nonempty]
  rfl

namespace Owner

variable {owner : Owner}

/-- None of the names in the paths of the files of an owner has a slash. -/
structure IsWhole (owner : Owner) : Prop where
  path : ∀ part ∈ owner.path, Symbol.char '/' ∉ part
  kind : Symbol.char '/' ∉ owner.kind
  name : Symbol.char '/' ∉ owner.doc.name

theorem IsWhole.slash_not_mem_fileName (whole : owner.IsWhole) (number : Nat) :
    Symbol.char '/' ∉ owner.fileName number := by
  have stem : Symbol.char '/' ∉ Text.joinWith "-" owner.path :=
    Text.not_mem_joinWith (by decide) whole.path
  have digits := (IsImportable.intText number).slash_not_mem
  have dash : Symbol.char '/' ∉ ("-" : Text) := by decide
  have ending : Symbol.char '/' ∉ (".ts" : Text) := by decide
  simp only [fileName, Example.fileName, List.mem_append, not_or]
  exact ⟨⟨⟨⟨⟨⟨⟨stem, dash⟩, whole.kind⟩, dash⟩, whole.name⟩, dash⟩, digits⟩, ending⟩

theorem IsWhole.parentText_filePath (whole : owner.IsWhole) (outputDir : Text) (number : Nat) :
    Path.parentText (owner.filePath outputDir number) = folder outputDir := by
  rw [filePath_eq, parentText_join_folder (whole.slash_not_mem_fileName number)]

end Owner

/-- The folder to which an import of the whole project leads from a file. -/
def sourcesFrom (here : Location) (path : Text) : Location :=
  (target here (Path.parentText path)).dropLast.dropLast ++ [("src" : Text)]

/-- The folder `src` beside the folder of the site. -/
def sourcesBeside (here : Location) (settings : Settings) : Location :=
  (target here settings.outputDir).dropLast ++ [("src" : Text)]

theorem Owner.IsWhole.sourcesFrom_eq {owner : Owner} (whole : owner.IsWhole) (here : Location)
    (settings : Settings) (number : Nat) :
    sourcesFrom here (owner.filePath settings.outputDir number) = sourcesBeside here settings := by
  rw [sourcesFrom, whole.parentText_filePath, target_folder, List.dropLast_concat, sourcesBeside]

/--
Where a rewritten import leads, as seen from the folder in which the file of its example stands.
-/
structure LeadsBeside (here : Location) (settings : Settings) (owner : Owner) (path : Text)
    (own : ProjectImport project) : Prop where
  place : target here (Path.join (Path.parentText path) (sourcesOf own.part)) =
    follow (sourcesFrom here path) (Path.names own.part)
  /-- If no name has a slash, that is beside the folder of the site. -/
  beside : owner.IsWhole → sourcesFrom here path = sourcesBeside here settings
  /-- Then it leads to the part of the sources exactly if they stand in that folder. -/
  configured : owner.IsWhole → (∀ name ∈ Path.names own.part, GoesDown name) →
    (target here (Path.join (Path.parentText path) (sourcesOf own.part)) =
        follow (target here settings.sourceDir) (Path.names own.part) ↔
      target here settings.sourceDir = sourcesBeside here settings)

theorem leadsBeside (here : Location) (settings : Settings) (owner : Owner) (number : Nat)
    (own : ProjectImport project) :
    LeadsBeside here settings owner (owner.filePath settings.outputDir number) own where
  place := target_sourcesOf here _ own.part
  beside := fun whole => whole.sourcesFrom_eq here settings number
  configured := fun whole down => by
    rw [target_sourcesOf, Disk.follow_of_goesDown down, Disk.follow_of_goesDown down,
      List.append_left_inj, ← sourcesFrom, whole.sourcesFrom_eq]
    exact eq_comm

/--
The examples of a project are the harvested ones with some imports of the project rewritten, and
with an import for assertions if they need one.  Each rewritten import leads to the folder `src`
two folders above the one in which the file of the example stands, and on to the part of the project
that it names.  If no name in the path of the file has a slash, that folder is the one beside the
folder of the site.
-/
theorem examples_import_sources_beside_site (project : Project) (here : Location) :
    List.Forall₂
      (fun harvested prepared : TextFile =>
        prepared.path = harvested.path ∧
        ∃ owner ∈ owners project.modules, ∃ number < owner.doc.examples.length,
          harvested.path = owner.filePath project.settings.outputDir number ∧
        ∃ imports content,
          Rewrites project.settings.projectName harvested.content imports content ∧
          prepared.content = importAssert content ∧
          ∀ own ∈ imports, LeadsBeside here project.settings owner prepared.path own)
      (harvest project.modules project.settings.outputDir) project.examples := by
  rw [Project.examples, prepare, List.forall₂_map_right_iff, List.forall₂_same]
  intro file member
  obtain ⟨owner, isOwner, number, bound, isPath⟩ := exists_owner_of_mem_harvest member
  obtain ⟨imports, rewrites⟩ := exists_rewrites file.content project.settings.projectName
  refine ⟨rfl, owner, isOwner, number, bound, isPath, imports, _, rewrites, rfl, fun own _ => ?_⟩
  rw [isPath]
  exact leadsBeside here project.settings owner number own

/-- A project with a function that imports the project in its example. -/
def importingProject : Project where
  root := { anchor := .root, names := ["p"] }
  configured := { projectName := "demo" }
  modules :=
    [{ doc := { name := "index", since := some "1.0.0" }
       path := ["src", "index.ts"]
       functions :=
        [{ doc :=
            { name := "f", since := some "1.0.0"
              examples := ["import \x7b a \x7d from 'demo/a'"] }
           signatures := [] }] }]

def importingPath : Text := "/p/docs/examples/src-index.ts-function-f-0.ts"

/-- The file for the example of the function, with the given content. -/
def importingFile (content : Text) : TextFile :=
  { path := importingPath, content, overwrite := true }

/-- Where nothing is imported from the project, the text stays as it is. -/
theorem Rewrites.eq_of_nil {imports : List (ProjectImport project)}
    (rewrites : Rewrites project text imports rest) (nothing : imports = []) : rest = text := by
  induction rewrites with
  | nil => rfl
  | keep symbol _ ih => rw [ih nothing]
  | sources => cases nothing

/-- The function imports a part of the project from the folder beside the folder of the site. -/
theorem importingProject_imports_sources :
    ∃ owner ∈ owners importingProject.modules, owner.IsWhole ∧
      importingPath = owner.filePath importingProject.settings.outputDir 0 ∧
      importingProject.examples.map TextFile.path = [importingPath] ∧
      ∃ imports : List (ProjectImport "demo"), imports ≠ [] ∧
        ∀ own ∈ imports,
          target [] (Path.join (Path.parentText importingPath) (sourcesOf own.part)) =
            follow ["p", "src"] (Path.names own.part) := by
  have harvested : harvest importingProject.modules importingProject.settings.outputDir =
      [importingFile "import \x7b a \x7d from 'demo/a'\n"] := by
    decide +kernel
  have prepared : importingProject.examples =
      [importingFile "import \x7b a \x7d from '../../src/a'\n"] := by
    decide +kernel
  have all := examples_import_sources_beside_site importingProject []
  rw [harvested, prepared, List.forall₂_cons] at all
  simp only [importingFile] at all
  obtain ⟨-, owner, isOwner, number, bound, isPath, imports, content, rewrites, same, leads⟩ := all.1
  have each : ∀ owner ∈ owners importingProject.modules, owner.doc.examples.length ≤ 1 ∧
      (∀ part ∈ owner.path, Symbol.char '/' ∉ part) ∧ Symbol.char '/' ∉ owner.kind ∧
        Symbol.char '/' ∉ owner.doc.name := by
    decide +kernel
  obtain ⟨few, path, kind, name⟩ := each owner isOwner
  have whole : owner.IsWhole := ⟨path, kind, name⟩
  obtain rfl : number = 0 := by omega
  refine ⟨owner, isOwner, whole, isPath, by rw [prepared]; rfl, imports, ?_, ?_⟩
  · intro nothing
    rw [rewrites.eq_of_nil nothing] at same
    exact absurd same (by decide +kernel)
  · intro own member
    have place := (leads own member).place
    have beside : sourcesBeside [] importingProject.settings = [("p" : Text), "src"] := by
      decide +kernel
    rwa [(leads own member).beside whole, beside] at place

/-- A project with its sources in `lib`, and an example that imports it. -/
def importingWorld : World :=
  Run.demoWorld "lib" "docs"
    [([("p" : Text), "lib"], .folder),
      ([("p" : Text), "lib", "index.ts"],
        .file (Text.Utf8.encode
          "/**\n * @example\n * import \x7b a \x7d from 'demo'\n */\nimport 'x'\n"))]

/-- An environment that finds the example. -/
def importingSource : Environment :=
  { parse := fun _ =>
      { hasError := false
        root := .mk "program" true 0 59 none
          [.mk "comment" true 0 47 none [], .mk "import_statement" true 48 58 none []] } }

/-- An example of a project with its sources in `lib` imports `src` all the same. -/
theorem example_of_library_imports_src :
    ∃ project after,
      Run.ending (Run.documented importingSource ".") importingWorld = (.ok project, after) ∧
      (harvest project.modules project.settings.outputDir).map TextFile.content =
        [("import \x7b a \x7d from 'demo'\n" : Text)] ∧
      project.examples.map TextFile.content =
        [("import \x7b a \x7d from '../../src'\n" : Text)] ∧
      target importingWorld.here (Path.join (folder project.settings.outputDir) "../../src") =
        ["p", "src"] ∧
      target importingWorld.here project.settings.sourceDir = ["p", "lib"] := by
  have reading : Run.succeeds (fun project _ => decide (
      (harvest project.modules project.settings.outputDir).map TextFile.content =
        [("import \x7b a \x7d from 'demo'\n" : Text)] ∧
      project.examples.map TextFile.content =
        [("import \x7b a \x7d from '../../src'\n" : Text)] ∧
      target importingWorld.here (Path.join (folder project.settings.outputDir) "../../src") =
        ["p", "src"] ∧
      target importingWorld.here project.settings.sourceDir = ["p", "lib"]))
      (Run.documented importingSource ".") importingWorld = true := by
    decide +kernel
  obtain ⟨project, after, read, known⟩ := Run.exists_of_succeeds reading
  exact ⟨project, after, read, of_decide_eq_true known⟩

end Example

end ApiDocs
