import ApiDocs.Value.Message

/-!
# Settings of a documentation run

The settings say where sources and pages are, how the site looks, which rules
the comments have to keep, which sources are left out, and which options the
type checker gets.  In a message all settings of a run stand on one line, each with its
value as a literal.
-/

namespace ApiDocs

/-- The settings of one run. -/
structure Settings where
  projectName : Text := ""
  projectHomepage : Text := ""
  sourceDir : Text := "src"
  outputDir : Text := "docs"
  theme : Text := "pmarsceill/just-the-docs"
  enableSearch : Bool := true
  enforceDescriptions : Bool := false
  enforceExamples : Bool := false
  enforceVersion : Bool := true
  exclude : List Text := []
  parseOptions : Value.Entries := []
  exampleOptions : Value.Entries := []
  deriving Inhabited

namespace Settings

/-- A list of texts as a literal; a single text keeps a comma behind it. -/
def textsLiteral : List Text → Text
  | [] => "()"
  | [text] => "(" ++ Text.quoted text ++ ",)"
  | texts => "(" ++ Text.joinWith ", " (texts.map Text.quoted) ++ ")"

/-- The settings with their values. -/
def fieldTexts (settings : Settings) : List (Text × Text) :=
  [("project_name", Text.quoted settings.projectName),
    ("project_homepage", Text.quoted settings.projectHomepage),
    ("src_dir", Text.quoted settings.sourceDir),
    ("out_dir", Text.quoted settings.outputDir),
    ("theme", Text.quoted settings.theme),
    ("enable_search", (Value.bool settings.enableSearch).literal),
    ("enforce_descriptions", (Value.bool settings.enforceDescriptions).literal),
    ("enforce_examples", (Value.bool settings.enforceExamples).literal),
    ("enforce_version", (Value.bool settings.enforceVersion).literal),
    ("exclude", textsLiteral settings.exclude),
    ("parse_compiler_options", (Value.map settings.parseOptions).literal),
    ("examples_compiler_options", (Value.map settings.exampleOptions).literal)]

/-- The settings on one line. -/
def text (settings : Settings) : Text :=
  "Settings(" ++
    Text.joinWith ", " (settings.fieldTexts.map fun (name, value) => name ++ "=" ++ value) ++
    ")"

end Settings

end ApiDocs
