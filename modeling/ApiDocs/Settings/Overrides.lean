import ApiDocs.Failure
import ApiDocs.Settings.Basic

/-!
# Settings from a settings file

A settings file is a map from the names of settings to their values.  It is
accepted only if every name is known and every value is of the kind that its
setting asks for; otherwise every wrong entry is reported, in the order of the
file, and no setting changes.  The report shows the wrong values, which fails for
integers with too many digits.
-/

namespace ApiDocs

/-- The settings that a settings file can change. -/
inductive Setting where
  | projectHomepage
  | sourceDir
  | outputDir
  | theme
  | enableSearch
  | enforceDescriptions
  | enforceExamples
  | enforceVersion
  | exclude
  | parseOptions
  | exampleOptions
  deriving DecidableEq, Repr, Inhabited

namespace Setting

/-- All settings that a settings file can change. -/
def all : List Setting :=
  [.projectHomepage, .sourceDir, .outputDir, .theme, .enableSearch, .enforceDescriptions,
    .enforceExamples, .enforceVersion, .exclude, .parseOptions, .exampleOptions]

/-- The name of a setting in the file. -/
def name : Setting → Text
  | .projectHomepage => "projectHomepage"
  | .sourceDir => "srcDir"
  | .outputDir => "outDir"
  | .theme => "theme"
  | .enableSearch => "enableSearch"
  | .enforceDescriptions => "enforceDescriptions"
  | .enforceExamples => "enforceExamples"
  | .enforceVersion => "enforceVersion"
  | .exclude => "exclude"
  | .parseOptions => "parseCompilerOptions"
  | .exampleOptions => "examplesCompilerOptions"

/-- The setting with a name. -/
def named? (name : Text) : Option Setting :=
  all.find? fun setting => setting.name == name

/-- The kind of value that a setting asks for. -/
def kind : Setting → ValueKind
  | .projectHomepage | .sourceDir | .outputDir | .theme => .text
  | .enableSearch | .enforceDescriptions | .enforceExamples | .enforceVersion => .truth
  | .exclude => .texts
  | .parseOptions | .exampleOptions => .map

/-- The texts of a list in which every item is a text. -/
def texts? : List Value → Option (List Text)
  | [] => some []
  | .text item :: rest => (texts? rest).map (item :: ·)
  | _ :: _ => none

/-- The settings after setting one of them; none if the value is of the wrong kind. -/
def set? (settings : Settings) : Setting → Value → Option Settings
  | .projectHomepage, .text value => some { settings with projectHomepage := value }
  | .sourceDir, .text value => some { settings with sourceDir := value }
  | .outputDir, .text value => some { settings with outputDir := value }
  | .theme, .text value => some { settings with theme := value }
  | .enableSearch, .bool value => some { settings with enableSearch := value }
  | .enforceDescriptions, .bool value => some { settings with enforceDescriptions := value }
  | .enforceExamples, .bool value => some { settings with enforceExamples := value }
  | .enforceVersion, .bool value => some { settings with enforceVersion := value }
  | .exclude, .list items => (texts? items).map fun value => { settings with exclude := value }
  | .parseOptions, .map value => some { settings with parseOptions := value }
  | .exampleOptions, .map value => some { settings with exampleOptions := value }
  | _, _ => none

end Setting

namespace Settings

/-- The settings after one entry of a settings file, or what is wrong with the entry. -/
def setEntry (settings : Settings) (key value : Value) : Except EntryProblem Settings :=
  match key with
  | .text name =>
    match Setting.named? name with
    | none => .error (.unknown key)
    | some setting =>
      match setting.set? settings value with
      | none => .error (.mistyped name setting.kind value)
      | some changed => .ok changed
  | _ => .error (.unknown key)

/-- The wrong entries of a settings file. -/
def entryProblems (entries : Value.Entries) : List EntryProblem :=
  entries.filterMap fun (key, value) =>
    match ({} : Settings).setEntry key value with
    | .error problem => some problem
    | .ok _ => none

/-- The settings after the entries that are not wrong. -/
def setEntries (settings : Settings) (entries : Value.Entries) : Settings :=
  entries.foldl
    (fun settings (key, value) =>
      match settings.setEntry key value with
      | .error _ => settings
      | .ok changed => changed)
    settings

/-- The settings after a settings file: all of its entries, or none if one of them is wrong. -/
def override (settings : Settings) (entries : Value.Entries) : Except Failure Settings :=
  match entryProblems entries with
  | [] => .ok (settings.setEntries entries)
  | problems =>
    if problems.all EntryProblem.isShowable then .error (.settings (.entries problems))
    else .error (.fault .unshowable)

end Settings

end ApiDocs
