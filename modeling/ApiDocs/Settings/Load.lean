import ApiDocs.Disk.Text
import ApiDocs.Settings.Overrides
import ApiDocs.Settings.Package
import ApiDocs.Yaml.Document

/-!
# Loading the settings of a project

The settings of a project are the defaults, then the name and homepage of its
package description, then the entries of its settings file.  There may be a
settings file in YAML or one in JSON; if both are there, the one in YAML counts.
-/

namespace ApiDocs

variable {links : Bool}

/-- The name of the package description. -/
def Package.fileName : Text := "package.json"

/-- Reads the package description in a folder. -/
def Package.load (disk : Disk links) (here : Location) (root : CleanPath) :
    Except Failure Package :=
  match disk.readText here (root.append Package.fileName).text with
  | .error (.disk (.notAPath fault)) => .error (.fault (.disk (.notAPath fault)))
  | .error (.disk error) => .error (.settings (.packageUnreadable root.text error))
  | .error (.undecodable failure) => .error (.fault (.undecodable failure))
  | .ok text => Package.read text

/-- The formats of a settings file. -/
inductive SettingsFile where
  | yaml
  | json
  deriving DecidableEq, Repr, Inhabited

namespace SettingsFile

/-- The name of the settings file in a format. -/
def name : SettingsFile → Text
  | .yaml => "tsdocgen.yml"
  | .json => "tsdocgen.json"

/-- The settings file in a folder, if there is one. -/
def find? (disk : Disk links) (here : Location) (root : CleanPath) : Option SettingsFile :=
  [yaml, json].find? fun file => disk.hasFile here (root.append file.name).text

/-- Reads a document in the format of the file. -/
def document (file : SettingsFile) (text : Text) : Except Failure Value :=
  match file with
  | .yaml =>
    match Yaml.load text with
    | .ok value => .ok value
    | .error .malformed =>
      .error (.settings (.fileMalformed file.name (scalarText .malformed)))
    | .error failure => .error (.fault (.scalar failure))
  | .json =>
    match Json.read text with
    | .ok value => .ok value
    | .error (.malformed problem index line column) =>
      let failure := Json.Failure.malformed problem index line column
      .error (.settings (.fileMalformed file.name failure.message))
    | .error failure => .error (.fault (.document failure))

/-- The entries of a settings file; a file without a value has none. -/
def entries (file : SettingsFile) (text : Text) : Except Failure Value.Entries :=
  if Text.isBlankText text then .ok []
  else
    match file.document text with
    | .error failure => .error failure
    | .ok .null => .ok []
    | .ok (.map entries) => .ok entries
    | .ok _ => .error (.settings (.fileNotMap file.name))

/-- Reads the settings file in a folder. -/
def load (disk : Disk links) (here : Location) (root : CleanPath) (file : SettingsFile) :
    Except Failure Value.Entries :=
  match disk.readText here (root.append file.name).text with
  | .error (.disk (.notAPath fault)) => .error (.fault (.disk (.notAPath fault)))
  | .error (.disk error) => .error (.settings (.fileUnreadable file.name error))
  | .error (.undecodable failure) => .error (.fault (.undecodable failure))
  | .ok text => file.entries text

end SettingsFile

namespace Settings

/-- The settings before the settings file. -/
def ofPackage (package : Package) : Settings :=
  { projectName := package.name, projectHomepage := package.homepage }

/-- The settings of the project in a folder. -/
def load (disk : Disk links) (here : Location) (root : CleanPath) (package : Package) :
    Except Failure Settings :=
  match SettingsFile.find? disk here root with
  | none => .ok (ofPackage package)
  | some file =>
    match file.load disk here root with
    | .error failure => .error failure
    | .ok entries => (ofPackage package).override entries

end Settings

end ApiDocs
