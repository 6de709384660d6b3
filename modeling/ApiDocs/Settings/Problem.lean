import ApiDocs.Disk.Cause
import ApiDocs.Json.Failure
import ApiDocs.Value.Message

/-!
# What can be wrong with the settings of a project

The settings come from the package description and from one settings file.  This
module names everything for which they are refused, and the sentence for each.
-/

namespace ApiDocs

/-- The kinds of value that a setting can ask for. -/
inductive ValueKind where
  | text
  | truth
  | texts
  | map
  deriving DecidableEq, Repr, Inhabited

/-- The words for a kind of value. -/
def ValueKind.words : ValueKind → Text
  | .text => "string"
  | .truth => "boolean"
  | .texts => "list of strings"
  | .map => "mapping"

/-- What is wrong with one entry of a settings file. -/
inductive EntryProblem where
  | unknown (key : Value)
  | mistyped (key : Text) (expected : ValueKind) (value : Value)
  deriving Inhabited

/-- The line for a wrong entry. -/
def EntryProblem.line : EntryProblem → Text
  | .unknown key => "- " ++ key.nameText ++ ": unknown setting"
  | .mistyped key expected value =>
    "- " ++ key ++ ": expected " ++ expected.words ++ ", got " ++ value.literal

/-- Whether the line for a wrong entry can be shown. -/
def EntryProblem.isShowable : EntryProblem → Bool
  | .unknown key => key.isShowable
  | .mistyped _ _ value => value.isShowable

/-- Why the settings are refused. -/
inductive SettingsProblem where
  | packageUnreadable (root : Text) (error : DiskError)
  | packageMalformed (failure : Json.Failure)
  | packageNotObject
  | packageWithoutName
  | packageWithoutHomepage
  | fileUnreadable (name : Text) (error : DiskError)
  | fileMalformed (name : Text) (detail : Text)
  | fileNotMap (name : Text)
  | entries (problems : List EntryProblem)
  deriving Inhabited

/-- The sentence for refused settings. -/
def SettingsProblem.message : SettingsProblem → Text
  | .packageUnreadable root error =>
    "Unable to read package.json in " ++ root ++ ": " ++ error.message
  | .packageMalformed failure => "Unable to parse package.json: " ++ failure.message
  | .packageNotObject => "package.json must contain an object at the root"
  | .packageWithoutName => "Missing name in package.json"
  | .packageWithoutHomepage => "Missing homepage in package.json"
  | .fileUnreadable name error => "Unable to read " ++ name ++ ": " ++ error.message
  | .fileMalformed name detail => "Failed to parse " ++ name ++ ": " ++ detail
  | .fileNotMap name => name ++ " must contain a mapping at the root"
  | .entries problems =>
    "Invalid configuration file detected:\n" ++
      Text.joinWith "\n" (problems.map EntryProblem.line)

end ApiDocs
