import ApiDocs.Settings.Basic
import ApiDocs.Text.Blank
import ApiDocs.Text.Lines
import ApiDocs.Text.Lowercase
import ApiDocs.Text.Search

/-!
# The configuration of the site

A new configuration is written from the settings.  In an existing one only the lines
for the theme and for the search, and the link to the project's repository, are
brought up to date; every other line stays as it is.
-/

namespace ApiDocs.Site

/-- The two lines of a link. -/
def linkLines (label homepage : Text) : Text × Text :=
  ("  '" ++ label ++ "':", "    - '" ++ homepage ++ "'")

/-- The label of a link to the project's repository. -/
def repositoryLabel (settings : Settings) : Text :=
  settings.projectName ++ " on GitHub"

/-- Whether the homepage of the project is its repository. -/
def homepageIsRepository (settings : Settings) : Bool :=
  Text.occursIn "github" (Text.lower settings.projectHomepage)

/-- The link to the homepage of the project. -/
def link (settings : Settings) : Text :=
  let label := if homepageIsRepository settings then repositoryLabel settings else "Homepage"
  let (first, second) := linkLines label settings.projectHomepage
  first ++ "\n" ++ second

/-- The line for the theme. -/
def themeLine (settings : Settings) : Text :=
  "remote_theme: " ++ settings.theme

/-- The line for the search. -/
def searchLine (settings : Settings) : Text :=
  "search_enabled: " ++ (if settings.enableSearch then "true" else "false")

/-- A new configuration. -/
def config (settings : Settings) : Text :=
  themeLine settings ++ "\n\n# Enable or disable the site search\n" ++ searchLine settings ++
    "\n\n# Aux links for the upper right navigation\naux_links:\n" ++ link settings ++ "\n"

/-- Replaces every line that begins in the given way. -/
def replaceLines (beginning replacement : Text) (text : Text) : Text :=
  Text.unlines ((Text.fileLines text).map fun line =>
    if Text.startsWith line beginning then replacement else line)

/-- Whether a line is the first line of a link to a repository. -/
def isRepositoryLabel (line : Text) : Bool :=
  match Text.afterPrefix? "  '" line with
  | none => false
  | some rest => rest.dropWhile (fun c => !Text.isBlank c) == " on GitHub':"

/-- What follows the last quote of the second line of a link. -/
def afterLink? (line : Text) : Option Text :=
  match Text.afterPrefix? "    - '" line with
  | none => none
  | some rest =>
    let backwards : Text := rest.reverse.takeWhile (· != '\x27')
    if backwards.length < rest.length then some backwards.reverse else none

/-- Replaces every link to a repository. -/
def replaceLinks (first second : Text) : List Text → List Text
  | label :: target :: rest =>
    match isRepositoryLabel label, afterLink? target with
    | true, some after => first :: (second ++ after) :: replaceLinks first second rest
    | _, _ => label :: replaceLinks first second (target :: rest)
  | [label] => [label]
  | [] => []

/-- An existing configuration brought up to date. -/
def updateConfig (existing : Text) (settings : Settings) : Text :=
  let themed := replaceLines "remote_theme:" (themeLine settings) existing
  let searched := replaceLines "search_enabled:" (searchLine settings) themed
  let (first, second) := linkLines (repositoryLabel settings) settings.projectHomepage
  Text.unlines (replaceLinks first second (Text.fileLines searched))

end ApiDocs.Site
