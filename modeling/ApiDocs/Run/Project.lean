import ApiDocs.Example.Import
import ApiDocs.Module.Assemble
import ApiDocs.Run.Examples
import ApiDocs.Settings.Load

/-!
# Documenting a project

Both ways to run the program read the sources of a project, check their documentation
and check their examples.  A check ends there; a build goes on to write the site.  The
first stage that fails ends the run.
-/

namespace ApiDocs.Run

variable {links : Bool}

/-- The part of the program that runs the stages. -/
def mainPart : Text := "orchestrator"

/--
Goes on from the names so far, the last one first, to the next name.  A fault is found in
the path as it is then, from its beginning to that name.
-/
def nextName (anchor : Path.Anchor) (before : List Text) (name : Text) :
    Except PathFault (List Text) :=
  let names := Path.climb anchor before name
  match Disk.pathFault? (CleanPath.mk anchor names.reverse).text with
  | none => .ok names
  | some fault => .error fault

/--
The first link on the way of names from the root: the names in front of it, its target and
the names behind it.  The names that were taken already are given with the last one first.
-/
def firstLinkName? (disk : Disk links) (before : List Text) :
    List Text → Option (List Text × Text × List Text)
  | [] => none
  | name :: rest =>
    let names := Path.climb .root before name
    match disk.linkAt? (names.reverse.map Disk.Name.stored) with
    | none => firstLinkName? disk names rest
    | some target => some (names.tail.reverse, target, rest)

/-- A path that leads where the given one leads, without links on its way. -/
def realPath (disk : Disk links) (hereText : Text) : Nat → Text → Option Text
  | 0, path =>
    match firstLinkName? disk [] (Path.names (Path.join hereText path)) with
    | none => some path
    | some _ => none
  | budget + 1, path =>
    match firstLinkName? disk [] (Path.names (Path.join hereText path)) with
    | none => some path
    | some (before, target, rest) =>
      let above := if Path.isAbsolute target then [] else before
      realPath disk hereText budget
        ("/" ++ Text.joinWith "/" (above ++ Path.names target ++ rest))

/-- The folder of a project as an absolute path without `.` and `..`, and without links. -/
def projectRoot (path : Text) : RunOn links CleanPath := do
  let world ← get
  let anchor := if Path.isAbsolute path then .root else .relative
  match (Path.names path).foldlM (nextName anchor) [] with
  | .ok _ =>
    match realPath world.disk world.hereText Disk.linkLimit path with
    | some path =>
      return { anchor := .root, names := Path.normalNames (Path.absolute world.hereText path) }
    | none => throw (.fault (.disk (.refused .tooManyLinks path)))
  | .error fault => throw (.fault (.disk (.notAPath fault)))

/-- The settings of a project, with its folders as absolute paths. -/
def loadSettings (root : CleanPath) : RunOn links Settings := do
  let world ← get
  let package ← ofExcept (Package.load world.disk world.here root)
  let settings ← ofExcept (Settings.load world.disk world.here root package)
  log .debug mainPart ("Using settings " ++ settings.text)
  return { settings with
    sourceDir := (root.append settings.sourceDir).text
    outputDir := (root.append settings.outputDir).text }

/-- Reads one source; its path is given relative to the project. -/
def readSource (root : CleanPath) (path : Text) : RunOn links TextFile := do
  let content ← readText path
  let world ← get
  return { path := Path.relative world.hereText path root.text, content }

/-- Reads the sources of a project. -/
def readSources (environment : Environment) (root : CleanPath) (settings : Settings) :
    RunOn links (List TextFile) := do
  log .info mainPart "Reading sources..."
  let paths ← search (Path.join (Path.join settings.sourceDir "**") "*.ts") settings.exclude
  log .debug mainPart
    ("Found " ++ Number.intText paths.length ++ " source files under " ++ settings.sourceDir)
  forEach environment.reading (readSource root) paths

/-- Logs that a file is parsed, and whether a part of it could not be. -/
def logParsing (environment : Environment) (file : TextFile) : RunOn links Unit := do
  log .debug "assembler" ("Parsing " ++ file.path)
  if (environment.parse file).hasError then
    log .debug "syntax" ("Syntax errors in " ++ file.path ++ ", keeping recoverable declarations")

/-- The modules of some sources. -/
def parseSources (environment : Environment) (settings : Settings) (files : List TextFile) :
    RunOn links (List Module) := do
  log .info mainPart "Parsing files..."
  discard (forEach {} (logParsing environment) files)
  match Module.ofFiles environment.parse settings files with
  | .error fault => throw (.fault fault)
  | .ok (.rejected first others) => throw (.rejected (first :: others))
  | .ok (.accepted modules) =>
    log .debug mainPart ("Parsed " ++ Number.intText modules.length ++ " modules")
    return modules

/-- The modules of a project, after their documentation and examples were checked. -/
def verifiedModules (environment : Environment) (root : CleanPath) (settings : Settings) :
    RunOn links (List Module) := do
  let files ← readSources environment root settings
  let modules ← parseSources environment settings files
  log .info mainPart "Type checking examples..."
  let examples := Example.prepare (Example.harvest modules settings.outputDir) settings.projectName
  checkExamples environment none examples settings
  return modules

/-- Checks the documentation and the examples of a project. -/
def check (environment : Environment) (path : Text) : RunOn links (List Module) := do
  let root ← projectRoot path
  let settings ← loadSettings root
  let modules ← verifiedModules environment root settings
  log .info mainPart "Documentation check succeeded!"
  return modules

/-- The files of the site. -/
def siteFiles (modules : List Module) (settings : Settings) : RunOn links (List TextFile) := do
  let config ← configFile settings
  return [Site.home settings.outputDir, Site.index settings.outputDir, config] ++
    Site.pages modules settings.outputDir

/-- Checks a project and writes its site. -/
def build (environment : Environment) (path : Text) : RunOn links (List Module) := do
  let root ← projectRoot path
  let settings ← loadSettings root
  let modules ← verifiedModules environment root settings
  log .info mainPart "Creating markdown files..."
  let files ← siteFiles modules settings
  log .info mainPart "Writing markdown files..."
  remove environment (Site.stalePattern settings.outputDir)
  writeAll mainPart files (environment.writing .site)
  log .info mainPart "Docs generation succeeded!"
  return modules

end ApiDocs.Run
