import ApiDocs.Run.Project
import ApiDocs.Proofs.Run.Files

/-!
# The stages of a run

A run documents a project, verifies its examples and, if it is a build, plans the files of
the site and publishes them.  Here these stages are definitions of their own, and both
kinds of run are written with them.
-/

namespace ApiDocs

/-- The settings with the folders of a project as absolute paths. -/
def Settings.within (settings : Settings) (root : CleanPath) : Settings :=
  { settings with
    sourceDir := (root.append settings.sourceDir).text
    outputDir := (root.append settings.outputDir).text }

/-- A project whose sources were read and documented. -/
structure Project where
  root : CleanPath
  /-- The settings as the project gives them. -/
  configured : Settings
  modules : List Module

namespace Project

/-- The settings with the folders of the project as absolute paths. -/
def settings (project : Project) : Settings :=
  project.configured.within project.root

/-- The folder of the site. -/
def output (project : Project) : CleanPath :=
  project.root.append project.configured.outputDir

/-- The folder of the sources. -/
def source (project : Project) : CleanPath :=
  project.root.append project.configured.sourceDir

/-- The examples of the project, as they are checked. -/
def examples (project : Project) : List TextFile :=
  Example.prepare (Example.harvest project.modules project.settings.outputDir)
    project.settings.projectName

end Project

namespace Run

open World (Evolves OnlyLogs)

variable {links : Bool} (environment : Environment)

/-- The settings as a project gives them. -/
def configured (root : CleanPath) : RunOn links Settings := do
  let world ← get
  let package ← ofExcept (Package.load world.disk world.here root)
  let settings ← ofExcept (Settings.load world.disk world.here root package)
  log .debug mainPart ("Using settings " ++ settings.text)
  return settings

/-- Reads a project: its settings, its sources, and their documentation. -/
def documented (path : Text) : RunOn links Project := do
  let root ← projectRoot path
  let configured ← configured root
  let files ← readSources environment root (configured.within root)
  let modules ← parseSources environment (configured.within root) files
  return { root, configured, modules }

/-- Checks the examples of a project. -/
def verify (project : Project) : RunOn links Unit := do
  log .info mainPart "Type checking examples..."
  checkExamples environment none project.examples project.settings

/-- Checks the examples of a project and prepares the files of its site. -/
def plan (project : Project) : RunOn links (List TextFile) := do
  verify environment project
  log .info mainPart "Creating markdown files..."
  siteFiles project.modules project.settings

/-- Everything that comes before the site is changed. -/
def planned (path : Text) : RunOn links (Project × List TextFile) := do
  let project ← documented environment path
  let files ← plan environment project
  return (project, files)

/-- Removes the pages of earlier runs and writes the files of the site. -/
def publish (project : Project) (files : List TextFile) : RunOn links Unit := do
  log .info mainPart "Writing markdown files..."
  remove environment (Site.stalePattern project.settings.outputDir)
  writeAll mainPart files (environment.writing .site)
  log .info mainPart "Docs generation succeeded!"

theorem loadSettings_eq (root : CleanPath) :
    (loadSettings root : RunOn links Settings) = (do return (← configured root).within root) := by
  simp only [loadSettings, configured, Settings.within, bind_assoc, pure_bind]

/-- A build documents, verifies, plans and publishes. -/
theorem build_eq (path : Text) :
    (build environment path : RunOn links (List Module)) =
      (do
        let (project, files) ← planned environment path
        publish environment project files
        return project.modules) := by
  simp only [build, planned, documented, plan, verify, publish, verifiedModules, loadSettings_eq,
    Project.examples, Project.settings, bind_assoc, pure_bind]

/-- A check documents and verifies. -/
theorem check_eq (path : Text) :
    (check environment path : RunOn links (List Module)) =
      (do
        let project ← documented environment path
        verify environment project
        log .info mainPart "Documentation check succeeded!"
        return project.modules) := by
  simp only [check, documented, verify, verifiedModules, loadSettings_eq,
    Project.examples, Project.settings, bind_assoc, pure_bind]

/-! ## Documenting changes nothing -/

variable {environment}

theorem keeps_projectRoot {relation : World links → World links → Prop} (kept : IsKept relation)
    (path : Text) :
    Keeps relation (projectRoot path) := by
  refine .bind kept (.get kept) fun world => ?_
  simp only
  split
  · split
    · exact .pure kept _
    · exact .throw kept _
  · exact .throw kept _

theorem keeps_configured (root : CleanPath) :
    Keeps OnlyLogs (configured root : RunOn links Settings) := by
  have kept := @OnlyLogs.isKept links
  exact .bind kept (.get kept) fun _ => .bind kept (.ofExcept kept _) fun _ =>
    .bind kept (.ofExcept kept _) fun _ => .bind kept (keeps_log _ _ _) fun _ => .pure kept _

theorem keeps_readSource {relation : World links → World links → Prop} (kept : IsKept relation)
    (root : CleanPath) (path : Text) : Keeps relation (readSource root path) :=
  .bind kept (keeps_readText kept path) fun _ => .bind kept (.get kept) fun _ => .pure kept _

theorem keeps_readSources (root : CleanPath) (settings : Settings) :
    Keeps OnlyLogs (readSources environment root settings : RunOn links (List TextFile)) := by
  have kept := @OnlyLogs.isKept links
  exact .bind kept (keeps_log _ _ _) fun _ => .bind kept (keeps_search kept _ _) fun _ =>
    .bind kept (keeps_log _ _ _) fun _ => .forEach kept fun path _ => keeps_readSource kept root path

theorem keeps_logParsing (file : TextFile) :
    Keeps OnlyLogs (logParsing environment file : RunOn links Unit) := by
  have kept := @OnlyLogs.isKept links
  refine .bind kept (keeps_log _ _ _) fun _ => ?_
  split
  · exact keeps_log _ _ _
  · exact .pure kept _

theorem keeps_parseSources (settings : Settings) (files : List TextFile) :
    Keeps OnlyLogs (parseSources environment settings files : RunOn links (List Module)) := by
  have kept := @OnlyLogs.isKept links
  refine .bind kept (keeps_log _ _ _) fun _ =>
    .bind kept (.discard kept (.forEach kept fun file _ => keeps_logParsing file)) fun _ => ?_
  split
  · exact .throw kept _
  · exact .throw kept _
  · exact .bind kept (keeps_log _ _ _) fun _ => .pure kept _

/-- Documenting a project changes nothing but log files, however it ends. -/
theorem keeps_documented (path : Text) :
    Keeps OnlyLogs (documented environment path : RunOn links Project) := by
  have kept := @OnlyLogs.isKept links
  exact .bind kept (keeps_projectRoot kept path) fun root =>
    .bind kept (keeps_configured root) fun _ => .bind kept (keeps_readSources root _) fun _ =>
      .bind kept (keeps_parseSources _ _) fun _ => .pure kept _

theorem keeps_siteFiles {relation : World links → World links → Prop} (kept : IsKept relation)
    (modules : List Module) (settings : Settings) : Keeps relation (siteFiles modules settings) :=
  .bind kept (keeps_configFile kept settings) fun _ => .pure kept _

end Run

end ApiDocs
