import ApiDocs.Proofs.Module.Paths
import ApiDocs.Proofs.Path.Relative
import ApiDocs.Proofs.Run.Stages

/-!
# What is known of a documented project

When a project was documented, its folder is an absolute path that never climbs, its
sources are the files that a search finds, and its modules are made of these sources: each
module has the path of its source as seen from the folder of the project.
-/

namespace ApiDocs

variable {links : Bool}

namespace World

theorem isAbsolute_hereText (world : World links) : Path.isAbsolute world.hereText = true :=
  Path.isAbsolute_iff.mpr ⟨_, rfl⟩

theorem hereText_congr {before after : World links} (here : after.here = before.here) :
    after.hereText = before.hereText := by
  rw [hereText, hereText, here]

end World

namespace Run

open World (OnlyLogs)

variable {ι α : Type} {relation : World links → World links → Prop} {world after : World links}

/-- If a step for each item succeeds, each value comes from a step that its item took. -/
theorem forall₂_of_ending_forEach (kept : IsKept relation) {schedule : Schedule}
    {step : ι → RunOn links α}
    {items : List ι} {values : List α} (each : ∀ item ∈ items, Keeps relation (step item))
    (ended : ending (forEach schedule step items) world = (.ok values, after)) :
    List.Forall₂ (fun item value => ∃ middle last, relation world middle ∧
      ending (step item) middle = (.ok value, last)) items values := by
  have turns : ∀ {jobs : List (ι × Nat)} {found : List (α × Nat)} {world : World links},
      (∀ job ∈ jobs, Keeps relation (step job.1)) →
      ending (takeTurns schedule step jobs) world = (.ok found, after) →
      List.Forall₂ (fun job value => job.2 = value.2 ∧ ∃ middle last, relation world middle ∧
        ending (step job.1) middle = (.ok value.1, last)) jobs found := by
    intro jobs found world each taken
    induction jobs generalizing world found with
    | nil =>
        cases taken
        exact .nil
    | cons job rest ih =>
        obtain ⟨value, others, middle, first, further, rfl⟩ :=
          ending_takeTurns_cons_eq_ok_iff.mp taken
        have before := each job List.mem_cons_self world
        rw [first] at before
        refine .cons ⟨rfl, world, middle, kept.refl world, first⟩ ?_
        refine (ih (fun other member => each other (List.mem_cons_of_mem job member)) further).imp ?_
        rintro other value ⟨place, start, last, reached, taken⟩
        exact ⟨place, start, last, kept.trans before reached, taken⟩
  obtain ⟨found, taken, rfl⟩ := ending_forEach_eq_ok_iff.mp ended
  exact Schedule.forall₂_of_arrange
    (turns (fun _ member => each _ (Schedule.mem_of_mem_arrange member)) taken)

end Run

namespace Project

open World (OnlyLogs)

variable {environment : Environment} {world : World links} {project : Project}

/-- What is known of a project that was documented in a world. -/
structure IsRead (environment : Environment) (world : World links) (project : Project) : Prop where
  fromRoot : project.root.anchor = .root
  proper : project.root.IsProper
  staysDown : ((".." : Text)) ∉ project.root.names
  /-- The sources were found by a search, and the modules were made of them. -/
  sources : ∃ middle found files, OnlyLogs world middle ∧
    Glob.files middle.disk middle.here
        (Path.join (Path.join project.settings.sourceDir "**") "*.ts")
        project.settings.exclude = .ok found ∧
      files.map TextFile.path =
        found.map (fun path => Path.relative world.hereText path project.root.text) ∧
      Module.ofFiles environment.parse project.settings files = .ok (.accepted project.modules)

end Project

namespace Run

open World (OnlyLogs)

variable {environment : Environment} {world after : World links} {root : CleanPath} {path : Text}

/-- Where there are no links, a path is the one that leads where it leads without them. -/
@[simp]
theorem realPath_eq (disk : Disk) (hereText : Text) (budget : Nat) (path : Text) :
    realPath disk hereText budget path = some path := by
  have noLink (before names : List Text) : firstLinkName? disk before names = none := by
    induction names generalizing before with
    | nil => rfl
    | cons name rest ih =>
        rw [firstLinkName?, Disk.linkAt?_eq_none]
        exact ih _
  cases budget <;> rw [realPath, noLink]

/-- The folder of a project is an absolute path that never climbs. -/
theorem root_of_ending_projectRoot (ended : ending (projectRoot path) world = (.ok root, after)) :
    root.anchor = .root ∧ root.IsProper ∧ ((".." : Text)) ∉ root.names := by
  rw [projectRoot, ending_bind_of_ok (ending_get world)] at ended
  simp only at ended
  split at ended
  · split at ended
    · rename_i path _
      cases ended
      have fromRoot : Path.isAbsolute (Path.absolute world.hereText path) = true :=
        Path.isAbsolute_normal (Path.isAbsolute_join world.isAbsolute_hereText)
      exact ⟨rfl, fun _ => Path.isName_of_mem_normalNames, Path.up_not_mem_normalNames fromRoot⟩
    · cases ended
  · cases ended

/-- A source keeps its path, as seen from the folder of the project. -/
theorem path_of_ending_readSource {file : TextFile}
    (ended : ending (readSource root path) world = (.ok file, after)) :
    file.path = Path.relative world.hereText path root.text := by
  obtain ⟨content, middle, read, rest⟩ := ending_bind_eq_ok_iff.mp ended
  have same : middle.here = world.here := by
    have kept := keeps_readText OnlyLogs.isKept path world
    rw [read] at kept
    exact kept.here
  rw [ending_bind_of_ok (ending_get middle), ending_pure, Prod.mk.injEq, Except.ok.injEq] at rest
  rw [← rest.1, ← World.hereText_congr same]

/-- The sources are the files that the search finds, with their paths as seen from the project. -/
theorem files_of_ending_readSources {settings : Settings} {files : List TextFile}
    (ended : ending (readSources environment root settings) world = (.ok files, after)) :
    ∃ middle found, OnlyLogs world middle ∧
      Glob.files middle.disk middle.here (Path.join (Path.join settings.sourceDir "**") "*.ts")
        settings.exclude = .ok found ∧
      files.map TextFile.path =
        found.map fun path => Path.relative world.hereText path root.text := by
  obtain ⟨_, middle, logged, rest⟩ := ending_bind_eq_ok_iff.mp ended
  obtain ⟨found, further, searched, rest⟩ := ending_bind_eq_ok_iff.mp rest
  obtain ⟨_, last, counted, read⟩ := ending_bind_eq_ok_iff.mp rest
  have first := keeps_log .info mainPart "Reading sources..." world
  rw [logged] at first
  have second := keeps_search OnlyLogs.isKept
    (Path.join (Path.join settings.sourceDir "**") "*.ts") settings.exclude middle
  rw [searched] at second
  have third := keeps_log .debug mainPart
    ("Found " ++ Number.intText found.length ++ " source files under " ++ settings.sourceDir)
    further
  rw [counted] at third
  have toLast : OnlyLogs world last := (first.trans second).trans third
  rw [search, ending_bind_of_ok (ending_get middle), ending_ofExcept] at searched
  refine ⟨middle, found, first, ?_, ?_⟩
  · cases given : Glob.files middle.disk middle.here
        (Path.join (Path.join settings.sourceDir "**") "*.ts") settings.exclude with
    | error error =>
        rw [given] at searched
        cases searched
    | ok paths =>
        rw [given] at searched
        cases searched
        rfl
  · have each := forall₂_of_ending_forEach OnlyLogs.isKept
      (fun path _ => keeps_readSource OnlyLogs.isKept root path) read
    refine List.forall₂_eq_eq_eq ▸ ?_
    rw [List.forall₂_map_left_iff, List.forall₂_map_right_iff]
    refine (List.Forall₂.flip each).imp ?_
    rintro file path ⟨start, stop, reached, taken⟩
    rw [path_of_ending_readSource taken, World.hereText_congr (toLast.here ▸ reached.here)]

theorem modules_of_ending_parseSources {settings : Settings} {files : List TextFile}
    {modules : List Module}
    (ended : ending (parseSources environment settings files) world = (.ok modules, after)) :
    Module.ofFiles environment.parse settings files = .ok (.accepted modules) := by
  obtain ⟨-, middle, -, rest⟩ := ending_bind_eq_ok_iff.mp ended
  obtain ⟨-, last, -, rest⟩ := ending_bind_eq_ok_iff.mp rest
  split at rest
  · cases rest
  · cases rest
  · rename_i given
    obtain ⟨-, further, -, rest⟩ := ending_bind_eq_ok_iff.mp rest
    cases rest
    exact given

/-- A project that was documented is read from the world before, up to logging. -/
theorem isRead_of_ending_documented {project : Project}
    (ended : ending (documented environment path) world = (.ok project, after)) :
    project.IsRead environment world := by
  obtain ⟨root, first, rooted, rest⟩ := ending_bind_eq_ok_iff.mp ended
  obtain ⟨settings, second, configured, rest⟩ := ending_bind_eq_ok_iff.mp rest
  obtain ⟨files, third, read, rest⟩ := ending_bind_eq_ok_iff.mp rest
  obtain ⟨modules, fourth, parsed, rest⟩ := ending_bind_eq_ok_iff.mp rest
  cases rest
  have toFirst := keeps_projectRoot OnlyLogs.isKept path world
  rw [rooted] at toFirst
  have toSecond := keeps_configured root first
  rw [configured] at toSecond
  have reached : OnlyLogs world second := toFirst.trans toSecond
  obtain ⟨fromRoot, proper, staysDown⟩ := root_of_ending_projectRoot rooted
  obtain ⟨middle, found, logs, searched, paths⟩ := files_of_ending_readSources read
  rw [World.hereText_congr reached.here] at paths
  exact
    { fromRoot, proper, staysDown
      sources := ⟨middle, found, files, reached.trans logs, searched, paths,
        modules_of_ending_parseSources parsed⟩ }

end Run

namespace Project.IsRead

variable {environment : Environment} {world : World links} {project : Project} {module : Module}

section

variable (isRead : project.IsRead environment world)

include isRead

theorem absolute : project.root.IsAbsolute := by
  rw [CleanPath.IsAbsolute, isRead.fromRoot]
  decide

theorem absolute_output : project.output.IsAbsolute :=
  isRead.absolute.append _

theorem proper_output : project.output.IsProper :=
  isRead.proper.append _

theorem exists_file (member : module ∈ project.modules) :
    ∃ file path, file.path = Path.relative world.hereText path project.root.text ∧
      Module.ofFile environment.parse project.settings file = .ok (.accepted module) := by
  obtain ⟨middle, found, files, -, -, paths, made⟩ := isRead.sources
  obtain ⟨file, inFiles, fromFile⟩ := Module.exists_file_of_mem made member
  have inPaths : file.path ∈ files.map TextFile.path := List.mem_map_of_mem inFiles
  rw [paths] at inPaths
  obtain ⟨path, -, same⟩ := List.mem_map.mp inPaths
  exact ⟨file, path, same.symm, fromFile⟩

/-- The parts of the path of a module are names. -/
theorem isName_of_mem_path (member : module ∈ project.modules) {part : Text}
    (inPath : part ∈ module.path) : Path.IsName part := by
  obtain ⟨file, path, given, made⟩ := isRead.exists_file member
  rw [(Module.path_of_ofFile made).1, given] at inPath
  exact Path.isName_of_mem_pathOf_relative world.isAbsolute_hereText inPath

/-- The own name of a module has no slash. -/
theorem slash_not_mem_name (member : module ∈ project.modules) :
    Symbol.char '/' ∉ module.doc.name := by
  obtain ⟨file, path, -, made⟩ := isRead.exists_file member
  exact Module.slash_not_mem_name made

end

end Project.IsRead

end ApiDocs
