import ApiDocs.Proofs.Run.Quiet
import ApiDocs.Proofs.Run.ReadFaults
import ApiDocs.Proofs.Site.Placement

/-!
# Documenting a project again

What a project is documented as depends on a few files only: its package description, its
settings file and its sources.  Where another disk has these files as well, the project is
documented there in the same way.
-/

namespace ApiDocs

open Disk (IsPath)

namespace CleanPath

variable {dir : CleanPath} {names : List Text} {disk other : Disk} {here there : Location}
variable {content : List UInt8}

/-- A way without steps up is clear. -/
theorem IsAbsolute.isClear_of_plain (absolute : dir.IsAbsolute) (proper : dir.IsProper)
    (faultless : Disk.pathFault? dir.text = none) (plain : ((".." : Text)) ∉ dir.names) :
    disk.IsClear dir.text := by
  intro front name rest cut up
  rw [proper.names_text] at cut
  have member : name ∈ dir.names := by simp [cut]
  have hasBytes : ∀ symbol ∈ name, Disk.Name.isStray symbol = false := by
    intro symbol inName
    refine (Disk.pathFault?_eq_none_iff.mp faultless).1 symbol ?_
    rw [absolute.text_eq]
    exact List.mem_append_right _ (Text.mem_joinWith_of_mem member inName)
  have same : name = ".." :=
    Disk.Name.eq_of_stored_eq (Disk.Name.isAsciiText_ofString (by decide)) hasBytes up
  exact absurd (same ▸ member) plain

variable (absolute : dir.IsAbsolute) (proper : dir.IsProper) (plain : ((".." : Text)) ∉ dir.names)
  (areNames : ∀ name ∈ names, Disk.IsName name) (nonempty : names ≠ [])

include absolute proper plain areNames nonempty

/-- Below a folder whose path never climbs, a file can be read exactly if it stands there. -/
theorem read_below_iff (tree : disk.IsTree) :
    disk.read here (dir.below names).text = .ok content ↔
      IsPath (dir.below names).text ∧ disk.file? (dir.place ++ names) = some content := by
  have properBelow : (dir.below names).IsProper := proper.below fun name member =>
    (areNames name member).toIsName
  have leads : Disk.target here (dir.below names).text = dir.place ++ names := by
    rw [(absolute.below names).target_text properBelow, place_below areNames]
  rw [Disk.read_eq_ok_iff, leads]
  constructor
  · rintro ⟨located, standing⟩
    exact ⟨Disk.isPath_of_locate located, standing⟩
  · rintro ⟨isPath, standing⟩
    have faultless : Disk.pathFault? dir.text = none := by
      have symbols := (Spot.forall_mem_text_iff (absolute.below names)).mp
        (Spot.pathFault?_eq_none_iff.mp isPath.faultless)
      exact Spot.pathFault?_eq_none_iff.mpr ((Spot.forall_mem_text_iff absolute).mpr
        fun name member => symbols name (List.mem_append_left _ member))
    have clear : disk.IsClear dir.text := absolute.isClear_of_plain proper faultless plain
    exact ⟨absolute.locate_below tree proper clear nonempty (Disk.file?_eq_some_iff.mp standing)
      isPath, standing⟩

/-- A file that stands on two disks is read alike. -/
theorem readText_below_of_same {text : Text} (tree : disk.IsTree) (otherTree : other.IsTree)
    (same : other.file? (dir.place ++ names) = disk.file? (dir.place ++ names))
    (given : disk.readText here (dir.below names).text = .ok text) :
    other.readText there (dir.below names).text = .ok text := by
  rw [Disk.readText] at given
  split at given
  · cases given
  · rename_i bytes read
    rw [read_below_iff absolute proper plain areNames nonempty tree, ← same,
      ← read_below_iff absolute proper plain areNames nonempty otherTree] at read
    rw [Disk.readText, read]
    exact given

/-- A file is found on both of two disks that have it, and on neither of two that do not. -/
theorem hasFile_below_of_same (tree : disk.IsTree) (otherTree : other.IsTree)
    (same : other.file? (dir.place ++ names) = disk.file? (dir.place ++ names)) :
    other.hasFile there (dir.below names).text = disk.hasFile here (dir.below names).text := by
  have byReading (disk : Disk) (here : Location) (path : Text) :
      disk.hasFile here path = true ↔ ∃ content, disk.read here path = .ok content := by
    simp only [Disk.hasFile_iff, Disk.read_eq_ok_iff, Disk.file?_eq_some_iff, exists_and_left,
      Disk.isStraight]
  rw [Bool.eq_iff_iff, byReading, byReading]
  simp only [read_below_iff absolute proper plain areNames nonempty tree,
    read_below_iff absolute proper plain areNames nonempty otherTree, same]

end CleanPath

/-- Whether two disks have the files that a project is read from in the same way. -/
structure Project.ReadsAlike (project : Project) (first second : Disk) : Prop where
  description : second.file? (project.root.place ++ [Package.fileName]) =
    first.file? (project.root.place ++ [Package.fileName])
  settings : ∀ file : SettingsFile, second.file? (project.root.place ++ [file.name]) =
    first.file? (project.root.place ++ [file.name])
  sources : ∀ front name,
    (∀ other ∈ front ++ [name], Disk.IsName other ∧ Glob.isHidden other = false) →
    Text.endsWith name ".ts" = true →
    Glob.isExcluded (project.source.below (front ++ [name])).text project.settings.exclude = false →
    IsPath (project.source.below (front ++ [name])).text →
    second.file? (project.source.place ++ (front ++ [name])) =
      first.file? (project.source.place ++ (front ++ [name]))

namespace Run

open World (OnlyLogs)

variable {environment again : Environment} {world other read : World} {project : Project}
variable {root : CleanPath} {settings : Settings} {path : Text}

/-! ## The settings -/

/-- The root of a project depends on the present folder only. -/
theorem ending_projectRoot_of_here {after : World}
    (ended : ending (projectRoot path) world = (.ok root, after)) (here : other.here = world.here) :
    after = world ∧ ending (projectRoot path) other = (.ok root, other) := by
  rw [projectRoot, ending_bind_of_ok (ending_get _)] at ended ⊢
  rw [World.hereText_congr here]
  simp only [realPath_eq] at ended ⊢
  split at ended
  · cases ended
    exact ⟨rfl, rfl⟩
  · cases ended

theorem append_fileName_eq {name : Text} (isName : Disk.IsName name) :
    root.append name = root.below [name] := by
  rw [CleanPath.append_eq_below (Path.isAbsolute_of_not_mem isName.whole), isName.toIsName.names_eq]

section

variable (fromRoot : root.anchor = .root) (proper : root.IsProper)
  (staysDown : ((".." : Text)) ∉ root.names) (tree : world.disk.IsTree)
  (otherTree : other.disk.IsTree)

include fromRoot proper staysDown tree otherTree

/-- A file at the root of a project that stands on two disks is read alike. -/
theorem readText_append_of_same {name text : Text} (isName : Disk.IsName name)
    (same : other.disk.file? (root.place ++ [name]) = world.disk.file? (root.place ++ [name]))
    (given : world.disk.readText world.here (root.append name).text = .ok text) :
    other.disk.readText other.here (root.append name).text = .ok text := by
  have absolute : root.IsAbsolute := by simp [CleanPath.IsAbsolute, fromRoot]
  rw [append_fileName_eq isName] at given ⊢
  exact CleanPath.readText_below_of_same absolute proper staysDown (by simpa using isName) (by simp)
    tree otherTree same given

variable (description : other.disk.file? (root.place ++ [Package.fileName]) =
    world.disk.file? (root.place ++ [Package.fileName]))
  (settingsFiles : ∀ file : SettingsFile, other.disk.file? (root.place ++ [file.name]) =
    world.disk.file? (root.place ++ [file.name]))

include description in
theorem package_load_of_same {package : Package}
    (loaded : Package.load world.disk world.here root = .ok package) :
    Package.load other.disk other.here root = .ok package := by
  have isName : Disk.IsName Package.fileName := by decide +kernel
  rw [Package.load] at loaded
  split at loaded
  · cases loaded
  · cases loaded
  · cases loaded
  · rename_i text given
    rw [Package.load, readText_append_of_same fromRoot proper staysDown tree otherTree isName
      description given]
    exact loaded

include settingsFiles

theorem find?_of_same : SettingsFile.find? other.disk other.here root =
    SettingsFile.find? world.disk world.here root := by
  have absolute : root.IsAbsolute := by simp [CleanPath.IsAbsolute, fromRoot]
  have each (file : SettingsFile) : other.disk.hasFile other.here (root.append file.name).text =
      world.disk.hasFile world.here (root.append file.name).text := by
    have isName : Disk.IsName file.name := by cases file <;> decide +kernel
    rw [append_fileName_eq isName]
    exact CleanPath.hasFile_below_of_same absolute proper staysDown (by simpa using isName)
      (by simp) tree otherTree (settingsFiles file)
  rw [SettingsFile.find?, SettingsFile.find?, funext each]

theorem settings_load_of_same {package : Package}
    (loaded : Settings.load world.disk world.here root package = .ok settings) :
    Settings.load other.disk other.here root package = .ok settings := by
  rw [Settings.load] at loaded ⊢
  rw [find?_of_same fromRoot proper staysDown tree otherTree settingsFiles]
  cases found : SettingsFile.find? world.disk world.here root with
  | none =>
      rw [found] at loaded
      exact loaded
  | some file =>
      rw [found] at loaded
      have isName : Disk.IsName file.name := by cases file <;> decide +kernel
      simp only at loaded ⊢
      split at loaded
      · cases loaded
      · rename_i entries read
        rw [SettingsFile.load] at read
        split at read
        · cases read
        · cases read
        · cases read
        · rename_i text given
          rw [SettingsFile.load, readText_append_of_same fromRoot proper staysDown tree otherTree
            isName (settingsFiles file) given]
          simp only [read]
          exact loaded

include description

theorem ending_configured_of_same {after : World}
    (ended : ending (configured root) world = (.ok settings, after)) :
    ∃ last, ending (configured root) other = (.ok settings, last) := by
  rw [configured, ending_bind_of_ok (ending_get _)] at ended ⊢
  obtain ⟨package, first, given, rest⟩ := ending_bind_eq_ok_iff.mp ended
  obtain ⟨loaded, second, given', rest⟩ := ending_bind_eq_ok_iff.mp rest
  obtain ⟨_, third, -, rest⟩ := ending_bind_eq_ok_iff.mp rest
  cases rest
  rw [ending_ofExcept, Prod.mk.injEq] at given given'
  rw [package_load_of_same fromRoot proper staysDown tree otherTree description given.1,
    ending_bind_of_ok (ending_ofExcept _ _),
    settings_load_of_same fromRoot proper staysDown tree otherTree settingsFiles given'.1,
    ending_bind_of_ok (ending_ofExcept _ _), ending_bind_of_ok (ending_log _ _ _ _)]
  exact ⟨_, rfl⟩

end

/-! ## The sources -/

/-- Sources are parsed alike by parsers that are alike. -/
theorem ending_parseSources_of_made {files : List TextFile} {modules : List Module}
    (made : Module.ofFiles again.parse settings files = .ok (.accepted modules)) (world : World) :
    ∃ last, ending (parseSources again settings files) world = (.ok modules, last) := by
  have each : List.Forall₂ (fun file (_ : Unit) => ∀ middle : World, True →
      ∃ last, ending (logParsing again file) middle = (.ok (), last) ∧ True)
      files (files.map fun _ => ()) := by
    rw [List.forall₂_map_right_iff, List.forall₂_same]
    intro file _ middle _
    rw [logParsing, ending_bind_of_ok (ending_log _ _ _ _)]
    split
    · exact ⟨_, ending_log _ _ _ _, trivial⟩
    · exact ⟨_, rfl, trivial⟩
  have started := ending_log .info mainPart "Parsing files..." world
  obtain ⟨logged, parsed, -⟩ : ∃ logged, ending (forEach {} (logParsing again) files)
      (ending (log .info mainPart "Parsing files...") world).2 =
        (.ok (files.map fun _ => ()), logged) ∧ True :=
    exists_ending_forEach each trivial
  have parsed : ending (discard (forEach {} (logParsing again) files))
      (ending (log .info mainPart "Parsing files...") world).2 = (.ok (), logged) :=
    ending_bind_of_ok parsed _
  rw [started] at parsed
  rw [parseSources, ending_bind_of_ok started, ending_bind_of_ok parsed, made]
  exact ⟨_, ending_bind_of_ok (ending_log _ _ _ _) _⟩

/-- A source that stands on two disks is read alike. -/
theorem ending_readSource_of_same {file : TextFile} {source : Text} {after : World}
    (ended : ending (readSource root source) world = (.ok file, after))
    (here : other.here = world.here)
    (same : ∀ text, world.disk.readText world.here (CleanPath.ofText source).text = .ok text →
      other.disk.readText other.here (CleanPath.ofText source).text = .ok text) :
    ending (readSource root source) other = (.ok file, other) := by
  obtain ⟨content, middle, taken, rest⟩ := ending_bind_eq_ok_iff.mp ended
  obtain ⟨rfl, given⟩ := of_ending_readText taken
  rw [ending_bind_of_ok (ending_get _), ending_pure, Prod.mk.injEq, Except.ok.injEq] at rest
  obtain ⟨rfl, -⟩ := rest
  have again : ending (readText source) other = (.ok content, other) := by
    rw [readText, ending_bind_of_ok (ending_get _), same content given]
    rfl
  rw [readSource, ending_bind_of_ok again, ending_bind_of_ok (ending_get _), World.hereText_congr here]
  rfl

section

variable {origin : World} (isRead : project.IsRead environment origin)
variable (folder : project.HasSourceFolder)
  (quiet : world.IsQuiet) (otherQuiet : other.IsQuiet) (here : other.here = world.here)
  (alike : project.ReadsAlike world.disk other.disk)

include isRead folder

theorem up_not_mem_source : ((".." : Text)) ∉ project.source.names := by
  rw [Project.source, CleanPath.append_eq_below folder.relative, CleanPath.names_below,
    List.mem_append, not_or]
  exact ⟨isRead.staysDown, folder.staysDown⟩

include quiet otherQuiet alike

/-- The search for the sources finds the same on both disks. -/
theorem sourcesIn_of_same {found : List Text}
    (given : project.settings.sourcesIn world = .ok found) :
    project.settings.sourcesIn other = .ok found ∧
      ∀ source ∈ found, ∀ text,
        world.disk.readText world.here (CleanPath.ofText source).text = .ok text →
        other.disk.readText other.here (CleanPath.ofText source).text = .ok text := by
  have search := isRead.isSearchBelow folder
  have plain := up_not_mem_source isRead folder
  have pattern : Path.join (Path.join project.settings.sourceDir "**") "*.ts" =
      project.sourcePattern.text :=
    Glob.join_everything isRead.absolute_source isRead.proper_source (by decide)
  rw [Settings.sourcesIn, pattern, Project.sourcePattern] at given ⊢
  obtain ⟨paths, searched, some⟩ := Glob.exists_search_of_files given
  have faultless := search.pathFault?_of_search searched
  have clear (disk : Disk) : disk.IsClear project.source.text :=
    isRead.absolute_source.isClear_of_plain isRead.proper_source faultless plain
  constructor
  · refine search.files_eq_of_same quiet.tree otherQuiet.tree (clear _) (clear _) otherQuiet.named
      given fun front name visible ends kept isPath => ?_
    rw [alike.sources front name visible ends kept isPath]
  · intro source member text read
    rw [Glob.files, searched] at given
    cases given
    obtain ⟨inPaths, kept⟩ := List.mem_filter.mp ((List.mergeSort_perm _ _).mem_iff.mp member)
    rw [Bool.and_eq_true, Bool.not_eq_true'] at kept
    obtain ⟨front, name, rfl, visible, ends, isPath, -⟩ :=
      (search.mem_and_hasFile_iff quiet.tree (clear _) searched).mp ⟨inPaths, kept.1⟩
    have areNames : ∀ other ∈ front ++ [name], Disk.IsName other := fun other inNames =>
      (visible other inNames).1
    have proper : (project.source.below (front ++ [name])).IsProper :=
      isRead.proper_source.below fun other inNames => (areNames other inNames).toIsName
    rw [proper.ofText_text] at read ⊢
    exact CleanPath.readText_below_of_same isRead.absolute_source isRead.proper_source plain
      areNames (by simp) quiet.tree otherQuiet.tree
      (alike.sources front name visible ends kept.2 isPath) read

include here

theorem ending_readSources_of_same {files : List TextFile} {after : World}
    (ended : ending (readSources environment project.root project.settings) world =
      (.ok files, after)) (again : Environment) :
    ∃ last, ending (readSources again project.root project.settings) other =
      (.ok files, last) := by
  obtain ⟨now, logs, ⟨error, -, failed⟩ | ⟨found, start, given, counted, same⟩⟩ :=
    readSources_cases environment project.root project.settings world
  · rw [failed] at ended
    cases ended
  rw [Settings.sourcesIn, logs.disk quiet.noLogs, logs.here] at given
  obtain ⟨otherGiven, read⟩ := sourcesIn_of_same isRead folder quiet otherQuiet alike given
  obtain ⟨otherNow, otherLogs, cases⟩ :=
    readSources_cases again project.root project.settings other
  have nowGiven : project.settings.sourcesIn otherNow = .ok found := by
    rw [Settings.sourcesIn, otherLogs.disk otherQuiet.noLogs, otherLogs.here]
    exact otherGiven
  obtain ⟨error, refused, -⟩ | ⟨otherFound, otherStart, alsoGiven, otherCounted, otherSame⟩ := cases
  · rw [nowGiven] at refused
    cases refused
  rw [nowGiven] at alsoGiven
  cases alsoGiven
  have toStart := logs.trans counted
  have toOtherStart := otherLogs.trans otherCounted
  rw [same] at ended
  rw [otherSame]
  have taken := forall₂_of_ending_forEach OnlyLogs.isKept
    (fun path _ => keeps_readSource OnlyLogs.isKept project.root path) ended
  have each : List.Forall₂ (fun path file => ∀ middle, OnlyLogs other middle →
      ∃ last, ending (readSource project.root path) middle = (.ok file, last) ∧
        OnlyLogs other last) found files := by
    refine ((List.forall₂_and_left _ _).mpr ⟨read, taken⟩).imp ?_
    rintro path file ⟨own, middle, last, reached, took⟩ now logged
    have toMiddle := toStart.trans reached
    refine ⟨now, ending_readSource_of_same took ?_ ?_, logged⟩
    · rw [logged.here, toMiddle.here, here]
    · rw [logged.disk otherQuiet.noLogs, logged.here, toMiddle.disk quiet.noLogs, toMiddle.here]
      exact own
  obtain ⟨last, further, -⟩ := exists_ending_forEach each toOtherStart
  exact ⟨last, further⟩

end

/-- Where another disk has the files of a project alike, the project is documented alike. -/
theorem ending_documented_of_same
    (documented : ending (documented environment path) world = (.ok project, read))
    (folder : project.HasSourceFolder) (quiet : world.IsQuiet) (otherQuiet : other.IsQuiet)
    (here : other.here = world.here) (parse : again.parse = environment.parse)
    (alike : project.ReadsAlike world.disk other.disk) :
    ∃ last, ending (Run.documented again path) other = (.ok project, last) ∧
      OnlyLogs other last := by
  have isRead := isRead_of_ending_documented documented
  obtain ⟨root, first, rooted, rest⟩ := ending_bind_eq_ok_iff.mp documented
  obtain ⟨settings, second, configured, rest⟩ := ending_bind_eq_ok_iff.mp rest
  obtain ⟨files, third, areRead, rest⟩ := ending_bind_eq_ok_iff.mp rest
  obtain ⟨modules, fourth, parsed, rest⟩ := ending_bind_eq_ok_iff.mp rest
  cases rest
  obtain ⟨rfl, otherRooted⟩ := ending_projectRoot_of_here rooted here
  obtain ⟨otherSecond, otherConfigured⟩ := ending_configured_of_same isRead.fromRoot isRead.proper
    isRead.staysDown quiet.tree otherQuiet.tree alike.description alike.settings configured
  have toSecond := keeps_configured root first
  rw [configured] at toSecond
  have toOtherSecond := keeps_configured root other
  rw [otherConfigured] at toOtherSecond
  have secondAlike : Project.ReadsAlike { root, configured := settings, modules } second.disk
      otherSecond.disk := by
    rw [toSecond.disk quiet.noLogs, toOtherSecond.disk otherQuiet.noLogs]
    exact alike
  obtain ⟨otherThird, otherRead⟩ := ending_readSources_of_same isRead folder (toSecond.quiet quiet)
    (toOtherSecond.quiet otherQuiet) (by rw [toSecond.here, toOtherSecond.here, here]) secondAlike
    areRead again
  have made := modules_of_ending_parseSources parsed
  rw [← parse] at made
  obtain ⟨otherFourth, otherParsed⟩ := ending_parseSources_of_made made otherThird
  have ended : ending (Run.documented again path) other =
      (.ok { root, configured := settings, modules }, otherFourth) := by
    rw [Run.documented, ending_bind_of_ok otherRooted, ending_bind_of_ok otherConfigured]
    exact (ending_bind_of_ok otherRead _).trans (ending_bind_of_ok otherParsed _)
  have logs : OnlyLogs other (ending (Run.documented again path) other).2 :=
    keeps_documented path other
  rw [ended] at logs
  exact ⟨otherFourth, ended, logs⟩

end Run

end ApiDocs
