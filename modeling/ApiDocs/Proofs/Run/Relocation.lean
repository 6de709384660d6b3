import ApiDocs.Proofs.Glob.Copy
import ApiDocs.Proofs.Run.Documented
import ApiDocs.Proofs.Run.Twin

/-!
# Projects at other places

A project may be copied to another place.  Reading it there gives the same settings and the
same sources under the same paths, as long as nothing on the way to either place takes part
in it: no wildcard in the path of the project, no path too long for the disk, and no source
that is left out at one place only.
-/

namespace ApiDocs

open Disk (AreCopies Fits)

/-! ## The settings -/

section

variable {first second : Disk} {root root' : CleanPath} {here there : Location}

namespace Run

theorem EndAlike.refl {α : Type} (outcome : Except Failure α) : EndAlike Eq outcome outcome := by
  cases outcome with
  | ok value => exact .ok rfl
  | error failure => exact .error (.same failure)

end Run

open Run (EndAlike)

/-- A file directly in the folder of a project. -/
def Spot.file (name : Text) : Spot :=
  { names := [name] }

/-- The files that say how a project is to be documented. -/
def settingsFiles : List Text :=
  [Package.fileName, SettingsFile.yaml.name, SettingsFile.json.name]

theorem text_file {name : Text} (isName : Path.IsName name) (root : CleanPath) :
    (Spot.file name).text root = (root.append name).text := by
  rw [CleanPath.append_eq_below (Path.isAbsolute_of_not_mem isName.whole), isName.names_eq]
  rfl

theorem isName_of_mem_settingsFiles {name : Text} (member : name ∈ settingsFiles) :
    Path.IsName name := by
  revert name
  decide

variable (here there) (copies : AreCopies first second root root')
variable (fits : ∀ name ∈ settingsFiles, Fits root (Spot.file name) ∧ Fits root' (Spot.file name))

include copies fits

theorem readText_settingsFile {name : Text} (member : name ∈ settingsFiles) :
    SameOutcome Disk.UnreadableAlike Eq (first.readText here (root.append name).text)
      (second.readText there (root'.append name).text) := by
  have isName := isName_of_mem_settingsFiles member
  rw [← text_file isName, ← text_file isName]
  exact copies.readText here there (fits name member).1 (fits name member).2

theorem Package.load_alike :
    EndAlike Eq (Package.load first here root) (Package.load second there root') := by
  have read : SameOutcome Disk.UnreadableAlike Eq
      (first.readText here (root.append Package.fileName).text)
      (second.readText there (root'.append Package.fileName).text) :=
    readText_settingsFile here there copies fits (by decide)
  rw [Package.load, Package.load]
  revert read
  generalize first.readText here (root.append Package.fileName).text = left
  generalize second.readText there (root'.append Package.fileName).text = right
  rintro (⟨rfl⟩ | ⟨⟨refused | fault⟩ | failure⟩)
  · exact .refl _
  · exact .error (.settings _ _)
  · exact .error (.fault _ _)
  · exact .error (.same _)

theorem SettingsFile.load_alike (file : SettingsFile) :
    EndAlike Eq (file.load first here root) (file.load second there root') := by
  have isFile : file.name ∈ settingsFiles := by cases file <;> decide
  have read : SameOutcome Disk.UnreadableAlike Eq (first.readText here (root.append file.name).text)
      (second.readText there (root'.append file.name).text) :=
    readText_settingsFile here there copies fits isFile
  rw [SettingsFile.load, SettingsFile.load]
  revert read
  generalize first.readText here (root.append file.name).text = left
  generalize second.readText there (root'.append file.name).text = right
  rintro (⟨rfl⟩ | ⟨⟨refused | fault⟩ | failure⟩)
  · exact .refl _
  · exact .error (.settings _ _)
  · exact .error (.fault _ _)
  · exact .error (.same _)

theorem SettingsFile.find?_eq :
    SettingsFile.find? first here root = SettingsFile.find? second there root' := by
  have same (file : SettingsFile) : first.hasFile here (root.append file.name).text =
      second.hasFile there (root'.append file.name).text := by
    have isFile : file.name ∈ settingsFiles := by cases file <;> decide
    have isName := isName_of_mem_settingsFiles isFile
    rw [← text_file isName, ← text_file isName]
    exact copies.hasFile_eq here there (fits _ isFile).1 (fits _ isFile).2
  simp only [SettingsFile.find?, same]

theorem Settings.load_alike (package : Package) :
    EndAlike Eq (Settings.load first here root package)
      (Settings.load second there root' package) := by
  rw [Settings.load, Settings.load, SettingsFile.find?_eq here there copies fits]
  cases SettingsFile.find? second there root' with
  | none => exact .refl _
  | some file =>
      have loaded := SettingsFile.load_alike here there copies fits file
      simp only
      revert loaded
      generalize file.load first here root = left
      generalize file.load second there root' = right
      rintro (⟨rfl⟩ | failures)
      · exact .refl _
      · exact .error failures

end

/-! ## Paths as seen from the project -/

namespace Path

theorem normalNames_eq_of_ofText {path other : Text}
    (same : CleanPath.ofText path = CleanPath.ofText other) :
    normalNames path = normalNames other := by
  have anchors : anchorOf path = anchorOf other := congrArg CleanPath.anchor same
  have read : names path = names other := congrArg CleanPath.names same
  rw [normalNames, normalNames, anchors, read]

end Path

/-- The names of a path below a project, as they are seen from there. -/
def Spot.seen (spot : Spot) : List Text :=
  (spot.names.foldl (Path.climb .root) []).reverse

/-- A path below a project is seen from there in the same way, wherever the project stands. -/
theorem relative_text {disk : Disk} {root : CleanPath} (isBase : disk.IsBase root) {spot : Spot}
    (stays : spot.Stays) (here : Text) :
    Path.relative here (spot.text root) root.text =
      if spot.seen.isEmpty then (".": Text) else Text.joinWith "/" spot.seen := by
  obtain ⟨reached, depth⟩ := Option.isSome_iff_exists.mp stays.depth
  have proper := isBase.proper.below stays.areNames
  have rootNames : Path.normalNames (Path.absolute here root.text) = root.names := by
    have plain : ∀ name ∈ Path.names root.text, name ≠ ".." := by
      rw [isBase.proper.names_text]
      rintro name member rfl
      exact isBase.staysDown member
    rw [Path.absolute, Path.join_of_isAbsolute isBase.absolute.isAbsolute_text,
      Path.normalNames_normal isBase.absolute.isAbsolute_text, Path.normalNames_of_plain plain,
      isBase.proper.names_text]
  have spotNames : Path.normalNames (Path.absolute here (spot.text root)) =
      root.names ++ spot.seen := by
    have absolute : Path.isAbsolute (spot.text root) = true := Spot.isAbsolute_text isBase.absolute
    have read := Spot.ofText_text isBase.absolute proper
    rw [← proper.ofText_text] at read
    rw [Path.absolute, Path.join_of_isAbsolute absolute, Path.normalNames_normal absolute,
      Path.normalNames_eq_of_ofText read,
      CleanPath.normalNames_below isBase.fromRoot isBase.proper isBase.staysDown stays.areNames depth]
    rfl
  rw [Path.relative, rootNames, spotNames, Path.dropCommon_append]
  rfl

/-! ## Worlds with the project -/

namespace World

open Run (LogsFreely)

variable {world world' after : World} {root root' : CleanPath} {path : Text}

/-- No log file that is still written to lies within a folder. -/
def IsUnlogged (world : World) (root : CleanPath) : Prop :=
  ∀ place, world.IsLogged place → Disk.isWithin root.place place = false

/-- A project that stands in a world, without wildcards and log files in its way. -/
structure HasProject (world : World) (path : Text) (root : CleanPath) : Prop where
  taken : Run.ending (Run.projectRoot path) world = (.ok root, world)
  tree : world.disk.IsTree
  isPath : Disk.IsPath root.text
  folder : world.disk.entryAt root.place = some .folder
  plain : Wildcard.hasMagic root.text = false
  unlogged : world.IsUnlogged root
  short : ∀ name ∈ settingsFiles, Disk.Name.size ((Spot.file name).text root) ≤ Disk.pathLimit

theorem HasProject.isBase (project : world.HasProject path root) : world.disk.IsBase root := by
  obtain ⟨fromRoot, proper, staysDown⟩ := Run.root_of_ending_projectRoot project.taken
  exact ⟨project.tree, fromRoot, proper, staysDown, project.isPath, project.folder⟩

theorem HasProject.fits (project : world.HasProject path root) {name : Text}
    (member : name ∈ settingsFiles) : Fits root (Spot.file name) := by
  have isName := isName_of_mem_settingsFiles member
  have plain : ∀ other ∈ [name], other ≠ ".." := by
    revert name
    decide
  refine ⟨⟨by simpa [Spot.file] using isName, ?_⟩, project.short name member⟩
  rw [Spot.file, Path.depth?_of_plain plain]
  rfl

/-- Logging elsewhere leaves a folder as it is. -/
theorem IsUnlogged.copies (unlogged : world.IsUnlogged root) (isBase : world.disk.IsBase root)
    (logs : OnlyLogs world after) : AreCopies world.disk after.disk root root := by
  have same (names : List Text) :
      world.disk.entryAt (root.place ++ names) = after.disk.entryAt (root.place ++ names) := by
    refine (logs.entry _ fun logged => ?_).symm
    have outside := unlogged _ logged
    rw [Disk.isWithin_iff.mpr ⟨names, rfl⟩] at outside
    cases outside
  refine ⟨isBase, { isBase with tree := logs.tree isBase.tree, folder := ?_ }, same⟩
  have folder := same []
  rw [List.append_nil] at folder
  exact folder.symm.trans isBase.folder

/-- Two worlds that hold the same in two folders, and write no log files there. -/
structure AreTwins (root root' : CleanPath) (world world' : World) : Prop where
  copies : AreCopies world.disk world'.disk root root'
  left : world.IsUnlogged root
  right : world'.IsUnlogged root'

theorem AreTwins.logsFreely (root root' : CleanPath) : LogsFreely (AreTwins root root') := by
  intro world world' after after' twins logs logs'
  refine ⟨?_, fun place logged => twins.left place (logs.isLogged logged),
    fun place logged => twins.right place (logs'.isLogged logged)⟩
  exact (twins.left.copies twins.copies.left logs).symm.trans
    (twins.copies.trans (twins.right.copies twins.copies.right logs'))

/-- Two worlds that came from two others by logging. -/
def Beside (start start' world world' : World) : Prop :=
  OnlyLogs start world ∧ OnlyLogs start' world'

theorem Beside.logsFreely (start start' : World) : LogsFreely (Beside start start') :=
  fun _ _ _ _ worlds logs logs' => ⟨worlds.1.trans logs, worlds.2.trans logs'⟩

theorem Beside.twins {start start' : World} (worlds : Beside start start' world world')
    (twins : AreTwins root root' start start') : AreTwins root root' world world' :=
  AreTwins.logsFreely root root' _ _ _ _ twins worlds.1 worlds.2

end World

/-! ## The sources -/

/-- The names that lead from a project to its sources; the last two are patterns. -/
def Settings.sourceLevels (settings : Settings) : List Text :=
  Path.names settings.sourceDir ++ [Glob.everything, "*.ts"]

theorem Settings.sourcePattern_eq {settings : Settings} {root : CleanPath}
    (absolute : root.IsAbsolute) (proper : root.IsProper)
    (relative : Path.isAbsolute settings.sourceDir = false) :
    Path.join (Path.join (settings.within root).sourceDir "**") "*.ts" =
      (root.below settings.sourceLevels).text := by
  have joined := Glob.join_everything (absolute.append settings.sourceDir)
    (proper.append settings.sourceDir) (show Path.IsName ("*.ts" : Text) by decide)
  rw [CleanPath.append_eq_below relative, CleanPath.below_below] at joined
  rw [Settings.within, CleanPath.append_eq_below relative]
  exact joined

/--
Settings with which the sources of a project can be found in another place as well: their
folder lies in the project, no path that the search for them asks for is too long in either
place, and no file that it finds is left out in one place only.
-/
structure World.FindsAlike (world : World) (settings : Settings)
    (root root' : CleanPath) : Prop where
  relative : Path.isAbsolute settings.sourceDir = false
  inside : (Path.depth? 0 (Glob.certain (Path.names settings.sourceDir))).isSome
  short : Glob.AreShort root root'
    (Glob.askedPaths world.disk world.here (root.below settings.sourceLevels).text)
  excluded : ∀ found,
    Glob.search world.disk world.here (root.below settings.sourceLevels).text = .ok found →
    ∀ spot : Spot, spot.text root ∈ found →
      Glob.isExcluded (spot.text root) settings.exclude =
        Glob.isExcluded (spot.text root') settings.exclude

namespace World.FindsAlike

variable {world : World} {settings : Settings} {root root' : CleanPath}

theorem isSearch (finds : world.FindsAlike settings root root') {place : CleanPath}
    (plain : Wildcard.hasMagic place.text = false) :
    Glob.IsSearch place settings.sourceLevels where
  plain := plain
  areNames := by
    rw [Settings.sourceLevels, List.forall_mem_append]
    exact ⟨fun name => Path.isName_of_mem_names, by decide⟩
  magic := by
    rw [Settings.sourceLevels, List.any_append]
    simp [Glob.hasMagic_everything]
  inside := by
    obtain ⟨reached, depth⟩ := Option.isSome_iff_exists.mp finds.inside
    rw [Settings.sourceLevels, Glob.certain_append, Path.depth?_append, depth]
    have last : Glob.certain [Glob.everything, "*.ts"] = ["*.ts"] := by decide
    rw [last]
    exact Option.isSome_iff_exists.mpr
      ⟨reached + 1, Path.depth?_of_ne (by decide) _⟩

end World.FindsAlike

namespace Run

open World (AreTwins Beside OnlyLogs)

variable {environment : Environment} {start start' : World} {root root' : CleanPath}
variable {path path' : Text} {settings : Settings} {spot : Spot}

/-! ## Reading both projects -/

theorem refusal_alike (action path path' : Text) {error error' : DiskError}
    (refused : Disk.RefusedAlike error error') :
    (refusal action path error).Alike (refusal action path' error') := by
  cases refused with
  | refused cause inner inner' => exact .resource _ _ _ _
  | notAPath fault fault' => exact .fault _ _

theorem readText_alike (fits : Fits root spot) (fits' : Fits root' spot) :
    GoAlike (AreTwins root root') Eq (readText (spot.text root)) (readText (spot.text root')) := by
  refine .bind .get fun world world' twins => ?_
  have copies := twins.copies
  have read := copies.readText world.here world'.here fits.withoutSlash fits'.withoutSlash
  rw [Spot.ofText_text copies.left.absolute (copies.left.proper.below fits.areNames),
    Spot.ofText_text copies.right.absolute (copies.right.proper.below fits.areNames)]
  revert read
  change SameOutcome _ _ (world.disk.readText world.here (root.below spot.names).text)
    (world'.disk.readText world'.here (root'.below spot.names).text) → _
  generalize world.disk.readText world.here (root.below spot.names).text = left
  generalize world'.disk.readText world'.here (root'.below spot.names).text = right
  rintro (⟨rfl⟩ | ⟨refused | failure⟩)
  · exact .pure rfl
  · exact .throw (refusal_alike "read" _ _ refused)
  · exact .throw (.same _)

/-- A source is read in both places with the same content and under the same path. -/
theorem readSource_alike (fits : Fits root spot) (fits' : Fits root' spot) :
    GoAlike (AreTwins root root') Eq (readSource root (spot.text root))
      (readSource root' (spot.text root')) := by
  refine .bind (readText_alike fits fits') ?_
  rintro content _ rfl
  refine .bind .get fun world world' twins => .pure ?_
  rw [relative_text twins.copies.left fits.toStays, relative_text twins.copies.right fits.toStays]

theorem configured_alike (twins : AreTwins root root' start start')
    (fits : ∀ name ∈ settingsFiles, Fits root (Spot.file name) ∧ Fits root' (Spot.file name)) :
    GoAlike (Beside start start') Eq (configured root) (configured root') := by
  have free := Beside.logsFreely start start'
  refine .bind .get fun world world' worlds => ?_
  have copies := (worlds.twins twins).copies
  refine .bind (.ofExcept (Package.load_alike world.here world'.here copies fits)) ?_
  rintro package _ rfl
  refine .bind (.ofExcept (Settings.load_alike world.here world'.here copies fits package)) ?_
  rintro settings _ rfl
  exact .bind (.log free) fun _ _ _ => .pure rfl

/-- Two lists of paths to the same spots of two projects. -/
def SpotsAlike (root root' : CleanPath) (found found' : List Text) : Prop :=
  List.Forall₂ (fun path path' => ∃ spot : Spot, path = spot.text root ∧
    path' = spot.text root' ∧ Fits root spot ∧ Fits root' spot) found found'

theorem spotsAlike_map {spots : List Spot}
    (fits : ∀ spot ∈ spots, Fits root spot ∧ Fits root' spot) :
    SpotsAlike root root' (spots.map (Spot.text root)) (spots.map (Spot.text root')) := by
  rw [SpotsAlike, List.forall₂_map_left_iff, List.forall₂_map_right_iff, List.forall₂_same]
  exact fun spot member => ⟨spot, rfl, rfl, fits spot member⟩

section

variable (twins : AreTwins root root' start start')
variable (plain : Wildcard.hasMagic root.text = false)
variable (plain' : Wildcard.hasMagic root'.text = false)
variable (finds : start.FindsAlike settings root root')

include twins plain plain' finds

/-- The sources are found at the same spots of both projects. -/
theorem search_alike :
    GoAlike (Beside start start') (SpotsAlike root root')
      (search (Path.join (Path.join (settings.within root).sourceDir "**") "*.ts") settings.exclude)
      (search (Path.join (Path.join (settings.within root').sourceDir "**") "*.ts")
        settings.exclude) := by
  have own := twins.copies.left
  have other := twins.copies.right
  rw [Settings.sourcePattern_eq own.absolute own.proper finds.relative,
    Settings.sourcePattern_eq other.absolute other.proper finds.relative]
  refine .bind .get fun world world' worlds => .ofExcept ?_
  -- What both worlds hold is compared with what the first one held at the start.
  have here := twins.left.copies own worlds.1
  have there := twins.copies.trans (twins.right.copies other worlds.2)
  have searches := finds.isSearch plain
  have ownShort : Glob.AreShort root root
      (Glob.askedPaths start.disk start.here (root.below settings.sourceLevels).text) :=
    fun spot member => ⟨(finds.short spot member).1, (finds.short spot member).1⟩
  have found := Glob.files_alike world.here settings.exclude here searches searches ownShort
    fun _ _ _ _ => rfl
  have found' := Glob.files_alike world'.here settings.exclude there searches
    (finds.isSearch plain') finds.short finds.excluded
  revert found found'
  generalize Glob.files start.disk start.here (root.below settings.sourceLevels).text
    settings.exclude = given
  generalize Glob.files world.disk world.here (root.below settings.sourceLevels).text
    settings.exclude = left
  generalize Glob.files world'.disk world'.here (root'.below settings.sourceLevels).text
    settings.exclude = right
  rintro (⟨spots, rfl, rfl, -⟩ | _) found'
  · cases found' with
    | ok same =>
        obtain ⟨spots', same, rfl, fits⟩ := same
        rw [same]
        exact .ok (spotsAlike_map fits)
  · cases found' with
    | error _ => exact .error (.fault _ _)

theorem readSources_alike (environment : Environment) :
    GoAlike (Beside start start') Eq (readSources environment root (settings.within root))
      (readSources environment root' (settings.within root')) := by
  have free := Beside.logsFreely start start'
  have each : ∀ path path', (∃ spot : Spot, path = spot.text root ∧ path' = spot.text root' ∧
      Fits root spot ∧ Fits root' spot) →
      GoAlike (Beside start start') Eq (readSource root path) (readSource root' path') := by
    rintro _ _ ⟨spot, rfl, rfl, fits, fits'⟩
    exact (readSource_alike fits fits').narrow (fun _ _ worlds => worlds.twins twins) free
      (keeps_readSource OnlyLogs.isKept root _) (keeps_readSource OnlyLogs.isKept root' _)
  refine .bind (.log free) fun _ _ _ => .bind (search_alike twins plain plain' finds)
    fun found found' spots => .bind (.log free) fun _ _ _ => ?_
  exact (GoAlike.forEach spots each).mono fun _ _ files => List.forall₂_eq_eq_eq ▸ files

end

theorem parseSources_alike {related : World → World → Prop} (free : LogsFreely related)
    (settings : Settings) (files : List TextFile) :
    GoAlike related Eq (parseSources environment (settings.within root) files)
      (parseSources environment (settings.within root') files) := by
  have parsing : ∀ file file' : TextFile, file = file' →
      GoAlike related Eq (logParsing environment file) (logParsing environment file') := by
    rintro file _ rfl
    refine .bind (.log free) fun _ _ _ => ?_
    split
    · exact .log free
    · exact .pure rfl
  refine .bind (.log free) fun _ _ _ =>
    .bind (.discard (.forEach (List.forall₂_same.mpr fun _ _ => rfl) parsing)) fun _ _ _ => ?_
  -- The modules do not depend on where the project stands.
  have same : Module.ofFiles environment.parse (settings.within root') files =
      Module.ofFiles environment.parse (settings.within root) files := rfl
  rw [same]
  split
  · exact .throw (.same _)
  · exact .throw (.same _)
  · exact .bind (.log free) fun _ _ _ => .pure rfl

end Run

end ApiDocs
