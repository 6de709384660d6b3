import ApiDocs.Run.Examples
import ApiDocs.Proofs.Disk.Removal
import ApiDocs.Proofs.Run.Files

/-!
# The folder of the examples is taken away

A check of examples writes into one folder and ends with the removal of that folder, however
it ends.  The folder is written to as a path and removed as a pattern; without wildcards both
mean the same place, and nothing that lies elsewhere is touched.
-/

namespace ApiDocs

open Disk (GoesDown IsPath nowhere target)

namespace Example

/-- The two files that the type checker gets beside the examples. -/
def checkerFiles (folder options : Text) (examples : List TextFile) : List TextFile :=
  [{ path := Path.join folder "index.ts", content := index examples, overwrite := true },
    { path := Path.join folder "tsconfig.json", content := options, overwrite := true }]

/-- The paths to which a check of examples writes. -/
def writtenPaths (folder : Text) (examples : List TextFile) : List Text :=
  Path.join folder "index.ts" :: Path.join folder "tsconfig.json" :: examples.map TextFile.path

theorem mem_writtenPaths_of_checkerFiles {folder options : Text} {examples : List TextFile}
    {file : TextFile} (member : file ∈ checkerFiles folder options examples) :
    file.path ∈ writtenPaths folder examples := by
  rcases List.mem_cons.mp member with rfl | isOptions
  · exact List.mem_cons_self
  · obtain rfl := List.mem_singleton.mp isOptions
    exact List.mem_cons_of_mem _ List.mem_cons_self

theorem mem_writtenPaths {folder : Text} {examples : List TextFile} {file : TextFile}
    (member : file ∈ examples) : file.path ∈ writtenPaths folder examples :=
  List.mem_cons_of_mem _ (List.mem_cons_of_mem _ (List.mem_map_of_mem member))

/-- Whether a file lies directly in a folder. -/
def LiesIn (folder : Text) (file : TextFile) : Prop :=
  ∃ name, Path.IsName name ∧ name ≠ ".." ∧ file.path = Path.join folder name

variable {folder : Text} {file : TextFile} {here place : Location}

/-- A file that lies in a folder has a name there that leads down. -/
theorem LiesIn.exists_name (lies : LiesIn folder file)
    (isPath : IsPath (CleanPath.ofText file.path).text) :
    ∃ name, Path.IsName name ∧ GoesDown name ∧ file.path = Path.join folder name := by
  obtain ⟨name, isName, notUp, inFolder⟩ := lies
  have isPiece : name ∈ Path.pieces (CleanPath.ofText file.path).text := by
    have inNames : name ∈ Path.names (CleanPath.ofText file.path).text := by
      rw [(CleanPath.isProper_ofText file.path).names_text, inFolder,
        CleanPath.ofText_join isName]
      simp
    exact (List.mem_filter.mp inNames).1
  exact ⟨name, isName, Disk.goesDown_of_isName isName notUp (isPath.hasBytes isPiece), inFolder⟩

/-- A file that lies in a folder is written within the place of the folder. -/
theorem LiesIn.isWithin (lies : LiesIn folder file)
    (written : Disk.atPath here (CleanPath.ofText file.path).text place) :
    Disk.isWithin (target here folder) place = true := by
  obtain ⟨isPath, rfl⟩ := written
  obtain ⟨name, isName, down, inFolder⟩ := lies.exists_name isPath
  rw [CleanPath.target_text_ofText, inFolder, Disk.target_join_of_goesDown isName down]
  exact Disk.isWithin_iff.mpr ⟨_, rfl⟩

theorem liesIn_of_mem_checkerFiles {options : Text} {examples : List TextFile}
    (member : file ∈ checkerFiles folder options examples) : LiesIn folder file := by
  rcases List.mem_cons.mp member with rfl | isOptions
  · exact ⟨"index.ts", by decide, by decide, rfl⟩
  · obtain rfl := List.mem_singleton.mp isOptions
    exact ⟨"tsconfig.json", by decide, by decide, rfl⟩

theorem hasMagic_folder {outputDir : Text} (plain : Wildcard.hasMagic outputDir = false) :
    Wildcard.hasMagic (Example.folder outputDir) = false := by
  have name : Wildcard.hasMagic ("examples" : Text) = false := rfl
  have slash : Wildcard.hasMagic (.char '/' :: ("examples" : Text)) = false := rfl
  rw [Example.folder]
  have relative : Path.isAbsolute ("examples" : Text) = false := rfl
  rcases Path.join_eq outputDir relative with ⟨joined, -⟩ | ⟨joined, -, -⟩
  · rw [joined, CleanPath.hasMagic_append, plain, name]
    rfl
  · rw [joined, CleanPath.hasMagic_append, plain, slash]
    rfl

end Example

namespace Run

open World (Evolves OnlyLogs)

variable {links : Bool} {α : Type} {relation : World links → World links → Prop}
variable {environment : Environment} {settings : Settings} {examples : List TextFile}
variable {world after : World links}

/-! ## What a check of examples keeps -/

/-- A relation that is kept, and that neither logging nor calls of the type checker break. -/
structure IsFrame (relation : World links → World links → Prop) : Prop extends IsKept relation where
  logs : ∀ {before after : World links}, OnlyLogs before after → relation before after
  calls : ∀ (world : World links) (calls : List (Call links)), relation world { world with calls }

namespace IsFrame

theorem evolves (files folders : Location → Prop) : IsFrame (@Evolves links files folders) where
  toIsKept := Evolves.isKept files folders
  logs := fun logs => logs.evolves files folders
  calls := fun _ _ => ⟨rfl, fun _ => id, id, fun _ => id, fun _ _ _ => rfl, fun _ _ => id⟩

theorem provided {condition : World links → Prop} (frame : IsFrame relation)
    (stays : ∀ before after, relation before after → condition before → condition after) :
    IsFrame (Provided condition relation) where
  toIsKept := frame.toIsKept.provided stays
  logs := fun logs _ => frame.logs logs
  calls := fun world calls _ => frame.calls world calls

variable (frame : IsFrame relation)

include frame

theorem log (level : Level) (part message : Text) : Keeps relation (Run.log level part message) :=
  fun world => frame.logs (keeps_log level part message world)

theorem callChecker (command executable : Text) (additions : List (Text × Text)) :
    Keeps relation (callChecker environment command executable additions) := by
  refine .bind frame.toIsKept (fun world => frame.calls world _) fun _ => ?_
  split
  · exact .pure frame.toIsKept _
  · exact .throw frame.toIsKept _

variable (written : Keeps relation (writeAll examplesPart examples (environment.writing .examples)))
  (own : ∀ options, Keeps relation (writeAll examplesPart
    (Example.checkerFiles (Example.folder settings.outputDir) options examples)
    (environment.writing .checker)))

include written own

theorem writeAndCheck (command : Text) :
    Keeps relation (writeAndCheck environment command examples settings) := by
  have kept := frame.toIsKept
  exact .bind kept written fun _ => .bind kept (.ofExcept kept _) fun options =>
    .bind kept (own options) fun _ => .bind kept (frame.log _ _ _) fun _ =>
      .bind kept (.get kept) fun _ => frame.callChecker _ _ _

/-- What writing the files and removing the folder keep is kept by a check of the examples. -/
theorem checkExamples (command : Option Text)
    (removed : Keeps relation (remove environment (Example.folder settings.outputDir))) :
    Keeps relation (checkExamples environment command examples settings) := by
  have kept := frame.toIsKept
  unfold Run.checkExamples
  extract_lets folder command
  by_cases none : examples.isEmpty = true
  · rw [if_pos none]
    exact .bind kept (frame.log _ _ _) fun _ => removed
  · rw [if_neg none]
    refine .bind kept (.attempt (frame.writeAndCheck written own command)) fun outcome => ?_
    cases outcome with
    | ok value => exact removed
    | error failure =>
        refine .bind kept (.bind kept (.attempt removed) fun left => ?_) fun _ => .throw kept _
        split
        · exact .pure kept _
        · exact frame.log _ _ _
        · exact .throw kept _

end IsFrame

/-! ## The removal at the end -/

/--
A removal that is not refused removes what a search finds; without wildcards that is at most the
path.
-/
theorem ending_remove_single {path : Text} (plain : Wildcard.hasMagic path = false)
    (allowed : environment.removalRefused = none) (world : World links) :
    ending (remove environment path) world =
      ending (change "remove" path fun disk here =>
        disk.removeEach here (Glob.single disk here path)) (world.noteRemoval path) := by
  have searched : Glob.search world.disk world.here path =
      .ok (Glob.single world.disk world.here path) := by
    rw [Glob.search, if_neg (by simp [plain])]
  rw [ending_remove_of_search allowed searched, ending_change, ending_change]
  rfl

section

variable {name path : Text}

theorem single_join (whole : Symbol.char '/' ∉ name) (nonempty : name ≠ []) (disk : Disk links)
    (here : Location) :
    Glob.single disk here (Path.join path name) =
      if disk.hasName here (Path.join path name) then [Path.join path name] else [] := by
  have last : (Path.split (Path.join path name)).2 ≠ "" := by
    rw [Path.split_join_snd whole]
    exact nonempty
  rw [Glob.single]
  simp only [if_neg last]

variable (isName : Disk.IsName name) (plain : Wildcard.hasMagic (Path.join path name) = false)

include isName plain

/-- After a name in a folder was removed nothing is found there. -/
theorem hasEntry_of_ending_remove
    (removed : ending (remove environment (Path.join path name)) world = (.ok (), after))
    (straight : world.disk.IsStraight world.here (Path.join path name) := by simp) :
    after.disk.hasEntry after.here (Path.join path name) = false := by
  have allowed := removalRefused_of_ending_remove removed
  have shrinks := shrinks_remove environment (Path.join path name) world
  rw [removed] at shrinks
  have staysStraight : after.disk.IsStraight world.here (Path.join path name) :=
    fun place passed => shrinks.noLink (straight place passed)
  rw [ending_remove_single plain allowed, ending_change, World.noteRemoval_disk,
    World.noteRemoval_here, single_join isName.whole isName.nonempty] at removed
  by_cases standing : world.disk.hasName world.here (Path.join path name) = true
  · rw [if_pos standing] at removed
    rcases taken : world.disk.removeEach world.here [Path.join path name] with ⟨outcome, left⟩
    rw [taken] at removed
    cases outcome with
    | error error => cases removed
    | ok value =>
        cases removed
        refine Disk.hasEntry_eq_false_of_entryAt ?_ staysStraight
        refine Disk.entryAt_of_removeEach taken (List.mem_singleton_self _) ?_
          fun other member => List.mem_singleton.mp member ▸ straight
        rw [Disk.target_join_relative _ _ (Path.isAbsolute_of_not_mem isName.whole),
          isName.toIsName.names_eq, Disk.follow_of_isName (by simpa using isName)]
        simp
  · rw [if_neg standing] at removed
    cases removed
    rw [Disk.hasName, Disk.findName_of_straight straight] at standing
    simpa [World.withDisk, Disk.removeEach, Disk.hasEntry] using standing

/-- A name in a folder whose path never climbs can be removed, whether or not it is there. -/
theorem exists_ending_remove (allowed : environment.removalRefused = none)
    (climbs : ∀ other ∈ Path.names path, Disk.Name.stored other ≠ "..") (world : World links)
    (straight : world.disk.IsStraight world.here (Path.join path name) := by simp) :
    ∃ after, ending (remove environment (Path.join path name)) world = (.ok (), after) := by
  rw [ending_remove_single plain allowed, ending_change, World.noteRemoval_disk,
    World.noteRemoval_here, single_join isName.whole isName.nonempty]
  by_cases standing : world.disk.hasName world.here (Path.join path name) = true
  · obtain ⟨left, removed⟩ := Disk.exists_remove_join isName climbs standing straight
    rw [if_pos standing, Disk.removeEach, removed]
    exact ⟨_, rfl⟩
  · rw [if_neg standing]
    exact ⟨_, rfl⟩

end

/-- A check of examples ends with the removal of their folder, after which it only logs. -/
theorem exists_removal_of_ending_checkExamples {command : Option Text}
    {result : Except Failure Unit}
    (ended : ending (checkExamples environment command examples settings) world =
      (result, after)) :
    ∃ before removal last,
      (OnlyLogs world before ∨ ∃ command,
        before = (ending (writeAndCheck environment command examples settings) world).2) ∧
        ending (remove environment (Example.folder settings.outputDir)) before = (removal, last) ∧
        OnlyLogs last after ∧ (result = .ok () → removal = .ok ()) ∧
        (removal = .ok () → after = last) := by
  unfold checkExamples at ended
  extract_lets folder command at ended
  by_cases none : examples.isEmpty = true
  · rw [if_pos none, ending_bind_of_ok (ending_log _ _ _ _)] at ended
    exact ⟨_, result, after, .inl (keeps_log _ _ _ world), ended, .refl after, id, fun _ => rfl⟩
  · rw [if_neg none, ending_bind, ending_attempt] at ended
    rcases checked : ending (writeAndCheck environment command examples settings) world with
      ⟨outcome, before⟩
    rw [checked] at ended
    have reached : ∃ command,
        before = (ending (writeAndCheck environment command examples settings) world).2 :=
      ⟨command, by rw [checked]⟩
    cases outcome with
    | ok value =>
        exact ⟨before, result, after, .inr reached, ended, .refl after, id, fun _ => rfl⟩
    | error failure =>
        rcases removed : ending (remove environment folder) before with ⟨removal, last⟩
        refine ⟨before, removal, last, .inr reached, removed, ?_⟩
        simp only [cleanUp, bind_assoc] at ended
        rw [ending_bind, ending_attempt, removed] at ended
        cases removal with
        | ok value =>
            cases ended
            exact ⟨.refl last, nofun, fun _ => rfl⟩
        | error other =>
            cases other with
            | resource path sentence =>
                cases ended
                exact ⟨keeps_log _ _ _ last, nofun, nofun⟩
            | settings problem =>
                cases ended
                exact ⟨.refl last, nofun, nofun⟩
            | rejected errors =>
                cases ended
                exact ⟨.refl last, nofun, nofun⟩
            | examples report =>
                cases ended
                exact ⟨.refl last, nofun, nofun⟩
            | fault cause =>
                cases ended
                exact ⟨.refl last, nofun, nofun⟩

/--
Whether the present folder is the given one and no path to which a check writes passes a link.
-/
def IsReady (here : Location) (folder : Text) (examples : List TextFile) (world : World links) :
    Prop :=
  world.here = here ∧
    ∀ path ∈ Example.writtenPaths folder examples, world.disk.IsStraight here path

theorem IsReady.of_evolves {here : Location} {folder : Text} {files folders : Location → Prop}
    (ready : IsReady here folder examples world) (evolves : Evolves files folders world after) :
    IsReady here folder examples after :=
  ⟨evolves.here.trans ready.1, fun path member => evolves.straight (ready.2 path member)⟩

/-- The way to a file in the folder is the way to the folder first. -/
theorem IsReady.straight_folder {here : Location} {folder : Text}
    (ready : IsReady here folder examples world) : world.disk.IsStraight here folder :=
  (ready.2 _ List.mem_cons_self).of_join (by decide)

section

variable (lie : ∀ file ∈ examples, Example.LiesIn (Example.folder settings.outputDir) file)

include lie

/-- Writing the files changes only what lies within the folder. -/
theorem keeps_writeExamples (here : Location) :
    (∀ {schedule : WriteSchedule},
      Keeps (Provided (IsReady here (Example.folder settings.outputDir) examples)
        (@Evolves links (Disk.belowPath here (Example.folder settings.outputDir)) nowhere))
        (writeAll examplesPart examples schedule)) ∧
    ∀ options {schedule : WriteSchedule},
      Keeps (Provided (IsReady here (Example.folder settings.outputDir) examples)
        (@Evolves links (Disk.belowPath here (Example.folder settings.outputDir)) nowhere))
        (writeAll examplesPart
          (Example.checkerFiles (Example.folder settings.outputDir) options examples) schedule) := by
  have written {files : List TextFile}
      (lie : ∀ file ∈ files, Example.LiesIn (Example.folder settings.outputDir) file)
      (own : ∀ file ∈ files,
        file.path ∈ Example.writtenPaths (Example.folder settings.outputDir) examples)
      {schedule : WriteSchedule} :
      Keeps (Provided (IsReady here (Example.folder settings.outputDir) examples)
        (@Evolves links (Disk.belowPath here (Example.folder settings.outputDir)) nowhere))
        (writeAll examplesPart files schedule) := by
    intro middle ready
    refine evolves_writeAll_of_paths examplesPart (fun file member _ place atPath => ?_)
      fun file member => ?_
    · rw [ready.1] at atPath
      exact (lie file member).isWithin atPath
    · rw [CleanPath.isStraight_text_ofText, ready.1]
      exact ready.2 _ (own file member)
  exact ⟨written lie fun file => Example.mem_writtenPaths,
    fun options => written (fun file => Example.liesIn_of_mem_checkerFiles)
      fun file => Example.mem_writtenPaths_of_checkerFiles⟩

/-- A check of examples changes only what lies within their folder. -/
theorem evolves_checkExamples
    (plain : Wildcard.hasMagic (Example.folder settings.outputDir) = false)
    (command : Option Text) (world : World links)
    (ready : IsReady world.here (Example.folder settings.outputDir) examples world) :
    Evolves (Disk.belowPath world.here (Example.folder settings.outputDir))
      (Disk.belowPath world.here (Example.folder settings.outputDir)) world
      (ending (checkExamples environment command examples settings) world).2 := by
  -- Where a path leads depends on the present folder, which no step changes.
  have frame : IsFrame (Provided (IsReady world.here (Example.folder settings.outputDir) examples)
      (@Evolves links (Disk.belowPath world.here (Example.folder settings.outputDir))
        (Disk.belowPath world.here (Example.folder settings.outputDir)))) :=
    (IsFrame.evolves _ _).provided fun _ _ evolves ready => ready.of_evolves evolves
  have written := @keeps_writeExamples links settings examples lie world.here
  refine frame.checkExamples
    (written.1.mono fun _ _ kept ready => (kept ready).mono (fun _ => id) fun _ => False.elim)
    (fun options => (written.2 options).mono fun _ _ kept ready =>
      (kept ready).mono (fun _ => id) fun _ => False.elim) command
    (fun middle ready => ?_) world ready
  refine evolves_remove (fun found searched place below => ?_) fun found searched other member => ?_
  · obtain ⟨other, member, inside⟩ := below
    obtain rfl := eq_of_mem_search plain searched member
    rwa [ready.1] at inside
  · obtain rfl := eq_of_mem_search plain searched member
    rw [ready.1]
    exact ready.straight_folder

end

/--
Without wildcards in the folder of the site, and without links on the ways to the files of the
check, a check of examples changes no file and takes away no folder outside of the folder of the
examples, log files apart.  It ends with the removal of that folder, and unless this fails nothing
is left there; it does not fail if the disk lets things be taken away and the path never climbs.
-/
theorem checkExamples_removes_only_folder {command : Option Text} {result : Except Failure Unit}
    (plain : Wildcard.hasMagic settings.outputDir = false)
    (lie : ∀ file ∈ examples, Example.LiesIn (Example.folder settings.outputDir) file)
    (straight : ∀ path ∈ Example.writtenPaths (Example.folder settings.outputDir) examples,
      world.disk.IsStraight world.here path)
    (ended : ending (checkExamples environment command examples settings) world =
      (result, after)) :
    (∀ place, ¬Disk.isWithin (target world.here (Example.folder settings.outputDir)) place →
      (¬world.IsLogged place → after.disk.file? place = world.disk.file? place) ∧
        (world.disk.entryAt place = some .folder → after.disk.entryAt place = some .folder)) ∧
    (∃ before removal last,
      ending (remove environment (Example.folder settings.outputDir)) before = (removal, last) ∧
        OnlyLogs last after ∧ (result = .ok () → removal = .ok ()) ∧
        (removal = .ok () → after = last ∧
          after.disk.hasEntry after.here (Example.folder settings.outputDir) = false)) ∧
    (environment.removalRefused = none →
      (∀ name ∈ Path.names settings.outputDir, Disk.Name.stored name ≠ "..") →
      after.disk.hasEntry after.here (Example.folder settings.outputDir) = false) := by
  have plainFolder := Example.hasMagic_folder plain
  have examplesName : Disk.IsName "examples" := by decide +kernel
  have ready : IsReady world.here (Example.folder settings.outputDir) examples world :=
    ⟨rfl, straight⟩
  obtain ⟨before, removal, last, reached, removed, logs, succeeded, finished⟩ :=
    exists_removal_of_ending_checkExamples ended
  have stillReady : IsReady world.here (Example.folder settings.outputDir) examples before := by
    rcases reached with onlyLogs | ⟨command, rfl⟩
    · exact ready.of_evolves (onlyLogs.evolves nowhere nowhere)
    · have written := @keeps_writeExamples links settings examples lie world.here
      have frame : IsFrame (Provided (IsReady world.here (Example.folder settings.outputDir) examples)
          (@Evolves links (Disk.belowPath world.here (Example.folder settings.outputDir)) nowhere)) :=
        (IsFrame.evolves _ _).provided fun _ _ evolves ready => ready.of_evolves evolves
      exact ready.of_evolves
        (frame.writeAndCheck written.1 (fun options => written.2 options) command world ready)
  have onWay : before.disk.IsStraight before.here (Example.folder settings.outputDir) := by
    rw [stillReady.1]
    exact stillReady.straight_folder
  have gone (removes : removal = .ok ()) :
      after.disk.hasEntry after.here (Example.folder settings.outputDir) = false := by
    rw [finished removes]
    rw [removes] at removed
    exact hasEntry_of_ending_remove examplesName plainFolder removed onWay
  refine ⟨fun place outside => ?_, ?_, fun allowed climbs => ?_⟩
  · have evolves : Evolves _ _ world (ending (checkExamples environment command examples settings)
        world).2 := evolves_checkExamples lie plainFolder command world ready
    rw [ended] at evolves
    exact ⟨evolves.file place outside, evolves.folder place outside⟩
  · exact ⟨before, removal, last, removed, logs, succeeded, fun removes =>
      ⟨finished removes, gone removes⟩⟩
  · obtain ⟨other, alsoRemoved⟩ :=
      exists_ending_remove examplesName plainFolder allowed climbs before onWay
    rw [Example.folder, alsoRemoved] at removed
    exact gone (Prod.mk.inj removed).1.symm

/-- A world with a folder for a site, in which someone keeps a file among the examples. -/
def keptWorld : World :=
  { here := ["p"]
    disk :=
      { entries :=
          [([("p" : Text)], .folder), ([("p" : Text), "docs"], .folder),
            ([("p" : Text), "docs", "index.md"], .file [104]),
            ([("p" : Text), "docs", "examples"], .folder),
            ([("p" : Text), "docs", "examples", "mine.ts"], .file [104])] } }

/-- An example in the folder of the examples of a site. -/
def exampleIn (outputDir : Text) : TextFile :=
  { path := Path.join (Example.folder outputDir) "a.ts", content := "f()\n", overwrite := true }

/-- Without a type checker the check fails, and leaves the home page and no folder of examples. -/
theorem checkExamples_without_checker_removes_folder :
    ∃ failure after,
      ending (checkExamples { parse := fun _ => default, verdict := .missing } none
        [exampleIn "docs"] { outputDir := "docs" }) keptWorld = (.error failure, after) ∧
      after.disk.file? ["p", "docs", "index.md"] = some [104] ∧
      after.disk.hasEntry after.here "docs/examples" = false := by
  have failing : fails (fun _ => true)
      (checkExamples { parse := fun _ => default, verdict := .missing } none
        [exampleIn "docs"] { outputDir := "docs" }) keptWorld = true := by
    decide +kernel
  obtain ⟨failure, after, failed, -⟩ := exists_of_fails failing
  have lie : ∀ file ∈ [exampleIn "docs"], Example.LiesIn (Example.folder "docs") file := by
    intro file member
    rw [List.mem_singleton.mp member]
    exact ⟨"a.ts", by decide, by decide, rfl⟩
  obtain ⟨others, -, removed⟩ :=
    checkExamples_removes_only_folder (by decide) lie (fun _ _ => Disk.isStraight _ _ _) failed
  have notLogged : ¬keptWorld.IsLogged ["p", "docs", "index.md"] :=
    World.not_isLogged_of_noLogs rfl _
  have kept := (others ["p", "docs", "index.md"] (by decide +kernel)).1 notLogged
  exact ⟨failure, after, failed, kept.trans (by decide +kernel), removed rfl (by decide +kernel)⟩

/-- A world in which the folder of the examples is a link to the folder of the sources. -/
def linkedWorld : World true :=
  { here := ["p"]
    disk :=
      { entries :=
          [([("p" : Text)], .folder), ([("p" : Text), "docs"], .folder),
            ([("p" : Text), "docs", "examples"], .link "../src"),
            ([("p" : Text), "src"], .folder),
            ([("p" : Text), "src", "index.ts"], .file [120])] } }

/--
With a wildcard in its name the folder stays, and the folder that fits the pattern is taken away.
Where the folder is a link, files are written to where it leads and only the link is taken away.
-/
theorem checkExamples_removes_another_folder :
    (∃ after,
      ending (checkExamples { parse := fun _ => default } none
        [exampleIn "d[o]cs"] { outputDir := "d[o]cs" }) keptWorld = (.ok (), after) ∧
      after.disk.hasEntry after.here (Example.folder "d[o]cs") = true ∧
      keptWorld.disk.file? ["p", "docs", "examples", "mine.ts"] = some [104] ∧
      after.disk.file? ["p", "docs", "examples", "mine.ts"] = none) ∧
    ∃ after,
      ending (checkExamples { parse := fun _ => default } none
        [exampleIn "docs"] { outputDir := "docs" }) linkedWorld = (.ok (), after) ∧
      linkedWorld.disk.file? ["p", "src", "index.ts"] = some [120] ∧
      after.disk.file? ["p", "src", "index.ts"] ≠ some [120] ∧
      after.disk.entryAt ["p", "docs", "examples"] = none := by
  have checking : succeeds (fun _ after =>
      after.disk.hasEntry after.here (Example.folder "d[o]cs") &&
        (after.disk.file? ["p", "docs", "examples", "mine.ts"]).isNone)
      (checkExamples { parse := fun _ => default } none
        [exampleIn "d[o]cs"] { outputDir := "d[o]cs" }) keptWorld = true := by
    decide +kernel
  have checkingLinked : succeeds (fun _ after =>
      decide (after.disk.file? ["p", "src", "index.ts"] ≠ some [120] ∧
        after.disk.entryAt ["p", "docs", "examples"] = none))
      (checkExamples { parse := fun _ => default } none
        [exampleIn "docs"] { outputDir := "docs" }) linkedWorld = true := by
    decide +kernel
  obtain ⟨value, after, checked, known⟩ := exists_of_succeeds checking
  obtain ⟨stays, gone⟩ := Bool.and_eq_true_iff.mp known
  obtain ⟨value', after', checked', known'⟩ := exists_of_succeeds checkingLinked
  obtain ⟨replaced, unlinked⟩ := of_decide_eq_true known'
  exact ⟨⟨after, checked, stays, by decide +kernel, Option.isNone_iff_eq_none.mp gone⟩,
    after', checked', by decide +kernel, replaced, unlinked⟩

end Run

end ApiDocs
