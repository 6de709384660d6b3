import ApiDocs.Proofs.Disk.Fault
import ApiDocs.Proofs.Module.Merge
import ApiDocs.Proofs.Run.Documented

/-!
# Faults of reading a project

A run ends with modules, with a foreseen failure, or with a fault.  A fault on the way to a
documented project always comes from something that was read: a text that is taken for a path
and is none, links that lead in a circle, bytes of a text file that are not in the encoding, a
document beyond the limits of its reader, a setting that cannot be shown, or a syntax tree that
no declarations can be read from.  This module follows each fault to such an input.
-/

namespace ApiDocs

variable {links : Bool}

/-! ## Kinds of input that a fault comes from -/

/-- A text file that cannot be read: its path is none, or its bytes are not in the encoding. -/
inductive ReadFault (world : World links) (path : Text) : Fault → Prop where
  | path {fault : PathFault} : Disk.pathFault? path = some fault →
      ReadFault world path (.disk (.notAPath fault))
  | bytes {bytes : List UInt8} {failure : Text.Utf8.Failure} :
      world.disk.read world.here path = .ok bytes → Text.Utf8.decode bytes = .error failure →
      ReadFault world path (.undecodable failure)

/-- A JSON document that is well formed as far as it was read, but beyond a limit. -/
def IsBeyondLimit (text : Text) (failure : Json.Failure) : Prop :=
  Json.read text = .error failure ∧
    ∀ problem index line column, failure ≠ .malformed problem index line column

/-- A package description or a settings file that is no valid input for its reader. -/
inductive ConfigFault (world : World links) (root : CleanPath) : Fault → Prop where
  | package {fault : Fault} :
      ReadFault world (root.append Package.fileName).text fault → ConfigFault world root fault
  | packageLimit {text : Text} {failure : Json.Failure} :
      world.disk.readText world.here (root.append Package.fileName).text = .ok text →
      IsBeyondLimit text failure → ConfigFault world root (.document failure)
  | file {file : SettingsFile} {fault : Fault} :
      SettingsFile.find? world.disk world.here root = some file →
      ReadFault world (root.append file.name).text fault → ConfigFault world root fault
  | fileLimit {text : Text} {failure : Json.Failure} :
      SettingsFile.find? world.disk world.here root = some .json →
      world.disk.readText world.here (root.append (SettingsFile.name .json)).text = .ok text →
      IsBeyondLimit text failure → ConfigFault world root (.document failure)
  | scalar {text : Text} {failure : Yaml.Failure} :
      SettingsFile.find? world.disk world.here root = some .yaml →
      world.disk.readText world.here (root.append (SettingsFile.name .yaml)).text = .ok text →
      Yaml.load text = .error failure → failure ≠ .malformed →
      ConfigFault world root (.scalar failure)
  | entry {file : SettingsFile} {entries : Value.Entries} {problem : EntryProblem} :
      SettingsFile.find? world.disk world.here root = some file →
      file.load world.disk world.here root = .ok entries →
      problem ∈ Settings.entryProblems entries → problem.isShowable = false →
      ConfigFault world root .unshowable

/-- What the search for the sources finds in a world. -/
def Settings.sourcesIn (settings : Settings) (world : World links) : Except DiskError (List Text) :=
  Glob.files world.disk world.here (Path.join (Path.join settings.sourceDir "**") "*.ts")
    settings.exclude

/--
Sources that cannot be found, read or understood, up to logging from the given world.  Faults
of a search come from the disk.
-/
inductive SourceFault (environment : Environment) (world : World links) (root : CleanPath)
    (settings : Settings) : Fault → Prop where
  | search {now : World links} {error : DiskError} : world.OnlyLogs now →
      settings.sourcesIn now = .error error →
      SourceFault environment world root settings (.disk error)
  | read {now later : World links} {found : List Text} {path : Text} {fault : Fault} :
      world.OnlyLogs now →
      settings.sourcesIn now = .ok found →
      path ∈ found → now.OnlyLogs later →
      ReadFault later (CleanPath.ofText path).text fault →
      SourceFault environment world root settings fault
  | tree {now later : World links} {found : List Text} {path content : Text} {fault : Fault} :
      world.OnlyLogs now →
      settings.sourcesIn now = .ok found →
      path ∈ found → now.OnlyLogs later →
      later.disk.readText later.here (CleanPath.ofText path).text = .ok content →
      Module.ofFile environment.parse settings
        { path := Path.relative later.hereText path root.text, content } = .error fault →
      SourceFault environment world root settings fault

/-- What a project cannot be documented for. -/
inductive DocumentedFault (environment : Environment) (path : Text) (world : World links) :
    Fault → Prop where
  | root {fault : PathFault} :
      (Path.names path).foldlM
        (Run.nextName (if Path.isAbsolute path then .root else .relative)) [] = .error fault →
      DocumentedFault environment path world (.disk (.notAPath fault))
  | loop : Run.realPath world.disk world.hereText Disk.linkLimit path = none →
      DocumentedFault environment path world (.disk (.refused .tooManyLinks path))
  | config {root : CleanPath} {rooted : World links} {fault : Fault} :
      Run.ending (Run.projectRoot path) world = (.ok root, rooted) →
      ConfigFault rooted root fault → DocumentedFault environment path world fault
  | source {root : CleanPath} {settings : Settings} {rooted now : World links} {fault : Fault} :
      Run.ending (Run.projectRoot path) world = (.ok root, rooted) →
      Run.ending (Run.configured root) rooted = (.ok settings, now) →
      SourceFault environment now root (settings.within root) fault →
      DocumentedFault environment path world fault

namespace Run

open World (OnlyLogs)

variable {α β ι : Type} {environment : Environment} {world : World links} {fault : Fault}

/-! ## Steps that end in a fault -/

/-- The step ends with a fault. -/
def EndsIn (fault : Fault) (step : RunOn links α) (world : World links) : Prop :=
  ∃ after, ending step world = (.error (.fault fault), after)

theorem EndsIn.of_bind {step : RunOn links α} {next : α → RunOn links β}
    (faulty : EndsIn fault (step >>= next) world) :
    EndsIn fault step world ∨ ∃ value middle, ending step world = (.ok value, middle) ∧
      EndsIn fault (next value) middle := by
  obtain ⟨after, ended⟩ := faulty
  rw [ending_bind] at ended
  rcases first : ending step world with ⟨result, middle⟩
  rw [first] at ended
  cases result with
  | ok value => exact .inr ⟨value, middle, rfl, after, ended⟩
  | error failure =>
      cases ended
      exact .inl ⟨after, first⟩

/-- A step that cannot fail leaves the fault to what comes behind it. -/
theorem EndsIn.of_bind_ok {step : RunOn links α} {next : α → RunOn links β} {value : α}
    {middle : World links}
    (faulty : EndsIn fault (step >>= next) world)
    (taken : ending step world = (.ok value, middle)) : EndsIn fault (next value) middle := by
  obtain ⟨after, ended⟩ := faulty
  rw [ending_bind_of_ok taken] at ended
  exact ⟨after, ended⟩

theorem not_endsIn_pure (value : α) : ¬EndsIn fault (pure value : RunOn links α) world := by
  rintro ⟨after, ended⟩
  cases ended

theorem endsIn_ofExcept {result : Except Failure α}
    (faulty : EndsIn fault (ofExcept result) world) :
    result = .error (.fault fault) := by
  obtain ⟨after, ended⟩ := faulty
  rw [ending_ofExcept] at ended
  exact (Prod.mk.inj ended).1

theorem endsIn_throw {failure : Failure}
    (faulty : EndsIn fault (throw failure : RunOn links α) world) :
    failure = .fault fault := by
  obtain ⟨after, ended⟩ := faulty
  cases ended
  rfl

/-- A fault of a row of steps is one of a step, from a world that the row reaches. -/
theorem EndsIn.of_forEach {relation : World links → World links → Prop} (kept : IsKept relation)
    {schedule : Schedule} {step : ι → RunOn links α} {items : List ι}
    (each : ∀ item ∈ items, Keeps relation (step item))
    (faulty : EndsIn fault (forEach schedule step items) world) :
    ∃ item ∈ items, ∃ middle, relation world middle ∧ EndsIn fault (step item) middle := by
  have turns : ∀ {jobs : List (ι × Nat)} {world : World links},
      (∀ job ∈ jobs, Keeps relation (step job.1)) →
      EndsIn fault (takeTurns schedule step jobs) world →
      ∃ job ∈ jobs, ∃ middle, relation world middle ∧ EndsIn fault (step job.1) middle := by
    intro jobs world each faulty
    obtain ⟨after, ended⟩ := faulty
    induction jobs generalizing world after with
    | nil => cases ended
    | cons job rest ih =>
        rcases first : ending (step job.1) world with ⟨failure | value, middle⟩
        · rw [ending_takeTurns_cons_of_error first] at ended
          cases ended
          exact ⟨job, List.mem_cons_self, world, kept.refl world, middle, first⟩
        · rw [ending_takeTurns_cons_of_ok first] at ended
          rcases further : ending (takeTurns schedule step rest) middle with ⟨failure | values, last⟩
            <;> rw [further] at ended <;> cases ended
          have reached := each job List.mem_cons_self world
          rw [first] at reached
          obtain ⟨other, member, start, between, faulty⟩ :=
            ih (fun other member => each other (List.mem_cons_of_mem job member)) last further
          exact ⟨other, List.mem_cons_of_mem job member, start, kept.trans reached between, faulty⟩
  obtain ⟨after, ended⟩ := faulty
  obtain ⟨job, member, middle, reached, faulty⟩ :=
    turns (fun _ member => each _ (Schedule.mem_of_mem_arrange member))
      ⟨after, ending_forEach_eq_error_iff.mp ended⟩
  exact ⟨job.1, Schedule.mem_of_mem_arrange member, middle, reached, faulty⟩

/-! ## Reading the settings -/

theorem readFault_of_notAPath {path : Text} {fault : PathFault}
    (failed : world.disk.readText world.here path = .error (.disk (.notAPath fault))) :
    ReadFault world path (.disk (.notAPath fault)) := by
  rw [Disk.readText] at failed
  split at failed
  · rename_i error read
    cases failed
    exact .path (Disk.pathFault?_of_read read)
  · split at failed <;> cases failed

theorem readFault_of_undecodable {path : Text} {failure : Text.Utf8.Failure}
    (failed : world.disk.readText world.here path = .error (.undecodable failure)) :
    ReadFault world path (.undecodable failure) := by
  rw [Disk.readText] at failed
  split at failed
  · cases failed
  · rename_i bytes read
    split at failed
    · rename_i other decoded
      cases failed
      exact .bytes read decoded
    · cases failed

theorem endsIn_readText {path : Text} (faulty : EndsIn fault (readText path) world) :
    ReadFault world (CleanPath.ofText path).text fault := by
  have faulty := faulty.of_bind_ok (ending_get world)
  split at faulty
  · exact absurd faulty (not_endsIn_pure _)
  · rename_i error failed
    have refused := endsIn_throw faulty
    cases error with
    | refused cause place => cases refused
    | notAPath found =>
        cases refused
        exact readFault_of_notAPath failed
  · rename_i failure failed
    cases endsIn_throw faulty
    exact readFault_of_undecodable failed

theorem of_ending_readText {path content : Text} {after : World links}
    (ended : ending (readText path) world = (.ok content, after)) :
    world = after ∧
      world.disk.readText world.here (CleanPath.ofText path).text = .ok content := by
  rw [readText, ending_bind_of_ok (ending_get world)] at ended
  split at ended
  · rename_i given
    cases ended
    exact ⟨rfl, given⟩
  · cases ended
  · cases ended

theorem configFault_of_package {root : CleanPath}
    (failed : Package.load world.disk world.here root = .error (.fault fault)) :
    ConfigFault world root fault := by
  rw [Package.load] at failed
  split at failed
  · rename_i found
    cases failed
    exact .package (readFault_of_notAPath found)
  · cases failed
  · rename_i found
    cases failed
    exact .package (readFault_of_undecodable found)
  · rename_i text given
    rw [Package.read] at failed
    split at failed
    · cases failed
    · rename_i failure notMalformed read
      cases failed
      exact .packageLimit given ⟨read, fun problem index line column same =>
        notMalformed problem index line column same⟩
    · rename_i entries read
      cases made : Package.ofEntries entries <;> rw [made] at failed <;> cases failed
    · cases failed

theorem configFault_of_document {root : CleanPath} {file : SettingsFile} {text : Text}
    (found : SettingsFile.find? world.disk world.here root = some file)
    (given : world.disk.readText world.here (root.append file.name).text = .ok text)
    (failed : file.document text = .error (.fault fault)) : ConfigFault world root fault := by
  cases file with
  | yaml =>
      rw [SettingsFile.document] at failed
      split at failed
      · cases failed
      · cases failed
      · rename_i failure notMalformed loaded
        cases failed
        exact .scalar found given loaded notMalformed
  | json =>
      rw [SettingsFile.document] at failed
      split at failed
      · cases failed
      · cases failed
      · rename_i failure notMalformed read
        cases failed
        exact .fileLimit found given ⟨read, fun problem index line column same =>
          notMalformed problem index line column same⟩

theorem configFault_of_settings {root : CleanPath} {package : Package}
    (failed : Settings.load world.disk world.here root package = .error (.fault fault)) :
    ConfigFault world root fault := by
  rw [Settings.load] at failed
  split at failed
  · cases failed
  · rename_i file found
    split at failed
    · rename_i failure loaded
      cases failed
      rw [SettingsFile.load] at loaded
      split at loaded
      · rename_i read
        cases loaded
        exact .file found (readFault_of_notAPath read)
      · cases loaded
      · rename_i read
        cases loaded
        exact .file found (readFault_of_undecodable read)
      · rename_i text given
        rw [SettingsFile.entries] at loaded
        split at loaded
        · cases loaded
        · split at loaded
          · rename_i failure document
            cases loaded
            exact configFault_of_document found given document
          · cases loaded
          · cases loaded
          · cases loaded
    · rename_i entries loaded
      rw [Settings.override] at failed
      split at failed
      · cases failed
      · rename_i problems _
        split at failed
        · cases failed
        · rename_i unshown
          cases failed
          rw [List.all_eq_true] at unshown
          push Not at unshown
          obtain ⟨problem, member, hidden⟩ := unshown
          exact .entry found loaded member (by simpa using hidden)

theorem endsIn_configured {root : CleanPath} (faulty : EndsIn fault (configured root) world) :
    ConfigFault world root fault := by
  have faulty := faulty.of_bind_ok (ending_get world)
  rcases faulty.of_bind with failed | ⟨package, middle, taken, faulty⟩
  · exact configFault_of_package (endsIn_ofExcept failed)
  · rw [ending_ofExcept, Prod.mk.injEq] at taken
    obtain ⟨-, rfl⟩ := taken
    rcases faulty.of_bind with failed | ⟨settings, last, taken, faulty⟩
    · exact configFault_of_settings (endsIn_ofExcept failed)
    · have faulty := faulty.of_bind_ok (ending_log _ _ _ _)
      exact absurd faulty (not_endsIn_pure _)

/-! ## Reading and parsing the sources -/

theorem endsIn_readSource {root : CleanPath} {path : Text}
    (faulty : EndsIn fault (readSource root path) world) :
    ReadFault world (CleanPath.ofText path).text fault := by
  rcases faulty.of_bind with failed | ⟨content, middle, -, faulty⟩
  · exact endsIn_readText failed
  · have faulty := faulty.of_bind_ok (ending_get middle)
    exact absurd faulty (not_endsIn_pure _)

theorem not_endsIn_log {level : Level} {part message : Text} :
    ¬EndsIn fault (log level part message) world := by
  rintro ⟨after, ended⟩
  cases ended

/-- Reading the sources searches for them, and then reads what was found. -/
theorem readSources_cases (environment : Environment) (root : CleanPath) (settings : Settings)
    (world : World links) :
    ∃ now, OnlyLogs world now ∧
      ((∃ error, settings.sourcesIn now = .error error ∧
          ending (readSources environment root settings) world =
            (.error (.fault (.disk error)), now)) ∨
        ∃ found start, settings.sourcesIn now = .ok found ∧ OnlyLogs now start ∧
          ending (readSources environment root settings) world =
            ending (forEach environment.reading (readSource root) found) start) := by
  refine ⟨_, keeps_log .info mainPart "Reading sources..." world, ?_⟩
  rw [readSources, ending_bind_of_ok (ending_log _ _ _ _), ending_bind, search,
    ending_bind_of_ok (ending_get _), ending_ofExcept]
  cases searched : settings.sourcesIn
      (ending (log .info mainPart "Reading sources...") world).2 with
  | error error =>
      rw [Settings.sourcesIn, ending_log] at searched
      rw [searched]
      exact .inl ⟨error, rfl, rfl⟩
  | ok found =>
      rw [Settings.sourcesIn, ending_log] at searched
      rw [searched]
      exact .inr ⟨found, _, rfl, keeps_log .debug mainPart _ _, rfl⟩

theorem endsIn_readSources {root : CleanPath} {settings : Settings}
    (faulty : EndsIn fault (readSources environment root settings) world) :
    SourceFault environment world root settings fault := by
  obtain ⟨now, logged, ⟨error, searched, ended⟩ | ⟨found, start, given, counted, same⟩⟩ :=
    readSources_cases environment root settings world
  · obtain ⟨after, failed⟩ := faulty
    rw [ended] at failed
    cases failed
    exact .search logged searched
  · have faulty : EndsIn fault (forEach environment.reading (readSource root) found) start := by
      rwa [EndsIn, ← same]
    obtain ⟨path, member, later, between, faulty⟩ := faulty.of_forEach OnlyLogs.isKept
      fun path _ => keeps_readSource OnlyLogs.isKept root path
    exact .read logged given member (counted.trans between) (endsIn_readSource faulty)

/-- Each source that was read has a path that was found, and the text that stands there. -/
theorem exists_found_of_ending_readSources {root : CleanPath} {settings : Settings}
    {files : List TextFile} {after : World links}
    (ended : ending (readSources environment root settings) world = (.ok files, after))
    {file : TextFile} (member : file ∈ files) :
    ∃ now found path later content, OnlyLogs world now ∧ settings.sourcesIn now = .ok found ∧
      path ∈ found ∧ OnlyLogs now later ∧
      later.disk.readText later.here (CleanPath.ofText path).text = .ok content ∧
      file = { path := Path.relative later.hereText path root.text, content } := by
  obtain ⟨now, logged, ⟨error, -, failed⟩ | ⟨found, start, given, counted, same⟩⟩ :=
    readSources_cases environment root settings world
  · rw [failed] at ended
    cases ended
  · rw [same] at ended
    have each := forall₂_of_ending_forEach OnlyLogs.isKept
      (fun path _ => keeps_readSource OnlyLogs.isKept root path) ended
    obtain ⟨path, inFound, later, last, between, read⟩ := exists_of_mem_forall₂ each member
    obtain ⟨content, middle, taken, read⟩ := ending_bind_eq_ok_iff.mp read
    obtain ⟨rfl, given'⟩ := of_ending_readText taken
    rw [ending_bind_of_ok (ending_get _), ending_pure, Prod.mk.injEq, Except.ok.injEq] at read
    exact ⟨now, found, path, _, content, logged, given, inFound, counted.trans between, given',
      read.1.symm⟩

theorem endsIn_parseSources {settings : Settings} {files : List TextFile}
    (faulty : EndsIn fault (parseSources environment settings files) world) :
    ∃ file ∈ files, Module.ofFile environment.parse settings file = .error fault := by
  have faulty := faulty.of_bind_ok (ending_log _ _ _ _)
  rcases faulty.of_bind with failed | ⟨value, middle, -, faulty⟩
  · rcases failed.of_bind with failed | ⟨_, _, -, failed⟩
    · obtain ⟨file, -, between, -, failed⟩ := failed.of_forEach OnlyLogs.isKept
        fun file _ => keeps_logParsing file
      have failed := failed.of_bind_ok (ending_log _ _ _ _)
      split at failed
      · exact absurd failed not_endsIn_log
      · exact absurd failed (not_endsIn_pure _)
    · exact absurd failed (not_endsIn_pure _)
  · split at faulty
    · rename_i found made
      cases endsIn_throw faulty
      obtain ⟨before, file, after, rfl, -, failed⟩ := Module.ofAllProvided_eq_error_iff.mp made
      exact ⟨file, List.mem_append_right before List.mem_cons_self, failed⟩
    · cases endsIn_throw faulty
    · have faulty := faulty.of_bind_ok (ending_log _ _ _ _)
      exact absurd faulty (not_endsIn_pure _)

/-- A project is documented, or fails for its settings or its sources. -/
theorem endsIn_documented {path : Text}
    (faulty : EndsIn fault (documented environment path) world) :
    DocumentedFault environment path world fault := by
  rcases faulty.of_bind with failed | ⟨root, rooted, isRoot, faulty⟩
  · have failed := failed.of_bind_ok (ending_get world)
    simp only at failed
    split at failed
    · split at failed
      · exact absurd failed (not_endsIn_pure _)
      · rename_i endless
        cases endsIn_throw failed
        exact .loop endless
    · rename_i found followed
      cases endsIn_throw failed
      exact .root followed
  · rcases faulty.of_bind with failed | ⟨settings, now, isConfigured, faulty⟩
    · exact .config isRoot (endsIn_configured failed)
    · refine .source isRoot isConfigured ?_
      rcases faulty.of_bind with failed | ⟨files, read, areRead, faulty⟩
      · exact endsIn_readSources failed
      · rcases faulty.of_bind with failed | ⟨modules, last, -, faulty⟩
        · obtain ⟨file, member, failed⟩ := endsIn_parseSources failed
          obtain ⟨found, paths, path, later, content, logged, given, inFound, between, text, rfl⟩ :=
            exists_found_of_ending_readSources areRead member
          exact .tree logged given inFound between text failed
        · exact absurd faulty (not_endsIn_pure _)

end Run

end ApiDocs
