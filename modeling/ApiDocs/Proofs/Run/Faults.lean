import ApiDocs.Proofs.Run.Failures
import ApiDocs.Proofs.Run.ReadFaults
import ApiDocs.Proofs.Run.Scratch

/-!
# Faults of a run

Once a project is documented, a fault comes from a text that is taken for a path and is none,
from a text with halves of pairs that is to be written, from a search that the disk stops, from
a type checker that cannot be started or read, or from a configuration of the site that cannot
be read.
-/

namespace ApiDocs

variable {links : Bool}

/-! ## Kinds of output that a fault comes from -/

/-- A text file that cannot be written: its path is none, or there are no bytes for its text. -/
inductive WriteFault (file : TextFile) : Fault → Prop where
  | path {fault : PathFault} : Disk.pathFault? file.path ≠ none →
      WriteFault file (.disk (.notAPath fault))
  | content {halves : Text.Halves} : Text.firstHalves? file.content = some halves →
      WriteFault file (.unencodable halves)

/-- A pattern that cannot be searched for, or that leads to something with a path that is none. -/
inductive RemovalFault (world : World links) (pattern : Text) : Fault → Prop where
  | search {error : DiskError} : Glob.search world.disk world.here pattern = .error error →
      RemovalFault world pattern (.disk error)
  | found {found : List Text} {path : Text} {fault : PathFault} :
      Glob.search world.disk world.here pattern = .ok found → path ∈ found →
      Disk.pathFault? path = some fault → RemovalFault world pattern (.disk (.notAPath fault))

/-- A type checker that the system refuses to start, or whose output is not in the encoding. -/
inductive VerdictFault : Verdict → Fault → Prop where
  | refused (error : DiskError) : VerdictFault (.refused error) (.disk error)
  | undecodable (failure : Text.Utf8.Failure) :
      VerdictFault (.undecodable failure) (.undecodable failure)

/--
Examples, or files for the type checker, that cannot be written, or a type checker that cannot
be started or read.
-/
inductive ExampleFault (verdict : Verdict) (settings : Settings) (examples : List TextFile) :
    Fault → Prop where
  | example {file : TextFile} {fault : Fault} : file ∈ examples → WriteFault file fault →
      ExampleFault verdict settings examples fault
  | options {problem : Json.Unwritable} :
      Example.options settings.exampleOptions = .error problem →
      ExampleFault verdict settings examples (.unwritable problem)
  | checker {options : Text} {file : TextFile} {fault : Fault} :
      Example.options settings.exampleOptions = .ok options →
      file ∈ Example.checkerFiles (Example.folder settings.outputDir) options examples →
      WriteFault file fault → ExampleFault verdict settings examples fault
  | verdict {fault : Fault} : examples ≠ [] → VerdictFault verdict fault →
      ExampleFault verdict settings examples fault

namespace Run

open World (OnlyLogs)

variable {α β ι : Type} {environment : Environment} {world : World links} {fault : Fault}

/-! ## Writing and removing -/

theorem endsIn_change {action path : Text} {changed : Disk links → Location → Disk.Changed links}
    (faulty : EndsIn fault (change action path changed) world) :
    ∃ found, fault = .disk (.notAPath found) ∧
      (changed world.disk world.here).1 = .error (.notAPath found) := by
  obtain ⟨after, ended⟩ := faulty
  rw [ending_change] at ended
  cases outcome : (changed world.disk world.here).1 with
  | ok value =>
      rw [outcome] at ended
      cases ended
  | error error =>
      rw [outcome] at ended
      cases error with
      | refused cause place => cases ended
      | notAPath found =>
          cases ended
          exact ⟨found, rfl, rfl⟩

theorem endsIn_writeText {file : TextFile}
    (faulty : EndsIn fault (writeText file.path file.content) world) : WriteFault file fault := by
  have ofChange {bytes : List UInt8}
      (faulty : EndsIn fault (change "write" file.path fun disk here =>
        disk.write here file.path bytes) world) : WriteFault file fault := by
    obtain ⟨found, rfl, refused⟩ := endsIn_change faulty
    exact .path (Disk.pathFault?_of_write refused)
  rw [writeText] at faulty
  split at faulty
  · exact ofChange faulty
  · rename_i halves unencodable
    rcases faulty.of_bind with failed | ⟨_, _, -, faulty⟩
    · exact ofChange failed
    · cases endsIn_throw faulty
      exact .content unencodable

theorem endsIn_writeAll {part : Text} {files : List TextFile} {schedule : WriteSchedule}
    (faulty : EndsIn fault (writeAll part files schedule) world) :
    ∃ file ∈ files, WriteFault file fault := by
  obtain ⟨middle, taken, -⟩ := ending_dueFiles schedule.checks part files world
  have faulty := faulty.of_bind_ok taken
  rcases faulty.of_bind with failed | ⟨_, _, -, faulty⟩
  · have kept : IsKept fun _ _ : World links => True := ⟨fun _ => trivial, fun _ _ => trivial⟩
    obtain ⟨file, member, start, -, failed⟩ := failed.of_forEach kept fun _ _ _ => trivial
    exact ⟨file, List.mem_of_mem_filter member, endsIn_writeText failed⟩
  · exact absurd faulty (not_endsIn_pure _)

theorem endsIn_remove {pattern : Text} (faulty : EndsIn fault (remove environment pattern) world) :
    RemovalFault world pattern fault := by
  have faulty := faulty.of_bind_ok (ending_modify _ world)
  split at faulty
  · cases endsIn_throw faulty
  · rcases faulty.of_bind with failed | ⟨found, middle, taken, faulty⟩
    · have failed := endsIn_ofExcept (failed.of_bind_ok (ending_get _))
      rw [World.noteRemoval_disk, World.noteRemoval_here] at failed
      cases searched : Glob.search world.disk world.here pattern with
      | ok found =>
          rw [searched] at failed
          cases failed
      | error error =>
          rw [searched] at failed
          cases failed
          exact .search searched
    · rw [matching, ending_bind_of_ok (ending_get _), ending_ofExcept, World.noteRemoval_disk,
        World.noteRemoval_here, Prod.mk.injEq] at taken
      obtain ⟨given, rfl⟩ := taken
      obtain ⟨error, rfl, refused⟩ := endsIn_change faulty
      obtain ⟨path, member, isFault⟩ := Disk.exists_pathFault?_of_removeEach refused
      cases searched : Glob.search world.disk world.here pattern with
      | error error =>
          rw [searched] at given
          cases given
      | ok paths =>
          rw [searched] at given
          cases given
          exact .found searched member isFault

/-! ## Checking the examples -/

theorem verdictFault_of_failure? {command : Text} {verdict : Verdict}
    (failed : verdict.failure? command = some (.fault fault)) : VerdictFault verdict fault := by
  cases verdict with
  | missing => cases failed
  | refused error =>
      cases failed
      exact .refused error
  | undecodable failure =>
      cases failed
      exact .undecodable failure
  | finished code report =>
      rw [Verdict.failure?] at failed
      split at failed <;> cases failed

theorem endsIn_callChecker {command executable : Text} {additions : List (Text × Text)}
    (faulty : EndsIn fault (callChecker environment command executable additions) world) :
    VerdictFault environment.verdict fault := by
  have faulty := faulty.of_bind_ok (ending_modify _ world)
  split at faulty
  · exact absurd faulty (not_endsIn_pure _)
  · rename_i failed
    cases endsIn_throw faulty
    exact verdictFault_of_failure? failed

theorem endsIn_writeAndCheck {command : Text} {examples : List TextFile} {settings : Settings}
    (nonempty : examples ≠ [])
    (faulty : EndsIn fault (writeAndCheck environment command examples settings) world) :
    ExampleFault environment.verdict settings examples fault := by
  rcases faulty.of_bind with failed | ⟨_, first, -, faulty⟩
  · obtain ⟨file, member, failed⟩ := endsIn_writeAll failed
    exact .example member failed
  · rcases faulty.of_bind with failed | ⟨options, second, taken, faulty⟩
    · have failed := endsIn_ofExcept failed
      cases made : Example.options settings.exampleOptions with
      | ok options =>
          rw [made] at failed
          cases failed
      | error problem =>
          rw [made] at failed
          cases failed
          exact .options made
    · rw [ending_ofExcept, Prod.mk.injEq] at taken
      have made : Example.options settings.exampleOptions = .ok options := by
        cases made : Example.options settings.exampleOptions with
        | ok other =>
            rw [made] at taken
            cases taken.1
            rfl
        | error problem =>
            rw [made] at taken
            cases taken.1
      rcases faulty.of_bind with failed | ⟨_, third, -, faulty⟩
      · obtain ⟨file, member, failed⟩ := endsIn_writeAll failed
        exact .checker made member failed
      · have faulty := faulty.of_bind_ok (ending_log _ _ _ _)
        have faulty := faulty.of_bind_ok (ending_get _)
        exact .verdict nonempty (endsIn_callChecker faulty)

/-- Everything that a check of examples does before it removes their folder. -/
def beforeRemoval (environment : Environment) (project : Project) : RunOn links Unit :=
  if project.examples.isEmpty then
    log .debug examplesPart
      ("No examples found, removing " ++ Example.folder project.settings.outputDir)
  else
    discard (attempt
      (writeAndCheck environment (defaultCommand environment) project.examples project.settings))

theorem endsIn_checkExamples {project : Project}
    (faulty : EndsIn fault
      (checkExamples environment none project.examples project.settings) world) :
    ExampleFault environment.verdict project.settings project.examples fault ∨
      ∃ now, ending (beforeRemoval environment project) world = (.ok (), now) ∧
        RemovalFault now (Example.folder project.settings.outputDir) fault := by
  unfold checkExamples at faulty
  extract_lets folder command at faulty
  unfold beforeRemoval
  by_cases nothing : project.examples.isEmpty = true
  · rw [if_pos nothing] at faulty ⊢
    exact .inr ⟨_, rfl, endsIn_remove (faulty.of_bind_ok (ending_log _ _ _ _))⟩
  · rw [if_neg nothing] at faulty ⊢
    rcases checked : ending
        (writeAndCheck environment command project.examples project.settings) world with
      ⟨outcome, now⟩
    have attempted : ending
        (attempt (writeAndCheck environment command project.examples project.settings)) world =
          (.ok outcome, now) := by
      rw [ending_attempt, checked]
    have before : ending (discard (attempt
        (writeAndCheck environment command project.examples project.settings))) world =
          (.ok (), now) :=
      ending_bind_of_ok attempted _
    have faulty := faulty.of_bind_ok attempted
    cases outcome with
    | ok value => exact .inr ⟨now, before, endsIn_remove faulty⟩
    | error failure =>
        rcases faulty.of_bind with failed | ⟨_, _, -, faulty⟩
        · rcases removed : ending (remove environment folder) now with ⟨removal, last⟩
          have attempted : ending (attempt (remove environment folder)) now =
              (.ok removal, last) := by
            rw [ending_attempt, removed]
          have failed := failed.of_bind_ok attempted
          cases removal with
          | ok value => exact absurd failed (not_endsIn_pure _)
          | error other =>
              cases other with
              | resource path sentence => exact absurd failed not_endsIn_log
              | settings problem => cases endsIn_throw failed
              | rejected errors => cases endsIn_throw failed
              | examples report => cases endsIn_throw failed
              | fault cause =>
                  cases endsIn_throw failed
                  exact .inr ⟨now, before, endsIn_remove ⟨last, removed⟩⟩
        · cases endsIn_throw faulty
          exact .inl (endsIn_writeAndCheck (by simpa using nothing) ⟨now, checked⟩)

/-! ## Whole runs -/

theorem endsIn_configFile {settings : Settings}
    (faulty : EndsIn fault (configFile settings) world) :
    ReadFault world (CleanPath.ofText (Site.configPath settings.outputDir)).text fault := by
  have faulty := faulty.of_bind_ok (ending_bind_of_ok (ending_get world) _)
  split at faulty
  · rcases faulty.of_bind with failed | ⟨_, _, -, faulty⟩
    · exact endsIn_readText failed
    · exact absurd faulty (not_endsIn_pure _)
  · exact absurd faulty (not_endsIn_pure _)

end Run

/--
What the fault of a run comes from: the project cannot be documented, its examples cannot be
written, the type checker not be started or read, or the folder of the examples not be searched
for, or, if it is a build, the configuration of the site cannot be read, the stale pages not be
searched for, or the site not be written.
-/
inductive RunFault (environment : Environment) (path : Text) (world : World links) :
    Fault → Prop where
  | documented {fault : Fault} : DocumentedFault environment path world fault →
      RunFault environment path world fault
  | examples {project : Project} {read : World links} {fault : Fault} :
      Run.ending (Run.documented environment path) world = (.ok project, read) →
      ExampleFault environment.verdict project.settings project.examples fault →
      RunFault environment path world fault
  | folder {project : Project} {read start now : World links} {fault : Fault} :
      Run.ending (Run.documented environment path) world = (.ok project, read) →
      read.OnlyLogs start → Run.ending (Run.beforeRemoval environment project) start = (.ok (), now) →
      RemovalFault now (Example.folder project.settings.outputDir) fault →
      RunFault environment path world fault
  | config {project : Project} {read verified now : World links} {fault : Fault} :
      Run.ending (Run.documented environment path) world = (.ok project, read) →
      Run.ending (Run.verify environment project) read = (.ok (), verified) →
      verified.OnlyLogs now →
      ReadFault now (CleanPath.ofText (Site.configPath project.settings.outputDir)).text fault →
      RunFault environment path world fault
  | stale {project : Project} {files : List TextFile} {planned now : World links} {fault : Fault} :
      Run.ending (Run.planned environment path) world = (.ok (project, files), planned) →
      planned.OnlyLogs now →
      RemovalFault now (Site.stalePattern project.settings.outputDir) fault →
      RunFault environment path world fault
  | site {project : Project} {files : List TextFile} {planned : World links} {file : TextFile}
      {fault : Fault} :
      Run.ending (Run.planned environment path) world = (.ok (project, files), planned) →
      file ∈ files → WriteFault file fault → RunFault environment path world fault

namespace Run

theorem endsIn_verify {path : Text} {project : Project} {read : World links}
    (documented : ending (documented environment path) world = (.ok project, read))
    (faulty : EndsIn fault (verify environment project) read) :
    RunFault environment path world fault := by
  have logged := keeps_log .info mainPart "Type checking examples..." read
  have faulty := faulty.of_bind_ok (ending_log _ _ _ _)
  rcases endsIn_checkExamples faulty with written | ⟨now, before, removed⟩
  · exact .examples documented written
  · exact .folder documented logged before removed

theorem endsIn_planned {path : Text} (faulty : EndsIn fault (planned environment path) world) :
    RunFault environment path world fault := by
  rcases faulty.of_bind with failed | ⟨project, read, documented, faulty⟩
  · exact .documented (endsIn_documented failed)
  · rcases faulty.of_bind with failed | ⟨files, _, -, faulty⟩
    · rcases failed.of_bind with failed | ⟨_, verified, isVerified, failed⟩
      · exact endsIn_verify documented failed
      · have logged := keeps_log .info mainPart "Creating markdown files..." verified
        have failed := failed.of_bind_ok (ending_log _ _ _ _)
        rcases failed.of_bind with failed | ⟨_, _, -, failed⟩
        · exact .config documented isVerified logged (endsIn_configFile failed)
        · exact absurd failed (not_endsIn_pure _)
    · exact absurd faulty (not_endsIn_pure _)

theorem endsIn_build {path : Text} (faulty : EndsIn fault (build environment path) world) :
    RunFault environment path world fault := by
  rw [build_eq] at faulty
  rcases faulty.of_bind with failed | ⟨⟨project, files⟩, planned, isPlanned, faulty⟩
  · exact endsIn_planned failed
  · rcases faulty.of_bind with failed | ⟨_, _, -, faulty⟩
    · have logged := keeps_log .info mainPart "Writing markdown files..." planned
      have failed := failed.of_bind_ok (ending_log _ _ _ _)
      rcases failed.of_bind with failed | ⟨_, _, -, failed⟩
      · exact .stale isPlanned logged (endsIn_remove failed)
      · rcases failed.of_bind with failed | ⟨_, _, -, failed⟩
        · obtain ⟨file, member, failed⟩ := endsIn_writeAll failed
          exact .site isPlanned member failed
        · exact absurd failed not_endsIn_log
    · exact absurd faulty (not_endsIn_pure _)

theorem endsIn_check {path : Text} (faulty : EndsIn fault (check environment path) world) :
    RunFault environment path world fault := by
  rw [check_eq] at faulty
  rcases faulty.of_bind with failed | ⟨project, read, documented, faulty⟩
  · exact .documented (endsIn_documented failed)
  · rcases faulty.of_bind with failed | ⟨_, verified, -, faulty⟩
    · exact endsIn_verify documented failed
    · have faulty := faulty.of_bind_ok (ending_log _ _ _ _)
      exact absurd faulty (not_endsIn_pure _)

end Run

end ApiDocs
