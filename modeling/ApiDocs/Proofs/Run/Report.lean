import ApiDocs.Command.Program
import ApiDocs.Proofs.Run.Faults
import ApiDocs.Proofs.Run.Verify

/-!
# What a run reports

A run that does not return modules fails with a sentence, or it ends with a fault that has been
followed to its input.  The program passes this on: it ends with code 0, or with code 1 and the
sentence, unless its log file cannot be opened or its subcommand ends with such a fault.
-/

namespace ApiDocs

variable {links : Bool}

/-- What an order cannot be carried out for: its log file, or the run of its subcommand. -/
inductive Command.OrderFault (environment : Environment) (order : Command.Order)
    (world : World links) : Fault → Prop where
  | log {given : Text} {error : DiskError} : order.logFile = some given →
      (world.disk.append world.here (Path.absolute world.hereText given) []).1 = .error error →
      Command.OrderFault environment order world (.disk error)
  | run {start : World links} {fault : Fault} :
      Run.ending (Run.configureLog order.verbose order.logFile) world = (.ok (), start) →
      RunFault environment order.path start fault →
      Command.OrderFault environment order world fault

namespace Run

variable {environment : Environment} {world : World links} {fault : Fault}

theorem endsIn_subcommand {path : Text} (subcommand : Command.Subcommand)
    (faulty : EndsIn fault (subcommand.run environment path) world) :
    RunFault environment path world fault := by
  cases subcommand with
  | build => exact endsIn_build faulty
  | check => exact endsIn_check faulty

theorem ending_configureLog_none (verbose : Bool) (world : World links) :
    ending (configureLog verbose none) world =
      (.ok (), { world with
        logger := ({ world.logger with sinks := [] } : Logger).configure verbose none }) := rfl

theorem endsIn_configureLog {verbose : Bool} {file : Option Text}
    (faulty : EndsIn fault (configureLog verbose file) world) :
    ∃ given error, file = some given ∧ fault = .disk error ∧
      (world.disk.append world.here (Path.absolute world.hereText given) []).1 = .error error := by
  have faulty := faulty.of_bind_ok (ending_modify _ world)
  have faulty := faulty.of_bind_ok (ending_get _)
  cases file with
  | none =>
      obtain ⟨after, ended⟩ := faulty
      cases ended
  | some given =>
      simp only at faulty
      split at faulty
      · rename_i error disk refused
        cases endsIn_throw faulty
        exact ⟨given, error, rfl, rfl, congrArg Prod.fst refused⟩
      · obtain ⟨after, ended⟩ := faulty
        cases ended

theorem endsIn_order {order : Command.Order} (faulty : EndsIn fault (order.run environment) world) :
    Command.OrderFault environment order world fault := by
  rcases faulty.of_bind with failed | ⟨_, start, configured, faulty⟩
  · obtain ⟨given, error, isGiven, rfl, refused⟩ := endsIn_configureLog failed
    exact .log isGiven refused
  · exact .run configured (endsIn_subcommand order.subcommand faulty)

/-- The ways in which a step ends: with a value, with a foreseen failure, or with a fault. -/
theorem ending_cases {α : Type} (step : RunOn links α) (world : World links) :
    (∃ value, (ending step world).1 = .ok value) ∨
      (∃ failure, (ending step world).1 = .error failure ∧ failure.isForeseen = true) ∨
      ∃ fault, (ending step world).1 = .error (.fault fault) ∧ EndsIn fault step world := by
  rcases ended : ending step world with ⟨result, after⟩
  cases result with
  | ok value => exact .inl ⟨value, rfl⟩
  | error failure =>
      cases failure with
      | settings problem => exact .inr (.inl ⟨_, rfl, rfl⟩)
      | rejected errors => exact .inr (.inl ⟨_, rfl, rfl⟩)
      | examples report => exact .inr (.inl ⟨_, rfl, rfl⟩)
      | resource path sentence => exact .inr (.inl ⟨_, rfl, rfl⟩)
      | fault cause => exact .inr (.inr ⟨cause, rfl, after, ended⟩)

/-- A package description that is not in the encoding is a fault of every run. -/
theorem endsIn_of_undecodable_package {path : Text} {root : CleanPath} {rooted : World links}
    {bytes : List UInt8} {failure : Text.Utf8.Failure} (subcommand : Command.Subcommand)
    (isRoot : ending (projectRoot path) world = (.ok root, rooted))
    (given : rooted.disk.read rooted.here (root.append Package.fileName).text = .ok bytes)
    (undecodable : Text.Utf8.decode bytes = .error failure) :
    EndsIn (.undecodable failure) (subcommand.run environment path) world := by
  have text : rooted.disk.readText rooted.here (root.append Package.fileName).text =
      .error (.undecodable failure) := by
    rw [Disk.readText, given]
    simp only
    rw [undecodable]
  have unread : Package.load rooted.disk rooted.here root =
      .error (.fault (.undecodable failure)) := by
    rw [Package.load, text]
  have stopped : ending (documented environment path) world =
      (.error (.fault (.undecodable failure)), rooted) := by
    rw [documented, ending_bind_of_ok isRoot]
    refine ending_bind_of_error ?_ _
    rw [configured, ending_bind_of_ok (ending_get _)]
    refine ending_bind_of_error ?_ _
    rw [ending_ofExcept, unread]
  cases subcommand with
  | build =>
      refine ⟨rooted, ?_⟩
      rw [Command.Subcommand.run, build_eq]
      exact ending_bind_of_error (ending_bind_of_error stopped _) _
  | check =>
      refine ⟨rooted, ?_⟩
      rw [Command.Subcommand.run, check_eq]
      exact ending_bind_of_error stopped _

end Run

namespace Command

open Run

variable {environment : Environment} {world : World links}

theorem run_of_read {line : List Text} {order : Order} (isRead : read line = .ok order) :
    run environment line world =
      match ending (order.run environment) world with
      | (.ok modules, world) =>
        .withCode 0 ("Documented " ++ Number.intText modules.length ++ " modules\n") world
      | (.error (.fault fault), world) => { exit := .error fault, world }
      | (.error failure, world) => .withCode 1 "" (world.showLine failure.message) := by
  rw [run, isRead]
  rfl

/-- A folder with a package description of one byte, with which no text begins. -/
def unreadableWorld : World :=
  { disk := { entries := [(["package.json"], .file [0xFF])] } }

/-- What is wrong with the package description. -/
def unreadableFailure : Text.Utf8.Failure :=
  { position := 0, bytes := [0xFF], fault := .invalidStart }

/-- An order to check the project in the current folder. -/
def checkOrder : Order :=
  { subcommand := .check, path := ".", verbose := false, logFile := none }

theorem read_check : read ["check"] = .ok checkOrder := by
  decide +kernel

/-- However the log is set up, the byte is a fault of the run. -/
theorem endsIn_of_unreadable (environment : Environment) (subcommand : Subcommand)
    (logger : Logger) :
    EndsIn (.undecodable unreadableFailure) (subcommand.run environment ".")
      { unreadableWorld with logger } := by
  have isRoot : ending (projectRoot ".") { unreadableWorld with logger } =
      (.ok { anchor := .root, names := [] }, { unreadableWorld with logger }) := by
    rfl
  have given : unreadableWorld.disk.read unreadableWorld.here
      (({ anchor := .root, names := [] } : CleanPath).append Package.fileName).text =
        .ok [0xFF] := by
    decide +kernel
  exact endsIn_of_undecodable_package subcommand isRoot given (by decide +kernel)

theorem endsIn_checkOrder (environment : Environment) :
    EndsIn (.undecodable unreadableFailure) (checkOrder.run environment) unreadableWorld := by
  obtain ⟨after, ended⟩ := endsIn_of_unreadable environment .check
    (({ unreadableWorld.logger with sinks := [] } : Logger).configure false none)
  have configured := ending_configureLog_none checkOrder.verbose unreadableWorld
  exact ⟨after, (ending_bind_of_ok configured _).trans ended⟩

end Command

end ApiDocs
