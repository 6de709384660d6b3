import ApiDocs.Disk.Change
import ApiDocs.Failure
import ApiDocs.Log.Basic
import ApiDocs.Log.Template
import ApiDocs.Run.Pool
import ApiDocs.Tree.Node
import ApiDocs.TextFile

/-!
# What a run works on

A run changes a world: the disk, what was logged and shown, the calls of the type
checker, and what was to be taken away.  What it cannot change is its environment: how
sources are parsed, how the type checker ends, whether the disk lets anything be taken
away, and in which order jobs are done that are handed to the pool.  A run that fails
leaves the world as it was when it failed.

`World` alone is the type of the worlds whose disk has no links, and `Run` that of the steps
in them.  A log file is known by its path, which is taken to lead to one file as long as it is
there; where links on the way to a log file change, the model does not follow what was opened.
-/

namespace ApiDocs

variable {links : Bool}

/-- A call of the type checker, with the disk as it was then. -/
structure Call (links : Bool := false) where
  command : Text
  executable : Text
  /-- The variables that the call adds to its surroundings. -/
  additions : List (Text × Text)
  disk : Disk links
  deriving DecidableEq, Repr, Inhabited

/-- What a run changes. -/
structure World (links : Bool := false) where
  disk : Disk links := {}
  here : Location := []
  logger : Logger := {}
  console : Text := ""
  records : List Record := []
  calls : List (Call links) := []
  /-- The patterns of what was to be taken away. -/
  removals : List Text := []
  /-- The log files that were taken away since they were opened. -/
  lostLogs : List Text := []
  deriving Inhabited

namespace World

/-- The present folder as a path. -/
def hereText (world : World links) : Text :=
  "/" ++ Text.joinWith "/" world.here

/-- Keeps what is to be taken away. -/
def noteRemoval (world : World links) (pattern : Text) : World links :=
  { world with removals := world.removals ++ [pattern] }

/-- Shows a line on the console. -/
def showLine (world : World links) (line : Text) : World links :=
  { world with console := world.console ++ line ++ "\n" }

/--
Replaces the disk.  A log file that does not stand on it any more is lost: what is
written to it later goes nowhere, even if another file is made in its place.
-/
def withDisk (world : World links) (disk : Disk links) : World links :=
  { world with
    disk
    lostLogs := world.logger.files.filter fun path =>
      world.lostLogs.contains path || !disk.hasFile world.here path }

/--
Adds a line at the end of a file; a file that is gone stays gone, and a line for which
there are no bytes is lost.
-/
def addLine (world : World links) (path line : Text) : World links :=
  if world.disk.hasFile world.here path && !world.lostLogs.contains path &&
      (Text.firstHalves? line).isNone then
    { world with
      disk := (world.disk.append world.here path (Text.Utf8.encode (line ++ "\n"))).2 }
  else world

/-- Takes a record to a target. -/
def deliver (record : Record) (world : World links) : Target → World links
  | .console => world.showLine record.consoleLine
  | .file path => world.addLine path record.fileLine

/--
Logs a record, if it is heeded.  For a logger that gets to no sink, the messages of
records from warnings upwards are still shown.
-/
def log (world : World links) (record : Record) : World links :=
  let (heeded, logger) := world.logger.heed record.logger record.level
  let kept := { world with logger, records := world.records ++ [record] }
  if !heeded then kept
  else if (logger.sinksOf record.logger).isEmpty then
    if record.level.passes .warning then kept.showLine record.message else kept
  else (logger.targets record).foldl (deliver record) kept

/--
Logs a message whose placeholders are filled with values; a message that cannot be
filled is lost.
-/
def logFilled (world : World links) (level : Level) (logger message : Text) (values : List Value) :
    World links :=
  match Template.fill message values with
  | .ok message => world.log { level, logger, message }
  | .error _ => { world with logger := (world.logger.heed logger level).2 }

end World

/-- How the type checker ends. -/
inductive Verdict where
  /-- There is no such command. -/
  | missing
  /-- The command is there, but the system refuses to start it. -/
  | refused (error : DiskError)
  /-- It ended, and what it wrote is not in the encoding. -/
  | undecodable (failure : Text.Utf8.Failure)
  /-- It ended with a code and a report. -/
  | finished (code : Int) (report : Text)
  deriving DecidableEq, Repr, Inhabited

/-- What is wrong with the end of a command, if anything. -/
def Verdict.failure? (command : Text) : Verdict → Option Failure
  | .missing =>
    some (.examples ("Type-check executable '" ++ command ++
      "' not found. Install ts-node or adjust PATH."))
  | .refused error => some (.fault (.disk error))
  | .undecodable failure => some (.fault (.undecodable failure))
  | .finished code report => if code = 0 then none else some (.examples report)

/-- What a run cannot change. -/
structure Environment where
  parse : TextFile → Tree
  verdict : Verdict := .finished 0 ""
  onWindows : Bool := false
  /-- Why nothing can be taken away from the disk, if so. -/
  removalRefused : Option Text := none
  /-- How the sources are read. -/
  reading : Schedule := {}
  /-- How each row of files is written. -/
  writing : FileRow → WriteSchedule := fun _ => {}

/-- A step of a run in worlds with or without links. -/
abbrev RunOn (links : Bool) := ExceptT Failure (StateM (World links))

/-- A step of a run. -/
abbrev Run := RunOn false

namespace Run

/-- Logs a message of a part of the program. -/
def log (level : Level) (part message : Text) : RunOn links Unit :=
  modify fun world => world.log { level, logger := loggerName (some part), message }

/-- Goes on with a result, or fails. -/
def ofExcept {α : Type} (result : Except Failure α) : RunOn links α :=
  match result with
  | .ok value => pure value
  | .error failure => throw failure

/-- Lets the failure of a step be a result. -/
def attempt {α : Type} (step : RunOn links α) : RunOn links (Except Failure α) :=
  tryCatch (do return .ok (← step)) fun failure => return .error failure

/-- Opens the log file, if there is one, and replaces the sinks of the logger. -/
def configureLog (verbose : Bool) (file : Option Text) : RunOn links Unit := do
  modify fun world => { world with logger := { world.logger with sinks := [] } }
  let world ← get
  match file with
  | none => set { world with logger := world.logger.configure verbose none }
  | some given =>
    let path := Path.absolute world.hereText given
    match world.disk.append world.here path [] with
    | (.error error, _) => throw (.fault (.disk error))
    | (.ok (), disk) =>
      set
        { world with
          disk
          logger := world.logger.configure verbose (some path)
          lostLogs := [] }

end Run

end ApiDocs
