import ApiDocs.Log.Name

/-!
# Log records

A log record has a level, the name of the part that wrote it, and a message.  A sink
takes the records from its own level upwards.  The sinks are at the root of the loggers,
which passes on only records from its threshold upwards; the loggers below it bring their
records to it.
-/

namespace ApiDocs

/-- How important a record is. -/
inductive Level where
  | debug
  | info
  | warning
  | error
  | critical
  deriving DecidableEq, Repr, Inhabited

namespace Level

/-- The levels in their order. -/
def rank : Level → Nat
  | .debug => 10
  | .info => 20
  | .warning => 30
  | .error => 40
  | .critical => 50

/-- The word for a level. -/
def name : Level → Text
  | .debug => "DEBUG"
  | .info => "INFO"
  | .warning => "WARNING"
  | .error => "ERROR"
  | .critical => "CRITICAL"

/-- Whether records of this level pass a threshold. -/
def passes (level threshold : Level) : Bool :=
  threshold.rank ≤ level.rank

end Level

/-- One record. -/
structure Record where
  level : Level
  logger : Text
  message : Text
  deriving DecidableEq, Repr, Inhabited

namespace Record

/-- The record as a line of a log file. -/
def fileLine (record : Record) : Text :=
  record.level.name ++ " " ++ record.logger ++ ": " ++ record.message

/-- The record as a line on the console. -/
def consoleLine (record : Record) : Text :=
  "[" ++ rootLogger ++ "] " ++ record.level.name ++ " " ++ record.message

end Record

/-- Where records go. -/
inductive Target where
  | console
  | file (path : Text)
  deriving DecidableEq, Repr, Inhabited

/-- A target and the level from which on it takes records. -/
structure Sink where
  target : Target
  level : Level
  deriving DecidableEq, Repr, Inhabited

/-- The threshold and the sinks of the root, and what is known of the loggers in use. -/
structure Logger where
  threshold : Level := .critical
  sinks : List Sink := []
  /-- The names in use. -/
  used : List Text := [rootLogger]
  /-- Whether the records of a logger and a level are heeded, as far as it was decided. -/
  decisions : List ((Text × Level) × Bool) := []
  deriving DecidableEq, Repr, Inhabited

namespace Logger

/-- The sink for the console. -/
def consoleSink (verbose : Bool) : Sink :=
  { target := .console, level := if verbose then .debug else .info }

/-- The paths of the files among the targets of the sinks. -/
def files (logger : Logger) : List Text :=
  logger.sinks.filterMap fun sink =>
    match sink.target with
    | .console => none
    | .file path => some path

/--
The logger with the console as its sink and, if there is a path, a file that takes every
record.  The names stay in use, and all is to be decided anew.
-/
def configure (logger : Logger) (verbose : Bool) (file : Option Text) : Logger :=
  match file with
  | none =>
    { threshold := (consoleSink verbose).level, sinks := [consoleSink verbose]
      used := logger.used }
  | some path =>
    { threshold := .debug
      sinks := [consoleSink verbose, { target := .file path, level := .debug }]
      used := logger.used }

/-- Takes a name into use. -/
def use (logger : Logger) (name : Text) : Logger :=
  if logger.used.contains name then logger else { logger with used := logger.used ++ [name] }

/-- A name that was taken into use is in use. -/
theorem mem_used_use (logger : Logger) (name : Text) : name ∈ (logger.use name).used := by
  unfold use
  split
  · rename_i known
    simpa using known
  · simp

/-- Whether the records of a name get to the root. -/
def reachesRoot (logger : Logger) (name : Text) : Bool :=
  LoggerName.isBelowRoot logger.used name

/-- The threshold for the records of a name; away from the root it is at warnings. -/
def thresholdOf (logger : Logger) (name : Text) : Level :=
  if logger.reachesRoot name then logger.threshold else .warning

/--
Whether the records of a name and a level are heeded.  It is decided once, by the
threshold for the name, and holds until the logger is configured again.
-/
def heed (logger : Logger) (name : Text) (level : Level) : Bool × Logger :=
  let logger := logger.use name
  match logger.decisions.lookup (name, level) with
  | some heeded => (heeded, logger)
  | none =>
    let heeded := level.passes (logger.thresholdOf name)
    (heeded, { logger with decisions := ((name, level), heeded) :: logger.decisions })

/-- The sinks that the records of a name get to. -/
def sinksOf (logger : Logger) (name : Text) : List Sink :=
  if logger.reachesRoot name then logger.sinks else []

/-- The targets that a record reaches. -/
def targets (logger : Logger) (record : Record) : List Target :=
  ((logger.sinksOf record.logger).filter fun sink => record.level.passes sink.level).map
    Sink.target

end Logger

end ApiDocs
