import ApiDocs.Disk.Text
import ApiDocs.Glob.Search
import ApiDocs.Run.World
import ApiDocs.Site.Pages

/-!
# Files in a run

Reading, writing, finding and removing files.  A refusal of the disk becomes a failure
that names the path.  Reading or writing several files is done in the turns of a schedule,
up to the first failure, which is reported.  Writing first looks which of the files are
there: all of this is handed to the pool before any writing is, and is over before it.
-/

namespace ApiDocs.Run

variable {links : Bool}

/-- The failure for a refused access. -/
def refusal (action path : Text) : DiskError → Failure
  | .notAPath fault => .fault (.disk (.notAPath fault))
  | error => .resource path ("Unable to " ++ action ++ " " ++ path ++ ": " ++ error.message)

/-- Reads a text file. -/
def readText (path : Text) : RunOn links Text := do
  let world ← get
  match world.disk.readText world.here (CleanPath.ofText path).text with
  | .ok text => return text
  | .error (.disk error) => throw (refusal "read" path error)
  | .error (.undecodable failure) => throw (.fault (.undecodable failure))

/-- Changes the disk, or fails. -/
def change (action path : Text) (changed : Disk links → Location → Disk.Changed links) :
    RunOn links Unit := do
  let world ← get
  let (outcome, disk) := changed world.disk world.here
  set (world.withDisk disk)
  match outcome with
  | .ok () => return ()
  | .error error => throw (refusal action path error)

/-- Writes a text file; one for which there are no bytes is left empty. -/
def writeText (path content : Text) : RunOn links Unit :=
  match Text.firstHalves? content with
  | none =>
    change "write" path fun disk here => disk.write here path (Text.Utf8.encode content)
  | some halves => do
    change "write" path fun disk here => disk.write here path []
    throw (.fault (.unencodable halves))

/-- Whether something stands where the path leads. -/
def exists? (path : Text) : RunOn links Bool := do
  let world ← get
  return world.disk.hasEntry world.here path

/-- The paths to which a pattern leads. -/
def matching (pattern : Text) : RunOn links (List Text) := do
  let world ← get
  ofExcept ((Glob.search world.disk world.here pattern).mapError (.fault ∘ .disk))

/-- Takes away everything to which a pattern leads. -/
def remove (environment : Environment) (pattern : Text) : RunOn links Unit := do
  modify fun world => world.noteRemoval pattern
  match environment.removalRefused with
  | some reason => throw (.resource pattern ("Unable to remove " ++ pattern ++ ": " ++ reason))
  | none => do
    let paths ← matching pattern
    change "remove" pattern fun disk here => disk.removeEach here paths

/-- The files to which a pattern leads, without those left out, in order. -/
def search (pattern : Text) (exclude : List Text) : RunOn links (List Text) := do
  let world ← get
  ofExcept ((Glob.files world.disk world.here pattern exclude).mapError (.fault ∘ .disk))

/-- Takes a step for those of some jobs that are under way, whether or not one fails. -/
def finish {α β : Type} (schedule : Schedule) (step : α → RunOn links β) :
    List (α × Nat) → RunOn links Unit
  | [] => return ()
  | (item, place) :: rest => do
    if schedule.underWay place then discard (attempt (step item))
    finish schedule step rest

/--
Takes a step for each job in turn.  At the first failure the jobs that are under way are
finished, and then the row fails with it.
-/
def takeTurns {α β : Type} (schedule : Schedule) (step : α → RunOn links β) :
    List (α × Nat) → RunOn links (List (β × Nat))
  | [] => return []
  | (item, place) :: rest => do
    match ← attempt (step item) with
    | .ok value =>
      let values ← takeTurns schedule step rest
      return (value, place) :: values
    | .error failure =>
      finish schedule step rest
      throw failure

/--
Takes a step for each item in the turns of a schedule; the values are in the order of the items.
-/
def forEach {α β : Type} (schedule : Schedule) (step : α → RunOn links β) (items : List α) :
    RunOn links (List β) := do
  let values ← takeTurns schedule step (schedule.arrange items)
  return (sortBy Prod.snd values).map Prod.fst

/-- Whether a file is to be written: it is not there, or it replaces the one that is there. -/
def isDue (part : Text) (file : TextFile) : RunOn links Bool := do
  if ← exists? file.path then
    if file.overwrite then
      log .info part ("Overwriting file " ++ file.path)
      return true
    else
      log .info part ("File " ++ file.path ++ " already exists, skipping creation")
      return false
  else return true

/-- The files that are to be written. -/
def dueFiles (schedule : Schedule) (part : Text) (files : List TextFile) :
    RunOn links (List TextFile) := do
  let due ← forEach schedule (isDue part) files
  return (files.zip due).filterMap fun (file, due) => if due then some file else none

/-- Writes the files that are to be written. -/
def writeAll (part : Text) (files : List TextFile) (schedule : WriteSchedule := {}) :
    RunOn links Unit := do
  let due ← dueFiles schedule.checks part files
  discard (forEach schedule.writes (fun file => writeText file.path file.content) due)

/-- The configuration of the site: an existing one is brought up to date. -/
def configFile (settings : Settings) : RunOn links TextFile := do
  let path := Site.configPath settings.outputDir
  if ← exists? path then
    let existing ← readText path
    return { path, content := Site.updateConfig existing settings, overwrite := true }
  else return { path, content := Site.config settings }

end ApiDocs.Run
