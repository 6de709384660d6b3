import ApiDocs.Example.Checker
import ApiDocs.Example.Harvest
import ApiDocs.Run.Files

/-!
# Checking the examples

The examples are written into a folder of their own, the type checker is started on
them, and the folder is removed again, whether or not the check succeeded.
-/

namespace ApiDocs.Run

variable {links : Bool}

/-- The command of the type checker. -/
def defaultCommand (environment : Environment) : Text :=
  if environment.onWindows then "ts-node.cmd" else "ts-node"

/-- Starts the type checker. -/
def callChecker (environment : Environment) (command executable : Text)
    (additions : List (Text × Text)) : RunOn links Unit := do
  modify fun world =>
    { world with calls := world.calls ++ [{ command, executable, additions, disk := world.disk }] }
  match environment.verdict.failure? command with
  | none => return ()
  | some failure => throw failure

/-- The part of the program that checks examples. -/
def examplesPart : Text := "examples"

/-- Writes the examples and what the type checker needs, and starts it. -/
def writeAndCheck (environment : Environment) (command : Text) (examples : List TextFile)
    (settings : Settings) : RunOn links Unit := do
  let folder := Example.folder settings.outputDir
  writeAll examplesPart examples (environment.writing .examples)
  let options ← ofExcept
    ((Example.options settings.exampleOptions).mapError (.fault ∘ .unwritable))
  let indexPath := Path.join folder "index.ts"
  let optionsPath := Path.join folder "tsconfig.json"
  writeAll examplesPart
    [{ path := indexPath, content := Example.index examples, overwrite := true },
      { path := optionsPath, content := options, overwrite := true }]
    (environment.writing .checker)
  log .info examplesPart ("Type checking " ++ Number.intText examples.length ++ " examples...")
  let world ← get
  callChecker environment command (Path.absolute world.hereText indexPath)
    [("TS_NODE_PROJECT", Path.absolute world.hereText optionsPath)]

/-- Removes the folder of the examples after a failure; a refusal is only logged. -/
def cleanUp (environment : Environment) (folder : Text) : RunOn links Unit := do
  match ← attempt (remove environment folder) with
  | .ok () => return ()
  | .error (.resource _ sentence) =>
    log .warning examplesPart ("Unable to remove " ++ folder ++ ": " ++ sentence)
  | .error failure => throw failure

/-- Checks examples; no command stands for the default one. -/
def checkExamples (environment : Environment) (command : Option Text)
    (examples : List TextFile) (settings : Settings) : RunOn links Unit := do
  let folder := Example.folder settings.outputDir
  let command :=
    match command with
    | none | some "" => defaultCommand environment
    | some command => command
  if examples.isEmpty then
    log .debug examplesPart ("No examples found, removing " ++ folder)
    remove environment folder
  else
    match ← attempt (writeAndCheck environment command examples settings) with
    | .ok () => remove environment folder
    | .error failure =>
      cleanUp environment folder
      throw failure

end ApiDocs.Run
