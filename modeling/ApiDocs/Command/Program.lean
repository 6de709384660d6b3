import ApiDocs.Command.Arguments
import ApiDocs.Run.Project

/-!
# The program

The program reads its command line, sets up the log, runs its subcommand and reports how it
ended: with the number of documented modules, or with the sentence of a failure.  A
fault has no report and is passed on.
-/

namespace ApiDocs.Command

variable {links : Bool}

/-- How the program ended. -/
structure Ended (links : Bool := false) where
  exit : Except Fault Nat
  output : Text := ""
  world : World links

/-- The program ended by itself with a code. -/
def Ended.withCode (code : Nat) (output : Text) (world : World links) : Ended links :=
  { exit := .ok code, output, world }

/-- Runs a subcommand. -/
def Subcommand.run (environment : Environment) (path : Text) :
    Subcommand → RunOn links (List Module)
  | .build => Run.build environment path
  | .check => Run.check environment path

/-- Sets up the log and runs the subcommand. -/
def Order.run (environment : Environment) (order : Order) : RunOn links (List Module) := do
  Run.configureLog order.verbose order.logFile
  order.subcommand.run environment order.path

/-- Runs the program on its command line. -/
def run (environment : Environment) (line : List Text) (world : World links) : Ended links :=
  match read line with
  | .error (.help speaker) => .withCode 0 speaker.help world
  | .error (.refused speaker problem) =>
    .withCode 2 "" { world with console := world.console ++ speaker.refusal problem }
  | .ok order =>
    match (order.run environment).run.run world with
    | (.ok modules, world) =>
      .withCode 0 ("Documented " ++ Number.intText modules.length ++ " modules\n") world
    | (.error (.fault fault), world) => { exit := .error fault, world }
    | (.error failure, world) => .withCode 1 "" (world.showLine failure.message)

end ApiDocs.Command
