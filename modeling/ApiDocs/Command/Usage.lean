import ApiDocs.Text.Symbol

/-!
# Help on the command line

The usage and help texts of the program and of its two commands.
-/

namespace ApiDocs.Command

/-- What the program can be told to do. -/
inductive Subcommand where
  | build
  | check
  deriving DecidableEq, Repr, Inhabited

/-- The word for a subcommand. -/
def Subcommand.name : Subcommand → String
  | .build => "build"
  | .check => "check"

/-- The subcommand with a name. -/
def Subcommand.named? (name : Text) : Option Subcommand :=
  [Subcommand.build, Subcommand.check].find? fun chosen => name == chosen.name

/-- Whose arguments are read: those of the program or those of a subcommand. -/
inductive Speaker where
  | program
  | subcommand (chosen : Subcommand)
  deriving DecidableEq, Repr, Inhabited

namespace Speaker

/-- The words with which the speaker is called. -/
def name : Speaker → String
  | .program => "tsdocgen"
  | .subcommand chosen => "tsdocgen " ++ chosen.name

/-- The line that says how the speaker is called. -/
def usage : Speaker → String
  | .program => "usage: tsdocgen [-h] [-v] [--log-file LOG_FILE] \x7bbuild,check\x7d ...\n"
  | .subcommand chosen => "usage: tsdocgen " ++ chosen.name ++ " [-h] [-v] [path]\n"

/-- The help on the program. -/
def programHelp : String :=
  String.intercalate "\n"
    ["",
      "Generate a documentation site from TypeScript JSDoc comments.",
      "",
      "positional arguments:",
      "  \x7bbuild,check\x7d",
      "    build              Validate sources, type-check examples and write the",
      "                       markdown site.",
      "    check              Validate sources and type-check examples without",
      "                       writing the site.",
      "",
      "options:",
      "  -h, --help           show this help message and exit",
      "  -v, --verbose        Increase log verbosity for troubleshooting.",
      "  --log-file LOG_FILE  Also write debug logs to this file.",
      ""]

/-- The help on a subcommand. -/
def subcommandHelp : String :=
  String.intercalate "\n"
    ["",
      "positional arguments:",
      "  path           Path to the project root containing package.json (defaults to",
      "                 current directory).",
      "",
      "options:",
      "  -h, --help     show this help message and exit",
      "  -v, --verbose  Increase log verbosity for troubleshooting.",
      ""]

/-- The help of the speaker. -/
def help (speaker : Speaker) : String :=
  speaker.usage ++
    match speaker with
    | .program => programHelp
    | .subcommand _ => subcommandHelp

/-- The text with which the speaker refuses its arguments. -/
def refusal (speaker : Speaker) (problem : Text) : Text :=
  speaker.usage ++ speaker.name ++ ": error: " ++ problem ++ "\n"

end Speaker

end ApiDocs.Command
