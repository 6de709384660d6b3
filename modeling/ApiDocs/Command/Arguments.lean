import ApiDocs.Command.Usage
import ApiDocs.Number.Notation
import ApiDocs.Text.Quoted
import ApiDocs.Text.Search

/-!
# The command line

The words of a command line are options or plain words.  An option may be shortened as
long as it is clear which one is meant; short options may be put together; a value
stands behind an equals sign or is the next word.  Behind the word `--` all words are
plain.  The first plain word of the program is its subcommand, and everything behind it is
the subcommand's.
-/

namespace ApiDocs.Command

/-- The options. -/
inductive Switch where
  | help
  | verbose
  | logFile
  deriving DecidableEq, Repr, Inhabited

namespace Switch

/-- The spellings of an option. -/
def spellings : Switch → List Text
  | .help => ["-h", "--help"]
  | .verbose => ["-v", "--verbose"]
  | .logFile => ["--log-file"]

/-- Whether the option has a value. -/
def takesValue : Switch → Bool
  | .logFile => true
  | _ => false

/-- An option as errors name it. -/
def label (switch : Switch) : Text :=
  "argument " ++ Text.joinWith "/" switch.spellings

/-- The error for a value that the option does not have. -/
def ignoredValue (switch : Switch) (value : Text) : Text :=
  switch.label ++ ": ignored explicit argument " ++ Text.quoted value

end Switch

/-- The options that a speaker knows. -/
def Speaker.switches : Speaker → List Switch
  | .program => [.help, .verbose, .logFile]
  | .subcommand _ => [.help, .verbose]

/-- The options that a speaker knows, by spelling. -/
def Speaker.table (speaker : Speaker) : List (Text × Switch) :=
  speaker.switches.flatMap fun switch => switch.spellings.map fun spelling => (spelling, switch)

/-- A word of the command line. -/
inductive Word where
  /-- The word behind which all words are plain. -/
  | divider
  | plain
  /-- An option that the speaker does not know. -/
  | unknown
  /-- An option as it is spelled in full, and the value that is part of the word. -/
  | option (spelling : Text) (switch : Switch) (value : Option Text)
  deriving DecidableEq, Repr, Inhabited

/-- The part before the first equals sign and the part behind it, if there is one. -/
def splitValue (word : Text) : Text × Option Text :=
  let name : Text := word.takeWhile (· != '=')
  match word.drop name.length with
  | [] => (name, none)
  | _ :: value => (name, some value)

/-- The options that a shortened word may mean. -/
def candidates (table : List (Text × Switch)) (word : Text) :
    List (Text × Switch × Option Text) :=
  if Text.startsWith word ['-', '-'] then
    let (name, value) := splitValue word
    table.filterMap fun (spelling, switch) =>
      if Text.startsWith spelling name then some (spelling, switch, value) else none
  else
    table.filterMap fun (spelling, switch) =>
      if spelling = word.take 2 then some (spelling, switch, some (word.drop 2))
      else if Text.startsWith spelling word then some (spelling, switch, none)
      else none

/--
Whether the word is a negative number: decimal digits of any script, or digits with a
point in front of the last ones; a line break may stand behind them.
-/
def isNegativeNumber (word : Text) : Bool :=
  match word with
  | '-' :: rest =>
    let number := if Text.endsWith rest "\n" then rest.dropLast else rest
    let whole := number.takeWhile Text.isDecimal
    match number.drop whole.length with
    | [] => !whole.isEmpty
    | '.' :: digits => !digits.isEmpty && digits.all Text.isDecimal
    | _ => false
  | _ => false

/-- What a word is, before the divider. -/
def wordOf (table : List (Text × Switch)) (text : Text) : Except Text Word :=
  match text with
  | [] | ['-'] => .ok .plain
  | first :: _ =>
    if first != '-' then .ok .plain
    else
      match table.lookup text with
      | some switch => .ok (.option text switch none)
      | none =>
        let (name, value) := splitValue text
        match value.bind fun _ => table.lookup name with
        | some switch => .ok (.option name switch value)
        | none =>
          match candidates table text with
          | [] =>
            .ok (if isNegativeNumber text || text.contains ' ' then .plain else .unknown)
          | [(spelling, switch, value)] => .ok (.option spelling switch value)
          | several =>
            .error ("ambiguous option: " ++ text ++ " could match " ++
              Text.joinWith ", " (several.map Prod.fst))

/-- What the words of a command line are. -/
def wordsOf (table : List (Text × Switch)) : List Text → Except Text (List (Text × Word))
  | [] => .ok []
  | text :: rest =>
    if text = "--" then .ok ((text, .divider) :: rest.map fun text => (text, .plain))
    else
      match wordOf table text, wordsOf table rest with
      | .error problem, _ => .error problem
      | .ok _, .error problem => .error problem
      | .ok word, .ok words => .ok ((text, word) :: words)

/-- What the arguments ask for. -/
structure Arguments where
  verbose : Bool := false
  logFile : Option Text := none
  subcommand : Option Subcommand := none
  path : Text := "."
  /-- Words that nobody asked for. -/
  leftOver : List Text := []
  deriving DecidableEq, Repr, Inhabited

/-- Why the arguments lead to no run. -/
inductive Stop where
  | help (speaker : Speaker)
  | refused (speaker : Speaker) (problem : Text)
  deriving DecidableEq, Repr, Inhabited

/-- The options in one word of short options, without the last one, and the last one. -/
def cluster (table : List (Text × Switch)) (spelling : Text) (switch : Switch) :
    Option Text → Except Text (List Switch × Switch × Option Text)
  | none => .ok ([], switch, none)
  | some value =>
    if switch.takesValue then .ok ([], switch, some value)
    else if Text.startsWith spelling ['-', '-'] then .error (switch.ignoredValue value)
    else
      match value with
      | [] => .error (switch.ignoredValue value)
      | c :: rest =>
        let next : Text := ['-', c]
        match table.lookup next with
        | none => .error (switch.ignoredValue value)
        | some following =>
          match cluster table next following (if rest.isEmpty then none else some rest) with
          | .error problem => .error problem
          | .ok (before, last) => .ok (switch :: before, last)
termination_by value => (value.map List.length).getD 0
decreasing_by
  by_cases nothing : rest.isEmpty <;> simp [nothing]

/-- Does what an option asks for. -/
def apply (speaker : Speaker) (arguments : Arguments) (value : Option Text) :
    Switch → Except Stop Arguments
  | .help => .error (.help speaker)
  | .verbose => .ok { arguments with verbose := true }
  | .logFile => .ok { arguments with logFile := value }

/-- Does what several options without a value ask for. -/
def applyAll (speaker : Speaker) (arguments : Arguments) : List Switch → Except Stop Arguments
  | [] => .ok arguments
  | switch :: rest =>
    match apply speaker arguments none switch with
    | .error stop => .error stop
    | .ok next => applyAll speaker next rest

/-- Reads an option, and the word behind it if that is its value. -/
def readOption (speaker : Speaker) (arguments : Arguments) (spelling : Text) (switch : Switch)
    (value : Option Text) (rest : List (Text × Word)) :
    Except Stop (Arguments × Bool) :=
  match cluster speaker.table spelling switch value with
  | .error problem => .error (.refused speaker problem)
  | .ok (before, last, value) =>
    let finish (value : Option Text) (usesNext : Bool) : Except Stop (Arguments × Bool) :=
      match applyAll speaker arguments before with
      | .error stop => .error stop
      | .ok next => (apply speaker next value last).map fun done => (done, usesNext)
    if last.takesValue then
      match value, rest with
      | some value, _ => finish (some value) false
      | none, (text, .plain) :: _ => finish (some text) true
      | none, _ => .error (.refused speaker (last.label ++ ": expected one argument"))
    else finish none false

/-- Reads the arguments of a subcommand; `placed` says that its path was given. -/
def readSubcommand (chosen : Subcommand) (placed : Bool) (arguments : Arguments) :
    List (Text × Word) → Except Stop Arguments
  | [] => .ok arguments
  | (_, .option spelling switch value) :: rest =>
    match readOption (.subcommand chosen) arguments spelling switch value rest with
    | .error stop => .error stop
    | .ok (next, usesNext) =>
      if usesNext then readSubcommand chosen placed next (rest.drop 1)
      else readSubcommand chosen placed next rest
  | (text, .unknown) :: rest =>
    readSubcommand chosen placed { arguments with leftOver := arguments.leftOver ++ [text] } rest
  | (text, .plain) :: (other, .divider) :: rest =>
    if placed then
      .ok { arguments with
        leftOver := arguments.leftOver ++ text :: other :: rest.map Prod.fst }
    else
      .ok { arguments with path := text, leftOver := arguments.leftOver ++ rest.map Prod.fst }
  | (text, .plain) :: rest =>
    if placed then
      readSubcommand chosen placed { arguments with leftOver := arguments.leftOver ++ [text] } rest
    else readSubcommand chosen true { arguments with path := text } rest
  | (text, .divider) :: rest =>
    if placed then
      .ok { arguments with leftOver := arguments.leftOver ++ text :: rest.map Prod.fst }
    else
      match rest with
      | [] => .ok arguments
      | (path, _) :: others =>
        .ok { arguments with path, leftOver := arguments.leftOver ++ others.map Prod.fst }
termination_by words => words.length
decreasing_by all_goals simp; try omega

/-- Reads the subcommand and its arguments. -/
def readChosen (arguments : Arguments) (name : Text) (rest : List Text) :
    Except Stop Arguments :=
  match Subcommand.named? name with
  | none =>
    .error (.refused .program ("argument command: invalid choice: " ++ Text.quoted name ++
      " (choose from 'build', 'check')"))
  | some chosen =>
    match wordsOf (Speaker.subcommand chosen).table rest with
    | .error problem => .error (.refused (.subcommand chosen) problem)
    | .ok words => readSubcommand chosen false { arguments with subcommand := some chosen } words

/-- Reads the arguments of the program. -/
def readProgram (arguments : Arguments) : List (Text × Word) → Except Stop Arguments
  | [] => .ok arguments
  | (_, .option spelling switch value) :: rest =>
    match readOption .program arguments spelling switch value rest with
    | .error stop => .error stop
    | .ok (next, usesNext) =>
      if usesNext then readProgram next (rest.drop 1) else readProgram next rest
  | (text, .unknown) :: rest =>
    readProgram { arguments with leftOver := arguments.leftOver ++ [text] } rest
  | (text, .plain) :: rest => readChosen arguments text (rest.map Prod.fst)
  | [(text, .divider)] => .ok { arguments with leftOver := arguments.leftOver ++ [text] }
  | (text, .divider) :: rest => readChosen arguments text (rest.map Prod.fst)
termination_by words => words.length
decreasing_by all_goals simp; try omega

/-- A subcommand and how it is to be run. -/
structure Order where
  subcommand : Subcommand
  path : Text
  verbose : Bool
  logFile : Option Text
  deriving DecidableEq, Repr, Inhabited

/-- Reads a command line. -/
def read (line : List Text) : Except Stop Order :=
  match wordsOf Speaker.program.table line with
  | .error problem => .error (.refused .program problem)
  | .ok words =>
    match readProgram {} words with
    | .error stop => .error stop
    | .ok arguments =>
      match arguments.subcommand with
      | none =>
        .error (.refused .program "the following arguments are required: command")
      | some chosen =>
        if arguments.leftOver.isEmpty then
          .ok { subcommand := chosen
                path := arguments.path
                verbose := arguments.verbose
                logFile := arguments.logFile }
        else
          .error (.refused .program
            ("unrecognized arguments: " ++ Text.joinWith " " arguments.leftOver))

end ApiDocs.Command
