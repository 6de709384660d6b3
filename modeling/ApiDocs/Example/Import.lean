import ApiDocs.Text.Search
import ApiDocs.Text.Word
import ApiDocs.TextFile

/-!
# Imports in examples

An example imports the project under its published name.  For the check it has to
name the sources instead, and it needs an import for assertions if it makes some and
has none.
-/

namespace ApiDocs.Example

/-- Whether the character is a quote. -/
def isQuote (c : Symbol) : Bool :=
  c == '\x27' || c == '"'

/-- The part of the sources that a specifier names, and what follows its closing quote. -/
def subPath? (quote : Symbol) (text : Text) : Option (Text × Text) :=
  match text with
  | '/' :: rest =>
    let path := rest.takeWhile fun c => !isQuote c
    (Text.afterPrefix? [quote] (rest.drop path.length)).map fun rest => (path, rest)
  | _ => (Text.afterPrefix? [quote] text).map fun rest => ([], rest)

/-- The same, where the folder of the compiled project may stand in front of the part. -/
def librarySubPath? (quote : Symbol) (text : Text) : Option (Text × Text) :=
  match (Text.afterPrefix? "/lib" text).bind (subPath? quote) with
  | some found => some found
  | none => subPath? quote text

/-- The import of the sources in place of an import of the project at the beginning of a text. -/
def sourceImport? (project text : Text) : Option (Text × Text) :=
  match Text.afterPrefix? "from " text with
  | some (quote :: rest) =>
    if isQuote quote then
      ((Text.afterPrefix? project rest).bind (librarySubPath? quote)).map fun (path, rest) =>
        let target : Text := if path.isEmpty then "../../src" else "../../src/" ++ path
        ("from " ++ quote :: target ++ [quote], rest)
    else none
  | _ => none

/-- Lets every import of the project import the sources. -/
def importSources (source project : Text) : Text :=
  Text.substitute (sourceImport? project) source

/-- What follows a run of at least one blank. -/
def afterBlanks? (text : Text) : Option Text :=
  match text with
  | c :: rest => if Text.isBlank c then some (Text.trimStart rest) else none
  | [] => none

/-- Whether the text begins with the word for assertions. -/
def startsWithAssert (text : Text) : Bool :=
  match Text.afterPrefix? "assert" text with
  | some rest => Text.atWordEnd rest
  | none => false

/-- Whether the text begins with an import that names assertions first. -/
def startsWithAssertImport (text : Text) : Bool :=
  match (Text.afterPrefix? "import" (Text.trimStart text)).bind afterBlanks? with
  | none => false
  | some clause =>
    startsWithAssert clause ||
      match ((Text.afterPrefix? "*" clause).bind afterBlanks?).bind
          (Text.afterPrefix? "as") |>.bind afterBlanks? with
      | none => false
      | some name => startsWithAssert name

/-- Whether the text begins with the end of an import from the module for assertions. -/
def startsFromAssert (text : Text) : Bool :=
  match (Text.afterPrefix? "from" text).bind afterBlanks? with
  | some (quote :: rest) =>
    isQuote quote &&
      match Text.afterPrefix? "assert" rest with
      | some (closing :: _) => isQuote closing
      | _ => false
  | _ => false

/-- Whether the text imports assertions; an import that names them stands at a line's beginning. -/
def importsAssert (atLineStart : Bool) : Text → Bool
  | [] => false
  | c :: rest =>
    (atLineStart && startsWithAssertImport (c :: rest)) || startsFromAssert (c :: rest) ||
      importsAssert (c == '\n') rest

/-- Adds an import for assertions if the text makes some and has no such import. -/
def importAssert (source : Text) : Text :=
  if !Text.occursIn "assert." source || importsAssert true source then source
  else "import * as assert from 'assert'\n" ++ source

/-- Makes the files of examples ready for the check. -/
def prepare (files : List TextFile) (project : Text) : List TextFile :=
  files.map fun file => { file with content := importAssert (importSources file.content project) }

end ApiDocs.Example
