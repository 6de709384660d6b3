import ApiDocs.Module.Extract
import ApiDocs.Schedule
import ApiDocs.Source.Reader
import ApiDocs.TextFile

/-!
# Modules of a project

A module is put together from the records of its source file.  Every error of every
file is kept; without errors the modules that are not deprecated are ordered by path.
-/

namespace ApiDocs

namespace Module

/-- The path of a module: the parts of the path of its file. -/
def pathOf (filePath : Text) : List Text :=
  (CleanPath.ofText filePath).parts

/-- The records of a source file: everything but the documentation of the module itself. -/
def records (source : SourceFile) (context : Context) : Checked Module :=
  let checks :=
    (Extract.classes source context).both <|
      (Extract.interfaces source context).both <|
        (Extract.functions source context).both <|
          (Extract.typeAliases source context).both <|
            (Extract.constants source context).both (Extract.exports source context)
  checks.map fun (classes, interfaces, functions, typeAliases, constants, exports) =>
    { path := context.path, classes, interfaces, functions, typeAliases, constants, exports }

/-- The module of a source file, or every error in it. -/
def ofSource (source : SourceFile) (context : Context) : Except Fault (Checked Module) :=
  match Extract.documentation source context with
  | .error fault => .error fault
  | .ok documentation =>
    match documentation.both (records source context) with
    | .rejected first others => .ok (.rejected first others)
    | .accepted (summary, module) =>
      context.moduleName.map fun name =>
        .accepted { module with doc := Doc.ofSummary name summary }

/-- What finds the declarations of a file, or fails to. -/
def Provider : Type :=
  TextFile → Except Fault SourceFile

/-- The source file that the given parser finds in a file. -/
def sourceOf (parse : TextFile → Tree) : Provider := fun file =>
  match Text.Utf8.encode? file.content with
  | .error halves => .error (.unencodable halves)
  | .ok bytes => SourceFile.ofTree file.path bytes (parse file).root

/-- The context of the declarations of a file. -/
def contextOf (settings : Settings) (file : TextFile) : Context :=
  { path := pathOf file.path, settings }

/-- The module of a file whose declarations are provided. -/
def ofProvided (provider : Provider) (settings : Settings) (file : TextFile) :
    Except Fault (Checked Module) :=
  match provider file with
  | .error fault => .error fault
  | .ok source => ofSource source (contextOf settings file)

/-- The module of a file, whose syntax tree the given parser finds. -/
def ofFile (parse : TextFile → Tree) (settings : Settings) (file : TextFile) :
    Except Fault (Checked Module) :=
  ofProvided (sourceOf parse) settings file

/-- Modules that are not deprecated, in the order of their paths. -/
def published (modules : List Module) : List Module :=
  (modules.filter fun module => !module.doc.deprecated).mergeSort fun left right =>
    Text.atMost left.sortKey right.sortKey

/-- The modules of some files whose declarations are provided, or every error in the files. -/
def ofAllProvided (provider : Provider) (settings : Settings) (files : List TextFile) :
    Except Fault (Checked (List Module)) :=
  let tasks := files.map fun file =>
    ({ ticks := 0, outcome := ofProvided provider settings file } : Task Fault (Checked Module))
  (Task.settle tasks).1.map fun checked => checked.map published

/-- The modules of a project, or every error in its files. -/
def ofFiles (parse : TextFile → Tree) (settings : Settings) (files : List TextFile) :
    Except Fault (Checked (List Module)) :=
  ofAllProvided (sourceOf parse) settings files

end Module

end ApiDocs
