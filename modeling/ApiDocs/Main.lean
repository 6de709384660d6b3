import ApiDocs.Command.Program
import ApiDocs.Run.Findings

/-!
# The executable

The executable gives the program the present folder, with everything below it, as its
disk, and the findings of the parser and of the type checker, which it reads from
standard input.  Afterwards it brings the folder up to date and ends with the code of the
program.
-/

namespace ApiDocs.Main

/-- A text as a string of the system; halves of pairs are replaced. -/
def stringOf (text : Text) : String :=
  String.ofList <| text.map fun
    | .char c => c
    | .half _ => '\ufffd'

/-- What stands in a folder and below it. -/
partial def readBelow (location : Location) (found : Array IO.FS.DirEntry) :
    IO (List (Location × Entry)) := do
  let mut entries := []
  for item in found do
    let place := location ++ [Text.ofString item.fileName]
    if ← item.path.isDir then
      let below ← readBelow place (← item.path.readDir)
      entries := entries ++ (place, .folder) :: below
    else
      let content ← IO.FS.readBinFile item.path
      entries := entries ++ [(place, .file content.toList)]
  return entries

/-- A location as a path of the system. -/
def pathOf (location : Location) : String :=
  stringOf ("/" ++ Text.joinWith "/" location)

/-- Whether a location holds no file, or no folder, where it held one before. -/
def isGone (after : Disk) (location : Location) (entry : Entry) : Bool :=
  match entry, after.entryAt location with
  | .folder, some .folder => false
  | .file _, some (.file _) => false
  | _, _ => true

/-- Takes away what is gone; what stood below a folder goes with it. -/
def removeGone (before after : Disk) : IO Unit :=
  for (location, entry) in before.entries do
    if isGone after location entry && !isGone after location.dropLast .folder then
      match entry with
      | .folder => IO.FS.removeDirAll (pathOf location)
      | .file _ => IO.FS.removeFile (pathOf location)

/-- Writes what is new. -/
def writeNew (before after : Disk) : IO Unit :=
  for (location, entry) in after.entries do
    if before.entryAt location != some entry then
      match entry with
      | .folder => IO.FS.createDirAll (pathOf location)
      | .file content => IO.FS.writeBinFile (pathOf location) ⟨content.toArray⟩

/-- Runs the program in the present folder. -/
def runHere (findings : Findings) (arguments : List String) : IO UInt32 := do
  let present ← IO.currentDir
  let here := Path.normalNames present.toString
  let below ← readBelow here (← present.readDir)
  let disk := (({} : Disk).putAbove here).put here .folder
  let before : Disk := { entries := disk.entries ++ below }
  let given := arguments.map Text.ofString
  let ended := Command.run findings.environment given { disk := before, here }
  removeGone before ended.world.disk
  writeNew before ended.world.disk
  IO.print (stringOf ended.output)
  IO.eprint (stringOf ended.world.console)
  match ended.exit with
  | .ok code => return code.toUInt32
  | .error fault =>
    IO.eprintln (stringOf fault.message)
    return 1

end ApiDocs.Main

/-- Reads the findings and runs the program. -/
def main (arguments : List String) : IO UInt32 := do
  let document ← (← IO.getStdin).readToEnd
  match ApiDocs.Findings.read? document with
  | some findings => ApiDocs.Main.runHere findings arguments
  | none =>
    IO.eprintln "The findings on standard input cannot be read."
    return 1
