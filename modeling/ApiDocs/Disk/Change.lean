import ApiDocs.Disk.Walk

/-!
# Changing the disk

Making folders, writing files and taking entries away.  A change can be refused
when part of it is already done, so every change gives back the disk as it is
afterwards together with its outcome.
-/

namespace ApiDocs.Disk

variable {links : Bool}

/-- An outcome and the disk afterwards. -/
abbrev Changed (links : Bool := false) := Except DiskError Unit × Disk links

/-- Makes one folder; the folder above it has to be there. -/
def makeFolder (disk : Disk links) (here : Location) (path : Text) : Changed links :=
  match disk.placeName here path with
  | .error error => (.error error, disk)
  | .ok (_, some _) => (.error (.refused .entryExists path), disk)
  | .ok (location, none) => (.ok (), disk.put location .folder)

/-- Accepts a refusal if the folder is there all the same. -/
def unlessFolder (disk : Disk links) (here : Location) (path : Text) (error : DiskError) :
    Changed links :=
  if disk.hasFolder here path then (.ok (), disk) else (.error error, disk)

/--
Makes a folder and the folders above it that are missing.  The names of the path
are given with the last one first.
-/
def makeFoldersUpTo (disk : Disk links) (here : Location) (anchor : Path.Anchor) :
    List Text → Changed links
  | [] => (.ok (), disk)
  | name :: above =>
    let path := (CleanPath.mk anchor (name :: above).reverse).text
    match disk.makeFolder here path with
    | (.ok (), made) => (.ok (), made)
    | (.error (.refused .noSuchEntry _), _) =>
      match disk.makeFoldersUpTo here anchor above with
      | (.error error, made) => (.error error, made)
      | (.ok (), made) =>
        match made.makeFolder here path with
        | (.ok (), finished) => (.ok (), finished)
        | (.error error, finished) => finished.unlessFolder here path error
    | (.error error, _) => disk.unlessFolder here path error

/-- Makes a folder and the folders above it that are missing. -/
def makeFolders (disk : Disk links) (here : Location) (path : CleanPath) : Changed links :=
  disk.makeFoldersUpTo here path.anchor path.names.reverse

/-- Writes a file whose folder is there; an existing file is replaced. -/
def writeInFolder (disk : Disk links) (here : Location) (path : Text) (content : List UInt8) :
    Changed links :=
  match disk.place here path with
  | .error error => (.error error, disk)
  | .ok (location, standing) =>
    if standing.any Entry.isFolder then (.error (.refused .isFolder path), disk)
    else (.ok (), disk.put location (.file content))

/-- Writes a file and makes the missing folders above it. -/
def write (disk : Disk links) (here : Location) (path : Text) (content : List UInt8) :
    Changed links :=
  let clean := CleanPath.ofText path
  match disk.makeFolders here clean.parent with
  | (.error error, made) => (.error error, made)
  | (.ok (), made) => made.writeInFolder here clean.text content

/-- Takes a file or a link away. -/
def removeFile (disk : Disk links) (here : Location) (path : Text) : Changed links :=
  match disk.findName here path with
  | .error error => (.error error, disk)
  | .ok (location, entry) =>
    if entry.isFolder then (.error (.refused .isFolder path), disk)
    else (.ok (), disk.erase location)

/-- Why a folder cannot be taken away under the given last name. -/
def refusesRemoval : Option Text → Option Cause
  | none => some .entryInUse
  | some "." => some .notPossible
  | some ".." => some .folderNotEmpty
  | some _ => none

/-- Why a folder cannot be taken away under a last name in the given folder. -/
def refusesName (disk : Disk links) (folder : Location) (name : Option Text) : Option Cause :=
  match refusesRemoval name with
  | some cause => some cause
  | none =>
    match disk.entryAt (folder ++ name.toList) with
    | none => some .noSuchEntry
    | some entry => if entry.isFolder then none else some .notFolder

/--
Why an empty folder cannot be taken away by a path.  A link is no folder, even if a slash behind
it leads to one.
-/
def refusesFolder (disk : Disk links) (here : Location) (path : Text) : Option Cause :=
  let names := (Path.pieces (Name.stored path)).filter fun piece => !piece.isEmpty
  let above : List Text := if names.length ≤ 1 then [] else names.dropLast ++ [("." : Text)]
  match disk.lead true linkLimit (origin here path) above with
  | .error cause => some cause
  | .ok folder => disk.refusesName folder names.getLast?

/--
Takes a folder away with everything in it.  The folder is emptied first; after that
the path to it has to lead there still, and under some names it is not taken away.
-/
def removeFolder (disk : Disk links) (here : Location) (path : Text) : Changed links :=
  match disk.find here path with
  | .error error => (.error error, disk)
  | .ok (location, entry) =>
    if !entry.isFolder then (.error (.refused .notFolder path), disk)
    else
      let emptied := disk.empty location
      match emptied.refusesFolder here path with
      | some cause => (.error (.refused cause path), emptied)
      | none => (.ok (), disk.erase location)

/-- Takes away what the path leads to: a folder with everything in it, or else the last name. -/
def remove (disk : Disk links) (here : Location) (path : Text) : Changed links :=
  if disk.hasFolder here path && !disk.hasLink here path then disk.removeFolder here path
  else disk.removeFile here path

/-- Takes away one path after the other, up to the first refusal. -/
def removeEach (disk : Disk links) (here : Location) : List Text → Changed links
  | [] => (.ok (), disk)
  | path :: rest =>
    match disk.remove here path with
    | (.error error, left) => (.error error, left)
    | (.ok (), left) => left.removeEach here rest

/-- Adds bytes at the end of a file, which is made if it is not there. -/
def append (disk : Disk links) (here : Location) (path : Text) (more : List UInt8) :
    Changed links :=
  match disk.place here path with
  | .error error => (.error error, disk)
  | .ok (location, standing) =>
    if standing.any Entry.isFolder then (.error (.refused .isFolder path), disk)
    else
      let before := (standing.bind Entry.content?).getD []
      (.ok (), disk.put location (.file (before ++ more)))

end ApiDocs.Disk
