import ApiDocs.Disk.Basic
import ApiDocs.Disk.Cause
import ApiDocs.Disk.Name
import ApiDocs.Path.Clean

/-!
# Where a path leads

A path is followed name by name from the root or from the present folder.  Each
step starts from an existing folder; `.` stays, `..` goes up, and any other name
goes down whether or not something stands there.  A slash at the end asks for a
folder, as one more `.` would.

Where a link stands, the way goes on with the steps of its target, from the folder of the
link or from the root.  A link at the end of a path is followed by what opens or looks at the
entry, and not by what makes or takes away the name.
-/

namespace ApiDocs.Disk

variable {links : Bool}

/-- The number of bytes that a name may have. -/
def nameLimit : Nat := 255

/-- The number of bytes that a path may have. -/
def pathLimit : Nat := 4095

/-- The number of links that a path may pass. -/
def linkLimit : Nat := 40

/-- Takes one step from a location. -/
def step (disk : Disk links) (location : Location) (name : Text) : Except Cause Location :=
  match disk.entryAt location with
  | none => .error .noSuchEntry
  | some entry =>
    if !entry.isFolder then .error .notFolder
    else if name = "." then .ok location
    else if name = ".." then .ok location.dropLast
    else if nameLimit < Name.size name then .error .nameTooLong
    else .ok (location ++ [name])

/-- Takes a step for each name in turn. -/
def walk (disk : Disk links) (location : Location) : List Text → Except Cause Location
  | [] => .ok location
  | name :: rest =>
    match disk.step location name with
    | .error cause => .error cause
    | .ok next => disk.walk next rest

/-- Where a path begins. -/
def origin (here : Location) (path : Text) : Location :=
  if Path.isAbsolute path then [] else here

/-- The steps that a path asks for. -/
def steps (path : Text) : List Text :=
  let ending : List Text := if Path.endsInSlash path then ["."] else []
  (Path.pieces path).filter (fun piece => !piece.isEmpty) ++ ending

/-- A link on a way: the folder in which it stands, its target, and the names behind it. -/
structure Detour where
  folder : Location
  target : Text
  rest : List Text
  deriving DecidableEq, Repr, Inhabited

/-- The first link on a way.  One at the end counts if it is to be followed. -/
def firstLink? (disk : Disk links) (follows : Bool) (location : Location) :
    List Text → Option Detour
  | [] => none
  | name :: rest =>
    match disk.step location name with
    | .error _ => none
    | .ok next =>
      match disk.linkAt? next with
      | none => disk.firstLink? follows next rest
      | some target =>
        if follows || !rest.isEmpty then some { folder := location, target, rest } else none

/-- Follows names, and at most so many links on the way. -/
def lead (disk : Disk links) (follows : Bool) :
    Nat → Location → List Text → Except Cause Location
  | 0, location, names =>
    match disk.firstLink? follows location names with
    | none => disk.walk location names
    | some _ => .error .tooManyLinks
  | budget + 1, location, names =>
    match disk.firstLink? follows location names with
    | none => disk.walk location names
    | some detour =>
      disk.lead follows budget (origin detour.folder detour.target)
        (steps detour.target ++ detour.rest)

/-- Why the text is no path at all, if it is none. -/
def pathFault? (path : Text) : Option PathFault :=
  match Text.halvesFrom? Name.isStray path with
  | some halves => some (.unencodable halves)
  | none => if path.contains '\x00' then some .nullCharacter else none

/--
The location to which a path leads, whether or not something stands there.  The folder
above has to be there.
-/
def locateBy (disk : Disk links) (follows : Bool) (here : Location) (path : Text) :
    Except DiskError Location :=
  match pathFault? path with
  | some fault => .error (.notAPath fault)
  | none =>
    if path.isEmpty then .error (.refused .noSuchEntry path)
    else if pathLimit < Name.size path then .error (.refused .nameTooLong path)
    else
      match disk.lead follows linkLimit (origin here path) (steps (Name.stored path)) with
      | .error cause => .error (.refused cause path)
      | .ok location => .ok location

/-- The location to which a path leads; a link at its end is followed. -/
def locate (disk : Disk links) (here : Location) (path : Text) : Except DiskError Location :=
  disk.locateBy true here path

/-- The location of the last name of a path, even if a link stands there. -/
def locateName (disk : Disk links) (here : Location) (path : Text) : Except DiskError Location :=
  disk.locateBy false here path

/-- What a path leads to, with its location. -/
def find (disk : Disk links) (here : Location) (path : Text) :
    Except DiskError (Location × Entry links) :=
  match disk.locate here path with
  | .error error => .error error
  | .ok location =>
    match disk.entryAt location with
    | none => .error (.refused .noSuchEntry path)
    | some entry => .ok (location, entry)

/-- What stands under the last name of a path, with its location. -/
def findName (disk : Disk links) (here : Location) (path : Text) :
    Except DiskError (Location × Entry links) :=
  match disk.locateName here path with
  | .error error => .error error
  | .ok location =>
    match disk.entryAt location with
    | none => .error (.refused .noSuchEntry path)
    | some entry => .ok (location, entry)

/-- Whether something stands where the path leads. -/
def hasEntry (disk : Disk links) (here : Location) (path : Text) : Bool :=
  (disk.find here path).toOption.isSome

/-- Whether something stands under the last name of a path. -/
def hasName (disk : Disk links) (here : Location) (path : Text) : Bool :=
  (disk.findName here path).toOption.isSome

/-- Whether a link stands under the last name of a path. -/
def hasLink (disk : Disk links) (here : Location) (path : Text) : Bool :=
  match disk.findName here path with
  | .ok (_, entry) => entry.target?.isSome
  | .error _ => false

/-- Whether the path leads to a folder. -/
def hasFolder (disk : Disk links) (here : Location) (path : Text) : Bool :=
  match disk.find here path with
  | .ok (_, entry) => entry.isFolder
  | .error _ => false

/-- Whether the path leads to a file. -/
def hasFile (disk : Disk links) (here : Location) (path : Text) : Bool :=
  match disk.find here path with
  | .ok (_, entry) => entry.content?.isSome
  | .error _ => false

/-- The bytes of the file to which the path leads. -/
def read (disk : Disk links) (here : Location) (path : Text) : Except DiskError (List UInt8) :=
  match disk.find here path with
  | .error error => .error error
  | .ok (_, entry) =>
    match entry.content? with
    | none => .error (.refused .isFolder path)
    | some content => .ok content

/-- The location to which a path leads, and what stands there, if anything. -/
def place (disk : Disk links) (here : Location) (path : Text) :
    Except DiskError (Location × Option (Entry links)) :=
  match disk.locate here path with
  | .error error => .error error
  | .ok location => .ok (location, disk.entryAt location)

/-- The location where a name can be made, and what stands there, if anything. -/
def placeName (disk : Disk links) (here : Location) (path : Text) :
    Except DiskError (Location × Option (Entry links)) :=
  match disk.locateName here path with
  | .error error => .error error
  | .ok location => .ok (location, disk.entryAt location)

end ApiDocs.Disk
