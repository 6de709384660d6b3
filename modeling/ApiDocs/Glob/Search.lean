import ApiDocs.Disk.Walk
import ApiDocs.Glob.Pattern

/-!
# Searching the disk with a pattern

A pattern of a path is followed level by level.  A level without wildcards asks
whether something stands there; a level with wildcards takes the names of the
folder that fit; the level `**` takes the folder itself and everything below it.
Names that begin with a point are hidden: wildcards pass them over, unless the
level itself begins with a point.

A link is found under its name.  Where it leads to a folder, the search goes on there.
-/

namespace ApiDocs.Glob

variable {links : Bool}

/-- Whether a name is passed over by wildcards. -/
def isHidden (name : Text) : Bool :=
  Text.startsWith name "."

/-- The level that takes everything below a folder. -/
def everything : Text := "**"

/-- The levels of a pattern above which nothing is a wildcard, outermost first. -/
def levelsFrom : Nat → Text → List Text → Text × List Text
  | 0, path, levels => (path, levels)
  | fuel + 1, path, levels =>
    let (above, level) := Path.split path
    if above != "" && Wildcard.hasMagic above then levelsFrom fuel above (level :: levels)
    else (above, level :: levels)

/-- The folder in which a search begins, and the levels below it. -/
def levels (pattern : Text) : Text × List Text :=
  levelsFrom pattern.length pattern []

/-- The location of a folder to be listed; no folder is the present one. -/
def folder? (disk : Disk links) (here : Location) (path : Text) :
    Except DiskError (Option Location) :=
  match disk.find here (if path = "" then "." else path) with
  | .ok (location, entry) => .ok (if entry.isFolder then some location else none)
  | .error (.notAPath fault) => .error (.notAPath fault)
  | .error (.refused _ _) => .ok none

/-- Whether a search for folders only takes an entry, which may be a link to a folder. -/
def admits (foldersOnly : Bool) (entry : Entry links) (leads : Bool := false) : Bool :=
  !foldersOnly || entry.isFolder || (entry.target?.isSome && leads)

/-- The names in a folder that fit one level. -/
def namesIn (disk : Disk links) (foldersOnly : Bool) (level : Text) (folder : Location)
    (leads : Text → Bool := fun _ => false) : List Text :=
  (disk.children folder).filterMap fun (name, entry) =>
    if admits foldersOnly entry (leads name) && (isHidden level || !isHidden name) &&
        Wildcard.fitsText level name then some name
    else none

/-- The relative paths of everything below a folder, without what is hidden. -/
def below (disk : Disk links) (foldersOnly : Bool) (folder : Location)
    (leads : Text → Bool := fun _ => false) : List Text :=
  disk.entries.filterMap fun (location, entry) =>
    let names := location.drop folder.length
    let part := Text.joinWith "/" names
    if Disk.isWithin folder location && !names.isEmpty && admits foldersOnly entry (leads part) &&
        !names.any isHidden then some part
    else none

/-- The relative paths of the links below a folder, without what is hidden. -/
def linksBelow (disk : Disk links) (folder : Location) : List Text :=
  disk.entries.filterMap fun (location, entry) =>
    let names := location.drop folder.length
    if Disk.isWithin folder location && !names.isEmpty && entry.target?.isSome &&
        !names.any isHidden then some (Text.joinWith "/" names)
    else none

/--
The relative paths of everything below a folder and below the folders to which links in it
lead, up to so many links one after the other.
-/
def beneath (disk : Disk links) (here : Location) (foldersOnly : Bool) :
    Nat → Text → Location → List Text
  | 0, _, _ => []
  | budget + 1, path, folder =>
    let leads := fun part => disk.hasFolder here (Path.join path part)
    below disk foldersOnly folder leads ++
      (linksBelow disk folder).flatMap fun part =>
        match folder? disk here (Path.join path part) with
        | .ok (some next) =>
          (beneath disk here foldersOnly budget (Path.join path part) next).map (Path.join part)
        | _ => []

/-- What one level gives inside a folder. -/
def atLevel (disk : Disk links) (here : Location) (foldersOnly : Bool) (level path : Text) :
    Except DiskError (List Text) :=
  if level = everything then
    match folder? disk here path with
    | .error error => .error error
    | .ok none => .ok [""]
    | .ok (some folder) =>
      .ok ("" :: beneath disk here foldersOnly (Disk.linkLimit + 1) path folder)
  else if Wildcard.hasMagic level then
    match folder? disk here path with
    | .error error => .error error
    | .ok none => .ok []
    | .ok (some folder) =>
      .ok (namesIn disk foldersOnly level folder fun name =>
        disk.hasFolder here (Path.join path name))
  else if level = "" then .ok (if disk.hasFolder here path then [level] else [])
  else .ok (if disk.hasName here (Path.join path level) then [level] else [])

/-- What one level gives inside several folders, as paths. -/
def atLevelOfEach (disk : Disk links) (here : Location) (foldersOnly : Bool) (level : Text) :
    List Text → Except DiskError (List Text)
  | [] => .ok []
  | path :: others =>
    match atLevel disk here foldersOnly level path with
    | .error error => .error error
    | .ok names =>
      match atLevelOfEach disk here foldersOnly level others with
      | .error error => .error error
      | .ok rest => .ok (names.map (Path.join path) ++ rest)

/-- Follows the levels of a pattern from several folders; all but the last ask for folders. -/
def follow (disk : Disk links) (here : Location) :
    List Text → List Text → Except DiskError (List Text)
  | paths, [] => .ok paths
  | paths, level :: deeper =>
    match atLevelOfEach disk here (!deeper.isEmpty) level paths with
    | .error error => .error error
    | .ok next => follow disk here next deeper

/-- A pattern without wildcards gives itself if it is there; a final slash asks for a folder. -/
def single (disk : Disk links) (here : Location) (path : Text) : List Text :=
  let (above, last) := Path.split path
  let found := if last = "" then disk.hasFolder here above else disk.hasName here path
  if found then [path] else []

/-- The paths to which a pattern leads. -/
def search (disk : Disk links) (here : Location) (pattern : Text) : Except DiskError (List Text) :=
  if Wildcard.hasMagic pattern then
    let (start, deeper) := levels pattern
    match follow disk here [start] deeper with
    | .error error => .error error
    | .ok paths =>
      .ok (if Text.startsWith pattern everything && paths.head? == some "" then
        paths.drop 1 else paths)
  else .ok (single disk here pattern)

/-- Whether one of the given patterns leaves a path out: it or a folder above fits. -/
def isExcluded (path : Text) (patterns : List Text) : Bool :=
  let clean := (CleanPath.ofText path).text
  patterns.any fun pattern =>
    let whole := Path.withoutEndSlashes pattern
    Wildcard.fitsText whole clean || Wildcard.fitsText (whole ++ "/*") clean ||
      Wildcard.fitsText ("*/" ++ whole) clean ||
      Wildcard.fitsText ("*/" ++ whole ++ "/*") clean

/-- The files to which a pattern leads, without those left out, in order. -/
def files (disk : Disk links) (here : Location) (pattern : Text) (exclude : List Text) :
    Except DiskError (List Text) :=
  match search disk here pattern with
  | .error error => .error error
  | .ok paths =>
    .ok ((paths.filter fun path => disk.hasFile here path && !isExcluded path exclude).mergeSort
      Text.atMost)

end ApiDocs.Glob
