import ApiDocs.Text.Symbol

/-!
# The disk

A disk is a list of locations with what stands there: a folder, a file with its bytes, or,
on a disk with links, a symbolic link.  A location is the list of names that leads to it
from the root, which is always a folder.  The one view of a disk is `entryAt`; every change
says what it does to that view.

Whether a disk can have links is part of its type.  `Disk` alone is the type of the disks
without links.
-/

namespace ApiDocs

/-- The names that lead from the root to a place. -/
abbrev Location := List Text

/-- What stands at a location.  A link is there on disks with links only. -/
inductive Entry : (links : Bool := false) → Type where
  | folder {links : Bool} : Entry links
  | file {links : Bool} (content : List UInt8) : Entry links
  /-- A link to what its target leads to. -/
  | link (target : Text) : Entry true
  deriving DecidableEq, Repr

variable {links : Bool}

namespace Entry

instance : Inhabited (Entry links) := ⟨.folder⟩

/-- An entry, as one of a disk with links. -/
def linked : {links : Bool} → Entry links → Entry true
  | _, .folder => .folder
  | _, .file content => .file content
  | _, .link target => .link target

/-- Whether an entry is a folder. -/
def isFolder (entry : Entry links) : Bool :=
  match entry.linked with
  | .folder => true
  | _ => false

/-- The bytes of a file. -/
def content? (entry : Entry links) : Option (List UInt8) :=
  match entry.linked with
  | .file content => some content
  | _ => none

/-- The target of a link. -/
def target? (entry : Entry links) : Option Text :=
  match entry.linked with
  | .link target => some target
  | _ => none

@[simp]
theorem isFolder_folder : (folder : Entry links).isFolder = true := rfl

@[simp]
theorem isFolder_file (content : List UInt8) : (file content : Entry links).isFolder = false := rfl

@[simp]
theorem content?_folder : (folder : Entry links).content? = none := rfl

@[simp]
theorem content?_file (content : List UInt8) :
    (file content : Entry links).content? = some content := rfl

theorem isFolder_iff {entry : Entry links} : entry.isFolder = true ↔ entry = .folder := by
  cases entry <;> simp [isFolder, linked]

theorem content?_eq_some_iff {entry : Entry links} {content : List UInt8} :
    entry.content? = some content ↔ entry = .file content := by
  cases entry <;> simp [content?, linked]

@[simp]
theorem target?_folder : (folder : Entry links).target? = none := rfl

@[simp]
theorem target?_file (content : List UInt8) : (file content : Entry links).target? = none := rfl

/-- On a disk without links no entry is a link. -/
@[simp]
theorem target?_eq_none (entry : Entry) : entry.target? = none := by
  cases entry <;> rfl

end Entry

/-- Locations with what stands there. -/
structure Disk (links : Bool := false) where
  entries : List (Location × Entry links) := []
  deriving DecidableEq, Repr, Inhabited

namespace Disk

/-- What stands at a location. -/
def entryAt (disk : Disk links) (location : Location) : Option (Entry links) :=
  if location = [] then some .folder else disk.entries.lookup location

@[simp]
theorem entryAt_root (disk : Disk links) : disk.entryAt [] = some .folder := by
  simp [entryAt]

/-- The content of the file at a location. -/
def file? (disk : Disk links) (location : Location) : Option (List UInt8) :=
  (disk.entryAt location).bind Entry.content?

/-- The target of the link at a location. -/
def linkAt? (disk : Disk links) (location : Location) : Option Text :=
  (disk.entryAt location).bind Entry.target?

@[simp]
theorem linkAt?_eq_none (disk : Disk) (location : Location) : disk.linkAt? location = none := by
  rw [linkAt?]
  cases disk.entryAt location with
  | none => rfl
  | some entry => exact entry.target?_eq_none

/-- Whether a location lies at or below another one. -/
def isWithin (place location : Location) : Bool :=
  place.isPrefixOf location

/-- The names that stand in a folder, with what stands there. -/
def children (disk : Disk links) (folder : Location) : List (Text × Entry links) :=
  disk.entries.filterMap fun (location, entry) =>
    match location.reverse with
    | [] => none
    | name :: above => if above.reverse = folder then some (name, entry) else none

/-- Sets an entry in the list: in place if the location is there, at the end if it is new. -/
def setEntry (location : Location) (entry : Entry links) :
    List (Location × Entry links) → List (Location × Entry links)
  | [] => [(location, entry)]
  | (other, old) :: rest =>
    if other = location then (other, entry) :: rest
    else (other, old) :: setEntry location entry rest

theorem lookup_setEntry (location place : Location) (entry : Entry links)
    (entries : List (Location × Entry links)) :
    (setEntry location entry entries).lookup place =
      if place = location then some entry else entries.lookup place := by
  induction entries with
  | nil =>
    by_cases h : place = location
    · simp [setEntry, h]
    · have differs : (place == location) = false := by simpa using h
      simp [setEntry, List.lookup_cons, h, differs]
  | cons head rest ih =>
    obtain ⟨other, old⟩ := head
    by_cases same : other = location
    · by_cases h : place = location
      · simp [setEntry, same, h]
      · have differs : (place == location) = false := by simpa using h
        simp [setEntry, List.lookup_cons, same, h, differs]
    · by_cases h : place = other
      · subst h
        simp [setEntry, same]
      · have differs : (place == other) = false := by simpa using h
        simp [setEntry, List.lookup_cons, same, differs, ih]

/-- Puts an entry at a location. -/
def put (disk : Disk links) (location : Location) (entry : Entry links) : Disk links :=
  { entries := setEntry location entry disk.entries }

theorem entryAt_put (disk : Disk links) (location place : Location) (entry : Entry links) :
    (disk.put location entry).entryAt place =
      if place = [] then some .folder
      else if place = location then some entry
      else disk.entryAt place := by
  by_cases root : place = []
  · simp [entryAt, root]
  · simp [entryAt, put, root, lookup_setEntry]

/-- Takes away everything at or below a location. -/
def erase (disk : Disk links) (location : Location) : Disk links :=
  { entries := disk.entries.filter fun (place, _) => !isWithin location place }

/-- Takes away everything below a location and leaves the location itself. -/
def empty (disk : Disk links) (location : Location) : Disk links :=
  { entries := disk.entries.filter fun (place, _) =>
      place == location || !isWithin location place }

/-- Puts a folder at every location above the given one, unless something stands there. -/
def putAbove (disk : Disk links) (location : Location) : Disk links :=
  (List.range location.length).foldl
    (fun disk count =>
      let place := location.take count
      if (disk.entryAt place).isSome then disk else disk.put place .folder)
    disk

end Disk

end ApiDocs
