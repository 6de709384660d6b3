import ApiDocs.Proofs.Disk.Removal

/-!
# The shape of a disk

The shape of a disk is where something stands on it, which of that is a folder, and where links
point.  Where a path leads, and whether something stands there, depends on the shape alone: what a
file holds does not matter.

A write that is refused changes no file; one that succeeds changes one file only, the one to which
its path leads.  On a disk that only grows, a path goes on to lead where it led.
-/

namespace ApiDocs

variable {links : Bool}

/-- What an entry is, apart from what a file holds. -/
def Entry.kind (entry : Entry links) : Bool × Option Text :=
  (entry.isFolder, entry.target?)

namespace Disk

variable {before after disk other : Disk links} {here place location : Location} {path : Text}
variable {list : List Text} {content old new : List UInt8} {error : DiskError}

/-- Two disks have folders, files and links at the same places. -/
def SameShape (before after : Disk links) : Prop :=
  ∀ place, (after.entryAt place).map Entry.kind = (before.entryAt place).map Entry.kind

namespace SameShape

theorem refl (disk : Disk links) : SameShape disk disk :=
  fun _ => rfl

theorem trans {middle : Disk links} (first : SameShape before middle)
    (second : SameShape middle after) : SameShape before after :=
  fun place => (second place).trans (first place)

theorem isSome_entryAt (same : SameShape before after) (place : Location) :
    (after.entryAt place).isSome = (before.entryAt place).isSome := by
  have shape := congrArg Option.isSome (same place)
  rwa [Option.isSome_map, Option.isSome_map] at shape

theorem linkAt? (same : SameShape before after) (place : Location) :
    after.linkAt? place = before.linkAt? place := by
  have shape := congrArg (Option.bind · Prod.snd) (same place)
  simp only [Option.bind_map] at shape
  exact shape

theorem step (same : SameShape before after) (location : Location) (name : Text) :
    after.step location name = before.step location name := by
  have shape := same location
  rw [Disk.step, Disk.step]
  cases old : before.entryAt location <;> cases new : after.entryAt location <;>
    rw [old, new] at shape
  case some.some standing placed =>
    have kind : placed.isFolder = standing.isFolder :=
      congrArg Prod.fst (Option.some.inj shape)
    simp only [kind]
  all_goals first | rfl | cases shape

theorem walk (same : SameShape before after) (location : Location) (list : List Text) :
    after.walk location list = before.walk location list := by
  induction list generalizing location with
  | nil => rfl
  | cons name rest ih => simp only [walk_cons, same.step, ih]

theorem firstLink? (same : SameShape before after) (follows : Bool) (location : Location)
    (list : List Text) :
    after.firstLink? follows location list = before.firstLink? follows location list := by
  induction list generalizing location with
  | nil => rfl
  | cons name rest ih => simp only [Disk.firstLink?, same.step, same.linkAt?, ih]

theorem lead (same : SameShape before after) (follows : Bool) (budget : Nat) (location : Location)
    (list : List Text) : after.lead follows budget location list =
      before.lead follows budget location list := by
  induction budget generalizing location list with
  | zero => rw [Disk.lead, Disk.lead, same.firstLink?, same.walk]
  | succ budget ih => simp only [Disk.lead, same.firstLink?, same.walk, ih]

theorem locate (same : SameShape before after) (here : Location) (path : Text) :
    after.locate here path = before.locate here path := by
  rw [Disk.locate, Disk.locate, locateBy, locateBy, same.lead]

theorem hasEntry (same : SameShape before after) (here : Location) (path : Text) :
    after.hasEntry here path = before.hasEntry here path := by
  rw [Disk.hasEntry, Disk.hasEntry, find, find, same.locate]
  cases before.locate here path with
  | error error => rfl
  | ok location =>
      have standing := same.isSome_entryAt location
      cases old : before.entryAt location <;> cases new : after.entryAt location <;>
        simp only [old, new] at standing ⊢ <;> first | rfl | cases standing

end SameShape

/-- Replacing the content of a file keeps the shape. -/
theorem sameShape_put_file (standing : disk.entryAt location = some (.file old)) :
    SameShape disk (disk.put location (.file new)) := by
  intro place
  rcases eq_or_ne place location with rfl | elsewhere
  · have noFolder : disk.entryAt place ≠ some .folder := by simp [standing]
    rw [entryAt_put_self (ne_nil_of_entryAt_ne_folder noFolder), standing]
    rfl
  · rw [entryAt_put_of_ne elsewhere]

/-! ## Growing disks -/

/--
A disk came from another one by making folders and by changing some files.  So wherever a path led
before it leads still.
-/
structure Grows (files : Location → Prop) (before after : Disk links) : Prop where
  link : ∀ place, after.linkAt? place = before.linkAt? place
  folder : ∀ place, before.entryAt place = some .folder → after.entryAt place = some .folder
  file : ∀ place, ¬files place → after.file? place = before.file? place

namespace Grows

variable {files moreFiles : Location → Prop}

theorem refl (files : Location → Prop) (disk : Disk links) : Grows files disk disk :=
  ⟨fun _ => rfl, fun _ => id, fun _ _ => rfl⟩

theorem trans {middle : Disk links} (first : Grows files before middle)
    (second : Grows files middle after) : Grows files before after where
  link := fun place => (second.link place).trans (first.link place)
  folder := fun place => second.folder place ∘ first.folder place
  file := fun place outside => (second.file place outside).trans (first.file place outside)

theorem mono (grows : Grows files before after) (wide : ∀ place, files place → moreFiles place) :
    Grows moreFiles before after :=
  ⟨grows.link, grows.folder, fun place outside => grows.file place (mt (wide place) outside)⟩

theorem step {next : Location} {name : Text} (grows : Grows files before after)
    (stepped : before.step location name = .ok next) : after.step location name = .ok next := by
  have folder := Leads.folder_of_step stepped
  rwa [Leads.step_congr ((grows.folder _ folder).trans folder.symm)]

theorem leads {follows : Bool} {budget : Nat} {names : List Text} {trail : List Location}
    {last : Location} (grows : Grows files before after)
    (leads : Leads before follows budget location names trail last) :
    Leads after follows budget location names trail last := by
  induction leads with
  | here budget location => exact .here _ _
  | step stepped stays _ ih => exact .step (grows.step stepped) (by rwa [grows.link]) ih
  | link stepped isLink counts _ ih =>
      exact .link (grows.step stepped) (by rwa [grows.link]) counts ih

/-- Where a path led, it leads still. -/
theorem locate (grows : Grows files before after)
    (located : before.locate here path = .ok location) :
    after.locate here path = .ok location := by
  obtain ⟨isPath, trail, leads⟩ := locate_eq_ok_iff_leads.mp located
  exact locate_eq_ok_iff_leads.mpr ⟨isPath, trail, grows.leads leads⟩

end Grows

/-- An entry that is no link may take the place of anything but a folder and a link. -/
theorem grows_put {entry : Entry links} (noLink : disk.linkAt? location = none)
    (noFolder : disk.entryAt location ≠ some .folder) (isPlain : entry.target? = none) :
    Grows (· = location) disk (disk.put location entry) where
  link := fun place => by
    rcases eq_or_ne place location with rfl | other
    · rw [noLink, linkAt?_put isPlain noLink]
    · exact linkAt?_congr (entryAt_put_of_ne other)
  folder := fun _ => entryAt_put_of_folder noFolder
  file := fun _ other => file?_congr (entryAt_put_of_ne other)

theorem grows_makeFolder (disk : Disk links) (here : Location) (path : Text) :
    Grows nowhere disk (disk.makeFolder here path).2 := by
  rw [makeFolder]
  split
  · exact .refl _ _
  · exact .refl _ _
  · rename_i place found
    have missing : disk.entryAt place = none := by
      rw [placeName] at found
      split at found
      · cases found
      · simp only [Except.ok.injEq, Prod.mk.injEq] at found
        obtain ⟨rfl, missing⟩ := found
        exact missing
    have put : Grows (· = place) disk (disk.put place .folder) :=
      grows_put (by rw [Disk.linkAt?, missing]; rfl) (by simp [missing]) rfl
    refine ⟨put.link, put.folder, fun other _ => ?_⟩
    rcases eq_or_ne other place with rfl | differs
    · rw [file?, file?, missing, entryAt_put, if_pos rfl]
      split <;> rfl
    · exact put.file other differs

theorem grows_makeFoldersUpTo (disk : Disk links) (here : Location) (anchor : Path.Anchor)
    (names : List Text) : Grows nowhere disk (disk.makeFoldersUpTo here anchor names).2 := by
  induction names with
  | nil => exact .refl _ _
  | cons name above ih =>
      rw [makeFoldersUpTo]
      split
      · rename_i made outcome
        have own := grows_makeFolder disk here
          (CleanPath.mk anchor (name :: above).reverse).text
        rwa [outcome] at own
      · split
        · rename_i outcome
          rwa [outcome] at ih
        · rename_i made outcome
          rw [outcome] at ih
          have own := grows_makeFolder made here (CleanPath.mk anchor (name :: above).reverse).text
          split <;> rename_i outcome <;> rw [outcome] at own
          · exact ih.trans own
          · rw [unlessFolder_snd]
            exact ih.trans own
      · rw [unlessFolder_snd]
        exact .refl _ _

/-! ## Files after a write -/

/-- A write in a folder that succeeds puts the content where the path leads. -/
theorem exists_of_writeInFolder (written : disk.writeInFolder here path content = (.ok (), after)) :
    ∃ place, after.locate here path = .ok place ∧ Grows (· = place) disk after ∧
      after.file? place = some content := by
  rw [writeInFolder, Disk.place] at written
  cases located : disk.locate here path with
  | error error =>
      rw [located] at written
      cases written
  | ok place =>
      simp only [located] at written
      split at written
      · cases written
      · rename_i isFolder
        cases written
        have noFolder : disk.entryAt place ≠ some .folder := by
          intro folder
          simp [folder] at isFolder
        have grows : Grows (· = place) disk (disk.put place (.file content)) :=
          grows_put (linkAt?_of_locate located) noFolder rfl
        refine ⟨place, grows.locate located, grows, ?_⟩
        rw [file?_eq_some_iff, entryAt_put_self (ne_nil_of_entryAt_ne_folder noFolder)]

theorem writeInFolder_of_error
    (refused : disk.writeInFolder here path content = (.error error, after)) :
    after = disk := by
  rw [writeInFolder] at refused
  split at refused
  · cases refused
    rfl
  · split at refused <;> cases refused
    rfl

/-- A write that succeeds puts the content where the path leads, and changes no other file. -/
theorem exists_of_write (written : disk.write here path content = (.ok (), after)) :
    ∃ place, after.locate here (CleanPath.ofText path).text = .ok place ∧
      Grows (· = place) disk after ∧ after.file? place = some content := by
  have folders := grows_makeFoldersUpTo disk here (CleanPath.ofText path).parent.anchor
    (CleanPath.ofText path).parent.names.reverse
  rw [write, makeFolders] at written
  split at written
  · cases written
  · rename_i outcome
    rw [outcome] at folders
    obtain ⟨place, located, grows, content⟩ := exists_of_writeInFolder written
    exact ⟨place, located, (folders.mono fun _ => False.elim).trans grows, content⟩

/-- A write that is refused makes folders at most. -/
theorem grows_of_write_error (refused : disk.write here path content = (.error error, after)) :
    Grows nowhere disk after := by
  have folders := grows_makeFoldersUpTo disk here (CleanPath.ofText path).parent.anchor
    (CleanPath.ofText path).parent.names.reverse
  rw [write, makeFolders] at refused
  split at refused
  · rename_i outcome
    rw [outcome] at folders
    cases refused
    exact folders
  · rename_i outcome
    rw [outcome] at folders
    obtain rfl := writeInFolder_of_error refused
    exact folders

end Disk

end ApiDocs
