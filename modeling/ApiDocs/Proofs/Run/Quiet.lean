import ApiDocs.Proofs.Disk.Gains
import ApiDocs.Proofs.Glob.Files
import ApiDocs.Proofs.Run.Scratch

/-!
# Runs without log files

Where no log file is open, logging leaves the disk as it is, and the steps of a run can be
followed one by one: a row of steps succeeds if each of them does.  A run also brings nothing to
the disk but what it writes.
-/

namespace ApiDocs

open Disk (IsPath atPath nowhere onWay)

/-! ## Names for paths -/

/--
The text under which the disk shows a name is one for paths, unless it has the null character.
-/
theorem Disk.pathFault?_stored {name : Text} (clean : Disk.pathFault? name = none) :
    Disk.pathFault? (Disk.Name.stored name) = none := by
  rw [pathFault?_eq_none_iff] at clean ⊢
  refine ⟨fun symbol member => Disk.Name.not_isStray_of_mem_ofBytes member, ?_⟩
  rw [Disk.Name.char_mem_stored_iff (by decide)]
  exact clean.2

/-- The places on the way of a path have names for paths. -/
theorem Disk.pathFault?_of_onWay {path : CleanPath} (absolute : path.IsAbsolute) {place : Location}
    (way : onWay path place) : ∀ name ∈ place, Disk.pathFault? name = none := by
  obtain ⟨front, -, isPath, rfl⟩ := way
  have fromRoot : (CleanPath.mk path.anchor front).IsAbsolute := absolute
  have clean := (Spot.forall_mem_text_iff fromRoot).mp
    (Spot.pathFault?_eq_none_iff.mp isPath.faultless)
  intro name member
  obtain none | ⟨other, inFront, rfl⟩ := Disk.mem_follow member
  · cases none
  · exact pathFault?_stored (Spot.pathFault?_eq_none_iff.mpr (clean other inFront))

theorem Disk.HasPathNames.of_gains {files folders : Location → Prop} {before after : Disk}
    (named : before.HasPathNames) (gains : Disk.Gains files folders before after)
    (clean : ∀ place, folders place → ∀ name ∈ place, Disk.pathFault? name = none) :
    after.HasPathNames := by
  intro place entry standing passable
  obtain rfl := Glob.isPassable_iff.mp passable
  by_cases inScope : folders place
  · exact clean place inScope
  · exact named place .folder (gains.folder place inScope standing) passable

namespace World

variable {world before after : World}

/-- A world on which no log file is open, with a disk that is a tree with names for paths. -/
structure IsQuiet (world : World) : Prop where
  noLogs : world.openLogs = []
  tree : world.disk.IsTree
  named : world.disk.HasPathNames

/-- Where no log file is open, none is opened. -/
theorem Evolves.noLogs {files folders : Location → Prop}
    (evolves : Evolves files folders before after)
    (noLogs : before.openLogs = []) : after.openLogs = [] := by
  rw [List.eq_nil_iff_forall_not_mem]
  intro path isOpen
  have wasOpen := evolves.logs path isOpen
  rw [noLogs] at wasOpen
  cases wasOpen

theorem OnlyLogs.quiet (logs : OnlyLogs before after) (quiet : before.IsQuiet) : after.IsQuiet where
  noLogs := logs.noLogs quiet.noLogs
  tree := logs.tree quiet.tree
  named := by
    rw [logs.disk quiet.noLogs]
    exact quiet.named

theorem IsQuiet.not_isLogged (quiet : world.IsQuiet) (place : Location) : ¬world.IsLogged place :=
  not_isLogged_of_noLogs quiet.noLogs place

end World

namespace Run

open World (Evolves OnlyLogs)

variable {environment : Environment} {world after : World} {list : List TextFile}
variable {path content part : Text} {disk : Disk}

/-- A text that has bytes is written if the disk takes it. -/
theorem ending_writeText_of_write (encodable : Text.firstHalves? content = none)
    (written : world.disk.write world.here path (Text.Utf8.encode content) = (.ok (), disk)) :
    ending (writeText path content) world = (.ok (), world.withDisk disk) := by
  rw [writeText, encodable]
  simp only
  rw [ending_change, written]
  rfl

/-! ## What a run brings -/

variable {files folders : Location → Prop} {file : TextFile} {pattern : Text}

/-- Writing a text brings its file, and folders on the way there. -/
theorem gains_writeText (absolute : Path.isAbsolute path = true) (content : Text) (world : World) :
    Disk.Gains (placeOf (.ofText path)) (onWay (CleanPath.ofText path).parent) world.disk
      (ending (writeText path content) world).2.disk := by
  have fromRoot := CleanPath.isAbsolute_ofText_iff.mpr absolute
  have proper := CleanPath.isProper_ofText path
  have written (bytes : List UInt8) :
      Disk.Gains (placeOf (.ofText path)) (onWay (CleanPath.ofText path).parent) world.disk
        (ending (change "write" path fun disk here => disk.write here path bytes) world).2.disk := by
    rw [ending_change, ← write_ofText]
    refine (Disk.gains_write fromRoot proper bytes).mono ?_ fun _ => id
    rintro place ⟨isPath, rfl⟩
    exact ⟨isPath, fromRoot.target_text proper world.here⟩
  rw [writeText]
  split
  · exact written _
  · have gains := written []
    rw [ending_bind]
    rcases ended : ending (change "write" path fun disk here => disk.write here path []) world with
      ⟨result, middle⟩
    rw [ended] at gains
    cases result with
    | ok value => exact gains
    | error failure => exact gains

end Run

/--
From a quiet world a quiet one is reached, and what is new are files at the places of one
scope and folders at those of another one.
-/
def World.Brings (files folders : Location → Prop) (before after : World) : Prop :=
  before.IsQuiet → after.IsQuiet ∧ Disk.Gains files folders before.disk after.disk

namespace Run

open World (Brings Evolves OnlyLogs)

variable {environment : Environment} {list : List TextFile} {part : Text}
variable {files folders : Location → Prop} {file : TextFile} {pattern : Text}

theorem isFrame_brings (files folders : Location → Prop) : IsFrame (Brings files folders) where
  refl := fun _ quiet => ⟨quiet, .refl _ _ _⟩
  trans := fun first second quiet =>
    have ⟨between, gains⟩ := first quiet
    have ⟨after, more⟩ := second between
    ⟨after, gains.trans more⟩
  logs := fun logs quiet => ⟨logs.quiet quiet, by
    rw [logs.disk quiet.noLogs]
    exact .refl _ _ _⟩
  calls := fun _ _ quiet => ⟨⟨quiet.noLogs, quiet.tree, quiet.named⟩, .refl _ _ _⟩

/-- Writing a file of a scope brings it, and folders on the way there. -/
theorem brings_writeText (written : IsWrittenIn files file)
    (ways : ∀ place, onWay (CleanPath.ofText file.path).parent place → folders place) :
    Keeps (Brings files folders) (writeText file.path file.content) := by
  intro world quiet
  have evolves := keeps_writeText_unlinked written.1 file.content world
  have gains := gains_writeText written.1 file.content world
  have fromRoot := CleanPath.isAbsolute_ofText_iff.mpr written.1
  have absolute : (CleanPath.ofText file.path).parent.IsAbsolute := fromRoot
  exact ⟨⟨evolves.noLogs quiet.noLogs, evolves.tree quiet.tree,
    quiet.named.of_gains gains fun place way => Disk.pathFault?_of_onWay absolute way⟩,
    gains.mono written.2 ways⟩

/-- A removal brings nothing. -/
theorem brings_remove (pattern : Text) :
    Keeps (Brings files folders) (remove environment pattern) := by
  intro world quiet
  have evolves : Evolves (fun _ => True) (fun _ => True) world
      (ending (remove environment pattern) world).2 := evolves_remove fun _ _ _ _ => trivial
  have gains (files folders : Location → Prop) :=
    (shrinks_remove environment pattern world).gains files folders
  exact ⟨⟨evolves.noLogs quiet.noLogs, evolves.tree quiet.tree,
    quiet.named.of_gains (gains nowhere nowhere) fun _ => False.elim⟩, gains files folders⟩

/-- Writing files of a scope brings some of them, and folders on the way there. -/
theorem brings_writeAll (part : Text) (schedule : WriteSchedule)
    (written : ∀ file ∈ list, IsWrittenIn files file)
    (ways : ∀ file ∈ list, ∀ place, onWay (CleanPath.ofText file.path).parent place →
      folders place) :
    Keeps (Brings files folders) (writeAll part list schedule) := by
  have frame := isFrame_brings files folders
  intro world
  obtain ⟨middle, ended, appends⟩ := ending_dueFiles schedule.checks part list world
  rw [writeAll, ending_bind_of_ok ended]
  refine frame.trans (frame.logs appends.toOnlyLogs) ?_
  refine Keeps.discard frame.toIsKept (.forEach frame.toIsKept fun file member => ?_) middle
  have inList := List.mem_of_mem_filter member
  exact brings_writeText (written file inList) (ways file inList)

end Run

end ApiDocs
