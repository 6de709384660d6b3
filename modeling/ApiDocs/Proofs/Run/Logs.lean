import ApiDocs.Proofs.Disk.Evolves
import ApiDocs.Proofs.Run.Steps

/-!
# Worlds and their log files

A run writes to its log files all the time.  A log file that is open may have more lines
afterwards; apart from that, logging leaves the disk as it is.  `OnlyLogs` says this of two
worlds.  `Evolves` allows for changes in a scope of places as well.

The log files of a run never become more: one that was taken away is lost.
-/

namespace ApiDocs

namespace Disk

variable {links : Bool} {disk : Disk links} {here place location : Location} {path : Text}
variable {old new : List UInt8}

/-- Replacing the content of a file keeps everything else. -/
theorem evolves_put_file (standing : disk.entryAt location = some (.file old)) :
    Evolves (· = location) nowhere disk (disk.put location (.file new)) where
  tree := fun tree => by
    have noFolder : disk.entryAt location ≠ some .folder := by simp [standing]
    have below : location ≠ [] := by
      rintro rfl
      exact noFolder (entryAt_root disk)
    obtain ⟨parent, name, rfl⟩ := (List.eq_nil_or_concat location).resolve_left below
    rw [List.concat_eq_append] at standing noFolder ⊢
    exact tree.put (tree.entryAt_parent standing)
      (tree.isName_of_mem standing (List.mem_append_right _ (List.mem_singleton_self _)))
      fun folder => absurd folder noFolder
  noLink := fun _ => linkAt?_put rfl
  file := fun place other => file?_congr (entryAt_put_of_ne other)
  folder := fun place _ => entryAt_put_of_folder (by simp [standing])

theorem append_of_hasFile (isFile : disk.hasFile here path = true) (more : List UInt8) :
    ∃ location old, disk.locate here path = .ok location ∧
      disk.entryAt location = some (.file old) ∧
      (disk.append here path more).2 = disk.put location (.file (old ++ more)) := by
  rw [hasFile] at isFile
  split at isFile
  · rename_i location entry found
    obtain ⟨located, standing⟩ := find_eq_ok_iff.mp found
    obtain ⟨old, isContent⟩ := Option.isSome_iff_exists.mp isFile
    obtain rfl := Entry.content?_eq_some_iff.mp isContent
    refine ⟨location, old, located, standing, ?_⟩
    rw [append, Disk.place, located]
    simp [standing]
  · cases isFile

end Disk

namespace World

variable {links : Bool} {files folders moreFiles moreFolders : Location → Prop}
variable {before after world : World links}

/-- The log files that are still written to. -/
def openLogs (world : World links) : List Text :=
  world.logger.files.filter fun path => !world.lostLogs.contains path

/--
Whether a log file that is still written to may stand at a place.  One with a link on its way may
stand anywhere.
-/
def IsLogged (world : World links) (place : Location) : Prop :=
  ∃ path ∈ world.openLogs,
    world.disk.IsStraight world.here path → Disk.target world.here path = place

theorem not_isLogged_of_noLogs (noLogs : world.openLogs = []) (place : Location) :
    ¬world.IsLogged place := by
  rintro ⟨path, isOpen, -⟩
  rw [noLogs] at isOpen
  cases isOpen

/-- Whether no link stands at the places of a scope. -/
def IsFree (free : Location → Prop) (world : World links) : Prop :=
  ∀ place, free place → world.disk.linkAt? place = none

@[simp]
theorem isFree (free : Location → Prop) (world : World) : world.IsFree free :=
  fun place _ => world.disk.linkAt?_eq_none place

/-- No link stands in a scope if none of the entries there is a link. -/
theorem isFree_of_entries {free : Location → Prop} {world : World links}
    (each : ∀ pair ∈ world.disk.entries, pair.2.target?.isSome = true → ¬free pair.1) :
    world.IsFree free := by
  intro place inScope
  by_contra isLink
  obtain ⟨target, found⟩ := Option.ne_none_iff_exists'.mp isLink
  obtain ⟨entry, standing, isTarget⟩ := Option.bind_eq_some_iff.mp found
  have below : place ≠ [] := by
    rintro rfl
    rw [Disk.entryAt_root] at standing
    cases standing
    cases isTarget
  exact each _ (Disk.mem_entries_of_entryAt below standing) (by rw [isTarget]; rfl) inScope

/--
A world came from another one by changes to some files and by logging; only some folders
may be gone.
-/
structure Evolves (files folders : Location → Prop) (before after : World links) : Prop where
  here : after.here = before.here
  logs : ∀ path ∈ after.openLogs, path ∈ before.openLogs
  tree : before.disk.IsTree → after.disk.IsTree
  noLink : ∀ place, before.disk.linkAt? place = none → after.disk.linkAt? place = none
  file : ∀ place, ¬files place → ¬before.IsLogged place →
    after.disk.file? place = before.disk.file? place
  folder : ∀ place, ¬folders place → before.disk.entryAt place = some .folder →
    after.disk.entryAt place = some .folder

/-- A world came from another one by logging. -/
structure OnlyLogs (before after : World links) : Prop extends
    Evolves Disk.nowhere Disk.nowhere before after where
  entry : ∀ place, ¬before.IsLogged place →
    after.disk.entryAt place = before.disk.entryAt place
  disk : before.openLogs = [] → after.disk = before.disk
  calls : after.calls = before.calls
  removals : after.removals = before.removals

namespace Evolves

theorem refl (files folders : Location → Prop) (world : World links) :
    Evolves files folders world world :=
  ⟨rfl, fun _ => id, id, fun _ => id, fun _ _ _ => rfl, fun _ _ => id⟩

theorem straight (evolves : Evolves files folders before after) {here : Location} {path : Text}
    (straight : before.disk.IsStraight here path) : after.disk.IsStraight here path :=
  fun place passed => evolves.noLink place (straight place passed)

theorem isLogged (evolves : Evolves files folders before after) {place : Location}
    (logged : after.IsLogged place) : before.IsLogged place := by
  obtain ⟨path, isOpen, atPlace⟩ := logged
  rw [evolves.here] at atPlace
  exact ⟨path, evolves.logs path isOpen, fun straight => atPlace (evolves.straight straight)⟩

theorem trans {middle : World links} (first : Evolves files folders before middle)
    (second : Evolves files folders middle after) : Evolves files folders before after where
  here := second.here.trans first.here
  logs := fun path isOpen => first.logs path (second.logs path isOpen)
  tree := second.tree ∘ first.tree
  noLink := fun place => second.noLink place ∘ first.noLink place
  file := fun place outside notLogged =>
    (second.file place outside (mt first.isLogged notLogged)).trans
      (first.file place outside notLogged)
  folder := fun place outside => second.folder place outside ∘ first.folder place outside

theorem mono (evolves : Evolves files folders before after)
    (inFiles : ∀ place, files place → moreFiles place)
    (inFolders : ∀ place, folders place → moreFolders place) :
    Evolves moreFiles moreFolders before after where
  here := evolves.here
  logs := evolves.logs
  tree := evolves.tree
  noLink := evolves.noLink
  file := fun place outside => evolves.file place (mt (inFiles place) outside)
  folder := fun place outside => evolves.folder place (mt (inFolders place) outside)

theorem isFree (evolves : Evolves files folders before after) {free : Location → Prop}
    (isFree : before.IsFree free) : after.IsFree free :=
  fun place inScope => evolves.noLink place (isFree place inScope)

theorem isKept (files folders : Location → Prop) : Run.IsKept (@Evolves links files folders) :=
  ⟨refl files folders, trans⟩

/-- What is kept while no link stands at some places. -/
theorem isKept_ifFree (free files folders : Location → Prop) :
    Run.IsKept (Run.Provided (IsFree free) (@Evolves links files folders)) :=
  (isKept files folders).provided fun _ _ evolves => evolves.isFree

end Evolves

namespace OnlyLogs

theorem refl (world : World links) : OnlyLogs world world :=
  ⟨.refl _ _ world, fun _ _ => rfl, fun _ => rfl, rfl, rfl⟩

theorem trans {middle : World links} (first : OnlyLogs before middle)
    (second : OnlyLogs middle after) : OnlyLogs before after where
  toEvolves := first.toEvolves.trans second.toEvolves
  entry := fun place notLogged =>
    (second.entry place (mt first.isLogged notLogged)).trans (first.entry place notLogged)
  disk := fun noLogs => by
    have stillNone : middle.openLogs = [] := by
      rw [List.eq_nil_iff_forall_not_mem] at noLogs ⊢
      exact fun path isOpen => noLogs path (first.logs path isOpen)
    exact (second.disk stillNone).trans (first.disk noLogs)
  calls := second.calls.trans first.calls
  removals := second.removals.trans first.removals

theorem isKept : Run.IsKept (@OnlyLogs links) :=
  ⟨refl, trans⟩

theorem evolves (onlyLogs : OnlyLogs before after) (files folders : Location → Prop) :
    Evolves files folders before after :=
  onlyLogs.toEvolves.mono (fun _ => False.elim) fun _ => False.elim

/-- Worlds with the same disk and the same log files. -/
theorem of_same (here : after.here = before.here) (logs : after.openLogs = before.openLogs)
    (disk : after.disk = before.disk) (calls : after.calls = before.calls)
    (removals : after.removals = before.removals) : OnlyLogs before after where
  here := here
  logs := fun path isOpen => logs ▸ isOpen
  tree := fun tree => disk ▸ tree
  noLink := fun place noLink => by rwa [disk]
  file := fun place _ _ => by rw [disk]
  folder := fun place _ folder => by rwa [disk]
  entry := fun place _ => by rw [disk]
  disk := fun _ => disk
  calls := calls
  removals := removals

end OnlyLogs

/-! ## Logging -/

theorem heed_sinks (logger : Logger) (name : Text) (level : Level) :
    (logger.heed name level).2.sinks = logger.sinks := by
  have used : (logger.use name).sinks = logger.sinks := by
    rw [Logger.use]
    split <;> rfl
  rw [Logger.heed]
  simp only
  split <;> exact used

theorem openLogs_congr (sinks : after.logger.sinks = before.logger.sinks)
    (lost : after.lostLogs = before.lostLogs) : after.openLogs = before.openLogs := by
  rw [openLogs, openLogs, Logger.files, Logger.files, sinks, lost]

theorem onlyLogs_addLine {path : Text} (isTarget : path ∈ world.logger.files) (line : Text) :
    OnlyLogs world (world.addLine path line) := by
  rw [addLine]
  split
  · rename_i writable
    simp only [Bool.and_eq_true, Bool.not_eq_true'] at writable
    obtain ⟨⟨isFile, notLost⟩, -⟩ := writable
    have isOpen : path ∈ world.openLogs := List.mem_filter.mpr ⟨isTarget, by rw [notLost]; rfl⟩
    obtain ⟨location, old, located, standing, appended⟩ :=
      Disk.append_of_hasFile isFile (Text.Utf8.encode (line ++ "\n"))
    rw [appended]
    have replaced : Disk.Evolves (· = location) Disk.nowhere world.disk
        (world.disk.put location (.file (old ++ Text.Utf8.encode (line ++ "\n")))) :=
      Disk.evolves_put_file standing
    have elsewhere {place : Location} (notLogged : ¬world.IsLogged place) : place ≠ location := by
      rintro rfl
      exact notLogged ⟨path, isOpen, fun straight => (Disk.eq_target_of_locate located straight).symm⟩
    refine ⟨⟨rfl, fun _ => id, replaced.tree, replaced.noLink, fun place _ notLogged => ?_,
      replaced.folder⟩, fun place notLogged => ?_, fun noLogs => ?_, rfl, rfl⟩
    · exact replaced.file place (elsewhere notLogged)
    · exact Disk.entryAt_put_of_ne (elsewhere notLogged)
    · rw [noLogs] at isOpen
      cases isOpen
  · exact .refl world

theorem addLine_logger (path line : Text) : (world.addLine path line).logger = world.logger := by
  rw [addLine]
  split <;> rfl

theorem onlyLogs_deliver (record : Record) (targets : List Target)
    (own : ∀ path, Target.file path ∈ targets → path ∈ world.logger.files) :
    OnlyLogs world (targets.foldl (deliver record) world) := by
  induction targets generalizing world with
  | nil => exact .refl world
  | cons target rest ih =>
      have further : ∀ path, Target.file path ∈ rest → path ∈ world.logger.files :=
        fun path member => own path (List.mem_cons_of_mem target member)
      rw [List.foldl_cons]
      cases target with
      | console =>
          have shown : OnlyLogs world (deliver record world .console) := .of_same rfl rfl rfl rfl rfl
          exact shown.trans (ih further)
      | file path =>
          have here := onlyLogs_addLine (own path List.mem_cons_self) record.fileLine
          refine here.trans (ih fun other member => ?_)
          rw [addLine_logger]
          exact further other member

theorem mem_files_of_mem_targets {logger : Logger} {record : Record} {path : Text}
    (member : Target.file path ∈ logger.targets record) : path ∈ logger.files := by
  obtain ⟨sink, inSinks, isTarget⟩ := List.mem_map.mp member
  have reaches := (List.mem_filter.mp inSinks).1
  have inLogger : sink ∈ logger.sinks := by
    rw [Logger.sinksOf] at reaches
    split at reaches
    · exact reaches
    · cases reaches
  exact List.mem_filterMap.mpr ⟨sink, inLogger, by rw [isTarget]⟩

/-- Logging a record changes nothing but log files. -/
theorem onlyLogs_log (world : World links) (record : Record) :
    OnlyLogs world (world.log record) := by
  have sinks := heed_sinks world.logger record.logger record.level
  have heeded : OnlyLogs world
      { world with
        logger := (world.logger.heed record.logger record.level).2
        records := world.records ++ [record] } :=
    .of_same rfl (openLogs_congr sinks rfl) rfl rfl rfl
  rw [log]
  simp only
  split
  · exact heeded
  · split
    · split
      · exact heeded.trans (.of_same rfl rfl rfl rfl rfl)
      · exact heeded
    · exact heeded.trans (onlyLogs_deliver record _ fun path => mem_files_of_mem_targets)

end World

namespace Run

open World (Evolves OnlyLogs)

variable {links : Bool} {α : Type} {relation : World links → World links → Prop}

theorem keeps_log (level : Level) (part message : Text) :
    Keeps OnlyLogs (log level part message : RunOn links Unit) :=
  fun world => World.onlyLogs_log world _

/-- A step that only logs changes nothing else in any scope. -/
theorem Keeps.evolves {step : RunOn links α} (onlyLogs : Keeps OnlyLogs step)
    (files folders : Location → Prop) : Keeps (Evolves files folders) step :=
  onlyLogs.mono fun _ _ kept => kept.evolves files folders

theorem Keeps.ifFree {step : RunOn links α} (onlyLogs : Keeps OnlyLogs step)
    (free files folders : Location → Prop) :
    Keeps (Provided (World.IsFree free) (Evolves files folders)) step :=
  fun world _ => (onlyLogs world).evolves files folders

/-- On a disk without links there is none at any place. -/
theorem Keeps.of_ifFree {step : Run α} {free files folders : Location → Prop}
    (kept : Keeps (Provided (World.IsFree free) (Evolves files folders)) step) :
    Keeps (Evolves files folders) step :=
  fun world => kept world (world.isFree free)

theorem Keeps.widen_ifFree {step : RunOn links α}
    {free files folders moreFiles moreFolders : Location → Prop}
    (kept : Keeps (Provided (World.IsFree free) (Evolves files folders)) step)
    (inFiles : ∀ place, files place → moreFiles place)
    (inFolders : ∀ place, folders place → moreFolders place) :
    Keeps (Provided (World.IsFree free) (Evolves moreFiles moreFolders)) step :=
  kept.mono fun _ _ provided isFree => (provided isFree).mono inFiles inFolders

theorem Keeps.widen {step : RunOn links α} {files folders moreFiles moreFolders : Location → Prop}
    (kept : Keeps (Evolves files folders) step) (inFiles : ∀ place, files place → moreFiles place)
    (inFolders : ∀ place, folders place → moreFolders place) :
    Keeps (Evolves moreFiles moreFolders) step :=
  kept.mono fun _ _ evolves => evolves.mono inFiles inFolders

end Run

end ApiDocs
