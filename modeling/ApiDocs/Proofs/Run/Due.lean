import ApiDocs.Proofs.Disk.Shape
import ApiDocs.Proofs.Run.Logs

/-!
# Which files are due

Before files are written it is decided which of them are due: those that are missing, and those
that replace what is there.  Meanwhile lines are added to log files and nothing else changes, so
that the files that are due are known beforehand.
-/

namespace ApiDocs

namespace World

variable {links : Bool} {world before after : World links}

/-- Whether a file is due: it is missing, or it replaces what is there. -/
def isDue (world : World links) (file : TextFile) : Bool :=
  !world.disk.hasEntry world.here file.path || file.overwrite

theorem isDue_of_overwrite {file : TextFile} (replacing : file.overwrite = true) :
    world.isDue file = true := by
  rw [isDue, replacing, Bool.or_true]

/-- Files that replace what is there are due. -/
theorem filter_isDue_of_overwrite {files : List TextFile}
    (replacing : ∀ file ∈ files, file.overwrite = true) : files.filter world.isDue = files :=
  List.filter_eq_self.mpr fun file member => isDue_of_overwrite (replacing file member)

/-- A world came from another one by adding lines to its log files. -/
structure OnlyAppends (before after : World links) : Prop extends OnlyLogs before after where
  shape : Disk.SameShape before.disk after.disk

namespace OnlyAppends

theorem refl (world : World links) : OnlyAppends world world :=
  ⟨.refl world, .refl world.disk⟩

theorem trans {middle : World links} (first : OnlyAppends before middle)
    (second : OnlyAppends middle after) : OnlyAppends before after :=
  ⟨first.toOnlyLogs.trans second.toOnlyLogs, first.shape.trans second.shape⟩

/-- Which files are due is the same before and after lines were added to log files. -/
theorem isDue (appends : OnlyAppends before after) : after.isDue = before.isDue := by
  funext file
  rw [World.isDue, World.isDue, appends.here, appends.shape.hasEntry]

end OnlyAppends

theorem sameShape_addLine (world : World links) (path line : Text) :
    Disk.SameShape world.disk (world.addLine path line).disk := by
  rw [addLine]
  split
  · rename_i writable
    simp only [Bool.and_eq_true] at writable
    obtain ⟨location, old, -, standing, appended⟩ :=
      Disk.append_of_hasFile writable.1.1 (Text.Utf8.encode (line ++ "\n"))
    rw [appended]
    exact Disk.sameShape_put_file standing
  · exact .refl world.disk

theorem sameShape_deliver (record : Record) (targets : List Target) (world : World links) :
    Disk.SameShape world.disk (targets.foldl (deliver record) world).disk := by
  induction targets generalizing world with
  | nil => exact .refl world.disk
  | cons target rest ih =>
      refine .trans ?_ (ih (deliver record world target))
      cases target with
      | console => exact .refl world.disk
      | file path => exact sameShape_addLine world path record.fileLine

/-- Logging a record only adds lines to log files. -/
theorem onlyAppends_log (world : World links) (record : Record) :
    OnlyAppends world (world.log record) := by
  refine ⟨onlyLogs_log world record, ?_⟩
  rw [log]
  simp only
  split
  · exact .refl world.disk
  · split
    · split <;> exact .refl world.disk
    · exact sameShape_deliver record _ _

end World

namespace Run

open World (OnlyAppends)

variable {links : Bool}

/-- Whether a file is due is known from the world before, and at most one record is logged. -/
theorem ending_isDue (part : Text) (file : TextFile) (world : World links) :
    ∃ after, ending (isDue part file) world = (.ok (world.isDue file), after) ∧
      OnlyAppends world after := by
  have found : ending (exists? file.path) world =
      (.ok (world.disk.hasEntry world.here file.path), world) := rfl
  rw [isDue, ending_bind_of_ok found, World.isDue]
  cases world.disk.hasEntry world.here file.path with
  | false => exact ⟨world, rfl, .refl world⟩
  | true =>
      cases file.overwrite with
      | false => exact ⟨_, rfl, World.onlyAppends_log world _⟩
      | true => exact ⟨_, rfl, World.onlyAppends_log world _⟩

theorem filterMap_zip_map {α : Type} (keep : α → Bool) (items : List α) :
    ((items.zip (items.map keep)).filterMap fun (item, kept) => if kept then some item else none) =
      items.filter keep := by
  induction items with
  | nil => rfl
  | cons item rest ih =>
      rw [List.map_cons, List.zip_cons_cons, List.filterMap_cons, ih, List.filter_cons]
      cases keep item <;> rfl

/--
Which files are due is known beforehand: those that are missing, and those that replace others.
-/
theorem ending_dueFiles (schedule : Schedule) (part : Text) (files : List TextFile)
    (world : World links) :
    ∃ after, ending (dueFiles schedule part files) world =
        (.ok (files.filter world.isDue), after) ∧
      OnlyAppends world after := by
  have each : List.Forall₂ (fun file due => ∀ middle, OnlyAppends world middle →
      ∃ last, ending (isDue part file) middle = (.ok due, last) ∧ OnlyAppends world last)
      files (files.map world.isDue) := by
    refine List.forall₂_map_right_iff.mpr (List.forall₂_same.mpr fun file _ middle appends => ?_)
    obtain ⟨last, ended, more⟩ := ending_isDue part file middle
    exact ⟨last, by rw [ended, appends.isDue], appends.trans more⟩
  obtain ⟨after, ended, appends⟩ := exists_ending_forEach each (.refl world)
  refine ⟨after, ?_, appends⟩
  rw [dueFiles, ending_bind_of_ok ended, filterMap_zip_map]
  rfl

end Run

end ApiDocs
