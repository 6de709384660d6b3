import ApiDocs.Proofs.Disk.Way

/-!
# A folder that is filled

While examples are checked, a disk has one folder with nothing but files in it more than
before.  Nothing else is lost meanwhile, and when the folder is taken away, the disk is as
it was.
-/

namespace ApiDocs.Disk

variable {before after : Disk} {folder place : Location} {name : Text} {bytes : List UInt8}

theorem IsTree.entryAt_of_isWithin {disk : Disk} (tree : disk.IsTree)
    (nothing : disk.entryAt folder = none) (inside : isWithin folder place = true) :
    disk.entryAt place = none := by
  obtain ⟨rest, rfl⟩ := isWithin_iff.mp inside
  rcases eq_or_ne rest [] with rfl | nonempty
  · rwa [List.append_nil]
  · cases standing : disk.entryAt (folder ++ rest) with
    | none => rfl
    | some entry =>
        rw [tree.entryAt_above nonempty standing] at nothing
        cases nothing

/-- What a disk has more than another one is a folder at a place with nothing but files in it. -/
structure IsFilled (folder : Location) (before after : Disk) : Prop where
  outside : ∀ place, isWithin folder place = false → after.entryAt place = before.entryAt place
  isFolder : after.entryAt folder = none ∨ after.entryAt folder = some .folder
  flat : ∀ name, after.entryAt (folder ++ [name]) ≠ some .folder

namespace IsFilled

theorem refl (tree : before.IsTree) (nothing : before.entryAt folder = none) :
    IsFilled folder before before where
  outside := fun _ _ => rfl
  isFolder := .inl nothing
  flat := fun name standing => by
    rw [tree.entryAt_of_isWithin nothing (isWithin_iff.mpr ⟨[name], rfl⟩)] at standing
    cases standing

variable (filled : IsFilled folder before after)

include filled

/-- Where there was nothing at the place, no folder is lost. -/
theorem entryAt_folder (tree : before.IsTree) (nothing : before.entryAt folder = none)
    (standing : before.entryAt place = some .folder) : after.entryAt place = some .folder := by
  rw [filled.outside, standing]
  rw [Bool.eq_false_iff]
  intro inside
  rw [tree.entryAt_of_isWithin nothing inside] at standing
  cases standing

/-- Nor is one lost when the folder at the place is emptied. -/
theorem entryAt_empty (tree : before.IsTree) (nothing : before.entryAt folder = none)
    (standing : before.entryAt place = some .folder) :
    (after.empty folder).entryAt place = some .folder := by
  rw [Disk.entryAt_empty, filled.entryAt_folder tree nothing standing]
  split
  · rfl
  · rw [if_neg]
    rintro ⟨-, inside⟩
    rw [tree.entryAt_of_isWithin nothing inside] at standing
    cases standing

theorem put_folder (nothing : after.entryAt folder = none) (tree : after.IsTree) :
    IsFilled folder before (after.put folder .folder) where
  outside := fun place outside => by
    rw [entryAt_put_of_ne, filled.outside place outside]
    rintro rfl
    rw [isWithin_self] at outside
    cases outside
  isFolder := by
    refine .inr (entryAt_put_self ?_)
    rintro rfl
    rw [entryAt_root] at nothing
    cases nothing
  flat := fun name => by
    rw [entryAt_put_of_ne (by simp),
      tree.entryAt_of_isWithin nothing (isWithin_iff.mpr ⟨[name], rfl⟩)]
    simp

theorem put_file (name : Text) (bytes : List UInt8) :
    IsFilled folder before (after.put (folder ++ [name]) (.file bytes)) where
  outside := fun place outside => by
    rw [entryAt_put_of_ne, filled.outside place outside]
    rintro rfl
    rw [isWithin_iff.mpr ⟨[name], rfl⟩] at outside
    cases outside
  isFolder := by
    rw [entryAt_put_of_ne (by simp)]
    exact filled.isFolder
  flat := fun other => by
    rcases eq_or_ne other name with rfl | differs
    · rw [entryAt_put_self (by simp)]
      simp
    · rw [entryAt_put_of_ne (by simpa using differs)]
      exact filled.flat other

theorem entryAt_of_nothing (tree : before.IsTree) (afterTree : after.IsTree)
    (nothing : before.entryAt folder = none) (still : after.entryAt folder = none)
    (place : Location) : after.entryAt place = before.entryAt place := by
  cases inside : isWithin folder place with
  | false => exact filled.outside place inside
  | true =>
      rw [tree.entryAt_of_isWithin nothing inside, afterTree.entryAt_of_isWithin still inside]

/-- When the folder is taken away, the disk is as it was before. -/
theorem entryAt_erase (tree : before.IsTree) (nothing : before.entryAt folder = none)
    (place : Location) : (after.erase folder).entryAt place = before.entryAt place := by
  cases inside : isWithin folder place with
  | false => rw [entryAt_erase_of_outside (by simp [inside]), filled.outside place inside]
  | true =>
      have absent := tree.entryAt_of_isWithin nothing inside
      rw [absent, Disk.entryAt_erase, if_pos inside, if_neg]
      rintro rfl
      rw [entryAt_root] at absent
      cases absent

end IsFilled

end ApiDocs.Disk
