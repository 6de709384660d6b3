import ApiDocs.Proofs.Disk.Way

/-!
# What may come into being

The other side of what changes keep: writing a file brings at most that file and folders on
the way to it, and taking away brings nothing.
-/

namespace ApiDocs.Disk

variable {disk before after : Disk} {here place location : Location} {path : Text}
variable {files folders moreFiles moreFolders : Location → Prop}

/--
What is new after some changes: files at the places of one scope, and folders at those of
another one.
-/
structure Gains (files folders : Location → Prop) (before after : Disk) : Prop where
  file : ∀ place content, ¬files place → after.entryAt place = some (.file content) →
    before.entryAt place = some (.file content)
  folder : ∀ place, ¬folders place → after.entryAt place = some .folder →
    before.entryAt place = some .folder

namespace Gains

theorem refl (files folders : Location → Prop) (disk : Disk) : Gains files folders disk disk :=
  ⟨fun _ _ _ => id, fun _ _ => id⟩

theorem trans {middle : Disk} (first : Gains files folders before middle)
    (second : Gains files folders middle after) : Gains files folders before after where
  file := fun place content outside standing =>
    first.file place content outside (second.file place content outside standing)
  folder := fun place outside standing =>
    first.folder place outside (second.folder place outside standing)

theorem mono (gains : Gains files folders before after)
    (inFiles : ∀ place, files place → moreFiles place)
    (inFolders : ∀ place, folders place → moreFolders place) :
    Gains moreFiles moreFolders before after where
  file := fun place content outside => gains.file place content (mt (inFiles place) outside)
  folder := fun place outside => gains.folder place (mt (inFolders place) outside)

end Gains

/-- What only shrinks has nothing new. -/
theorem Shrinks.gains (shrinks : Shrinks before after) (files folders : Location → Prop) :
    Gains files folders before after :=
  ⟨fun _ _ _ => shrinks.entryAt, fun _ _ => shrinks.entryAt⟩

theorem gains_put_file (content : List UInt8) :
    Gains (· = location) nowhere disk (disk.put location (.file content)) where
  file := fun place other outside standing => by rwa [entryAt_put_of_ne outside] at standing
  folder := fun place _ standing => by
    rw [entryAt_put] at standing
    split at standing
    · rename_i root
      rw [root, entryAt_root]
    · split at standing
      · cases standing
      · exact standing

theorem gains_put_folder : Gains nowhere (· = location) disk (disk.put location .folder) where
  file := fun place content _ standing => by
    rw [entryAt_put] at standing
    split at standing
    · cases standing
    · split at standing
      · cases standing
      · exact standing
  folder := fun place outside standing => by rwa [entryAt_put_of_ne outside] at standing

theorem gains_makeFolder :
    Gains nowhere (atPath here path) disk (disk.makeFolder here path).2 := by
  rw [makeFolder, placeName_eq_place, Disk.place]
  cases located : disk.locate here path with
  | error error => exact .refl _ _ _
  | ok location =>
      cases standing : disk.entryAt location with
      | some entry => simpa only [standing] using Gains.refl _ _ disk
      | none =>
          simp only [standing]
          refine gains_put_folder.mono (fun _ => id) ?_
          rintro place rfl
          exact ⟨isPath_of_locate located, eq_target_of_locate located⟩

/-- The places on the way of an absolute path, itself included. -/
def onWay (path : CleanPath) : Location → Prop :=
  fun place => ∃ front, front <+: path.names ∧ IsPath (CleanPath.mk path.anchor front).text ∧
    place = follow [] front

theorem gains_makeFoldersUpTo {anchor : Path.Anchor} (absolute : anchor ≠ .relative)
    (names : List Text) (proper : ∀ name ∈ names, Path.IsName name) :
    Gains nowhere (onWay { anchor, names := names.reverse }) disk
      (disk.makeFoldersUpTo here anchor names).2 := by
  induction names with
  | nil => exact .refl _ _ _
  | cons name above ih =>
      have aboveProper : ∀ other ∈ above, Path.IsName other := fun other member =>
        proper other (List.mem_cons_of_mem name member)
      have ownAbsolute : (CleanPath.mk anchor (name :: above).reverse).IsAbsolute := absolute
      have ownProper : (CleanPath.mk anchor (name :: above).reverse).IsProper := fun other member =>
        proper other (List.mem_reverse.mp member)
      have one (disk : Disk) :
          Gains nowhere (onWay { anchor, names := (name :: above).reverse }) disk
            (disk.makeFolder here (CleanPath.mk anchor (name :: above).reverse).text).2 := by
        refine gains_makeFolder.mono (fun _ => id) ?_
        rintro place ⟨isPath, rfl⟩
        exact ⟨_, List.prefix_refl _, isPath, ownAbsolute.target_text ownProper here⟩
      have further :
          Gains nowhere (onWay { anchor, names := (name :: above).reverse }) disk
            (disk.makeFoldersUpTo here anchor above).2 := by
        refine (ih aboveProper).mono (fun _ => id) ?_
        rintro place ⟨front, isFront, isPath, rfl⟩
        refine ⟨front, isFront.trans ?_, isPath, rfl⟩
        rw [List.reverse_cons]
        exact List.prefix_append _ _
      rw [makeFoldersUpTo]
      split
      · rename_i made outcome
        have := one disk
        rwa [outcome] at this
      · split
        · rename_i outcome
          rwa [outcome] at further
        · rename_i made outcome
          rw [outcome] at further
          split
          · rename_i outcome
            have := one made
            rw [outcome] at this
            exact further.trans this
          · rename_i outcome
            have := one made
            rw [outcome] at this
            rw [unlessFolder_snd]
            exact further.trans this
      · rw [unlessFolder_snd]
        exact .refl _ _ _

theorem gains_writeInFolder (content : List UInt8) :
    Gains (atPath here path) nowhere disk (disk.writeInFolder here path content).2 := by
  rw [writeInFolder, Disk.place]
  cases located : disk.locate here path with
  | error error => exact .refl _ _ _
  | ok location =>
      have atPlace : Gains (atPath here path) nowhere disk (disk.put location (.file content)) := by
        refine (gains_put_file content).mono ?_ fun _ => id
        rintro place rfl
        exact ⟨isPath_of_locate located, eq_target_of_locate located⟩
      simp only
      split
      · exact .refl _ _ disk
      · exact atPlace

/-- Writing a file brings the file, and folders on the way to it. -/
theorem gains_write {path : CleanPath} (absolute : path.IsAbsolute) (proper : path.IsProper)
    (content : List UInt8) :
    Gains (atPath here path.text) (onWay path.parent) disk
      (disk.write here path.text content).2 := by
  have folders : Gains nowhere (onWay path.parent) disk (disk.makeFolders here path.parent).2 := by
    have made : Gains nowhere (onWay { path.parent with names := path.parent.names.reverse.reverse })
        disk (disk.makeFolders here path.parent).2 :=
      gains_makeFoldersUpTo absolute path.parent.names.reverse fun name member =>
        proper.parent name (List.mem_reverse.mp member)
    rwa [List.reverse_reverse] at made
  rw [write, proper.ofText_text]
  split
  · rename_i outcome
    rw [outcome] at folders
    exact folders.mono (fun _ => False.elim) fun _ => id
  · rename_i made outcome
    rw [outcome] at folders
    exact (folders.mono (fun _ => False.elim) fun _ => id).trans
      ((gains_writeInFolder content).mono (fun _ => id) fun _ => False.elim)

/-! ## Names of places -/

/--
Every name of a place to which names lead is a name of where they begin or is shown for one of them.
-/
theorem mem_follow {names : List Text} {name : Text} (member : name ∈ follow location names) :
    name ∈ location ∨ ∃ other ∈ names, name = Name.stored other := by
  induction names generalizing location with
  | nil => exact .inl member
  | cons first rest ih =>
      have next : name ∈ follow (advance location (Name.stored first)) rest := member
      rcases ih next with inLocation | ⟨other, inRest, same⟩
      · rw [advance] at inLocation
        split at inLocation
        · exact .inl inLocation
        · split at inLocation
          · exact .inl (List.dropLast_subset _ inLocation)
          · rcases List.mem_append.mp inLocation with before | last
            · exact .inl before
            · exact .inr ⟨first, List.mem_cons_self, List.mem_singleton.mp last⟩
      · exact .inr ⟨other, List.mem_cons_of_mem first inRest, same⟩

end ApiDocs.Disk
