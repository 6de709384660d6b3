import ApiDocs.Disk.Text
import ApiDocs.Proofs.Disk.Copy

/-!
# Texts that are no paths

The disk does not take every text for a path.  An access is refused in this way only if a
text that it was given has a symbol that may not stand in a path; the folders that are made
on the way to a file add none.
-/

namespace ApiDocs.Disk

open Spot (mayStand)

variable {links : Bool} {disk : Disk links} {follows : Bool} {here : Location} {path : Text}
variable {fault : PathFault}

/-- An outcome that is not the refusal of a text that is no path. -/
def TakesPath {α : Type} (outcome : Except DiskError α) : Prop :=
  ∀ fault, outcome ≠ .error (.notAPath fault)

theorem pathFault?_of_locateBy
    (refused : disk.locateBy follows here path = .error (.notAPath fault)) :
    pathFault? path = some fault := by
  rw [locateBy] at refused
  split at refused
  · rename_i found same
    cases refused
    exact same
  · split at refused
    · cases refused
    · split at refused
      · cases refused
      · split at refused <;> cases refused

theorem pathFault?_of_find (refused : disk.find here path = .error (.notAPath fault)) :
    pathFault? path = some fault := by
  rw [find] at refused
  split at refused
  · rename_i found same
    cases refused
    exact pathFault?_of_locateBy same
  · split at refused <;> cases refused

theorem pathFault?_of_findName (refused : disk.findName here path = .error (.notAPath fault)) :
    pathFault? path = some fault := by
  rw [findName] at refused
  split at refused
  · rename_i found same
    cases refused
    exact pathFault?_of_locateBy same
  · split at refused <;> cases refused

theorem pathFault?_of_place (refused : disk.place here path = .error (.notAPath fault)) :
    pathFault? path = some fault := by
  rw [place] at refused
  split at refused
  · rename_i found same
    cases refused
    exact pathFault?_of_locateBy same
  · cases refused

theorem pathFault?_of_placeName (refused : disk.placeName here path = .error (.notAPath fault)) :
    pathFault? path = some fault := by
  rw [placeName] at refused
  split at refused
  · rename_i found same
    cases refused
    exact pathFault?_of_locateBy same
  · cases refused

theorem pathFault?_of_read (refused : disk.read here path = .error (.notAPath fault)) :
    pathFault? path = some fault := by
  rw [read] at refused
  split at refused
  · rename_i found same
    cases refused
    exact pathFault?_of_find same
  · split at refused <;> cases refused

/-! ## Making folders -/

theorem pathFault?_of_makeFolder
    (refused : (disk.makeFolder here path).1 = .error (.notAPath fault)) :
    pathFault? path = some fault := by
  rw [makeFolder] at refused
  split at refused
  · rename_i found same
    cases refused
    exact pathFault?_of_placeName same
  · cases refused
  · cases refused

theorem unlessFolder_fst {error : DiskError}
    (refused : (disk.unlessFolder here path error).1 = .error (.notAPath fault)) :
    error = .notAPath fault := by
  rw [unlessFolder] at refused
  split at refused
  · cases refused
  · cases refused
    rfl

/-- A clean path has no other symbols than its names and slashes, or a point. -/
theorem mayStand_of_mem_text {path : CleanPath}
    (names : ∀ name ∈ path.names, ∀ symbol ∈ name, mayStand symbol) :
    ∀ symbol ∈ path.text, mayStand symbol := by
  have slashes : ∀ symbol ∈ path.anchor.text, symbol = .char '/' := by
    cases path.anchor <;> decide
  have separator : ∀ symbol ∈ ("/" : Text), mayStand symbol := by
    simpa [Text.ofString, Text.ofChars] using Spot.mayStand_slash
  have point : ∀ symbol ∈ ("." : Text), mayStand symbol := by
    simp [Text.ofString, Text.ofChars, mayStand]
  rw [CleanPath.text]
  split
  · exact point
  · rw [List.forall_mem_append]
    refine ⟨fun symbol member => ?_, (Spot.forall_mem_joinWith_iff separator _).mpr names⟩
    rw [slashes symbol member]
    exact Spot.mayStand_slash

theorem mayStand_of_mem_names (clean : ∀ symbol ∈ path, mayStand symbol) :
    ∀ name ∈ Path.names path, ∀ symbol ∈ name, mayStand symbol := by
  intro name member symbol inName
  have isPiece : name ∈ Path.pieces path := (List.mem_filter.mp member).1
  refine clean symbol ?_
  rw [← Text.joinWith_splitOn (.char '/') path]
  exact Text.mem_joinWith_of_mem isPiece inName

theorem takesPath_makeFoldersUpTo {anchor : Path.Anchor} {names : List Text}
    (clean : ∀ name ∈ names, ∀ symbol ∈ name, mayStand symbol) :
    TakesPath (disk.makeFoldersUpTo here anchor names).1 := by
  induction names generalizing disk with
  | nil => exact fun fault refused => by cases refused
  | cons name above ih =>
      have isPath : pathFault? (CleanPath.mk anchor (name :: above).reverse).text = none := by
        rw [Spot.pathFault?_eq_none_iff]
        refine mayStand_of_mem_text fun other member => clean other ?_
        exact List.mem_reverse.mp member
      -- making this folder is not refused for its path, on whatever disk
      have takes {disk made : Disk links} {error : DiskError} {fault : PathFault}
          (ended : disk.makeFolder here (CleanPath.mk anchor (name :: above).reverse).text =
            (.error error, made)) : error ≠ .notAPath fault := by
        rintro rfl
        have same := pathFault?_of_makeFolder (congrArg Prod.fst ended)
        rw [isPath] at same
        cases same
      intro fault refused
      rw [makeFoldersUpTo] at refused
      split at refused
      · cases refused
      · split at refused
        · rename_i ended
          cases refused
          exact ih (fun other member => clean other (List.mem_cons_of_mem name member)) fault
            (congrArg Prod.fst ended)
        · split at refused
          · cases refused
          · rename_i ended
            exact takes ended (unlessFolder_fst refused)
      · rename_i ended
        exact takes ended (unlessFolder_fst refused)

/-! ## Writing and removing -/

/-- A file is not refused for its path if every symbol of the path may stand there. -/
theorem pathFault?_of_write {content : List UInt8}
    (refused : (disk.write here path content).1 = .error (.notAPath fault)) :
    pathFault? path ≠ none := by
  intro isPath
  have clean := mayStand_of_mem_names (Spot.pathFault?_eq_none_iff.mp isPath)
  rw [write] at refused
  split at refused
  · rename_i ended
    cases refused
    refine takesPath_makeFoldersUpTo (fun name member => clean name ?_) fault
      (congrArg Prod.fst ended)
    exact (List.dropLast_sublist _).subset (List.mem_reverse.mp member)
  · rw [writeInFolder] at refused
    split at refused
    · rename_i found
      cases refused
      have faulty := pathFault?_of_place found
      rw [Spot.pathFault?_eq_none_iff.mpr (mayStand_of_mem_text clean)] at faulty
      cases faulty
    · split at refused <;> cases refused

theorem pathFault?_of_remove (refused : (disk.remove here path).1 = .error (.notAPath fault)) :
    pathFault? path = some fault := by
  cases found : disk.findName here path with
  | error error =>
      rw [remove_of_no_name found] at refused
      cases refused
      exact pathFault?_of_findName found
  | ok pair =>
      obtain ⟨place, entry⟩ := pair
      by_cases folder : entry = .folder
      · subst folder
        rw [remove_of_folder_name found] at refused
        split at refused <;> cases refused
      · rw [remove_of_other_name found folder] at refused
        cases refused

theorem exists_pathFault?_of_removeEach {paths : List Text}
    (refused : (disk.removeEach here paths).1 = .error (.notAPath fault)) :
    ∃ path ∈ paths, pathFault? path = some fault := by
  induction paths generalizing disk with
  | nil => cases refused
  | cons path rest ih =>
      rw [removeEach] at refused
      split at refused
      · rename_i ended
        cases refused
        exact ⟨path, List.mem_cons_self, pathFault?_of_remove (congrArg Prod.fst ended)⟩
      · obtain ⟨other, member, faulty⟩ := ih refused
        exact ⟨other, List.mem_cons_of_mem path member, faulty⟩

end ApiDocs.Disk
