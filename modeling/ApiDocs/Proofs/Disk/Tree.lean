import Mathlib.Data.List.Induction
import Mathlib.Data.List.Nodup
import ApiDocs.Disk.Basic
import ApiDocs.Proofs.Disk.Target

/-!
# Disks that are trees

On a disk that is a tree every entry stands in a folder, under a name that the disk can
keep, and no place is listed twice.  Putting an entry into a folder and taking away
everything at or below a place lead from trees to trees.
-/

namespace ApiDocs.Disk

variable {links : Bool} {disk : Disk links} {place location : Location} {entry : Entry links}
variable {name : Text}

/-! ## Places at or below others -/

theorem isWithin_iff : isWithin location place = true ↔ ∃ rest, place = location ++ rest := by
  rw [isWithin, List.isPrefixOf_iff_prefix]
  exact ⟨fun ⟨rest, same⟩ => ⟨rest, same.symm⟩, fun ⟨rest, same⟩ => ⟨rest, same.symm⟩⟩

@[simp]
theorem isWithin_self (place : Location) : isWithin place place = true :=
  isWithin_iff.mpr ⟨[], (List.append_nil place).symm⟩

theorem isWithin_trans {first second third : Location} (above : isWithin first second = true)
    (below : isWithin second third = true) : isWithin first third = true := by
  obtain ⟨rest, rfl⟩ := isWithin_iff.mp above
  obtain ⟨further, rfl⟩ := isWithin_iff.mp below
  exact isWithin_iff.mpr ⟨rest ++ further, List.append_assoc _ _ _⟩

theorem isWithin_of_dropLast (above : isWithin location place.dropLast = true) :
    isWithin location place = true :=
  isWithin_trans above (List.isPrefixOf_iff_prefix.mpr (List.dropLast_prefix place))

theorem not_isWithin_dropLast (nonempty : location ≠ []) :
    isWithin location location.dropLast = false := by
  rw [Bool.eq_false_iff]
  intro above
  have shorter := (List.isPrefixOf_iff_prefix.mp above).length_le
  have := List.length_pos_iff.mpr nonempty
  simp only [List.length_dropLast] at shorter
  omega

/-! ## What changes do to entries -/

theorem lookup_filter_place (keep : Location → Bool) (place : Location)
    (entries : List (Location × Entry links)) :
    (entries.filter fun entry => keep entry.1).lookup place =
      if keep place then entries.lookup place else none := by
  induction entries with
  | nil => simp
  | cons head rest ih =>
      obtain ⟨other, standing⟩ := head
      by_cases same : place = other
      · subst same
        cases kept : keep place <;> simp [kept, ih]
      · have differs : (place == other) = false := by simpa using same
        cases kept : keep other <;> simp [kept, List.lookup_cons, differs, ih]

theorem entryAt_erase (disk : Disk links) (location place : Location) :
    (disk.erase location).entryAt place =
      if place = [] then some .folder
      else if isWithin location place then none
      else disk.entryAt place := by
  by_cases root : place = []
  · simp [root]
  · have kept := lookup_filter_place (fun other => !isWithin location other) place disk.entries
    simp only [entryAt, if_neg root, erase]
    refine kept.trans ?_
    cases isWithin location place <;> rfl

theorem entryAt_empty (disk : Disk links) (location place : Location) :
    (disk.empty location).entryAt place =
      if place = [] then some .folder
      else if place ≠ location ∧ isWithin location place then none
      else disk.entryAt place := by
  by_cases root : place = []
  · simp [root]
  · have kept := lookup_filter_place
      (fun other => other == location || !isWithin location other) place disk.entries
    simp only [entryAt, if_neg root, empty]
    refine kept.trans ?_
    by_cases same : place = location
    · simp [same]
    · cases isWithin location place <;> simp [same]

theorem keys_setEntry (location : Location) (entry : Entry links)
    (entries : List (Location × Entry links)) :
    (setEntry location entry entries).map Prod.fst =
      if location ∈ entries.map Prod.fst then entries.map Prod.fst
      else entries.map Prod.fst ++ [location] := by
  induction entries with
  | nil => rfl
  | cons head rest ih =>
      obtain ⟨other, old⟩ := head
      by_cases same : other = location
      · simp [setEntry, same]
      · have differs : ¬location = other := fun equal => same equal.symm
        rw [setEntry, if_neg same, List.map_cons, ih]
        simp only [List.map_cons, List.mem_cons, differs, false_or]
        split <;> rfl

theorem mem_keys_put {other : Location}
    (member : other ∈ (disk.put place entry).entries.map Prod.fst) :
    other ∈ disk.entries.map Prod.fst ∨ other = place := by
  simp only [Disk.put, keys_setEntry] at member
  split at member
  · exact .inl member
  · simpa using member

theorem nodup_keys_put (distinct : (disk.entries.map Prod.fst).Nodup) :
    ((disk.put place entry).entries.map Prod.fst).Nodup := by
  simp only [Disk.put, keys_setEntry]
  split
  · exact distinct
  · rename_i new
    refine List.nodup_append.mpr ⟨distinct, List.nodup_singleton _, ?_⟩
    rintro old member other isNew rfl
    rw [List.mem_singleton] at isNew
    exact new (isNew ▸ member)

/-- Every folder stays if none is replaced by a file. -/
theorem entryAt_put_of_keeps {other : Location}
    (keepsFolders : disk.entryAt place = some .folder → entry = .folder)
    (folder : disk.entryAt other = some .folder) :
    (disk.put place entry).entryAt other = some .folder := by
  rw [entryAt_put]
  split
  · rfl
  · split
    · rename_i same
      rw [keepsFolders (same ▸ folder)]
    · exact folder

/-! ## Trees -/

/-- A name under which something can stand on a disk. -/
structure IsName (name : Text) : Prop extends Path.IsName name where
  notUp : name ≠ ".."
  shown : Name.stored name = name
  short : Name.size name ≤ nameLimit

instance (name : Text) : Decidable (IsName name) :=
  decidable_of_iff
    (Path.IsName name ∧ name ≠ ".." ∧ Name.stored name = name ∧ Name.size name ≤ nameLimit)
    ⟨fun ⟨isName, notUp, shown, short⟩ => ⟨isName, notUp, shown, short⟩,
      fun ⟨isName, notUp, shown, short⟩ => ⟨isName, notUp, shown, short⟩⟩

/-- Whether the entries of a disk form a tree. -/
structure IsTree (disk : Disk links) : Prop where
  distinct : (disk.entries.map Prod.fst).Nodup
  belowRoot : ∀ place ∈ disk.entries.map Prod.fst, place ≠ []
  named : ∀ place ∈ disk.entries.map Prod.fst, ∀ name ∈ place, IsName name
  inFolder : ∀ place ∈ disk.entries.map Prod.fst, disk.entryAt place.dropLast = some .folder

instance (disk : Disk links) : Decidable disk.IsTree :=
  decidable_of_iff
    ((disk.entries.map Prod.fst).Nodup ∧
      (∀ place ∈ disk.entries.map Prod.fst, place ≠ []) ∧
      (∀ place ∈ disk.entries.map Prod.fst, ∀ name ∈ place, IsName name) ∧
      ∀ place ∈ disk.entries.map Prod.fst, disk.entryAt place.dropLast = some .folder)
    ⟨fun ⟨distinct, belowRoot, named, inFolder⟩ => ⟨distinct, belowRoot, named, inFolder⟩,
      fun ⟨distinct, belowRoot, named, inFolder⟩ => ⟨distinct, belowRoot, named, inFolder⟩⟩

theorem mem_of_lookup {entries : List (Location × Entry links)}
    (found : entries.lookup place = some entry) : (place, entry) ∈ entries := by
  obtain ⟨before, after, rfl, -⟩ := List.lookup_eq_some_iff.mp found
  simp

theorem mem_entries_of_entryAt (below : place ≠ []) (standing : disk.entryAt place = some entry) :
    (place, entry) ∈ disk.entries := by
  rw [entryAt, if_neg below] at standing
  exact mem_of_lookup standing

theorem mem_keys_of_entryAt (below : place ≠ []) (standing : disk.entryAt place = some entry) :
    place ∈ disk.entries.map Prod.fst :=
  List.mem_map_of_mem (mem_entries_of_entryAt below standing)

theorem lookup_eq_some_iff_mem {entries : List (Location × Entry links)}
    (distinct : (entries.map Prod.fst).Nodup) :
    entries.lookup place = some entry ↔ (place, entry) ∈ entries := by
  refine ⟨mem_of_lookup, fun member => ?_⟩
  induction entries with
  | nil => cases member
  | cons head rest ih =>
      obtain ⟨other, old⟩ := head
      obtain ⟨new, distinctRest⟩ := List.nodup_cons.mp distinct
      rcases List.mem_cons.mp member with same | inRest
      · cases same
        simp
      · have differs : (place == other) = false := by
          simp only [beq_eq_false_iff_ne, ne_eq]
          rintro rfl
          exact new (List.mem_map.mpr ⟨_, inRest, rfl⟩)
        simp only [List.lookup_cons, differs]
        exact ih distinctRest inRest

namespace IsTree

variable (tree : disk.IsTree)

include tree

theorem isName_of_mem (standing : disk.entryAt place = some entry) (member : name ∈ place) :
    IsName name := by
  have below : place ≠ [] := List.ne_nil_of_mem member
  exact tree.named place (mem_keys_of_entryAt below standing) name member

/-- What stands somewhere stands in a folder. -/
theorem entryAt_parent (standing : disk.entryAt (place ++ [name]) = some entry) :
    disk.entryAt place = some .folder := by
  have below : place ++ [name] ≠ [] := by simp
  have parent := tree.inFolder _ (mem_keys_of_entryAt below standing)
  rwa [List.dropLast_concat] at parent

/-- Everything above an entry is a folder. -/
theorem entryAt_above {rest : List Text} (nonempty : rest ≠ [])
    (standing : disk.entryAt (place ++ rest) = some entry) :
    disk.entryAt place = some .folder := by
  induction rest using List.reverseRecOn generalizing entry with
  | nil => exact absurd rfl nonempty
  | append_singleton front name ih =>
      rw [← List.append_assoc] at standing
      have parent := tree.entryAt_parent standing
      rcases eq_or_ne front [] with rfl | longer
      · rwa [List.append_nil] at parent
      · exact ih longer parent

theorem entryAt_dropLast (standing : disk.entryAt place = some .folder) :
    disk.entryAt place.dropLast = some .folder := by
  rcases eq_or_ne place [] with rfl | below
  · exact entryAt_root disk
  · exact tree.inFolder place (mem_keys_of_entryAt below standing)

/-- Putting an entry into a folder gives a tree if no folder is replaced by a file. -/
theorem put (parent : disk.entryAt place = some .folder) (isName : IsName name)
    (keepsFolders : disk.entryAt (place ++ [name]) = some .folder → entry = .folder) :
    (disk.put (place ++ [name]) entry).IsTree := by
  constructor
  · exact nodup_keys_put tree.distinct
  · intro other member
    rcases mem_keys_put member with old | rfl
    · exact tree.belowRoot other old
    · simp
  · intro other member own inOther
    rcases mem_keys_put member with old | rfl
    · exact tree.named other old own inOther
    · rcases List.mem_append.mp inOther with inPlace | last
      · exact tree.isName_of_mem parent inPlace
      · rwa [List.mem_singleton.mp last]
  · intro other member
    rcases mem_keys_put member with old | rfl
    · exact entryAt_put_of_keeps keepsFolders (tree.inFolder other old)
    · rw [List.dropLast_concat]
      exact entryAt_put_of_keeps keepsFolders parent

/-- A part of a tree that has the folder above each of its places is a tree. -/
theorem filter (keep : Location → Bool)
    (closed : ∀ other : Location, other ≠ [] → keep other = true →
      other.dropLast = [] ∨ keep other.dropLast = true) :
    IsTree { entries := disk.entries.filter fun entry => keep entry.1 } := by
  have mem_keys {other : Location}
      (member : other ∈ (disk.entries.filter fun entry => keep entry.1).map Prod.fst) :
      other ∈ disk.entries.map Prod.fst ∧ keep other = true := by
    obtain ⟨pair, inFilter, rfl⟩ := List.mem_map.mp member
    obtain ⟨inEntries, kept⟩ := List.mem_filter.mp inFilter
    exact ⟨List.mem_map_of_mem inEntries, kept⟩
  constructor
  · exact tree.distinct.sublist (List.filter_sublist.map Prod.fst)
  · intro other member
    exact tree.belowRoot other (mem_keys member).1
  · intro other member
    exact tree.named other (mem_keys member).1
  · intro other member
    obtain ⟨inKeys, kept⟩ := mem_keys member
    have folder := tree.inFolder other inKeys
    rw [entryAt] at folder ⊢
    split
    · rfl
    · rename_i below
      rw [if_neg below] at folder
      rw [lookup_filter_place, folder]
      rcases closed other (tree.belowRoot other inKeys) kept with root | keptAbove
      · exact absurd root below
      · rw [if_pos keptAbove]

theorem erase (location : Location) : (disk.erase location).IsTree := by
  apply tree.filter fun other => !isWithin location other
  intro other _ kept
  right
  simp only [Bool.not_eq_true'] at kept ⊢
  rw [Bool.eq_false_iff] at kept ⊢
  exact mt isWithin_of_dropLast kept

theorem empty (location : Location) : (disk.empty location).IsTree := by
  apply tree.filter fun other => other == location || !isWithin location other
  intro other below kept
  right
  simp only [Bool.or_eq_true, beq_iff_eq, Bool.not_eq_true'] at kept ⊢
  right
  rcases kept with rfl | outside
  · exact not_isWithin_dropLast below
  · rw [Bool.eq_false_iff] at outside ⊢
    exact mt isWithin_of_dropLast outside

end IsTree

end ApiDocs.Disk
