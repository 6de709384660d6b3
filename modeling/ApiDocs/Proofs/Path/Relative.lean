import ApiDocs.Module.Assemble
import ApiDocs.Proofs.Path.Clean

/-!
# Normal and relative paths

The normal form of an absolute path has no `..` any more, so taking it again changes
nothing.  A path that is expressed relative to another one climbs as often as the other
path has names of its own, and goes down from there; below the other path it does not
climb at all.
-/

namespace ApiDocs

namespace Path

variable {path start : Text} {anchor : Anchor} {before list : List Text} {name : Text}

theorem isName_up : IsName ".." := by
  decide

/-! ## Climbing -/

theorem climb_of_ne (plain : name ≠ "..") : climb anchor before name = name :: before := by
  simp only [climb, if_neg plain]

theorem foldl_climb_of_plain (plain : ∀ name ∈ list, name ≠ "..") :
    list.foldl (climb anchor) before = list.reverse ++ before := by
  induction list generalizing before with
  | nil => rfl
  | cons name rest ih =>
      rw [List.foldl_cons, climb_of_ne (plain name List.mem_cons_self),
        ih fun other member => plain other (List.mem_cons_of_mem name member)]
      simp

/-- Climbing keeps names that were there and adds only the next one. -/
theorem mem_of_mem_climb {other : Text} (member : other ∈ climb anchor before name) :
    other ∈ before ∨ other = name := by
  simp only [climb] at member
  split at member
  · split at member
    · split at member
      · exact .inr (List.mem_singleton.mp member)
      · cases member
    · split at member
      · rcases List.mem_cons.mp member with same | old
        · exact .inr same
        · exact .inl old
      · exact .inl (List.mem_cons_of_mem _ member)
  · rcases List.mem_cons.mp member with same | old
    · exact .inr same
    · exact .inl old

theorem mem_of_mem_foldl_climb {other : Text}
    (member : other ∈ list.foldl (climb anchor) before) : other ∈ before ∨ other ∈ list := by
  induction list generalizing before with
  | nil => exact .inl member
  | cons name rest ih =>
      rcases ih member with climbed | further
      · rcases mem_of_mem_climb climbed with old | rfl
        · exact .inl old
        · exact .inr List.mem_cons_self
      · exact .inr (List.mem_cons_of_mem name further)

/-- Below the root no step up is left. -/
theorem up_not_mem_climb (absolute : anchor ≠ .relative)
    (plain : ((".." : Text)) ∉ before) : ((".." : Text)) ∉ climb anchor before name := by
  simp only [climb, if_neg absolute]
  split
  · split
    · exact List.not_mem_nil
    · rename_i last above
      obtain ⟨notLast, notAbove⟩ := not_or.mp (mt List.mem_cons.mpr plain)
      rw [if_neg (Ne.symm notLast)]
      exact notAbove
  · rename_i differs
    exact List.not_mem_cons_of_ne_of_not_mem (Ne.symm differs) plain

theorem up_not_mem_foldl_climb (absolute : anchor ≠ .relative)
    (plain : ((".." : Text)) ∉ before) :
    ((".." : Text)) ∉ list.foldl (climb anchor) before := by
  induction list generalizing before with
  | nil => exact plain
  | cons name rest ih => exact ih (up_not_mem_climb absolute plain)

/-! ## Normal forms -/

theorem up_not_mem_normalNames (absolute : isAbsolute path = true) :
    ((".." : Text)) ∉ normalNames path := by
  rw [normalNames, List.mem_reverse]
  exact up_not_mem_foldl_climb (CleanPath.isAbsolute_ofText_iff.mpr absolute) List.not_mem_nil

theorem mem_names_of_mem_normalNames (member : name ∈ normalNames path) : name ∈ names path := by
  rw [normalNames, List.mem_reverse] at member
  rcases mem_of_mem_foldl_climb member with none | inPath
  · cases none
  · exact inPath

theorem isName_of_mem_normalNames (member : name ∈ normalNames path) : IsName name :=
  isName_of_mem_names (mem_names_of_mem_normalNames member)

theorem normalNames_of_plain (plain : ∀ name ∈ names path, name ≠ "..") :
    normalNames path = names path := by
  rw [normalNames, foldl_climb_of_plain plain]
  simp

/-- Names that do not climb stay behind the normal form of what is before them. -/
theorem normalNames_of_append {front rest : List Text} {folder : Text}
    (read : names path = front ++ rest) (folderRead : names folder = front)
    (sameAnchor : anchorOf path = anchorOf folder) (plain : ∀ name ∈ rest, name ≠ "..") :
    normalNames path = normalNames folder ++ rest := by
  rw [normalNames, normalNames, read, folderRead, sameAnchor, List.foldl_append,
    foldl_climb_of_plain plain]
  simp

/-- A last name that does not climb is the last name of the normal form. -/
theorem normalNames_eq_concat {front : List Text} (read : names path = front ++ [name])
    (plain : name ≠ "..") : ∃ normalFront, normalNames path = normalFront ++ [name] := by
  refine ⟨(front.foldl (climb (anchorOf path)) []).reverse, ?_⟩
  rw [normalNames, read, List.foldl_append, List.foldl_cons, List.foldl_nil, climb_of_ne plain,
    List.reverse_cons]

/-- The normal form as a clean path. -/
def normalClean (path : Text) : CleanPath :=
  { anchor := anchorOf path, names := normalNames path }

theorem isProper_normalClean (path : Text) : (normalClean path).IsProper :=
  fun _ member => isName_of_mem_normalNames member

theorem normal_eq_text (path : Text) : normal path = (normalClean path).text := by
  rw [normal, CleanPath.text]
  simp only [normalClean, List.isEmpty_iff]
  rfl

theorem isAbsolute_normal (absolute : isAbsolute path = true) :
    isAbsolute (normal path) = true := by
  rw [normal_eq_text]
  have fromRoot : (normalClean path).IsAbsolute := CleanPath.isAbsolute_ofText_iff.mpr absolute
  exact fromRoot.isAbsolute_text

/-- The names of a normal form are normal already. -/
theorem normalNames_normal (absolute : isAbsolute path = true) :
    normalNames (normal path) = normalNames path := by
  have read : names (normal path) = normalNames path := by
    rw [normal_eq_text]
    exact (isProper_normalClean path).names_text
  rw [normalNames_of_plain, read]
  rw [read]
  intro name member same
  exact up_not_mem_normalNames absolute (same ▸ member)

/-! ## Relative paths -/

/-- The names of the path from one list of names to another: up to where they part, then down. -/
def namesBetween (start goal : List Text) : List Text :=
  let parted := dropCommon start goal
  parted.1.map (fun _ => (".." : Text)) ++ parted.2

theorem dropCommon_append (start rest : List Text) :
    dropCommon start (start ++ rest) = ([], rest) := by
  induction start with
  | nil =>
      cases rest with
      | nil => rfl
      | cons first rest => rfl
  | cons name start ih => simp [dropCommon, ih]

/-- The way down from where two lists part ends as the second one does. -/
theorem dropCommon_snd_suffix (start goal : List Text) : (dropCommon start goal).2 <:+ goal := by
  fun_induction dropCommon start goal with
  | case1 lefts right rights ih => exact ih.trans (List.suffix_cons right rights)
  | case2 => exact List.suffix_rfl
  | case3 => exact List.suffix_rfl

@[simp]
theorem namesBetween_append (start rest : List Text) :
    namesBetween start (start ++ rest) = rest := by
  simp [namesBetween, dropCommon_append]

theorem isName_of_mem_namesBetween {start goal : List Text}
    (areNames : ∀ name ∈ goal, IsName name) (member : name ∈ namesBetween start goal) :
    IsName name := by
  rcases List.mem_append.mp member with climbing | going
  · obtain ⟨-, -, rfl⟩ := List.mem_map.mp climbing
    exact isName_up
  · exact areNames name ((dropCommon_snd_suffix start goal).subset going)

/-- A way climbs first and then goes down. -/
theorem exists_namesBetween_eq (start goal : List Text) :
    ∃ climbs down, namesBetween start goal = List.replicate climbs ((".." : Text)) ++ down ∧
      down <:+ goal := by
  refine ⟨(dropCommon start goal).1.length, (dropCommon start goal).2, ?_,
    dropCommon_snd_suffix start goal⟩
  rw [namesBetween, List.map_const']

/-- Behind its first name a way only goes down, unless the next name climbs. -/
theorem drop_namesBetween_suffix {start goal : List Text}
    (goesDown : ((namesBetween start goal).drop 1).head? ≠ some ((".." : Text))) :
    (namesBetween start goal).drop 1 <:+ goal := by
  obtain ⟨climbs, down, cut, suffix⟩ := exists_namesBetween_eq start goal
  rw [cut] at goesDown ⊢
  match climbs with
  | 0 => exact (List.drop_suffix 1 down).trans suffix
  | 1 => exact suffix
  | more + 2 => exact absurd rfl goesDown

/-- A relative path with proper names is written as these names, or as the present place. -/
theorem text_relative (areNames : ∀ name ∈ list, IsName name) :
    (CleanPath.mk .relative list).text =
      if list.isEmpty then (".": Text) else Text.joinWith "/" list := by
  cases list with
  | nil => rfl
  | cons name rest => exact if_neg (joinWith_ne_nil areNames (List.cons_ne_nil name rest))

/-- The parts of a relative path, seen from a folder. -/
theorem pathOf_relative {here : Text} (fromRoot : isAbsolute here = true) (path start : Text) :
    Module.pathOf (relative here path start) =
      namesBetween (normalNames (join here start)) (normalNames (join here path)) := by
  have proper : (CleanPath.mk .relative
      (namesBetween (normalNames (join here start)) (normalNames (join here path)))).IsProper :=
    fun _ => isName_of_mem_namesBetween fun _ => isName_of_mem_normalNames
  have written :
      relative here path start =
        (CleanPath.mk .relative
          (namesBetween (normalNames (join here start)) (normalNames (join here path)))).text := by
    rw [text_relative proper, relative, absolute, absolute,
      normalNames_normal (isAbsolute_join fromRoot), normalNames_normal (isAbsolute_join fromRoot)]
    rfl
  rw [Module.pathOf, written, proper.ofText_text]
  rfl

/-- No part of a relative path has a slash. -/
theorem isName_of_mem_pathOf_relative {here : Text} (fromRoot : isAbsolute here = true)
    (member : name ∈ Module.pathOf (relative here path start)) : IsName name := by
  rw [pathOf_relative fromRoot] at member
  exact isName_of_mem_namesBetween (fun _ => isName_of_mem_normalNames) member

/-! ## How deep names lead -/

variable {depth reached : Nat} {front rest : List Text}

/--
How deep names lead from a place that is itself some levels deep; none if they climb above
all of these levels.
-/
def depth? : Nat → List Text → Option Nat
  | depth, [] => some depth
  | depth, name :: rest =>
    if name = ".." then if depth = 0 then none else depth? (depth - 1) rest
    else depth? (depth + 1) rest

@[simp]
theorem depth?_nil (depth : Nat) : depth? depth [] = some depth := rfl

theorem depth?_of_ne (plain : name ≠ "..") (rest : List Text) :
    depth? depth (name :: rest) = depth? (depth + 1) rest := by
  rw [depth?, if_neg plain]

/-- A step up leads anywhere only from some depth. -/
theorem depth?_up_eq_some_iff :
    depth? depth (((".." : Text)) :: rest) = some reached ↔
      depth ≠ 0 ∧ depth? (depth - 1) rest = some reached := by
  rw [depth?, if_pos rfl]
  by_cases top : depth = 0 <;> simp [top]

@[simp]
theorem depth?_append (depth : Nat) (front rest : List Text) :
    depth? depth (front ++ rest) =
      (depth? depth front).bind fun reached => depth? reached rest := by
  induction front generalizing depth with
  | nil => rfl
  | cons name front ih =>
      rw [List.cons_append, depth?, depth?]
      by_cases climbs : name = ".."
      · rw [if_pos climbs, if_pos climbs]
        by_cases top : depth = 0
        · rw [if_pos top, if_pos top]
          rfl
        · rw [if_neg top, if_neg top, ih]
      · rw [if_neg climbs, if_neg climbs, ih]

theorem depth?_of_plain (plain : ∀ name ∈ list, name ≠ "..") (depth : Nat) :
    depth? depth list = some (depth + list.length) := by
  induction list generalizing depth with
  | nil => rfl
  | cons name rest ih =>
      rw [depth?_of_ne (plain name List.mem_cons_self),
        ih (fun other member => plain other (List.mem_cons_of_mem name member)), List.length_cons]
      congr 1
      omega

/-- Climbing that stays below what was there before leaves it as it was. -/
theorem foldl_climb_append (stays : depth? before.length list = some reached)
    (plain : ((".." : Text)) ∉ before) (base : List Text) :
    list.foldl (climb .root) (before ++ base) = list.foldl (climb .root) before ++ base := by
  induction list generalizing before with
  | nil => rfl
  | cons name rest ih =>
      rw [List.foldl_cons, List.foldl_cons]
      by_cases climbs : name = ".."
      · subst climbs
        obtain ⟨below, further⟩ := depth?_up_eq_some_iff.mp stays
        cases before with
        | nil => exact absurd rfl below
        | cons last above =>
            obtain ⟨notLast, notAbove⟩ := not_or.mp (mt List.mem_cons.mpr plain)
            have climbed (others : List Text) : climb .root (last :: others) ".." = others := by
              simp only [climb, if_true, if_neg (Ne.symm notLast)]
            rw [List.cons_append, climbed, climbed]
            exact ih further notAbove
      · rw [depth?_of_ne climbs] at stays
        rw [climb_of_ne climbs, climb_of_ne climbs, ← List.cons_append]
        exact ih stays (List.not_mem_cons_of_ne_of_not_mem (Ne.symm climbs) plain)

end Path

namespace CleanPath

variable {root : CleanPath} {names : List Text} {reached : Nat}

/-- Names that stay below a path have the same normal form below it, whatever the path is. -/
theorem normalNames_below (fromRoot : root.anchor = .root) (proper : root.IsProper)
    (staysDown : ((".." : Text)) ∉ root.names) (areNames : ∀ name ∈ names, Path.IsName name)
    (stays : Path.depth? 0 names = some reached) :
    Path.normalNames (root.below names).text =
      root.names ++ (names.foldl (Path.climb .root) []).reverse := by
  have belowProper := proper.below areNames
  have plain : ∀ name ∈ root.names, name ≠ ".." := by
    rintro name member rfl
    exact staysDown member
  have fromHere : Path.depth? ([] : List Text).length names = some reached := stays
  have apart := Path.foldl_climb_append fromHere List.not_mem_nil root.names.reverse
  rw [List.nil_append] at apart
  rw [Path.normalNames, belowProper.anchorOf_text, belowProper.names_text, anchor_below, fromRoot,
    names_below, List.foldl_append, Path.foldl_climb_of_plain plain, List.append_nil, apart,
    List.reverse_append, List.reverse_reverse]

end CleanPath

end ApiDocs
