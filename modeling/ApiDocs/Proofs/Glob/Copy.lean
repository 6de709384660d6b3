import ApiDocs.Proofs.Disk.Copy
import ApiDocs.Proofs.Glob.Below
import ApiDocs.Proofs.Order

/-!
# Searching copies of a folder

A search below a folder finds the same in every copy of the folder, though perhaps in
another order, as long as its levels never climb out of the folder and no path that it
asks for is too long.  The files that are kept are put in the same order.
-/

namespace ApiDocs.Glob

open Disk (AreCopies Fits HoldSame RefusedAlike)

variable {disk first second : Disk} {root root' : CleanPath} {here there folder : Location}
variable {level name part : Text} {levels paths : List Text} {foldersOnly : Bool} {spot : Spot}

/-! ## One level in two copies -/

theorem below_perm (copies : AreCopies first second root root') (place : Location) :
    (below first foldersOnly (root.place ++ place)).Perm
      (below second foldersOnly (root'.place ++ place)) := by
  have distinct {disk : Disk} (tree : disk.IsTree) (folder : Location) :
      (below disk foldersOnly folder).Nodup :=
    List.Nodup.of_map _ (nodup_names_below tree foldersOnly folder _)
  rw [List.perm_ext_iff_of_nodup (distinct copies.left.tree _) (distinct copies.right.tree _)]
  intro part
  rw [mem_below_iff copies.left.tree, mem_below_iff copies.right.tree]
  simp only [List.append_assoc, copies.same (place ++ _)]

theorem namesIn_perm (copies : AreCopies first second root root') (level : Text)
    (place : Location) :
    (namesIn first foldersOnly level (root.place ++ place)).Perm
      (namesIn second foldersOnly level (root'.place ++ place)) := by
  have distinct {disk : Disk} (tree : disk.IsTree) (folder : Location) :
      (namesIn disk foldersOnly level folder).Nodup :=
    nodup_namesIn tree foldersOnly level folder _
  rw [List.perm_ext_iff_of_nodup (distinct copies.left.tree _) (distinct copies.right.tree _)]
  intro name
  rw [mem_namesIn_iff copies.left.tree, mem_namesIn_iff copies.right.tree]
  simp only [List.append_assoc, copies.same (place ++ _)]

/-- Two folders at the same place below two others, or none. -/
def ListedAlike (root root' : CleanPath) (place : Location) (found found' : Option Location) :
    Prop :=
  found = none ∧ found' = none ∨
    found = some (root.place ++ place) ∧ found' = some (root'.place ++ place)

/-- The same folder below two copies is listed at the same place, or listed in neither. -/
theorem folder?_alike (copies : AreCopies first second root root') (fits : Fits root spot)
    (fits' : Fits root' spot) :
    SameOutcome RefusedAlike (ListedAlike root root' spot.place)
      (folder? first here (spot.text root)) (folder? second there (spot.text root')) := by
  have found := copies.find here there fits fits'
  have nonempty : ¬spot.text root = ("" : Text) :=
    Path.ne_nil_of_isAbsolute (Spot.isAbsolute_text copies.left.absolute)
  have nonempty' : ¬spot.text root' = ("" : Text) :=
    Path.ne_nil_of_isAbsolute (Spot.isAbsolute_text copies.right.absolute)
  rw [folder?, folder?, if_neg nonempty, if_neg nonempty']
  revert found
  generalize first.find here (spot.text root) = left
  generalize second.find there (spot.text root') = right
  rintro (@⟨⟨place, entry⟩, ⟨place', entry'⟩, atPlace, atPlace', equal⟩ | ⟨refused | faults⟩)
  · obtain rfl : entry = entry' := equal
    cases entry with
    | folder => exact .ok (.inr ⟨congrArg some atPlace, congrArg some atPlace'⟩)
    | file content => exact .ok (.inl ⟨rfl, rfl⟩)
  · exact .ok (.inl ⟨rfl, rfl⟩)
  · exact .error (.notAPath _ _)

/-! ## What a level adds to a path -/

/-- A path with what one level adds to it; what adds no name adds a slash. -/
def further (spot : Spot) (part : Text) : Spot :=
  if part = [] then { spot with closed := true } else { names := spot.names ++ Path.names part }

theorem text_further (isBase : disk.IsBase root) (areNames : ∀ name ∈ spot.names, Path.IsName name)
    (isPart : IsPart part) : (further spot part).text root = Path.join (spot.text root) part := by
  have absolute := isBase.absolute.below spot.names
  have proper := isBase.proper.below areNames
  have joined : Path.join (spot.text root) part = Path.join (root.below spot.names).text part := by
    rw [Spot.text]
    split
    · exact Path.join_join_nil absolute.text_ne_nil isPart.relative
    · rfl
  rw [joined, further]
  split
  · rename_i nothing
    rw [nothing, Spot.text, if_pos rfl]
  · rename_i nonempty
    have several : Path.names part ≠ [] := by
      intro none
      rw [IsPart, none] at isPart
      exact nonempty isPart.symm
    have written := absolute.join_text proper (fun _ => Path.isName_of_mem_names) several
    rw [(show Text.joinWith "/" (Path.names part) = part from isPart), CleanPath.below_below] at written
    rw [Spot.text, if_neg Bool.false_ne_true, written]

/-- The path that one level of a search asks for. -/
def asked (level : Text) (spot : Spot) : Spot :=
  if Wildcard.hasMagic level then spot else further spot level

/-- One level gives the same inside the same folder of two copies, up to its order. -/
theorem atLevel_alike (copies : AreCopies first second root root') (isName : Path.IsName level)
    (areNames : ∀ name ∈ spot.names, Path.IsName name) (fits : Fits root (asked level spot))
    (fits' : Fits root' (asked level spot)) :
    SameOutcome (fun _ _ => True) List.Perm (atLevel first here foldersOnly level (spot.text root))
      (atLevel second there foldersOnly level (spot.text root')) := by
  have folders (magic : Wildcard.hasMagic level = true) :
      SameOutcome RefusedAlike (ListedAlike root root' spot.place) (folder? first here (spot.text root))
        (folder? second there (spot.text root')) := by
    rw [asked, if_pos magic] at fits fits'
    exact folder?_alike copies fits fits'
  rw [atLevel, atLevel]
  split
  · rename_i isEverything
    have folder := folders (isEverything ▸ hasMagic_everything)
    revert folder
    generalize folder? first here (spot.text root) = left
    generalize folder? second there (spot.text root') = right
    rintro (⟨⟨rfl, rfl⟩ | ⟨rfl, rfl⟩⟩ | faults)
    · exact .ok (.refl _)
    · simp only [beneath_eq_below]
      exact .ok ((below_perm copies _).cons _)
    · exact .error trivial
  · split
    · rename_i magic
      have folder := folders magic
      revert folder
      generalize folder? first here (spot.text root) = left
      generalize folder? second there (spot.text root') = right
      rintro (⟨⟨rfl, rfl⟩ | ⟨rfl, rfl⟩⟩ | faults)
      · exact .ok (.refl _)
      · simp only [namesIn_leads]
        exact .ok (namesIn_perm copies _ _)
      · exact .error trivial
    · rename_i plain
      have isPart := isPart_of_isName isName
      rw [asked, if_neg plain] at fits fits'
      have standing := copies.hasEntry_eq here there fits fits'
      rw [text_further copies.left areNames isPart, text_further copies.right areNames isPart]
        at standing
      have nonempty : ¬level = ("" : Text) := isName.nonempty
      rw [if_neg nonempty, if_neg nonempty, Disk.hasName_eq_hasEntry, Disk.hasName_eq_hasEntry,
        standing]
      exact .ok (.refl _)

/-! ## Several paths at one level -/

/-- What one level gives inside a folder, as paths below it. -/
def spotsAt (disk : Disk) (here : Location) (foldersOnly : Bool) (level : Text) (root : CleanPath)
    (spot : Spot) : List Spot :=
  ((atLevel disk here foldersOnly level (spot.text root)).toOption.getD []).map (further spot)

theorem perm_getD {ε ε' α : Type} {failing : ε → ε' → Prop} {outcome : Except ε (List α)}
    {outcome' : Except ε' (List α)} (same : SameOutcome failing List.Perm outcome outcome') :
    (outcome.toOption.getD []).Perm (outcome'.toOption.getD []) := by
  cases same with
  | ok perm => exact perm
  | error _ => exact .refl _

/-- What one level gives for several paths below a folder are paths below it. -/
theorem atLevelOfEach_eq_map (isBase : disk.IsBase root) (isName : Path.IsName level)
    {spots : List Spot} (areNames : ∀ spot ∈ spots, ∀ name ∈ spot.names, Path.IsName name)
    {found : List Text}
    (given : atLevelOfEach disk here foldersOnly level (spots.map (Spot.text root)) = .ok found) :
    found = (spots.flatMap (spotsAt disk here foldersOnly level root)).map (Spot.text root) := by
  rw [atLevelOfEach_eq given, List.flatMap_map, List.map_flatMap]
  refine List.flatMap_congr fun spot member => ?_
  rw [spotsAt, List.map_map]
  refine List.map_congr_left fun part inParts => ?_
  exact (text_further isBase (areNames spot member)
    (adds_of_mem_parts isBase.tree isName inParts).1).symm

/-- One level succeeds for several folders exactly if it does for each of them. -/
theorem atLevelOfEach_cases (disk : Disk) (here : Location) (foldersOnly : Bool) (level : Text)
    (paths : List Text) :
    (∃ found, atLevelOfEach disk here foldersOnly level paths = .ok found ∧
        ∀ path ∈ paths, ∃ parts, atLevel disk here foldersOnly level path = .ok parts) ∨
      (∃ error, atLevelOfEach disk here foldersOnly level paths = .error error) ∧
        ∃ path ∈ paths, ∃ error, atLevel disk here foldersOnly level path = .error error := by
  induction paths with
  | nil => exact .inl ⟨[], rfl, fun _ none => nomatch none⟩
  | cons first others ih =>
      rw [atLevelOfEach]
      cases own : atLevel disk here foldersOnly level first with
      | error error => exact .inr ⟨⟨error, rfl⟩, first, List.mem_cons_self, error, own⟩
      | ok parts =>
          rcases ih with ⟨found, rest, each⟩ | ⟨⟨error, rest⟩, path, member, failed⟩
          · refine .inl ⟨_, by rw [rest], fun path member => ?_⟩
            rcases List.mem_cons.mp member with rfl | inOthers
            · exact ⟨parts, own⟩
            · exact each path inOthers
          · exact .inr ⟨⟨error, by rw [rest]⟩, path, List.mem_cons_of_mem first member, failed⟩

/-- Paths below two copies, the same ones up to their order. -/
def FoundAlike (root root' : CleanPath) (keeps : Spot → Prop) (found found' : List Text) : Prop :=
  ∃ spots spots' : List Spot, spots.Perm spots' ∧ found = spots.map (Spot.text root) ∧
    found' = spots'.map (Spot.text root') ∧ ∀ spot ∈ spots, keeps spot

theorem atLevelOfEach_alike (copies : AreCopies first second root root')
    (isName : Path.IsName level) {spots spots' : List Spot} (perm : spots.Perm spots')
    (areNames : ∀ spot ∈ spots, ∀ name ∈ spot.names, Path.IsName name)
    (fits : ∀ spot ∈ spots, Fits root (asked level spot) ∧ Fits root' (asked level spot))
    {keeps : Spot → Prop}
    (each : ∀ spot ∈ spots, ∀ part, IsPart part → Adds level (Path.names part) →
      keeps (further spot part)) :
    SameOutcome (fun _ _ => True) (FoundAlike root root' keeps)
      (atLevelOfEach first here foldersOnly level (spots.map (Spot.text root)))
      (atLevelOfEach second there foldersOnly level (spots'.map (Spot.text root'))) := by
  have alike (spot : Spot) (member : spot ∈ spots) : SameOutcome (fun _ _ => True) List.Perm
      (atLevel first here foldersOnly level (spot.text root))
      (atLevel second there foldersOnly level (spot.text root')) :=
    atLevel_alike copies isName (areNames spot member) (fits spot member).1 (fits spot member).2
  rcases atLevelOfEach_cases first here foldersOnly level (spots.map (Spot.text root)) with
    ⟨found, given, gives⟩ | ⟨⟨error, given⟩, path, inPaths, _, failed⟩
  · rcases atLevelOfEach_cases second there foldersOnly level (spots'.map (Spot.text root')) with
      ⟨found', given', -⟩ | ⟨-, path, inPaths, _, failed⟩
    · rw [given, given']
      refine .ok ⟨spots.flatMap (spotsAt first here foldersOnly level root),
        spots'.flatMap (spotsAt second there foldersOnly level root'), ?_, ?_, ?_, ?_⟩
      · refine (perm.flatMap_right _).trans (List.Perm.flatMap_left spots' fun spot member => ?_)
        exact (perm_getD (alike spot (perm.mem_iff.mpr member))).map _
      · exact atLevelOfEach_eq_map copies.left isName areNames given
      · exact atLevelOfEach_eq_map copies.right isName
          (fun spot member => areNames spot (perm.mem_iff.mpr member)) given'
      · intro spot member
        obtain ⟨start, inSpots, added⟩ := List.mem_flatMap.mp member
        obtain ⟨part, inParts, rfl⟩ := List.mem_map.mp added
        obtain ⟨isPart, adds⟩ := adds_of_mem_parts copies.left.tree isName inParts
        exact each start inSpots part isPart adds
    · obtain ⟨spot, inSpots, rfl⟩ := List.mem_map.mp inPaths
      have member := perm.mem_iff.mpr inSpots
      obtain ⟨parts, own⟩ := gives _ (List.mem_map_of_mem member)
      have same := alike spot member
      rw [own, failed] at same
      cases same
  · obtain ⟨spot, member, rfl⟩ := List.mem_map.mp inPaths
    have same := alike spot member
    rcases atLevelOfEach_cases second there foldersOnly level (spots'.map (Spot.text root')) with
      ⟨found', given', gives⟩ | ⟨⟨error', given'⟩, -⟩
    · obtain ⟨parts, own⟩ := gives _ (List.mem_map_of_mem (perm.mem_iff.mp member))
      rw [own, failed] at same
      cases same
    · rw [given, given']
      exact .error trivial

/-! ## All levels -/

theorem names_further (spot : Spot) (part : Text) :
    (further spot part).names = spot.names ++ Path.names part := by
  rw [further]
  split
  · rename_i nothing
    rw [nothing, Path.names_nil, List.append_nil]
  · rfl

/-- A path with proper names that leads to some depth at least and never climbs out. -/
structure LiesDeep (depth : Nat) (spot : Spot) : Prop where
  areNames : ∀ name ∈ spot.names, Path.IsName name
  deep : ∃ reached, Path.depth? 0 spot.names = some reached ∧ depth ≤ reached

theorem LiesDeep.stays {depth : Nat} (lies : LiesDeep depth spot) : spot.Stays := by
  obtain ⟨reached, depth, -⟩ := lies.deep
  exact ⟨lies.areNames, by rw [depth]; rfl⟩

/-- The levels that lead somewhere for sure: `**` may stay where it is. -/
def certain (levels : List Text) : List Text :=
  levels.filter fun level => level != everything

theorem areNames_further {depth : Nat} (lies : LiesDeep depth spot) (part : Text) :
    ∀ name ∈ (further spot part).names, Path.IsName name := by
  rw [names_further, List.forall_mem_append]
  exact ⟨lies.areNames, fun _ => Path.isName_of_mem_names⟩

/-- Names that never climb lead as deep as they are many. -/
theorem LiesDeep.of_plain {depth : Nat} (lies : LiesDeep depth spot)
    (plain : ∀ name ∈ Path.names part, name ≠ "..") :
    LiesDeep (depth + (Path.names part).length) (further spot part) := by
  obtain ⟨reached, counted, deep⟩ := lies.deep
  refine ⟨areNames_further lies part, reached + (Path.names part).length, ?_, by omega⟩
  rw [names_further, Path.depth?_append, counted]
  exact Path.depth?_of_plain plain reached

theorem LiesDeep.of_up {depth : Nat} (lies : LiesDeep depth spot) (below : depth ≠ 0)
    (up : Path.names part = [((".." : Text))]) : LiesDeep (depth - 1) (further spot part) := by
  obtain ⟨reached, counted, deep⟩ := lies.deep
  refine ⟨areNames_further lies part, reached - 1, ?_, by omega⟩
  rw [names_further, Path.depth?_append, counted, up]
  exact Path.depth?_up_eq_some_iff.mpr ⟨by omega, rfl⟩

theorem LiesDeep.mono {depth less : Nat} (lies : LiesDeep depth spot) (weaker : less ≤ depth) :
    LiesDeep less spot := by
  obtain ⟨reached, counted, deep⟩ := lies.deep
  exact ⟨lies.areNames, reached, counted, by omega⟩

/-- Behind a level a search lies as deep as the level leads for sure. -/
theorem exists_depth_behind {depth reached : Nat} {deeper : List Text}
    (stays : Path.depth? depth (certain (level :: deeper)) = some reached) :
    ∃ next, Path.depth? next (certain deeper) = some reached ∧
      ∀ spot, LiesDeep depth spot → ∀ part, Adds level (Path.names part) →
        LiesDeep next (further spot part) := by
  by_cases isEverything : level = everything
  · rw [certain, List.filter_cons_of_neg (by simp [isEverything])] at stays
    refine ⟨depth, stays, fun spot lies part adds => ?_⟩
    subst isEverything
    generalize added : Path.names part = names at adds
    cases adds with
    | everything _ visible =>
        have plain : ∀ name ∈ Path.names part, name ≠ ".." := fun name member =>
          (visible name (added ▸ member)).1.notUp
        exact (lies.of_plain plain).mono (by omega)
    | fitting notSame => exact absurd rfl notSame
    | literal plain => cases plain
  · rw [certain, List.filter_cons_of_pos (by simp [isEverything])] at stays
    by_cases climbs : level = ".."
    · subst climbs
      obtain ⟨below, further⟩ := Path.depth?_up_eq_some_iff.mp stays
      refine ⟨depth - 1, further, fun spot lies part adds => ?_⟩
      generalize added : Path.names part = names at adds
      cases adds with
      | everything same => exact absurd same isEverything
      | fitting _ _ _ isName =>
          have plain : ∀ name ∈ Path.names part, name ≠ ".." := by simpa [added] using isName.notUp
          exact (lies.of_plain plain).mono (by omega)
      | literal _ => exact lies.of_up below added
    · rw [Path.depth?_of_ne climbs] at stays
      refine ⟨depth + 1, stays, fun spot lies part adds => ?_⟩
      have single {name : Text} (added : Path.names part = [name]) (notUp : name ≠ "..") :
          LiesDeep (depth + 1) (further spot part) := by
        have plain : ∀ other ∈ Path.names part, other ≠ ".." := by simpa [added] using notUp
        have deeper := lies.of_plain plain
        rwa [added] at deeper
      generalize added : Path.names part = names at adds
      cases adds with
      | everything same => exact absurd same isEverything
      | fitting _ _ _ isName => exact single added isName.notUp
      | literal _ => exact single added climbs

/-- The paths that a search asks for: those at each level, and at last those that it finds. -/
def askedFrom (disk : Disk) (here : Location) : List Text → List Text → List Text
  | paths, [] => paths
  | paths, level :: deeper =>
    (if Wildcard.hasMagic level then paths else paths.map fun path => Path.join path level) ++
      match atLevelOfEach disk here (!deeper.isEmpty) level paths with
      | .error _ => []
      | .ok next => askedFrom disk here next deeper

/--
Whether every path of a list is short enough for the disk, below its own folder and another one.
-/
def AreShort (root root' : CleanPath) (paths : List Text) : Prop :=
  ∀ spot : Spot, spot.text root ∈ paths →
    Disk.Name.size (spot.text root) ≤ Disk.pathLimit ∧
      Disk.Name.size (spot.text root') ≤ Disk.pathLimit

/-- Paths with some room for another folder are short enough below that folder as well. -/
theorem areShort_of_size {root root' : CleanPath} {paths : List Text} (absolute : root.IsAbsolute)
    (absolute' : root'.IsAbsolute)
    (room : ∀ path ∈ paths,
      Disk.Name.size path + Disk.Name.size root'.text + 2 ≤ Disk.pathLimit) :
    AreShort root root' paths := by
  intro spot member
  have own := room _ member
  have names := Spot.size_joinWith_le absolute spot
  have other := Spot.size_text_le absolute' spot
  omega

/-- What a level asks for is short enough in both folders, if all that a search asks for is. -/
theorem fits_asked (copies : AreCopies first second root root') {depth next : Nat}
    {deeper : List Text} {spots : List Spot} (isName : Path.IsName level)
    (member : spot ∈ spots) (lies : LiesDeep depth spot)
    (behind : ∀ part, Adds level (Path.names part) → LiesDeep next (further spot part))
    (short : AreShort root root'
      (askedFrom first here (spots.map (Spot.text root)) (level :: deeper))) :
    Fits root (asked level spot) ∧ Fits root' (asked level spot) := by
  rw [askedFrom] at short
  have isShort := fun inFront =>
    short (asked level spot) (List.mem_append_left _ inFront)
  rw [asked] at isShort ⊢
  split
  · rename_i magic
    rw [if_pos magic, if_pos magic] at isShort
    have both := isShort (List.mem_map_of_mem member)
    exact ⟨⟨lies.stays, both.1⟩, ⟨lies.stays, both.2⟩⟩
  · rename_i plain
    rw [if_neg plain, if_neg plain] at isShort
    have adds : Adds level (Path.names level) := by
      rw [isName.names_eq]
      exact .literal (by simpa using plain)
    have stays := (behind level adds).stays
    have both := isShort (by
      rw [text_further copies.left lies.areNames (isPart_of_isName isName)]
      exact List.mem_map_of_mem (List.mem_map_of_mem member))
    exact ⟨⟨stays, both.1⟩, ⟨stays, both.2⟩⟩

/-- A search follows the same levels to the same paths below both folders. -/
theorem follow_alike (copies : AreCopies first second root root') {depth reached : Nat}
    (levelNames : ∀ level ∈ levels, Path.IsName level)
    (stays : Path.depth? depth (certain levels) = some reached) {spots spots' : List Spot}
    (perm : spots.Perm spots') (deep : ∀ spot ∈ spots, LiesDeep depth spot)
    (short : AreShort root root' (askedFrom first here (spots.map (Spot.text root)) levels)) :
    SameOutcome (fun _ _ => True)
      (FoundAlike root root' fun spot => Fits root spot ∧ Fits root' spot)
      (follow first here (spots.map (Spot.text root)) levels)
      (follow second there (spots'.map (Spot.text root')) levels) := by
  induction levels generalizing depth spots spots' with
  | nil =>
      refine .ok ⟨spots, spots', perm, rfl, rfl, fun spot member => ?_⟩
      have stays := (deep spot member).stays
      have isShort := short spot (List.mem_map_of_mem member)
      exact ⟨⟨stays, isShort.1⟩, ⟨stays, isShort.2⟩⟩
  | cons level deeper ih =>
      obtain ⟨next, further, behind⟩ := exists_depth_behind stays
      have isName := levelNames level List.mem_cons_self
      have areNames : ∀ spot ∈ spots, ∀ name ∈ spot.names, Path.IsName name := fun spot member =>
        (deep spot member).areNames
      have fits : ∀ spot ∈ spots, Fits root (asked level spot) ∧ Fits root' (asked level spot) :=
        fun spot member =>
          fits_asked copies isName member (deep spot member) (behind spot (deep spot member)) short
      have given : SameOutcome (fun _ _ => True) (FoundAlike root root' (LiesDeep next))
          (atLevelOfEach first here (!deeper.isEmpty) level (spots.map (Spot.text root)))
          (atLevelOfEach second there (!deeper.isEmpty) level (spots'.map (Spot.text root'))) :=
        atLevelOfEach_alike copies isName perm areNames fits
          fun spot member part _ adds => behind spot (deep spot member) part adds
      rw [askedFrom] at short
      rw [follow, follow]
      revert given short
      generalize atLevelOfEach first here (!deeper.isEmpty) level (spots.map (Spot.text root)) = left
      generalize atLevelOfEach second there (!deeper.isEmpty) level
        (spots'.map (Spot.text root')) = right
      rintro short (⟨more, more', perm, rfl, rfl, deeper⟩ | _)
      · exact ih (fun other inDeeper => levelNames other (List.mem_cons_of_mem level inDeeper))
          further perm deeper fun spot member => short spot (List.mem_append_right _ member)
      · exact .error trivial

/-! ## Searching -/

/-- The paths that the search for a pattern asks for. -/
def askedPaths (disk : Disk) (here : Location) (pattern : Text) : List Text :=
  askedFrom disk here [(Glob.levels pattern).1] (Glob.levels pattern).2

theorem certain_append (front back : List Text) :
    certain (front ++ back) = certain front ++ certain back :=
  List.filter_append _ _

theorem certain_of_plain {names : List Text}
    (plain : ∀ name ∈ names, Wildcard.hasMagic name = false) : certain names = names := by
  refine List.filter_eq_self.mpr fun name member => ?_
  rw [bne_iff_ne]
  rintro rfl
  have noMagic := plain everything member
  rw [hasMagic_everything] at noMagic
  cases noMagic

/-- A pattern with a wildcard is cut in front of its first name that has one. -/
theorem exists_first_magic {names : List Text} (magic : names.any Wildcard.hasMagic = true) :
    ∃ front level deeper, names = front ++ level :: deeper ∧
      (∀ name ∈ front, Wildcard.hasMagic name = false) ∧ Wildcard.hasMagic level = true := by
  induction names with
  | nil => cases magic
  | cons name rest ih =>
      cases own : Wildcard.hasMagic name with
      | true => exact ⟨[], name, rest, rfl, (fun _ none => nomatch none), own⟩
      | false =>
          rw [List.any_cons, own, Bool.false_or] at magic
          obtain ⟨front, level, deeper, rfl, plain, isMagic⟩ := ih magic
          exact ⟨name :: front, level, deeper, rfl, by simpa [own] using plain, isMagic⟩

/-- What a project has to be for a search to give the same in each of its copies. -/
structure IsSearch (root : CleanPath) (names : List Text) : Prop where
  plain : Wildcard.hasMagic root.text = false
  areNames : ∀ name ∈ names, Path.IsName name
  magic : names.any Wildcard.hasMagic = true
  inside : (Path.depth? 0 (certain names)).isSome

theorem search_below_eq (isBase : disk.IsBase root) {names front deeper : List Text}
    (isSearch : IsSearch root names) (cut : names = front ++ level :: deeper)
    (plain : ∀ name ∈ front, Wildcard.hasMagic name = false)
    (magic : Wildcard.hasMagic level = true) :
    Glob.levels (root.below names).text = ((root.below front).text, level :: deeper) ∧
      search disk here (root.below names).text =
        follow disk here [(root.below front).text] (level :: deeper) := by
  have absolute := isBase.absolute.below front
  have rootPlain := isSearch.plain
  rw [isBase.absolute.hasMagic_text, List.any_eq_false] at rootPlain
  have areNames := isSearch.areNames
  rw [cut] at areNames
  have proper : (root.below front).IsProper :=
    isBase.proper.below fun name member => areNames name (List.mem_append_left _ member)
  have noMagic : ∀ name ∈ (root.below front).names, Wildcard.hasMagic name = false := by
    rw [CleanPath.names_below, List.forall_mem_append]
    exact ⟨by simpa using rootPlain, plain⟩
  have levels := levels_below absolute proper noMagic
    (fun name member => areNames name (List.mem_append_right _ member)) magic
  rw [CleanPath.below_below, ← cut] at levels
  have isMagic : Wildcard.hasMagic (root.below names).text = true := by
    rw [isBase.absolute.hasMagic_below, isSearch.magic, Bool.or_true]
  refine ⟨levels, ?_⟩
  rw [search_eq_follow (isBase.absolute.below names).isAbsolute_text isMagic, levels]

theorem search_alike (copies : AreCopies first second root root') (there : Location)
    {names : List Text}
    (isSearch : IsSearch root names) (isSearch' : IsSearch root' names)
    (short : AreShort root root' (askedPaths first here (root.below names).text)) :
    SameOutcome (fun _ _ => True)
      (FoundAlike root root' fun spot => Fits root spot ∧ Fits root' spot)
      (search first here (root.below names).text)
      (search second there (root'.below names).text) := by
  obtain ⟨front, level, deeper, cut, plain, magic⟩ := exists_first_magic isSearch.magic
  obtain ⟨levels, left⟩ := search_below_eq copies.left isSearch cut plain magic
  obtain ⟨-, right⟩ := search_below_eq copies.right isSearch' cut plain magic
  rw [askedPaths, levels] at short
  rw [left, right]
  have areNames := isSearch.areNames
  rw [cut] at areNames
  obtain ⟨reached, depth⟩ := Option.isSome_iff_exists.mp isSearch.inside
  rw [cut, certain_append, certain_of_plain plain, Path.depth?_append, Option.bind_eq_some_iff]
    at depth
  obtain ⟨begun, depth, further⟩ := depth
  have start : ∀ spot ∈ [Spot.mk front false], LiesDeep begun spot := by
    intro spot member
    rw [List.mem_singleton.mp member]
    exact ⟨fun name inFront => areNames name (List.mem_append_left _ inFront), begun, depth,
      Nat.le_refl _⟩
  exact follow_alike copies (fun name member => areNames name (List.mem_append_right _ member))
    further (.refl _) start short

/-! ## Files in their order -/

/-- The folder itself is no file. -/
theorem names_ne_nil_of_hasFile (isBase : disk.IsBase root)
    (isFile : disk.hasFile here (spot.text root) = true) : spot.names ≠ [] := by
  intro none
  obtain ⟨-, content, standing⟩ := (Disk.hasFile_iff).mp isFile
  have relative : Path.isAbsolute [] = false := rfl
  have read : Path.names (spot.text root) = root.names := by
    rw [Spot.text, none, CleanPath.below_nil]
    split
    · rw [Path.names_join relative, Path.names_nil, List.append_nil, isBase.proper.names_text]
    · exact isBase.proper.names_text
  rw [Disk.target_of_isAbsolute (Spot.isAbsolute_text isBase.absolute), read,
    show Disk.follow [] root.names = root.place from rfl, isBase.folder] at standing
  cases standing

/-- Paths below a folder are in the order of what stands behind the path of the folder. -/
theorem mergeSort_map_text {spots spots' : List Spot} {front : Text} (perm : spots'.Perm spots)
    (written : ∀ spot ∈ spots, spot.text root = front ++ Spot.rest spot) :
    (spots'.map (Spot.text root)).mergeSort Text.atMost =
      (spots.mergeSort fun left right => Text.atMost left.rest right.rest).map
      (Spot.text root) := by
  have sorted := List.mergeSort_perm spots fun left right => Text.atMost left.rest right.rest
  have rests : (spots.mergeSort fun left right => Text.atMost left.rest right.rest).map Spot.rest =
      (spots'.map Spot.rest).mergeSort Text.atMost := by
    rw [Text.mergeSort_eq_of_perm (perm.map Spot.rest)]
    exact List.map_mergeSort fun _ _ _ _ => rfl
  rw [List.map_congr_left fun spot member => written spot (sorted.mem_iff.mp member),
    List.map_congr_left fun spot member => written spot (perm.mem_iff.mp member)]
  have composed (list : List Spot) : (list.map fun spot => front ++ Spot.rest spot) =
      (list.map Spot.rest).map (front ++ ·) := List.map_map.symm
  rw [composed, composed, rests]
  exact (List.map_mergeSort fun left _ right _ => (Text.atMost_append_left front left right).symm).symm

/-- A search keeps the same files in every copy of a folder, in the same order. -/
theorem files_alike (there : Location) (exclude : List Text)
    (copies : AreCopies first second root root') {names : List Text}
    (isSearch : IsSearch root names) (isSearch' : IsSearch root' names)
    (short : AreShort root root' (askedPaths first here (root.below names).text))
    (excluded : ∀ found, search first here (root.below names).text = .ok found →
      ∀ spot : Spot, spot.text root ∈ found →
        isExcluded (spot.text root) exclude = isExcluded (spot.text root') exclude) :
    SameOutcome (fun _ _ => True)
      (fun found found' => ∃ spots : List Spot, found = spots.map (Spot.text root) ∧
        found' = spots.map (Spot.text root') ∧ ∀ spot ∈ spots, Fits root spot ∧ Fits root' spot)
      (files first here (root.below names).text exclude)
      (files second there (root'.below names).text exclude) := by
  have searched := search_alike copies there isSearch isSearch' short
  rw [files, files]
  revert searched excluded
  generalize search first here (root.below names).text = left
  generalize search second there (root'.below names).text = right
  rintro excluded (⟨spots, spots', perm, rfl, rfl, fits⟩ | _)
  · have kept : ∀ spot ∈ spots,
        (first.hasFile here (spot.text root) && !isExcluded (spot.text root) exclude) =
          (second.hasFile there (spot.text root') && !isExcluded (spot.text root') exclude) := by
      intro spot member
      rw [copies.hasFile_eq here there (fits spot member).1 (fits spot member).2,
        excluded _ rfl spot (List.mem_map_of_mem member)]
    let keep (spot : Spot) : Bool :=
      first.hasFile here (spot.text root) && !isExcluded (spot.text root) exclude
    have left : ((spots.map (Spot.text root)).filter fun path =>
        first.hasFile here path && !isExcluded path exclude) =
          (spots.filter keep).map (Spot.text root) := List.filter_map
    have right : ((spots'.map (Spot.text root')).filter fun path =>
        second.hasFile there path && !isExcluded path exclude) =
          (spots'.filter keep).map (Spot.text root') := by
      rw [List.filter_map]
      congr 1
      exact List.filter_congr fun spot member => (kept spot (perm.mem_iff.mpr member)).symm
    have inKept : ∀ spot ∈ spots.filter keep, spot.names ≠ [] ∧
        (∀ name ∈ spot.names, Path.IsName name) ∧ Fits root spot ∧ Fits root' spot := by
      intro spot member
      obtain ⟨inSpots, isKept⟩ := List.mem_filter.mp member
      have isFile := (Bool.and_eq_true_iff.mp isKept).1
      exact ⟨names_ne_nil_of_hasFile copies.left isFile, (fits spot inSpots).1.areNames,
        fits spot inSpots⟩
    have sorted := List.mergeSort_perm (spots.filter keep) fun left right =>
      Text.atMost left.rest right.rest
    obtain ⟨front, written⟩ := Spot.exists_text_eq_append copies.left
    obtain ⟨front', written'⟩ := Spot.exists_text_eq_append copies.right
    refine .ok ⟨_, ?_, ?_, fun spot member => (inKept spot (sorted.mem_iff.mp member)).2.2⟩
    · rw [left]
      exact mergeSort_map_text (.refl _) fun spot member =>
        written spot (inKept spot member).1 (inKept spot member).2.1
    · rw [right]
      exact mergeSort_map_text (perm.symm.filter keep) fun spot member =>
        written' spot (inKept spot member).1 (inKept spot member).2.1
  · exact .error trivial

end ApiDocs.Glob
