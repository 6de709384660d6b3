import ApiDocs.Proofs.Disk.Sweep
import ApiDocs.Proofs.Glob.Files

/-!
# The matches of a pattern

A pattern without a fault can be searched for on every disk whose folders and links have names
without one.  What it finds has a name on the disk, except that a last level `**` also finds the
place from which it starts, whether or not something stands there.

When things are taken away no new matches come up, and those that stay do so in their order.
-/

namespace ApiDocs

namespace Path

variable {path : Text}

/-- The parts of a divided path have no other symbols than the path. -/
theorem split_subset (path : Text) : (split path).1 ⊆ path ∧ (split path).2 ⊆ path := by
  have head : path.take (path.length - (split path).2.length) ⊆ path := List.take_subset _ _
  constructor
  · rw [split]
    simp only
    split
    · exact head
    · rw [withoutEndSlashes, Text.dropEndWhile_eq_rdropWhile]
      exact fun symbol member => head ((List.rdropWhile_prefix _ _).subset member)
  · intro symbol member
    exact List.mem_reverse.mp ((List.takeWhile_prefix _).subset (List.mem_reverse.mp member))

end Path

namespace Disk

variable {here : Location} {path part : Text}

theorem pathFault?_of_subset (sub : part ⊆ path) (faultless : pathFault? path = none) :
    pathFault? part = none := by
  rw [Spot.pathFault?_eq_none_iff] at faultless ⊢
  exact fun symbol member => faultless symbol (sub member)

end Disk

namespace Glob

open Disk (IsPath Shrinks target)

variable {links : Bool} {disk after : Disk links} {here : Location} {path part level pattern : Text}
variable {levels paths fewer found parts : List Text} {foldersOnly : Bool}

/-! ## When there are matches -/

/-- The last level of a pattern is its last piece. -/
theorem exists_levelsFrom_eq (fuel : Nat) (path : Text) (levels : List Text) :
    ∃ front, (levelsFrom (fuel + 1) path levels).2 = front ++ (Path.split path).2 :: levels := by
  induction fuel generalizing path levels with
  | zero =>
      rw [levelsFrom]
      simp only
      split <;> exact ⟨[], rfl⟩
  | succ fuel ih =>
      rw [levelsFrom]
      simp only
      split
      · obtain ⟨front, cut⟩ := ih (Path.split path).1 ((Path.split path).2 :: levels)
        exact ⟨front ++ [(Path.split (Path.split path).1).2], by rw [cut, List.append_assoc]; rfl⟩
      · exact ⟨[], rfl⟩

theorem exists_levels_eq (magic : Wildcard.hasMagic pattern = true) :
    ∃ front, (Glob.levels pattern).2 = front ++ [(Path.split pattern).2] := by
  cases pattern with
  | nil => cases magic
  | cons symbol rest => exact exists_levelsFrom_eq rest.length _ []

/-- The levels of a pattern without a fault have none. -/
theorem pathFault?_levelsFrom (fuel : Nat) (faultless : Disk.pathFault? path = none)
    (others : ∀ level ∈ levels, Disk.pathFault? level = none) :
    Disk.pathFault? (levelsFrom fuel path levels).1 = none ∧
      ∀ level ∈ (levelsFrom fuel path levels).2, Disk.pathFault? level = none := by
  induction fuel generalizing path levels with
  | zero => exact ⟨faultless, others⟩
  | succ fuel ih =>
      obtain ⟨above, last⟩ := Path.split_subset path
      have further : ∀ level ∈ (Path.split path).2 :: levels, Disk.pathFault? level = none :=
        List.forall_mem_cons.mpr ⟨Disk.pathFault?_of_subset last faultless, others⟩
      rw [levelsFrom]
      simp only
      split
      · exact ih (Disk.pathFault?_of_subset above faultless) further
      · exact ⟨Disk.pathFault?_of_subset above faultless, further⟩

/--
Where the names of folders are names for paths, a pattern without a fault can be searched for.
-/
theorem exists_search (tree : disk.IsTree) (named : disk.HasPathNames)
    (faultless : Disk.pathFault? pattern = none) :
    ∃ found, search disk here pattern = .ok found := by
  rw [search]
  split
  · obtain ⟨start, deeper⟩ : Disk.pathFault? (Glob.levels pattern).1 = none ∧
        ∀ level ∈ (Glob.levels pattern).2, Disk.pathFault? level = none :=
      pathFault?_levelsFrom pattern.length faultless fun _ member => absurd member List.not_mem_nil
    obtain ⟨found, followed⟩ : ∃ found,
        follow disk here [(Glob.levels pattern).1] (Glob.levels pattern).2 = .ok found :=
      exists_follow tree named (by simpa using start) fun level member =>
        deeper level (List.dropLast_subset _ member)
    simp only [followed]
    exact ⟨_, rfl⟩
  · exact ⟨_, rfl⟩

/-! ## What stands at a match -/

theorem exists_follow_concat {last : Text}
    (followed : follow disk here paths (levels ++ [last]) = .ok found) :
    ∃ next, atLevelOfEach disk here false last next = .ok found := by
  induction levels generalizing paths with
  | nil =>
      rw [List.nil_append, follow_singleton] at followed
      exact ⟨paths, followed⟩
  | cons level deeper ih =>
      obtain ⟨next, -, further⟩ := follow_cons_eq_ok_iff.mp followed
      exact ih further

theorem exists_leads_of_folder? {folder : Location}
    (listed : folder? disk here path = .ok (some folder)) :
    disk.entryAt folder = some .folder ∧ ∃ trail, Disk.Leads disk true Disk.linkLimit
      (Disk.origin here path) (Disk.shownPieces path) trail folder := by
  obtain ⟨-, isFolder, trail, leads⟩ := Disk.find_folder_iff.mp (folder?_eq_some_iff.mp listed)
  refine ⟨isFolder, ?_⟩
  split at leads
  · rename_i empty
    have onlyHere : Disk.shownPieces "." = ["."] := by decide +kernel
    rw [onlyHere] at leads
    obtain ⟨rfl, -⟩ := leads.eq_of_here
    have nothing : Disk.shownPieces ("" : Text) = [] := Disk.shownPieces_nil
    rw [empty, nothing]
    exact ⟨_, .here _ _⟩
  · exact ⟨trail, leads⟩

/-- Every level but `**` adds what has a name on the disk. -/
theorem hasName_of_mem_atLevel (tree : disk.IsTree) (notEverything : level ≠ everything)
    (given : atLevel disk here foldersOnly level path = .ok parts) (member : part ∈ parts)
    (isPath : IsPath (Path.join path part)) : disk.hasName here (Path.join path part) = true := by
  cases gives_of_mem_atLevel tree given member with
  | itself isEverything => exact absurd isEverything notEverything
  | beneath isEverything => exact absurd isEverything notEverything
  | fitting _ listed standing =>
      obtain ⟨isFolder, trail, leads⟩ := exists_leads_of_folder? listed
      exact Disk.hasName_join (tree.isName_of_mem standing (by simp)) leads isFolder standing isPath
  | closing empty standing =>
      obtain rfl : part = [] := empty
      obtain ⟨place, found⟩ := Disk.hasFolder_iff_find.mp standing
      exact Disk.hasName_of_find (Disk.find_join_nil isPath found)
  | literal _ standing => exact standing

/-- What a pattern matches has a name on the disk, unless `**` is its last piece. -/
theorem hasName_of_search (tree : disk.IsTree) (last : (Path.split pattern).2 ≠ everything)
    (searched : search disk here pattern = .ok found) (member : path ∈ found)
    (isPath : IsPath path) : disk.hasName here path = true := by
  rw [search] at searched
  split at searched
  · rename_i magic
    simp only at searched
    split at searched
    · cases searched
    · rename_i paths followed
      cases searched
      have inPaths : path ∈ paths := by
        split at member
        · exact List.mem_of_mem_drop member
        · exact member
      obtain ⟨front, cut⟩ := exists_levels_eq magic
      rw [cut] at followed
      obtain ⟨next, given⟩ := exists_follow_concat followed
      obtain ⟨start, -, parts, part, atStart, inParts, rfl⟩ :=
        exists_of_mem_atLevelOfEach given inPaths
      exact hasName_of_mem_atLevel tree last atStart inParts isPath
  · cases searched
    rw [single] at member
    simp only at member
    split at member
    · rename_i closed
      split at member
      · rename_i standing
        obtain rfl := List.mem_singleton.mp member
        obtain ⟨place, leads⟩ := Disk.hasFolder_iff_find.mp standing
        exact Disk.hasName_of_find (Disk.find_of_split closed isPath leads)
      · cases member
    · split at member
      · rename_i standing
        obtain rfl := List.mem_singleton.mp member
        exact standing
      · cases member

/-! ## Matches on a disk with less -/

/-- A text that is found only if it was found before. -/
theorem sublist_of_stays {stood stands : Bool} (stays : stands = true → stood = true) :
    (if stands then [path] else []).Sublist (if stood then [path] else []) := by
  cases stands with
  | false => exact List.nil_sublist _
  | true => rw [stays rfl]

/-- From a list as much is chosen by a choice that takes what another one takes. -/
theorem filterMap_sublist_of_imp {α β : Type} {choose chooseMore : α → Option β} {list : List α}
    (more : ∀ item value, choose item = some value → chooseMore item = some value) :
    (list.filterMap choose).Sublist (list.filterMap chooseMore) := by
  induction list with
  | nil => exact .slnil
  | cons item rest ih =>
      cases chosen : choose item with
      | some value =>
          rw [List.filterMap_cons_some chosen, List.filterMap_cons_some (more item value chosen)]
          exact ih.cons_cons value
      | none =>
          rw [List.filterMap_cons_none chosen, List.filterMap_cons]
          split
          · exact ih
          · exact ih.cons _

/-- What a search admits it admits where more leads to folders. -/
theorem admits_of_leads {entry : Entry links} {leads leadsStill : Bool}
    (stays : leadsStill = true → leads = true)
    (admitted : admits foldersOnly entry leadsStill = true) :
    admits foldersOnly entry leads = true := by
  simp only [admits, Bool.or_eq_true, Bool.and_eq_true] at admitted ⊢
  exact admitted.imp_right (.imp_right stays)

/-- An empty path is dropped from the front of more paths as well, or fewer stay. -/
theorem sublist_of_drop_nil (less : fewer.Sublist paths) (drops : Bool) :
    (if drops && fewer.head? == some ("" : Text) then fewer.drop 1 else fewer).Sublist
      (if drops && paths.head? == some ("" : Text) then paths.drop 1 else paths) := by
  have dropped : (if drops && fewer.head? == some ("" : Text) then fewer.drop 1
      else fewer).Sublist fewer := by
    split
    · exact List.drop_sublist 1 fewer
    · exact .refl _
  cases less with
  | slnil => exact .refl _
  | cons path less =>
      refine (dropped.trans less).trans ?_
      split
      · exact .refl _
      · exact List.sublist_cons_self _ _
  | cons_cons path less =>
      rw [List.head?_cons, List.head?_cons]
      split
      · exact less
      · exact less.cons_cons path

section

variable (shrinks : Shrinks disk after)

include shrinks

theorem folder?_of_shrinks {folder : Location}
    (listed : folder? after here path = .ok (some folder)) :
    folder? disk here path = .ok (some folder) :=
  folder?_eq_some_iff.mpr (shrinks.find (folder?_eq_some_iff.mp listed))

/-- A folder that was listed is listed after taking away as well, or it is none. -/
theorem exists_folder?_of_shrinks {folder : Option Location}
    (listed : folder? disk here path = .ok folder) :
    ∃ left, folder? after here path = .ok left ∧ (left = none ∨ left = folder) := by
  rw [folder?] at listed
  rw [folder?]
  split
  · rename_i found
    rw [shrinks.find found] at listed
    cases listed
    exact ⟨_, rfl, .inr rfl⟩
  · rename_i fault refused
    have faulty := Disk.pathFault?_of_find refused
    rw [Disk.find, Disk.locate, Disk.locateBy_of_fault faulty] at listed
    cases listed
  · exact ⟨_, rfl, .inl rfl⟩

variable (entries : after.entries.Sublist disk.entries)

include entries

omit shrinks in
theorem below_sublist_of_shrinks {folder : Location} {leads leadsStill : Text → Bool}
    (stays : ∀ part, leadsStill part = true → leads part = true) :
    (below after foldersOnly folder leadsStill).Sublist (below disk foldersOnly folder leads) := by
  refine .trans (filterMap_sublist_of_imp fun item part chosen => ?_) (entries.filterMap _)
  simp only [Option.ite_none_right_eq_some, Bool.and_eq_true] at chosen ⊢
  obtain ⟨⟨⟨inside, admitted⟩, visible⟩, same⟩ := chosen
  exact ⟨⟨⟨inside, admits_of_leads (stays _) admitted⟩, visible⟩, same⟩

omit shrinks in
theorem namesIn_sublist_of_shrinks {folder : Location} {leads leadsStill : Text → Bool}
    (stays : ∀ name, leadsStill name = true → leads name = true) :
    (namesIn after foldersOnly level folder leadsStill).Sublist
      (namesIn disk foldersOnly level folder leads) := by
  refine .trans (filterMap_sublist_of_imp fun item name chosen => ?_)
    ((entries.filterMap _).filterMap _)
  simp only [Option.ite_none_right_eq_some, Bool.and_eq_true] at chosen ⊢
  obtain ⟨⟨⟨admitted, visible⟩, fits⟩, same⟩ := chosen
  exact ⟨⟨⟨admits_of_leads (stays _) admitted, visible⟩, fits⟩, same⟩

theorem beneath_sublist_of_shrinks (budget : Nat) (path : Text) (folder : Location) :
    (beneath after here foldersOnly budget path folder).Sublist
      (beneath disk here foldersOnly budget path folder) := by
  induction budget generalizing path folder with
  | zero => exact .refl _
  | succ budget ih =>
      have links : (linksBelow after folder).Sublist (linksBelow disk folder) := entries.filterMap _
      refine (below_sublist_of_shrinks entries fun _ => shrinks.hasFolder).append
        ((links.flatMap _).trans (.flatMap_right _ fun part _ => ?_))
      split
      · rename_i next listed
        simp only [folder?_of_shrinks shrinks listed]
        exact (ih _ next).map _
      · exact List.nil_sublist _

theorem exists_atLevel_of_shrinks (given : atLevel disk here foldersOnly level path = .ok parts) :
    ∃ left, atLevel after here foldersOnly level path = .ok left ∧ left.Sublist parts := by
  by_cases isEverything : level = everything
  · subst isEverything
    rw [atLevel_everything, map_eq_ok_iff] at given
    obtain ⟨folder, listed, rfl⟩ := given
    obtain ⟨left, again, gone⟩ := exists_folder?_of_shrinks shrinks listed
    rw [atLevel_everything, again]
    refine ⟨_, rfl, List.Sublist.cons_cons _ ?_⟩
    rcases gone with rfl | rfl
    · exact List.nil_sublist _
    · cases left with
      | none => exact List.nil_sublist _
      | some folder =>
          simp only [Option.map_some, Option.getD_some]
          exact beneath_sublist_of_shrinks shrinks entries _ path folder
  · by_cases magic : Wildcard.hasMagic level = true
    · rw [atLevel_of_hasMagic isEverything magic, map_eq_ok_iff] at given
      obtain ⟨folder, listed, rfl⟩ := given
      obtain ⟨left, again, gone⟩ := exists_folder?_of_shrinks shrinks listed
      rw [atLevel_of_hasMagic isEverything magic, again]
      refine ⟨_, rfl, ?_⟩
      rcases gone with rfl | rfl
      · exact List.nil_sublist _
      · cases left with
        | none => exact List.nil_sublist _
        | some folder =>
            simp only [Option.map_some, Option.getD_some]
            exact namesIn_sublist_of_shrinks entries fun _ => shrinks.hasFolder
    · rw [atLevel, if_neg isEverything, if_neg magic] at given ⊢
      by_cases empty : level = ""
      · rw [if_pos empty] at given ⊢
        cases given
        exact ⟨_, rfl, sublist_of_stays shrinks.hasFolder⟩
      · rw [if_neg empty] at given ⊢
        cases given
        exact ⟨_, rfl, sublist_of_stays shrinks.hasName⟩

theorem exists_atLevelOfEach_of_shrinks (less : fewer.Sublist paths)
    (given : atLevelOfEach disk here foldersOnly level paths = .ok found) :
    ∃ left, atLevelOfEach after here foldersOnly level fewer = .ok left ∧ left.Sublist found := by
  induction less generalizing found with
  | slnil => exact ⟨[], rfl, List.nil_sublist _⟩
  | cons path less ih =>
      obtain ⟨parts, rest, -, further, rfl⟩ := atLevelOfEach_cons_eq_ok_iff.mp given
      obtain ⟨left, again, sublist⟩ := ih further
      exact ⟨left, again, sublist.trans (List.sublist_append_right _ _)⟩
  | cons_cons path less ih =>
      obtain ⟨parts, rest, atPath, further, rfl⟩ := atLevelOfEach_cons_eq_ok_iff.mp given
      obtain ⟨own, again, sublist⟩ := exists_atLevel_of_shrinks shrinks entries atPath
      obtain ⟨left, others, less⟩ := ih further
      exact ⟨_, atLevelOfEach_cons_eq_ok_iff.mpr ⟨own, left, again, others, rfl⟩,
        (sublist.map _).append less⟩

theorem exists_follow_of_shrinks (less : fewer.Sublist paths)
    (followed : follow disk here paths levels = .ok found) :
    ∃ left, follow after here fewer levels = .ok left ∧ left.Sublist found := by
  induction levels generalizing paths fewer with
  | nil =>
      cases followed
      exact ⟨fewer, rfl, less⟩
  | cons level deeper ih =>
      obtain ⟨next, given, further⟩ := follow_cons_eq_ok_iff.mp followed
      obtain ⟨left, again, sublist⟩ := exists_atLevelOfEach_of_shrinks shrinks entries less given
      obtain ⟨fewest, followedAgain, fewer⟩ := ih sublist further
      exact ⟨fewest, follow_cons_eq_ok_iff.mpr ⟨left, again, followedAgain⟩, fewer⟩

/-- After taking away a pattern matches no more than before, and in the same order. -/
theorem exists_search_of_shrinks (searched : search disk here pattern = .ok found) :
    ∃ left, search after here pattern = .ok left ∧ left.Sublist found := by
  rw [search] at searched ⊢
  split at searched
  · rename_i magic
    rw [if_pos magic]
    simp only at searched ⊢
    split at searched
    · cases searched
    · rename_i paths followed
      cases searched
      obtain ⟨left, again, sublist⟩ := exists_follow_of_shrinks shrinks entries (.refl _) followed
      rw [again]
      exact ⟨_, rfl, sublist_of_drop_nil sublist _⟩
  · rename_i plain
    cases searched
    rw [if_neg plain]
    refine ⟨_, rfl, sublist_of_stays ?_⟩
    split
    · exact shrinks.hasFolder
    · exact shrinks.hasName

end

/--
When all matches were taken away, only a last piece `**` has matches still, and nothing has a name
where they lead.
-/
theorem exists_search_of_removeEach {left : Disk links} (tree : disk.IsTree)
    (searched : search disk here pattern = .ok found)
    (removed : disk.removeEach here found = (.ok (), left)) :
    ∃ others, search left here pattern = .ok others ∧ others.Sublist found ∧
      (∀ path ∈ others, left.hasName here path = false) ∧
      ((Path.split pattern).2 ≠ everything → others = []) := by
  have shrinks : Shrinks disk left := by
    have taken : Shrinks disk (disk.removeEach here found).2 := Disk.shrinks_removeEach found
    rwa [removed] at taken
  have entries : left.entries.Sublist disk.entries := by
    have taken := Disk.entries_removeEach_sublist disk here found
    rwa [removed] at taken
  have leftTree : left.IsTree := by
    have taken := tree.removeEach here found
    rwa [removed] at taken
  obtain ⟨others, again, sublist⟩ := exists_search_of_shrinks shrinks entries searched
  have gone : ∀ path ∈ others, left.hasName here path = false := by
    intro path member
    rw [Bool.eq_false_iff]
    intro standing
    obtain ⟨place, named⟩ := Disk.hasName_iff.mp standing
    obtain ⟨entry, found⟩ := Disk.nameAt?_eq_some_iff.mp named
    have nothing := Disk.entryAt_removeEach_of_below removed
      ⟨path, sublist.subset member, place, shrinks.nameAt? named, Disk.isWithin_self place⟩
    rw [(Disk.findName_eq_ok_iff.mp found).2] at nothing
    cases nothing
  refine ⟨others, again, sublist, gone, fun last => ?_⟩
  rw [List.eq_nil_iff_forall_not_mem]
  intro path member
  have removable := (Disk.exists_removeEach_iff.mp ⟨left, removed⟩).1 path (sublist.subset member)
  have standing := hasName_of_search leftTree last again member
    (Disk.isPath_of_hasName removable.standing)
  rw [gone path member] at standing
  cases standing

end Glob

end ApiDocs
