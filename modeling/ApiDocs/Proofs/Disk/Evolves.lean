import ApiDocs.Disk.Change
import ApiDocs.Proofs.Disk.Tree

/-!
# What changes leave alone

A change works at one place: it makes folders on the way there, and it changes or takes
away only what stands at or below the place itself.  `Evolves` says so for two scopes, in
which files may change and folders may go, and holds for a row of changes if it holds for
each of them.  Whether a change succeeds does not matter for it.
-/

namespace ApiDocs.Disk

variable {links : Bool} {disk before after : Disk links} {here place location : Location}
variable {path : Text} {files folders moreFiles moreFolders : Location → Prop}

/-- A disk came from another one by changes to some files; only some folders may be gone. -/
structure Evolves (files folders : Location → Prop) (before after : Disk links) : Prop where
  tree : before.IsTree → after.IsTree
  noLink : ∀ place, before.linkAt? place = none → after.linkAt? place = none
  file : ∀ place, ¬files place → after.file? place = before.file? place
  folder : ∀ place, ¬folders place → before.entryAt place = some .folder →
    after.entryAt place = some .folder

/-- The empty scope. -/
def nowhere : Location → Prop := fun _ => False

namespace Evolves

theorem refl (files folders : Location → Prop) (disk : Disk links) :
    Evolves files folders disk disk :=
  ⟨id, fun _ => id, fun _ _ => rfl, fun _ _ => id⟩

theorem trans {middle : Disk links} (first : Evolves files folders before middle)
    (second : Evolves files folders middle after) : Evolves files folders before after where
  tree := second.tree ∘ first.tree
  noLink := fun place => second.noLink place ∘ first.noLink place
  file := fun place outside => (second.file place outside).trans (first.file place outside)
  folder := fun place outside => second.folder place outside ∘ first.folder place outside

theorem mono (evolves : Evolves files folders before after)
    (inFiles : ∀ place, files place → moreFiles place)
    (inFolders : ∀ place, folders place → moreFolders place) :
    Evolves moreFiles moreFolders before after where
  tree := evolves.tree
  noLink := evolves.noLink
  file := fun place outside => evolves.file place (mt (inFiles place) outside)
  folder := fun place outside => evolves.folder place (mt (inFolders place) outside)

theorem straight (evolves : Evolves files folders before after)
    (straight : before.IsStraight here path) : after.IsStraight here path :=
  fun place passed => evolves.noLink place (straight place passed)

end Evolves

/-! ## Where a new entry stands -/

theorem mem_steps {name : Text} (member : name ∈ steps (Name.stored path)) :
    name = "." ∨ Symbol.char '/' ∉ name ∧ Name.stored name = name := by
  rcases List.mem_append.mp member with isStep | ending
  · right
    have isPiece := (List.mem_filter.mp isStep).1
    refine ⟨Text.not_mem_of_mem_splitOn _ isPiece, ?_⟩
    rw [Name.pieces_stored] at isPiece
    obtain ⟨piece, -, rfl⟩ := List.mem_map.mp isPiece
    exact Name.stored_stored piece
  · left
    split at ending
    · exact List.mem_singleton.mp ending
    · cases ending

/-- On a tree, what is no folder is located in a folder, under a name that the disk can keep. -/
theorem exists_parent_of_locate (tree : disk.IsTree)
    (located : disk.locate here path = .ok location)
    (noFolder : disk.entryAt location ≠ some .folder)
    (straight : disk.IsStraight here path := by simp) :
    ∃ parent name, location = parent ++ [name] ∧ disk.entryAt parent = some .folder ∧
      IsName name := by
  obtain ⟨isPath, walked⟩ := (locate_eq_ok_iff straight).mp located
  obtain ⟨canStep, rfl⟩ := (walk_eq_ok_iff fun _ => ne_nil_of_mem_steps).mp walked
  rcases List.eq_nil_or_concat (steps (Name.stored path)) with none | ⟨front, name, cut⟩
  · cases absolute : Path.isAbsolute path with
    | true =>
        rw [none, origin, if_pos absolute] at noFolder
        exact absurd (entryAt_root disk) noFolder
    | false => exact absurd none (steps_ne_nil isPath absolute)
  · rw [List.concat_eq_append] at cut
    obtain ⟨fromFolder, short⟩ := canStep front name [] cut
    have member : name ∈ steps (Name.stored path) := by simp [cut]
    rw [cut, List.foldl_append, List.foldl_cons, List.foldl_nil] at noFolder ⊢
    have notHere : name ≠ "." := by
      rintro rfl
      rw [advance_here] at noFolder
      exact noFolder fromFolder
    have notUp : name ≠ ".." := by
      rintro rfl
      rw [advance_up] at noFolder
      exact noFolder (tree.entryAt_dropLast fromFolder)
    have nonempty := ne_nil_of_mem_steps member
    obtain ⟨whole, shown⟩ := (mem_steps member).resolve_left notHere
    have fits := (short.resolve_left notHere).resolve_left notUp
    refine ⟨front.foldl advance (origin here path), name, ?_, fromFolder, ?_⟩
    · rw [advance, if_neg (by simp [nonempty, notHere]), if_neg notUp]
    · exact ⟨⟨nonempty, whole, notHere⟩, notUp, shown, fits⟩

/-! ## Single changes -/

theorem entryAt_put_of_ne {entry : Entry links} (other : place ≠ location) :
    (disk.put location entry).entryAt place = disk.entryAt place := by
  rw [entryAt_put, if_neg other]
  split
  · rename_i root
    rw [root, entryAt_root]
  · rfl

/-- Where no folder stood, an entry takes no folder away. -/
theorem entryAt_put_of_folder {entry : Entry links}
    (noFolder : disk.entryAt location ≠ some .folder)
    (folder : disk.entryAt place = some .folder) :
    (disk.put location entry).entryAt place = some .folder :=
  entryAt_put_of_keeps (fun replaced => absurd replaced noFolder) folder

theorem file?_congr (same : after.entryAt place = before.entryAt place) :
    after.file? place = before.file? place := by
  rw [file?, file?, same]

theorem linkAt?_congr (same : after.entryAt place = before.entryAt place) :
    after.linkAt? place = before.linkAt? place := by
  rw [linkAt?, linkAt?, same]

theorem linkAt?_put {entry : Entry links} (noLink : entry.target? = none)
    (before : disk.linkAt? place = none) : (disk.put location entry).linkAt? place = none := by
  rw [linkAt?, entryAt_put]
  split
  · rfl
  · split
    · exact noLink
    · exact before

/-- A change at the place where a path is located, which is no folder. -/
theorem evolves_put {entry : Entry links} (located : disk.locate here path = .ok location)
    (noFolder : disk.entryAt location ≠ some .folder) (noLink : entry.target? = none := by simp)
    (straight : disk.IsStraight here path := by simp) :
    Evolves (· = location) nowhere disk (disk.put location entry) where
  tree := fun tree => by
    obtain ⟨parent, name, rfl, isFolder, isName⟩ :=
      exists_parent_of_locate tree located noFolder straight
    exact tree.put isFolder isName fun folder => absurd folder noFolder
  noLink := fun _ => linkAt?_put noLink
  file := fun place other => file?_congr (entryAt_put_of_ne other)
  folder := fun place _ => entryAt_put_of_folder noFolder

theorem evolves_makeFolder (straight : disk.IsStraight here path := by simp) :
    Evolves nowhere nowhere disk (disk.makeFolder here path).2 := by
  rw [makeFolder, Disk.placeName, locateName_of_straight straight]
  cases located : disk.locate here path with
  | error error => exact .refl _ _ _
  | ok location =>
      cases standing : disk.entryAt location with
      | some entry => simpa only [standing] using Evolves.refl nowhere nowhere disk
      | none =>
          have noFolder : disk.entryAt location ≠ some .folder := by simp [standing]
          have atPlace : Evolves (· = location) nowhere disk (disk.put location .folder) :=
            evolves_put located noFolder (by simp) straight
          simp only [standing]
          refine ⟨atPlace.tree, atPlace.noLink, fun place _ => ?_, atPlace.folder⟩
          rcases eq_or_ne place location with rfl | other
          · rw [file?, file?, standing, entryAt_put, if_pos rfl]
            split <;> rfl
          · exact atPlace.file place other

theorem unlessFolder_snd (error : DiskError) : (disk.unlessFolder here path error).2 = disk := by
  rw [unlessFolder]
  split <;> rfl

theorem evolves_makeFoldersUpTo {anchor : Path.Anchor} (names : List Text)
    (straight : ∀ front, front <+: names.reverse →
      disk.IsStraight here (CleanPath.mk anchor front).text := by simp) :
    Evolves nowhere nowhere disk (disk.makeFoldersUpTo here anchor names).2 := by
  induction names with
  | nil => exact .refl _ _ _
  | cons name above ih =>
      have whole : disk.IsStraight here (CleanPath.mk anchor (name :: above).reverse).text :=
        straight _ (List.prefix_refl _)
      have further := ih fun front isPrefix => straight front <| by
        rw [List.reverse_cons]
        exact isPrefix.trans (List.prefix_append _ _)
      rw [makeFoldersUpTo]
      split
      · rename_i made outcome
        have own := evolves_makeFolder whole
        rwa [outcome] at own
      · split
        · rename_i outcome
          rwa [outcome] at further
        · rename_i made outcome
          rw [outcome] at further
          have own := evolves_makeFolder (further.straight whole)
          split
          · rename_i outcome
            rw [outcome] at own
            exact further.trans own
          · rename_i outcome
            rw [outcome] at own
            rw [unlessFolder_snd]
            exact further.trans own
      · rw [unlessFolder_snd]
        exact .refl _ _ _

/-- The place of a path, if the disk takes the text as a path at all. -/
def atPath (here : Location) (path : Text) : Location → Prop :=
  fun place => IsPath path ∧ place = target here path

theorem evolves_writeInFolder (content : List UInt8)
    (straight : disk.IsStraight here path := by simp) :
    Evolves (atPath here path) nowhere disk (disk.writeInFolder here path content).2 := by
  rw [writeInFolder, Disk.place]
  cases located : disk.locate here path with
  | error error => exact .refl _ _ _
  | ok location =>
      have atPlace : location = target here path := eq_target_of_locate located straight
      have contained : ∀ place, place = location → atPath here path place := by
        rintro _ rfl
        exact ⟨isPath_of_locate located, atPlace⟩
      by_cases folder : (disk.entryAt location).any Entry.isFolder = true
      · simpa only [if_pos folder] using Evolves.refl _ _ disk
      · have noFolder : disk.entryAt location ≠ some .folder := by
          intro isFolder
          simp [isFolder] at folder
        simpa only [if_neg folder] using
          (evolves_put located noFolder (by simp) straight).mono contained fun _ => id

theorem evolves_makeFolders_parent {path : CleanPath} (proper : path.IsProper)
    (straight : disk.IsStraight here path.text := by simp) :
    Evolves nowhere nowhere disk (disk.makeFolders here path.parent).2 := by
  have above : ∀ front, front <+: path.parent.names.reverse.reverse →
      disk.IsStraight here (CleanPath.mk path.anchor front).text := by
    intro front isPrefix
    rw [List.reverse_reverse] at isPrefix
    exact straight.of_prefix proper (isPrefix.trans (List.dropLast_prefix path.names))
  exact evolves_makeFoldersUpTo _ above

theorem evolves_write {path : CleanPath} (proper : path.IsProper) (content : List UInt8)
    (straight : disk.IsStraight here path.text := by simp) :
    Evolves (atPath here path.text) nowhere disk (disk.write here path.text content).2 := by
  have folders := evolves_makeFolders_parent proper straight
  rw [write, proper.ofText_text]
  split
  · rename_i outcome
    rw [outcome] at folders
    exact folders.mono (fun _ => False.elim) fun _ => id
  · rename_i made outcome
    rw [outcome] at folders
    exact (folders.mono (fun _ => False.elim) fun _ => id).trans
      (evolves_writeInFolder content (folders.straight straight))

/-! ## Taking away -/

/-- A disk has only what another one has. -/
def Shrinks (before after : Disk links) : Prop :=
  ∀ place, after.entryAt place = none ∨ after.entryAt place = before.entryAt place

theorem Shrinks.refl (disk : Disk links) : Shrinks disk disk :=
  fun _ => .inr rfl

theorem Shrinks.trans {middle : Disk links} (first : Shrinks before middle)
    (second : Shrinks middle after) : Shrinks before after := by
  intro place
  rcases second place with gone | same
  · exact .inl gone
  · rw [same]
    exact first place

theorem Shrinks.entryAt {entry : Entry links} (shrinks : Shrinks before after)
    (standing : after.entryAt place = some entry) : before.entryAt place = some entry := by
  rcases shrinks place with gone | same
  · rw [gone] at standing
    cases standing
  · rwa [same] at standing

theorem Shrinks.noLink (shrinks : Shrinks before after) (noLink : before.linkAt? place = none) :
    after.linkAt? place = none := by
  rcases shrinks place with gone | same
  · rw [linkAt?, gone]
    rfl
  · rwa [linkAt?_congr same]

/-- The places at or below the place of a path. -/
def belowPath (here : Location) (path : Text) : Location → Prop :=
  fun place => isWithin (target here path) place

theorem shrinks_erase (disk : Disk links) (location : Location) :
    Shrinks disk (disk.erase location) := by
  intro place
  rw [entryAt_erase]
  split
  · rename_i root
    rw [root, entryAt_root]
    exact .inr rfl
  · split
    · exact .inl rfl
    · exact .inr rfl

theorem shrinks_empty (disk : Disk links) (location : Location) :
    Shrinks disk (disk.empty location) := by
  intro place
  rw [entryAt_empty]
  split
  · rename_i root
    rw [root, entryAt_root]
    exact .inr rfl
  · split
    · exact .inl rfl
    · exact .inr rfl

theorem entryAt_erase_of_outside (outside : ¬isWithin location place) :
    (disk.erase location).entryAt place = disk.entryAt place := by
  rw [entryAt_erase, if_neg outside]
  split
  · rename_i root
    rw [root, entryAt_root]
  · rfl

theorem entryAt_empty_of_outside (outside : ¬isWithin location place) :
    (disk.empty location).entryAt place = disk.entryAt place := by
  have stays : ¬(place ≠ location ∧ isWithin location place = true) := fun inside =>
    outside inside.2
  rw [entryAt_empty, if_neg stays]
  split
  · rename_i root
    rw [root, entryAt_root]
  · rfl

theorem evolves_erase (disk : Disk links) (location : Location) :
    Evolves (isWithin location ·) (isWithin location ·) disk (disk.erase location) where
  tree := fun tree => tree.erase location
  noLink := fun _ => (shrinks_erase disk location).noLink
  file := fun place outside => file?_congr (entryAt_erase_of_outside outside)
  folder := fun place outside folder => by
    rwa [entryAt_erase_of_outside outside]

theorem evolves_empty (disk : Disk links) (location : Location) :
    Evolves (isWithin location ·) (isWithin location ·) disk (disk.empty location) where
  tree := fun tree => tree.empty location
  noLink := fun _ => (shrinks_empty disk location).noLink
  file := fun place outside => file?_congr (entryAt_empty_of_outside outside)
  folder := fun place outside folder => by
    rwa [entryAt_empty_of_outside outside]

/-- What a removal leaves: the disk as it was, or without what stood at or below a place. -/
theorem exists_remove_cases (disk : Disk links) (here : Location) (path : Text) :
    (∃ error, disk.remove here path = (.error error, disk)) ∨
      ∃ place, (disk.locate here path = .ok place ∨ disk.locateName here path = .ok place) ∧
        ((∃ error, disk.remove here path = (.error error, disk.empty place)) ∨
          disk.remove here path = (.ok (), disk.erase place)) := by
  rw [remove]
  split
  · rw [removeFolder]
    cases found : disk.find here path with
    | error error => exact .inl ⟨error, rfl⟩
    | ok pair =>
        obtain ⟨location, entry⟩ := pair
        simp only
        split
        · exact .inl ⟨_, rfl⟩
        · refine .inr ⟨location, .inl (find_eq_ok_iff.mp found).1, ?_⟩
          split
          · exact .inl ⟨_, rfl⟩
          · exact .inr rfl
  · rw [removeFile]
    cases found : disk.findName here path with
    | error error => exact .inl ⟨error, rfl⟩
    | ok pair =>
        obtain ⟨location, entry⟩ := pair
        simp only
        split
        · exact .inl ⟨_, rfl⟩
        · exact .inr ⟨location, .inr (findName_eq_ok_iff.mp found).1, .inr rfl⟩

/-- Without links on the way, a removal works at or below the place that the path means. -/
theorem remove_cases (disk : Disk links) (here : Location) (path : Text)
    (straight : disk.IsStraight here path := by simp) :
    (∃ error, disk.remove here path = (.error error, disk)) ∨
      (∃ error, disk.remove here path = (.error error, disk.empty (target here path))) ∨
      disk.remove here path = (.ok (), disk.erase (target here path)) := by
  rcases exists_remove_cases disk here path with failed | ⟨place, located, taken⟩
  · exact .inl failed
  · rw [locateName_of_straight straight, or_self] at located
    obtain rfl := eq_target_of_locate located straight
    exact .inr taken

theorem evolves_remove (straight : disk.IsStraight here path := by simp) :
    Evolves (belowPath here path) (belowPath here path) disk (disk.remove here path).2 := by
  rcases remove_cases disk here path straight with ⟨error, same⟩ | ⟨error, same⟩ | same <;> rw [same]
  · exact .refl _ _ _
  · exact evolves_empty disk (target here path)
  · exact evolves_erase disk (target here path)

theorem shrinks_remove : Shrinks disk (disk.remove here path).2 := by
  rcases exists_remove_cases disk here path with
    ⟨error, same⟩ | ⟨place, -, ⟨error, same⟩ | same⟩ <;> rw [same]
  · exact .refl _
  · exact shrinks_empty disk _
  · exact shrinks_erase disk _

theorem entryAt_of_remove {left : Disk links} (removed : disk.remove here path = (.ok (), left))
    (belowRoot : target here path ≠ []) (straight : disk.IsStraight here path := by simp) :
    left.entryAt (target here path) = none := by
  rcases remove_cases disk here path straight with ⟨error, same⟩ | ⟨error, same⟩ | same <;>
    rw [same] at removed <;> cases removed
  rw [entryAt_erase, if_neg belowRoot, if_pos (isWithin_self _)]

/-- The places at or below the places of some paths. -/
def belowPaths (here : Location) (paths : List Text) : Location → Prop :=
  fun place => ∃ path ∈ paths, belowPath here path place

theorem evolves_removeEach (paths : List Text)
    (straight : ∀ path ∈ paths, disk.IsStraight here path := by simp) :
    Evolves (belowPaths here paths) (belowPaths here paths) disk
      (disk.removeEach here paths).2 := by
  induction paths generalizing disk with
  | nil => exact .refl _ _ _
  | cons path rest ih =>
      have own : ∀ place, belowPath here path place → belowPaths here (path :: rest) place :=
        fun place below => ⟨path, List.mem_cons_self, below⟩
      have others : ∀ place, belowPaths here rest place → belowPaths here (path :: rest) place :=
        fun place ⟨other, member, below⟩ => ⟨other, List.mem_cons_of_mem path member, below⟩
      obtain ⟨ownStraight, othersStraight⟩ := List.forall_mem_cons.mp straight
      have first :
          Evolves (belowPath here path) (belowPath here path) disk (disk.remove here path).2 :=
        evolves_remove ownStraight
      have further := ih fun other member => first.straight (othersStraight other member)
      rw [removeEach]
      split
      · rename_i outcome
        rw [outcome] at first
        exact first.mono own own
      · rename_i left outcome
        rw [outcome] at first further
        exact (first.mono own own).trans (further.mono others others)

theorem shrinks_removeEach (paths : List Text) :
    Shrinks disk (disk.removeEach here paths).2 := by
  induction paths generalizing disk with
  | nil => exact .refl _
  | cons path rest ih =>
      have first : Shrinks disk (disk.remove here path).2 := shrinks_remove
      rw [removeEach]
      split
      · rename_i outcome
        rwa [outcome] at first
      · rename_i left outcome
        rw [outcome] at first
        exact first.trans ih

/-- After a successful removal nothing stands any more where one of the paths led. -/
theorem entryAt_of_removeEach {paths : List Text} {left : Disk links}
    (removed : disk.removeEach here paths = (.ok (), left)) (member : path ∈ paths)
    (belowRoot : target here path ≠ [])
    (straight : ∀ path ∈ paths, disk.IsStraight here path := by simp) :
    left.entryAt (target here path) = none := by
  induction paths generalizing disk with
  | nil => cases member
  | cons first rest ih =>
      obtain ⟨ownStraight, othersStraight⟩ := List.forall_mem_cons.mp straight
      rw [removeEach] at removed
      split at removed
      · cases removed
      · rename_i middle outcome
        have shrinks : Shrinks disk middle := by
          have taken : Shrinks disk (disk.remove here first).2 := shrinks_remove
          rwa [outcome] at taken
        rcases List.mem_cons.mp member with rfl | inRest
        · have gone := entryAt_of_remove outcome belowRoot ownStraight
          have shrinks : Shrinks middle (middle.removeEach here rest).2 := shrinks_removeEach rest
          rw [removed] at shrinks
          rcases shrinks (target here path) with none | same
          · exact none
          · rw [same, gone]
        · exact ih removed inRest fun other isOther place passed =>
            shrinks.noLink (othersStraight other isOther place passed)

end ApiDocs.Disk
