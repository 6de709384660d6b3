import Mathlib.Data.List.Perm.Subperm
import ApiDocs.Proofs.Disk.Tree
import ApiDocs.Proofs.Glob.Levels
import ApiDocs.Proofs.Glob.Match

/-!
# What a search finds

Every level of a pattern adds names to the paths found so far: a level without wildcards
adds itself, a level with wildcards one name from the disk that fits it, and the level
`**` any number of names from the disk, none of them hidden.  Where links are followed, these are
the names under which the links stand and then names from where they lead.
-/

namespace ApiDocs.Glob

variable {links : Bool} {disk : Disk links} {here : Location} {path level part pattern : Text}
variable {levels names paths found : List Text}

/-- The names that one level of a pattern adds to a path. -/
inductive Adds (level : Text) : List Text → Prop where
  | everything {names : List Text} : level = everything →
      (∀ name ∈ names, Disk.IsName name ∧ isHidden name = false) → Adds level names
  | fitting {name : Text} : level ≠ everything → Wildcard.fitsText level name = true →
      (isHidden level || !isHidden name) = true → Disk.IsName name → Adds level [name]
  | literal : Wildcard.hasMagic level = false → Adds level [level]

/-- The names that several levels of a pattern add to a path. -/
inductive Descent : List Text → List Text → Prop where
  | nil : Descent [] []
  | cons {level : Text} {levels names rest : List Text} : Adds level names →
      Descent levels rest → Descent (level :: levels) (names ++ rest)

/-- Whether a text is written as its names. -/
def IsPart (part : Text) : Prop :=
  Text.joinWith "/" (Path.names part) = part

theorem isPart_joinWith (areNames : ∀ name ∈ names, Path.IsName name) :
    IsPart (Text.joinWith "/" names) := by
  rw [IsPart, Path.names_joinWith areNames]

theorem isPart_of_isName (isName : Path.IsName part) : IsPart part := by
  rw [IsPart, isName.names_eq]
  rfl

theorem IsPart.relative (isPart : IsPart part) : Path.isAbsolute part = false :=
  isPart ▸ Path.isAbsolute_joinWith fun _ => Path.isName_of_mem_names

theorem hasMagic_everything : Wildcard.hasMagic everything = true := rfl

/-! ## One level -/

theorem exists_of_mem_children {folder : Location} {name : Text} {entry : Entry links}
    (member : (name, entry) ∈ disk.children folder) :
    (folder ++ [name], entry) ∈ disk.entries := by
  obtain ⟨⟨location, standing⟩, inEntries, chosen⟩ := List.mem_filterMap.mp member
  simp only at chosen
  split at chosen
  · cases chosen
  · rename_i last above reversed
    split at chosen
    · rename_i isFolder
      cases chosen
      have location_eq : location = folder ++ [name] := by
        rw [← isFolder, ← List.reverse_cons, ← reversed, List.reverse_reverse]
      rwa [← location_eq]
    · cases chosen

theorem isName_of_mem_entries (tree : disk.IsTree) {location : Location} {entry : Entry links}
    (member : (location, entry) ∈ disk.entries) {name : Text} (inPlace : name ∈ location) :
    Disk.IsName name :=
  tree.named location (List.mem_map.mpr ⟨_, member, rfl⟩) name inPlace

theorem mem_entries_iff (tree : disk.IsTree) {place : Location} (below : place ≠ [])
    {entry : Entry links} : (place, entry) ∈ disk.entries ↔ disk.entryAt place = some entry := by
  rw [Disk.entryAt, if_neg below, Disk.lookup_eq_some_iff_mem tree.distinct]

/-- What is chosen among the entries below a folder, by their names from there. -/
theorem mem_filterMap_below_iff (tree : disk.IsTree) {folder : Location}
    (keep : List Text → Entry links → Bool) :
    part ∈ (disk.entries.filterMap fun (location, entry) =>
        let names := location.drop folder.length
        if Disk.isWithin folder location && !names.isEmpty && keep names entry &&
            !names.any isHidden then some (Text.joinWith "/" names)
        else none) ↔
      ∃ names entry, names ≠ [] ∧ disk.entryAt (folder ++ names) = some entry ∧
        keep names entry = true ∧ names.any isHidden = false ∧
        part = Text.joinWith "/" names := by
  constructor
  · intro member
    obtain ⟨⟨location, entry⟩, inEntries, chosen⟩ := List.mem_filterMap.mp member
    simp only at chosen
    split at chosen
    · rename_i kept
      cases chosen
      simp only [Bool.and_eq_true, Bool.not_eq_true', List.isEmpty_eq_false_iff] at kept
      obtain ⟨⟨⟨inside, nonempty⟩, admitted⟩, visible⟩ := kept
      obtain ⟨names, rfl⟩ := Disk.isWithin_iff.mp inside
      rw [List.drop_left] at nonempty visible admitted ⊢
      have below : folder ++ names ≠ [] := List.append_ne_nil_of_right_ne_nil _ nonempty
      exact ⟨names, entry, nonempty, (mem_entries_iff tree below).mp inEntries, admitted, visible, rfl⟩
    · cases chosen
  · rintro ⟨names, entry, nonempty, standing, admitted, visible, rfl⟩
    have below : folder ++ names ≠ [] := List.append_ne_nil_of_right_ne_nil _ nonempty
    have inside : Disk.isWithin folder (folder ++ names) = true :=
      Disk.isWithin_iff.mpr ⟨names, rfl⟩
    refine List.mem_filterMap.mpr ⟨_, (mem_entries_iff tree below).mpr standing, ?_⟩
    simp [inside, nonempty, admitted, visible]

theorem mem_below_iff (tree : disk.IsTree) {foldersOnly : Bool} {folder : Location}
    {leads : Text → Bool} :
    part ∈ below disk foldersOnly folder leads ↔
      ∃ names entry, names ≠ [] ∧ disk.entryAt (folder ++ names) = some entry ∧
        admits foldersOnly entry (leads (Text.joinWith "/" names)) = true ∧
        names.any isHidden = false ∧ part = Text.joinWith "/" names :=
  mem_filterMap_below_iff tree fun names entry =>
    admits foldersOnly entry (leads (Text.joinWith "/" names))

theorem mem_linksBelow_iff (tree : disk.IsTree) {folder : Location} :
    part ∈ linksBelow disk folder ↔
      ∃ names entry, names ≠ [] ∧ disk.entryAt (folder ++ names) = some entry ∧
        entry.target?.isSome = true ∧ names.any isHidden = false ∧ part = Text.joinWith "/" names :=
  mem_filterMap_below_iff tree fun _ entry => entry.target?.isSome

theorem mem_namesIn_iff (tree : disk.IsTree) {foldersOnly : Bool} {folder : Location} {name : Text}
    {leads : Text → Bool} :
    name ∈ namesIn disk foldersOnly level folder leads ↔
      ∃ entry, disk.entryAt (folder ++ [name]) = some entry ∧
        admits foldersOnly entry (leads name) = true ∧
        (isHidden level || !isHidden name) = true ∧ Wildcard.fitsText level name = true := by
  have below : folder ++ [name] ≠ [] := by simp
  constructor
  · intro member
    obtain ⟨⟨other, entry⟩, inFolder, chosen⟩ := List.mem_filterMap.mp member
    simp only at chosen
    split at chosen
    · rename_i kept
      cases chosen
      simp only [Bool.and_eq_true] at kept
      exact ⟨entry, (mem_entries_iff tree below).mp (exists_of_mem_children inFolder), kept.1.1,
        kept.1.2, kept.2⟩
    · cases chosen
  · rintro ⟨entry, standing, admitted, visible, fits⟩
    refine List.mem_filterMap.mpr ⟨(name, entry), ?_, by simp [admitted, visible, fits]⟩
    exact List.mem_filterMap.mpr ⟨_, (mem_entries_iff tree below).mpr standing, by simp⟩

/-! ### Disks without links -/

@[simp]
theorem admits_leads (foldersOnly : Bool) (entry : Entry) (leads : Bool) :
    admits foldersOnly entry leads = admits foldersOnly entry := by
  simp [admits]

@[simp]
theorem namesIn_leads (disk : Disk) (foldersOnly : Bool) (level : Text) (folder : Location)
    (leads : Text → Bool) :
    namesIn disk foldersOnly level folder leads = namesIn disk foldersOnly level folder := by
  simp only [namesIn, admits_leads]

@[simp]
theorem below_leads (disk : Disk) (foldersOnly : Bool) (folder : Location) (leads : Text → Bool) :
    below disk foldersOnly folder leads = below disk foldersOnly folder := by
  simp only [below, admits_leads]

/-- Without links there is nothing to be followed below a folder. -/
@[simp]
theorem beneath_eq_below (disk : Disk) (here : Location) (foldersOnly : Bool) (budget : Nat)
    (path : Text) (folder : Location) :
    beneath disk here foldersOnly (budget + 1) path folder = below disk foldersOnly folder := by
  have none : linksBelow disk folder = [] := by
    rw [linksBelow, List.filterMap_eq_nil_iff]
    rintro ⟨location, entry⟩ -
    simp
  rw [beneath, none, List.flatMap_nil, List.append_nil, below_leads]

/-! ### What a level gives -/

theorem folder?_eq_some_iff {folder : Location} :
    folder? disk here path = .ok (some folder) ↔
      disk.find here (if path = "" then "." else path) = .ok (folder, .folder) := by
  rw [folder?]
  split
  · rename_i location entry found
    rw [found]
    cases isFolder : entry.isFolder with
    | true =>
        obtain rfl := Entry.isFolder_iff.mp isFolder
        simp
    | false =>
        refine iff_of_false (by simp) fun same => ?_
        cases same
        cases isFolder
  all_goals
    rename_i found
    rw [found]
    simp

theorem eq_target_of_folder? {disk : Disk} {folder : Location}
    (listed : folder? disk here path = .ok (some folder)) : folder = Disk.target here path := by
  have located := (Disk.find_eq_ok_iff.mp (folder?_eq_some_iff.mp listed)).1
  rw [Disk.eq_target_of_locate located]
  split
  · rename_i empty
    rw [empty]
    rfl
  · rfl

theorem atLevel_everything (disk : Disk links) (here : Location) (foldersOnly : Bool)
    (path : Text) :
    atLevel disk here foldersOnly everything path =
      (folder? disk here path).map fun folder =>
        ("" : Text) ::
          (folder.map (beneath disk here foldersOnly (Disk.linkLimit + 1) path)).getD [] := by
  rw [atLevel, if_pos rfl]
  rcases folder? disk here path with error | (_ | folder) <;> rfl

theorem atLevel_of_hasMagic (notEverything : level ≠ everything)
    (magic : Wildcard.hasMagic level = true) (disk : Disk links) (here : Location)
    (foldersOnly : Bool) (path : Text) :
    atLevel disk here foldersOnly level path =
      (folder? disk here path).map fun folder =>
        (folder.map fun folder => namesIn disk foldersOnly level folder fun name =>
          disk.hasFolder here (Path.join path name)).getD [] := by
  rw [atLevel, if_neg notEverything, if_pos magic]
  rcases folder? disk here path with error | (_ | folder) <;> rfl

/-- Whether an entry is one through which a search can go on. -/
def isPassable (entry : Entry links) : Bool :=
  entry.isFolder || entry.target?.isSome

theorem isPassable_of_admits {entry : Entry links} {leads : Bool}
    (admitted : admits true entry leads = true) : isPassable entry = true := by
  simp only [admits, Bool.not_true, Bool.false_or, Bool.or_eq_true, Bool.and_eq_true] at admitted
  rw [isPassable, Bool.or_eq_true]
  exact admitted.imp_right And.left

/-- Without links, only folders can be gone on from. -/
theorem isPassable_iff {entry : Entry} : isPassable entry = true ↔ entry = .folder := by
  simp [isPassable, Entry.isFolder_iff]

/-- A name on a way to an entry, which is one to go on from if only those are asked for. -/
def IsOnWay (disk : Disk links) (foldersOnly : Bool) (name : Text) : Prop :=
  ∃ place entry, disk.entryAt place = some entry ∧ name ∈ place ∧
    (foldersOnly = true → isPassable entry = true)

theorem IsOnWay.isName (tree : disk.IsTree) {foldersOnly : Bool} {name : Text}
    (onWay : IsOnWay disk foldersOnly name) : Disk.IsName name := by
  obtain ⟨place, entry, standing, member, -⟩ := onWay
  exact tree.isName_of_mem standing member

theorem join_joinWith {more : List Text} (areNames : ∀ name ∈ names, Path.IsName name)
    (areMore : ∀ name ∈ more, Path.IsName name) (nonempty : names ≠ []) (further : more ≠ []) :
    Path.join (Text.joinWith "/" names) (Text.joinWith "/" more) =
      Text.joinWith "/" (names ++ more) := by
  have unfinished : Path.endsInSlash (Text.joinWith "/" names) = false := by
    have behind := Path.endsInSlash_append_joinWith [] areNames nonempty
    rwa [List.nil_append] at behind
  rcases Path.join_eq (Text.joinWith "/" names) (Path.isAbsolute_joinWith areMore) with
    ⟨-, none | closed⟩ | ⟨joined, -, -⟩
  · exact absurd none (Path.joinWith_ne_nil areNames nonempty)
  · rw [unfinished] at closed
    cases closed
  · rw [joined, Text.joinWith_append _ nonempty further, List.append_assoc]
    rfl

/-- Everything beneath a folder is written with names on ways to entries, none of them hidden. -/
theorem exists_names_of_mem_beneath (tree : disk.IsTree) {foldersOnly : Bool} {budget : Nat}
    {folder : Location} (member : part ∈ beneath disk here foldersOnly budget path folder) :
    ∃ names, names ≠ [] ∧ (∀ name ∈ names, isHidden name = false ∧ IsOnWay disk foldersOnly name) ∧
      part = Text.joinWith "/" names := by
  induction budget generalizing path folder part with
  | zero => cases member
  | succ budget ih =>
      rcases List.mem_append.mp member with direct | behind
      · obtain ⟨names, entry, nonempty, standing, admitted, visible, rfl⟩ :=
          (mem_below_iff tree).mp direct
        refine ⟨names, nonempty, fun name inNames => ⟨?_, _, entry, standing,
          List.mem_append_right _ inNames, ?_⟩, rfl⟩
        · simpa using List.any_eq_false.mp visible name inNames
        · rintro rfl
          exact isPassable_of_admits admitted
      · obtain ⟨link, isLink, inside⟩ := List.mem_flatMap.mp behind
        obtain ⟨names, entry, nonempty, standing, isTarget, visible, rfl⟩ :=
          (mem_linksBelow_iff tree).mp isLink
        split at inside
        · rename_i next listed
          obtain ⟨rest, inNext, rfl⟩ := List.mem_map.mp inside
          obtain ⟨more, further, known, rfl⟩ := ih inNext
          have own : ∀ name ∈ names, isHidden name = false ∧ IsOnWay disk foldersOnly name := by
            intro name inNames
            refine ⟨by simpa using List.any_eq_false.mp visible name inNames, _, entry, standing,
              List.mem_append_right _ inNames, fun _ => ?_⟩
            rw [isPassable, isTarget, Bool.or_true]
          refine ⟨names ++ more, by simp [nonempty], fun name inBoth => ?_, ?_⟩
          · exact (List.mem_append.mp inBoth).elim (own name) (known name)
          · exact join_joinWith (fun name inNames => ((own name inNames).2.isName tree).toIsName)
              (fun name inMore => ((known name inMore).2.isName tree).toIsName) nonempty further
        · cases inside

/-- The ways in which a level gives a part inside a folder. -/
inductive Gives (disk : Disk links) (here : Location) (foldersOnly : Bool) (level path : Text) :
    Text → Prop where
  | itself : level = everything → Gives disk here foldersOnly level path []
  | beneath {names : List Text} : level = everything → names ≠ [] →
      (∀ name ∈ names, isHidden name = false ∧ IsOnWay disk foldersOnly name) →
      Gives disk here foldersOnly level path (Text.joinWith "/" names)
  | fitting {folder : Location} {name : Text} {entry : Entry links} : level ≠ everything →
      folder? disk here path = .ok (some folder) →
      disk.entryAt (folder ++ [name]) = some entry →
      (foldersOnly = true → isPassable entry = true) →
      (isHidden level || !isHidden name) = true → Wildcard.fitsText level name = true →
      Gives disk here foldersOnly level path name
  | closing : level = "" → disk.hasFolder here path = true →
      Gives disk here foldersOnly level path level
  | literal : Wildcard.hasMagic level = false → disk.hasName here (Path.join path level) = true →
      Gives disk here foldersOnly level path level

theorem gives_of_mem_atLevel (tree : disk.IsTree) {foldersOnly : Bool}
    (given : atLevel disk here foldersOnly level path = .ok found) (member : part ∈ found) :
    Gives disk here foldersOnly level path part := by
  rw [atLevel] at given
  split at given
  · rename_i isEverything
    split at given
    · cases given
    · cases given
      rw [List.mem_singleton.mp member]
      exact .itself isEverything
    · rename_i folder listed
      cases given
      rcases List.mem_cons.mp member with rfl | inBeneath
      · exact .itself isEverything
      · obtain ⟨names, nonempty, known, rfl⟩ := exists_names_of_mem_beneath tree inBeneath
        exact .beneath isEverything nonempty known
  · rename_i notEverything
    split at given
    · split at given
      · cases given
      · cases given
        cases member
      · rename_i folder listed
        cases given
        obtain ⟨entry, standing, admitted, visible, fits⟩ := (mem_namesIn_iff tree).mp member
        refine .fitting notEverything listed standing ?_ visible fits
        rintro rfl
        exact isPassable_of_admits admitted
    · rename_i plain
      split at given <;> cases given <;> split at member
      · rename_i empty standing
        rw [List.mem_singleton.mp member]
        exact .closing empty standing
      · cases member
      · rename_i standing
        rw [List.mem_singleton.mp member]
        exact .literal (by simpa using plain) standing
      · cases member

/-- What one level gives inside a folder is a relative path with the names that it adds. -/
theorem adds_of_atLevel (tree : disk.IsTree) (isName : Path.IsName level) {foldersOnly : Bool}
    (given : atLevel disk here foldersOnly level path = .ok found) (member : part ∈ found) :
    IsPart part ∧ Adds level (Path.names part) := by
  cases gives_of_mem_atLevel tree given member with
  | itself isEverything => exact ⟨rfl, .everything isEverything fun _ none => nomatch none⟩
  | @beneath names isEverything nonempty known =>
      have own : ∀ name ∈ names, Path.IsName name := fun name inNames =>
        ((known name inNames).2.isName tree).toIsName
      refine ⟨isPart_joinWith own, .everything isEverything ?_⟩
      rw [Path.names_joinWith own]
      exact fun name inNames => ⟨(known name inNames).2.isName tree, (known name inNames).1⟩
  | fitting notEverything listed standing _ visible fits =>
      have own : Disk.IsName part := tree.isName_of_mem standing (by simp)
      refine ⟨isPart_of_isName own.toIsName, ?_⟩
      rw [own.toIsName.names_eq]
      exact .fitting notEverything fits visible own
  | closing empty => exact absurd empty isName.nonempty
  | literal plain => exact ⟨isPart_of_isName isName, isName.names_eq ▸ .literal plain⟩

/-! ## Several levels -/

theorem atLevelOfEach_cons_eq_ok_iff {foldersOnly : Bool} :
    atLevelOfEach disk here foldersOnly level (path :: paths) = .ok found ↔
      ∃ parts rest, atLevel disk here foldersOnly level path = .ok parts ∧
        atLevelOfEach disk here foldersOnly level paths = .ok rest ∧
        found = parts.map (Path.join path) ++ rest := by
  rw [atLevelOfEach]
  cases atLevel disk here foldersOnly level path with
  | error error => simp
  | ok parts =>
      cases atLevelOfEach disk here foldersOnly level paths with
      | error error => simp
      | ok rest => simp [eq_comm]

theorem follow_cons_eq_ok_iff :
    follow disk here paths (level :: levels) = .ok found ↔
      ∃ next, atLevelOfEach disk here (!levels.isEmpty) level paths = .ok next ∧
        follow disk here next levels = .ok found := by
  rw [follow]
  cases atLevelOfEach disk here (!levels.isEmpty) level paths <;> simp

theorem follow_singleton (disk : Disk links) (here : Location) (paths : List Text) (level : Text) :
    follow disk here paths [level] = atLevelOfEach disk here false level paths := by
  rw [follow]
  cases given : atLevelOfEach disk here (!([] : List Text).isEmpty) level paths <;> exact given.symm

theorem exists_of_mem_atLevelOfEach {foldersOnly : Bool}
    (given : atLevelOfEach disk here foldersOnly level paths = .ok found) (member : path ∈ found) :
    ∃ start ∈ paths, ∃ parts part, atLevel disk here foldersOnly level start = .ok parts ∧
      part ∈ parts ∧ path = Path.join start part := by
  induction paths generalizing found with
  | nil =>
      cases given
      cases member
  | cons first others ih =>
      obtain ⟨parts, rest, atFirst, further, rfl⟩ := atLevelOfEach_cons_eq_ok_iff.mp given
      rcases List.mem_append.mp member with here | there
      · obtain ⟨part, inParts, rfl⟩ := List.mem_map.mp here
        exact ⟨first, List.mem_cons_self, parts, part, atFirst, inParts, rfl⟩
      · obtain ⟨start, inOthers, own⟩ := ih further there
        exact ⟨start, List.mem_cons_of_mem first inOthers, own⟩

/-- A path that was found has the names of a path to start from and what the levels add. -/
theorem exists_descent_of_follow (tree : disk.IsTree)
    (areNames : ∀ level ∈ levels, Path.IsName level)
    (followed : follow disk here paths levels = .ok found) (member : path ∈ found) :
    ∃ start ∈ paths, ∃ names, Descent levels names ∧
      Path.names path = Path.names start ++ names ∧
      (Path.isAbsolute start = true → Path.isAbsolute path = true) := by
  induction levels generalizing paths with
  | nil =>
      cases followed
      exact ⟨path, member, [], .nil, (List.append_nil _).symm, id⟩
  | cons level deeper ih =>
      obtain ⟨next, atLevel, further⟩ := follow_cons_eq_ok_iff.mp followed
      obtain ⟨middle, inNext, rest, descent, names, absolute⟩ :=
        ih (fun other inDeeper => areNames other (List.mem_cons_of_mem level inDeeper)) further
      obtain ⟨start, inPaths, parts, part, given, inParts, rfl⟩ :=
        exists_of_mem_atLevelOfEach atLevel inNext
      obtain ⟨isPart, adds⟩ :=
        adds_of_atLevel tree (areNames level List.mem_cons_self) given inParts
      refine ⟨start, inPaths, _, .cons adds descent, ?_, fun fromRoot => ?_⟩
      · rw [names, Path.names_join isPart.relative, List.append_assoc]
      · exact absolute (Path.isAbsolute_join fromRoot)

theorem search_eq_follow (absolute : Path.isAbsolute pattern = true)
    (magic : Wildcard.hasMagic pattern = true) :
    search disk here pattern =
      follow disk here [(Glob.levels pattern).1] (Glob.levels pattern).2 := by
  have notEverything : Text.startsWith pattern everything = false := by
    obtain ⟨rest, rfl⟩ := Path.isAbsolute_iff.mp absolute
    rfl
  rw [search, if_pos magic]
  simp only [notEverything, Bool.false_and, Bool.false_eq_true, if_false]
  cases follow disk here [(Glob.levels pattern).1] (Glob.levels pattern).2 <;> rfl

/-- A search from the root finds paths with the names in front of its levels and what these add. -/
theorem exists_descent_of_search (tree : disk.IsTree) {goal : CleanPath}
    (absolute : goal.IsAbsolute) (proper : goal.IsProper)
    (magic : Wildcard.hasMagic goal.text = true)
    (searched : search disk here goal.text = .ok found) (member : path ∈ found) :
    ∃ front first others names, goal.names = front ++ first :: others ∧
      (∀ name ∈ front, Wildcard.hasMagic name = false) ∧
      (others ≠ [] → Wildcard.hasMagic first = true) ∧
      Descent (first :: others) names ∧ Path.names path = front ++ names ∧
      Path.isAbsolute path = true := by
  have nonempty : goal.names ≠ [] := by
    intro none
    rw [absolute.hasMagic_text, none] at magic
    cases magic
  obtain ⟨front, first, others, cut, plain, starts, cutLevels⟩ :=
    levels_text absolute proper nonempty
  rw [search_eq_follow absolute.isAbsolute_text magic, cutLevels] at searched
  have levelNames : ∀ level ∈ first :: others, Path.IsName level := fun level inLevels =>
    proper level (cut ▸ List.mem_append_right front inLevels)
  have startProper : (CleanPath.mk goal.anchor front).IsProper := fun name inFront =>
    proper name (cut ▸ List.mem_append_left _ inFront)
  have startAbsolute : (CleanPath.mk goal.anchor front).IsAbsolute := absolute
  obtain ⟨start, isStart, names, descent, read, fromRoot⟩ :=
    exists_descent_of_follow tree levelNames searched member
  obtain rfl := List.mem_singleton.mp isStart
  rw [startProper.names_text] at read
  exact ⟨front, first, others, names, cut, plain, starts, descent, read,
    fromRoot startAbsolute.isAbsolute_text⟩

/-- The files of a search are some of what it finds, each at most as often. -/
theorem exists_search_of_files {exclude : List Text}
    (given : files disk here pattern exclude = .ok found) :
    ∃ paths, search disk here pattern = .ok paths ∧ found.Subperm paths := by
  rw [files] at given
  split at given
  · cases given
  · rename_i paths searched
    cases given
    exact ⟨paths, searched, (List.mergeSort_perm _ _).subperm.trans List.filter_sublist.subperm⟩

/-! ## The names of a descent -/

/-- Every added name is one that the disk can keep, or a level without wildcards. -/
theorem Descent.isName_or_mem (descent : Descent levels names) {name : Text}
    (member : name ∈ names) : Disk.IsName name ∨ name ∈ levels := by
  induction descent with
  | nil => cases member
  | cons adds _ ih =>
      rcases List.mem_append.mp member with own | further
      · cases adds with
        | everything _ visible => exact .inl (visible name own).1
        | fitting _ _ _ isName =>
            obtain rfl := List.mem_singleton.mp own
            exact .inl isName
        | literal _ =>
            obtain rfl := List.mem_singleton.mp own
            exact .inr List.mem_cons_self
      · rcases ih further with isName | inLevels
        · exact .inl isName
        · exact .inr (List.mem_cons_of_mem _ inLevels)

/-- Every level except `**` adds one name. -/
theorem Descent.count_le_length (descent : Descent levels names) :
    (levels.filter fun level => level != everything).length ≤ names.length := by
  induction descent with
  | nil => exact Nat.le_refl 0
  | @cons level levels names rest adds _ ih =>
      rw [List.length_append]
      by_cases isEverything : level = everything
      · rw [List.filter_cons_of_neg (by simp [isEverything])]
        omega
      · rw [List.filter_cons_of_pos (by simpa using isEverything), List.length_cons]
        have one : names.length = 1 := by
          cases adds with
          | everything same => exact absurd same isEverything
          | fitting => rfl
          | literal => rfl
        omega

/--
A search below plain names finds paths that begin with them.  Every other name of such a
path is one that the disk can keep or one of the levels, and every level except `**` adds one.
-/
theorem exists_names_of_search_below (tree : disk.IsTree) {dir : CleanPath} {levels : List Text}
    (absolute : dir.IsAbsolute) (proper : (dir.below levels).IsProper)
    (plain : ∀ name ∈ dir.names, Wildcard.hasMagic name = false) (nonempty : levels ≠ [])
    (magic : Wildcard.hasMagic (dir.below levels).text = true)
    (searched : search disk here (dir.below levels).text = .ok found) (member : path ∈ found) :
    ∃ names, Path.names path = dir.names ++ names ∧ Path.isAbsolute path = true ∧
      (∀ name ∈ names, Disk.IsName name ∨ name ∈ levels) ∧
      (levels.filter fun level => level != everything).length ≤ names.length := by
  obtain ⟨front, first, others, names, cut, -, starts, descent, read, fromRoot⟩ :=
    exists_descent_of_search tree (absolute.below levels) proper magic searched member
  rw [CleanPath.names_below] at cut
  -- The first level with a wildcard comes behind the plain names.
  obtain ⟨more, rfl, rfl⟩ : ∃ more, front = dir.names ++ more ∧ levels = more ++ first :: others := by
    rcases List.append_eq_append_iff.mp cut with ⟨more, start, rest⟩ | ⟨more, start, rest⟩
    · exact ⟨more, start, rest⟩
    · cases more with
      | nil => exact ⟨[], by simpa using start.symm, by simpa using rest.symm⟩
      | cons name more =>
          obtain ⟨rfl, behind⟩ := List.cons.inj rest
          have further : others ≠ [] := by simp [behind, nonempty]
          have noMagic := plain first (by simp [start])
          rw [starts further] at noMagic
          cases noMagic
  refine ⟨more ++ names, by rw [read, List.append_assoc], fromRoot, fun name inNames => ?_, ?_⟩
  · rcases List.mem_append.mp inNames with inMore | added
    · exact .inr (List.mem_append_left _ inMore)
    · exact (descent.isName_or_mem added).imp_right (List.mem_append_right _)
  · have added := descent.count_le_length
    have kept := List.length_filter_le (fun level => level != everything) more
    rw [List.filter_append, List.length_append, List.length_append]
    omega

/-- A descent through several levels is one through the first and one through the others. -/
theorem Descent.exists_append {front back : List Text} (descent : Descent (front ++ back) names) :
    ∃ first second, names = first ++ second ∧ Descent front first ∧ Descent back second := by
  induction front generalizing names with
  | nil => exact ⟨[], names, rfl, .nil, descent⟩
  | cons level front ih =>
      cases descent with
      | @cons _ _ own rest adds further =>
          obtain ⟨first, second, rfl, inFront, inBack⟩ := ih further
          exact ⟨own ++ first, second, (List.append_assoc _ _ _).symm, .cons adds inFront, inBack⟩

/-- The last level of a search for an ending adds a name that ends so. -/
theorem Descent.exists_concat {ending : Text} (plain : Wildcard.hasMagic ending = false)
    (notEverything : .char '*' :: ending ≠ everything)
    (descent : Descent (levels ++ [.char '*' :: ending]) names) :
    ∃ front name, names = front ++ [name] ∧ Descent levels front ∧ Disk.IsName name ∧
      isHidden name = false ∧ Text.endsWith name ending = true := by
  obtain ⟨front, last, rfl, inFront, atLast⟩ := descent.exists_append
  cases atLast with
  | cons adds further =>
      cases further
      cases adds with
      | everything same => exact absurd same notEverything
      | @fitting name _ fits visible isName =>
          refine ⟨front, name, by simp, inFront, isName, ?_, (Wildcard.fitsText_run_iff plain).mp fits⟩
          have shown : isHidden (.char '*' :: ending) = false := rfl
          simpa [shown] using visible
      | literal noMagic => cases noMagic

/-- Below `**` every name is one that the disk can keep, and none is hidden. -/
theorem Descent.of_everything (descent : Descent [everything] names) :
    ∀ name ∈ names, Disk.IsName name ∧ isHidden name = false := by
  cases descent with
  | cons adds further =>
      cases further
      cases adds with
      | everything _ visible => simpa using visible
      | fitting notSame => exact absurd rfl notSame
      | literal noMagic => cases noMagic

end ApiDocs.Glob
