import ApiDocs.Proofs.Disk.Evolves

/-!
# Ways to what is there

On a tree there is a way to every folder whose path never goes up, since everything
above an entry is a folder.  A path that goes up needs more: each step up has to start
from a folder.  From a folder there is a way to every further name.
-/

namespace ApiDocs.Disk

variable {links : Bool} {disk after : Disk links} {here location last : Location}
variable {path rest : Text} {list : List Text}

/-! ## Ways to folders -/

/-- Every step up on the way of an absolute path starts from a folder. -/
def IsClear (disk : Disk links) (path : Text) : Prop :=
  ∀ front name rest, Path.names path = front ++ name :: rest → Name.stored name = ".." →
    disk.entryAt (Disk.follow [] front) = some .folder

/-- A way stays clear if names that the disk can keep follow. -/
theorem IsClear.append {longer : Text} {names : List Text} (clear : disk.IsClear path)
    (areNames : ∀ name ∈ names, IsName name)
    (read : Path.names longer = Path.names path ++ names) : disk.IsClear longer := by
  have notUp : ∀ name ∈ names, Name.stored name ≠ ".." := fun name member up =>
    (areNames name member).notUp ((areNames name member).shown.symm.trans up)
  intro front name rest cut up
  rw [read] at cut
  rcases List.append_eq_append_iff.mp cut with ⟨more, rfl, behind⟩ | ⟨more, front', behind⟩
  · exact absurd up (notUp name (by simp [behind]))
  · cases more with
    | nil =>
        have inNames : name ∈ names := by
          rw [← (show name :: rest = names from behind)]
          exact List.mem_cons_self
        exact absurd up (notUp name inNames)
    | cons first more =>
        obtain ⟨rfl, -⟩ := List.cons.inj behind
        exact clear front name more front' up

/-- Steps that stay do not matter on the way to a folder. -/
theorem walk_of_walk_moves (walked : disk.walk location (list.filter moves) = .ok last)
    (nonempty : ∀ name ∈ list, name ≠ []) (folder : disk.entryAt last = some .folder) :
    disk.walk location list = .ok last := by
  induction list generalizing location with
  | nil => exact walked
  | cons name rest ih =>
      obtain ⟨own, others⟩ := List.forall_mem_cons.mp nonempty
      cases moving : moves name with
      | true =>
          rw [List.filter_cons_of_pos moving, walk_cons_eq_ok_iff own] at walked
          obtain ⟨canStep, walked⟩ := walked
          exact (walk_cons_eq_ok_iff own).mpr ⟨canStep, ih walked others⟩
      | false =>
          rw [List.filter_cons_of_neg (by simp [moving])] at walked
          have isHere : name = "." := by
            simpa [moves, own] using moving
          have fromFolder : disk.entryAt location = some .folder := by
            cases moving : rest.filter moves with
            | nil =>
                rw [moving, walk] at walked
                cases walked
                exact folder
            | cons first further =>
                have kept : first ∈ rest.filter moves := moving ▸ List.mem_cons_self
                rw [moving, walk_cons_eq_ok_iff (others first (List.mem_filter.mp kept).1)] at walked
                exact walked.1.fromFolder
          rw [walk_cons_eq_ok_iff own, advance_of_not_moves moving]
          exact ⟨⟨fromFolder, .inl isHere⟩, ih walked others⟩

namespace IsTree

variable (tree : disk.IsTree)

include tree

/-- Before a folder there are only folders, if every step up starts from one. -/
theorem folder_of_follow (clear : ∀ front name rest, list = front ++ name :: rest →
      Name.stored name = ".." → disk.entryAt (Disk.follow location front) = some .folder)
    (folder : disk.entryAt (Disk.follow location list) = some .folder) (front rest : List Text)
    (cut : list = front ++ rest) : disk.entryAt (Disk.follow location front) = some .folder := by
  induction rest generalizing front with
  | nil =>
      rw [cut, List.append_nil] at folder
      exact folder
  | cons name rest ih =>
      have next := ih (front ++ [name]) (by simp [cut])
      rw [follow_append] at next
      change disk.entryAt (advance _ (Name.stored name)) = _ at next
      rw [advance] at next
      split at next
      · exact next
      · split at next
        · rename_i up
          exact clear front name rest cut up
        · exact tree.entryAt_parent next

/-- The names of a path can be followed if they lead from folder to folder. -/
theorem walk_of_folders (folders : ∀ front rest, list = front ++ rest →
      disk.entryAt (Disk.follow location front) = some .folder) :
    disk.walk location ((list.map Name.stored).filter moves) =
      .ok (Disk.follow location list) := by
  induction list generalizing location with
  | nil => rfl
  | cons name rest ih =>
      have start := folders [] (name :: rest) rfl
      have further : ∀ front behind, rest = front ++ behind →
          disk.entryAt (Disk.follow (advance location (Name.stored name)) front) =
            some .folder :=
        fun front behind cut => folders (name :: front) behind (by rw [cut]; rfl)
      rw [List.map_cons]
      cases moving : moves (Name.stored name) with
      | false =>
          rw [List.filter_cons_of_neg (by simp [moving])]
          rw [advance_of_not_moves moving] at further
          change _ = Except.ok (Disk.follow (advance location (Name.stored name)) rest)
          rw [advance_of_not_moves moving]
          exact ih further
      | true =>
          obtain ⟨nonempty, notHere⟩ : Name.stored name ≠ [] ∧ Name.stored name ≠ "." := by
            simpa [moves] using moving
          have short : Name.stored name = "." ∨ Name.stored name = ".." ∨
              Name.size (Name.stored name) ≤ nameLimit := by
            by_cases up : Name.stored name = ".."
            · exact .inr (.inl up)
            · have next := further [] rest rfl
              rw [follow_nil, advance, if_neg (by simp [nonempty, notHere]), if_neg up] at next
              exact .inr (.inr (tree.isName_of_mem next (by simp)).short)
          rw [List.filter_cons_of_pos moving, walk_cons_eq_ok_iff nonempty]
          exact ⟨⟨start, short⟩, ih further⟩

/-- There is a way to every folder whose path is clear. -/
theorem locate_of_folder (isPath : IsPath path) (absolute : Path.isAbsolute path = true)
    (clear : disk.IsClear path) (folder : disk.entryAt (target here path) = some .folder)
    (straight : disk.IsStraight here path := by simp) :
    disk.locate here path = .ok (target here path) := by
  have fromRoot : origin here path = [] := by rw [origin, if_pos absolute]
  rw [target, fromRoot] at folder ⊢
  refine (locate_eq_ok_iff straight).mpr ⟨isPath, ?_⟩
  apply walk_of_walk_moves _ (fun _ => ne_nil_of_mem_steps) folder
  rw [fromRoot, filter_moves_steps]
  exact tree.walk_of_folders (tree.folder_of_follow clear folder)

end IsTree

/-! ## One step further -/

variable {name : Text}

/-- A text without slashes at the end of a path does not end it in a slash. -/
theorem endsInSlash_append_of_whole (front : Text) (nonempty : name ≠ [])
    (whole : Symbol.char '/' ∉ name) : Path.endsInSlash (front ++ name) = false := by
  rw [Bool.eq_false_iff]
  intro closed
  obtain ⟨rest, ended⟩ := Path.endsInSlash_iff.mp closed
  have last := congrArg List.getLast? ended
  rw [List.getLast?_append_of_ne_nil _ nonempty, List.getLast?_concat] at last
  exact whole (List.mem_of_getLast? last)

/-- The last step behind a slash is the name there, as the disk shows it. -/
theorem steps_append_whole (whole : Symbol.char '/' ∉ name) (nonempty : Name.stored name ≠ [])
    (front : Text) : steps (Name.stored (front ++ .char '/' :: name)) =
      (Path.pieces (Name.stored front)).filter (fun piece => !piece.isEmpty) ++
        [Name.stored name] := by
  have shownWhole : Symbol.char '/' ∉ Name.stored name :=
    mt (Name.char_mem_stored_iff (by decide) name).mp whole
  have cut :
      Path.pieces (Name.stored front ++ .char '/' :: Name.stored name) =
        Path.pieces (Name.stored front) ++ [Name.stored name] := by
    rw [Path.pieces, List.splitOn_append_cons_self, List.splitOn_eq_singleton shownWhole]
    rfl
  have goesOn : Path.endsInSlash (Name.stored front ++ .char '/' :: Name.stored name) = false := by
    have ended := endsInSlash_append_of_whole (Name.stored front ++ [.char '/']) nonempty shownWhole
    rwa [List.append_assoc, List.singleton_append] at ended
  rw [Name.stored_append_cons (by decide), steps, cut, goesOn]
  simp [nonempty]

theorem steps_of_whole (whole : Symbol.char '/' ∉ name) (nonempty : Name.stored name ≠ []) :
    steps (Name.stored name) = [Name.stored name] := by
  have shownWhole : Symbol.char '/' ∉ Name.stored name :=
    mt (Name.char_mem_stored_iff (by decide) name).mp whole
  have goesOn := endsInSlash_append_of_whole [] nonempty shownWhole
  rw [List.nil_append] at goesOn
  rw [steps, Path.pieces, List.splitOn_eq_singleton shownWhole, goesOn]
  simp [nonempty]

/-- The last step of a joined path is the name that was joined, as the disk shows it. -/
theorem steps_join_of_whole (whole : Symbol.char '/' ∉ name) (nonempty : Name.stored name ≠ [])
    (path : Text) : steps (Name.stored (Path.join path name)) =
      (Path.pieces (Name.stored path)).filter (fun piece => !piece.isEmpty) ++
        [Name.stored name] := by
  have relative := Path.isAbsolute_of_not_mem whole
  rcases Path.join_eq path relative with ⟨joined, rfl | closed⟩ | ⟨joined, -, -⟩
  · rw [joined, List.nil_append, steps_of_whole whole nonempty, Name.stored_nil]
    rfl
  · obtain ⟨front, rfl⟩ := Path.endsInSlash_iff.mp closed
    have pieces :
        Path.pieces (Name.stored (front ++ [.char '/'])) =
          Path.pieces (Name.stored front) ++ [[]] := by
      rw [Name.stored_append_cons (by decide), Path.pieces, List.splitOn_append_cons_self]
      simp
      rfl
    rw [joined, List.append_assoc, List.singleton_append, steps_append_whole whole nonempty, pieces]
    simp
  · rw [joined, steps_append_whole whole nonempty]

theorem steps_join (isName : IsName name) (path : Text) :
    steps (Name.stored (Path.join path name)) =
      (Path.pieces (Name.stored path)).filter (fun piece => !piece.isEmpty) ++ [name] := by
  have nonempty : Name.stored name ≠ [] := isName.shown.symm ▸ isName.nonempty
  rw [steps_join_of_whole isName.whole nonempty, isName.shown]

/-- If a name that is joined to a path makes it straight, it was. -/
theorem IsStraight.of_join (straight : disk.IsStraight here (Path.join path name))
    (isName : Path.IsName name) : disk.IsStraight here path := by
  have relative := Path.isAbsolute_of_not_mem isName.whole
  intro place passed
  obtain ⟨front, isPrefix, rfl⟩ := mem_way_iff_names.mp passed
  refine straight _ (mem_way_iff_names.mpr ⟨front, ?_, ?_⟩)
  · rw [Path.names_join relative]
    exact isPrefix.trans (List.prefix_append _ _)
  · rw [origin, origin, Path.isAbsolute_join_of_relative relative]

/-- From a folder there is a way to every further name. -/
theorem locate_join (absolute : Path.isAbsolute path = true)
    (located : disk.locate here path = .ok location)
    (folder : disk.entryAt location = some .folder) (isName : IsName name)
    (isPath : IsPath (Path.join path name))
    (straight : disk.IsStraight here (Path.join path name) := by simp) :
    disk.locate here (Path.join path name) = .ok (location ++ [name]) := by
  obtain ⟨-, walked⟩ := (locate_eq_ok_iff (straight.of_join isName.toIsName)).mp located
  rw [origin, if_pos absolute, steps, walk_append] at walked
  refine (locate_eq_ok_iff straight).mpr ⟨isPath, ?_⟩
  rw [origin, if_pos (Path.isAbsolute_join absolute), steps_join isName, walk_append]
  cases way : disk.walk []
      ((Path.pieces (Name.stored path)).filter fun piece => !piece.isEmpty) with
  | error cause =>
      rw [way] at walked
      cases walked
  | ok middle =>
      rw [way] at walked
      -- A slash at the end asks for a folder and stays there.
      have same : middle = location := by
        change disk.walk middle _ = _ at walked
        split at walked
        · rw [walk_eq_ok_iff (by simp [Text.ofString, Text.ofChars])] at walked
          exact (walked.2.trans (advance_here middle)).symm
        · cases walked
          rfl
      rw [same]
      change disk.walk location [name] = _
      rw [walk_cons_eq_ok_iff isName.nonempty, advance,
        if_neg (by simp [isName.nonempty, isName.notHere]), if_neg isName.notUp]
      exact ⟨⟨folder, .inr (.inr isName.short)⟩, rfl⟩

/-! ## Names below a path -/

variable {names : List Text}

theorem target_of_isAbsolute (absolute : Path.isAbsolute path = true) :
    target here path = follow [] (Path.names path) := by
  rw [target, origin, if_pos absolute]

/-- A name that leads down, as the disk shows it. -/
structure GoesDown (name : Text) : Prop where
  nonempty : Name.stored name ≠ []
  notHere : Name.stored name ≠ "."
  notUp : Name.stored name ≠ ".."

theorem IsName.goesDown (isName : IsName name) : GoesDown name := by
  constructor <;> rw [isName.shown]
  · exact isName.nonempty
  · exact isName.notHere
  · exact isName.notUp

/-- A name of a path leads down, unless it is the name that climbs. -/
theorem goesDown_of_isName (isName : Path.IsName name) (notUp : name ≠ "..")
    (hasBytes : ∀ symbol ∈ name, Name.isStray symbol = false) : GoesDown name where
  nonempty := fun same =>
    isName.nonempty (Name.eq_of_stored_eq (fun _ none => nomatch none) hasBytes same)
  notHere := fun same => isName.notHere
    (Name.eq_of_stored_eq (Name.isAsciiText_ofString (by decide)) hasBytes same)
  notUp := fun same => notUp
    (Name.eq_of_stored_eq (Name.isAsciiText_ofString (by decide)) hasBytes same)

theorem follow_of_goesDown {location : Location} (down : ∀ name ∈ names, GoesDown name) :
    follow location names = location ++ names.map Name.stored := by
  induction names generalizing location with
  | nil => exact (List.append_nil location).symm
  | cons name rest ih =>
      have own := down name List.mem_cons_self
      have goes : advance location (Name.stored name) = location ++ [Name.stored name] := by
        rw [advance, if_neg (by simp [own.nonempty, own.notHere]), if_neg own.notUp]
      change follow (advance location (Name.stored name)) rest = _
      rw [goes, ih fun other member => down other (List.mem_cons_of_mem name member)]
      simp

theorem map_stored_of_isName (areNames : ∀ name ∈ names, IsName name) :
    names.map Name.stored = names :=
  (List.map_congr_left fun name member => (areNames name member).shown).trans (List.map_id names)

theorem follow_of_isName {location : Location} (areNames : ∀ name ∈ names, IsName name) :
    follow location names = location ++ names := by
  rw [follow_of_goesDown fun name member => (areNames name member).goesDown,
    map_stored_of_isName areNames]

/-- Names that the disk can keep lead down from where a path leads. -/
theorem target_join (absolute : Path.isAbsolute path = true)
    (areNames : ∀ name ∈ names, IsName name) :
    target here (Path.join path (Text.joinWith "/" names)) = target here path ++ names := by
  have own : ∀ name ∈ names, Path.IsName name := fun name member =>
    (areNames name member).toIsName
  rw [target_of_isAbsolute (Path.isAbsolute_join absolute), target_of_isAbsolute absolute,
    Path.names_join (Path.isAbsolute_joinWith own), Path.names_joinWith own, follow_append,
    follow_of_isName areNames]

theorem target_join_name (absolute : Path.isAbsolute path = true) (isName : IsName name) :
    target here (Path.join path name) = target here path ++ [name] := by
  have areNames : ∀ other ∈ [name], IsName other := by simpa using isName
  exact target_join absolute areNames

/-- A joined path begins with the first path. -/
theorem exists_join_eq_append (first : Text) {second : Text}
    (relative : Path.isAbsolute second = false) :
    ∃ between, Path.join first [] = first ++ between ∧
      Path.join first second = first ++ between ++ second := by
  have notAbsolute : ¬Path.isAbsolute second = true := by simp [relative]
  have emptyRelative : ¬Path.isAbsolute [] = true := by decide
  rw [Path.join, Path.join, if_neg notAbsolute, if_neg emptyRelative]
  by_cases closed : (first.isEmpty || Path.endsInSlash first) = true
  · rw [if_pos closed, if_pos closed]
    exact ⟨[], rfl, by simp⟩
  · rw [if_neg closed, if_neg closed]
    exact ⟨"/", by simp, rfl⟩

theorem isPath_of_join {second : Text} (absolute : Path.isAbsolute path = true)
    (relative : Path.isAbsolute second = false) (isPath : IsPath (Path.join path second)) :
    IsPath path := by
  obtain ⟨between, -, joined⟩ := exists_join_eq_append path relative
  rw [joined, List.append_assoc] at isPath
  exact isPath.of_append (Path.ne_nil_of_isAbsolute absolute)

/-- The folder in which a name is looked for can be found if the name can. -/
theorem isPath_join_of_join_name (absolute : Path.isAbsolute path = true)
    (areNames : ∀ other ∈ names, Path.IsName other) (isName : Path.IsName name)
    (isPath : IsPath (Path.join path (Text.joinWith "/" (names ++ [name])))) :
    IsPath (Path.join path (Text.joinWith "/" names)) := by
  have nonempty : path ≠ [] := Path.ne_nil_of_isAbsolute absolute
  have all : ∀ other ∈ names ++ [name], Path.IsName other := by
    intro other member
    rcases List.mem_append.mp member with front | last
    · exact areNames other front
    · rwa [List.mem_singleton.mp last]
  obtain ⟨between, without, joined⟩ := exists_join_eq_append path (Path.isAbsolute_joinWith all)
  rw [joined] at isPath
  rcases eq_or_ne names [] with rfl | several
  · change IsPath (Path.join path [])
    rw [without]
    exact isPath.of_append (List.append_ne_nil_of_left_ne_nil nonempty _)
  · obtain ⟨other, otherWithout, otherJoined⟩ :=
      exists_join_eq_append path (Path.isAbsolute_joinWith areNames)
    have same : other = between := List.append_cancel_left (otherWithout.symm.trans without)
    have cut : path ++ between ++ Text.joinWith "/" (names ++ [name]) =
        (path ++ between ++ Text.joinWith "/" names) ++ ("/" ++ name) := by
      rw [Text.joinWith_append _ several (List.cons_ne_nil _ _)]
      simp only [List.append_assoc, Text.joinWith]
    rw [otherJoined, same]
    rw [cut] at isPath
    exact isPath.of_append
      (List.append_ne_nil_of_left_ne_nil (List.append_ne_nil_of_left_ne_nil nonempty _) _)

/-- A path can be taken as well with its end as the disk shows it. -/
theorem isPath_join_stored (absolute : Path.isAbsolute path = true) {second : Text}
    (relative : Path.isAbsolute second = false)
    (storedRelative : Path.isAbsolute (Name.stored second) = false)
    (isPath : IsPath (Path.join path second)) : IsPath (Path.join path (Name.stored second)) := by
  obtain ⟨between, without, joined⟩ := exists_join_eq_append path relative
  obtain ⟨other, otherWithout, otherJoined⟩ := exists_join_eq_append path storedRelative
  obtain rfl : other = between := List.append_cancel_left (otherWithout.symm.trans without)
  have bytes : Name.bytes (Path.join path (Name.stored second)) =
      Name.bytes (Path.join path second) := by
    rw [joined, otherJoined, Name.bytes_append, Name.bytes_append, Name.stored, Name.bytes_ofBytes,
      Name.bytes_append, Name.bytes_append]
  obtain ⟨faultless, -, short⟩ := isPath
  rw [pathFault?_eq_none_iff] at faultless
  refine ⟨pathFault?_eq_none_iff.mpr ⟨fun symbol member => ?_, fun member => ?_⟩, ?_, ?_⟩
  · rw [otherJoined] at member
    rcases List.mem_append.mp member with front | shown
    · exact faultless.1 symbol (joined ▸ List.mem_append_left _ front)
    · exact Name.not_isStray_of_mem_ofBytes shown
  · refine faultless.2 ?_
    have zero : Name.IsAscii '\x00' := by decide
    rwa [Name.char_mem_iff_mem_bytes zero, bytes, ← Name.char_mem_iff_mem_bytes zero] at member
  · exact Path.ne_nil_of_isAbsolute (Path.isAbsolute_join absolute)
  · rwa [Name.size, bytes]

/-! ## After writing -/

theorem entryAt_put_self {entry : Entry links} (below : location ≠ []) :
    (disk.put location entry).entryAt location = some entry := by
  rw [entryAt_put, if_neg below, if_pos rfl]

theorem ne_nil_of_entryAt_ne_folder (noFolder : disk.entryAt location ≠ some .folder) :
    location ≠ [] := by
  rintro rfl
  exact noFolder (entryAt_root disk)

/-- A file that was written can be found and has the content that was written. -/
theorem read_of_writeInFolder {content : List UInt8}
    (written : disk.writeInFolder here path content = (.ok (), after))
    (straight : disk.IsStraight here path := by simp) : after.read here path = .ok content := by
  rw [writeInFolder, Disk.place] at written
  cases located : disk.locate here path with
  | error error =>
      rw [located] at written
      cases written
  | ok location =>
      simp only [located] at written
      split at written
      · cases written
      · rename_i isFolder
        have noFolder : disk.entryAt location ≠ some .folder := by
          intro folder
          simp [folder] at isFolder
        cases written
        obtain rfl := eq_target_of_locate located straight
        have staysStraight : (disk.put (target here path) (.file content)).IsStraight here path :=
          fun place passed => linkAt?_put rfl (straight place passed)
        refine (read_eq_ok_iff staysStraight).mpr ⟨?_, ?_⟩
        · rw [locate_eq_ok_iff staysStraight]
          obtain ⟨isPath, walked⟩ := (locate_eq_ok_iff straight).mp located
          exact ⟨isPath, walk_mono (fun _ => ne_nil_of_mem_steps)
            (fun _ _ _ _ => entryAt_put_of_folder noFolder) walked⟩
        · rw [file?_eq_some_iff, entryAt_put_self (ne_nil_of_entryAt_ne_folder noFolder)]

theorem read_of_write {path : CleanPath} {content : List UInt8} (proper : path.IsProper)
    (written : disk.write here path.text content = (.ok (), after))
    (straight : disk.IsStraight here path.text := by simp) :
    after.read here path.text = .ok content := by
  have folders : Evolves nowhere nowhere disk (disk.makeFolders here path.parent).2 :=
    evolves_makeFolders_parent proper straight
  rw [write, proper.ofText_text] at written
  split at written
  · cases written
  · rename_i outcome
    rw [outcome] at folders
    exact read_of_writeInFolder written (folders.straight straight)

end ApiDocs.Disk

namespace ApiDocs.CleanPath

variable {path : CleanPath} {names : List Text}

/-- The place of an absolute path. -/
def place (path : CleanPath) : Location :=
  Disk.follow [] path.names

theorem IsAbsolute.target_text (absolute : path.IsAbsolute) (proper : path.IsProper)
    (here : Location) : Disk.target here path.text = path.place := by
  rw [Disk.target_of_isAbsolute absolute.isAbsolute_text, proper.names_text, place]

theorem place_below_of_goesDown (down : ∀ name ∈ names, Disk.GoesDown name) :
    (path.below names).place = path.place ++ names.map Disk.Name.stored := by
  rw [place, names_below, Disk.follow_append, Disk.follow_of_goesDown down, place]

theorem place_below (areNames : ∀ name ∈ names, Disk.IsName name) :
    (path.below names).place = path.place ++ names := by
  rw [place_below_of_goesDown fun name member => (areNames name member).goesDown,
    Disk.map_stored_of_isName areNames]

/-- There is a way to everything that stands below a path that is clear. -/
theorem IsAbsolute.locate_below {links : Bool} {disk : Disk links} {here : Location}
    {entry : Entry links} (tree : disk.IsTree) (absolute : path.IsAbsolute)
    (proper : path.IsProper) (clear : disk.IsClear path.text)
    (nonempty : names ≠ []) (standing : disk.entryAt (path.place ++ names) = some entry)
    (isPath : Disk.IsPath (path.below names).text)
    (straight : disk.IsStraight here (path.below names).text := by simp) :
    disk.locate here (path.below names).text = .ok (path.place ++ names) := by
  obtain ⟨front, name, rfl⟩ := (List.eq_nil_or_concat names).resolve_left nonempty
  rw [List.concat_eq_append, ← List.append_assoc] at standing
  have isName : Disk.IsName name := tree.isName_of_mem standing (by simp)
  have frontNames : ∀ other ∈ front, Disk.IsName other := fun other member =>
    tree.isName_of_mem standing (by simp [member])
  have frontProper : (path.below front).IsProper :=
    proper.below fun other member => (frontNames other member).toIsName
  have frontAbsolute : (path.below front).IsAbsolute := absolute
  have fromRoot := frontAbsolute.isAbsolute_text
  have atFront : Disk.target here (path.below front).text = path.place ++ front := by
    rw [frontAbsolute.target_text frontProper, place_below frontNames]
  have written : (path.below (front.concat name)).text = Path.join (path.below front).text name := by
    rw [frontAbsolute.join_name frontProper isName.toIsName, below_below, List.concat_eq_append]
  have folder : disk.entryAt (path.place ++ front) = some .folder := tree.entryAt_parent standing
  have frontClear : disk.IsClear (path.below front).text := by
    refine clear.append frontNames ?_
    rw [frontProper.names_text, proper.names_text, names_below]
  rw [written] at isPath straight ⊢
  have frontPath :=
    Disk.isPath_of_join fromRoot (Path.isAbsolute_of_not_mem isName.whole) isPath
  have located := tree.locate_of_folder frontPath fromRoot frontClear (atFront ▸ folder)
    (straight.of_join isName.toIsName)
  rw [atFront] at located
  rw [Disk.locate_join fromRoot located folder isName isPath straight, List.concat_eq_append,
    List.append_assoc]

end ApiDocs.CleanPath
