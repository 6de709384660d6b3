import ApiDocs.Proofs.Disk.Evolves

/-!
# Ways with links

`Leads` says step by step how names are followed on a disk with links, and which places are
passed.  Where names lead depends on these places alone, and on the way to an entry something
stands at each of them.  So what a path names stays the same as long as nothing that it passes
goes, and taking away leads it nowhere else.
-/

namespace ApiDocs.Disk

variable {links follows : Bool} {disk other first second both : Disk links} {budget : Nat}
variable {here location last : Location} {names : List Text} {path : Text} {entry : Entry links}
variable {trail : List Location}

/--
Names lead from a location to another one, past some places, and over at most so many links.
A link at the end is passed only if it is to be followed.
-/
inductive Leads (disk : Disk links) (follows : Bool) :
    Nat → Location → List Text → List Location → Location → Prop
  | here (budget : Nat) (location : Location) :
      Leads disk follows budget location [] [location] location
  | step {budget : Nat} {location next last : Location} {name : Text} {rest : List Text}
      {trail : List Location} (stepped : disk.step location name = .ok next)
      (stays : disk.linkAt? next = none ∨ follows = false ∧ rest = [])
      (further : Leads disk follows budget next rest trail last) :
      Leads disk follows budget location (name :: rest) (location :: trail) last
  | link {budget : Nat} {location next last : Location} {name target : Text} {rest : List Text}
      {trail : List Location} (stepped : disk.step location name = .ok next)
      (isLink : disk.linkAt? next = some target) (counts : follows = true ∨ rest ≠ [])
      (further : Leads disk follows budget (origin location target) (steps target ++ rest)
        trail last) :
      Leads disk follows (budget + 1) location (name :: rest) (location :: next :: trail) last

/-! ## Following names -/

theorem Leads.of_walk (noLink : disk.firstLink? follows location names = none)
    (walked : disk.walk location names = .ok last) :
    ∃ trail, Leads disk follows budget location names trail last := by
  induction names generalizing location with
  | nil =>
      cases walked
      exact ⟨_, .here _ _⟩
  | cons name rest ih =>
      rw [walk] at walked
      rw [firstLink?] at noLink
      cases stepped : disk.step location name with
      | error cause =>
          rw [stepped] at walked
          cases walked
      | ok next =>
          simp only [stepped] at walked noLink
          cases isLink : disk.linkAt? next with
          | none =>
              simp only [isLink] at noLink
              obtain ⟨trail, further⟩ := ih noLink walked
              exact ⟨_, .step stepped (.inl isLink) further⟩
          | some target =>
              simp only [isLink, ite_eq_right_iff, reduceCtorEq, imp_false, Bool.or_eq_true,
                Bool.not_eq_true', List.isEmpty_eq_false_iff, not_or, not_not] at noLink
              obtain ⟨stays, rfl⟩ := noLink
              have atEnd : follows = false := by simpa using stays
              cases walked
              exact ⟨_, .step stepped (.inr ⟨atEnd, rfl⟩) (.here _ _)⟩

theorem Leads.of_detour {detour : Detour}
    (found : disk.firstLink? follows location names = some detour)
    (further : Leads disk follows budget (origin detour.folder detour.target)
      (steps detour.target ++ detour.rest) trail last) :
    ∃ trail, Leads disk follows (budget + 1) location names trail last := by
  induction names generalizing location with
  | nil => cases found
  | cons name rest ih =>
      rw [firstLink?] at found
      cases stepped : disk.step location name with
      | error cause =>
          rw [stepped] at found
          cases found
      | ok next =>
          simp only [stepped] at found
          cases isLink : disk.linkAt? next with
          | none =>
              simp only [isLink] at found
              obtain ⟨trail, way⟩ := ih found
              exact ⟨_, .step stepped (.inl isLink) way⟩
          | some target =>
              simp only [isLink, Option.ite_none_right_eq_some, Bool.or_eq_true, Bool.not_eq_true',
                List.isEmpty_eq_false_iff, Option.some.injEq] at found
              obtain ⟨counts, rfl⟩ := found
              exact ⟨_, .link stepped isLink counts further⟩

theorem lead_cons_of_step {name : Text} {next : Location} {rest : List Text}
    (stepped : disk.step location name = .ok next)
    (stays : disk.linkAt? next = none ∨ follows = false ∧ rest = []) :
    disk.lead follows budget location (name :: rest) = disk.lead follows budget next rest := by
  have walked : disk.walk location (name :: rest) = disk.walk next rest := by
    rw [walk, stepped]
  have same : disk.firstLink? follows location (name :: rest) =
      disk.firstLink? follows next rest := by
    rw [firstLink?]
    simp only [stepped]
    cases isLink : disk.linkAt? next with
    | none => rfl
    | some target =>
        rw [isLink] at stays
        obtain ⟨rfl, rfl⟩ := stays.resolve_left (Option.some_ne_none target)
        rfl
  cases budget <;> rw [lead, lead, same, walked]

theorem lead_cons_of_link {name target : Text} {next : Location} {rest : List Text}
    (stepped : disk.step location name = .ok next) (isLink : disk.linkAt? next = some target)
    (counts : follows = true ∨ rest ≠ []) :
    disk.lead follows (budget + 1) location (name :: rest) =
      disk.lead follows budget (origin location target) (steps target ++ rest) := by
  have found : disk.firstLink? follows location (name :: rest) =
      some { folder := location, target, rest } := by
    rw [firstLink?]
    simp only [stepped, isLink]
    rw [if_pos]
    simpa using counts
  rw [lead, found]

theorem lead_eq_ok_iff :
    disk.lead follows budget location names = .ok last ↔
      ∃ trail, Leads disk follows budget location names trail last := by
  constructor
  · intro led
    induction budget generalizing location names with
    | zero =>
        rw [lead] at led
        cases found : disk.firstLink? follows location names with
        | none =>
            rw [found] at led
            exact Leads.of_walk found led
        | some detour =>
            rw [found] at led
            cases led
    | succ budget ih =>
        rw [lead] at led
        cases found : disk.firstLink? follows location names with
        | none =>
            rw [found] at led
            exact Leads.of_walk found led
        | some detour =>
            rw [found] at led
            obtain ⟨trail, further⟩ := ih led
            exact Leads.of_detour found further
  · rintro ⟨trail, leads⟩
    induction leads with
    | here budget location => cases budget <;> rfl
    | step stepped stays _ ih => rw [lead_cons_of_step stepped stays, ih]
    | link stepped isLink counts _ ih => rw [lead_cons_of_link stepped isLink counts, ih]

namespace Leads

theorem start_mem (leads : Leads disk follows budget location names trail last) :
    location ∈ trail := by
  cases leads <;> exact List.mem_cons_self

/-- The step from a location depends on what stands there. -/
theorem step_congr {name : Text} (same : other.entryAt location = disk.entryAt location) :
    other.step location name = disk.step location name := by
  rw [Disk.step, Disk.step, same]

theorem folder_of_step {next : Location} {name : Text}
    (stepped : disk.step location name = .ok next) : disk.entryAt location = some .folder := by
  rw [Disk.step] at stepped
  cases standing : disk.entryAt location with
  | none =>
      rw [standing] at stepped
      cases stepped
  | some entry =>
      rw [standing] at stepped
      cases isFolder : entry.isFolder with
      | true => rw [Entry.isFolder_iff.mp isFolder]
      | false => simp [isFolder] at stepped

theorem linkAt?_of_step {next : Location} {name : Text}
    (stepped : disk.step location name = .ok next) : disk.linkAt? location = none := by
  rw [linkAt?, folder_of_step stepped]
  rfl

/-- Names lead to the same place on a disk on which the same stands at the places passed. -/
theorem congr (leads : Leads disk follows budget location names trail last)
    (same : ∀ place ∈ trail, other.entryAt place = disk.entryAt place) :
    Leads other follows budget location names trail last := by
  induction leads with
  | here budget location => exact .here _ _
  | step stepped stays further ih =>
      obtain ⟨own, others⟩ := List.forall_mem_cons.mp same
      refine .step ((step_congr own).trans stepped) ?_ (ih others)
      rwa [linkAt?_congr (others _ further.start_mem)]
  | link stepped isLink counts further ih =>
      obtain ⟨own, others⟩ := List.forall_mem_cons.mp same
      obtain ⟨atLink, others⟩ := List.forall_mem_cons.mp others
      exact .link ((step_congr own).trans stepped) ((linkAt?_congr atLink).trans isLink) counts
        (ih others)

/-- On the way to an entry something stands at each place. -/
theorem exists_entry (leads : Leads disk follows budget location names trail last)
    (standing : disk.entryAt last = some entry) :
    ∀ place ∈ trail, ∃ entry, disk.entryAt place = some entry := by
  induction leads with
  | here budget location => simpa using ⟨entry, standing⟩
  | step stepped _ _ ih => exact List.forall_mem_cons.mpr ⟨⟨_, folder_of_step stepped⟩, ih standing⟩
  | link stepped isLink _ _ ih =>
      refine List.forall_mem_cons.mpr
        ⟨⟨_, folder_of_step stepped⟩, List.forall_mem_cons.mpr ⟨?_, ih standing⟩⟩
      rw [linkAt?, Option.bind_eq_some_iff] at isLink
      obtain ⟨entry, isEntry, -⟩ := isLink
      exact ⟨entry, isEntry⟩

/-- Names pass the same places on the way to the same place. -/
theorem unique {again : List Location} {end' : Location}
    (leads : Leads disk follows budget location names trail last)
    (also : Leads disk follows budget location names again end') : trail = again ∧ last = end' := by
  induction leads generalizing again end' with
  | here budget location =>
      cases also
      exact ⟨rfl, rfl⟩
  | step stepped stays _ ih =>
      cases also with
      | step stepped' _ further' =>
          rw [stepped] at stepped'
          cases stepped'
          obtain ⟨rfl, rfl⟩ := ih further'
          exact ⟨rfl, rfl⟩
      | link stepped' isLink' counts' _ =>
          rw [stepped] at stepped'
          cases stepped'
          rw [isLink'] at stays
          obtain ⟨rfl, rfl⟩ := stays.resolve_left nofun
          simp at counts'
  | link stepped isLink counts _ ih =>
      cases also with
      | step stepped' stays' _ =>
          rw [stepped] at stepped'
          cases stepped'
          rw [isLink] at stays'
          obtain ⟨rfl, rfl⟩ := stays'.resolve_left nofun
          simp at counts
      | link stepped' isLink' _ further' =>
          rw [stepped] at stepped'
          cases stepped'
          rw [isLink] at isLink'
          cases isLink'
          obtain ⟨rfl, rfl⟩ := ih further'
          exact ⟨rfl, rfl⟩

/-! ## Links at the end -/

/-- Where no link stands at the end, following one makes no difference. -/
theorem to_follow (leads : Leads disk false budget location names trail last)
    (noLink : disk.linkAt? last = none) : Leads disk true budget location names trail last := by
  induction leads with
  | here budget location => exact .here _ _
  | step stepped stays further ih =>
      rcases stays with none | ⟨-, rfl⟩
      · exact .step stepped (.inl none) (ih noLink)
      · cases further
        exact .step stepped (.inl noLink) (.here _ _)
  | link stepped isLink _ _ ih => exact .link stepped isLink (.inl rfl) (ih noLink)

/-- Where names lead if a link at the end is followed, their last name is somewhere as well. -/
theorem exists_name (leads : Leads disk true budget location names trail last) :
    ∃ trail last, Leads disk false budget location names trail last := by
  induction leads with
  | here budget location => exact ⟨_, _, .here _ _⟩
  | step stepped stays _ ih =>
      obtain ⟨trail, last, further⟩ := ih
      exact ⟨_, _, .step stepped (.inl (stays.resolve_right nofun)) further⟩
  | @link _ _ _ _ _ _ rest _ stepped isLink _ _ ih =>
      obtain ⟨trail, last, further⟩ := ih
      by_cases atEnd : rest = []
      · subst atEnd
        exact ⟨_, _, .step stepped (.inr ⟨rfl, rfl⟩) (.here _ _)⟩
      · exact ⟨_, _, .link stepped isLink (.inr atEnd) further⟩

/-- Names that are followed to the end lead to no link, if they do not begin at one. -/
theorem linkAt?_last (leads : Leads disk true budget location names trail last)
    (start : disk.linkAt? location = none) : disk.linkAt? last = none := by
  induction leads with
  | here budget location => exact start
  | step _ stays _ ih => exact ih (stays.resolve_right nofun)
  | @link _ location _ _ _ target _ _ _ _ _ _ ih =>
      refine ih ?_
      rw [origin]
      split
      · rw [linkAt?, entryAt_root]
        rfl
      · exact start

theorem linkAt?_last_of_steps (leads : Leads disk true budget location names trail last)
    (several : names ≠ []) : disk.linkAt? last = none := by
  cases names with
  | nil => exact absurd rfl several
  | cons name rest =>
      refine leads.linkAt?_last ?_
      cases leads with
      | step stepped _ _ => exact linkAt?_of_step stepped
      | link stepped _ _ _ => exact linkAt?_of_step stepped

/-! ## The way up to the last name -/

variable {front rest : List Text} {name : Text}

/-- The names in front of another one lead to the folder from which the way goes on. -/
theorem exists_front (leads : Leads disk follows budget location (front ++ name :: rest) trail last) :
    ∃ above folder left behind, Leads disk true budget location front above folder ∧
      Leads disk follows left folder (name :: rest) behind last := by
  generalize whole : front ++ name :: rest = names at leads
  induction leads generalizing front with
  | here budget location => simp at whole
  | @step budget location next last other others trail stepped stays further ih =>
      cases front with
      | nil =>
          obtain ⟨rfl, rfl⟩ := List.cons.inj whole
          exact ⟨_, _, _, _, .here _ _, .step stepped stays further⟩
      | cons first front =>
          obtain ⟨rfl, rfl⟩ := List.cons.inj whole
          obtain ⟨above, folder, left, behind, toFolder, onward⟩ := ih rfl
          have none : disk.linkAt? next = none := stays.resolve_right (by simp)
          exact ⟨_, _, _, _, .step stepped (.inl none) toFolder, onward⟩
  | @link budget location next last other target others trail stepped isLink counts further ih =>
      cases front with
      | nil =>
          obtain ⟨rfl, rfl⟩ := List.cons.inj whole
          exact ⟨_, _, _, _, .here _ _, .link stepped isLink counts further⟩
      | cons first front =>
          obtain ⟨rfl, rfl⟩ := List.cons.inj whole
          obtain ⟨above, folder, left, behind, toFolder, onward⟩ :=
            ih (List.append_assoc (steps target) front (name :: rest))
          exact ⟨_, _, _, _, .link stepped isLink (.inl rfl) toFolder, onward⟩

/-- From where names lead one may take one step more. -/
theorem concat {next : Location} (leads : Leads disk true budget location names trail last)
    (stepped : disk.step last name = .ok next)
    (stays : disk.linkAt? next = none ∨ follows = false) :
    ∃ trail, Leads disk follows budget location (names ++ [name]) trail next := by
  induction leads with
  | here budget location =>
      exact ⟨_, .step stepped (stays.imp_right (⟨·, rfl⟩)) (.here _ _)⟩
  | step goesOn goes _ ih =>
      obtain ⟨trail, further⟩ := ih stepped
      exact ⟨_, .step goesOn (.inl (goes.resolve_right nofun)) further⟩
  | link goesOn isLink _ _ ih =>
      obtain ⟨trail, further⟩ := ih stepped
      rw [List.append_assoc] at further
      exact ⟨_, .link goesOn isLink (.inr (by simp)) further⟩

/-- From a folder one may stay there. -/
theorem concat_here (leads : Leads disk true budget location names trail last)
    (folder : disk.entryAt last = some .folder) :
    ∃ trail, Leads disk follows budget location (names ++ [("." : Text)]) trail last := by
  have stepped : disk.step last "." = .ok last := by
    rw [Disk.step, folder]
    rfl
  exact leads.concat stepped (.inl (by rw [linkAt?, folder]; rfl))

/-- The step that stays in a folder leads nowhere else. -/
theorem eq_of_here (leads : Leads disk follows budget location [("." : Text)] trail last) :
    last = location ∧ disk.entryAt location = some .folder := by
  have goes {next : Location} (stepped : disk.step location "." = .ok next) :
      next = location ∧ disk.entryAt location = some .folder := by
    obtain ⟨canStep, rfl⟩ := (step_eq_ok_iff (List.cons_ne_nil _ _)).mp stepped
    exact ⟨advance_here _, canStep.fromFolder⟩
  cases leads with
  | step stepped _ further =>
      obtain ⟨rfl, folder⟩ := goes stepped
      cases further
      exact ⟨rfl, folder⟩
  | link stepped isLink _ _ =>
      obtain ⟨rfl, folder⟩ := goes stepped
      rw [linkAt?, folder] at isLink
      cases isLink

/-- A name of its own that stands for a folder leads down into it. -/
theorem eq_concat_of_folder (leads : Leads disk follows budget location (name :: rest) trail last)
    (folder : disk.entryAt (location ++ [name]) = some .folder) (nonempty : name ≠ [])
    (notHere : name ≠ ".") (notUp : name ≠ "..") (stays : rest = [] ∨ rest = [("." : Text)]) :
    last = location ++ [name] := by
  have goes {next : Location} (stepped : disk.step location name = .ok next) :
      next = location ++ [name] := by
    rw [((step_eq_ok_iff nonempty).mp stepped).2, advance, if_neg (by simp [nonempty, notHere]),
      if_neg notUp]
  have noLink : disk.linkAt? (location ++ [name]) = none := by rw [linkAt?, folder]; rfl
  cases leads with
  | step stepped _ further =>
      obtain rfl := goes stepped
      rcases stays with rfl | rfl
      · cases further
        rfl
      · exact further.eq_of_here.1
  | link stepped isLink _ _ =>
      rw [goes stepped, noLink] at isLink
      cases isLink

end Leads

/-! ## On smaller disks -/

/-- A way to an entry that is left was there before. -/
theorem Shrinks.leads (shrinks : Shrinks disk other)
    (leads : Leads other follows budget location names trail last)
    (standing : other.entryAt last = some entry) :
    Leads disk follows budget location names trail last := by
  refine leads.congr fun place passed => ?_
  obtain ⟨entry, isEntry⟩ := leads.exists_entry standing place passed
  rw [isEntry]
  exact shrinks.entryAt isEntry

/--
If names lead to an entry on two disks that have only what a third one has, they do so on a disk
that has what both have.
-/
theorem Leads.of_both {firstTrail secondTrail : List Location} {firstLast secondLast : Location}
    {firstEntry secondEntry : Entry links} (firstShrinks : Shrinks disk first)
    (secondShrinks : Shrinks disk second)
    (have_both : ∀ place entry, first.entryAt place = some entry →
      second.entryAt place = some entry → both.entryAt place = some entry)
    (onFirst : Leads first follows budget location names firstTrail firstLast)
    (firstStanding : first.entryAt firstLast = some firstEntry)
    (onSecond : Leads second follows budget location names secondTrail secondLast)
    (secondStanding : second.entryAt secondLast = some secondEntry) :
    Leads both follows budget location names firstTrail firstLast := by
  have onWhole := firstShrinks.leads onFirst firstStanding
  obtain ⟨rfl, rfl⟩ := onWhole.unique (secondShrinks.leads onSecond secondStanding)
  refine onWhole.congr fun place passed => ?_
  obtain ⟨entry, isFirst⟩ := onFirst.exists_entry firstStanding place passed
  obtain ⟨again, isSecond⟩ := onSecond.exists_entry secondStanding place passed
  have whole := firstShrinks.entryAt isFirst
  obtain rfl : entry = again := Option.some.inj (whole.symm.trans (secondShrinks.entryAt isSecond))
  rw [whole]
  exact have_both place entry isFirst isSecond

/-! ## What a path names -/

theorem locateName_eq_ok_iff :
    disk.locateName here path = .ok location ↔
      IsPath path ∧ ∃ trail,
        Leads disk false linkLimit (origin here path) (steps (Name.stored path)) trail location := by
  rw [locateName, locateBy_eq_ok_iff, lead_eq_ok_iff]

theorem locate_eq_ok_iff_leads :
    disk.locate here path = .ok location ↔
      IsPath path ∧ ∃ trail,
        Leads disk true linkLimit (origin here path) (steps (Name.stored path)) trail location := by
  rw [locate, locateBy_eq_ok_iff, lead_eq_ok_iff]

/-- A link at the end of a path is followed, so that a path leads to no link. -/
theorem linkAt?_of_locate (located : disk.locate here path = .ok location) :
    disk.linkAt? location = none := by
  obtain ⟨isPath, trail, leads⟩ := locate_eq_ok_iff_leads.mp located
  cases absolute : Path.isAbsolute path with
  | true =>
      refine leads.linkAt?_last ?_
      rw [origin, if_pos absolute, linkAt?, entryAt_root]
      rfl
  | false => exact leads.linkAt?_last_of_steps (steps_ne_nil isPath absolute)

/-- What a path names after taking away was there before. -/
theorem Shrinks.findName (shrinks : Shrinks disk other)
    (found : other.findName here path = .ok (location, entry)) :
    disk.findName here path = .ok (location, entry) := by
  obtain ⟨located, standing⟩ := findName_eq_ok_iff.mp found
  obtain ⟨isPath, trail, leads⟩ := locateName_eq_ok_iff.mp located
  exact findName_eq_ok_iff.mpr
    ⟨locateName_eq_ok_iff.mpr ⟨isPath, trail, shrinks.leads leads standing⟩,
      shrinks.entryAt standing⟩

/-- What a path leads to after taking away was there before. -/
theorem Shrinks.find (shrinks : Shrinks disk other)
    (found : other.find here path = .ok (location, entry)) :
    disk.find here path = .ok (location, entry) := by
  obtain ⟨located, standing⟩ := find_eq_ok_iff.mp found
  obtain ⟨isPath, trail, leads⟩ := locate_eq_ok_iff_leads.mp located
  exact find_eq_ok_iff.mpr
    ⟨locate_eq_ok_iff_leads.mpr ⟨isPath, trail, shrinks.leads leads standing⟩,
      shrinks.entryAt standing⟩

/-- What a path names on two smaller disks it names on a disk that has what both have. -/
theorem findName_of_both {location' : Location} {entry' : Entry links}
    (firstShrinks : Shrinks disk first) (secondShrinks : Shrinks disk second)
    (have_both : ∀ place entry, first.entryAt place = some entry →
      second.entryAt place = some entry → both.entryAt place = some entry)
    (onFirst : first.findName here path = .ok (location, entry))
    (onSecond : second.findName here path = .ok (location', entry')) :
    both.findName here path = .ok (location, entry) := by
  have whole := firstShrinks.findName onFirst
  obtain ⟨rfl, rfl⟩ : location = location' ∧ entry = entry' := by
    have same := whole.symm.trans (secondShrinks.findName onSecond)
    cases same
    exact ⟨rfl, rfl⟩
  obtain ⟨located, standing⟩ := findName_eq_ok_iff.mp onFirst
  obtain ⟨located', standing'⟩ := findName_eq_ok_iff.mp onSecond
  obtain ⟨isPath, trail, leads⟩ := locateName_eq_ok_iff.mp located
  obtain ⟨-, trail', leads'⟩ := locateName_eq_ok_iff.mp located'
  exact findName_eq_ok_iff.mpr
    ⟨locateName_eq_ok_iff.mpr ⟨isPath, trail,
      .of_both firstShrinks secondShrinks have_both leads standing leads' standing'⟩,
      have_both _ _ standing standing'⟩

/-- Where no link is named, a path leads to what it names. -/
theorem find_of_findName (found : disk.findName here path = .ok (location, entry))
    (noLink : entry.target? = none) : disk.find here path = .ok (location, entry) := by
  obtain ⟨located, standing⟩ := findName_eq_ok_iff.mp found
  obtain ⟨isPath, trail, leads⟩ := locateName_eq_ok_iff.mp located
  have none : disk.linkAt? location = none := by rw [linkAt?, standing]; exact noLink
  exact find_eq_ok_iff.mpr
    ⟨locate_eq_ok_iff_leads.mpr ⟨isPath, trail, leads.to_follow none⟩, standing⟩

/-- A path that leads to something names something. -/
theorem exists_findName_of_find (found : disk.find here path = .ok (location, entry)) :
    ∃ place standing, disk.findName here path = .ok (place, standing) := by
  obtain ⟨located, isEntry⟩ := find_eq_ok_iff.mp found
  obtain ⟨isPath, trail, leads⟩ := locate_eq_ok_iff_leads.mp located
  obtain ⟨trail', place, named⟩ := leads.exists_name
  have isLocated : disk.locateName here path = .ok place :=
    locateName_eq_ok_iff.mpr ⟨isPath, _, named⟩
  cases standing : disk.entryAt place with
  | some entry => exact ⟨place, entry, findName_eq_ok_iff.mpr ⟨isLocated, standing⟩⟩
  | none =>
      -- Where nothing stands no link is followed, so the path would lead to nothing.
      have none : disk.linkAt? place = none := by rw [linkAt?, standing]; rfl
      obtain ⟨-, rfl⟩ := leads.unique (named.to_follow none)
      rw [standing] at isEntry
      cases isEntry

end ApiDocs.Disk
