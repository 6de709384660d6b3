import ApiDocs.Proofs.Site.Config

/-!
# What an update of the configuration changes

Bringing a configuration up to date changes the lines for the theme and the search, and pairs of
lines that are a link to a repository.  These lines are described here by what stands in them, and
not by the functions that look for them.

An update leaves the kind of every line as it is.  So the settings of the last update are the ones
that count, as long as the name of the project in an earlier one has no blank: in a link with such a
name, the next update would not find the link again.
-/

namespace ApiDocs.Site

variable {settings : Settings} {lines old new rest : List Text}
  {line label target first second after : Text} {index : Nat}

/-! ## Lines of a link -/

/-- The first line of a link to a repository. -/
def IsLabelLine (line : Text) : Prop :=
  ∃ project : Text, (∀ symbol ∈ project, Text.isBlank symbol = false) ∧
    line = "  '" ++ project ++ " on GitHub':"

/-- The second line of a link, and what stands behind its last quote. -/
def IsTargetLine (line after : Text) : Prop :=
  ∃ homepage : Text, Symbol.char '\x27' ∉ after ∧ line = "    - '" ++ homepage ++ "'" ++ after

theorem isRepositoryLabel_iff : isRepositoryLabel line = true ↔ IsLabelLine line := by
  rw [isRepositoryLabel]
  constructor
  · intro isLabel
    split at isLabel
    · cases isLabel
    · rename_i rest cut
      rw [Text.afterPrefix?_eq_some_iff] at cut
      refine ⟨rest.takeWhile fun c => !Text.isBlank c, fun symbol member => ?_, ?_⟩
      · simpa using List.mem_takeWhile_imp member
      · rw [cut, List.append_assoc, ← beq_iff_eq.mp isLabel, List.takeWhile_append_dropWhile]
  · rintro ⟨project, noBlank, rfl⟩
    have cut : Text.afterPrefix? "  '" ("  '" ++ project ++ " on GitHub':") =
        some (project ++ " on GitHub':") := by
      rw [Text.afterPrefix?_eq_some_iff, List.append_assoc]
    simp only [cut, beq_iff_eq]
    rw [List.dropWhile_append_of_pos fun symbol member => by simp [noBlank symbol member]]
    decide

theorem afterLink?_eq_some_iff : afterLink? target = some after ↔ IsTargetLine target after := by
  constructor
  · intro isTarget
    have noQuote := whole_of_afterLink? isTarget
    rw [afterLink?] at isTarget
    split at isTarget
    · cases isTarget
    · rename_i rest cut
      rw [Text.afterPrefix?_eq_some_iff] at cut
      simp only at isTarget
      split at isTarget
      · rename_i shorter
        cases isTarget
        have cutAtQuote := List.takeWhile_append_dropWhile (p := (· != Symbol.char '\x27'))
          (l := rest.reverse)
        cases behind : rest.reverse.dropWhile (· != Symbol.char '\x27') with
        | nil =>
            rw [behind, List.append_nil] at cutAtQuote
            rw [cutAtQuote, List.length_reverse] at shorter
            exact absurd shorter (Nat.lt_irrefl _)
        | cons quote front =>
            have stops := List.head?_dropWhile_not (· != Symbol.char '\x27') rest.reverse
            rw [behind] at stops
            obtain rfl : quote = .char '\x27' := by simpa using stops
            refine ⟨front.reverse, noQuote, ?_⟩
            have whole := congrArg List.reverse cutAtQuote
            rw [List.reverse_reverse, behind, List.reverse_append, List.reverse_cons] at whole
            rw [cut, List.append_assoc, List.append_assoc]
            exact congrArg _ (whole.symm.trans (List.append_assoc _ _ _))
      · cases isTarget
  · rintro ⟨homepage, noQuote, rfl⟩
    exact afterLink?_linkLines "" homepage noQuote

theorem IsTargetLine.unique {other : Text} (isTarget : IsTargetLine target after)
    (again : IsTargetLine target other) : after = other := by
  rw [← afterLink?_eq_some_iff] at isTarget again
  exact Option.some.inj (isTarget.symm.trans again)

theorem IsTargetLine.not_isLabelLine (isTarget : IsTargetLine line after) : ¬ IsLabelLine line := by
  obtain ⟨homepage, -, rfl⟩ := isTarget
  rw [← isRepositoryLabel_iff, isRepositoryLabel_of_not_startsWith rfl]
  exact Bool.false_ne_true

/-! ## Links in a list of lines -/

/-- The line at an index and the next one are a link, and what stands behind the link. -/
def LinkAt (lines : List Text) (index : Nat) (after : Text) : Prop :=
  ∃ label target, lines[index]? = some label ∧ IsLabelLine label ∧
    lines[index + 1]? = some target ∧ IsTargetLine target after

@[simp]
theorem linkAt_cons_succ : LinkAt (line :: rest) (index + 1) after ↔ LinkAt rest index after := by
  simp only [LinkAt, List.getElem?_cons_succ]

theorem linkAt_cons_cons_zero :
    LinkAt (label :: target :: rest) 0 after ↔ IsLabelLine label ∧ IsTargetLine target after := by
  simp [LinkAt]

/-- The lines with all links replaced, and nothing else. -/
structure ReplacesLinks (first second : Text) (old new : List Text) : Prop where
  length : new.length = old.length
  link : ∀ index after, LinkAt old index after →
    new[index]? = some first ∧ new[index + 1]? = some (second ++ after)
  others : ∀ index, (∀ after, ¬ LinkAt old index after) →
    (∀ before after, index = before + 1 → ¬ LinkAt old before after) → new[index]? = old[index]?

namespace ReplacesLinks

theorem cons (replaces : ReplacesLinks first second old new)
    (noLink : ∀ after, ¬ LinkAt (line :: old) 0 after) :
    ReplacesLinks first second (line :: old) (line :: new) := by
  refine ⟨by simp [replaces.length], fun index after link => ?_, fun index own before => ?_⟩
  · cases index with
    | zero => exact absurd link (noLink after)
    | succ index => simpa using replaces.link index after (linkAt_cons_succ.mp link)
  · cases index with
    | zero => rfl
    | succ index =>
        simp only [List.getElem?_cons_succ]
        refine replaces.others index (fun after => ?_) fun previous after same => ?_
        · simpa using own after
        · subst same
          simpa using before _ after rfl

theorem pair (replaces : ReplacesLinks first second old new) (isLabel : IsLabelLine label)
    (isTarget : IsTargetLine target after) :
    ReplacesLinks first second (label :: target :: old) (first :: (second ++ after) :: new) := by
  have link : LinkAt (label :: target :: old) 0 after := linkAt_cons_cons_zero.mpr ⟨isLabel, isTarget⟩
  refine ⟨by simp [replaces.length], fun index other linked => ?_, fun index own before => ?_⟩
  · match index with
    | 0 =>
        rw [isTarget.unique (linkAt_cons_cons_zero.mp linked).2]
        exact ⟨rfl, rfl⟩
    | 1 =>
        obtain ⟨_, _, atTarget, labelled, -⟩ := linkAt_cons_succ.mp linked
        cases atTarget
        exact absurd labelled isTarget.not_isLabelLine
    | index + 2 => simpa using replaces.link index other (by simpa using linked)
  · match index with
    | 0 => exact absurd link (own after)
    | 1 => exact absurd link (before 0 after rfl)
    | index + 2 =>
        simp only [List.getElem?_cons_succ]
        refine replaces.others index (fun after => ?_) fun previous after same => ?_
        · simpa using own after
        · subst same
          simpa using before _ after rfl

/-- A line that is in no link stays. -/
theorem other_line (replaces : ReplacesLinks first second old new)
    (standing : old[index]? = some line)
    (noLabel : ¬ IsLabelLine line) (noTarget : ∀ after, ¬ IsTargetLine line after) :
    new[index]? = some line := by
  rw [replaces.others index ?_ ?_, standing]
  · rintro after ⟨label, target, atIndex, isLabel, -, -⟩
    rw [standing, Option.some_inj] at atIndex
    exact noLabel (atIndex ▸ isLabel)
  · rintro before after rfl ⟨label, target, -, -, atIndex, isTarget⟩
    rw [standing, Option.some_inj] at atIndex
    exact noTarget after (atIndex ▸ isTarget)

end ReplacesLinks

theorem replacesLinks_replaceLinks (first second : Text) (lines : List Text) :
    ReplacesLinks first second lines (replaceLinks first second lines) := by
  fun_induction replaceLinks first second lines with
  | case1 label target rest after isTarget isLabel ih =>
      exact ih.pair (isRepositoryLabel_iff.mp isLabel) (afterLink?_eq_some_iff.mp isTarget)
  | case2 label target rest noPair ih =>
      refine ih.cons fun after link => ?_
      obtain ⟨isLabel, isTarget⟩ := linkAt_cons_cons_zero.mp link
      exact noPair after (isRepositoryLabel_iff.mpr isLabel) (afterLink?_eq_some_iff.mpr isTarget)
  | case3 label => exact ⟨rfl, by simp [LinkAt], fun _ _ _ => rfl⟩
  | case4 => exact ⟨rfl, by simp [LinkAt], fun _ _ _ => rfl⟩

/-! ## What an update changes -/

/-- A line for the theme or the search, or one of a link to a repository. -/
inductive IsUpdated (lines : List Text) : Nat → Prop
  | theme {index : Nat} {rest : Text} :
      lines[index]? = some ("remote_theme:" ++ rest) → IsUpdated lines index
  | search {index : Nat} {rest : Text} :
      lines[index]? = some ("search_enabled:" ++ rest) → IsUpdated lines index
  | label {index : Nat} {after : Text} : LinkAt lines index after → IsUpdated lines index
  | target {index : Nat} {after : Text} : LinkAt lines index after → IsUpdated lines (index + 1)

/-- The lines of a configuration brought up to date, and nothing else changed. -/
structure Updates (settings : Settings) (old new : List Text) : Prop where
  length : new.length = old.length
  theme : ∀ (index : Nat) (rest : Text), old[index]? = some ("remote_theme:" ++ rest) →
    new[index]? = some (themeLine settings)
  search : ∀ (index : Nat) (rest : Text), old[index]? = some ("search_enabled:" ++ rest) →
    new[index]? = some (searchLine settings)
  link : ∀ index after, LinkAt old index after →
    new[index]? = some (linkLines (repositoryLabel settings) settings.projectHomepage).1 ∧
      new[index + 1]? =
        some ((linkLines (repositoryLabel settings) settings.projectHomepage).2 ++ after)
  others : ∀ index, ¬ IsUpdated old index → new[index]? = old[index]?

theorem linkAt_map_updateLine :
    LinkAt (lines.map (updateLine settings)) index after ↔ LinkAt lines index after := by
  simp only [LinkAt, List.getElem?_map, Option.map_eq_some_iff, ← isRepositoryLabel_iff,
    ← afterLink?_eq_some_iff]
  constructor
  · rintro ⟨_, _, ⟨label, atIndex, rfl⟩, isLabel, ⟨target, next, rfl⟩, isTarget⟩
    exact ⟨label, target, atIndex, by simpa using isLabel, next, by simpa using isTarget⟩
  · rintro ⟨label, target, atIndex, isLabel, next, isTarget⟩
    exact ⟨_, _, ⟨label, atIndex, rfl⟩, by simpa using isLabel, ⟨target, next, rfl⟩,
      by simpa using isTarget⟩

/-- A line that does not begin with a blank is in no link. -/
theorem not_link_of_cons_of_ne {c : Symbol} (notBlank : c ≠ .char ' ') (rest : Text) :
    ¬ IsLabelLine (c :: rest) ∧ ∀ after, ¬ IsTargetLine (c :: rest) after := by
  constructor
  · rw [← isRepositoryLabel_iff,
      isRepositoryLabel_of_not_startsWith (startsWith_cons_of_ne notBlank _ _)]
    exact Bool.false_ne_true
  · intro after
    rw [← afterLink?_eq_some_iff, afterLink?_of_not_startsWith (startsWith_cons_of_ne notBlank _ _)]
    nofun

theorem updateLine_of_theme (settings : Settings) (rest : Text) :
    updateLine settings ("remote_theme:" ++ rest) = themeLine settings := by
  rw [updateLine, if_pos (Text.startsWith_iff.mpr ⟨rest, rfl⟩)]

theorem updateLine_of_search (settings : Settings) (rest : Text) :
    updateLine settings ("search_enabled:" ++ rest) = searchLine settings := by
  have notTheme : Text.startsWith ("search_enabled:" ++ rest) "remote_theme:" = false :=
    startsWith_cons_of_ne (by decide) _ _
  rw [updateLine, if_neg (by simp [notTheme]), if_pos (Text.startsWith_iff.mpr ⟨rest, rfl⟩)]

theorem updateLine_of_not_updated {index : Nat} (standing : lines[index]? = some line)
    (notUpdated : ¬ IsUpdated lines index) : updateLine settings line = line := by
  rw [updateLine, if_neg, if_neg]
  · rw [Text.startsWith_iff]
    rintro ⟨rest, rfl⟩
    exact notUpdated (.search standing)
  · rw [Text.startsWith_iff]
    rintro ⟨rest, rfl⟩
    exact notUpdated (.theme standing)

theorem updates_updateLines (settings : Settings) (lines : List Text) :
    Updates settings lines (updateLines settings lines) := by
  have replaces := replacesLinks_replaceLinks
    (linkLines (repositoryLabel settings) settings.projectHomepage).1
    (linkLines (repositoryLabel settings) settings.projectHomepage).2
    (lines.map (updateLine settings))
  rw [← updateLines] at replaces
  refine ⟨by rw [replaces.length, List.length_map], fun index rest standing => ?_,
    fun index rest standing => ?_,
    fun index after link => replaces.link index after (linkAt_map_updateLine.mpr link),
    fun index notUpdated => ?_⟩
  · have noLink := not_link_of_cons_of_ne (c := .char 'r') (by decide)
      ("emote_theme: " ++ settings.theme)
    refine replaces.other_line ?_ noLink.1 noLink.2
    rw [List.getElem?_map, standing, Option.map_some, updateLine_of_theme]
  · have noLink := not_link_of_cons_of_ne (c := .char 's') (by decide)
      ("earch_enabled: " ++ Text.ofString (if settings.enableSearch then "true" else "false"))
    refine replaces.other_line ?_ noLink.1 noLink.2
    rw [List.getElem?_map, standing, Option.map_some, updateLine_of_search]
  · have kept : (lines.map (updateLine settings))[index]? = lines[index]? := by
      rw [List.getElem?_map]
      cases standing : lines[index]? with
      | none => rfl
      | some line => rw [Option.map_some, updateLine_of_not_updated standing notUpdated]
    rw [← kept]
    refine replaces.others index (fun after link => ?_) fun before after same link => ?_
    · exact notUpdated (.label (linkAt_map_updateLine.mp link))
    · subst same
      exact notUpdated (.target (linkAt_map_updateLine.mp link))

/-- A link that was brought up to date is found again if the name of the project has no blank. -/
theorem isRepositoryLabel_linkLines
    (noBlank : ∀ symbol ∈ settings.projectName, Text.isBlank symbol = false) (homepage : Text) :
    isRepositoryLabel (linkLines (repositoryLabel settings) homepage).1 = true := by
  refine isRepositoryLabel_iff.mpr ⟨settings.projectName, noBlank, ?_⟩
  rw [linkLines, repositoryLabel]
  simp only [List.append_assoc]
  rfl

/--
The settings of the last update count, and an update keeps the rest.  If the settings stay on their
lines and the name of the project in the first ones has no blank, then

* to bring a configuration up to date with one settings after the other is to bring it up to date
  with the second ones;
* there are as many lines as before, the ones for the theme and the search and the links to a
  repository are those of the settings, and every other line is the same;
* a new configuration is up to date.
-/
theorem updateConfig_keeps_last_settings {first second : Settings} (kept : first.KeepsLines)
    (keptAgain : second.KeepsLines)
    (noBlank : ∀ symbol ∈ first.projectName, Text.isBlank symbol = false) (existing : Text) :
    updateConfig (updateConfig existing first) second = updateConfig existing second ∧
      Updates first (Text.fileLines existing) (Text.fileLines (updateConfig existing first)) ∧
      updateConfig (config first) first = config first := by
  refine ⟨?_, ?_, updateConfig_config kept⟩
  · rw [updateConfig_eq keptAgain, fileLines_updateConfig kept,
      updateLines_updateLines (.inl (isRepositoryLabel_linkLines noBlank _)),
      ← updateConfig_eq keptAgain]
  · rw [fileLines_updateConfig kept]
    exact updates_updateLines first (Text.fileLines existing)

/-- A quote in the homepage and a comment behind the link, under two settings. -/
theorem updateConfig_of_quoted_link :
    let first : Settings := { projectName := "a", projectHomepage := "it's" }
    let second : Settings := { projectName := "b", projectHomepage := "h" }
    updateConfig (updateConfig "  'x on GitHub':\n    - 'y' # z" first) second =
      "  'b on GitHub':\n    - 'h' # z" := by
  intro first second
  have kept : first.KeepsLines := by decide
  have keptAgain : second.KeepsLines := by decide
  have updated := (updateConfig_keeps_last_settings kept keptAgain (by decide)
    "  'x on GitHub':\n    - 'y' # z").1
  rw [updated]
  decide +kernel

end ApiDocs.Site
