import Mathlib.Data.List.TakeWhile
import ApiDocs.Proofs.Text.Lines
import ApiDocs.Proofs.Text.Search
import ApiDocs.Site.Config

/-!
# The configuration of the site stays put

Bringing a configuration up to date works on its lines: the lines for the theme and the
search are replaced one by one, and then the links to a repository two by two.  What was
replaced is replaced by the same again, so a configuration that was brought up to date, or
written from the settings, is up to date.
-/

namespace ApiDocs

/-- Whether the settings that the configuration of a site shows have no line breaks. -/
def Settings.HasNoBreak (settings : Settings) : Prop :=
  ∀ text ∈ [settings.theme, settings.projectName, settings.projectHomepage],
    Symbol.char '\n' ∉ text ∧ Symbol.char '\r' ∉ text

instance (settings : Settings) : Decidable settings.HasNoBreak :=
  inferInstanceAs (Decidable (∀ text ∈ [settings.theme, settings.projectName,
    settings.projectHomepage], Symbol.char '\n' ∉ text ∧ Symbol.char '\r' ∉ text))

/-- Whether the settings that the configuration of a site shows stay on their lines. -/
def Settings.KeepsLines (settings : Settings) : Prop :=
  ∀ text ∈ [settings.theme, settings.projectName, settings.projectHomepage],
    Symbol.char '\n' ∉ text

instance (settings : Settings) : Decidable settings.KeepsLines :=
  inferInstanceAs (Decidable (∀ text ∈ [settings.theme, settings.projectName,
    settings.projectHomepage], Symbol.char '\n' ∉ text))

theorem Settings.HasNoBreak.keepsLines {settings : Settings} (whole : settings.HasNoBreak) :
    settings.KeepsLines :=
  fun text member => (whole text member).1

namespace Site

variable {settings : Settings} {lines rest : List Text}
variable {line label target first second after : Text}

/-! ## Single lines -/

/-- A line brought up to date, if it is the one for the theme or for the search. -/
def updateLine (settings : Settings) (line : Text) : Text :=
  if Text.startsWith line "remote_theme:" then themeLine settings
  else if Text.startsWith line "search_enabled:" then searchLine settings
  else line

/-- A text that begins with one character does not begin with another one. -/
theorem startsWith_cons_of_ne {c d : Symbol} (differ : c ≠ d) (text pattern : Text) :
    Text.startsWith (c :: text) (d :: pattern) = false := by
  rw [Text.startsWith, Text.afterPrefix?, if_neg (Ne.symm differ)]
  rfl

theorem startsWith_themeLine (settings : Settings) :
    Text.startsWith (themeLine settings) "remote_theme:" = true :=
  Text.startsWith_iff.mpr ⟨" " ++ settings.theme, rfl⟩

theorem startsWith_searchLine (settings : Settings) :
    Text.startsWith (searchLine settings) "search_enabled:" = true :=
  Text.startsWith_iff.mpr ⟨" " ++ (if settings.enableSearch then "true" else "false"), rfl⟩

theorem startsWith_searchLine_theme (settings : Settings) :
    Text.startsWith (searchLine settings) "remote_theme:" = false :=
  startsWith_cons_of_ne (by decide) _ _

theorem startsWith_themeLine_search (settings : Settings) :
    Text.startsWith (themeLine settings) "search_enabled:" = false :=
  startsWith_cons_of_ne (by decide) _ _

/-- A line that begins with a blank is none of the two. -/
theorem updateLine_of_blank (rest : Text) :
    updateLine settings (.char ' ' :: rest) = .char ' ' :: rest := by
  have notTheme : Text.startsWith (.char ' ' :: rest) "remote_theme:" = false :=
    startsWith_cons_of_ne (by decide) _ _
  have notSearch : Text.startsWith (.char ' ' :: rest) "search_enabled:" = false :=
    startsWith_cons_of_ne (by decide) _ _
  rw [updateLine, if_neg (by simp [notTheme]), if_neg (by simp [notSearch])]

theorem updateLine_themeLine (other : Settings) :
    updateLine settings (themeLine other) = themeLine settings := by
  rw [updateLine, if_pos (startsWith_themeLine other)]

theorem updateLine_searchLine (other : Settings) :
    updateLine settings (searchLine other) = searchLine settings := by
  rw [updateLine, if_neg (by simp [startsWith_searchLine_theme]),
    if_pos (startsWith_searchLine other)]

@[simp]
theorem updateLine_updateLine (other : Settings) (line : Text) :
    updateLine settings (updateLine other line) = updateLine settings line := by
  by_cases isTheme : Text.startsWith line "remote_theme:" = true
  · rw [updateLine.eq_def other line, if_pos isTheme, updateLine_themeLine, updateLine, if_pos isTheme]
  · by_cases isSearch : Text.startsWith line "search_enabled:" = true
    · rw [updateLine.eq_def other line, if_neg isTheme, if_pos isSearch, updateLine_searchLine,
        updateLine, if_neg isTheme, if_pos isSearch]
    · rw [updateLine.eq_def other line, if_neg isTheme, if_neg isSearch]

/-- A line that is brought up to date does not begin with a blank, before and after that. -/
theorem updateLine_eq_or (settings : Settings) (line : Text) :
    updateLine settings line = line ∨ ∃ c rest newRest,
      c ≠ .char ' ' ∧ line = c :: rest ∧ updateLine settings line = c :: newRest := by
  by_cases isTheme : Text.startsWith line "remote_theme:" = true
  · obtain ⟨rest, rfl⟩ := Text.startsWith_iff.mp isTheme
    exact .inr ⟨.char 'r', _, _, by decide, rfl, by rw [updateLine, if_pos isTheme]; rfl⟩
  · by_cases isSearch : Text.startsWith line "search_enabled:" = true
    · obtain ⟨rest, rfl⟩ := Text.startsWith_iff.mp isSearch
      exact .inr ⟨.char 's', _, _, by decide, rfl, by
        rw [updateLine, if_neg isTheme, if_pos isSearch]; rfl⟩
    · exact .inl (by rw [updateLine, if_neg isTheme, if_neg isSearch])

/-! ## Links -/

theorem isRepositoryLabel_of_not_startsWith
    (differs : Text.startsWith line "  '" = false) : isRepositoryLabel line = false := by
  rw [isRepositoryLabel]
  cases given : Text.afterPrefix? "  '" line with
  | none => rfl
  | some rest =>
      rw [Text.startsWith, given] at differs
      cases differs

theorem afterLink?_of_not_startsWith
    (differs : Text.startsWith line "    - '" = false) : afterLink? line = none := by
  rw [afterLink?]
  cases given : Text.afterPrefix? "    - '" line with
  | none => rfl
  | some rest =>
      rw [Text.startsWith, given] at differs
      cases differs

@[simp]
theorem isRepositoryLabel_updateLine (settings : Settings) (line : Text) :
    isRepositoryLabel (updateLine settings line) = isRepositoryLabel line := by
  rcases updateLine_eq_or settings line with same | ⟨c, rest, newRest, notBlank, rfl, updated⟩
  · rw [same]
  · rw [updated, isRepositoryLabel_of_not_startsWith (startsWith_cons_of_ne notBlank _ _),
      isRepositoryLabel_of_not_startsWith (startsWith_cons_of_ne notBlank _ _)]

@[simp]
theorem afterLink?_updateLine (settings : Settings) (line : Text) :
    afterLink? (updateLine settings line) = afterLink? line := by
  rcases updateLine_eq_or settings line with same | ⟨c, rest, newRest, notBlank, rfl, updated⟩
  · rw [same]
  · rw [updated, afterLink?_of_not_startsWith (startsWith_cons_of_ne notBlank _ _),
      afterLink?_of_not_startsWith (startsWith_cons_of_ne notBlank _ _)]

/-- The second line of a link, with what follows it. -/
theorem afterLink?_linkLines (label homepage : Text) {after : Text}
    (whole : Symbol.char '\x27' ∉ after) :
    afterLink? ((linkLines label homepage).2 ++ after) = some after := by
  have cut : Text.afterPrefix? "    - '" ((linkLines label homepage).2 ++ after) =
      some (homepage ++ "'" ++ after) := by
    rw [Text.afterPrefix?_eq_some_iff, linkLines]
    simp only [List.append_assoc]
  have reversed : (homepage ++ "'" ++ after).reverse =
      after.reverse ++ .char '\x27' :: homepage.reverse := by
    simp [Text.ofString, Text.ofChars]
  have taken : (after.reverse ++ .char '\x27' :: homepage.reverse).takeWhile
      (· != Symbol.char '\x27') = after.reverse := by
    rw [List.takeWhile_append_of_pos]
    · simp
    · intro symbol member
      rw [bne_iff_ne]
      rintro rfl
      exact whole (List.mem_reverse.mp member)
  simp only [afterLink?, cut, reversed, taken]
  have shorter : after.reverse.length < (homepage ++ "'" ++ after).length := by
    have sameLength := congrArg List.length reversed
    rw [List.length_reverse] at sameLength
    rw [sameLength]
    simp
  rw [if_pos shorter, List.reverse_reverse]

theorem whole_of_afterLink? (given : afterLink? target = some after) :
    Symbol.char '\x27' ∉ after := by
  rw [afterLink?] at given
  split at given
  · cases given
  · simp only at given
    split at given
    · rename_i rest _ _
      cases given
      intro member
      have kept := List.mem_takeWhile_imp (List.mem_reverse.mp member)
      simp at kept
    · cases given

theorem mem_of_afterLink? (given : afterLink? target = some after) {symbol : Symbol}
    (member : symbol ∈ after) : symbol ∈ target := by
  rw [afterLink?] at given
  split at given
  · cases given
  · rename_i rest cut
    simp only at given
    split at given
    · cases given
      rw [Text.afterPrefix?_eq_some_iff.mp cut]
      refine List.mem_append_right _ (List.mem_reverse.mp ?_)
      exact (List.takeWhile_sublist _).subset (List.mem_reverse.mp member)
    · cases given

/-- The first line of a link is not a second one. -/
theorem afterLink?_of_label (label homepage : Text) :
    afterLink? (linkLines label homepage).1 = none := rfl

/-- A line that is no label stays in front of whatever links follow. -/
theorem replaceLinks_cons_of_not_label (notLabel : isRepositoryLabel label = false)
    (rest : List Text) :
    replaceLinks first second (label :: rest) = label :: replaceLinks first second rest := by
  cases rest with
  | nil => rfl
  | cons target rest => rw [replaceLinks, notLabel]

theorem replaceLinks_cons_of_not_link
    (noLink : isRepositoryLabel label = true → afterLink? target = none) (rest : List Text) :
    replaceLinks first second (label :: target :: rest) =
      label :: replaceLinks first second (target :: rest) := by
  cases isLabel : isRepositoryLabel label with
  | false => exact replaceLinks_cons_of_not_label isLabel _
  | true => rw [replaceLinks, noLink isLabel, isLabel]

theorem replaceLinks_pair (isLabel : isRepositoryLabel label = true)
    (isTarget : afterLink? target = some after) (rest : List Text) :
    replaceLinks first second (label :: target :: rest) =
      first :: (second ++ after) :: replaceLinks first second rest := by
  rw [replaceLinks, isLabel, isTarget]

/-- In front of the rest stands what stood there, or the first line of a link. -/
theorem exists_replaceLinks_cons (first second target : Text) (rest : List Text) :
    ∃ head tail, replaceLinks first second (target :: rest) = head :: tail ∧
      (head = target ∨ head = first) := by
  cases rest with
  | nil => exact ⟨target, [], rfl, .inl rfl⟩
  | cons next rest =>
      rw [replaceLinks]
      split
      · exact ⟨_, _, rfl, .inr rfl⟩
      · exact ⟨_, _, rfl, .inl rfl⟩

/--
Links that were replaced are replaced as if they had not been, if they still are links or if they
are replaced by the same again.
-/
theorem replaceLinks_replaceLinks {newFirst newSecond : Text}
    (again : isRepositoryLabel first = true ∨ newFirst = first ∧ newSecond = second)
    (notTarget : afterLink? first = none)
    (notLabel : ∀ after, isRepositoryLabel (second ++ after) = false)
    (readBack : ∀ after, Symbol.char '\x27' ∉ after → afterLink? (second ++ after) = some after)
    (lines : List Text) :
    replaceLinks newFirst newSecond (replaceLinks first second lines) =
      replaceLinks newFirst newSecond lines := by
  fun_induction replaceLinks first second lines with
  | case1 label target rest after isTarget isLabel ih =>
      rw [replaceLinks_pair isLabel isTarget]
      cases relabel : isRepositoryLabel first with
      | true =>
          rw [replaceLinks_pair relabel (readBack after (whole_of_afterLink? isTarget)), ih]
      | false =>
          obtain ⟨rfl, rfl⟩ := again.resolve_left (by simp [relabel])
          rw [replaceLinks_cons_of_not_label relabel, replaceLinks_cons_of_not_label (notLabel after),
            ih]
  | case2 label target rest noPair ih =>
      have noLink : isRepositoryLabel label = true → afterLink? target = none := fun isLabel =>
        Option.eq_none_iff_forall_ne_some.mpr fun after isTarget => noPair after isLabel isTarget
      obtain ⟨head, tail, same, isHead⟩ := exists_replaceLinks_cons first second target rest
      have headNoLink : isRepositoryLabel label = true → afterLink? head = none := by
        rcases isHead with rfl | rfl
        · exact noLink
        · exact fun _ => notTarget
      rw [same] at ih ⊢
      rw [replaceLinks_cons_of_not_link headNoLink, replaceLinks_cons_of_not_link noLink, ih]
  | case3 label => rfl
  | case4 => rfl

/-- The lines for the theme and the search may be brought up to date before or after the links. -/
theorem map_updateLine_replaceLinks (settings : Settings)
    (keepsFirst : updateLine settings first = first)
    (keepsSecond : ∀ after, updateLine settings (second ++ after) = second ++ after)
    (lines : List Text) :
    (replaceLinks first second lines).map (updateLine settings) =
      replaceLinks first second (lines.map (updateLine settings)) := by
  fun_induction replaceLinks first second lines with
  | case1 label target rest after isTarget isLabel ih =>
      simp only [List.map_cons, ih, keepsFirst, keepsSecond]
      rw [replaceLinks_pair (by simpa using isLabel) (by simpa using isTarget)]
  | case2 label target rest noPair ih =>
      have noLink : isRepositoryLabel label = true → afterLink? target = none := fun isLabel =>
        Option.eq_none_iff_forall_ne_some.mpr fun after isTarget => noPair after isLabel isTarget
      rw [List.map_cons, ih]
      simp only [List.map_cons]
      rw [replaceLinks_cons_of_not_link (by simpa using noLink)]
  | case3 label => rfl
  | case4 => rfl

/-- Every line of replaced links is a line from before or one of a link. -/
theorem mem_replaceLinks (member : line ∈ replaceLinks first second lines) :
    line ∈ lines ∨ line = first ∨ ∃ target ∈ lines, ∃ after, afterLink? target = some after ∧
      line = second ++ after := by
  fun_induction replaceLinks first second lines with
  | case1 label target rest after isTarget isLabel ih =>
      rcases List.mem_cons.mp member with rfl | others
      · exact .inr (.inl rfl)
      · rcases List.mem_cons.mp others with rfl | inRest
        · exact .inr (.inr ⟨target, by simp, after, isTarget, rfl⟩)
        · rcases ih inRest with given | isFirst | ⟨other, isOther, isSecond⟩
          · exact .inl (by simp [given])
          · exact .inr (.inl isFirst)
          · exact .inr (.inr ⟨other, by simp [isOther], isSecond⟩)
  | case2 label target rest noPair ih =>
      rcases List.mem_cons.mp member with rfl | inRest
      · exact .inl List.mem_cons_self
      · rcases ih inRest with given | isFirst | ⟨other, isOther, isSecond⟩
        · exact .inl (List.mem_cons_of_mem _ given)
        · exact .inr (.inl isFirst)
        · exact .inr (.inr ⟨other, List.mem_cons_of_mem _ isOther, isSecond⟩)
  | case3 label => exact .inl member
  | case4 => cases member

/-! ## The whole configuration -/

/-- The lines of a configuration brought up to date. -/
def updateLines (settings : Settings) (lines : List Text) : List Text :=
  replaceLinks (linkLines (repositoryLabel settings) settings.projectHomepage).1
    (linkLines (repositoryLabel settings) settings.projectHomepage).2
    (lines.map (updateLine settings))

theorem updateLines_ne_nil (nonempty : lines ≠ []) : updateLines settings lines ≠ [] := by
  obtain ⟨line, rest, rfl⟩ := List.exists_cons_of_ne_nil nonempty
  obtain ⟨head, tail, same, -⟩ := exists_replaceLinks_cons
    (linkLines (repositoryLabel settings) settings.projectHomepage).1
    (linkLines (repositoryLabel settings) settings.projectHomepage).2
    (updateLine settings line) (rest.map (updateLine settings))
  rw [updateLines, List.map_cons, same]
  exact List.cons_ne_nil head tail

/-- A symbol of a line that was brought up to date was in it or is in one that replaces it. -/
theorem mem_updateLines {symbol : Symbol} (member : line ∈ updateLines settings lines)
    (inLine : symbol ∈ line) :
    (∃ old ∈ lines, symbol ∈ old) ∨ symbol ∈ themeLine settings ∨ symbol ∈ searchLine settings ∨
      symbol ∈ (linkLines (repositoryLabel settings) settings.projectHomepage).1 ∨
      symbol ∈ (linkLines (repositoryLabel settings) settings.projectHomepage).2 := by
  have ofLine {line : Text} (member : line ∈ lines.map (updateLine settings))
      (inLine : symbol ∈ line) :
      (∃ old ∈ lines, symbol ∈ old) ∨ symbol ∈ themeLine settings ∨
        symbol ∈ searchLine settings := by
    obtain ⟨old, inLines, rfl⟩ := List.mem_map.mp member
    rw [updateLine] at inLine
    split_ifs at inLine
    · exact .inr (.inl inLine)
    · exact .inr (.inr inLine)
    · exact .inl ⟨old, inLines, inLine⟩
  rcases mem_replaceLinks member with given | rfl | ⟨target, isTarget, after, cut, rfl⟩
  · rcases ofLine given inLine with old | theme | search
    · exact .inl old
    · exact .inr (.inl theme)
    · exact .inr (.inr (.inl search))
  · exact .inr (.inr (.inr (.inl inLine)))
  · rcases List.mem_append.mp inLine with inSecond | inAfter
    · exact .inr (.inr (.inr (.inr inSecond)))
    · have inTarget : symbol ∈ target := mem_of_afterLink? cut inAfter
      rcases ofLine isTarget inTarget with old | theme | search
      · exact .inl old
      · exact .inr (.inl theme)
      · exact .inr (.inr (.inl search))

/--
Lines that were brought up to date with other settings are brought up to date as if they had not
been, if the link to a repository is still found.
-/
theorem updateLines_updateLines {other : Settings}
    (again : isRepositoryLabel (linkLines (repositoryLabel other) other.projectHomepage).1 = true ∨
      settings = other)
    (lines : List Text) :
    updateLines settings (updateLines other lines) = updateLines settings lines := by
  have stays : (updateLines other lines).map (updateLine settings) =
      replaceLinks (linkLines (repositoryLabel other) other.projectHomepage).1
        (linkLines (repositoryLabel other) other.projectHomepage).2
        ((lines.map (updateLine other)).map (updateLine settings)) :=
    map_updateLine_replaceLinks settings (updateLine_of_blank _) (fun after => updateLine_of_blank _) _
  have updated : (lines.map (updateLine other)).map (updateLine settings) =
      lines.map (updateLine settings) := by
    rw [List.map_map]
    exact List.map_congr_left fun line _ => updateLine_updateLine other line
  rw [updateLines.eq_def settings (updateLines other lines), stays, updated]
  refine replaceLinks_replaceLinks (again.imp_right ?_) (afterLink?_of_label _ _)
    (fun after => isRepositoryLabel_of_not_startsWith rfl)
    (fun after whole => afterLink?_linkLines _ _ whole) _
  rintro rfl
  exact ⟨rfl, rfl⟩

/-- A symbol that ends lines is in no line that shows settings without it. -/
theorem not_mem_of_shows_settings {symbol : Symbol}
    (isBreak : symbol = .char '\n' ∨ symbol = .char '\r')
    (own : ∀ text ∈ [settings.theme, settings.projectName, settings.projectHomepage],
      symbol ∉ text) :
    ∀ label ∈ [repositoryLabel settings, "Homepage"], ∀ line ∈ [themeLine settings,
      searchLine settings, (linkLines label settings.projectHomepage).1,
      (linkLines label settings.projectHomepage).2], symbol ∉ line := by
  have fixed : ∀ text ∈ (["remote_theme: ", "search_enabled: ", "true", "false", "  '", "':",
      "    - '", "'", " on GitHub", "Homepage"] : List Text), symbol ∉ text := by
    rcases isBreak with rfl | rfl <;> decide
  have chosen : symbol ∉ Text.ofString (if settings.enableSearch then "true" else "false") := by
    split
    · exact fixed "true" (by simp)
    · exact fixed "false" (by simp)
  intro label isLabel
  have inLabel : symbol ∉ label := by
    simp only [List.mem_cons, List.not_mem_nil, or_false] at isLabel
    rcases isLabel with rfl | rfl
    · exact List.not_mem_append (own _ (by simp)) (fixed " on GitHub" (by simp))
    · exact fixed "Homepage" (by simp)
  simp only [List.forall_mem_cons, themeLine, searchLine, linkLines, List.mem_append, not_or,
    List.not_mem_nil, false_imp_iff, forall_const, and_true]
  exact ⟨⟨fixed "remote_theme: " (by simp), own _ (by simp)⟩,
    ⟨fixed "search_enabled: " (by simp), chosen⟩,
    ⟨⟨fixed "  '" (by simp), inLabel⟩, fixed "':" (by simp)⟩,
    ⟨fixed "    - '" (by simp), own _ (by simp)⟩, fixed "'" (by simp)⟩

section

variable (whole : settings.KeepsLines)

include whole

theorem updateConfig_eq (existing : Text) :
    updateConfig existing settings =
      Text.unlines (updateLines settings (Text.fileLines existing)) := by
  have lines := not_mem_of_shows_settings (.inl rfl) whole (repositoryLabel settings) (by simp)
  have replaced (beginning replacement : Text) (given : List Text) (nonempty : given ≠ [])
      (own : Symbol.char '\n' ∉ replacement) (each : ∀ line ∈ given, Symbol.char '\n' ∉ line) :
      Text.fileLines (replaceLines beginning replacement (Text.unlines given)) =
          given.map (fun line => if Text.startsWith line beginning then replacement else line) ∧
        ∀ line ∈ given.map fun line =>
          if Text.startsWith line beginning then replacement else line, Symbol.char '\n' ∉ line := by
    have others : ∀ line ∈ given.map fun line =>
        if Text.startsWith line beginning then replacement else line, Symbol.char '\n' ∉ line := by
      intro line member
      obtain ⟨old, inGiven, rfl⟩ := List.mem_map.mp member
      split
      · exact own
      · exact each old inGiven
    rw [replaceLines, Text.fileLines_unlines nonempty each,
      Text.fileLines_unlines (by simpa using nonempty) others]
    exact ⟨rfl, others⟩
  obtain ⟨themed, themedWhole⟩ := replaced "remote_theme:" (themeLine settings)
    (Text.fileLines existing) (Text.fileLines_ne_nil existing) (lines _ (by simp))
    fun line => Text.feed_not_mem_of_mem_fileLines
  rw [Text.unlines_fileLines] at themed
  obtain ⟨searched, -⟩ := replaced "search_enabled:" (searchLine settings) _
    (by simpa using Text.fileLines_ne_nil existing) (lines _ (by simp)) themedWhole
  rw [← themed, Text.unlines_fileLines, themed, List.map_map] at searched
  have composed : (Text.fileLines existing).map ((fun line =>
      if Text.startsWith line "search_enabled:" then searchLine settings else line) ∘ fun line =>
        if Text.startsWith line "remote_theme:" then themeLine settings else line) =
      (Text.fileLines existing).map (updateLine settings) := by
    refine List.map_congr_left fun line _ => ?_
    rw [Function.comp_apply, updateLine]
    split
    · rw [if_neg (by simp [startsWith_themeLine_search])]
    · rfl
  rw [updateConfig, searched, composed]
  rfl

/-- The lines of a configuration that was brought up to date. -/
theorem fileLines_updateConfig (existing : Text) :
    Text.fileLines (updateConfig existing settings) =
      updateLines settings (Text.fileLines existing) := by
  have lines := not_mem_of_shows_settings (.inl rfl) whole (repositoryLabel settings) (by simp)
  rw [updateConfig_eq whole, Text.fileLines_unlines (updateLines_ne_nil (Text.fileLines_ne_nil _))]
  intro line member feed
  rcases mem_updateLines member feed with ⟨old, isLine, inOld⟩ | inTheme | inSearch | inLabel | inLink
  · exact Text.feed_not_mem_of_mem_fileLines isLine inOld
  · exact lines _ (by simp) inTheme
  · exact lines _ (by simp) inSearch
  · exact lines _ (by simp) inLabel
  · exact lines _ (by simp) inLink

/-- A configuration that was brought up to date is up to date. -/
theorem updateConfig_updateConfig (existing : Text) :
    updateConfig (updateConfig existing settings) settings = updateConfig existing settings := by
  rw [updateConfig_eq whole, fileLines_updateConfig whole, updateLines_updateLines (.inr rfl),
    ← updateConfig_eq whole]

end

theorem return_not_mem_updateConfig (whole : settings.HasNoBreak) {existing : Text}
    (unified : Symbol.char '\r' ∉ existing) :
    Symbol.char '\r' ∉ updateConfig existing settings := by
  have lines := not_mem_of_shows_settings (.inr rfl) (fun text member => (whole text member).2)
    (repositoryLabel settings) (by simp)
  rw [updateConfig_eq whole.keepsLines]
  refine Text.not_mem_joinWith (by decide) fun line member inLine => ?_
  rcases mem_updateLines member inLine with ⟨old, isLine, inOld⟩ | theme | search | label | link
  · refine unified ?_
    rw [← Text.unlines_fileLines existing]
    exact Text.mem_joinWith_of_mem isLine inOld
  · exact lines _ (by simp) theme
  · exact lines _ (by simp) search
  · exact lines _ (by simp) label
  · exact lines _ (by simp) link

/-! ## A new configuration -/

/-- The label of the link in a new configuration. -/
def homepageLabel (settings : Settings) : Text :=
  if homepageIsRepository settings then repositoryLabel settings else "Homepage"

/-- The lines of a new configuration. -/
def configLines (settings : Settings) : List Text :=
  let link := linkLines (homepageLabel settings) settings.projectHomepage
  [themeLine settings, "", "# Enable or disable the site search", searchLine settings, "",
    "# Aux links for the upper right navigation", "aux_links:", link.1, link.2, ""]

theorem config_eq (settings : Settings) :
    config settings = Text.unlines (configLines settings) := by
  have parts : config settings =
      themeLine settings ++ ("\n" ++ ("\n" ++ ("# Enable or disable the site search" ++ ("\n" ++
        (searchLine settings ++ ("\n" ++ ("\n" ++
          ("# Aux links for the upper right navigation" ++ ("\n" ++ ("aux_links:" ++ ("\n" ++
            ((linkLines (homepageLabel settings) settings.projectHomepage).1 ++ ("\n" ++
              ((linkLines (homepageLabel settings) settings.projectHomepage).2 ++
                ("\n" : Text))))))))))))))) := by
    rw [config, link]
    simp only [List.append_assoc]
    rfl
  rw [parts]
  simp [configLines, Text.unlines, Text.joinWith, Text.ofString, Text.ofChars]

theorem not_mem_of_mem_configLines {symbol : Symbol}
    (isBreak : symbol = .char '\n' ∨ symbol = .char '\r')
    (own : ∀ text ∈ [settings.theme, settings.projectName, settings.projectHomepage],
      symbol ∉ text) (member : line ∈ configLines settings) : symbol ∉ line := by
  have isLabel : homepageLabel settings ∈ [repositoryLabel settings, "Homepage"] := by
    rw [homepageLabel]
    split <;> simp
  have lines := not_mem_of_shows_settings isBreak own (homepageLabel settings) isLabel
  have fixed : ∀ text ∈ (["", "# Enable or disable the site search",
      "# Aux links for the upper right navigation", "aux_links:"] : List Text),
      symbol ∉ text := by
    rcases isBreak with rfl | rfl <;> decide
  simp only [configLines, List.mem_cons, List.not_mem_nil, or_false] at member
  rcases member with rfl | rfl | rfl | rfl | rfl | rfl | rfl | rfl | rfl | rfl
  · exact lines _ (by simp)
  · exact fixed _ (by simp)
  · exact fixed _ (by simp)
  · exact lines _ (by simp)
  · exact fixed _ (by simp)
  · exact fixed _ (by simp)
  · exact fixed _ (by simp)
  · exact lines _ (by simp)
  · exact lines _ (by simp)
  · exact fixed _ (by simp)

/-- The lines of a new configuration are up to date. -/
theorem updateLines_configLines :
    updateLines settings (configLines settings) = configLines settings := by
  have stays : (configLines settings).map (updateLine settings) = configLines settings := by
    simp only [configLines, List.map_cons, List.map_nil, updateLine_themeLine, updateLine_searchLine]
    rfl
  have theme : isRepositoryLabel (themeLine settings) = false :=
    isRepositoryLabel_of_not_startsWith (startsWith_cons_of_ne (by decide) _ _)
  have search : isRepositoryLabel (searchLine settings) = false :=
    isRepositoryLabel_of_not_startsWith (startsWith_cons_of_ne (by decide) _ _)
  have target (label : Text) :
      isRepositoryLabel (linkLines label settings.projectHomepage).2 = false :=
    isRepositoryLabel_of_not_startsWith rfl
  have fixed : ∀ text ∈ (["", "# Enable or disable the site search",
      "# Aux links for the upper right navigation", "aux_links:"] : List Text),
      isRepositoryLabel text = false := by
    decide
  have readBack := afterLink?_linkLines (repositoryLabel settings) settings.projectHomepage
    List.not_mem_nil
  rw [List.append_nil] at readBack
  rw [updateLines, stays, configLines]
  rw [replaceLinks_cons_of_not_label theme, replaceLinks_cons_of_not_label (fixed _ (by simp)),
    replaceLinks_cons_of_not_label (fixed _ (by simp)), replaceLinks_cons_of_not_label search,
    replaceLinks_cons_of_not_label (fixed _ (by simp)),
    replaceLinks_cons_of_not_label (fixed _ (by simp)),
    replaceLinks_cons_of_not_label (fixed _ (by simp))]
  cases isLabel : isRepositoryLabel (linkLines (homepageLabel settings) settings.projectHomepage).1 with
  | false =>
      rw [replaceLinks_cons_of_not_label isLabel, replaceLinks_cons_of_not_label (target _)]
      rfl
  | true =>
      have isRepository : homepageLabel settings = repositoryLabel settings := by
        rw [homepageLabel] at isLabel ⊢
        split
        · rfl
        · rename_i other
          rw [if_neg other] at isLabel
          have never : isRepositoryLabel (linkLines "Homepage" settings.projectHomepage).1 = false :=
            rfl
          rw [never] at isLabel
          cases isLabel
      rw [isRepository] at isLabel ⊢
      rw [replaceLinks_pair isLabel readBack, List.append_nil]
      rfl

/-- A new configuration is up to date. -/
theorem updateConfig_config (whole : settings.KeepsLines) :
    updateConfig (config settings) settings = config settings := by
  have lines : Text.fileLines (config settings) = configLines settings := by
    rw [config_eq]
    exact Text.fileLines_unlines (List.cons_ne_nil _ _) fun line member =>
      not_mem_of_mem_configLines (.inl rfl) whole member
  rw [updateConfig_eq whole, lines, updateLines_configLines, ← config_eq]

theorem return_not_mem_config (whole : settings.HasNoBreak) :
    Symbol.char '\r' ∉ config settings := by
  rw [config_eq]
  exact Text.not_mem_joinWith (by decide) fun line member =>
    not_mem_of_mem_configLines (.inr rfl) (fun text member => (whole text member).2) member

end Site

end ApiDocs
