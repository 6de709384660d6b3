import ApiDocs.Settings.Overrides

/-!
# Applying a settings file

The entries of a settings file are applied all together or not at all.  What an entry has to be is
said here by relations: an entry fits if its key is the name of a setting and its value is of the
kind that the setting asks for, and about every other entry there is one complaint.

If all entries fit, each setting is the value under its name, or what it was before.  So the order
of the entries does not matter, and a second file is applied to the result of a first one as the
first one updated with the second.  Otherwise the complaints are reported in the order of the
entries, unless one of them is about a value that cannot be shown.
-/

namespace ApiDocs

open Value

/-- The values of a kind. -/
def ValueKind.Accepts : ValueKind → Value → Prop
  | .text, value => ∃ text, value = .text text
  | .truth, value => ∃ truth, value = .bool truth
  | .texts, value => ∃ texts : List Text, value = .list (texts.map .text)
  | .map, value => ∃ entries, value = .map entries

/-! ## Single settings -/

namespace Setting

variable {setting other : Setting} {settings changed : Settings} {value : Value} {name : Text}
  {items : List Value} {texts : List Text}

/-- The value of a setting, as a settings file writes it. -/
def get (settings : Settings) : Setting → Value
  | .projectHomepage => .text settings.projectHomepage
  | .sourceDir => .text settings.sourceDir
  | .outputDir => .text settings.outputDir
  | .theme => .text settings.theme
  | .enableSearch => .bool settings.enableSearch
  | .enforceDescriptions => .bool settings.enforceDescriptions
  | .enforceExamples => .bool settings.enforceExamples
  | .enforceVersion => .bool settings.enforceVersion
  | .exclude => .list (settings.exclude.map .text)
  | .parseOptions => .map settings.parseOptions
  | .exampleOptions => .map settings.exampleOptions

@[simp]
theorem named?_name (setting : Setting) : named? setting.name = some setting := by
  cases setting <;> rfl

theorem named?_eq_some_iff : named? name = some setting ↔ name = setting.name := by
  constructor
  · intro found
    have same := List.find?_some found
    exact (beq_iff_eq.mp same).symm
  · rintro rfl
    exact named?_name setting

theorem name_injective : Function.Injective Setting.name := by
  intro first second same
  rw [← Option.some_inj, ← named?_name, same, named?_name]

theorem texts?_eq_some_iff : texts? items = some texts ↔ items = texts.map .text := by
  fun_induction texts? items generalizing texts with
  | case1 => simp [eq_comm]
  | case2 item rest ih =>
      rw [Option.map_eq_some_iff]
      constructor
      · rintro ⟨others, found, rfl⟩
        rw [ih.mp found, List.map_cons]
      · intro same
        obtain ⟨_, others, rfl, head, tail⟩ := List.map_eq_cons_iff.mp same.symm
        cases head
        exact ⟨others, ih.mpr tail.symm, rfl⟩
  | case3 first rest noText =>
      refine iff_of_false nofun fun same => ?_
      obtain ⟨_, others, rfl, head, -⟩ := List.map_eq_cons_iff.mp same.symm
      exact noText _ head.symm

/-- One setting has a value, and all else is as it was. -/
structure IsSetTo (setting : Setting) (value : Value) (settings changed : Settings) : Prop where
  projectName : changed.projectName = settings.projectName
  own : setting.get changed = value
  others : ∀ other, other ≠ setting → other.get changed = other.get settings

theorem isSetTo_of_set? (set : setting.set? settings value = some changed) :
    setting.IsSetTo value settings changed := by
  rw [set?.eq_def] at set
  split at set
  case h_9 items =>
    obtain ⟨texts, found, rfl⟩ := Option.map_eq_some_iff.mp set
    refine ⟨rfl, by rw [texts?_eq_some_iff.mp found]; rfl, fun other differs => ?_⟩
    cases other <;> first | rfl | exact absurd rfl differs
  case h_12 => cases set
  all_goals
    cases set
    refine ⟨rfl, rfl, fun other differs => ?_⟩
    cases other <;> first | rfl | exact absurd rfl differs

theorem exists_set?_iff (settings : Settings) :
    (∃ changed, setting.set? settings value = some changed) ↔ setting.kind.Accepts value := by
  constructor
  · rintro ⟨changed, set⟩
    have own := (isSetTo_of_set? set).own
    cases setting <;> exact ⟨_, own.symm⟩
  · intro accepts
    cases setting <;> obtain ⟨_, rfl⟩ := accepts
    case exclude texts =>
      exact ⟨_, Option.map_eq_some_iff.mpr ⟨texts, texts?_eq_some_iff.mpr rfl, rfl⟩⟩
    all_goals exact ⟨_, rfl⟩

end Setting

/-- The name of the project and the value of every setting are all that settings are. -/
theorem Settings.ext_of_get {first second : Settings}
    (projectName : first.projectName = second.projectName)
    (same : ∀ setting : Setting, setting.get first = setting.get second) : first = second := by
  have homepage := same .projectHomepage
  have source := same .sourceDir
  have output := same .outputDir
  have theme := same .theme
  have search := same .enableSearch
  have descriptions := same .enforceDescriptions
  have examples := same .enforceExamples
  have version := same .enforceVersion
  have exclude := same .exclude
  have parse := same .parseOptions
  have ofExamples := same .exampleOptions
  simp only [Setting.get, Value.text.injEq, Value.bool.injEq, Value.list.injEq, Value.map.injEq]
    at homepage source output theme search descriptions examples version exclude parse ofExamples
  have exclude := (List.map_inj_right fun _ _ => Value.text.inj).mp exclude
  cases first
  cases second
  simp_all

/-- The value that the line for a wrong entry shows. -/
def EntryProblem.shown : EntryProblem → Value
  | .unknown key => key
  | .mistyped _ _ value => value

theorem EntryProblem.isShowable_eq (problem : EntryProblem) :
    problem.isShowable = problem.shown.isShowable := by
  cases problem <;> rfl

/-! ## Entries -/

/-- The key is the name of a setting, and the value is of the kind that the setting asks for. -/
def FitsSetting (entry : Value × Value) : Prop :=
  ∃ setting : Setting, entry.1 = .text setting.name ∧ setting.kind.Accepts entry.2

/-- What is wrong with an entry: the value that is shown, and the line that shows it. -/
inductive Complaint : Value × Value → Value × Text → Prop
  | unknown {key value : Value} (noSetting : ∀ setting : Setting, key ≠ .text setting.name) :
      Complaint (key, value) (key, "- " ++ key.nameText ++ ": unknown setting")
  | mistyped {setting : Setting} {value : Value} (wrong : ¬ setting.kind.Accepts value) :
      Complaint (.text setting.name, value)
        (value, "- " ++ setting.name ++ ": expected " ++ setting.kind.words ++ ", got " ++
          value.literal)

/-- One complaint for each entry that does not fit, in the order of the entries. -/
inductive Reports : Entries → List (Value × Text) → Prop
  | nil : Reports [] []
  | fits {entry : Value × Value} {rest : Entries} {report : List (Value × Text)} :
      FitsSetting entry → Reports rest report → Reports (entry :: rest) report
  | complaint {entry : Value × Value} {shown : Value × Text} {rest : Entries}
      {report : List (Value × Text)} :
      Complaint entry shown → Reports rest report → Reports (entry :: rest) (shown :: report)

variable {entry : Value × Value} {shown : Value × Text} {report : List (Value × Text)}
  {entries more : Entries} {settings changed first final : Settings} {name : Text}
  {key value : Value}

theorem Complaint.not_fits (complaint : Complaint entry shown) : ¬ FitsSetting entry := by
  rintro ⟨setting, named, accepts⟩
  cases complaint with
  | unknown noSetting => exact noSetting setting named
  | mistyped wrong =>
      cases Setting.name_injective (Value.text.inj named)
      exact wrong accepts

theorem Complaint.unique {other : Value × Text} (complaint : Complaint entry shown)
    (again : Complaint entry other) : shown = other := by
  generalize same : entry = copy at again
  cases complaint with
  | unknown noSetting =>
      cases again with
      | unknown => cases same; rfl
      | mistyped =>
          cases same
          exact absurd rfl (noSetting _)
  | mistyped wrong =>
      cases again with
      | unknown noSetting =>
          cases same
          exact absurd rfl (noSetting _)
      | mistyped =>
          obtain ⟨named, rfl⟩ := Prod.mk.inj same
          cases Setting.name_injective (Value.text.inj named)
          rfl

namespace Reports

theorem nil_iff (reports : Reports entries report) :
    report = [] ↔ ∀ entry ∈ entries, FitsSetting entry := by
  induction reports with
  | nil => simp
  | fits fits _ ih => rw [ih, List.forall_mem_cons, and_iff_right fits]
  | complaint complaint _ _ =>
      exact iff_of_false nofun fun all => complaint.not_fits (all _ List.mem_cons_self)

theorem mem_iff (reports : Reports entries report) :
    shown ∈ report ↔ ∃ entry ∈ entries, Complaint entry shown := by
  induction reports with
  | nil => simp
  | fits fits _ ih =>
      simp only [ih, List.mem_cons, or_and_right, exists_or, exists_eq_left]
      exact (or_iff_right fun complaint => complaint.not_fits fits).symm
  | complaint complaint _ ih =>
      simp only [ih, List.mem_cons, or_and_right, exists_or, exists_eq_left]
      exact or_congr_left ⟨fun same => same ▸ complaint, fun again => again.unique complaint⟩

end Reports

namespace Settings

theorem setEntry_text (settings : Settings) (setting : Setting) (value : Value) :
    settings.setEntry (.text setting.name) value =
      match setting.set? settings value with
      | none => .error (.mistyped setting.name setting.kind value)
      | some changed => .ok changed := by
  cases set : setting.set? settings value <;> simp [setEntry, set]

theorem setEntry_of_unknown (noSetting : ∀ setting : Setting, key ≠ .text setting.name) :
    settings.setEntry key value = .error (.unknown key) := by
  rw [setEntry.eq_def]
  split
  · rename_i name
    split
    · rfl
    · rename_i setting found
      exact absurd (congrArg Value.text (Setting.named?_eq_some_iff.mp found)) (noSetting setting)
  · rfl

/-- An entry that fits changes its own setting. -/
theorem exists_setEntry_of_accepts {setting : Setting} (settings : Settings)
    (accepts : setting.kind.Accepts value) :
    ∃ changed, settings.setEntry (.text setting.name) value = .ok changed ∧
      setting.IsSetTo value settings changed := by
  obtain ⟨changed, set⟩ := (Setting.exists_set?_iff settings).mpr accepts
  exact ⟨changed, by rw [setEntry_text, set], Setting.isSetTo_of_set? set⟩

theorem setEntry_of_not_accepts {setting : Setting} (settings : Settings)
    (wrong : ¬ setting.kind.Accepts value) :
    settings.setEntry (.text setting.name) value =
      .error (.mistyped setting.name setting.kind value) := by
  rw [setEntry_text]
  cases set : setting.set? settings value with
  | none => rfl
  | some changed => exact absurd ((Setting.exists_set?_iff settings).mp ⟨changed, set⟩) wrong

theorem entryProblems_cons_of_ok {rest : Entries} (set : setEntry {} key value = .ok changed) :
    entryProblems ((key, value) :: rest) = entryProblems rest := by
  rw [entryProblems, List.filterMap_cons]
  simp only [set]
  rfl

theorem entryProblems_cons_of_error {rest : Entries} {problem : EntryProblem}
    (failed : setEntry {} key value = .error problem) :
    entryProblems ((key, value) :: rest) = problem :: entryProblems rest := by
  rw [entryProblems, List.filterMap_cons]
  simp only [failed]
  rfl

theorem reports_entryProblems (entries : Entries) :
    Reports entries ((entryProblems entries).map fun problem => (problem.shown, problem.line)) := by
  induction entries with
  | nil => exact .nil
  | cons entry rest ih =>
      obtain ⟨key, value⟩ := entry
      by_cases known : ∃ setting : Setting, key = .text setting.name
      · obtain ⟨setting, rfl⟩ := known
        by_cases accepts : setting.kind.Accepts value
        · obtain ⟨changed, set, -⟩ := exists_setEntry_of_accepts {} accepts
          rw [entryProblems_cons_of_ok set]
          exact .fits ⟨setting, rfl, accepts⟩ ih
        · rw [entryProblems_cons_of_error (setEntry_of_not_accepts {} accepts)]
          exact .complaint (.mistyped accepts) ih
      · rw [not_exists] at known
        rw [entryProblems_cons_of_error (setEntry_of_unknown known)]
        exact .complaint (.unknown known) ih

theorem entryProblems_eq_nil_iff :
    entryProblems entries = [] ↔ ∀ entry ∈ entries, FitsSetting entry := by
  rw [← (reports_entryProblems entries).nil_iff, List.map_eq_nil_iff]

/-! ## Values under the names of settings -/

/-- The entries of a map, which has no key twice. -/
def IsMapping (entries : Entries) : Prop :=
  entries.Pairwise fun first second => sameKey first.1 second.1 = false

theorem sameKey_text_iff (key : Value) : sameKey key (.text name) = true ↔ key = .text name := by
  cases key <;> simp [sameKey, keyInteger?]
  split <;> simp_all

theorem lookup_cons_self (name : Text) (value : Value) (rest : Entries) :
    lookup (.text name) ((.text name, value) :: rest) = some value := by
  rw [lookup, if_pos ((sameKey_text_iff _).mpr rfl)]

theorem lookup_cons_of_ne (differs : key ≠ .text name) (value : Value) (rest : Entries) :
    lookup (.text name) ((key, value) :: rest) = lookup (.text name) rest := by
  rw [lookup, if_neg (mt (sameKey_text_iff key).mp differs)]

theorem IsMapping.not_mem_tail {rest : Entries} (mapping : IsMapping ((.text name, value) :: rest))
    (later : Value) : (.text name, later) ∉ rest := by
  intro member
  have apart := (List.pairwise_cons.mp mapping).1 _ member
  rw [(sameKey_text_iff _).mpr rfl] at apart
  cases apart

theorem IsMapping.lookup_eq_some_iff (mapping : IsMapping entries) :
    lookup (.text name) entries = some value ↔ (.text name, value) ∈ entries := by
  induction entries with
  | nil => simp [lookup]
  | cons entry rest ih =>
      obtain ⟨key, held⟩ := entry
      by_cases same : key = .text name
      · subst same
        rw [lookup_cons_self, List.mem_cons, or_iff_left (mapping.not_mem_tail value)]
        simp [eq_comm]
      · rw [lookup_cons_of_ne same, ih (List.pairwise_cons.mp mapping).2, List.mem_cons, or_iff_right]
        exact fun equal => same (Prod.mk.inj equal).1.symm

theorem IsMapping.lookup_tail {rest : Entries}
    (mapping : IsMapping ((.text name, value) :: rest)) : lookup (.text name) rest = none := by
  refine Option.eq_none_iff_forall_ne_some.mpr fun later found => ?_
  exact mapping.not_mem_tail later
    ((IsMapping.lookup_eq_some_iff (List.pairwise_cons.mp mapping).2).mp found)

/-- The entries of a first map, updated with those of a second one. -/
def update (entries more : Entries) : Entries :=
  more.foldl (fun updated entry => insert entry.1 entry.2 updated) entries

theorem lookup_insert_self (name : Text) (value : Value) (entries : Entries) :
    lookup (.text name) (insert (.text name) value entries) = some value := by
  fun_induction insert (.text name) value entries with
  | case1 => exact lookup_cons_self name value []
  | case2 other old rest same =>
      rw [(sameKey_text_iff other).mp same, lookup_cons_self]
  | case3 other old rest differs ih =>
      rw [lookup_cons_of_ne (mt (sameKey_text_iff other).mpr differs), ih]

theorem lookup_insert_of_ne {other : Text} (differs : other ≠ name) (value : Value)
    (entries : Entries) :
    lookup (.text name) (insert (.text other) value entries) = lookup (.text name) entries := by
  have apart : Value.text other ≠ .text name := mt Value.text.inj differs
  fun_induction insert (.text other) value entries with
  | case1 => exact lookup_cons_of_ne apart value []
  | case2 held old rest same =>
      rw [(sameKey_text_iff held).mp same, lookup_cons_of_ne apart, lookup_cons_of_ne apart]
  | case3 held old rest _ ih => rw [lookup, lookup, ih]

theorem mem_insert (member : entry ∈ insert key value entries) :
    entry ∈ entries ∨ entry.2 = value ∧
      (entry.1 = key ∨ sameKey entry.1 key = true ∧ ∃ old, (entry.1, old) ∈ entries) := by
  fun_induction insert key value entries with
  | case1 => exact .inr (by simp [List.mem_singleton.mp member])
  | case2 other old rest same =>
      rcases List.mem_cons.mp member with rfl | inRest
      · exact .inr ⟨rfl, .inr ⟨same, old, List.mem_cons_self⟩⟩
      · exact .inl (List.mem_cons_of_mem _ inRest)
  | case3 other old rest _ ih =>
      rcases List.mem_cons.mp member with rfl | inRest
      · exact .inl List.mem_cons_self
      · refine (ih inRest).imp (List.mem_cons_of_mem _) (And.imp_right (Or.imp_right ?_))
        rintro ⟨same, before, inRest⟩
        exact ⟨same, before, List.mem_cons_of_mem _ inRest⟩

/-! ## Settings after all entries -/

/-- Each setting is the value under its name, or what it was before. -/
structure IsOverriddenBy (entries : Entries) (settings changed : Settings) : Prop where
  projectName : changed.projectName = settings.projectName
  values : ∀ setting : Setting,
    setting.get changed = (lookup (.text setting.name) entries).getD (setting.get settings)

theorem IsOverriddenBy.unique {other : Settings}
    (overridden : IsOverriddenBy entries settings changed)
    (again : IsOverriddenBy entries settings other) : changed = other :=
  ext_of_get (overridden.projectName.trans again.projectName.symm) fun setting =>
    (overridden.values setting).trans (again.values setting).symm

theorem isOverriddenBy_congr {other : Entries}
    (same : ∀ name, lookup (.text name) other = lookup (.text name) entries) :
    IsOverriddenBy other settings changed ↔ IsOverriddenBy entries settings changed := by
  constructor <;> rintro ⟨projectName, values⟩ <;> refine ⟨projectName, fun setting => ?_⟩
  · rw [← same, values]
  · rw [same, values]

theorem setEntries_cons_of_ok {rest : Entries} (set : settings.setEntry key value = .ok changed) :
    settings.setEntries ((key, value) :: rest) = changed.setEntries rest := by
  rw [setEntries, List.foldl_cons]
  simp only [set]
  rfl

/-- Setting one entry after the other gives each setting the value under its name. -/
theorem isOverriddenBy_setEntries (mapping : IsMapping entries)
    (fit : ∀ entry ∈ entries, FitsSetting entry) (settings : Settings) :
    IsOverriddenBy entries settings (settings.setEntries entries) := by
  induction entries generalizing settings with
  | nil => exact ⟨rfl, fun setting => rfl⟩
  | cons entry rest ih =>
      obtain ⟨⟨own, named, accepts⟩, fits⟩ := List.forall_mem_cons.mp fit
      obtain ⟨key, value⟩ := entry
      obtain rfl : key = .text own.name := named
      obtain ⟨changed, set, isSet⟩ := exists_setEntry_of_accepts settings accepts
      have overridden := ih (List.pairwise_cons.mp mapping).2 fits changed
      rw [setEntries_cons_of_ok set]
      refine ⟨overridden.projectName.trans isSet.projectName, fun setting => ?_⟩
      rw [overridden.values]
      by_cases same : setting = own
      · subst same
        rw [lookup_cons_self, mapping.lookup_tail, isSet.own]
        rfl
      · have apart : Value.text own.name ≠ .text setting.name := fun equal =>
          same (Setting.name_injective (Value.text.inj equal)).symm
        rw [lookup_cons_of_ne apart, isSet.others setting same]

theorem fits_of_override (overridden : settings.override entries = .ok changed) :
    ∀ entry ∈ entries, FitsSetting entry := by
  rw [← entryProblems_eq_nil_iff]
  rw [override] at overridden
  split at overridden
  · assumption
  · split at overridden <;> cases overridden

theorem override_of_fits (fit : ∀ entry ∈ entries, FitsSetting entry) :
    settings.override entries = .ok (settings.setEntries entries) := by
  rw [override, entryProblems_eq_nil_iff.mpr fit]

theorem override_eq_ok_iff (mapping : IsMapping entries) :
    settings.override entries = .ok changed ↔
      (∀ entry ∈ entries, FitsSetting entry) ∧ IsOverriddenBy entries settings changed := by
  constructor
  · intro overridden
    have fit := fits_of_override overridden
    rw [override_of_fits fit] at overridden
    cases overridden
    exact ⟨fit, isOverriddenBy_setEntries mapping fit settings⟩
  · rintro ⟨fit, overridden⟩
    rw [override_of_fits fit, (isOverriddenBy_setEntries mapping fit settings).unique overridden]

theorem exists_override_eq_error_iff :
    (∃ failure, settings.override entries = .error failure) ↔
      ∃ entry ∈ entries, ¬ FitsSetting entry := by
  have fits : (∃ entry ∈ entries, ¬ FitsSetting entry) ↔ entryProblems entries ≠ [] := by
    rw [ne_eq, entryProblems_eq_nil_iff]
    simp only [Classical.not_forall, exists_prop]
  rw [fits, override]
  constructor
  · rintro ⟨failure, failed⟩ none
    rw [none] at failed
    cases failed
  · intro wrong
    split
    · contradiction
    · split
      · exact ⟨_, rfl⟩
      · exact ⟨_, rfl⟩

/-- Every value that a complaint shows can be shown. -/
def ShowsAll (entries : Entries) : Prop :=
  ∀ entry ∈ entries, ∀ shown, Complaint entry shown → shown.1.isShowable = true

theorem all_isShowable_iff :
    (entryProblems entries).all EntryProblem.isShowable = true ↔ ShowsAll entries := by
  have reports := reports_entryProblems entries
  rw [List.all_eq_true]
  constructor
  · intro all entry member shown complaint
    obtain ⟨problem, inProblems, rfl⟩ :=
      List.mem_map.mp (reports.mem_iff.mpr ⟨entry, member, complaint⟩)
    rw [← EntryProblem.isShowable_eq]
    exact all problem inProblems
  · intro all problem inProblems
    obtain ⟨entry, member, complaint⟩ := reports.mem_iff.mp (List.mem_map_of_mem inProblems)
    rw [EntryProblem.isShowable_eq]
    exact all entry member _ complaint

theorem override_eq_settings_error_iff {problem : SettingsProblem} :
    settings.override entries = .error (.settings problem) ↔
      (∃ entry ∈ entries, ¬ FitsSetting entry) ∧ ShowsAll entries ∧
        problem = .entries (entryProblems entries) := by
  rw [← exists_override_eq_error_iff, ← all_isShowable_iff]
  constructor
  · intro failed
    refine ⟨⟨_, failed⟩, ?_⟩
    rw [override] at failed
    split at failed
    · cases failed
    · split at failed
      · rename_i showable
        cases failed
        exact ⟨showable, rfl⟩
      · cases failed
  · rintro ⟨⟨failure, failed⟩, showable, rfl⟩
    rw [override] at failed ⊢
    split at failed
    · cases failed
    · rw [if_pos showable]

theorem override_of_not_showsAll (hidden : ¬ ShowsAll entries) :
    settings.override entries = .error (.fault .unshowable) := by
  rw [← all_isShowable_iff] at hidden
  rw [override]
  split
  · rename_i none
    rw [none] at hidden
    exact absurd rfl hidden
  · rw [if_neg hidden]

/-! ## Other orders, and a second file -/

theorem sameKey_eq_false_iff_of_fits (fits : FitsSetting entry) :
    sameKey key entry.1 = false ↔ key ≠ entry.1 := by
  obtain ⟨setting, named, -⟩ := fits
  rw [named, ← Bool.not_eq_true, sameKey_text_iff]

theorem isMapping_iff_of_fits (fit : ∀ entry ∈ entries, FitsSetting entry) :
    IsMapping entries ↔ entries.Pairwise fun first second => first.1 ≠ second.1 :=
  List.Pairwise.iff_of_mem fun _ inEntries => sameKey_eq_false_iff_of_fits (fit _ inEntries)

theorem override_of_perm {other : Entries} (mapping : IsMapping entries)
    (perm : entries.Perm other) :
    settings.override other = .ok changed ↔ settings.override entries = .ok changed := by
  have fitIff : (∀ entry ∈ other, FitsSetting entry) ↔ ∀ entry ∈ entries, FitsSetting entry :=
    forall_congr' fun entry => by rw [perm.mem_iff]
  by_cases fit : ∀ entry ∈ entries, FitsSetting entry
  · have others : IsMapping other := by
      rw [isMapping_iff_of_fits fit, perm.pairwise_iff fun apart => apart.symm] at mapping
      exact (isMapping_iff_of_fits (fitIff.mpr fit)).mpr mapping
    have lookups (name : Text) : lookup (.text name) other = lookup (.text name) entries :=
      Option.ext fun value => by
        rw [others.lookup_eq_some_iff, mapping.lookup_eq_some_iff, perm.mem_iff]
    rw [override_eq_ok_iff others, override_eq_ok_iff mapping, fitIff, isOverriddenBy_congr lookups]
  · exact iff_of_false (fun overridden => fit (fitIff.mp (fits_of_override overridden)))
      fun overridden => fit (fits_of_override overridden)

theorem isMapping_insert (mapping : IsMapping entries) (key value : Value) :
    IsMapping (insert key value entries) := by
  fun_induction insert key value entries with
  | case1 => exact List.pairwise_singleton _ _
  | case2 other old rest _ => exact List.pairwise_cons.mpr (List.pairwise_cons.mp mapping)
  | case3 other old rest differs ih =>
      obtain ⟨apart, tail⟩ := List.pairwise_cons.mp mapping
      refine List.pairwise_cons.mpr ⟨fun entry member => ?_, ih tail⟩
      rcases mem_insert member with before | ⟨-, same | ⟨-, old, before⟩⟩
      · exact apart entry before
      · rw [same]
        exact Bool.eq_false_iff.mpr differs
      · exact apart (entry.1, old) before

theorem update_cons (entries : Entries) (key value : Value) (rest : Entries) :
    update entries ((key, value) :: rest) = update (insert key value entries) rest := rfl

theorem isMapping_update (mapping : IsMapping entries) (more : Entries) :
    IsMapping (update entries more) := by
  induction more generalizing entries with
  | nil => exact mapping
  | cons entry rest ih => exact ih (isMapping_insert mapping entry.1 entry.2)

theorem lookup_update (mapping : IsMapping more) (fit : ∀ entry ∈ more, FitsSetting entry)
    (entries : Entries) (name : Text) :
    lookup (.text name) (update entries more) =
      (lookup (.text name) more).or (lookup (.text name) entries) := by
  induction more generalizing entries with
  | nil => rfl
  | cons entry rest ih =>
      obtain ⟨⟨own, named, -⟩, fits⟩ := List.forall_mem_cons.mp fit
      obtain ⟨key, value⟩ := entry
      obtain rfl : key = .text own.name := named
      rw [update_cons, ih (List.pairwise_cons.mp mapping).2 fits]
      by_cases same : own.name = name
      · subst same
        rw [mapping.lookup_tail, lookup_insert_self, lookup_cons_self, Option.none_or, Option.some_or]
      · rw [lookup_insert_of_ne same, lookup_cons_of_ne (mt Value.text.inj same)]

theorem fits_insert (fit : ∀ entry ∈ entries, FitsSetting entry) (fits : FitsSetting (key, value)) :
    ∀ entry ∈ insert key value entries, FitsSetting entry := by
  intro entry member
  obtain ⟨setting, named, accepts⟩ := fits
  obtain rfl : key = .text setting.name := named
  rcases mem_insert member with before | ⟨rfl, same | ⟨same, -⟩⟩
  · exact fit entry before
  · exact ⟨setting, same, accepts⟩
  · exact ⟨setting, (sameKey_text_iff _).mp same, accepts⟩

theorem fits_update (fit : ∀ entry ∈ entries, FitsSetting entry)
    (fits : ∀ entry ∈ more, FitsSetting entry) :
    ∀ entry ∈ update entries more, FitsSetting entry := by
  induction more generalizing entries with
  | nil => exact fit
  | cons entry rest ih =>
      obtain ⟨own, others⟩ := List.forall_mem_cons.mp fits
      exact ih (fits_insert fit own) others

theorem override_update (mapping : IsMapping entries) (again : IsMapping more)
    (overridden : settings.override entries = .ok first)
    (overriddenAgain : first.override more = .ok final) :
    settings.override (update entries more) = .ok final := by
  obtain ⟨fit, ofEntries⟩ := (override_eq_ok_iff mapping).mp overridden
  obtain ⟨fits, ofMore⟩ := (override_eq_ok_iff again).mp overriddenAgain
  refine (override_eq_ok_iff (isMapping_update mapping more)).mpr ⟨fits_update fit fits, ?_, ?_⟩
  · exact ofMore.projectName.trans ofEntries.projectName
  · intro setting
    rw [ofMore.values, ofEntries.values, lookup_update again fits, Option.getD_or]

end Settings

end ApiDocs
