import ApiDocs.Proofs.Module.Merge
import ApiDocs.Proofs.Module.Report

/-!
# Asking for less documentation

Three of the settings say which parts a comment must have.  Settings that ask for less
change no record: what was accepted stays accepted with the same value, and the errors are
some of the former errors in their order.

This is a relation between two checks of one thing.  Every way in which checks are put
together keeps it, so it goes from the parts of a comment to all files of a project.
-/

namespace ApiDocs

/-- The first settings are the second ones, except that they may ask for less documentation. -/
structure Settings.AsksLess (lenient strict : Settings) : Prop where
  same : lenient =
    { strict with
      enforceDescriptions := lenient.enforceDescriptions
      enforceExamples := lenient.enforceExamples
      enforceVersion := lenient.enforceVersion }
  descriptions : lenient.enforceDescriptions = true → strict.enforceDescriptions = true
  examples : lenient.enforceExamples = true → strict.enforceExamples = true
  version : lenient.enforceVersion = true → strict.enforceVersion = true

namespace Checked

variable {α β γ : Type}

/-- The first check accepts what the second one accepts, and reports no other errors. -/
structure Relaxes (lenient strict : Checked α) : Prop where
  errors : lenient.errors.Sublist strict.errors
  accepts : ∀ value, strict = accepted value → lenient = accepted value

namespace Relaxes

theorem refl (checked : Checked α) : Relaxes checked checked :=
  ⟨.refl _, fun _ => id⟩

/-- An error that is reported on fewer conditions. -/
theorem of_condition {few many : Bool} (fewer : few = true → many = true) (error : Text)
    (value : α) :
    Relaxes (if few then fail error else accepted value)
      (if many then fail error else accepted value) := by
  cases few with
  | true =>
      rw [fewer rfl]
      exact refl _
  | false =>
      cases many with
      | true => exact ⟨List.nil_sublist _, fun other made => by cases made⟩
      | false => exact refl _

theorem map {lenient strict : Checked α} (relaxed : Relaxes lenient strict) (change : α → β) :
    Relaxes (lenient.map change) (strict.map change) where
  errors := by
    rw [errors_map, errors_map]
    exact relaxed.errors
  accepts := by
    intro value made
    obtain ⟨original, accepted, rfl⟩ := (map_eq_accepted_iff _ _ _).mp made
    rw [relaxed.accepts original accepted, map_accepted]

theorem both {lenient strict : Checked α} {further stricter : Checked β}
    (left : Relaxes lenient strict) (right : Relaxes further stricter) :
    Relaxes (lenient.both further) (strict.both stricter) where
  errors := by
    rw [errors_both, errors_both]
    exact left.errors.append right.errors
  accepts := by
    intro pair made
    obtain ⟨first, second⟩ := (both_eq_accepted_iff _ _ _).mp made
    exact (both_eq_accepted_iff _ _ _).mpr ⟨left.accepts _ first, right.accepts _ second⟩

theorem all {lenient strict : List (Checked α)} (each : List.Forall₂ Relaxes lenient strict) :
    Relaxes (all lenient) (all strict) := by
  induction each with
  | nil => exact refl _
  | cons first _ ih => exact (first.both ih).map _

section

variable {lenient strict : α → Checked β} (relaxed : ∀ item, Relaxes (lenient item) (strict item))

include relaxed

theorem forall₂ (items : List α) : List.Forall₂ Relaxes (items.map lenient) (items.map strict) := by
  rw [List.forall₂_map_left_iff, List.forall₂_map_right_iff, List.forall₂_same]
  exact fun item _ => relaxed item

theorem each (items : List α) : Relaxes (each lenient items) (each strict items) :=
  all (forall₂ relaxed items)

end

end Relaxes

end Checked

open Checked (Relaxes)

section Declarations

variable {lenient strict : Settings} (less : lenient.AsksLess strict)

include less

namespace Policy

variable (comment : Comment) (place : Text)

theorem relaxes_since :
    Relaxes (since comment place lenient) (since comment place strict) := by
  rw [since, since]
  cases comment.first "since" with
  | some version => exact .refl _
  | none => exact .of_condition less.version _ _

theorem relaxes_description :
    Relaxes (description comment place lenient) (description comment place strict) := by
  rw [description, description]
  cases comment.description with
  | some text => exact .refl _
  | none => exact .of_condition less.descriptions _ _

theorem relaxes_examples (isModule : Bool) :
    Relaxes (examples comment place lenient isModule) (examples comment place strict isModule) := by
  refine .of_condition ?_ _ _
  simp only [Bool.and_eq_true, and_imp]
  exact fun asked notModule isEmpty => ⟨⟨less.examples asked, notModule⟩, isEmpty⟩

theorem relaxes_check (name : Text) (path : List Text) (isModule : Bool) :
    Relaxes (check name path comment isModule lenient) (check name path comment isModule strict) :=
  Relaxes.map
    ((relaxes_since less comment _).both <|
      (Relaxes.refl (category comment _)).both <|
        (relaxes_description less comment _).both <|
          relaxes_examples less comment _ isModule) _

end Policy

namespace Extract

variable (path : List Text)

theorem relaxes_contextCheck (name : Text) (comment : Comment) :
    Relaxes (Context.check { path, settings := lenient } name comment)
      (Context.check { path, settings := strict } name comment) :=
  Policy.relaxes_check less comment name path false

theorem relaxes_method (declaration : MethodDeclaration) :
    Relaxes (method { path, settings := lenient } declaration)
      (method { path, settings := strict } declaration) :=
  (relaxes_contextCheck less path _ _).map _

theorem relaxes_property (className : Text) (declaration : PropertyDeclaration) :
    Relaxes (property { path, settings := lenient } className declaration)
      (property { path, settings := strict } className declaration) :=
  (relaxes_contextCheck less path _ _).map _

theorem relaxes_classRecord (declaration : ClassDeclaration) :
    Relaxes (classRecord { path, settings := lenient } declaration)
      (classRecord { path, settings := strict } declaration) := by
  rw [classRecord, classRecord]
  cases declaration.name with
  | none => exact .refl _
  | some name =>
      exact Relaxes.map
        ((relaxes_contextCheck less path name _).both <|
          (Relaxes.each (relaxes_method less path) _).both <|
            (Relaxes.each (relaxes_method less path) _).both <|
              Relaxes.each (relaxes_property less path name) _) _

theorem relaxes_typeRecord (declaration : TypeDeclaration) :
    Relaxes (typeRecord { path, settings := lenient } declaration)
      (typeRecord { path, settings := strict } declaration) :=
  (relaxes_contextCheck less path _ _).map _

/-- Whatever its record is made of, a declaration that may be nameless has no more errors. -/
theorem relaxes_namedRecord {α : Type} (kind : Text) (name : Option Text) (comment : Comment)
    (make : Text → Summary → α) :
    Relaxes
      (match name with
        | none => Context.missingName { path, settings := lenient } kind
        | some name =>
          (Context.check { path, settings := lenient } name comment).map (make name))
      (match name with
        | none => Context.missingName { path, settings := strict } kind
        | some name =>
          (Context.check { path, settings := strict } name comment).map (make name)) := by
  cases name with
  | none => exact .refl _
  | some name => exact (relaxes_contextCheck less path name comment).map (make name)

theorem relaxes_functionRecord (declaration : FunctionDeclaration) :
    Relaxes (functionRecord { path, settings := lenient } declaration)
      (functionRecord { path, settings := strict } declaration) :=
  relaxes_namedRecord less path "function" declaration.name _ _

theorem relaxes_functionVariable (declaration : VariableDeclaration) :
    Relaxes (functionVariable { path, settings := lenient } declaration)
      (functionVariable { path, settings := strict } declaration) :=
  relaxes_namedRecord less path "function" declaration.name _ _

theorem relaxes_constantRecord (declaration : VariableDeclaration) :
    Relaxes (constantRecord { path, settings := lenient } declaration)
      (constantRecord { path, settings := strict } declaration) :=
  relaxes_namedRecord less path "constant" declaration.name _ _

/-- Whether an export has a record does not depend on what is asked for. -/
theorem relaxes_exportRecords (specifiers : List ExportSpecifier) :
    List.Forall₂ Relaxes (specifiers.filterMap (exportRecord? { path, settings := lenient }))
      (specifiers.filterMap (exportRecord? { path, settings := strict })) := by
  induction specifiers with
  | nil => exact .nil
  | cons specifier rest ih =>
      rw [List.filterMap_cons, List.filterMap_cons]
      cases comments : specifier.leadingComments with
      | nil =>
          simp only [exportRecord?, comments]
          exact .cons (.refl _) ih
      | cons first others =>
          simp only [exportRecord?, comments]
          cases hidden : (Comment.read first).hides with
          | true =>
              simp only [if_true]
              exact ih
          | false =>
              simp only [Bool.false_eq_true, if_false]
              exact .cons ((relaxes_contextCheck less path _ _).map _) ih

end Extract

namespace Module

variable (source : SourceFile) (path : List Text)

theorem relaxes_records :
    Relaxes (records source { path, settings := lenient })
      (records source { path, settings := strict }) := by
  have classes := (Relaxes.each (Extract.relaxes_classRecord less path)
    (Extract.visibleClasses source)).map (Extract.sortByName fun record => record.doc.name)
  have interfaces := (Relaxes.each (Extract.relaxes_typeRecord less path)
    (Extract.visibleTypes source.interfaces)).map (Extract.sortByName fun record => record.doc.name)
  have typeAliases := (Relaxes.each (Extract.relaxes_typeRecord less path)
    (Extract.visibleTypes source.typeAliases)).map (Extract.sortByName fun record => record.doc.name)
  have constants := Relaxes.each (Extract.relaxes_constantRecord less path)
    (Extract.visibleVariables false source)
  have exports := Relaxes.all (Extract.relaxes_exportRecords less path source.exports)
  have functions : Relaxes (Extract.functions source { path, settings := lenient })
      (Extract.functions source { path, settings := strict }) := by
    refine (Relaxes.all (List.rel_append ?_ ?_)).map _
    · exact Relaxes.forall₂ (Extract.relaxes_functionRecord less path) _
    · exact Relaxes.forall₂ (Extract.relaxes_functionVariable less path) _
  exact (classes.both <| interfaces.both <| functions.both <| typeAliases.both <|
    constants.both exports).map _

/-- Whether the name of the module is missing does not depend on what is asked for. -/
theorem sameOutcome_documentation :
    SameOutcome Eq Relaxes (Extract.documentation source { path, settings := lenient })
      (Extract.documentation source { path, settings := strict }) := by
  rw [Extract.documentation, Extract.documentation]
  cases source.leadingComments with
  | nil =>
      have fewer : (lenient.enforceDescriptions || lenient.enforceVersion) = true →
          (strict.enforceDescriptions || strict.enforceVersion) = true := by
        simp only [Bool.or_eq_true]
        exact Or.imp less.descriptions less.version
      have relaxed := Relaxes.of_condition fewer
        ("Missing documentation in " ++ Text.joinWith "/" path ++ " module") ({} : Summary)
      simp only [← apply_ite (@Except.ok Fault (Checked Summary))]
      exact .ok relaxed
  | cons first others =>
      simp only [Context.moduleName]
      cases path.getLast? with
      | none => exact .error rfl
      | some last => exact .ok (Policy.relaxes_check less (Comment.read first) _ path true)

end Module

end Declarations

namespace Module

/--
The first outcome is the better one: it accepts what the second one accepts, reports no
other errors, and is a fault where the second one is.
-/
structure Eases {α : Type} (lenient strict : Except Fault (Checked α)) : Prop where
  accepts : ∀ value, strict = .ok (.accepted value) → lenient = .ok (.accepted value)
  relaxes : ∀ milder sterner, lenient = .ok milder → strict = .ok sterner → Relaxes milder sterner
  faults : ∀ fault, strict = .error fault → lenient = .error fault

theorem Eases.of_sameOutcome {α : Type} {lenient strict : Except Fault (Checked α)}
    (same : SameOutcome Eq Relaxes lenient strict) : Eases lenient strict := by
  cases same with
  | ok relaxed =>
      refine ⟨?_, ?_, nofun⟩
      · intro value accepted
        rw [relaxed.accepts value (Except.ok.inj accepted)]
      · rintro milder sterner ⟨⟩ ⟨⟩
        exact relaxed
  | error equal => exact ⟨nofun, nofun, fun fault same => equal ▸ same⟩

/-- A module that was made or not reports the errors of its documentation and its records. -/
theorem errors_of_ofSource {source : SourceFile} {context : Context} {summary : Checked Summary}
    {checked : Checked Module} (documented : Extract.documentation source context = .ok summary)
    (made : ofSource source context = .ok checked) :
    checked.errors = (summary.both (records source context)).errors := by
  rw [ofSource, documented] at made
  cases both : summary.both (records source context) with
  | rejected first others =>
      simp only [both] at made
      cases made
      rfl
  | accepted pair =>
      simp only [both] at made
      cases named : context.moduleName with
      | error fault =>
          rw [named] at made
          cases made
      | ok name =>
          rw [named] at made
          cases made
          rfl

variable {lenient strict : Settings} (less : lenient.AsksLess strict)

include less

theorem eases_ofSource (source : SourceFile) (path : List Text) :
    Eases (ofSource source { path, settings := lenient })
      (ofSource source { path, settings := strict }) := by
  have documented := sameOutcome_documentation less source path
  generalize first : Extract.documentation source { path, settings := lenient } = one at documented
  generalize second : Extract.documentation source { path, settings := strict } = two at documented
  cases documented with
  | @error fault _ equal =>
      rw [ofSource, ofSource, first, second, equal]
      exact .of_sameOutcome (.error rfl)
  | @ok summary stricter relaxed =>
      have whole := relaxed.both (relaxes_records less source path)
      cases accepted : stricter.both (records source { path, settings := strict }) with
      | accepted pair =>
          -- the name of the module depends on the path alone
          rw [ofSource, ofSource, first, second]
          simp only [accepted, whole.accepts pair accepted, Context.moduleName]
          cases path.getLast? with
          | none => exact .of_sameOutcome (.error rfl)
          | some last => exact .of_sameOutcome (.ok (.refl _))
      | rejected error others =>
          have rejected : ofSource source { path, settings := strict } =
              .ok (.rejected error others) := by
            rw [ofSource, second]
            simp only [accepted]
          rw [rejected]
          refine ⟨fun value made => (by cases made), ?_, fun fault failed => (by cases failed)⟩
          intro milder sterner made same
          cases same
          refine ⟨?_, fun value made => by cases made⟩
          have errors := whole.errors
          rw [accepted] at errors
          rw [errors_of_ofSource first made]
          exact errors

theorem eases_ofProvided (provider : Provider) (file : TextFile) :
    Eases (ofProvided provider lenient file) (ofProvided provider strict file) := by
  rw [ofProvided, ofProvided]
  cases provider file with
  | error fault => exact .of_sameOutcome (.error rfl)
  | ok source => exact eases_ofSource less source (pathOf file.path)

/-- Where no file is faulty, each check is relaxed. -/
theorem forall₂_relaxes {provider : Provider} {files : List TextFile}
    {milder sterner : List (Checked Module)} (one : Checks provider lenient files milder)
    (two : Checks provider strict files sterner) : List.Forall₂ Relaxes milder sterner := by
  have both : List.Forall₂ Eases (files.map (ofProvided provider lenient))
      (files.map (ofProvided provider strict)) := by
    rw [List.forall₂_map_left_iff, List.forall₂_map_right_iff, List.forall₂_same]
    exact fun file _ => eases_ofProvided less provider file
  rw [one, two, List.forall₂_map_left_iff, List.forall₂_map_right_iff] at both
  exact both.imp fun _ _ eased => eased.relaxes _ _ rfl rfl

/-- A file whose path has a part is faulty or not, whatever is asked for. -/
theorem fault_iff_of_located (provider : Provider) {file : TextFile}
    (located : pathOf file.path ≠ [])
    (fault : Fault) :
    ofProvided provider lenient file = .error fault ↔
      ofProvided provider strict file = .error fault := by
  refine ⟨?_, (eases_ofProvided less provider file).faults fault⟩
  rw [ofProvided, ofProvided]
  cases provider file with
  | error found => exact id
  | ok source =>
      have isLocated : (contextOf lenient file).path ≠ [] := located
      obtain ⟨checked, made, -⟩ := ofSource_of_located source isLocated
      intro failed
      cases made.symm.trans failed

/--
Settings that ask for less of the documentation change no module: where the stricter settings
give modules, the milder ones give the same.  The errors under the milder settings are some of
those under the stricter ones, in their order.  No fault goes away, and none comes but for a
file whose path has no part.
-/
theorem modules_of_milder_settings (provider : Provider) (files : List TextFile) :
    (∀ modules, ofAllProvided provider strict files = .ok (.accepted modules) →
      ofAllProvided provider lenient files = .ok (.accepted modules)) ∧
    (∀ milder sterner, ofAllProvided provider lenient files = .ok milder →
      ofAllProvided provider strict files = .ok sterner →
        milder.errors.Sublist sterner.errors) ∧
    (∀ fault, ofAllProvided provider strict files = .error fault →
      ∃ other, ofAllProvided provider lenient files = .error other) ∧
    ((∀ file ∈ files, pathOf file.path ≠ []) → ∀ fault,
      ofAllProvided provider lenient files = .error fault ↔
        ofAllProvided provider strict files = .error fault) := by
  refine ⟨?_, ?_, ?_, ?_⟩
  · intro modules made
    obtain ⟨checks, given, same⟩ := Checks.exists_of_ofAllProvided made
    obtain ⟨all, accepted, -⟩ := (Checked.map_eq_accepted_iff _ _ _).mp same.symm
    have asBefore : files.map (ofProvided provider lenient) =
        files.map (ofProvided provider strict) := by
      refine List.map_congr_left fun file member => ?_
      have inChecks : ofProvided provider strict file ∈ checks.map Except.ok :=
        given ▸ List.mem_map_of_mem member
      rw [(Checked.all_eq_accepted_iff _ _).mp accepted, List.map_map] at inChecks
      obtain ⟨module, -, one⟩ := List.mem_map.mp inChecks
      rw [← one]
      exact (eases_ofProvided less provider file).accepts module one.symm
    rw [Checks.ofAllProvided_eq_ok (asBefore.trans given), ← same]
  · intro milder sterner one two
    obtain ⟨checks, given, rfl⟩ := Checks.exists_of_ofAllProvided one
    obtain ⟨stricter, other, rfl⟩ := Checks.exists_of_ofAllProvided two
    exact ((Relaxes.all (forall₂_relaxes less given other)).map published).errors
  · intro fault failed
    obtain ⟨before, file, after, rfl, -, faulty⟩ := ofAllProvided_eq_error_iff.mp failed
    have member : file ∈ before ++ file :: after :=
      List.mem_append_right before List.mem_cons_self
    exact exists_fault_of_mem member ((eases_ofProvided less provider file).faults fault faulty)
  · intro located fault
    have each : ∀ file ∈ files, ∀ fault,
        ofProvided provider lenient file = .error fault ↔
          ofProvided provider strict file = .error fault :=
      fun file member fault => fault_iff_of_located less provider (located file member) fault
    rw [ofAllProvided_eq_error_iff, ofAllProvided_eq_error_iff]
    exact ⟨IsFirstFault.of_same each,
      IsFirstFault.of_same fun file member fault => (each file member fault).symm⟩

omit less

/-- Settings that ask for descriptions and examples as well. -/
def demanding : Settings :=
  { enforceDescriptions := true, enforceExamples := true }

theorem asksLess_demanding : Settings.AsksLess {} demanding :=
  ⟨rfl, fun _ => rfl, fun _ => rfl, fun _ => rfl⟩

/-- None of the three files has a description, which only the demanding settings ask for. -/
theorem modules_of_three_files_without_descriptions :
    Settings.AsksLess {} demanding ∧ (∀ file ∈ threeFiles, pathOf file.path ≠ []) ∧
      ∃ sterner, ofAllProvided onlyComment demanding threeFiles = .ok sterner ∧
        sterner.errors.length = 3 ∧
          (∀ milder, ofAllProvided onlyComment {} threeFiles = .ok milder →
            milder.errors.Sublist sterner.errors) ∧
          ∀ fault, ofAllProvided onlyComment {} threeFiles ≠ .error fault := by
  have located : ∀ file ∈ threeFiles, pathOf file.path ≠ [] := by decide +kernel
  obtain ⟨-, errors, -, faults⟩ :=
    modules_of_milder_settings asksLess_demanding onlyComment threeFiles
  refine ⟨asksLess_demanding, located, ?_⟩
  cases made : ofAllProvided onlyComment demanding threeFiles with
  | error fault =>
      have impossible : (ofAllProvided onlyComment demanding threeFiles).toOption.isSome = true := by
        decide +kernel
      rw [made] at impossible
      cases impossible
  | ok sterner =>
      have count : (ofAllProvided onlyComment demanding threeFiles).toOption.map
          (fun checked => checked.errors.length) = some 3 := by
        decide +kernel
      rw [made] at count
      refine ⟨sterner, rfl, Option.some.inj count, fun milder mild => errors _ _ mild made, ?_⟩
      intro fault faulty
      cases made.symm.trans ((faults located fault).mp faulty)

end Module

end ApiDocs
