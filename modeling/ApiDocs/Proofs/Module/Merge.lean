import ApiDocs.Proofs.Module.Paths
import ApiDocs.Proofs.Order

/-!
# Files in any order

The modules of a project are made file by file.  The errors of the files are put one behind
the other, and without errors the modules that are not deprecated are sorted by their paths.
If no two paths differ only in case, the modules do not depend on the order of the files.
-/

namespace ApiDocs.Module

variable {provider : Provider} {settings : Settings} {files others : List TextFile}
variable {checks : List (Checked Module)}

/-- The names of a path with slashes between them, in lower case. -/
def pathKey (path : List Text) : Text :=
  Text.lower (Text.joinWith "/" path)

/-- The key by which the module of a file is sorted. -/
def fileKey (file : TextFile) : Text :=
  pathKey (pathOf file.path)

/-- Every file has been made a module of, or has errors: there was no fault. -/
def Checks (provider : Provider) (settings : Settings) (files : List TextFile)
    (checks : List (Checked Module)) : Prop :=
  files.map (ofProvided provider settings) = checks.map .ok

/-- The first of the files at which there was a fault, with the fault. -/
def IsFirstFault (provider : Provider) (settings : Settings) (files : List TextFile)
    (fault : Fault) : Prop :=
  ∃ before file after, files = before ++ file :: after ∧
    (∀ other ∈ before, ∃ checked, ofProvided provider settings other = .ok checked) ∧
    ofProvided provider settings file = .error fault

theorem sortKey_eq_pathKey (module : Module) : module.sortKey = pathKey module.path := rfl

theorem stableSort_published (modules : List Module) :
    StableSort (fun module => pathKey module.path)
      (modules.filter fun module => !module.doc.deprecated) (published modules) := by
  have sameKey : sortKey = fun module => pathKey module.path := funext sortKey_eq_pathKey
  rw [← sameKey]
  exact Extract.stableSort_sortByName sortKey _

/-- Modules whose paths differ not only in case are published in one order. -/
theorem published_eq_of_perm {modules rearranged : List Module} (perm : rearranged.Perm modules)
    (distinct : (modules.map fun module => pathKey module.path).Nodup) :
    published modules = published rearranged :=
  (stableSort_published modules).eq_of_perm (stableSort_published rearranged)
    (perm.symm.filter _) (distinct.sublist (List.filter_sublist.map _))

/-- The modules of files have the keys of their files. -/
theorem map_pathKey {modules : List Module}
    (made : Checks provider settings files (modules.map .accepted)) :
    (modules.map fun module => pathKey module.path) = files.map fileKey := by
  induction files generalizing modules with
  | nil =>
      cases modules with
      | nil => rfl
      | cons module rest => cases made
  | cons file rest ih =>
      cases modules with
      | nil => cases made
      | cons module further =>
          obtain ⟨first, remaining⟩ := List.cons.inj made
          rw [List.map_cons, List.map_cons, (path_of_ofProvided first).1, fileKey, ih remaining]

namespace Checks

theorem ofAllProvided_eq_ok (made : Checks provider settings files checks) :
    ofAllProvided provider settings files = .ok ((Checked.all checks).map published) := by
  rw [ofAllProvided_eq, mapM_eq_ok_iff.mpr made]
  rfl

theorem append {further : List (Checked Module)} (made : Checks provider settings files checks)
    (more : Checks provider settings others further) :
    Checks provider settings (files ++ others) (checks ++ further) := by
  rw [Checks, List.map_append, List.map_append, made, more]

/-- A report of modules or errors comes from the checks of the files. -/
theorem exists_of_ofAllProvided {merged : Checked (List Module)}
    (made : ofAllProvided provider settings files = .ok merged) :
    ∃ checks, Checks provider settings files checks ∧
      merged = (Checked.all checks).map published := by
  rw [ofAllProvided_eq] at made
  cases found : files.mapM (ofProvided provider settings) with
  | error fault =>
      rw [found] at made
      cases made
  | ok checks =>
      rw [found] at made
      exact ⟨checks, mapM_eq_ok_iff.mp found, (Except.ok.inj made).symm⟩

theorem errors_all (checks : List (Checked Module)) :
    ((Checked.all checks).map published).errors = checks.flatMap Checked.errors := by
  rw [Checked.errors_map, Checked.errors_all]

/-- Files in another order have the same checks in another order. -/
theorem exists_of_perm (made : Checks provider settings files checks) (perm : others.Perm files) :
    ∃ further, Checks provider settings others further ∧ further.Perm checks := by
  have each : ∀ file ∈ others, ∃ checked, ofProvided provider settings file = .ok checked := by
    intro file member
    have inFiles : ofProvided provider settings file ∈ checks.map Except.ok :=
      made ▸ List.mem_map_of_mem (perm.subset member)
    rw [List.mem_map] at inFiles
    obtain ⟨checked, -, same⟩ := inFiles
    exact ⟨checked, same.symm⟩
  obtain ⟨further, found⟩ := exists_mapM_eq_ok each
  have more : Checks provider settings others further := mapM_eq_ok_iff.mp found
  refine ⟨further, more, ?_⟩
  have okInjective : Function.Injective (Except.ok : Checked Module → Except Fault (Checked Module)) :=
    fun _ _ => Except.ok.inj
  rw [← List.map_perm_map_iff okInjective, ← more, ← made]
  exact perm.map _

end Checks

theorem ofAllProvided_eq_error_iff {fault : Fault} :
    ofAllProvided provider settings files = .error fault ↔
      IsFirstFault provider settings files fault := by
  rw [ofAllProvided_eq, IsFirstFault, ← mapM_eq_error_iff]
  cases files.mapM (ofProvided provider settings) <;> simp [Except.map]

/-- A file at which there is a fault leaves no modules. -/
theorem exists_fault_of_mem {file : TextFile} {fault : Fault} (member : file ∈ files)
    (faulty : ofProvided provider settings file = .error fault) :
    ∃ other, ofAllProvided provider settings files = .error other := by
  cases made : ofAllProvided provider settings files with
  | error other => exact ⟨other, rfl⟩
  | ok merged =>
      obtain ⟨checks, given, -⟩ := Checks.exists_of_ofAllProvided made
      have inChecks : ofProvided provider settings file ∈ checks.map Except.ok :=
        given ▸ List.mem_map_of_mem member
      rw [faulty, List.mem_map] at inChecks
      obtain ⟨checked, -, impossible⟩ := inChecks
      cases impossible

/-- The first fault is the same under settings that make the same files faulty. -/
theorem IsFirstFault.of_same {other : Settings} {fault : Fault}
    (same : ∀ file ∈ files, ∀ fault, ofProvided provider settings file = .error fault ↔
      ofProvided provider other file = .error fault)
    (first : IsFirstFault provider settings files fault) :
    IsFirstFault provider other files fault := by
  obtain ⟨before, file, after, rfl, fine, faulty⟩ := first
  refine ⟨before, file, after, rfl, ?_, ?_⟩
  · intro earlier member
    cases made : ofProvided provider other earlier with
    | ok checked => exact ⟨checked, rfl⟩
    | error found =>
        obtain ⟨checked, made'⟩ := fine earlier member
        have faulty := (same earlier (List.mem_append_left _ member) found).mpr made
        cases made'.symm.trans faulty
  · exact (same file (List.mem_append_right before List.mem_cons_self) fault).mp faulty

/--
Two reports on the same files: the same modules, the same errors in some order, or a fault each.
-/
inductive SameReport :
    Except Fault (Checked (List Module)) → Except Fault (Checked (List Module)) → Prop where
  | modules (modules : List Module) :
      SameReport (.ok (.accepted modules)) (.ok (.accepted modules))
  | errors {first second : Text} {rest others : List Text} :
      (first :: rest).Perm (second :: others) →
      SameReport (.ok (.rejected first rest)) (.ok (.rejected second others))
  | faults (fault other : Fault) : SameReport (.error fault) (.error other)

theorem sameReport_of_perm (perm : others.Perm files) (distinct : (files.map fileKey).Nodup) :
    SameReport (ofAllProvided provider settings files) (ofAllProvided provider settings others) := by
  cases made : files.mapM (ofProvided provider settings) with
  | error fault =>
      have inFiles := ofAllProvided_eq_error_iff.mpr (mapM_eq_error_iff.mp made)
      cases again : others.mapM (ofProvided provider settings) with
      | error other =>
          rw [inFiles, ofAllProvided_eq_error_iff.mpr (mapM_eq_error_iff.mp again)]
          exact .faults fault other
      | ok further =>
          -- without a fault in one order there is none in the other
          obtain ⟨checks, impossible, -⟩ :=
            Checks.exists_of_perm (mapM_eq_ok_iff.mp again) perm.symm
          rw [mapM_eq_ok_iff.mpr impossible] at made
          cases made
  | ok checks =>
      have given : Checks provider settings files checks := mapM_eq_ok_iff.mp made
      obtain ⟨further, again, rearranged⟩ := given.exists_of_perm perm
      rw [given.ofAllProvided_eq_ok, again.ofAllProvided_eq_ok]
      have errors := rearranged.symm.flatMap_right Checked.errors
      rw [← Checked.errors_all, ← Checked.errors_all] at errors
      cases one : Checked.all checks with
      | accepted modules =>
          have made := (Checked.all_eq_accepted_iff _ _).mp one
          rw [one] at errors
          obtain ⟨permuted, two⟩ := Checked.exists_of_errors_eq_nil errors.nil_eq.symm
          have remade := (Checked.all_eq_accepted_iff _ _).mp two
          have acceptedInjective : Function.Injective (Checked.accepted : Module → Checked Module) :=
            fun _ _ => Checked.accepted.inj
          rw [made, remade, List.map_perm_map_iff acceptedInjective] at rearranged
          rw [made] at given
          rw [two, Checked.map_accepted, Checked.map_accepted,
            published_eq_of_perm rearranged ((map_pathKey given).symm ▸ distinct)]
          exact .modules _
      | rejected first rest =>
          cases two : Checked.all further with
          | accepted modules =>
              rw [one, two] at errors
              exact absurd errors.length_eq (by simp)
          | rejected second remaining =>
              rw [one, two] at errors
              exact .errors errors

/--
Making the modules of some files ends with the fault of the first file that has one, or puts
the errors of the files one behind the other.  Without errors the modules that are not
deprecated are sorted by their paths in lower case, stably.  The order in which the files are listed
changes nothing but the order of the errors if no two paths differ only in case.
-/
theorem modules_of_files_in_any_order (provider : Provider) (settings : Settings)
    (files : List TextFile) :
    (∀ fault, ofAllProvided provider settings files = .error fault ↔
      IsFirstFault provider settings files fault) ∧
    (∀ checks, Checks provider settings files checks →
      ∃ merged, ofAllProvided provider settings files = .ok merged ∧
        merged.errors = checks.flatMap Checked.errors ∧
        (merged.errors = [] → ∃ modules sorted : List Module,
          checks = modules.map .accepted ∧ merged = .accepted sorted ∧
            StableSort (fun module => pathKey module.path)
              (modules.filter fun module => !module.doc.deprecated) sorted)) ∧
    (∀ others merged further, ofAllProvided provider settings files = .ok merged →
      ofAllProvided provider settings others = .ok further →
        ∃ both, ofAllProvided provider settings (files ++ others) = .ok both ∧
          both.errors = merged.errors ++ further.errors) ∧
    ∀ others, others.Perm files → (files.map fileKey).Nodup →
      SameReport (ofAllProvided provider settings files)
        (ofAllProvided provider settings others) := by
  refine ⟨fun fault => ofAllProvided_eq_error_iff, ?_, ?_,
    fun others perm distinct => sameReport_of_perm perm distinct⟩
  · intro checks made
    refine ⟨_, made.ofAllProvided_eq_ok, Checks.errors_all checks, ?_⟩
    intro clean
    rw [Checked.errors_map] at clean
    obtain ⟨modules, one⟩ := Checked.exists_of_errors_eq_nil clean
    refine ⟨modules, published modules, (Checked.all_eq_accepted_iff _ _).mp one, ?_,
      stableSort_published modules⟩
    rw [one, Checked.map_accepted]
  · intro others merged further made more
    obtain ⟨checks, one, rfl⟩ := Checks.exists_of_ofAllProvided made
    obtain ⟨rest, two, rfl⟩ := Checks.exists_of_ofAllProvided more
    refine ⟨_, (one.append two).ofAllProvided_eq_ok, ?_⟩
    rw [Checks.errors_all, Checks.errors_all, Checks.errors_all, List.flatMap_append]

/-- A source with nothing but the text of its file as the comment of the module. -/
def onlyComment : Provider := fun file =>
  .ok { leadingComments := [file.content] }

/-- A file, a deprecated one, and one whose path comes first, but only in lower case. -/
def threeFiles : List TextFile :=
  [{ path := "src/B.ts", content := "/** @since 1.0.0 */" },
    { path := "src/Old.ts", content := "/**\n * @since 1.0.0\n * @deprecated\n */" },
    { path := "src/a.ts", content := "/** @since 1.0.0 */" }]

/-- The path of a module, and whether it is deprecated. -/
def standing (module : Module) : List Text × Bool :=
  (module.path, module.doc.deprecated)

def threeStandings : List (Checked (List Text × Bool)) :=
  [.accepted (["src", "B.ts"], false), .accepted (["src", "Old.ts"], true),
    .accepted (["src", "a.ts"], false)]

/-- In the order of the codes the two modules would stand the other way round. -/
theorem modules_of_three_files :
    threeFiles.reverse.Perm threeFiles ∧ (threeFiles.map fileKey).Nodup ∧
      SameReport (ofAllProvided onlyComment {} threeFiles)
        (ofAllProvided onlyComment {} threeFiles.reverse) ∧
      ∃ front last, ofAllProvided onlyComment {} threeFiles = .ok (.accepted [front, last]) ∧
        front.path = ["src", "a.ts"] ∧ last.path = ["src", "B.ts"] := by
  have distinct : (threeFiles.map fileKey).Nodup := by decide +kernel
  have permuted : threeFiles.reverse.Perm threeFiles := List.reverse_perm threeFiles
  obtain ⟨-, merges, -, same⟩ := modules_of_files_in_any_order onlyComment {} threeFiles
  refine ⟨permuted, distinct, same _ permuted distinct, ?_⟩
  have computed : ((threeFiles.mapM (ofProvided onlyComment {})).map
      (List.map (Checked.map standing))).toOption = some threeStandings := by
    decide +kernel
  obtain ⟨checks, made, each⟩ := exists_of_toOption_map computed
  obtain ⟨merged, ended, errors, sorts⟩ := merges _ (mapM_eq_ok_iff.mp made)
  simp only [threeStandings, List.map_eq_cons_iff, List.map_eq_nil_iff, Checked.map_eq_accepted_iff,
    standing, Prod.mk.injEq] at each
  obtain ⟨_, _, rfl, ⟨last, rfl, lastPath, lastShown⟩, _, _, rfl, ⟨old, rfl, -, oldHidden⟩, _, _, rfl,
    ⟨front, rfl, frontPath, frontShown⟩, rfl⟩ := each
  obtain ⟨modules, sorted, accepted, rfl, order⟩ := sorts errors
  have named : [last, old, front] = modules :=
    List.map_injective_iff.mpr (fun _ _ => Checked.accepted.inj) accepted
  have two : modules.filter (fun module => !module.doc.deprecated) = [last, front] := by
    simp [← named, lastShown, oldHidden, frontShown]
  have ascending : (pathKey front.path).codes ≤ (pathKey last.path).codes := by
    rw [frontPath, lastPath]
    decide +kernel
  have again : StableSort (fun module => pathKey module.path) [front, last] [front, last] :=
    ⟨.refl _, by simpa using ascending, fun _ => rfl⟩
  have keys : ([last, front].map fun module => pathKey module.path).Nodup := by
    rw [List.map_cons, List.map_cons, frontPath, lastPath]
    decide +kernel
  rw [two] at order
  exact ⟨front, last, order.eq_of_perm again (.swap front last []) keys ▸ ended, frontPath, lastPath⟩

end ApiDocs.Module
