import Mathlib.Data.List.Perm.Subperm
import ApiDocs.Module.Assemble
import ApiDocs.Proofs.Checked
import ApiDocs.Proofs.Outcome
import ApiDocs.Proofs.Path.Names

/-!
# From files to modules, and the paths of modules

The way from the files of a project to its modules, written as one chain: the syntax
tree of each file is read, a module is made of it, and the modules that are not
deprecated are put in order.

A module has the path of its file, and its name is the last part of that path without its
ending.  The modules of a project are some of those of its files, each at most once.
-/

namespace ApiDocs.Module

/-! ## From files to modules -/

section

variable (parse : TextFile → Tree) (settings : Settings)

theorem ofFile_eq (file : TextFile) :
    ofFile parse settings file =
      (sourceOf parse file).bind fun source => ofSource source (contextOf settings file) := by
  rw [ofFile, ofProvided]
  cases sourceOf parse file <;> rfl

/-- Modules are made file by file, in the order of the list. -/
theorem ofAllProvided_eq (provider : Provider) (files : List TextFile) :
    ofAllProvided provider settings files =
      (files.mapM (ofProvided provider settings)).map fun checks =>
        (Checked.all checks).map published := by
  simp only [ofAllProvided, Task.settle, Task.values, List.mapM_map, Function.comp_def]
  cases files.mapM (ofProvided provider settings) <;> rfl

/-- The modules of a project are made file by file, in the order of the list. -/
theorem ofFiles_eq (files : List TextFile) :
    ofFiles parse settings files =
      (files.mapM (ofFile parse settings)).map fun checks =>
        (Checked.all checks).map published :=
  ofAllProvided_eq settings (sourceOf parse) files

/-- A module is made of its records and of its documentation. -/
theorem ofSource_eq_accepted {source : SourceFile} {context : Context} {summary : Summary}
    {module : Module} {name : Text}
    (documented : Extract.documentation source context = .ok (.accepted summary))
    (recorded : records source context = .accepted module)
    (named : context.moduleName = .ok name) :
    ofSource source context =
      .ok (.accepted { module with doc := Doc.ofSummary name summary }) := by
  simp only [ofSource, documented, recorded, named, Checked.both]
  rfl

/-- A module that is not deprecated is published. -/
theorem published_singleton {module : Module} (current : module.doc.deprecated = false) :
    published [module] = [module] := by
  simp [published, current]

/-- A project of one file, whose module is not deprecated, has that module. -/
theorem ofFiles_singleton {file : TextFile} {source : SourceFile} {module : Module}
    (read : (sourceOf parse file).toOption = some source)
    (made : ofSource source (contextOf settings file) = .ok (.accepted module))
    (current : module.doc.deprecated = false) :
    ofFiles parse settings [file] = .ok (.accepted [module]) := by
  have found : sourceOf parse file = .ok source := by
    cases found : sourceOf parse file with
    | error fault =>
        rw [found] at read
        cases read
    | ok other =>
        rw [found] at read
        cases read
        rfl
  have one : ofFile parse settings file = .ok (.accepted module) := by
    rw [ofFile_eq, found]
    exact made
  rw [ofFiles_eq, List.mapM_cons, one]
  show Except.ok (Checked.accepted (published [module])) = _
  rw [published_singleton current]

end

/-! ## Paths -/

variable {parse : TextFile → Tree} {settings : Settings} {files : List TextFile}
variable {source : SourceFile} {context : Context} {module : Module} {modules : List Module}

/-- A module that was made has the path of its file, and its name from there. -/
theorem path_of_ofSource (accepted : ofSource source context = .ok (.accepted module)) :
    module.path = context.path ∧ context.moduleName = .ok module.doc.name := by
  rw [ofSource] at accepted
  split at accepted
  · cases accepted
  · split at accepted
    · cases accepted
    · rename_i summary listed both
      have recorded := ((Checked.both_eq_accepted_iff _ _ _).mp both).2
      cases named : context.moduleName with
      | error fault =>
          rw [named] at accepted
          cases accepted
      | ok name =>
          rw [named] at accepted
          cases accepted
          rw [records, Checked.map_eq_accepted_iff] at recorded
          obtain ⟨parts, -, rfl⟩ := recorded
          exact ⟨rfl, rfl⟩

theorem path_of_ofProvided {provider : Provider} {file : TextFile}
    (made : ofProvided provider settings file = .ok (.accepted module)) :
    module.path = pathOf file.path ∧
      (contextOf settings file).moduleName = .ok module.doc.name := by
  rw [ofProvided] at made
  split at made
  · cases made
  · exact path_of_ofSource made

theorem path_of_ofFile {file : TextFile}
    (made : ofFile parse settings file = .ok (.accepted module)) :
    module.path = pathOf file.path ∧ (contextOf settings file).moduleName = .ok module.doc.name :=
  path_of_ofProvided made

theorem subperm_map {α β : Type} {first second : List α} (some : first.Subperm second)
    (read : α → β) :
    (first.map read).Subperm (second.map read) := by
  obtain ⟨kept, permuted, part⟩ := some
  exact ⟨kept.map read, permuted.map read, part.map read⟩

theorem published_subperm (modules : List Module) : (published modules).Subperm modules :=
  (List.mergeSort_perm _ _).subperm.trans List.filter_sublist.subperm

/-- The modules of a project are some of those that its files make, each at most once. -/
theorem exists_made_of_ofFiles (made : ofFiles parse settings files = .ok (.accepted modules)) :
    ∃ all : List Module,
      files.map (ofFile parse settings) = all.map (fun module => .ok (.accepted module)) ∧
        modules.Subperm all := by
  rw [ofFiles_eq] at made
  cases checked : files.mapM (ofFile parse settings) with
  | error fault =>
      rw [checked] at made
      cases made
  | ok checks =>
      rw [checked] at made
      obtain ⟨all, accepted, rfl⟩ :=
        (Checked.map_eq_accepted_iff _ _ _).mp (Except.ok.inj made)
      rw [Checked.all_eq_accepted_iff] at accepted
      refine ⟨all, ?_, published_subperm all⟩
      rw [mapM_eq_ok_iff.mp checked, accepted, List.map_map]
      rfl

/-- Every module of a project was made from one of its files. -/
theorem exists_file_of_mem (made : ofFiles parse settings files = .ok (.accepted modules))
    (member : module ∈ modules) :
    ∃ file ∈ files, ofFile parse settings file = .ok (.accepted module) := by
  obtain ⟨all, same, some⟩ := exists_made_of_ofFiles made
  have inAll : .ok (.accepted module) ∈ files.map (ofFile parse settings) := by
    rw [same]
    exact List.mem_map_of_mem (some.subset member)
  exact List.mem_map.mp inAll

/-- The paths of the modules are paths of files, each as often as the files have it at most. -/
theorem paths_subperm (made : ofFiles parse settings files = .ok (.accepted modules)) :
    (modules.map Module.path).Subperm (files.map fun file => pathOf file.path) := by
  obtain ⟨all, same, some⟩ := exists_made_of_ofFiles made
  have paths : all.map Module.path = files.map fun file => pathOf file.path := by
    apply List.ext_getElem
    · have lengths := congrArg List.length same
      simpa using lengths.symm
    · intro index inAll inFiles
      simp only [List.length_map] at inAll inFiles
      have one := congrArg (fun list => list[index]?) same
      simp only [List.getElem?_map, List.getElem?_eq_getElem inAll,
        List.getElem?_eq_getElem inFiles, Option.map_some, Option.some.injEq] at one
      simp only [List.getElem_map]
      exact (path_of_ofFile one).1
  rw [← paths]
  exact subperm_map some Module.path

/-- The name of a module that was made has no slash, since it is a part of a name of its path. -/
theorem slash_not_mem_name {file : TextFile}
    (made : ofFile parse settings file = .ok (.accepted module)) :
    Symbol.char '/' ∉ module.doc.name := by
  obtain ⟨-, named⟩ := path_of_ofFile made
  rw [Context.moduleName] at named
  split at named
  · cases named
  · rename_i last _
    rw [← Except.ok.inj named]
    have inLast : ∀ symbol ∈ (CleanPath.ofText last).lastName, symbol ≠ .char '/' := by
      intro symbol member
      rw [CleanPath.lastName, List.getLastD_eq_getLast?] at member
      cases ending : (CleanPath.ofText last).names.getLast? with
      | none =>
          rw [ending] at member
          cases member
      | some name =>
          rw [ending] at member
          have isName := Path.isName_of_mem_names (List.mem_of_getLast? ending)
          rintro rfl
          exact isName.whole member
    intro member
    rw [CleanPath.stem] at member
    split at member
    · exact inLast _ (List.mem_of_mem_take member) rfl
    · exact inLast _ member rfl

end ApiDocs.Module
