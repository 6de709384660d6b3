import ApiDocs.Proofs.Glob.Below
import ApiDocs.Proofs.Run.Verify
import ApiDocs.Site.Pages

/-!
# Where the pages of modules are placed

The page of a module has the path of the module without its first part, so two modules
have the same page exactly if they differ in that part only.  A module whose path has one
part has nothing left for the name of its page.  Where the sources are in a folder of
their own below the project, all paths begin with the name of that folder; then every
module has a page of its own, inside of the folder for the pages.
-/

namespace ApiDocs

open Path (IsName names normalNames)

/-- Whether a path, with `.` and `..` resolved, lies below a folder and is not that folder. -/
def Path.IsStrictlyInside (folder path : Text) : Prop :=
  ∃ rest, rest ≠ [] ∧ normalNames path = normalNames folder ++ rest

namespace Site

variable {output : CleanPath} {parts front : List Text} {last name : Text}
variable {module first second : Module}

/-! ## The names of a page -/

/-- The names of a page in the folder of the pages, where the module has the given parts left. -/
def pageNames : List Text → List Text
  | [] => [".md"]
  | [last] => [last ++ ".md"]
  | part :: next :: rest => part :: pageNames (next :: rest)

@[simp]
theorem pageNames_nil : pageNames [] = [".md"] := rfl

@[simp]
theorem pageNames_concat (front : List Text) (last : Text) :
    pageNames (front ++ [last]) = front ++ [last ++ ".md"] := by
  induction front with
  | nil => rfl
  | cons part front ih =>
      obtain ⟨next, rest, cut⟩ :=
        List.exists_cons_of_ne_nil (show front ++ [last] ≠ [] by simp)
      rw [List.cons_append, cut, pageNames, ← cut, ih, List.cons_append]

theorem pageNames_ne_nil (parts : List Text) : pageNames parts ≠ [] := by
  rcases List.eq_nil_or_concat parts with rfl | ⟨front, last, rfl⟩
  · exact List.cons_ne_nil _ _
  · rw [List.concat_eq_append, pageNames_concat]
    simp

theorem joinWith_pageNames (parts : List Text) :
    Text.joinWith "/" (pageNames parts) = Text.joinWith "/" parts ++ ".md" := by
  rcases List.eq_nil_or_concat parts with rfl | ⟨front, last, rfl⟩
  · rfl
  · rw [List.concat_eq_append, pageNames_concat]
    rcases eq_or_ne front [] with rfl | nonempty
    · rfl
    · rw [Text.joinWith_append _ nonempty (List.cons_ne_nil _ _),
        Text.joinWith_append _ nonempty (List.cons_ne_nil _ _), List.append_assoc,
        List.append_assoc, List.append_assoc]
      rfl

/-- Every name of a page is a part of the path of the module, but for the ending of the last one. -/
theorem mem_pageNames (member : name ∈ pageNames parts) :
    name ∈ parts ∨ ∃ front, name = front ++ ".md" := by
  rcases List.eq_nil_or_concat parts with rfl | ⟨front, last, rfl⟩
  · exact .inr ⟨[], List.mem_singleton.mp member⟩
  · rw [List.concat_eq_append, pageNames_concat] at member
    rcases List.mem_append.mp member with inFront | isLast
    · exact .inl (by simp [inFront])
    · exact .inr ⟨last, List.mem_singleton.mp isLast⟩

theorem ne_up_of_append_md (front : Text) : front ++ (".md" : Text) ≠ ".." := by
  intro same
  have lengths := congrArg List.length same
  rw [List.length_append] at lengths
  have three : (".md" : Text).length = 3 := rfl
  have two : (".." : Text).length = 2 := rfl
  omega

theorem ne_up_of_mem_pageNames (plain : ∀ part ∈ parts, part ≠ "..")
    (member : name ∈ pageNames parts) : name ≠ ".." := by
  rcases mem_pageNames member with inParts | ⟨front, rfl⟩
  · exact plain name inParts
  · exact ne_up_of_append_md front

theorem isName_of_mem_pageNames (areNames : ∀ part ∈ parts, IsName part)
    (member : name ∈ pageNames parts) : IsName name := by
  have named {front : Text} (whole : Symbol.char '/' ∉ front) : IsName (front ++ ".md") := by
    refine ⟨by simp [Text.ofString, Text.ofChars], ?_, ?_⟩
    · simp only [List.mem_append, not_or]
      exact ⟨whole, by decide⟩
    · intro same
      have lengths := congrArg List.length same
      rw [List.length_append] at lengths
      have three : (".md" : Text).length = 3 := rfl
      have one : ("." : Text).length = 1 := rfl
      omega
  rcases List.eq_nil_or_concat parts with rfl | ⟨front, last, rfl⟩
  · rw [List.mem_singleton.mp member]
    decide
  · rw [List.concat_eq_append] at areNames
    rw [List.concat_eq_append, pageNames_concat] at member
    rcases List.mem_append.mp member with inFront | isLast
    · exact areNames name (List.mem_append_left _ inFront)
    · rw [List.mem_singleton.mp isLast]
      exact named (areNames last (by simp)).whole

/-- The parts can be read back from the names of a page. -/
theorem pageNames_inj {others : List Text} (areNames : ∀ part ∈ parts, IsName part)
    (otherNames : ∀ part ∈ others, IsName part) :
    pageNames parts = pageNames others ↔ parts = others := by
  refine ⟨fun same => ?_, fun same => by rw [same]⟩
  have written := congrArg (Text.joinWith "/") same
  rw [joinWith_pageNames, joinWith_pageNames] at written
  have read := congrArg names (List.append_cancel_right written)
  rwa [Path.names_joinWith areNames, Path.names_joinWith otherNames] at read

/-! ## The page of a module -/

/-- The page of a module below the folder of the site. -/
def page (module : Module) (output : CleanPath) : CleanPath :=
  output.below ("modules" :: pageNames (module.path.drop 1))

theorem pagesFolder_eq (absolute : output.IsAbsolute) (proper : output.IsProper) :
    pagesFolder output.text = (output.below ["modules"]).text :=
  absolute.join_name proper (by decide)

theorem isProper_pagesFolder (proper : output.IsProper) : (output.below ["modules"]).IsProper :=
  proper.below (by decide)

section

variable (absolute : output.IsAbsolute) (proper : output.IsProper)

include proper in
theorem isProper_page (areNames : ∀ part ∈ module.path, IsName part) :
    (page module output).IsProper := by
  refine proper.below fun name member => ?_
  rcases List.mem_cons.mp member with rfl | inPage
  · decide
  · exact isName_of_mem_pageNames (fun part inRest => areNames part (List.mem_of_mem_drop inRest))
      inPage

include absolute proper

theorem pagePath_eq (areNames : ∀ part ∈ module.path, IsName part) :
    pagePath module output.text = (page module output).text := by
  have folderAbsolute : (output.below ["modules"]).IsAbsolute := absolute
  have pageAre : ∀ name ∈ pageNames (module.path.drop 1), IsName name := fun name member =>
    isName_of_mem_pageNames (fun part inRest => areNames part (List.mem_of_mem_drop inRest)) member
  rw [pagePath, ← joinWith_pageNames, pagesFolder_eq absolute proper,
    folderAbsolute.join_text (isProper_pagesFolder proper) pageAre (pageNames_ne_nil _),
    CleanPath.below_below]
  rfl

/-- Two modules have the same page exactly if their paths differ in the first part only. -/
theorem pagePath_eq_iff (firstNames : ∀ part ∈ first.path, IsName part)
    (secondNames : ∀ part ∈ second.path, IsName part) :
    pagePath first output.text = pagePath second output.text ↔
      first.path.drop 1 = second.path.drop 1 := by
  refine ⟨fun same => ?_, fun same => by rw [pagePath, pagePath, same]⟩
  rw [pagePath_eq absolute proper firstNames, pagePath_eq absolute proper secondNames] at same
  have read := congrArg names same
  rw [(isProper_page proper firstNames).names_text, (isProper_page proper secondNames).names_text]
    at read
  have pages := (List.cons.inj (List.append_cancel_left read)).2
  exact (pageNames_inj (fun part inRest => firstNames part (List.mem_of_mem_drop inRest))
    fun part inRest => secondNames part (List.mem_of_mem_drop inRest)).mp pages

/-- A page lies inside of the folder of the pages if nothing behind the first part climbs. -/
theorem isStrictlyInside_pagePath (areNames : ∀ part ∈ module.path, IsName part)
    (plain : ∀ part ∈ module.path.drop 1, part ≠ "..") :
    Path.IsStrictlyInside (pagesFolder output.text) (pagePath module output.text) := by
  refine ⟨pageNames (module.path.drop 1), pageNames_ne_nil _, ?_⟩
  rw [pagesFolder_eq absolute proper, pagePath_eq absolute proper areNames]
  have folderProper := isProper_pagesFolder proper
  have pageProper := isProper_page proper areNames
  have read : names (page module output).text =
      (output.below ["modules"]).names ++ pageNames (module.path.drop 1) := by
    rw [pageProper.names_text]
    simp [page]
  refine Path.normalNames_of_append read folderProper.names_text ?_ ?_
  · rw [pageProper.anchorOf_text, folderProper.anchorOf_text]
    rfl
  · exact fun name member => ne_up_of_mem_pageNames plain member

end

/-- Without a part left, a page has nothing but its ending for a name. -/
theorem exists_pagePath_of_drop_eq_nil (output : Text) (none : module.path.drop 1 = []) :
    ∃ front, pagePath module output = front ++ ("/.md" : Text) := by
  have relative : Path.isAbsolute (".md" : Text) = false := by decide
  have bare : pagePath module output = Path.join (pagesFolder output) ".md" := by
    rw [pagePath, none]
    rfl
  obtain ⟨before, named⟩ := Text.endsWith_iff.mp (Path.endsWith_join output "modules")
  rw [bare]
  rcases Path.join_eq (pagesFolder output) relative with ⟨joined, nothing | closed⟩ | ⟨joined, -, -⟩
  · rw [pagesFolder, named] at nothing
    exact absurd (List.append_eq_nil_iff.mp nothing).2 (List.cons_ne_nil _ _)
  · obtain ⟨front, ended⟩ := Path.endsInSlash_iff.mp closed
    exact ⟨front, by rw [joined, ended, List.append_assoc]; rfl⟩
  · exact ⟨pagesFolder output, joined⟩

/-- A page has the ending of a page of a source exactly if something is left to name it. -/
theorem endsWith_pagePath_iff (output : Text)
    (sources : ∀ last, (module.path.drop 1).getLast? = some last → Text.endsWith last ".ts" = true) :
    Text.endsWith (pagePath module output) ".ts.md" = true ↔ 2 ≤ module.path.length := by
  have length : (module.path.drop 1).length = module.path.length - 1 := List.length_drop
  obtain ⟨before, written⟩ := Text.endsWith_iff.mp
    (Path.endsWith_join (pagesFolder output) (Text.joinWith "/" (module.path.drop 1) ++ ".md"))
  rcases List.eq_nil_or_concat (module.path.drop 1) with none | ⟨front, last, cut⟩
  · rw [none, List.length_nil] at length
    refine ⟨fun ends => ?_, fun long => by omega⟩
    obtain ⟨other, ended⟩ := Text.endsWith_iff.mp ends
    obtain ⟨front, closed⟩ := exists_pagePath_of_drop_eq_nil output none
    have same : (other ++ ".t") ++ ("s.md" : Text) = front ++ "/.md" := by
      rw [← closed, ended, List.append_assoc]
      rfl
    exact absurd (List.append_inj_right' same rfl) (by decide)
  · rw [List.concat_eq_append] at cut
    rw [cut, List.length_append, List.length_singleton] at length
    refine ⟨fun _ => by omega, fun _ => ?_⟩
    obtain ⟨stem, ended⟩ := Text.endsWith_iff.mp (sources last (by simp [cut]))
    obtain ⟨folders, joined⟩ := Text.exists_joinWith_concat "/" front last
    rw [Text.endsWith_iff, pagePath, written, cut, joined, ended]
    exact ⟨before ++ (folders ++ stem), by simp only [List.append_assoc]; rfl⟩

end Site

namespace Project

/-- Whether the sources of a project are in a folder of their own below it. -/
structure HasSourceFolder (project : Project) : Prop where
  root : Wildcard.hasMagic project.root.text = false
  relative : Path.isAbsolute project.configured.sourceDir = false
  nonempty : names project.configured.sourceDir ≠ []
  staysDown : ((".." : Text)) ∉ names project.configured.sourceDir
  plain : Wildcard.hasMagic project.configured.sourceDir = false

instance (project : Project) : Decidable project.HasSourceFolder :=
  decidable_of_iff
    (Wildcard.hasMagic project.root.text = false ∧
      Path.isAbsolute project.configured.sourceDir = false ∧
      names project.configured.sourceDir ≠ [] ∧
      ((".." : Text)) ∉ names project.configured.sourceDir ∧
      Wildcard.hasMagic project.configured.sourceDir = false)
    ⟨fun ⟨root, relative, nonempty, staysDown, plain⟩ =>
        ⟨root, relative, nonempty, staysDown, plain⟩,
      fun ⟨root, relative, nonempty, staysDown, plain⟩ =>
        ⟨root, relative, nonempty, staysDown, plain⟩⟩

/-- What the search for the sources of a project looks for. -/
def sourcePattern (project : Project) : CleanPath :=
  project.source.below [Glob.everything, .char '*' :: ".ts"]

namespace IsRead

variable {links : Bool} {environment : Environment} {world : World links} {project : Project}
variable {module : Module} (isRead : project.IsRead environment world)

include isRead

theorem absolute_source : project.source.IsAbsolute :=
  isRead.absolute.append _

theorem proper_source : project.source.IsProper :=
  isRead.proper.append _

theorem absolute_sourcePattern : project.sourcePattern.IsAbsolute :=
  isRead.absolute.append _

theorem proper_sourcePattern : project.sourcePattern.IsProper :=
  isRead.proper_source.below (by decide)

theorem hasMagic_sourcePattern : Wildcard.hasMagic project.sourcePattern.text = true := by
  rw [sourcePattern, isRead.absolute_source.hasMagic_below]
  simp [Glob.hasMagic_everything]

theorem normalNames_root : normalNames (Path.join world.hereText project.root.text) =
    project.root.names := by
  have fromRoot := isRead.absolute.isAbsolute_text
  have read := isRead.proper.names_text
  rw [Path.join_of_isAbsolute fromRoot, Path.normalNames_of_plain, read]
  rw [read]
  rintro name member rfl
  exact isRead.staysDown member

/--
A path that was found below the project is seen from there by the names behind those of the project.
-/
theorem namesBetween_root {path : Text} {below : List Text} (fromRoot : Path.isAbsolute path = true)
    (read : names path = project.root.names ++ below) (notUp : ((".." : Text)) ∉ below) :
    Path.namesBetween project.root.names (normalNames (Path.join world.hereText path)) = below := by
  rw [Path.join_of_isAbsolute fromRoot, Path.normalNames_of_plain, read, Path.namesBetween_append]
  rintro name member rfl
  rw [read] at member
  rcases List.mem_append.mp member with inRoot | inBelow
  · exact isRead.staysDown inRoot
  · exact notUp inBelow

/-- The paths of the modules are those of found files, each as often as it was found at most. -/
theorem exists_found : ∃ middle found, World.OnlyLogs world middle ∧
    Glob.search middle.disk middle.here project.sourcePattern.text = .ok found ∧
      (project.modules.map Module.path).Subperm (found.map fun path =>
        Path.namesBetween project.root.names
          (normalNames (Path.join world.hereText path))) := by
  obtain ⟨middle, files, sources, logs, searched, paths, made⟩ := isRead.sources
  have pattern : Path.join (Path.join project.settings.sourceDir "**") "*.ts" =
      project.sourcePattern.text :=
    Glob.join_everything isRead.absolute_source isRead.proper_source (by decide)
  rw [pattern] at searched
  obtain ⟨found, searched, some⟩ := Glob.exists_search_of_files searched
  refine ⟨middle, found, logs, searched, ?_⟩
  have parts : (sources.map fun file => Module.pathOf file.path) =
      files.map fun path => Path.namesBetween project.root.names
        (normalNames (Path.join world.hereText path)) := by
    have composed := congrArg (List.map Module.pathOf) paths
    rw [List.map_map, List.map_map] at composed
    refine composed.trans (List.map_congr_left fun path _ => ?_)
    rw [Function.comp_apply, Path.pathOf_relative world.isAbsolute_hereText,
      isRead.normalNames_root]
  have own := Module.paths_subperm made
  rw [parts] at own
  exact own.trans (Module.subperm_map some _)

/-- A path that the search for sources finds ends with the name of a source. -/
theorem exists_names_of_found {disk : Disk links} {here : Location} {found : List Text}
    {path : Text}
    (tree : disk.IsTree)
    (searched : Glob.search disk here project.sourcePattern.text = .ok found)
    (member : path ∈ found) :
    Path.isAbsolute path = true ∧ ∃ front name, names path = front ++ [name] ∧
      Disk.IsName name ∧ Text.endsWith name ".ts" = true := by
  obtain ⟨before, first, others, names', cut, -, -, descent, read, fromRoot⟩ :=
    Glob.exists_descent_of_search tree isRead.absolute_sourcePattern
      isRead.proper_sourcePattern isRead.hasMagic_sourcePattern searched member
  -- The last level of the search is the one for the ending.
  obtain ⟨levels, last, lastLevel⟩ :=
    (List.eq_nil_or_concat (first :: others)).resolve_left (List.cons_ne_nil _ _)
  rw [List.concat_eq_append] at lastLevel
  obtain rfl : last = .char '*' :: (".ts" : Text) := by
    have ends := congrArg List.getLast? cut
    rw [lastLevel, ← List.append_assoc, List.getLast?_concat, sourcePattern, CleanPath.names_below,
      List.getLast?_append_of_ne_nil _ (List.cons_ne_nil _ _)] at ends
    exact (Option.some.inj ends).symm
  rw [lastLevel] at descent
  obtain ⟨above, name, rfl, -, isName, -, ends⟩ :=
    Glob.Descent.exists_concat (by decide) (by decide) descent
  rw [← List.append_assoc] at read
  exact ⟨fromRoot, before ++ above, name, read, isName, ends⟩

/-- The path of a module ends with the name of a source, unless it only climbs. -/
theorem exists_goal (tree : world.disk.IsTree) (member : module ∈ project.modules) :
    ∃ front name, module.path = Path.namesBetween project.root.names (front ++ [name]) ∧
      ((".." : Text)) ∉ front ++ [name] ∧ Text.endsWith name ".ts" = true := by
  obtain ⟨middle, found, logs, searched, paths⟩ := isRead.exists_found
  obtain ⟨path, inFound, same⟩ :=
    List.mem_map.mp (paths.subset (List.mem_map_of_mem (f := Module.path) member))
  obtain ⟨fromRoot, front, name, read, isName, ends⟩ :=
    isRead.exists_names_of_found (logs.tree tree) searched inFound
  obtain ⟨normalFront, normal⟩ := Path.normalNames_eq_concat read isName.notUp
  refine ⟨normalFront, name, ?_, ?_, ends⟩
  · rw [← same, Path.join_of_isAbsolute fromRoot, normal]
  · rw [← normal]
    exact Path.up_not_mem_normalNames fromRoot

/-- Behind the first part the path of a module ends with the name of a source, unless it climbs. -/
theorem drop_path (tree : world.disk.IsTree) (member : module ∈ project.modules)
    (goesDown : (module.path.drop 1).head? ≠ some ((".." : Text))) :
    (∀ part ∈ module.path.drop 1, part ≠ "..") ∧
      ∀ last, (module.path.drop 1).getLast? = some last → Text.endsWith last ".ts" = true := by
  obtain ⟨front, name, same, plain, ends⟩ := isRead.exists_goal tree member
  rw [same] at goesDown
  obtain ⟨before, cut⟩ := Path.drop_namesBetween_suffix goesDown
  rw [← same] at cut
  constructor
  · rintro part inRest rfl
    exact plain (cut ▸ List.mem_append_right before inRest)
  · intro last isLast
    have nonempty : module.path.drop 1 ≠ [] := by
      rintro none
      rw [none] at isLast
      cases isLast
    have lasts := congrArg List.getLast? cut
    rw [List.getLast?_append_of_ne_nil _ nonempty, List.getLast?_concat, isLast] at lasts
    rwa [Option.some.inj lasts]

/-- With a folder for the sources, every found source lies in it. -/
theorem isSearchBelow (folder : project.HasSourceFolder) :
    Glob.IsSearchBelow project.source ".ts" where
  absolute := isRead.absolute_source
  proper := isRead.proper_source
  plain := by
    have noMagic : Wildcard.hasMagic project.source.text = false :=
      isRead.absolute.hasMagic_append_eq_false folder.root folder.plain
    intro name member
    rw [isRead.absolute_source.hasMagic_text, List.any_eq_false] at noMagic
    simpa using noMagic name member
  plainEnding := by decide
  wholeEnding := by decide
  nonemptyEnding := by decide

omit isRead in
/-- With a folder for the sources, the paths of modules begin with it, and no two are the same. -/
theorem paths_of_hasSourceFolder {world : World} (isRead : project.IsRead environment world)
    (tree : world.disk.IsTree) (folder : project.HasSourceFolder) :
    (project.modules.map Module.path).Nodup ∧
      ∀ module ∈ project.modules, ∃ front name,
        module.path = names project.configured.sourceDir ++ front ++ [name] ∧
          (∀ other ∈ front ++ [name], Disk.IsName other ∧ Glob.isHidden other = false) ∧
            Text.endsWith name ".ts" = true := by
  have search := isRead.isSearchBelow folder
  obtain ⟨middle, found, logs, searched, paths⟩ := isRead.exists_found
  have middleTree := logs.tree tree
  have sourceNames : project.source.names =
      project.root.names ++ names project.configured.sourceDir := by
    rw [source, CleanPath.append_eq_below folder.relative]
    rfl
  -- What the way from the root to a found source is.
  have way (path : Text) (inFound : path ∈ found) : ∃ front name,
      names path = project.root.names ++ (names project.configured.sourceDir ++ front ++ [name]) ∧
        Path.namesBetween project.root.names (normalNames (Path.join world.hereText path)) =
          names project.configured.sourceDir ++ front ++ [name] ∧
        (∀ other ∈ front ++ [name], Disk.IsName other ∧ Glob.isHidden other = false) ∧
        Text.endsWith name ".ts" = true := by
    obtain ⟨fromRoot, front, name, read, visible, ends⟩ :=
      search.names_of_mem middleTree searched inFound
    rw [sourceNames, List.append_assoc, List.append_assoc] at read
    rw [← List.append_assoc (names project.configured.sourceDir)] at read
    refine ⟨front, name, read, isRead.namesBetween_root fromRoot read ?_, visible, ends⟩
    rw [List.append_assoc, List.mem_append, not_or]
    exact ⟨folder.staysDown, fun inFile => (visible _ inFile).1.notUp rfl⟩
  constructor
  · have distinct : (found.map fun path => Path.namesBetween project.root.names
        (normalNames (Path.join world.hereText path))).Nodup := by
      refine List.Nodup.of_map (project.root.names ++ ·) ?_
      have whole := search.nodup_names_of_search middleTree searched
      rw [List.map_map]
      convert whole using 1
      refine List.map_congr_left fun path inFound => ?_
      obtain ⟨front, name, read, between, -⟩ := way path inFound
      rw [Function.comp_apply, between, read]
    obtain ⟨kept, permuted, part⟩ := paths
    exact permuted.nodup_iff.mp (distinct.sublist part)
  · intro module member
    obtain ⟨path, inFound, same⟩ :=
      List.mem_map.mp (paths.subset (List.mem_map_of_mem (f := Module.path) member))
    obtain ⟨front, name, -, between, visible, ends⟩ := way path inFound
    exact ⟨front, name, same.symm.trans between, visible, ends⟩

end IsRead

end Project

namespace Run

open Site (pagePath pagesFolder)

variable {environment : Environment} {world after : World} {path : Text} {project : Project}

/--
Two modules share a page exactly if their paths differ in the first part only.  A page
lies in the folder for the pages unless its path climbs behind the first part, and it has
the ending for the page of a source exactly if there is a part behind the first one.  With a
folder for the sources below the project, every module has a page of its own.
-/
theorem page_placement (tree : world.disk.IsTree)
    (documented : ending (documented environment path) world = (.ok project, after)) :
    (∀ first ∈ project.modules, ∀ second ∈ project.modules,
      pagePath first project.settings.outputDir = pagePath second project.settings.outputDir ↔
        first.path.drop 1 = second.path.drop 1) ∧
    (∀ module ∈ project.modules, (module.path.drop 1).head? ≠ some ((".." : Text)) →
      Path.IsStrictlyInside (pagesFolder project.settings.outputDir)
          (pagePath module project.settings.outputDir) ∧
        (Text.endsWith (pagePath module project.settings.outputDir) ".ts.md" = true ↔
          2 ≤ module.path.length)) ∧
    (project.HasSourceFolder →
      (project.modules.map fun module => pagePath module project.settings.outputDir).Nodup ∧
        ∀ module ∈ project.modules,
          Path.IsStrictlyInside (pagesFolder project.settings.outputDir)
              (pagePath module project.settings.outputDir) ∧
            Text.endsWith (pagePath module project.settings.outputDir) ".ts.md" = true) := by
  have isRead := isRead_of_ending_documented documented
  have absolute := isRead.absolute_output
  have proper := isRead.proper_output
  have areNames (module : Module) (member : module ∈ project.modules) :
      ∀ part ∈ module.path, IsName part := fun _ inPath => isRead.isName_of_mem_path member inPath
  have placed (module : Module) (member : module ∈ project.modules)
      (goesDown : (module.path.drop 1).head? ≠ some ((".." : Text))) :
      Path.IsStrictlyInside (pagesFolder project.settings.outputDir)
          (pagePath module project.settings.outputDir) ∧
        (Text.endsWith (pagePath module project.settings.outputDir) ".ts.md" = true ↔
          2 ≤ module.path.length) := by
    obtain ⟨plain, sources⟩ := isRead.drop_path tree member goesDown
    exact ⟨Site.isStrictlyInside_pagePath absolute proper (areNames module member) plain,
      Site.endsWith_pagePath_iff _ sources⟩
  have same (first : Module) (isFirst : first ∈ project.modules) (second : Module)
      (isSecond : second ∈ project.modules) :
      pagePath first project.settings.outputDir = pagePath second project.settings.outputDir ↔
        first.path.drop 1 = second.path.drop 1 :=
    Site.pagePath_eq_iff absolute proper (areNames first isFirst) (areNames second isSecond)
  refine ⟨same, placed, fun folder => ?_⟩
  obtain ⟨distinct, paths⟩ := isRead.paths_of_hasSourceFolder tree folder
  obtain ⟨first, rest, source⟩ := List.exists_cons_of_ne_nil folder.nonempty
  constructor
  · refine List.Nodup.map_on (fun one isOne other isOther samePage => ?_) (distinct.of_map _)
    obtain ⟨oneFront, oneName, onePath, -⟩ := paths one isOne
    obtain ⟨otherFront, otherName, otherPath, -⟩ := paths other isOther
    have tails := (same one isOne other isOther).mp samePage
    rw [source] at onePath otherPath
    have paths : one.path = other.path := by
      rw [onePath, otherPath] at tails ⊢
      exact congrArg (first :: ·) tails
    exact List.inj_on_of_nodup_map distinct isOne isOther paths
  · intro module member
    obtain ⟨front, name, whole, visible, -⟩ := paths module member
    rw [source] at whole
    have goesDown : (module.path.drop 1).head? ≠ some ((".." : Text)) := by
      intro up
      have inRest : ((".." : Text)) ∈ module.path.drop 1 := List.mem_of_head? up
      have cut : module.path.drop 1 = rest ++ (front ++ [name]) := by
        rw [whole]
        simp
      rw [cut] at inRest
      rcases List.mem_append.mp inRest with inSource | inFile
      · exact folder.staysDown (source ▸ List.mem_cons_of_mem first inSource)
      · exact (visible _ inFile).1.notUp rfl
    obtain ⟨inside, ends⟩ := placed module member goesDown
    refine ⟨inside, ends.mpr ?_⟩
    simp only [whole, List.cons_append, List.length_cons, List.length_append]
    omega

/-- The page of a source in a folder for the sources lies where it belongs. -/
theorem page_placement_of_source :
    ∃ project after, ending (Run.documented withoutChecker ".") exampleWorld = (.ok project, after) ∧
      project.modules.length = 1 ∧ ∀ module ∈ project.modules,
        Path.IsStrictlyInside (pagesFolder project.settings.outputDir)
            (pagePath module project.settings.outputDir) ∧
          Text.endsWith (pagePath module project.settings.outputDir) ".ts.md" = true := by
  have reading : succeeds (fun project _ =>
      decide (project.HasSourceFolder ∧ project.modules.length = 1))
      (Run.documented withoutChecker ".") exampleWorld = true := by
    decide +kernel
  obtain ⟨project, after, read, known⟩ := exists_of_succeeds reading
  obtain ⟨folder, one⟩ := of_decide_eq_true known
  have placed := (page_placement (by decide +kernel) read).2.2 folder
  exact ⟨project, after, read, one, placed.2⟩

/-- A project with its one source beside its description. -/
def sourceAtRootWorld : World :=
  demoWorld "." "docs" [([("p" : Text), "a.ts"], .file [])]

/-- The page of a source at the root of the project has nothing but an ending for a name. -/
theorem page_of_source_at_root_misplaced :
    ∃ project files after,
      ending (planned emptySources ".") sourceAtRootWorld =
        (.ok (project, files), after) ∧
      ∃ module ∈ project.modules, module.path = [("a.ts" : Text)] ∧
        pagePath module project.settings.outputDir = "/p/docs/modules/.md" ∧
        Text.endsWith (pagePath module project.settings.outputDir) ".ts.md" = false := by
  have planning : succeeds (fun plan _ => decide (∃ module ∈ plan.1.modules,
      module.path = [("a.ts" : Text)] ∧
      pagePath module plan.1.settings.outputDir = "/p/docs/modules/.md" ∧
      Text.endsWith (pagePath module plan.1.settings.outputDir) ".ts.md" = false))
      (planned emptySources ".") sourceAtRootWorld = true := by
    decide +kernel
  obtain ⟨⟨project, files⟩, after, planned, known⟩ := exists_of_succeeds planning
  exact ⟨project, files, after, planned, of_decide_eq_true known⟩

end Run

end ApiDocs
