import ApiDocs.Proofs.Run.Again
import ApiDocs.Proofs.Site.Sources
import ApiDocs.Proofs.Site.Standing

/-!
# A build leaves a site that stands

A build takes things away at two kinds of places: in the folder of the examples, and where a
name has the ending of a page.  If neither the project nor its sources are there, and no folder
on the way to a module has that ending, then the folders that a build makes are not at such
places either.  So after a build the site stands, and the project is there as before.
-/

namespace ApiDocs

open Disk (GoesDown IsPath onWay)
open Path (IsName)

namespace Site

variable {output : CleanPath} {place : Location}

theorem IsDisposable.append (disposable : IsDisposable output place) (more : Location) :
    IsDisposable output (place ++ more) := by
  rcases disposable with inExamples | ⟨names, rfl, name, member, ends⟩
  · exact .inl (Disk.isWithin_trans inExamples (Disk.isWithin_iff.mpr ⟨more, rfl⟩))
  · exact .inr ⟨names ++ more, List.append_assoc _ _ _, name, List.mem_append_left _ member, ends⟩

/-- Below the folder of a site, what is disposable has a name for it. -/
theorem isDisposable_append_iff {first : Text} {rest : List Text} :
    IsDisposable output (output.place ++ first :: rest) ↔
      first = "examples" ∨ ∃ name ∈ first :: rest, Text.endsWith name ".ts.md" = true := by
  refine or_congr ?_ ?_
  · rw [Disk.isWithin_iff, Example.place_folderOf]
    constructor
    · rintro ⟨others, same⟩
      rw [List.append_assoc] at same
      exact (List.cons.inj (List.append_cancel_left same)).1
    · rintro rfl
      exact ⟨rest, by rw [List.append_assoc]; rfl⟩
  · constructor
    · rintro ⟨names, same, has⟩
      rwa [List.append_cancel_left same]
    · exact fun has => ⟨first :: rest, rfl, has⟩

theorem not_isDisposable_place : ¬IsDisposable output output.place := by
  rintro (inExamples | ⟨names, same, name, member, -⟩)
  · obtain ⟨rest, same⟩ := Disk.isWithin_iff.mp inExamples
    rw [Example.place_folderOf, List.append_assoc] at same
    have lengths := congrArg List.length same
    simp at lengths
  · have lengths := congrArg List.length same
    rw [List.length_append] at lengths
    have := List.length_pos_of_mem member
    omega

end Site

namespace Project

open Site (IsDisposable)

variable {project : Project} {disk : Disk} {place : Location} {front rest : List Text}

/-- The way to the folder of a site does not lead through what a run may take away. -/
theorem HasLastingWay.not_isDisposable
    (lasting : project.HasLastingWay disk (IsDisposable project.output))
    (cut : project.output.names = front ++ rest) :
    ¬IsDisposable project.output (Disk.follow [] front) :=
  lasting.not_folders (fun _ name disposable => disposable.append [name])
    Site.not_isDisposable_place cut

/--
The folders for the files of a site: its own one, and those for pages, none of which looks like one.
-/
def IsSiteFolder (project : Project) (dir : CleanPath) : Prop :=
  dir = project.output ∨ ∃ parts, dir = project.output.below (("modules" : Text) :: parts) ∧
    ∀ part ∈ parts, (IsName part ∧ part ≠ "..") ∧
      Text.endsWith (Disk.Name.stored part) ".ts.md" = false

namespace IsSiteFolder

variable {dir : CleanPath} (isFolder : project.IsSiteFolder dir)

include isFolder

theorem absolute (absolute : project.output.IsAbsolute) : dir.IsAbsolute := by
  rcases isFolder with rfl | ⟨parts, rfl, -⟩
  · exact absolute
  · exact absolute

theorem proper (proper : project.output.IsProper) : dir.IsProper := by
  rcases isFolder with rfl | ⟨parts, rfl, each⟩
  · exact proper
  · refine proper.below fun name member => ?_
    rcases List.mem_cons.mp member with rfl | inParts
    · decide
    · exact (each name inParts).1.1

/-- The way to such a folder leads through nothing that a run may take away. -/
theorem not_isDisposable_of_onWay
    (lasting : project.HasLastingWay disk (IsDisposable project.output))
    (proper : project.output.IsProper) (way : onWay dir place) :
    ¬IsDisposable project.output place := by
  obtain ⟨front, ⟨rest, cut⟩, isPath, rfl⟩ := way
  rcases isFolder with rfl | ⟨parts, rfl, each⟩
  · exact lasting.not_isDisposable cut.symm
  rw [CleanPath.names_below] at cut
  rcases List.append_eq_append_iff.mp cut with ⟨more, whole, -⟩ | ⟨below, rfl, whole⟩
  · exact lasting.not_isDisposable whole
  cases below with
  | nil =>
      rw [List.append_nil]
      exact Site.not_isDisposable_place
  | cons first more =>
      obtain ⟨rfl, inParts⟩ := List.cons.inj whole
      have isPart : ∀ part ∈ more, part ∈ parts := fun part member => by simp [inParts, member]
      have belowProper : (project.output.below (("modules" : Text) :: more)).IsProper := by
        refine proper.below fun name member => ?_
        rcases List.mem_cons.mp member with rfl | inMore
        · decide
        · exact (each name (isPart name inMore)).1.1
      have down : ∀ name ∈ ("modules" : Text) :: more, GoesDown name := by
        intro name member
        refine belowProper.goesDown isPath (List.mem_append_right _ member) ?_
        rcases List.mem_cons.mp member with rfl | inMore
        · decide
        · exact (each name (isPart name inMore)).1.2
      have shown : Disk.Name.stored "modules" = "modules" :=
        Disk.Name.stored_of_isAsciiText (Disk.Name.isAsciiText_ofString (by decide))
      rw [Disk.follow_append, Disk.follow_of_goesDown down, List.map_cons, shown]
      change ¬IsDisposable project.output (project.output.place ++ _)
      rw [Site.isDisposable_append_iff]
      rintro (same | ⟨name, member, ends⟩)
      · exact absurd same (by decide)
      · rcases List.mem_cons.mp member with rfl | inMore
        · exact absurd ends (by decide)
        · obtain ⟨part, inPart, rfl⟩ := List.mem_map.mp inMore
          rw [(each part (isPart part inPart)).2] at ends
          cases ends

end IsSiteFolder

/--
What a project needs for its site to stay as a build leaves it.  Neither the project nor its
sources are where a run may take things away, and no folder on the way to a module has the
ending of a page.
-/
structure IsSettled (project : Project) (world : World) : Prop where
  plain : project.IsPlain
  names : project.HasNoSlash
  folder : project.HasSourceFolder
  lines : project.settings.HasNoBreak
  lasting : project.HasLastingWay world.disk (IsDisposable project.output)
  root : ¬IsDisposable project.output project.root.place
  sources : ∀ place, project.IsSource world place → ¬IsDisposable project.output place
  folders : ∀ module ∈ project.modules, ∀ part ∈ module.path.drop 1,
    Text.endsWith (Disk.Name.stored part) ".ts.md" = false

/-- The files of the site of a project with a configuration. -/
def siteFiles (project : Project) (config : TextFile) : List TextFile :=
  [Site.home project.settings.outputDir, Site.index project.settings.outputDir, config] ++
    project.pages

theorem config_mem_siteFiles (config : TextFile) : config ∈ project.siteFiles config := by
  simp [siteFiles]

theorem mem_siteFiles_of_mem_pages {config page : TextFile} (isPage : page ∈ project.pages) :
    page ∈ project.siteFiles config :=
  List.mem_append_right _ isPage

section

variable {environment : Environment} {world : World} {config file other : TextFile}
variable {module : Module}
  (isRead : project.IsRead environment world) (settled : project.IsSettled world)
  (tree : world.disk.IsTree)

include isRead settled tree

/-- The page of a module has a name in a folder for pages. -/
theorem IsSettled.exists_folder_of_page (isModule : module ∈ project.modules) :
    ∃ dir name, project.IsSiteFolder dir ∧ IsName name ∧ name ≠ ".." ∧
      Site.pagePath module project.settings.outputDir = (dir.below [name]).text := by
  have areNames : ∀ part ∈ module.path, IsName part := fun part inPath =>
    isRead.isName_of_mem_path isModule inPath
  obtain ⟨front, name, cut, visible, -⟩ :=
    isRead.drop_path_of_hasSourceFolder tree settled.folder isModule
  have inPath : ∀ part ∈ (Path.names project.configured.sourceDir).drop 1 ++ front,
      part ∈ module.path.drop 1 := fun part member => by
    rw [cut]
    exact List.mem_append_left _ member
  have isPageName : name ++ (".md" : Text) ∈ Site.pageNames (module.path.drop 1) := by
    rw [cut, Site.pageNames_concat]
    simp
  refine ⟨_, name ++ ".md", .inr ⟨(Path.names project.configured.sourceDir).drop 1 ++ front, rfl,
    fun part member => ⟨⟨?_, ?_⟩, ?_⟩⟩, Site.isName_of_mem_pageNames (fun part inRest =>
      areNames part (List.mem_of_mem_drop inRest)) isPageName, Site.ne_up_of_append_md name, ?_⟩
  · exact areNames part (List.mem_of_mem_drop (inPath part member))
  · rintro rfl
    rcases List.mem_append.mp member with inSource | inFront
    · exact settled.folder.staysDown (List.mem_of_mem_drop inSource)
    · exact (visible _ (List.mem_append_left _ inFront)).1.notUp rfl
  · exact settled.folders _ isModule part (inPath part member)
  · have outputDir : project.settings.outputDir = project.output.text := rfl
    rw [outputDir, Site.pagePath_eq isRead.absolute_output isRead.proper_output areNames, Site.page,
      cut, Site.pageNames_concat, CleanPath.below_below]
    rfl

omit settled tree in
/-- The path of a page is that of its clean path. -/
theorem IsRead.isPath_page (isModule : module ∈ project.modules)
    (isPath : IsPath (Site.pagePath module project.settings.outputDir)) :
    IsPath (Site.page module project.output).text := by
  have written : Site.pagePath module project.settings.outputDir =
      (Site.page module project.output).text :=
    Site.pagePath_eq isRead.absolute_output isRead.proper_output fun part inPath =>
      isRead.isName_of_mem_path isModule inPath
  rwa [written] at isPath

/-- The path of a page is one as well with the names that the disk shows. -/
theorem IsSettled.isPath_placeNames (isModule : module ∈ project.modules)
    (isPath : IsPath (Site.page module project.output).text) :
    IsPath (project.output.below (Site.placeNames (module.path.drop 1))).text := by
  refine isRead.absolute_output.isPath_stored isRead.proper_output ?_
    (isRead.goesDown_of_page tree settled.folder isModule isPath) (List.cons_ne_nil _ _) isPath
  intro name member
  rcases List.mem_cons.mp member with rfl | inNames
  · decide
  · exact Site.isName_of_mem_pageNames (fun part inRest =>
      isRead.isName_of_mem_path isModule (List.mem_of_mem_drop inRest)) inNames

variable (configured : config.path = Site.configPath project.settings.outputDir)

include configured

/-- The files of a site have names in its folders. -/
theorem IsSettled.exists_folder (member : file ∈ project.siteFiles config) :
    ∃ dir name, project.IsSiteFolder dir ∧ IsName name ∧ name ≠ ".." ∧
      file.path = (dir.below [name]).text := by
  have absolute := isRead.absolute_output
  have proper := isRead.proper_output
  have outputDir : project.settings.outputDir = project.output.text := rfl
  have below : (project.output.below ["modules"]).IsAbsolute := absolute
  have home : IsName "index.md" := by decide
  have isConfig : IsName "_config.yml" := by decide
  rcases List.mem_append.mp member with isScaffold | isPage
  · simp only [List.mem_cons, List.not_mem_nil, or_false] at isScaffold
    rcases isScaffold with rfl | rfl | rfl
    · exact ⟨_, _, .inl rfl, home, by decide, absolute.join_name proper home⟩
    · refine ⟨project.output.below ["modules"], _, .inr ⟨[], rfl, fun part none => nomatch none⟩,
        home, by decide, ?_⟩
      rw [Site.index, outputDir, Site.pagesFolder_eq absolute proper]
      exact below.join_name (Site.isProper_pagesFolder proper) home
    · exact ⟨_, _, .inl rfl, isConfig, by decide,
        configured.trans (absolute.join_name proper isConfig)⟩
  · obtain ⟨position, inBounds, rfl⟩ := List.mem_mapIdx.mp isPage
    exact settled.exists_folder_of_page isRead tree (List.getElem_mem inBounds)

/-- The path of a file of a site is an absolute one without a detour. -/
theorem IsSettled.path_of_mem (member : file ∈ project.siteFiles config) :
    (CleanPath.ofText file.path).text = file.path ∧ Path.isAbsolute file.path = true := by
  obtain ⟨dir, name, isFolder, isName, -, written⟩ :=
    settled.exists_folder isRead tree configured member
  have fileProper : (dir.below [name]).IsProper :=
    (isFolder.proper isRead.proper_output).below (by simpa using isName)
  rw [written, fileProper.ofText_text]
  exact ⟨rfl, ((isFolder.absolute isRead.absolute_output).below [name]).isAbsolute_text⟩

/-- The folders on the way to a file of a site are not where a run may take things away. -/
theorem IsSettled.not_isDisposable_of_onWay (member : file ∈ project.siteFiles config)
    (way : onWay (CleanPath.ofText file.path).parent place) :
    ¬IsDisposable project.output place := by
  have proper := isRead.proper_output
  obtain ⟨dir, name, isFolder, isName, -, written⟩ :=
    settled.exists_folder isRead tree configured member
  rw [written, (isFolder.proper proper).parent_ofText_below isName] at way
  exact isFolder.not_isDisposable_of_onWay settled.lasting proper way

/-- Where the files of a site stand below its folder. -/
theorem IsSettled.exists_place (member : file ∈ project.siteFiles config)
    (isPath : IsPath file.path) :
    (∃ (position : Nat) (names : List Text),
        [Site.home project.settings.outputDir, Site.index project.settings.outputDir,
          config][position]? = some file ∧
        Site.scaffold[position]? = some names ∧ file.place = project.output.place ++ names) ∨
      ∃ (position : Nat) (module : Module), project.modules[position]? = some module ∧
        file = Run.pageFile project position module ∧
        file.place = project.output.place ++ Site.placeNames (module.path.drop 1) := by
  have absolute := isRead.absolute_output
  have proper := isRead.proper_output
  have outputDir : project.settings.outputDir = project.output.text := rfl
  rcases List.mem_append.mp member with isScaffold | isPage
  · left
    have scaffold (position : Nat) (names : List Text)
        (atPosition : [Site.home project.settings.outputDir, Site.index project.settings.outputDir,
          config][position]? = some file)
        (isNames : Site.scaffold[position]? = some names)
        (written : file.path = (project.output.below names).text) :
        ∃ (position : Nat) (names : List Text),
          [Site.home project.settings.outputDir, Site.index project.settings.outputDir,
            config][position]? = some file ∧
          Site.scaffold[position]? = some names ∧ file.place = project.output.place ++ names := by
      have areNames := Site.isName_of_mem_scaffold (List.mem_of_getElem? isNames)
      refine ⟨position, names, atPosition, isNames, ?_⟩
      rw [TextFile.place, written, (proper.below fun name inNames =>
        (areNames name inNames).toIsName).ofText_text, CleanPath.place_below areNames]
    have home : IsName "index.md" := by decide
    have isConfig : IsName "_config.yml" := by decide
    have below : (project.output.below ["modules"]).IsAbsolute := absolute
    simp only [List.mem_cons, List.not_mem_nil, or_false] at isScaffold
    rcases isScaffold with rfl | rfl | rfl
    · exact scaffold 0 _ rfl rfl (absolute.join_name proper home)
    · refine scaffold 1 _ rfl rfl ?_
      rw [Site.index, outputDir, Site.pagesFolder_eq absolute proper]
      exact (below.join_name (Site.isProper_pagesFolder proper) home).trans
        (by rw [CleanPath.below_below]; rfl)
    · exact scaffold 2 _ rfl rfl (configured.trans (absolute.join_name proper isConfig))
  · right
    obtain ⟨position, inBounds, rfl⟩ := List.mem_mapIdx.mp isPage
    have isModule : project.modules[position] ∈ project.modules := List.getElem_mem inBounds
    refine ⟨position, project.modules[position], List.getElem?_eq_getElem inBounds, rfl, ?_⟩
    obtain ⟨read, -⟩ := Run.IsPublished.ofText_pageFile isRead position isModule
    have pagePath := isRead.isPath_page isModule isPath
    rw [← Site.place_page (isRead.goesDown_of_page tree settled.folder isModule pagePath), ← read]
    rfl

omit configured in
/-- The names of a page end as those of pages do. -/
theorem IsSettled.endsAsPage (isModule : module ∈ project.modules) :
    ∃ front last, Site.placeNames (module.path.drop 1) = front ++ [last] ∧
      Text.endsWith last ".ts.md" = true := by
  obtain ⟨front, name, cut, visible, ends⟩ :=
    isRead.drop_path_of_hasSourceFolder tree settled.folder isModule
  rw [cut, Site.placeNames_eq fun other inNames => (visible other inNames).1]
  refine ⟨_, name ++ ".md", (List.cons_append ..).symm, ?_⟩
  obtain ⟨stem, rfl⟩ := Text.endsWith_iff.mp ends
  exact Text.endsWith_iff.mpr ⟨stem, List.append_assoc stem _ _⟩

/-- No two files of a site stand at one place. -/
theorem IsSettled.eq_of_place (member : file ∈ project.siteFiles config)
    (isOther : other ∈ project.siteFiles config) (isPath : IsPath file.path)
    (isOtherPath : IsPath other.path) (same : file.place = other.place) : file = other := by
  have distinct : Site.scaffold.Nodup := by decide
  have apart {names : List Text} {position : Nat} {module : Module}
      (isScaffold : Site.scaffold[position]? = some names)
      (isModule : module ∈ project.modules)
      (same : project.output.place ++ names =
        project.output.place ++ Site.placeNames (module.path.drop 1)) : False := by
    refine Site.not_endsAsPage_of_mem_scaffold (List.mem_of_getElem? isScaffold) ?_
    rw [List.append_cancel_left same]
    exact settled.endsAsPage isRead tree isModule
  rcases settled.exists_place isRead tree configured member isPath with
    ⟨position, names, written, isNames, place⟩ | ⟨position, module, isModule, rfl, place⟩ <;>
  rcases settled.exists_place isRead tree configured isOther isOtherPath with
    ⟨next, others, otherWritten, areOthers, otherPlace⟩ |
      ⟨next, otherModule, hasOther, rfl, otherPlace⟩ <;>
  rw [place, otherPlace] at same
  · rw [List.append_cancel_left same, ← areOthers] at isNames
    obtain ⟨inBounds, -⟩ := List.getElem?_eq_some_iff.mp areOthers
    have samePosition : next = position := (List.getElem?_inj inBounds distinct).mp isNames.symm
    rw [samePosition, written] at otherWritten
    exact Option.some.inj otherWritten
  · exact (apart isNames (List.mem_of_getElem? hasOther) same).elim
  · exact (apart areOthers (List.mem_of_getElem? isModule) same.symm).elim
  · have sameModule := isRead.module_eq_of_placeNames tree settled.folder
      (List.mem_of_getElem? isModule) (List.mem_of_getElem? hasOther) (List.append_cancel_left same)
    obtain ⟨inBounds, -⟩ := List.getElem?_eq_some_iff.mp isModule
    have once : project.modules.Nodup :=
      List.Nodup.of_map _ (isRead.paths_of_hasSourceFolder tree settled.folder).1
    rw [sameModule, ← hasOther] at isModule
    rw [sameModule, (List.getElem?_inj inBounds once).mp isModule]

end

end Project

end ApiDocs
