import ApiDocs.Proofs.Run.Passing
import ApiDocs.Proofs.Site.Config
import ApiDocs.Proofs.Site.Fresh

/-!
# A site that stands

A site stands if its files are there as they would be written, and if a search for stale
pages finds nothing but the pages of its modules.  Publishing it again takes these pages away
and writes them once more, and leaves the disk as it was.
-/

namespace ApiDocs

open Disk (IsPath)

/-- The place where a file is written. -/
def TextFile.place (file : TextFile) : Location :=
  (CleanPath.ofText file.path).place

/-- A file that stands in a folder as it would be written there. -/
structure TextFile.StandsIn (file : TextFile) (dir : CleanPath) (name : Text) (world : World) :
    Prop extends file.FitsIn dir name where
  absolute : dir.IsAbsolute
  proper : dir.IsProper
  located : world.disk.locate world.here dir.text = .ok dir.place
  isFolder : world.disk.entryAt dir.place = some .folder
  standing : world.disk.entryAt file.place = some (.file (Text.Utf8.encode file.content))

namespace TextFile

variable {file : TextFile} {dir : CleanPath} {name : Text} {world after : World}

theorem FitsIn.place_eq (fits : file.FitsIn dir name) (proper : dir.IsProper) :
    file.place = dir.place ++ [Disk.Name.stored name] := by
  have fileProper : (dir.below [name]).IsProper := proper.below (by simpa using fits.isName)
  rw [place, fits.path, fileProper.ofText_text,
    CleanPath.place_below_of_goesDown (by simpa using fits.down)]
  rfl

namespace StandsIn

variable (stands : file.StandsIn dir name world)

include stands

theorem place_eq : file.place = dir.place ++ [Disk.Name.stored name] :=
  stands.toFitsIn.place_eq stands.proper

theorem hasEntry : world.disk.hasEntry world.here file.path = true := by
  have located := stands.locate stands.absolute stands.proper stands.located stands.isFolder
  rw [← stands.path, ← stands.place_eq] at located
  rw [Disk.hasEntry, Disk.find_eq_ok_iff.mpr ⟨located, stands.standing⟩]
  rfl

/-- The text of the file is read, with the ends of its lines unified. -/
theorem readText : world.disk.readText world.here (CleanPath.ofText file.path).text =
    .ok (Text.unifyBreaks file.content) := by
  have located := stands.locate stands.absolute stands.proper stands.located stands.isFolder
  have fileProper : (dir.below [name]).IsProper := stands.proper.below (by simpa using stands.isName)
  have whole : ∀ symbol ∈ file.content, symbol.isHalf = false :=
    Disk.halvesFrom?_eq_none_iff.mp stands.encodable
  have read : world.disk.read world.here (CleanPath.ofText file.path).text =
      .ok (Text.Utf8.encode file.content) := by
    rw [stands.path, fileProper.ofText_text, Disk.read_eq_ok_iff, ← Disk.eq_target_of_locate located,
      Disk.file?_eq_some_iff, ← stands.place_eq]
    exact ⟨stands.place_eq ▸ located, stands.standing⟩
  rw [Disk.readText, read]
  simp only [Text.Utf8.decode_encode whole]

/-- Whether the file replaces what is there makes no difference. -/
theorem with_overwrite (overwrite : Bool) :
    ({ file with overwrite } : TextFile).StandsIn dir name world :=
  { stands with }

theorem of_matches (same : after.Matches world) : file.StandsIn dir name after where
  toFitsIn := stands.toFitsIn
  absolute := stands.absolute
  proper := stands.proper
  located := by
    rw [same.here]
    exact Disk.locate_mono (fun place folder => (same.entries place).trans folder) stands.located
  isFolder := (same.entries _).trans stands.isFolder
  standing := (same.entries _).trans stands.standing

end StandsIn

end TextFile

/-! ## Files that are missing -/

/-- A quiet world without some of the files of another one, which is like it otherwise. -/
structure World.Lacks (lost : Location → Prop) (world origin : World) : Prop where
  quiet : world.IsQuiet
  here : world.here = origin.here
  isFile : ∀ place, lost place → ∃ content, origin.disk.entryAt place = some (.file content)
  gone : ∀ place, lost place → world.disk.entryAt place = none
  same : ∀ place, ¬lost place → world.disk.entryAt place = origin.disk.entryAt place

namespace World.Lacks

variable {lost : Location → Prop} {world origin after : World} {place : Location}
variable (lacks : world.Lacks lost origin)

include lacks

theorem folder (isFolder : origin.disk.entryAt place = some .folder) :
    world.disk.entryAt place = some .folder := by
  rw [lacks.same, isFolder]
  intro isLost
  obtain ⟨content, isFile⟩ := lacks.isFile place isLost
  rw [isFolder] at isFile
  cases isFile

theorem of_logs (logs : OnlyLogs world after) : after.Lacks lost origin where
  quiet := logs.quiet lacks.quiet
  here := logs.here.trans lacks.here
  isFile := lacks.isFile
  gone := fun place isLost => by
    rw [logs.disk lacks.quiet.noLogs]
    exact lacks.gone place isLost
  same := fun place kept => by
    rw [logs.disk lacks.quiet.noLogs]
    exact lacks.same place kept

/-- Without a lost file nothing is different. -/
theorem matches_of_none (none : ∀ place, ¬lost place) : world.Matches origin :=
  ⟨lacks.quiet, lacks.here, fun place => lacks.same place (none place)⟩

end World.Lacks

namespace Run

variable {world origin : World} {lost : Location → Prop} {file : TextFile} {dir : CleanPath}
variable {name : Text} {list : List TextFile} {schedule : Schedule}

/-- A file that stands is written again, and is not lost then. -/
theorem exists_ending_writeText_of_standsIn (lacks : world.Lacks lost origin)
    (stands : file.StandsIn dir name origin) :
    ∃ after, ending (writeText file.path file.content) world = (.ok (), after) ∧
      after.Lacks (fun place => lost place ∧ place ≠ file.place) origin := by
  have located : world.disk.locate world.here dir.text = .ok dir.place := by
    rw [lacks.here]
    exact Disk.locate_mono (fun place => lacks.folder) stands.located
  have free : world.disk.entryAt file.place ≠ some .folder := by
    by_cases isLost : lost file.place
    · rw [lacks.gone _ isLost]
      simp
    · rw [lacks.same _ isLost, stands.standing]
      simp
  have written := stands.write_of_folder stands.absolute stands.proper located
    (lacks.folder stands.isFolder) (stands.place_eq ▸ free) (Text.Utf8.encode file.content)
  rw [← stands.place_eq] at written
  have ended := ending_writeText_of_write stands.encodable written
  have brings : World.Brings (fun _ => True) (fun _ => True) world
      (ending (writeText file.path file.content) world).2 :=
    brings_writeText (stands.isWrittenIn stands.absolute) (fun _ _ => trivial) world
  rw [ended] at brings
  refine ⟨_, ended, (brings lacks.quiet).1, lacks.here, fun place isLost => lacks.isFile place isLost.1,
    fun place isLost => ?_, fun place kept => ?_⟩
  · exact (Disk.entryAt_put_of_ne isLost.2).trans (lacks.gone place isLost.1)
  · rcases eq_or_ne place file.place with rfl | other
    · exact (Disk.entryAt_put_self (Disk.ne_nil_of_entryAt_ne_folder free)).trans
        stands.standing.symm
    · exact (Disk.entryAt_put_of_ne other).trans
        (lacks.same place fun isLost => kept ⟨isLost, other⟩)

/-- Files that stand are written again, and are not lost then. -/
theorem exists_ending_writeFiles_of_standsIn (lacks : world.Lacks lost origin)
    (stand : ∀ file ∈ list, ∃ dir name, file.StandsIn dir name origin) :
    ∃ values after, ending (forEach schedule
          (fun file : TextFile => writeText file.path file.content) list) world =
        (.ok values, after) ∧
      after.Lacks (fun place => lost place ∧ ∀ file ∈ list, place ≠ file.place) origin := by
  have turns : ∀ {jobs : List (TextFile × Nat)} {world : World} {lost : Location → Prop},
      world.Lacks lost origin → (∀ job ∈ jobs, ∃ dir name, job.1.StandsIn dir name origin) →
      ∃ found after, ending (takeTurns schedule
          (fun file : TextFile => writeText file.path file.content) jobs) world =
        (.ok found, after) ∧
      after.Lacks (fun place => lost place ∧ ∀ job ∈ jobs, place ≠ job.1.place) origin := by
    intro jobs world lost lacks stand
    induction jobs generalizing world lost with
    | nil => exact ⟨[], world, ending_takeTurns_nil _ _ world, by simpa using lacks⟩
    | cons job rest ih =>
        obtain ⟨dir, name, stands⟩ := stand job List.mem_cons_self
        obtain ⟨middle, taken, lacksMiddle⟩ := exists_ending_writeText_of_standsIn lacks stands
        obtain ⟨found, after, further, lacksAfter⟩ := ih lacksMiddle fun other member =>
          stand other (List.mem_cons_of_mem job member)
        refine ⟨((), job.2) :: found, after, ending_takeTurns_cons_eq_ok_iff.mpr
          ⟨(), found, middle, taken, further, rfl⟩, ?_⟩
        simpa only [List.forall_mem_cons, and_assoc] using lacksAfter
  obtain ⟨found, after, taken, lacksAfter⟩ :=
    turns lacks fun job isJob => stand job.1 (Schedule.mem_of_mem_arrange isJob)
  refine ⟨_, after, ending_forEach_eq_ok_iff.mpr ⟨found, taken, rfl⟩, ?_⟩
  have elsewhere (place : Location) : (∀ job ∈ schedule.arrange list, place ≠ job.1.place) ↔
      ∀ file ∈ list, place ≠ file.place :=
    schedule.forall_mem_arrange_iff fun file : TextFile => place ≠ file.place
  simpa only [elsewhere] using lacksAfter

end Run

/-! ## The site -/

/-- The configuration of a site as it is written over an existing one. -/
def Project.configFile (project : Project) (config : Text) : TextFile :=
  { path := Site.configPath project.settings.outputDir, content := config, overwrite := true }

/-- The pages of a project. -/
def Project.pages (project : Project) : List TextFile :=
  Site.pages project.modules project.settings.outputDir

theorem Project.overwrite_of_mem_pages (project : Project) {page : TextFile}
    (isPage : page ∈ project.pages) : page.overwrite = true := by
  obtain ⟨position, inBounds, rfl⟩ := List.mem_mapIdx.mp isPage
  rfl

/-- A world in which the site of a project stands with a configuration. -/
structure World.HasSite (project : Project) (config : Text) (world : World) : Prop
    extends world.HasSiteFolder project.output where
  unified : Symbol.char '\r' ∉ config
  upToDate : Site.updateConfig config project.settings = config
  written : ∀ file ∈ project.configFile config :: project.pages, ∃ dir name,
    file.StandsIn dir name world
  found : ∀ file ∈ [Site.home project.settings.outputDir, Site.index project.settings.outputDir],
    world.disk.locate world.here file.path = .ok file.place ∧
      (∃ entry, world.disk.entryAt file.place = some entry) ∧
      ∀ page ∈ project.pages, file.place ≠ page.place
  /-- What looks like a page is one. -/
  onlyPages : ∀ front name entry, (∀ other ∈ front ++ [name], Glob.isHidden other = false) →
    Text.endsWith name ".ts.md" = true →
    IsPath (Path.join project.output.text (Text.joinWith "/" front)) →
    world.disk.entryAt (project.output.place ++ (front ++ [name])) = some entry →
    IsPath (project.output.below (front ++ [name])).text ∧
      ∃ page ∈ project.pages, page.place = project.output.place ++ (front ++ [name])

theorem World.HasSite.of_matches {project : Project} {config : Text} {world after : World}
    (site : world.HasSite project config) (same : after.Matches world) :
    after.HasSite project config where
  toHasSiteFolder := site.toHasSiteFolder.of_matches same
  unified := site.unified
  upToDate := site.upToDate
  written := fun file member => by
    obtain ⟨dir, name, stands⟩ := site.written file member
    exact ⟨dir, name, stands.of_matches same⟩
  found := fun file member => by
    obtain ⟨located, ⟨entry, standing⟩, noPage⟩ := site.found file member
    rw [same.here]
    exact ⟨Disk.locate_mono (fun place folder => (same.entries place).trans folder) located,
      ⟨entry, (same.entries _).trans standing⟩, noPage⟩
  onlyPages := fun front name entry visible ends isPath standing =>
    site.onlyPages front name entry visible ends isPath ((same.entries _).symm.trans standing)

namespace Run

variable {environment : Environment} {world origin after : World} {project : Project}
variable {config : Text}

section Found

variable {found : List Text} (isSearch : Glob.IsSearchBelow project.output ".ts.md")
  (site : world.HasSite project config)
  (searched : Glob.search world.disk world.here
    (project.output.below [Glob.everything, .char '*' :: ".ts.md"]).text = .ok found)

include isSearch site searched

/-- What the search for pages finds is the path of a page of the site. -/
theorem exists_page_of_found {path : Text} (member : path ∈ found) : ∃ names,
    path = (project.output.below names).text ∧
    Disk.target world.here path = project.output.place ++ names ∧
    world.disk.locate world.here path = .ok (Disk.target world.here path) ∧
    ∃ page ∈ project.pages, Disk.target world.here path = page.place := by
  have absolute := isSearch.absolute
  have proper := isSearch.proper
  have clear := absolute.isClear_of_locate proper site.located
  obtain ⟨front, name, entry, rfl, visible, ends, middlePath, standing⟩ :=
    isSearch.exists_entry_of_mem site.quiet.tree searched member
  obtain ⟨isPath, page, isPage, same⟩ := site.onlyPages front name entry
    (fun other inNames => (visible other inNames).2) ends middlePath standing
  have areNames : ∀ other ∈ front ++ [name], Disk.IsName other := fun other inNames =>
    (visible other inNames).1
  have target : Disk.target world.here (project.output.below (front ++ [name])).text =
      project.output.place ++ (front ++ [name]) := by
    rw [(absolute.below _).target_text (proper.below fun other inNames =>
      (areNames other inNames).toIsName), CleanPath.place_below areNames]
  refine ⟨front ++ [name], rfl, target, ?_, page, isPage, target.trans same.symm⟩
  rw [target]
  exact absolute.locate_below site.quiet.tree proper clear (by simp) standing isPath

/-- No page is found twice. -/
theorem nodup_target_of_found : (found.map fun path => Disk.target world.here path).Nodup := by
  refine List.Nodup.map_on (fun path member other isOther same => ?_)
    (List.Nodup.of_map _ (isSearch.nodup_names_of_search site.quiet.tree searched))
  obtain ⟨names, rfl, target, -⟩ := exists_page_of_found isSearch site searched member
  obtain ⟨others, rfl, otherTarget, -⟩ := exists_page_of_found isSearch site searched isOther
  rw [target, otherTarget] at same
  rw [List.append_cancel_left same]

theorem exists_content_of_found {path : Text} (member : path ∈ found) :
    ∃ content, world.disk.entryAt (Disk.target world.here path) = some (.file content) := by
  obtain ⟨names, -, -, -, page, isPage, same⟩ := exists_page_of_found isSearch site searched member
  obtain ⟨dir, name, stands⟩ := site.written page (List.mem_cons_of_mem _ isPage)
  exact ⟨_, same ▸ stands.standing⟩

end Found

/-- The search for stale pages finds pages of the site, and they are taken away. -/
theorem exists_ending_removePages (isSearch : Glob.IsSearchBelow project.output ".ts.md")
    (site : world.HasSite project config) (allowed : environment.removalRefused = none) :
    ∃ lost after, ending (remove environment (Site.stalePattern project.settings.outputDir)) world =
        (.ok (), after) ∧ after.Lacks lost world ∧
      ∀ place, lost place → ∃ page ∈ project.pages, place = page.place := by
  have tree := site.quiet.tree
  have pattern : Site.stalePattern project.settings.outputDir =
      (project.output.below [Glob.everything, .char '*' :: ".ts.md"]).text :=
    Site.stalePattern_eq isSearch.absolute isSearch.proper
  obtain ⟨found, searched⟩ : ∃ found, Glob.search world.disk world.here
      (project.output.below [Glob.everything, .char '*' :: ".ts.md"]).text = .ok found :=
    isSearch.exists_search tree site.quiet.named (Disk.isPath_of_locate site.located).faultless
  have distinct := nodup_target_of_found isSearch site searched
  have areFiles (path : Text) (member : path ∈ found) :=
    exists_content_of_found isSearch site searched member
  have pages (path : Text) (member : path ∈ found) :=
    exists_page_of_found isSearch site searched member
  obtain ⟨left, removed, -, entries⟩ := Disk.exists_removeEach_of_files tree distinct
    fun path member => ⟨(pages path member).choose_spec.2.2.1, areFiles path member⟩
  have ended : ending (remove environment (Site.stalePattern project.settings.outputDir)) world =
      (.ok (), (world.noteRemoval
        (Site.stalePattern project.settings.outputDir)).withDisk left) := by
    rw [pattern, ending_remove_of_search allowed searched, ending_change, World.noteRemoval_disk,
      World.noteRemoval_here, removed]
    rfl
  have brings : World.Brings (fun _ => True) (fun _ => True) world
      (ending (remove environment (Site.stalePattern project.settings.outputDir)) world).2 :=
    brings_remove _ world
  rw [ended] at brings
  refine ⟨(· ∈ found.map fun path => Disk.target world.here path), _, ended,
    ⟨(brings site.quiet).1, rfl, fun place isLost => ?_, fun place isLost => ?_,
      fun place kept => ?_⟩, fun place isLost => ?_⟩
  · obtain ⟨path, member, rfl⟩ := List.mem_map.mp isLost
    exact areFiles path member
  · exact (entries place).trans (if_pos isLost)
  · exact (entries place).trans (if_neg kept)
  · obtain ⟨path, member, rfl⟩ := List.mem_map.mp isLost
    obtain ⟨names, -, -, -, page, isPage, same⟩ := pages path member
    exact ⟨page, isPage, same⟩

/-- An existing configuration that can be read is planned brought up to date. -/
theorem ending_configFile_of_readText {existing : Text}
    (found : world.disk.hasEntry world.here (Site.configPath project.settings.outputDir) = true)
    (read : world.disk.readText world.here
      (CleanPath.ofText (Site.configPath project.settings.outputDir)).text = .ok existing) :
    ending (configFile project.settings) world =
      (.ok (project.configFile (Site.updateConfig existing project.settings)), world) := by
  have there : ending (exists? (Site.configPath project.settings.outputDir)) world =
      (.ok true, world) := by
    rw [exists?, ending_bind_of_ok (ending_get _), found]
    rfl
  have given : ending (readText (Site.configPath project.settings.outputDir)) world =
      (.ok existing, world) := by
    rw [readText, ending_bind_of_ok (ending_get _), read]
    rfl
  rw [configFile]
  refine (ending_bind_of_ok there _).trans ?_
  rw [if_pos rfl]
  exact (ending_bind_of_ok given _).trans rfl

/-- The configuration of a site that stands is planned as it is. -/
theorem ending_configFile_of_site (site : world.HasSite project config) :
    ending (configFile project.settings) world = (.ok (project.configFile config), world) := by
  obtain ⟨dir, name, stands⟩ := site.written _ List.mem_cons_self
  have read : world.disk.readText world.here
      (CleanPath.ofText (Site.configPath project.settings.outputDir)).text = .ok config :=
    stands.readText.trans (congrArg _ (Text.unifyBreaks_of_not_mem site.unified))
  rw [ending_configFile_of_readText stands.hasEntry read, site.upToDate]

/-- Of the files of a site that stands, those are due again that replace what is there. -/
theorem filter_isDue_of_site {lost : Location → Prop} (site : origin.HasSite project config)
    (lacks : world.Lacks lost origin)
    (pages : ∀ place, lost place → ∃ page ∈ project.pages, place = page.place) :
    ([Site.home project.settings.outputDir, Site.index project.settings.outputDir,
      project.configFile config] ++ project.pages).filter world.isDue =
      project.configFile config :: project.pages := by
  have still (file : TextFile) (member : file ∈ [Site.home project.settings.outputDir,
      Site.index project.settings.outputDir]) :
      world.isDue file = false := by
    obtain ⟨located, ⟨entry, standing⟩, noPage⟩ := site.found file member
    have kept : ¬lost file.place := fun isLost => by
      obtain ⟨page, isPage, same⟩ := pages _ isLost
      exact noPage page isPage same
    have there : world.disk.locate world.here file.path = .ok file.place := by
      rw [lacks.here]
      exact Disk.locate_mono (fun place => lacks.folder) located
    rw [World.isDue, Disk.hasEntry,
      Disk.find_eq_ok_iff.mpr ⟨there, (lacks.same _ kept).trans standing⟩]
    simp only [List.mem_cons, List.not_mem_nil, or_false] at member
    rcases member with rfl | rfl <;> rfl
  have home := still (Site.home project.settings.outputDir) (by simp)
  have index := still (Site.index project.settings.outputDir) (by simp)
  rw [List.filter_append, World.filter_isDue_of_overwrite fun page => project.overwrite_of_mem_pages,
    List.filter_cons_of_neg (by rw [home]; exact Bool.false_ne_true),
    List.filter_cons_of_neg (by rw [index]; exact Bool.false_ne_true),
    List.filter_cons_of_pos (by simp [World.isDue, Project.configFile]), List.filter_nil]
  rfl

/-- A site that stands is published again, and nothing is different then. -/
theorem exists_ending_publish_of_site (isSearch : Glob.IsSearchBelow project.output ".ts.md")
    (site : world.HasSite project config) (allowed : environment.removalRefused = none) :
    ∃ after, ending (publish environment project
        ([Site.home project.settings.outputDir, Site.index project.settings.outputDir,
          project.configFile config] ++ project.pages)) world = (.ok (), after) ∧
      after.Matches world := by
  obtain ⟨started, logged, first⟩ :=
    exists_ending_log site.quiet .info mainPart "Writing markdown files..."
  have siteFirst := site.of_matches first
  obtain ⟨lost, cleaned, removed, lacks, pages⟩ :=
    exists_ending_removePages isSearch siteFirst allowed
  obtain ⟨middle, due, appends⟩ := ending_dueFiles (environment.writing .site).checks mainPart
    ([Site.home project.settings.outputDir, Site.index project.settings.outputDir,
      project.configFile config] ++ project.pages) cleaned
  rw [filter_isDue_of_site siteFirst lacks pages] at due
  obtain ⟨values, last, written, lacksLast⟩ :=
    exists_ending_writeFiles_of_standsIn (lacks.of_logs appends.toOnlyLogs) siteFirst.written
  have same := lacksLast.matches_of_none fun place ⟨isLost, elsewhere⟩ => by
    obtain ⟨page, isPage, same⟩ := pages place isLost
    exact elsewhere page (List.mem_cons_of_mem _ isPage) same
  have wrote : ending (writeAll mainPart ([Site.home project.settings.outputDir,
      Site.index project.settings.outputDir, project.configFile config] ++ project.pages)
      (environment.writing .site)) cleaned = (.ok (), last) := by
    rw [writeAll, ending_bind_of_ok due]
    exact ending_bind_of_ok written _
  obtain ⟨after, finished, still⟩ :=
    exists_ending_log same.quiet .info mainPart "Docs generation succeeded!"
  refine ⟨after, ?_, still.trans (same.trans first)⟩
  rw [publish, ending_bind_of_ok logged]
  refine (ending_bind_of_ok removed _).trans ?_
  exact (ending_bind_of_ok wrote _).trans finished

end Run

end ApiDocs
