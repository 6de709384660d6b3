import ApiDocs.Proofs.Site.Fresh

/-!
# What a run leaves alone

Below the folder of its site a run works at three kinds of places: the configuration, the
folder of the examples, and everything that has the ending of a page in one of its names.
Whatever else is there belongs to the user.  A build may write a home page and an index,
but only where it found nothing; and it looks where it writes, as long as every step up on
the way there starts from a folder that stays.

All this holds where the run passes no links: a link in the folder of the site leads out of it.
-/

namespace ApiDocs

open Disk (IsPath)
open Path (names normalNames)

namespace Site

variable {output : CleanPath} {place : Location}

/-- The places below the folder of a site that have the ending of a page in one of their names. -/
def IsPagePlace (output : CleanPath) (place : Location) : Prop :=
  ∃ names, place = output.place ++ names ∧ ∃ name ∈ names, Text.endsWith name ".ts.md" = true

/-- The places of a site at which a run may take things away. -/
def IsDisposable (output : CleanPath) (place : Location) : Prop :=
  Disk.isWithin (Example.folderOf output).place place ∨ IsPagePlace output place

/-- The places of a site that are not left to the user. -/
def IsOwn (output : CleanPath) (place : Location) : Prop :=
  place = output.place ++ [("_config.yml" : Text)] ∨ IsDisposable output place

/-- What lies neither in the folder of the examples nor at or below a page is the user's. -/
theorem not_isOwn {first : Text} {rest : List Text}
    (notConfig : first :: rest ≠ [("_config.yml" : Text)])
    (notExamples : first ≠ "examples")
    (notPage : ∀ name ∈ first :: rest, Text.endsWith name ".ts.md" = false) :
    ¬IsOwn output (output.place ++ first :: rest) := by
  rintro (isConfig | inExamples | ⟨names, same, name, inNames, ends⟩)
  · exact notConfig (List.append_cancel_left isConfig)
  · obtain ⟨others, same⟩ := Disk.isWithin_iff.mp inExamples
    rw [Example.place_folderOf, List.append_assoc] at same
    exact notExamples (List.cons.inj (List.append_cancel_left same)).1
  · rw [← List.append_cancel_left same] at inNames
    rw [notPage name inNames] at ends
    cases ends

/-- The home page is the user's. -/
theorem not_isOwn_home : ¬IsOwn output (output.place ++ [("index.md" : Text)]) :=
  not_isOwn (by decide) (by decide) (by decide)

/-- The index of the modules is the user's. -/
theorem not_isOwn_index : ¬IsOwn output (output.place ++ [("modules" : Text), "index.md"]) :=
  not_isOwn (by decide) (by decide) (by decide)

/-- What lies outside of the folder of the site is the user's. -/
theorem not_isOwn_of_outside (outside : ¬Disk.isWithin output.place place = true) :
    ¬IsOwn output place := by
  rintro (rfl | inExamples | ⟨names, rfl, -⟩)
  · exact outside (Disk.isWithin_iff.mpr ⟨_, rfl⟩)
  · obtain ⟨rest, rfl⟩ := Disk.isWithin_iff.mp inExamples
    rw [Example.place_folderOf, List.append_assoc] at outside
    exact outside (Disk.isWithin_iff.mpr ⟨_, rfl⟩)
  · exact outside (Disk.isWithin_iff.mpr ⟨names, rfl⟩)

/-- What a search for stale pages finds, and all that is below it, are places of pages. -/
theorem isPagePlace_of_found {links : Bool} {disk : Disk links} {here : Location}
    {found : List Text}
    (search : Glob.IsSearchBelow output ".ts.md") (tree : disk.IsTree)
    (searched : Glob.search disk here
      (output.below [Glob.everything, .char '*' :: ".ts.md"]).text = .ok found)
    (below : Disk.belowPaths here found place) : IsPagePlace output place := by
  obtain ⟨path, inFound, inside⟩ := below
  obtain ⟨fromRoot, front, name, read, visible, ends⟩ := search.names_of_mem tree searched inFound
  obtain ⟨rest, rfl⟩ := Disk.isWithin_iff.mp inside
  rw [Disk.target_of_isAbsolute fromRoot, read, List.append_assoc, Disk.follow_append,
    Disk.follow_of_isName fun other member => (visible other member).1]
  exact ⟨front ++ [name] ++ rest, by rw [List.append_assoc]; rfl, name, by simp, ends⟩

/-- The page of a source that never climbs is the place of a page. -/
theorem isPagePlace_page {module : Module} (absolute : output.IsAbsolute)
    (areNames : ∀ part ∈ module.path, Path.IsName part)
    (plain : ∀ part ∈ module.path.drop 1, part ≠ "..") (nonempty : module.path.drop 1 ≠ [])
    (ends : ∀ last, (module.path.drop 1).getLast? = some last → Text.endsWith last ".ts" = true)
    (isPath : IsPath (page module output).text) :
    IsPagePlace output (page module output).place := by
  refine ⟨_, place_page (goesDown_of_mem_page absolute areNames plain isPath), ?_⟩
  obtain ⟨front, last, cut⟩ := (List.eq_nil_or_concat (module.path.drop 1)).resolve_left nonempty
  rw [List.concat_eq_append] at cut
  obtain ⟨stem, rfl⟩ := Text.endsWith_iff.mp (ends last (by simp [cut]))
  have ending : (".ts" : Text) ++ (".md" : Text) = ".ts.md" := by decide
  have shown : Disk.Name.stored (stem ++ (".ts" : Text) ++ (".md" : Text)) =
      Disk.Name.stored stem ++ ".ts.md" := by
    rw [List.append_assoc, ending]
    exact Disk.Name.stored_append_of_isAsciiText stem (Disk.Name.isAsciiText_ofString (by decide))
  refine ⟨Disk.Name.stored stem ++ ".ts.md", ?_, Text.endsWith_iff.mpr ⟨_, rfl⟩⟩
  rw [placeNames, cut, pageNames_concat, ← shown]
  exact List.mem_map_of_mem (by simp)

end Site

namespace Project

/--
Whether the sources of a project are given by names below it, at least one of which stands
for a single folder.
-/
structure HasSourceSegments (project : Project) : Prop where
  relative : Path.isAbsolute project.configured.sourceDir = false
  staysDown : ((".." : Text)) ∉ names project.configured.sourceDir
  segment : ∃ name ∈ names project.configured.sourceDir, name ≠ Glob.everything

instance (project : Project) : Decidable project.HasSourceSegments :=
  decidable_of_iff
    (Path.isAbsolute project.configured.sourceDir = false ∧
      (∀ name ∈ names project.configured.sourceDir, name ≠ "..") ∧
      (names project.configured.sourceDir).any (fun name => name != Glob.everything) = true)
    ⟨fun ⟨relative, staysDown, segment⟩ =>
        ⟨relative, fun up => staysDown _ up rfl, by simpa using segment⟩,
      fun ⟨relative, staysDown, segment⟩ =>
        ⟨relative, fun _ member same => staysDown (same ▸ member), by simpa using segment⟩⟩

/-- The places on the ways of the pages of a project. -/
def pageWays (project : Project) (place : Location) : Prop :=
  ∃ module ∈ project.modules, place ∈ Disk.way [] (Site.page module project.output).text

/-- The places on the ways of what a run works at, and those below the folder of the site. -/
def siteWays (project : Project) (place : Location) : Prop :=
  Run.onWayOrBelow project.output place ∨ project.pageWays place

instance (project : Project) (place : Location) : Decidable (project.siteWays place) :=
  inferInstanceAs (Decidable (Run.onWayOrBelow project.output place ∨
    ∃ module ∈ project.modules, place ∈ Disk.way [] (Site.page module project.output).text))

/-- What the runs on a project need to leave the files of its user alone. -/
structure IsTended {links : Bool} (output : CleanPath) (project : Project) (world : World links) :
    Prop where
  isOutput : project.output = output
  plain : project.IsPlain
  names : project.HasNoSlash
  segments : project.HasSourceSegments
  lasting : project.HasLastingWay world.disk (Site.IsDisposable output)
  noLinks : world.IsFree project.siteWays

namespace IsRead

variable {links : Bool} {environment : Environment} {world : World links} {project : Project}
variable {module : Module} (isRead : project.IsRead environment world)

include isRead

/-- The path of a module that is found below the names for the sources never climbs. -/
theorem path_of_hasSourceSegments (tree : world.disk.IsTree)
    (root : Wildcard.hasMagic project.root.text = false) (segments : project.HasSourceSegments)
    (member : module ∈ project.modules) :
    ((".." : Text)) ∉ module.path ∧ 2 ≤ module.path.length := by
  obtain ⟨middle, found, logs, searched, paths⟩ := isRead.exists_found
  obtain ⟨path, inFound, same⟩ :=
    List.mem_map.mp (paths.subset (List.mem_map_of_mem member))
  have written : project.sourcePattern = project.root.below (names project.configured.sourceDir ++
      [Glob.everything, .char '*' :: ".ts"]) := by
    rw [sourcePattern, source, CleanPath.append_eq_below segments.relative, CleanPath.below_below]
  have proper := isRead.proper_sourcePattern
  have magic := isRead.hasMagic_sourcePattern
  have plain : ∀ name ∈ project.root.names, Wildcard.hasMagic name = false := by
    rw [isRead.absolute.hasMagic_text, List.any_eq_false] at root
    simpa using root
  rw [written] at searched proper magic
  obtain ⟨below, read, fromRoot, known, count⟩ := Glob.exists_names_of_search_below
    (logs.tree tree) isRead.absolute proper plain (by simp) magic searched inFound
  have notUp : ((".." : Text)) ∉ below := by
    intro up
    rcases known _ up with isName | isLevel
    · exact isName.notUp rfl
    · rcases List.mem_append.mp isLevel with inSource | isEnd
      · exact segments.staysDown inSource
      · revert isEnd
        decide
  have path : module.path = below :=
    same.symm.trans (isRead.namesBetween_root fromRoot read notUp)
  rw [path]
  refine ⟨notUp, ?_⟩
  obtain ⟨name, inSource, single⟩ := segments.segment
  have own : 0 < ((names project.configured.sourceDir).filter
      fun level => level != Glob.everything).length :=
    List.length_pos_of_mem (List.mem_filter.mpr ⟨inSource, by simpa using single⟩)
  have last : ([Glob.everything, .char '*' :: (".ts" : Text)].filter
      fun level => level != Glob.everything).length = 1 := by decide
  rw [List.filter_append, List.length_append, last] at count
  omega

/-- The page of every module is the place of a page. -/
theorem isPagePlace_page (tree : world.disk.IsTree)
    (root : Wildcard.hasMagic project.root.text = false) (segments : project.HasSourceSegments)
    (member : module ∈ project.modules) (isPath : IsPath (Site.page module project.output).text) :
    Site.IsPagePlace project.output (Site.page module project.output).place := by
  obtain ⟨notUp, long⟩ := isRead.path_of_hasSourceSegments tree root segments member
  have plain : ∀ part ∈ module.path.drop 1, part ≠ ".." := by
    rintro part inRest rfl
    exact notUp (List.mem_of_mem_drop inRest)
  have goesDown : (module.path.drop 1).head? ≠ some ((".." : Text)) := fun up =>
    plain _ (List.mem_of_head? up) rfl
  have nonempty : module.path.drop 1 ≠ [] := by
    rw [← List.length_pos_iff, List.length_drop]
    omega
  exact Site.isPagePlace_page isRead.absolute_output
    (fun _ inPath => isRead.isName_of_mem_path member inPath) plain nonempty
    (isRead.drop_path tree member goesDown).2 isPath

end IsRead

end Project

namespace Run

open Site (IsDisposable IsOwn IsPagePlace)
open World (Evolves OnlyLogs)

variable {links : Bool} {environment : Environment} {world after : World links} {project : Project}
variable {place : Location} {content : List UInt8} {files : List TextFile} {path : Text}

/-- A world that is a tree, with a file in it that is not written to as a log. -/
structure HasFile (place : Location) (content : List UInt8) (world : World links) : Prop where
  tree : world.disk.IsTree
  file : world.disk.file? place = some content
  notLogged : ¬world.IsLogged place

theorem HasFile.of_evolves {folders : Location → Prop} (hasFile : HasFile place content world)
    (evolves : Evolves (· ≠ place) folders world after) : HasFile place content after where
  tree := evolves.tree hasFile.tree
  file := (evolves.file place (fun differs => differs rfl) hasFile.notLogged).trans hasFile.file
  notLogged := mt evolves.isLogged hasFile.notLogged

/-- A file of the user in a world from which a run can find it. -/
structure Stands (project : Project) (place : Location) (content : List UInt8)
    (world : World links) : Prop extends HasFile place content world where
  lasting : project.HasLastingWay world.disk (IsDisposable project.output)
  noLinks : world.IsFree project.siteWays

theorem Stands.of_evolves (stands : Stands project place content world)
    (evolves : Evolves (· ≠ place) (IsDisposable project.output) world after) :
    Stands project place content after :=
  ⟨stands.toHasFile.of_evolves evolves, stands.lasting.of_evolves evolves,
    evolves.isFree stands.noLinks⟩

section

variable (isRead : project.IsRead environment world) (tree : world.disk.IsTree)
  (plain : project.IsPlain)

include isRead plain

/-- Removing stale pages takes away only what is at the places of pages. -/
theorem evolves_removePages {before : World links} (beforeTree : before.disk.IsTree)
    (noLinks : before.IsFree (onWayOrBelow project.output)) :
    Evolves (IsPagePlace project.output) (IsPagePlace project.output) before
      (ending (remove environment (Site.stalePattern project.settings.outputDir)) before).2 := by
  have pattern : Site.stalePattern project.settings.outputDir =
      (project.output.below [Glob.everything, .char '*' :: ".ts.md"]).text :=
    Site.stalePattern_eq isRead.absolute_output isRead.proper_output
  have search := isSearchBelow_output isRead plain
  rw [pattern]
  refine evolves_remove (fun found searched place below =>
    Site.isPagePlace_of_found search beforeTree searched below) ?_
  intro found searched path member place passed
  obtain ⟨fromRoot, front, name, read, visible, -⟩ :=
    search.names_of_mem beforeTree searched member
  rw [List.append_assoc] at read
  exact noLinks place (onWayOrBelow_of_mem_way search.absolute search.proper fromRoot read
    (fun other inNames => (visible other inNames).1.goesDown) passed)

include tree

/-- The page of a module is written at the place of a page. -/
theorem isWrittenIn_pageFile (segments : project.HasSourceSegments) (position : Nat)
    {module : Module} (member : module ∈ project.modules) :
    IsWrittenIn (IsPagePlace project.output) (pageFile project position module) := by
  obtain ⟨read, fromRoot⟩ := IsPublished.ofText_pageFile isRead position member
  refine ⟨fromRoot, ?_⟩
  rw [read]
  rintro place ⟨isPath, rfl⟩
  exact isRead.isPagePlace_page tree plain.root segments member isPath

end

/-- The way to a file that every site has leads to the folder of the site and then down. -/
theorem passesOnly_scaffold {scaffolded : List Text} (isRead : project.IsRead environment world)
    (member : scaffolded ∈ Site.scaffold) :
    PassesOnly (onWayOrBelow project.output) (project.output.below scaffolded) := by
  have named := Site.isName_of_mem_scaffold member
  have proper : (project.output.below scaffolded).IsProper :=
    isRead.proper_output.below fun name inNames => (named name inNames).toIsName
  have absolute := isRead.absolute_output
  exact fun place passed => onWayOrBelow_of_mem_way absolute isRead.proper_output
    (absolute.below scaffolded).isAbsolute_text proper.names_text
    (fun name inNames => (named name inNames).goesDown) passed

/-- A file that every site has is found where it stands. -/
theorem hasEntry_of_scaffold {scaffolded : List Text} (isRead : project.IsRead environment world)
    (stands : Stands project (project.output.place ++ scaffolded) content after)
    (member : scaffolded ∈ Site.scaffold) (isPath : IsPath (project.output.below scaffolded).text) :
    after.disk.hasEntry after.here (project.output.below scaffolded).text = true := by
  have nonempty : scaffolded ≠ [] := by
    rintro rfl
    exact absurd member (by decide)
  have noLinks : after.IsFree (onWayOrBelow project.output) := fun place inScope =>
    stands.noLinks place (.inl inScope)
  have standing := Disk.file?_eq_some_iff.mp stands.file
  have located : after.disk.locate after.here (project.output.below scaffolded).text = .ok _ :=
    isRead.absolute_output.locate_below stands.tree isRead.proper_output
      (stands.lasting.isClear isRead.proper_output) nonempty standing isPath
      ((passesOnly_scaffold isRead member).isStraight (isRead.absolute_output.below _) noLinks)
  rw [Disk.hasEntry, Disk.find_eq_ok_iff.mpr ⟨located, standing⟩]
  rfl

/-- The files of a site are written on ways that belong to it. -/
theorem passesOnly_of_mem_site {config : TextFile} (isRead : project.IsRead environment world)
    (configured : config.path = Site.configPath project.settings.outputDir) {file : TextFile}
    (member : file ∈ [Site.home project.settings.outputDir, Site.index project.settings.outputDir,
      config] ++ Site.pages project.modules project.settings.outputDir) :
    Path.isAbsolute file.path = true ∧ PassesOnly project.siteWays (.ofText file.path) := by
  rcases Site.exists_of_mem_files isRead.absolute_output isRead.proper_output configured member with
    ⟨scaffolded, isScaffold, written, -⟩ | ⟨position, module, atPosition, rfl⟩
  · have named := Site.isName_of_mem_scaffold isScaffold
    have proper : (project.output.below scaffolded).IsProper :=
      isRead.proper_output.below fun name inNames => (named name inNames).toIsName
    rw [written, proper.ofText_text]
    exact ⟨(isRead.absolute_output.below scaffolded).isAbsolute_text,
      (passesOnly_scaffold isRead isScaffold).mono fun _ => .inl⟩
  · have isModule := List.mem_of_getElem? atPosition
    obtain ⟨read, fromRoot⟩ := IsPublished.ofText_pageFile isRead position isModule
    refine ⟨fromRoot, ?_⟩
    change PassesOnly _ (.ofText (pageFile project position module).path)
    rw [read]
    exact fun place passed => .inr ⟨module, isModule, passed⟩

section

variable {config : TextFile} (isRead : project.IsRead environment world)
  (tree : world.disk.IsTree) (plain : project.IsPlain) (segments : project.HasSourceSegments)
  (configured : config.path = Site.configPath project.settings.outputDir)
  (users : ¬IsOwn project.output place) (stands : Stands project place content after)

include isRead tree plain segments configured users stands

/-- A file of the site that is due is not written over a file of the user. -/
theorem isWrittenIn_of_stands {file : TextFile}
    (member : file ∈ [Site.home project.settings.outputDir, Site.index project.settings.outputDir,
      config] ++ Site.pages project.modules project.settings.outputDir)
    (due : after.isDue file = true) :
    IsWrittenIn (· ≠ place) file := by
  rcases Site.exists_of_mem_files isRead.absolute_output isRead.proper_output configured member with
    ⟨scaffolded, isScaffold, written, replacing, -⟩ | ⟨position, module, atPosition, rfl⟩
  · refine (isWrittenIn_scaffold isRead.absolute_output isRead.proper_output isScaffold written).mono
      ?_
    rintro _ ⟨isPath, rfl⟩ rfl
    rcases Bool.or_eq_true_iff.mp due with missing | replaces
    · rw [written] at isPath missing
      rw [hasEntry_of_scaffold isRead stands isScaffold isPath] at missing
      cases missing
    · exact users (.inl (by rw [replacing replaces]))
  · refine (isWrittenIn_pageFile isRead tree plain segments position
      (List.mem_of_getElem? atPosition)).mono ?_
    rintro _ isPage rfl
    exact users (.inr (.inr isPage))

/-- Publishing a site keeps the files of the user. -/
theorem evolves_publish (planned : files =
      [Site.home project.settings.outputDir, Site.index project.settings.outputDir, config] ++
        Site.pages project.modules project.settings.outputDir) :
    Evolves (· ≠ place) (IsDisposable project.output) after
      (ending (publish environment project files) after).2 := by
  have kept := @Evolves.isKept links (· ≠ place) (IsDisposable project.output)
  have logged (level : Level) (part message : Text) :=
    (@keeps_log links level part message).evolves (· ≠ place) (IsDisposable project.output)
  refine kept.ending_bind (logged _ _ _ after) fun _ before _ toBefore => ?_
  have standsBefore := stands.of_evolves toBefore
  have removed := evolves_removePages isRead plain standsBefore.tree fun other inScope =>
    standsBefore.noLinks other (.inl inScope)
  refine kept.ending_bind (removed.mono ?_ fun _ => .inr) fun _ cleaned _ toCleaned => ?_
  · rintro _ isPage rfl
    exact users (.inr (.inr isPage))
  have standsCleaned := standsBefore.of_evolves toCleaned
  refine kept.ending_bind ?_ fun _ written _ _ => logged _ _ _ written
  refine (evolves_writeAll mainPart (fun file member due => ?_) fun file member => ?_).mono
    (fun _ => id) fun _ => False.elim
  · exact isWrittenIn_of_stands isRead tree plain segments configured users standsCleaned
      (planned ▸ member) due
  · obtain ⟨fromRoot, passes⟩ := passesOnly_of_mem_site isRead configured (planned ▸ member)
    exact passes.isStraight (CleanPath.isAbsolute_ofText_iff.mpr fromRoot) standsCleaned.noLinks

end

/-! ## Runs -/

section

variable {output : CleanPath}
  (tended : ∀ project middle, ending (documented environment path) world = (.ok project, middle) →
    project.IsTended output world)
  (users : ¬IsOwn output place) (hasFile : HasFile place content world)

include tended users hasFile

/--
After a project was documented its files stand as before, and the check of its examples keeps them.
-/
theorem stands_of_ending_documented {middle : World links}
    (ended : ending (documented environment path) world = (.ok project, middle)) :
    Stands project place content middle ∧
      Evolves (· ≠ place) (IsDisposable project.output) middle
        (ending (verify environment project) middle).2 ∧
      Evolves (· ≠ place) (IsDisposable project.output) middle
        (ending (plan environment project) middle).2 := by
  obtain ⟨rfl, plain, names, -, lasting, noLinks⟩ := tended project middle ended
  have isRead := isRead_of_ending_documented ended
  have onlyLogs : OnlyLogs world (ending (documented environment path) world).2 :=
    keeps_documented path world
  rw [ended] at onlyLogs
  have stands : Stands project place content world := ⟨hasFile, lasting, noLinks⟩
  have standsNow := stands.of_evolves (onlyLogs.evolves _ _)
  have wide : ∀ other, belowPlace (Example.folderOf project.output) other → other ≠ place := by
    rintro _ inFolder rfl
    exact users (.inr (.inl inFolder))
  have inFolder {file : TextFile} (member : file ∈ project.examples) :
      Example.IsInFolder project.output file := isInFolder_of_mem_examples isRead names member
  have clear : ∀ other, onWayOrBelow (Example.folderOf project.output) other →
      project.siteWays other := fun other inScope =>
    .inl (Example.onWayOrBelow_folderOf isRead.absolute_output isRead.proper_output inScope)
  have written : ∀ file ∈ project.examples, IsWrittenIn (· ≠ place) file := fun file member =>
    ((inFolder member).isWrittenIn isRead.absolute_output isRead.proper_output).mono wide
  have passes : ∀ file ∈ project.examples, PassesOnly project.siteWays (.ofText file.path) :=
    fun file member =>
      ((inFolder member).passesOnly isRead.absolute_output isRead.proper_output).mono clear
  have verified := keeps_verify isRead plain clear wide written passes middle standsNow.noLinks
  have planned := keeps_plan isRead plain clear wide written passes middle standsNow.noLinks
  exact ⟨standsNow, verified.mono (fun _ => id) fun _ => .inl, planned.mono (fun _ => id) fun _ => .inl⟩

/-- A check keeps the files of the user, however it ends. -/
theorem evolves_check :
    Evolves (· ≠ place) (IsDisposable output) world (ending (check environment path) world).2 := by
  have kept := @Evolves.isKept links (· ≠ place) (IsDisposable output)
  rw [check_eq]
  refine kept.ending_bind ((keeps_documented path).evolves _ _ world) fun project middle ended _ => ?_
  obtain ⟨-, verified, -⟩ := stands_of_ending_documented tended users hasFile ended
  obtain ⟨rfl, -⟩ := tended project middle ended
  exact kept.ending_bind verified fun _ last _ _ =>
    kept.ending_bind ((keeps_log _ _ _).evolves _ _ last) fun _ _ _ _ => kept.refl _

/-- A build keeps the files of the user, however it ends. -/
theorem evolves_build :
    Evolves (· ≠ place) (IsDisposable output) world (ending (build environment path) world).2 := by
  have kept := @Evolves.isKept links (· ≠ place) (IsDisposable output)
  rw [build_eq, planned]
  simp only [bind_assoc, pure_bind]
  refine kept.ending_bind ((keeps_documented path).evolves _ _ world) fun project middle ended _ => ?_
  obtain ⟨stands, -, planning⟩ := stands_of_ending_documented tended users hasFile ended
  obtain ⟨rfl, plain, -, segments, -⟩ := tended project middle ended
  have isRead := isRead_of_ending_documented ended
  refine kept.ending_bind planning fun files last planned toLast => ?_
  obtain ⟨config, configured, isPlan⟩ := files_of_ending_plan planned
  exact kept.ending_bind (evolves_publish isRead hasFile.tree plain segments configured users
    (stands.of_evolves toLast) isPlan) fun _ _ _ _ => kept.refl _

end

end Run

end ApiDocs
