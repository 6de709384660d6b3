import ApiDocs.Proofs.Site.Frame

/-!
# Sources are only read

A run reads its sources and writes below the folder of its site, and nothing compares the two
folders.  A source is safe where none of the patterns for a removal reaches: the folder of the
examples, and in a build the pages of earlier runs.  What the site itself writes never has the
ending of a source.

A link on the way of what a run writes or removes may lead to a source, and a link among the sources
may lead to anything, to a file of the site as well.
-/

namespace ApiDocs

open Disk (nowhere target)

namespace Glob

variable {links : Bool} {disk : Disk links} {here place : Location} {found levels names : List Text}
variable {pattern : CleanPath} {path : Text}

/-- Whether a pattern can lead to a place or to one above it, whatever is on the disk. -/
def Reaches (pattern : CleanPath) (place : Location) : Prop :=
  ∃ names, Descent pattern.names names ∧ Disk.isWithin (Disk.follow [] names) place = true

/-- Whether a path to which a pattern can lead passes a place, whatever is on the disk. -/
def Passes (pattern : CleanPath) (place : Location) : Prop :=
  ∃ front rest, Descent pattern.names (front ++ rest) ∧ place = Disk.follow [] front

theorem Descent.of_literal (plain : ∀ level ∈ levels, Wildcard.hasMagic level = false) :
    Descent levels levels := by
  induction levels with
  | nil => exact .nil
  | cons level levels ih =>
      exact .cons (.literal (plain level List.mem_cons_self))
        (ih fun other member => plain other (List.mem_cons_of_mem level member))

theorem Descent.append {front back first second : List Text} (inFront : Descent front first)
    (inBack : Descent back second) : Descent (front ++ back) (first ++ second) := by
  induction inFront with
  | nil => exact inBack
  | cons adds _ ih =>
      rw [List.append_assoc]
      exact .cons adds ih

/-- Levels without wildcards add nothing but themselves. -/
theorem Descent.eq_of_literal (descent : Descent levels names)
    (plain : ∀ level ∈ levels, Wildcard.hasMagic level = false) : names = levels := by
  induction descent with
  | nil => rfl
  | @cons level levels names rest adds _ ih =>
      have own := plain level List.mem_cons_self
      rw [ih fun other member => plain other (List.mem_cons_of_mem level member)]
      suffices names = [level] by rw [this, List.singleton_append]
      cases adds with
      | everything same =>
          rw [same, hasMagic_everything] at own
          cases own
      | fitting _ fits =>
          rw [(Wildcard.fitsText_literal_iff own).mp fits]
      | literal => rfl

/-- The names of what a search finds are names to which its pattern can lead. -/
theorem descent_of_mem_search (tree : disk.IsTree) (absolute : pattern.IsAbsolute)
    (proper : pattern.IsProper) (searched : search disk here pattern.text = .ok found)
    (member : path ∈ found) :
    Path.isAbsolute path = true ∧ Descent pattern.names (Path.names path) := by
  cases magic : Wildcard.hasMagic pattern.text with
  | true =>
      obtain ⟨front, first, others, names, cut, plain, -, descent, read, fromRoot⟩ :=
        exists_descent_of_search tree absolute proper magic searched member
      exact ⟨fromRoot, cut ▸ read ▸ (Descent.of_literal plain).append descent⟩
  | false =>
      rw [search, if_neg (by simp [magic])] at searched
      cases searched
      obtain rfl := Run.mem_single member
      rw [absolute.hasMagic_text, List.any_eq_false] at magic
      rw [proper.names_text]
      exact ⟨absolute.isAbsolute_text, .of_literal (by simpa using magic)⟩

/-- A search finds nothing but what its pattern reaches. -/
theorem reaches_of_search (tree : disk.IsTree) (absolute : pattern.IsAbsolute)
    (proper : pattern.IsProper) (searched : search disk here pattern.text = .ok found)
    (below : Disk.belowPaths here found place) : Reaches pattern place := by
  obtain ⟨path, inFound, inside⟩ := below
  obtain ⟨fromRoot, descent⟩ := descent_of_mem_search tree absolute proper searched inFound
  rw [Disk.belowPath, Disk.target_of_isAbsolute fromRoot] at inside
  exact ⟨_, descent, inside⟩

/-- What a search finds passes places that its pattern passes. -/
theorem passes_of_search (tree : disk.IsTree) (absolute : pattern.IsAbsolute)
    (proper : pattern.IsProper) (searched : search disk here pattern.text = .ok found)
    (member : path ∈ found) (passed : place ∈ Disk.way here path) : Passes pattern place := by
  obtain ⟨fromRoot, descent⟩ := descent_of_mem_search tree absolute proper searched member
  obtain ⟨front, ⟨rest, cut⟩, rfl⟩ := Disk.mem_way_iff_names.mp passed
  rw [Disk.origin, if_pos fromRoot]
  exact ⟨front, rest, cut ▸ descent, rfl⟩

/-- Without wildcards a pattern reaches its own place only. -/
theorem reaches_iff_of_literal (absolute : pattern.IsAbsolute)
    (plain : Wildcard.hasMagic pattern.text = false) :
    Reaches pattern place ↔ Disk.isWithin pattern.place place = true := by
  rw [absolute.hasMagic_text, List.any_eq_false] at plain
  have plain : ∀ level ∈ pattern.names, Wildcard.hasMagic level = false := by simpa using plain
  constructor
  · rintro ⟨names, descent, inside⟩
    rwa [descent.eq_of_literal plain] at inside
  · exact fun inside => ⟨pattern.names, .of_literal plain, inside⟩

/-- Without wildcards a pattern passes the places of its own way only. -/
theorem mem_way_of_passes (absolute : pattern.IsAbsolute) (proper : pattern.IsProper)
    (plain : Wildcard.hasMagic pattern.text = false) (passes : Passes pattern place) :
    place ∈ Disk.way [] pattern.text := by
  rw [absolute.hasMagic_text, List.any_eq_false] at plain
  obtain ⟨front, rest, descent, rfl⟩ := passes
  have own := descent.eq_of_literal (by simpa using plain)
  rw [Disk.mem_way_iff_names, proper.names_text, Disk.origin, if_pos absolute.isAbsolute_text]
  exact ⟨front, ⟨rest, own⟩, rfl⟩

end Glob

namespace Site

variable {output : CleanPath} {place : Location}

/-- The pattern for the pages of earlier runs, as a path. -/
def stale (output : CleanPath) : CleanPath :=
  output.below [Glob.everything, .char '*' :: ".ts.md"]

/-- Without wildcards in the folder of the site, the pattern for stale pages leads to pages. -/
theorem exists_names_of_descent (absolute : output.IsAbsolute)
    (plain : Wildcard.hasMagic output.text = false) {names : List Text}
    (descent : Glob.Descent (stale output).names names) :
    ∃ front name, names = output.names ++ (front ++ [name]) ∧
      (∀ other ∈ front ++ [name], Disk.IsName other) ∧ Text.endsWith name ".ts.md" = true := by
  obtain ⟨first, second, rfl, inOutput, below⟩ := descent.exists_append
  rw [absolute.hasMagic_text, List.any_eq_false] at plain
  obtain rfl := inOutput.eq_of_literal (by simpa using plain)
  rw [← List.singleton_append] at below
  obtain ⟨front, name, rfl, above, isName, visible, ends⟩ :=
    Glob.Descent.exists_concat (by decide) (by decide) below
  refine ⟨front, name, rfl, fun other member => ?_, ends⟩
  rcases List.mem_append.mp member with inFront | isLast
  · exact (above.of_everything other inFront).1
  · rwa [List.mem_singleton.mp isLast]

theorem isPagePlace_of_reaches (absolute : output.IsAbsolute)
    (plain : Wildcard.hasMagic output.text = false)
    (reaches : Glob.Reaches (stale output) place) : IsPagePlace output place := by
  obtain ⟨names, descent, inside⟩ := reaches
  obtain ⟨rest, rfl⟩ := Disk.isWithin_iff.mp inside
  obtain ⟨front, name, rfl, areNames, ends⟩ := exists_names_of_descent absolute plain descent
  rw [Disk.follow_append, Disk.follow_of_isName areNames, List.append_assoc]
  exact ⟨front ++ [name] ++ rest, rfl, name, by simp, ends⟩

theorem onWayOrBelow_of_passes (absolute : output.IsAbsolute) (proper : output.IsProper)
    (plain : Wildcard.hasMagic output.text = false)
    (passes : Glob.Passes (stale output) place) : Run.onWayOrBelow output place := by
  obtain ⟨front, rest, descent, rfl⟩ := passes
  obtain ⟨folders, name, cut, areNames, -⟩ := exists_names_of_descent absolute plain descent
  have below : (output.below (folders ++ [name])).IsProper :=
    proper.below fun other member => (areNames other member).toIsName
  have passed : Disk.follow [] front ∈ Disk.way [] (output.below (folders ++ [name])).text := by
    rw [Disk.mem_way_iff_names, below.names_text, Disk.origin,
      if_pos (absolute.below _).isAbsolute_text]
    exact ⟨front, ⟨rest, cut⟩, rfl⟩
  exact Run.onWayOrBelow_of_mem_way absolute proper
    (absolute.below (folders ++ [name])).isAbsolute_text below.names_text
    (fun other member => (areNames other member).goesDown) passed

/-- The places with a name that the files of a site have: pages, and the configuration. -/
def IsNamedAsSite (place : Location) : Prop :=
  ∃ front name, place = front ++ [name] ∧
    (Text.endsWith name ".md" = true ∨ name = "_config.yml")

theorem isNamedAsSite_of_mem_scaffold {names : List Text} (member : names ∈ scaffold) :
    IsNamedAsSite (output.place ++ names) := by
  obtain ⟨folder, name, rfl, named⟩ : ∃ folder name, names = folder ++ [name] ∧
      (Text.endsWith name ".md" = true ∨ name = "_config.yml") := by
    rw [scaffold] at member
    rcases member with _ | ⟨_, _ | ⟨_, _ | ⟨_, none⟩⟩⟩
    · exact ⟨[], "index.md", by decide⟩
    · exact ⟨["modules"], "index.md", by decide⟩
    · exact ⟨[], "_config.yml", by decide⟩
    · cases none
  exact ⟨output.place ++ folder, name, (List.append_assoc _ _ _).symm, named⟩

/-- The place of a page has the ending of a page, even if its path climbs. -/
theorem exists_place_page (module : Module) :
    ∃ front name, (page module output).place = front ++ [name] ∧
      Text.endsWith name ".md" = true := by
  have last : ∃ front name, pageNames (module.path.drop 1) = front ++ [name ++ (".md" : Text)] := by
    rcases List.eq_nil_or_concat (module.path.drop 1) with none | ⟨front, name, cut⟩
    · exact ⟨[], [], by rw [none]; rfl⟩
    · exact ⟨front, name, by rw [cut, List.concat_eq_append, pageNames_concat]⟩
  obtain ⟨front, name, cut⟩ := last
  have down : ∀ other ∈ [name ++ (".md" : Text)], Disk.GoesDown other := by
    simpa using CleanPath.goesDown_of_ending (by decide) (by decide)
      (rfl : name ++ (".md" : Text) = name ++ (".md" : Text))
  refine ⟨(output.below (("modules" : Text) :: front)).place, Disk.Name.stored name ++ ".md", ?_,
    Text.endsWith_append _ _⟩
  rw [page, cut, ← List.cons_append, ← CleanPath.below_below,
    CleanPath.place_below_of_goesDown down, List.map_singleton, stored_append_md]

theorem isNamedAsSite_page (module : Module) : IsNamedAsSite (page module output).place := by
  obtain ⟨front, name, same, ends⟩ := exists_place_page module
  exact ⟨front, name, same, .inl ends⟩

/-- A name with the ending of a source is not one that a file of a site has. -/
theorem not_isNamedAsSite {front : List Text} {name : Text}
    (ends : Text.endsWith name ".ts" = true) :
    ¬IsNamedAsSite (front ++ [name]) := by
  rintro ⟨others, other, same, named⟩
  obtain ⟨-, single⟩ := List.append_inj' same rfl
  obtain rfl := (List.cons.inj single).1
  rcases named with isPage | rfl
  · obtain ⟨stem, rfl⟩ := Text.endsWith_iff.mp ends
    obtain ⟨other, ended⟩ := Text.endsWith_iff.mp isPage
    have three : (".ts" : Text).length = 3 := rfl
    have alsoThree : (".md" : Text).length = 3 := rfl
    exact absurd (List.append_inj_right' ended (three.trans alsoThree.symm)) (by decide)
  · exact absurd ends (by decide)

end Site

namespace Project

variable {links : Bool} {environment : Environment} {world : World links} {project : Project}
variable {place : Location}

/--
Whether a search for the sources of a project finds a path that leads to a place, up to what was
logged.
-/
def IsSource (project : Project) (world : World links) (place : Location) : Prop :=
  ∃ middle found path, World.OnlyLogs world middle ∧
    Glob.files middle.disk middle.here project.sourcePattern.text project.settings.exclude =
      .ok found ∧
    path ∈ found ∧ middle.disk.locate middle.here path = .ok place

theorem IsSource.of_files {found : List Text} {path : Text}
    (given : (Glob.files world.disk world.here project.sourcePattern.text
      project.settings.exclude).toOption = some found) (member : path ∈ found)
    (located : world.disk.locate world.here path = .ok place) : project.IsSource world place := by
  refine ⟨world, found, path, .refl world, ?_, member, located⟩
  cases files : Glob.files world.disk world.here project.sourcePattern.text
      project.settings.exclude with
  | error error =>
      rw [files] at given
      cases given
  | ok paths =>
      rw [files] at given
      rw [Option.some.inj given]

/-- Where no log file is open, there are no other sources than those that a search finds. -/
theorem IsSource.exists_of_files {found : List Text} (source : project.IsSource world place)
    (noLogs : world.openLogs = [])
    (given : (Glob.files world.disk world.here project.sourcePattern.text
      project.settings.exclude).toOption = some found) :
    ∃ path ∈ found, world.disk.locate world.here path = .ok place := by
  obtain ⟨middle, others, path, logs, searched, member, located⟩ := source
  rw [logs.disk noLogs, logs.here] at searched located
  rw [searched] at given
  exact ⟨path, Option.some.inj given ▸ member, located⟩

/-- The places at which a check of the examples of a project writes files or takes things away. -/
def IsScratch (project : Project) (place : Location) : Prop :=
  Disk.isWithin (Example.folderOf project.output).place place = true ∨
    Glob.Reaches (Example.folderOf project.output) place ∨
      ∃ file ∈ project.examples, Run.placeOf (.ofText file.path) place

/--
The places that a check of the examples passes: on its way to their folder, in it, and to them.
-/
def checkWays (project : Project) (place : Location) : Prop :=
  Run.onWayOrBelow (Example.folderOf project.output) place ∨
    Glob.Passes (Example.folderOf project.output) place ∨
      ∃ file ∈ project.examples, place ∈ Disk.way [] (CleanPath.ofText file.path).text

/--
The places that a build passes when it checks the examples, removes stale pages and writes a site.
-/
def buildWays (project : Project) (place : Location) : Prop :=
  project.checkWays place ∨ Glob.Passes (Site.stale project.output) place ∨ project.siteWays place

namespace IsRead

variable (isRead : project.IsRead environment world)

include isRead

/-- A source is a file.  It has its ending there if no link leads to it. -/
theorem exists_of_isSource (tree : world.disk.IsTree) (source : project.IsSource world place)
    (notLogged : ¬world.IsLogged place) :
    (∃ content, world.disk.file? place = some content) ∧
      ((∀ other, world.disk.linkAt? other = none) →
        ∃ front name, place = front ++ [name] ∧ Text.endsWith name ".ts" = true) := by
  obtain ⟨middle, found, path, logs, given, inFound, located⟩ := source
  rw [Glob.files] at given
  split at given
  · cases given
  · rename_i paths searched
    cases given
    have kept := (List.mergeSort_perm _ _).mem_iff.mp inFound
    obtain ⟨inPaths, isFile⟩ := List.mem_filter.mp kept
    rw [Bool.and_eq_true] at isFile
    constructor
    · obtain ⟨content, standing⟩ := Disk.exists_file_of_hasFile located isFile.1
      refine ⟨content, ?_⟩
      rw [← logs.toEvolves.file _ id notLogged]
      exact Disk.file?_eq_some_iff.mpr standing
    · intro noLinks
      have straight : middle.disk.IsStraight middle.here path := fun other _ =>
        logs.noLink other (noLinks other)
      obtain rfl := Disk.eq_target_of_locate located straight
      obtain ⟨fromRoot, front, name, read, isName, ends⟩ :=
        isRead.exists_names_of_found (logs.tree tree) searched inPaths
      refine ⟨Disk.follow [] front, name, ?_, ends⟩
      rw [Disk.target_of_isAbsolute fromRoot, read, Disk.follow_append,
        Disk.follow_of_isName (by simpa using isName)]

theorem hasMagic_folderOf (plain : project.IsPlain) :
    Wildcard.hasMagic (Example.folderOf project.output).text = false := by
  rw [Example.folderOf, isRead.absolute_output.hasMagic_below, isRead.hasMagic_output plain]
  decide

/-- Without wildcards the pattern for the folder of the examples reaches that folder only. -/
theorem reaches_folderOf_iff (plain : project.IsPlain) :
    Glob.Reaches (Example.folderOf project.output) place ↔
      Disk.isWithin (Example.folderOf project.output).place place = true := by
  have absolute : (Example.folderOf project.output).IsAbsolute := isRead.absolute_output
  exact Glob.reaches_iff_of_literal absolute (isRead.hasMagic_folderOf plain)

/-- Without wildcards and slashes, the check of the examples works in their folder only. -/
theorem isWithin_of_isScratch (plain : project.IsPlain) (names : project.HasNoSlash)
    (scratch : project.IsScratch place) :
    Disk.isWithin (Example.folderOf project.output).place place = true := by
  rcases scratch with within | reaches | ⟨file, member, written⟩
  · exact within
  · exact (isRead.reaches_folderOf_iff plain).mp reaches
  · exact ((Run.isInFolder_of_mem_examples isRead names member).isWrittenIn isRead.absolute_output
      isRead.proper_output).2 place written

/-- Without wildcards and slashes, the check of the examples passes the way to their folder only. -/
theorem onWayOrBelow_of_checkWays (plain : project.IsPlain) (names : project.HasNoSlash)
    (passed : project.checkWays place) :
    Run.onWayOrBelow (Example.folderOf project.output) place := by
  have absolute : (Example.folderOf project.output).IsAbsolute := isRead.absolute_output
  have proper := Example.isProper_folderOf isRead.proper_output
  rcases passed with inScope | passes | ⟨file, member, passed⟩
  · exact inScope
  · exact .inl (Glob.mem_way_of_passes absolute proper (isRead.hasMagic_folderOf plain) passes)
  · exact (Run.isInFolder_of_mem_examples isRead names member).passesOnly isRead.absolute_output
      isRead.proper_output place passed

/-- Without wildcards and slashes, a build passes the ways of its site only. -/
theorem siteWays_of_buildWays (plain : project.IsPlain) (names : project.HasNoSlash)
    (passed : project.buildWays place) : project.siteWays place := by
  rcases passed with inCheck | passes | inSite
  · exact .inl (Example.onWayOrBelow_folderOf isRead.absolute_output isRead.proper_output
      (isRead.onWayOrBelow_of_checkWays plain names inCheck))
  · exact .inl (Site.onWayOrBelow_of_passes isRead.absolute_output isRead.proper_output
      (isRead.hasMagic_output plain) passes)
  · exact inSite

end IsRead

end Project

namespace Run

open Disk (nowhere)
open Example (folderOf)
open Site (IsNamedAsSite stale)
open World (Evolves OnlyLogs)

variable {links : Bool} {environment : Environment} {world : World links} {project : Project}
variable {path : Text} {files folders moreFiles moreFolders free : Location → Prop}

/-- A tree without links at the places of a scope. -/
def IsTreeFree (free : Location → Prop) (world : World links) : Prop :=
  world.disk.IsTree ∧ world.IsFree free

/-- The changes that start from trees without links on their way stay in the scope. -/
theorem isFrame_onTrees (free files folders : Location → Prop) :
    IsFrame (Provided (IsTreeFree free) (@Evolves links files folders)) :=
  (IsFrame.evolves files folders).provided fun _ _ evolves holds =>
    ⟨evolves.tree holds.1, evolves.isFree holds.2⟩

theorem widen_onTrees {α : Type} {step : RunOn links α}
    (kept : Keeps (Provided (IsTreeFree free) (Evolves files folders)) step)
    (inFiles : ∀ place, files place → moreFiles place)
    (inFolders : ∀ place, folders place → moreFolders place) :
    Keeps (Provided (IsTreeFree free) (Evolves moreFiles moreFolders)) step :=
  kept.mono fun _ _ provided holds => (provided holds).mono inFiles inFolders

/-- On a tree, a removal takes away only what its pattern reaches. -/
theorem keeps_remove_reached {pattern : CleanPath} (absolute : pattern.IsAbsolute)
    (proper : pattern.IsProper) (clear : ∀ place, Glob.Passes pattern place → free place) :
    Keeps (Provided (IsTreeFree free) (Evolves (Glob.Reaches pattern) (Glob.Reaches pattern)))
      (remove environment pattern.text : RunOn links Unit) := by
  rintro before ⟨tree, isFree⟩
  refine evolves_remove (fun found searched place below =>
    Glob.reaches_of_search tree absolute proper searched below) ?_
  intro found searched path member place passed
  exact isFree place (clear place (Glob.passes_of_search tree absolute proper searched member passed))

/-- On a tree, files are written at their places. -/
theorem keeps_writeAll_onTrees (part : Text) {list : List TextFile} {schedule : WriteSchedule}
    (written : ∀ file ∈ list, IsWrittenIn files file)
    (passes : ∀ file ∈ list, PassesOnly free (.ofText file.path)) :
    Keeps (Provided (IsTreeFree free) (Evolves files folders))
      (writeAll part list schedule : RunOn links Unit) := fun before holds =>
  (keeps_writeAll part written passes before holds.2).mono (fun _ => id) fun _ => False.elim

section

variable (isRead : project.IsRead environment world)

include isRead

/-- From a tree, the examples are checked at the places for that. -/
theorem keeps_verify_onTrees (clear : ∀ place, project.checkWays place → free place) :
    Keeps (Provided (IsTreeFree free)
      (Evolves project.IsScratch (Glob.Reaches (folderOf project.output))))
      (verify environment project : RunOn links Unit) := by
  have absolute := isRead.absolute_output
  have proper := isRead.proper_output
  have frame := @isFrame_onTrees links free project.IsScratch
    (Glob.Reaches (folderOf project.output))
  refine .bind frame.toIsKept (frame.log _ _ _) fun _ =>
    frame.checkExamples ?_ (fun options => ?_) none ?_
  · refine keeps_writeAll_onTrees examplesPart (fun file member => ?_) fun file member => ?_
    · exact ⟨isAbsolute_of_mem_examples isRead member, fun place written =>
        .inr (.inr ⟨file, member, written⟩)⟩
    · exact fun place passed => clear place (.inr (.inr ⟨file, member, passed⟩))
  · have inFolder {file : TextFile} (member : file ∈ Example.checkerFiles
        (Example.folder project.settings.outputDir) options project.examples) :
        Example.IsInFolder project.output file :=
      isInFolder_of_mem_checkerFiles absolute proper rfl member
    refine keeps_writeAll_onTrees examplesPart (fun file member => ?_) fun file member => ?_
    · exact ((inFolder member).isWrittenIn absolute proper).mono fun _ => .inl
    · exact ((inFolder member).passesOnly absolute proper).mono fun place inScope =>
        clear place (.inl inScope)
  · have folder : Example.folder project.settings.outputDir = (folderOf project.output).text :=
      Example.folder_eq absolute proper
    rw [folder]
    have folderAbsolute : (folderOf project.output).IsAbsolute := absolute
    have removed : Keeps _ (remove environment (folderOf project.output).text : RunOn links Unit) :=
      keeps_remove_reached folderAbsolute (Example.isProper_folderOf proper) fun place passes =>
        clear place (.inr (.inl passes))
    exact widen_onTrees removed (fun place reaches => .inr (.inl reaches)) fun _ => id

/-- The files of a site are written at places with their names. -/
theorem isWrittenIn_of_mem_site {config file : TextFile}
    (configured : config.path = Site.configPath project.settings.outputDir)
    (member : file ∈ [Site.home project.settings.outputDir, Site.index project.settings.outputDir,
      config] ++ Site.pages project.modules project.settings.outputDir) :
    IsWrittenIn IsNamedAsSite file := by
  rcases Site.exists_of_mem_files isRead.absolute_output isRead.proper_output configured member with
    ⟨scaffolded, isScaffold, written, -⟩ | ⟨position, module, atPosition, rfl⟩
  · refine (isWrittenIn_scaffold isRead.absolute_output isRead.proper_output isScaffold written).mono
      ?_
    rintro _ ⟨-, rfl⟩
    exact Site.isNamedAsSite_of_mem_scaffold isScaffold
  · obtain ⟨read, fromRoot⟩ :=
      IsPublished.ofText_pageFile isRead position (List.mem_of_getElem? atPosition)
    refine ⟨fromRoot, ?_⟩
    change ∀ place, placeOf (.ofText (pageFile project position module).path) place → _
    rw [read]
    rintro place ⟨-, rfl⟩
    exact Site.isNamedAsSite_page module

/--
From a tree, publishing takes away what the pattern for stale pages reaches, and writes the site.
-/
theorem keeps_publish_onTrees {files : List TextFile}
    (stalePasses : ∀ place, Glob.Passes (stale project.output) place → free place)
    (written : ∀ file ∈ files, IsWrittenIn IsNamedAsSite file)
    (passes : ∀ file ∈ files, PassesOnly free (.ofText file.path)) :
    Keeps (Provided (IsTreeFree free)
      (Evolves (fun place => Glob.Reaches (stale project.output) place ∨ IsNamedAsSite place)
        (Glob.Reaches (stale project.output))))
      (publish environment project files : RunOn links Unit) := by
  have frame := @isFrame_onTrees links free
    (fun place => Glob.Reaches (stale project.output) place ∨ IsNamedAsSite place)
    (Glob.Reaches (stale project.output))
  have pattern : Site.stalePattern project.settings.outputDir = (stale project.output).text :=
    Site.stalePattern_eq isRead.absolute_output isRead.proper_output
  have absolute : (stale project.output).IsAbsolute := isRead.absolute_output
  have proper : (stale project.output).IsProper := isRead.proper_output.below (by decide)
  refine .bind frame.toIsKept (frame.log _ _ _) fun _ => .bind frame.toIsKept ?_ fun _ =>
    .bind frame.toIsKept ?_ fun _ => frame.log _ _ _
  · rw [pattern]
    exact widen_onTrees (keeps_remove_reached absolute proper stalePasses) (fun _ => .inl)
      fun _ => id
  · exact keeps_writeAll_onTrees mainPart
      (fun file member => (written file member).mono fun _ => .inr) passes

end

variable {middle : World links} {place : Location}

/-- After a project was documented, a check works at the places for the examples only. -/
theorem evolves_check_of_documented (tree : world.disk.IsTree)
    (ended : ending (documented environment path) world = (.ok project, middle))
    (isFree : world.IsFree project.checkWays) :
    Evolves project.IsScratch (Glob.Reaches (folderOf project.output)) world
      (ending (check environment path) world).2 := by
  have isRead := isRead_of_ending_documented ended
  have frame := @isFrame_onTrees links project.checkWays project.IsScratch
    (Glob.Reaches (folderOf project.output))
  have documenting : OnlyLogs world (ending (documented environment path) world).2 :=
    keeps_documented path world
  rw [ended] at documenting
  have verifying : Keeps _ (do
      verify environment project
      log .info mainPart "Documentation check succeeded!"
      return project.modules) :=
    .bind frame.toIsKept (keeps_verify_onTrees isRead fun _ => id) fun _ =>
      .bind frame.toIsKept (frame.log _ _ _) fun _ => .pure frame.toIsKept _
  rw [check_eq, ending_bind_of_ok ended]
  exact frame.trans (frame.logs documenting) (verifying middle) ⟨tree, isFree⟩

/--
After a project was documented, a build works at the places for the examples and for the site.
-/
theorem evolves_build_of_documented (tree : world.disk.IsTree)
    (ended : ending (documented environment path) world = (.ok project, middle))
    (isFree : world.IsFree project.buildWays) :
    Evolves (fun place => project.IsScratch place ∨ Glob.Reaches (stale project.output) place ∨
        IsNamedAsSite place)
      (fun place => Glob.Reaches (folderOf project.output) place ∨
        Glob.Reaches (stale project.output) place) world
      (ending (build environment path) world).2 := by
  have isRead := isRead_of_ending_documented ended
  have frame := @isFrame_onTrees links project.buildWays
    (fun place => project.IsScratch place ∨ Glob.Reaches (stale project.output) place ∨
      IsNamedAsSite place)
    (fun place => Glob.Reaches (folderOf project.output) place ∨
      Glob.Reaches (stale project.output) place)
  have documenting : OnlyLogs world (ending (documented environment path) world).2 :=
    keeps_documented path world
  rw [ended] at documenting
  have verifying := keeps_verify_onTrees isRead fun place passed =>
    show project.buildWays place from .inl passed
  have planning : Keeps _ (plan environment project) :=
    .bind frame.toIsKept (widen_onTrees verifying (fun _ => .inl) fun _ => .inl) fun _ =>
      .bind frame.toIsKept (frame.log _ _ _) fun _ => keeps_siteFiles frame.toIsKept _ _
  rw [build_eq, planned, bind_assoc, ending_bind_of_ok ended, bind_assoc]
  refine frame.trans (frame.logs documenting) ?_ ⟨tree, isFree⟩
  refine frame.toIsKept.ending_bind (planning middle) fun files last planned _ => ?_
  obtain ⟨config, configured, rfl⟩ := files_of_ending_plan planned
  refine frame.toIsKept.ending_bind (frame.refl last) fun _ before isPlan _ => ?_
  cases isPlan
  refine frame.toIsKept.ending_bind ?_ fun _ final _ _ => frame.refl final
  exact widen_onTrees (keeps_publish_onTrees isRead (fun _ passes => .inr (.inl passes))
    (fun file member => isWrittenIn_of_mem_site isRead configured member)
    fun file member => (passesOnly_of_mem_site isRead configured member).2.mono
      fun _ passed => .inr (.inr passed)) (fun _ => .inr) (fun _ => .inr) last

/--
However a run ends, a source stays as it was where the run neither checks examples nor, as a
build, looks for stale pages or writes a site, if no link stands on the ways there.  A run that
does not come to the examples changes nothing.  A source to which no link leads is never a file of
the site.  Without wildcards in the folder of the site and slashes in the declared names, a source
is safe outside of the folder of the examples, and in a build below no page.  Log files are always
written to.
-/
theorem runs_keep_sources (tree : world.disk.IsTree) :
    (∀ failure last, ending (documented environment path) world = (.error failure, last) →
      ∀ place, ¬world.IsLogged place →
        (ending (check environment path) world).2.disk.file? place = world.disk.file? place ∧
        (ending (build environment path) world).2.disk.file? place = world.disk.file? place) ∧
    ∀ project middle, ending (documented environment path) world = (.ok project, middle) →
      ∀ place, project.IsSource world place → ¬world.IsLogged place →
        ∃ content, world.disk.file? place = some content ∧
          ((∀ other, world.disk.linkAt? other = none) → ¬IsNamedAsSite place) ∧
          (¬project.IsScratch place →
            (world.IsFree project.checkWays →
              (ending (check environment path) world).2.disk.file? place = some content) ∧
            (¬Glob.Reaches (stale project.output) place → ¬IsNamedAsSite place →
              world.IsFree project.buildWays →
              (ending (build environment path) world).2.disk.file? place = some content)) ∧
          (project.IsPlain → project.HasNoSlash →
            ¬Disk.isWithin (folderOf project.output).place place →
            (world.IsFree (onWayOrBelow (folderOf project.output)) →
              (ending (check environment path) world).2.disk.file? place = some content) ∧
            (¬Site.IsPagePlace project.output place → ¬IsNamedAsSite place →
              world.IsFree project.siteWays →
              (ending (build environment path) world).2.disk.file? place = some content)) := by
  constructor
  · intro failure last ended place notLogged
    have logs : OnlyLogs world (ending (documented environment path) world).2 :=
      keeps_documented path world
    rw [ended] at logs
    have same : last.disk.file? place = world.disk.file? place := logs.file place id notLogged
    rw [ending_build_of_documented_error ended, check_eq, ending_bind_of_error ended]
    exact ⟨same, same⟩
  · intro project middle ended place source notLogged
    have isRead := isRead_of_ending_documented ended
    obtain ⟨⟨content, standing⟩, hasEnding⟩ := isRead.exists_of_isSource tree source notLogged
    have checked (safe : ¬project.IsScratch place) (isFree : world.IsFree project.checkWays) :
        (ending (check environment path) world).2.disk.file? place = some content :=
      ((evolves_check_of_documented tree ended isFree).file _ safe notLogged).trans standing
    have built (safe : ¬project.IsScratch place)
        (noPage : ¬Glob.Reaches (stale project.output) place) (notSite : ¬IsNamedAsSite place)
        (isFree : world.IsFree project.buildWays) :
        (ending (build environment path) world).2.disk.file? place = some content := by
      refine ((evolves_build_of_documented tree ended isFree).file _ ?_ notLogged).trans standing
      rintro (scratch | reaches | named)
      · exact safe scratch
      · exact noPage reaches
      · exact notSite named
    refine ⟨content, standing, fun noLinks => ?_, fun safe => ⟨checked safe, built safe⟩,
      fun plain names outside => ?_⟩
    · obtain ⟨front, name, rfl, ends⟩ := hasEnding noLinks
      exact Site.not_isNamedAsSite ends
    · have safe := mt (isRead.isWithin_of_isScratch plain names) outside
      refine ⟨fun isFree => ?_, fun noPage notSite isFree => ?_⟩
      · exact checked safe fun place passed =>
          isFree place (isRead.onWayOrBelow_of_checkWays plain names passed)
      · refine built safe ?_ notSite fun place passed =>
          isFree place (isRead.siteWays_of_buildWays plain names passed)
        exact mt (Site.isPagePlace_of_reaches isRead.absolute_output (isRead.hasMagic_output plain))
          noPage

/-- A project with a folder of sources that is a link, and with an example in its one source. -/
def linkedSources : World true :=
  demoWorld "lib" "docs"
    [([("p" : Text), "src"], .folder),
      ([("p" : Text), "src", "a.ts"],
        .file (Text.Utf8.encode "/**\n * @example\n * f()\n */\nimport 'x'\n")),
      ([("p" : Text), "lib"], .link "src"),
      ([("p" : Text), "docs"], .folder)]

/-- A source to which a link leads is there after a build that finds no type checker. -/
theorem build_without_checker_keeps_source :
    ∃ content, linkedSources.disk.file? ["p", "src", "a.ts"] = some content ∧
      (ending (build withoutChecker ".") linkedSources).2.disk.file? ["p", "src", "a.ts"] =
        some content := by
  have reading : succeeds (fun project _ => decide (project.IsPlain ∧ project.HasNoSlash ∧
      ¬Disk.isWithin (folderOf project.output).place [("p" : Text), "src", "a.ts"] ∧
      project.output.place = [("p" : Text), "docs"] ∧
      (∀ pair ∈ linkedSources.disk.entries, pair.2.target?.isSome = true →
        ¬project.siteWays pair.1) ∧
      (Glob.files linkedSources.disk linkedSources.here project.sourcePattern.text
        project.settings.exclude).toOption = some [("/p/lib/a.ts" : Text)]))
      (documented withoutChecker ".") linkedSources = true := by
    decide +kernel
  obtain ⟨project, middle, read, known⟩ := exists_of_succeeds reading
  obtain ⟨plain, names, outside, atOutput, noLinks, found⟩ := of_decide_eq_true known
  have notLogged : ¬linkedSources.IsLogged ["p", "src", "a.ts"] :=
    World.not_isLogged_of_noLogs rfl _
  have located : linkedSources.disk.locate linkedSources.here "/p/lib/a.ts" =
      .ok ["p", "src", "a.ts"] := by decide +kernel
  have source := Project.IsSource.of_files found (List.mem_singleton_self _) located
  have notSite : ¬IsNamedAsSite ([("p" : Text), "src"] ++ [("a.ts" : Text)]) :=
    Site.not_isNamedAsSite (by decide)
  obtain ⟨content, standing, -, -, kept⟩ :=
    (runs_keep_sources (by decide +kernel)).2 project middle read _ source notLogged
  refine ⟨content, standing, (kept plain names outside).2 ?_ notSite
    (World.isFree_of_entries noLinks)⟩
  rintro ⟨rest, same, -⟩
  rw [atOutput] at same
  cases same

/-- A project whose one source lies where the examples are checked. -/
def overlappingWorld : World :=
  demoWorld "docs/examples" "docs"
    [([("p" : Text), "docs"], .folder), ([("p" : Text), "docs", "examples"], .folder),
      ([("p" : Text), "docs", "examples", "a.ts"], .file [104])]

/--
A check that succeeds takes away a source in the folder of the examples.  If that folder is a link
to the sources, a check writes over one of them.
-/
theorem check_removes_source :
    (∃ project middle modules after,
      ending (documented emptySources ".") overlappingWorld = (.ok project, middle) ∧
      project.IsSource overlappingWorld ["p", "docs", "examples", "a.ts"] ∧
      overlappingWorld.disk.file? ["p", "docs", "examples", "a.ts"] = some [104] ∧
      ending (check emptySources ".") overlappingWorld = (.ok modules, after) ∧
      modules.length = 1 ∧ after.disk.file? ["p", "docs", "examples", "a.ts"] = none) ∧
    ∃ project middle report after,
      ending (documented withoutChecker ".") examplesInSources = (.ok project, middle) ∧
      project.IsSource examplesInSources ["p", "src", "index.ts"] ∧
      ending (check withoutChecker ".") examplesInSources = (.error (.examples report), after) ∧
      after.disk.file? ["p", "src", "index.ts"] ≠
        examplesInSources.disk.file? ["p", "src", "index.ts"] := by
  constructor
  · have reading : succeeds (fun project _ => decide (
        (Glob.files overlappingWorld.disk overlappingWorld.here project.sourcePattern.text
          project.settings.exclude).toOption = some [("/p/docs/examples/a.ts" : Text)]))
        (documented emptySources ".") overlappingWorld = true := by
      decide +kernel
    have checking : succeeds (fun modules after => decide (modules.length = 1 ∧
        after.disk.file? ["p", "docs", "examples", "a.ts"] = none))
        (check emptySources ".") overlappingWorld = true := by
      decide +kernel
    have located : overlappingWorld.disk.locate overlappingWorld.here "/p/docs/examples/a.ts" =
        .ok ["p", "docs", "examples", "a.ts"] := by decide +kernel
    obtain ⟨project, middle, read, known⟩ := exists_of_succeeds reading
    obtain ⟨modules, after, checked, gone⟩ := exists_of_succeeds checking
    obtain ⟨one, gone⟩ := of_decide_eq_true gone
    have source :=
      Project.IsSource.of_files (of_decide_eq_true known) (List.mem_singleton_self _) located
    exact ⟨project, middle, modules, after, read, source, by decide +kernel, checked, one, gone⟩
  · have reading : succeeds (fun project _ => decide (
        (Glob.files examplesInSources.disk examplesInSources.here project.sourcePattern.text
          project.settings.exclude).toOption = some [("/p/src/index.ts" : Text)]))
        (documented withoutChecker ".") examplesInSources = true := by
      decide +kernel
    have checking : fails (fun failure => failure matches .examples _)
        (check withoutChecker ".") examplesInSources = true := by
      decide +kernel
    have written : (ending (check withoutChecker ".") examplesInSources).2.disk.file?
        ["p", "src", "index.ts"] ≠ examplesInSources.disk.file? ["p", "src", "index.ts"] := by
      decide +kernel
    have located : examplesInSources.disk.locate examplesInSources.here "/p/src/index.ts" =
        .ok ["p", "src", "index.ts"] := by decide +kernel
    obtain ⟨project, middle, read, known⟩ := exists_of_succeeds reading
    obtain ⟨failure, after, failed, ofExamples⟩ := exists_of_fails checking
    rw [failed] at written
    have source :=
      Project.IsSource.of_files (of_decide_eq_true known) (List.mem_singleton_self _) located
    cases failure with
    | examples report =>
        exact ⟨project, middle, report, after, read, source, failed, written⟩
    | settings | rejected | resource | fault => cases ofExamples

end Run

end ApiDocs
