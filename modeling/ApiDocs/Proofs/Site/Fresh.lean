import ApiDocs.Proofs.Run.Writing
import ApiDocs.Proofs.Site.Placement

/-!
# No stale pages and no missing ones

A build removes the pages of earlier runs before it writes the new ones.  The removal finds
every page below the folder of the site, as long as every step up on the way to that folder
starts from a folder: after it, neither a page nor a log file stands in the place of one.
Then the pages that are written are all there are.

All this is said of disks without links, on which a place is reached by one path only.
-/

namespace ApiDocs

open Disk (GoesDown IsPath)
open Path (IsName names)

namespace CleanPath

variable {path : CleanPath} {name : Text}

/-- Every symbol in a name of a path that the disk takes has bytes. -/
theorem IsAbsolute.hasBytes (absolute : path.IsAbsolute) (isPath : IsPath path.text)
    (member : name ∈ path.names) : ∀ symbol ∈ name, Disk.Name.isStray symbol = false := by
  intro symbol inName
  refine (Disk.pathFault?_eq_none_iff.mp isPath.faultless).1 symbol ?_
  rw [absolute.text_eq]
  exact List.mem_append_right _ (Text.mem_joinWith_of_mem member inName)

/-- The text of a path with names as the disk shows them is a path as well. -/
theorem IsAbsolute.isPath_stored {names : List Text} (absolute : path.IsAbsolute)
    (proper : path.IsProper) (areNames : ∀ name ∈ names, IsName name)
    (down : ∀ name ∈ names, GoesDown name) (nonempty : names ≠ [])
    (isPath : IsPath (path.below names).text) :
    IsPath (path.below (names.map Disk.Name.stored)).text := by
  have stored : ∀ name ∈ names.map Disk.Name.stored, IsName name := by
    intro name member
    obtain ⟨original, inNames, rfl⟩ := List.mem_map.mp member
    refine ⟨(down original inNames).nonempty, ?_, (down original inNames).notHere⟩
    rw [Disk.Name.char_mem_stored_iff (by decide)]
    exact (areNames original inNames).whole
  have shown := Path.isAbsolute_joinWith stored
  have written := absolute.join_text proper areNames nonempty
  have storedWritten := absolute.join_text proper stored (by simpa using nonempty)
  rw [← Disk.Name.stored_joinWith_slash] at shown storedWritten
  rw [← written] at isPath
  rw [← storedWritten]
  exact Disk.isPath_join_stored absolute.isAbsolute_text (Path.isAbsolute_joinWith areNames) shown
    isPath

end CleanPath

namespace Glob

theorem isHidden_of_isHidden_stored {name : Text}
    (hasBytes : ∀ symbol ∈ name, Disk.Name.isStray symbol = false)
    (hidden : isHidden (Disk.Name.stored name) = true) : isHidden name = true := by
  obtain ⟨rest, shown⟩ := Text.startsWith_iff.mp hidden
  obtain ⟨others, rfl, -⟩ := Disk.Name.exists_of_stored_eq_cons (by decide) hasBytes shown
  exact Text.startsWith_iff.mpr ⟨others, rfl⟩

theorem isHidden_cons (first : Symbol) (rest : Text) :
    isHidden (first :: rest) = decide (Symbol.char '.' = first) := by
  change Option.isSome (if Symbol.char '.' = first then some rest else none) = _
  by_cases point : Symbol.char '.' = first <;> simp [point]

theorem isHidden_append {name : Text} (nonempty : name ≠ []) (more : Text) :
    isHidden (name ++ more) = isHidden name := by
  obtain ⟨first, rest, rfl⟩ := List.exists_cons_of_ne_nil nonempty
  rw [List.cons_append, isHidden_cons, isHidden_cons]

end Glob

namespace Site

variable {output : CleanPath} {names : List Text} {module : Module}

/--
Names below the folder of a site that lead to a page: none is hidden, and the last has its ending.
-/
structure IsShownPage (names : List Text) : Prop where
  shown : ∀ name ∈ names, Glob.isHidden name = false
  ending : ∃ front last, names = front ++ [last] ∧ Text.endsWith last ".ts.md" = true

theorem stalePattern_eq (absolute : output.IsAbsolute) (proper : output.IsProper) :
    stalePattern output.text = (output.below [Glob.everything, .char '*' :: ".ts.md"]).text :=
  Glob.join_everything absolute proper (by decide)

/-- The names of a page below the folder of the site, as the disk shows them. -/
def placeNames (parts : List Text) : List Text :=
  (("modules" : Text) :: pageNames parts).map Disk.Name.stored

theorem stored_append_md (name : Text) :
    Disk.Name.stored (name ++ ".md") = Disk.Name.stored name ++ ".md" :=
  Disk.Name.stored_append_of_isAsciiText name (Disk.Name.isAsciiText_ofString (by decide))

theorem placeNames_eq {source front : List Text} {name : Text}
    (named : ∀ other ∈ front ++ [name], Disk.IsName other) :
    placeNames (source ++ front ++ [name]) =
      ("modules" : Text) :: (source.map Disk.Name.stored ++ front ++ [name ++ ".md"]) := by
  have folder : Disk.Name.stored "modules" = "modules" :=
    Disk.Name.stored_of_isAsciiText (Disk.Name.isAsciiText_ofString (by decide))
  have frontShown : front.map Disk.Name.stored = front :=
    Disk.map_stored_of_isName fun other member => named other (List.mem_append_left _ member)
  rw [placeNames, pageNames_concat, List.map_cons, List.map_append, List.map_append, folder,
    frontShown, List.map_singleton, stored_append_md, (named name (by simp)).shown]

/-- The page of a source that is not hidden is not hidden either. -/
theorem isShownPage_placeNames {source front : List Text} {name : Text}
    (sourceShown : ∀ other ∈ source, Glob.isHidden other = false)
    (hasBytes : ∀ other ∈ source, ∀ symbol ∈ other, Disk.Name.isStray symbol = false)
    (visible : ∀ other ∈ front ++ [name], Disk.IsName other ∧ Glob.isHidden other = false)
    (ends : Text.endsWith name ".ts" = true) :
    IsShownPage (placeNames (source ++ front ++ [name])) := by
  rw [placeNames_eq fun other member => (visible other member).1]
  obtain ⟨isName, nameShown⟩ := visible name (by simp)
  constructor
  · intro other member
    simp only [List.mem_cons, List.mem_append, List.mem_map, List.not_mem_nil, or_false] at member
    rcases member with rfl | (⟨original, inSource, rfl⟩ | inFront) | rfl
    · rfl
    · rw [Bool.eq_false_iff]
      intro hidden
      have original := Glob.isHidden_of_isHidden_stored (hasBytes original inSource) hidden
      rw [sourceShown _ inSource] at original
      cases original
    · exact (visible other (List.mem_append_left _ inFront)).2
    · rw [Glob.isHidden_append isName.nonempty, nameShown]
  · refine ⟨("modules" : Text) :: (source.map Disk.Name.stored ++ front), name ++ ".md", rfl, ?_⟩
    obtain ⟨stem, rfl⟩ := Text.endsWith_iff.mp ends
    exact Text.endsWith_iff.mpr ⟨stem, List.append_assoc stem _ _⟩

theorem goesDown_of_mem_page (absolute : output.IsAbsolute)
    (areNames : ∀ part ∈ module.path, IsName part)
    (plain : ∀ part ∈ module.path.drop 1, part ≠ "..")
    (isPath : IsPath (page module output).text) :
    ∀ name ∈ ("modules" : Text) :: pageNames (module.path.drop 1), GoesDown name := by
  intro name member
  have pageAbsolute : (page module output).IsAbsolute := absolute
  have inPage : name ∈ (page module output).names := List.mem_append_right _ member
  rcases List.mem_cons.mp member with rfl | inNames
  · exact Disk.goesDown_of_isName (by decide) (by decide) (pageAbsolute.hasBytes isPath inPage)
  · exact Disk.goesDown_of_isName
      (isName_of_mem_pageNames (fun part inRest => areNames part (List.mem_of_mem_drop inRest))
        inNames)
      (ne_up_of_mem_pageNames plain inNames) (pageAbsolute.hasBytes isPath inPage)

theorem place_page
    (down : ∀ name ∈ ("modules" : Text) :: pageNames (module.path.drop 1), GoesDown name) :
    (page module output).place = output.place ++ placeNames (module.path.drop 1) :=
  CleanPath.place_below_of_goesDown down

/-! ## The files that every site has -/

/-- The names of the files that every site has: its home page, its index and its configuration. -/
def scaffold : List (List Text) :=
  [["index.md"], ["modules", "index.md"], ["_config.yml"]]

theorem isName_of_mem_scaffold (member : names ∈ scaffold) : ∀ name ∈ names, Disk.IsName name := by
  have all : ∀ names ∈ scaffold, ∀ name ∈ names, Disk.IsName name := by decide +kernel
  exact all names member

theorem not_endsAsPage_of_mem_scaffold (member : names ∈ scaffold) :
    ¬∃ front last, names = front ++ [last] ∧ Text.endsWith last ".ts.md" = true := by
  have all : ∀ names ∈ scaffold, ∃ front last : List Text, names = front ++ last ∧
      last.length = 1 ∧ ∀ name ∈ last, Text.endsWith name ".ts.md" = false := by
    intro names member
    rw [scaffold] at member
    rcases member with _ | ⟨_, _ | ⟨_, _ | ⟨_, none⟩⟩⟩
    · exact ⟨[], ["index.md"], by decide⟩
    · exact ⟨["modules"], ["index.md"], by decide⟩
    · exact ⟨[], ["_config.yml"], by decide⟩
    · cases none
  rintro ⟨others, name, same, ends⟩
  obtain ⟨front, last, rfl, one, notPage⟩ := all names member
  obtain ⟨-, rfl⟩ := List.append_inj' same one
  rw [notPage name (List.mem_singleton_self _)] at ends
  cases ends

/--
Each file of a site is one that every site has, or the page of a module.  Of the former
only the configuration may replace what is there.
-/
theorem exists_of_mem_files (absolute : output.IsAbsolute) (proper : output.IsProper)
    {config file : TextFile} {modules : List Module}
    (configured : config.path = configPath output.text)
    (member : file ∈ [home output.text, index output.text, config] ++ pages modules output.text) :
    (∃ names ∈ scaffold, file.path = (output.below names).text ∧
        (file.overwrite = true → names = [("_config.yml" : Text)]) ∧
        (names = [("_config.yml" : Text)] → file = config)) ∨
      ∃ (position : Nat) (module : Module), modules[position]? = some module ∧
        file =
          { path := pagePath module output.text
            content := Page.text module position
            overwrite := true } := by
  have below : (output.below ["modules"]).IsAbsolute := absolute
  rcases List.mem_append.mp member with isScaffold | isPage
  · left
    simp only [List.mem_cons, List.not_mem_nil, or_false] at isScaffold
    rcases isScaffold with rfl | rfl | rfl
    · have isName : IsName "index.md" := by decide
      exact ⟨["index.md"], by decide, absolute.join_name proper isName, fun never => (nomatch never),
        fun same => absurd same (by decide)⟩
    · refine ⟨["modules", "index.md"], by decide, ?_, fun never => (nomatch never),
        fun same => absurd same (by decide)⟩
      rw [index, pagesFolder_eq absolute proper,
        below.join_name (isProper_pagesFolder proper) (by decide), CleanPath.below_below]
      rfl
    · have isName : IsName "_config.yml" := by decide
      exact ⟨["_config.yml"], by decide, configured.trans (absolute.join_name proper isName),
        fun _ => rfl, fun _ => rfl⟩
  · right
    obtain ⟨position, inBounds, rfl⟩ := List.mem_mapIdx.mp isPage
    exact ⟨position, modules[position], List.getElem?_eq_getElem inBounds, rfl⟩

end Site

namespace Run

open Site (IsShownPage)
open World (OnlyLogs)

variable {environment : Environment} {world after : World} {output : CleanPath} {names : List Text}

/-- After the stale pages were removed, nothing that a search for them finds is left. -/
theorem nothing_after_removal {front : List Text} {last : Text}
    (search : Glob.IsSearchBelow output ".ts.md") (tree : world.disk.IsTree)
    (clear : world.disk.IsClear output.text)
    (removed : ending (remove environment
      (output.below [Glob.everything, .char '*' :: ".ts.md"]).text) world = (.ok (), after))
    (visible : ∀ name ∈ front ++ [last], Glob.isHidden name = false)
    (ends : Text.endsWith last ".ts.md" = true)
    (isPath : IsPath (Path.join output.text (Text.joinWith "/" front))) :
    after.disk.entryAt (output.place ++ (front ++ [last])) = none := by
  have atOutput : Disk.target world.here output.text = output.place :=
    search.absolute.target_text search.proper world.here
  have shrinks := shrinks_remove environment
    (output.below [Glob.everything, .char '*' :: ".ts.md"]).text world
  rw [removed] at shrinks
  obtain ⟨found, left, searched, taken, rfl⟩ := exists_of_ending_remove removed
  change left.entryAt (output.place ++ (front ++ [last])) = none
  by_contra standing
  obtain ⟨entry, standing⟩ := Option.ne_none_iff_exists'.mp standing
  have before := shrinks.entryAt standing
  rw [← atOutput, ← List.append_assoc] at before
  obtain ⟨path, inFound, same⟩ :=
    search.exists_mem_of_entry tree clear searched before visible ends isPath
  rw [atOutput, List.append_assoc] at same
  have belowRoot : Disk.target world.here path ≠ [] := by
    rw [same]
    simp
  have nothing := Disk.entryAt_of_removeEach taken inFound belowRoot
  rw [same, standing] at nothing
  cases nothing

/-- After the stale pages were removed, neither a page nor a log file stands in the place of one. -/
theorem no_page_after_removal (search : Glob.IsSearchBelow output ".ts.md")
    (tree : world.disk.IsTree) (clear : world.disk.IsClear output.text)
    (removed : ending (remove environment
      (output.below [Glob.everything, .char '*' :: ".ts.md"]).text) world = (.ok (), after))
    (shown : IsShownPage names) (isPath : IsPath (output.below names).text) :
    after.disk.file? (output.place ++ names) = none ∧ ¬after.IsLogged (output.place ++ names) := by
  have shrinks := shrinks_remove environment
    (output.below [Glob.everything, .char '*' :: ".ts.md"]).text world
  rw [removed] at shrinks
  obtain ⟨front, last, rfl, ends⟩ := shown.ending
  have gone : after.disk.file? (output.place ++ (front ++ [last])) = none := by
    by_contra standing
    obtain ⟨content, standing⟩ := Option.ne_none_iff_exists'.mp standing
    rw [Disk.file?_eq_some_iff] at standing
    have before := shrinks.entryAt standing
    have areNames : ∀ name ∈ front ++ [last], IsName name := fun name member =>
      (tree.isName_of_mem before (List.mem_append_right _ member)).toIsName
    rw [nothing_after_removal search tree clear removed shown.shown ends
      (search.isPath_join areNames isPath)] at standing
    cases standing
  refine ⟨gone, ?_⟩
  obtain ⟨found, left, -, -, rfl⟩ := exists_of_ending_remove removed
  rintro ⟨log, isOpen, atPlace⟩
  obtain ⟨-, isFile⟩ := World.mem_openLogs_withDisk_iff.mp isOpen
  obtain ⟨-, content, standing⟩ := (Disk.hasFile_iff).mp isFile
  have atLog : Disk.target world.here log = output.place ++ (front ++ [last]) := atPlace (by simp)
  have gone : left.file? (output.place ++ (front ++ [last])) = none := gone
  rw [World.noteRemoval_here, atLog, ← Disk.file?_eq_some_iff, gone] at standing
  cases standing

end Run

namespace Project

/-- Whether the sources of a project are in a folder of their own below it that is not hidden. -/
structure HasShownSourceFolder (project : Project) : Prop extends HasSourceFolder project where
  shown : ∀ name ∈ names project.configured.sourceDir, Glob.isHidden name = false

instance (project : Project) : Decidable project.HasShownSourceFolder :=
  decidable_of_iff
    (project.HasSourceFolder ∧
      ∀ name ∈ names project.configured.sourceDir, Glob.isHidden name = false)
    ⟨fun ⟨folder, shown⟩ => ⟨folder, shown⟩, fun ⟨folder, shown⟩ => ⟨folder, shown⟩⟩

/--
Whether every step up on the way to the folder of the site starts from a folder, and none
from one in a scope of folders that may be gone.
-/
def HasLastingWay {links : Bool} (project : Project) (disk : Disk links)
    (folders : Location → Prop) : Prop :=
  ∀ front name rest, project.output.names = front ++ name :: rest → Disk.Name.stored name = ".." →
    disk.entryAt (Disk.follow [] front) = some .folder ∧ ¬folders (Disk.follow [] front)

section

variable {links : Bool} {project : Project} {disk : Disk links} {files folders : Location → Prop}
variable {before after : World links}

/-- A way without steps up is a lasting one. -/
theorem hasLastingWay_of_plain
    (plain : ∀ name ∈ project.output.names, Disk.Name.stored name ≠ "..") :
    project.HasLastingWay disk folders := by
  intro front name rest cut up
  exact absurd up (plain name (by simp [cut]))

theorem HasLastingWay.of_evolves (lasting : project.HasLastingWay before.disk folders)
    (evolves : World.Evolves files folders before after) :
    project.HasLastingWay after.disk folders := by
  intro front name rest cut up
  obtain ⟨folder, stays⟩ := lasting front name rest cut up
  exact ⟨evolves.folder _ stays folder, stays⟩

/-- A lasting way does not lead through folders that may be gone, if its end is not one of them. -/
theorem HasLastingWay.not_folders {front rest : List Text}
    (lasting : project.HasLastingWay disk folders)
    (below : ∀ place name, folders place → folders (place ++ [name]))
    (outside : ¬folders project.output.place) (cut : project.output.names = front ++ rest) :
    ¬folders (Disk.follow [] front) := by
  intro inFolders
  induction rest generalizing front with
  | nil =>
      rw [List.append_nil] at cut
      rw [← cut] at inFolders
      exact outside inFolders
  | cons name rest ih =>
      have notUp : Disk.Name.stored name ≠ ".." := fun up =>
        (lasting front name rest cut up).2 inFolders
      have next : folders (Disk.follow [] (front ++ [name])) := by
        rw [Disk.follow_append]
        change folders (Disk.advance _ (Disk.Name.stored name))
        rw [Disk.advance, if_neg notUp]
        split
        · exact inFolders
        · exact below _ _ inFolders
      exact ih (by rw [cut, List.append_assoc]; rfl) next

theorem HasLastingWay.isClear (lasting : project.HasLastingWay disk folders)
    (proper : project.output.IsProper) : disk.IsClear project.output.text := by
  intro front name rest cut up
  rw [proper.names_text] at cut
  exact (lasting front name rest cut up).1

end

namespace IsRead

variable {environment : Environment} {world : World} {project : Project} {module other : Module}
variable (isRead : project.IsRead environment world) (tree : world.disk.IsTree)
  (folder : project.HasSourceFolder)

include isRead tree folder

/-- The path of a module without its first part. -/
theorem drop_path_of_hasSourceFolder (member : module ∈ project.modules) : ∃ front name,
    module.path.drop 1 = (names project.configured.sourceDir).drop 1 ++ front ++ [name] ∧
      (∀ other ∈ front ++ [name], Disk.IsName other ∧ Glob.isHidden other = false) ∧
        Text.endsWith name ".ts" = true := by
  obtain ⟨-, paths⟩ := isRead.paths_of_hasSourceFolder tree folder
  obtain ⟨front, name, same, visible, ends⟩ := paths module member
  obtain ⟨first, rest, source⟩ := List.exists_cons_of_ne_nil folder.nonempty
  refine ⟨front, name, ?_, visible, ends⟩
  rw [same, source]
  rfl

theorem goesDown_of_page (member : module ∈ project.modules)
    (isPath : IsPath (Site.page module project.output).text) :
    ∀ name ∈ ("modules" : Text) :: Site.pageNames (module.path.drop 1), GoesDown name := by
  refine Site.goesDown_of_mem_page isRead.absolute_output
    (fun part inPath => isRead.isName_of_mem_path member inPath) ?_ isPath
  obtain ⟨front, name, same, visible, -⟩ := isRead.drop_path_of_hasSourceFolder tree folder member
  rintro part inRest rfl
  rw [same, List.append_assoc] at inRest
  rcases List.mem_append.mp inRest with inSource | inFile
  · exact folder.staysDown (List.mem_of_mem_drop inSource)
  · exact (visible _ inFile).1.notUp rfl

/-- The page of a module, as the disk shows it, is one that a search can find. -/
theorem isShownPage
    (shown : ∀ name ∈ names project.configured.sourceDir, Glob.isHidden name = false)
    (member : module ∈ project.modules)
    (isPath : IsPath (Site.page module project.output).text) :
    Site.IsShownPage (Site.placeNames (module.path.drop 1)) := by
  obtain ⟨front, name, same, visible, ends⟩ :=
    isRead.drop_path_of_hasSourceFolder tree folder member
  have pageAbsolute : (Site.page module project.output).IsAbsolute := isRead.absolute_output
  rw [same]
  refine Site.isShownPage_placeNames (fun other inSource => shown other
    (List.mem_of_mem_drop inSource)) (fun other inSource => ?_) visible ends
  refine pageAbsolute.hasBytes isPath (List.mem_append_right _ (List.mem_cons_of_mem _ ?_))
  rw [same, Site.pageNames_concat]
  exact List.mem_append_left _ (List.mem_append_left _ inSource)

/-- Two modules whose pages have the same place are the same. -/
theorem module_eq_of_placeNames (isModule : module ∈ project.modules)
    (isOther : other ∈ project.modules)
    (same : Site.placeNames (module.path.drop 1) = Site.placeNames (other.path.drop 1)) :
    module = other := by
  obtain ⟨distinct, paths⟩ := isRead.paths_of_hasSourceFolder tree folder
  obtain ⟨front, name, path, visible, -⟩ := paths module isModule
  obtain ⟨otherFront, otherName, otherPath, otherVisible, -⟩ := paths other isOther
  obtain ⟨first, rest, source⟩ := List.exists_cons_of_ne_nil folder.nonempty
  rw [source] at path otherPath
  have cut : module.path.drop 1 = rest ++ front ++ [name] := by rw [path]; rfl
  have otherCut : other.path.drop 1 = rest ++ otherFront ++ [otherName] := by rw [otherPath]; rfl
  rw [cut, otherCut, Site.placeNames_eq fun part member => (visible part member).1,
    Site.placeNames_eq fun part member => (otherVisible part member).1] at same
  obtain ⟨fronts, lasts⟩ := List.append_inj' (List.cons.inj same).2 rfl
  have sameFront : front = otherFront := List.append_cancel_left fronts
  have sameName : name = otherName := List.append_cancel_right (List.cons.inj lasts).1
  refine List.inj_on_of_nodup_map distinct isModule isOther ?_
  rw [path, otherPath, sameFront, sameName]

end IsRead

end Project

namespace Run

open Site (IsShownPage pagePath)
open World (Evolves OnlyLogs)

variable {environment : Environment} {world after : World} {project : Project} {path : Text}
variable {names : List Text} {module : Module}

section

variable {output : CleanPath} {file : TextFile} {scaffolded : List Text}
  (absolute : output.IsAbsolute) (proper : output.IsProper) (member : scaffolded ∈ Site.scaffold)
  (written : file.path = (output.below scaffolded).text)

include absolute proper member written

/-- A file that every site has is written at its place. -/
theorem isWrittenIn_scaffold :
    IsWrittenIn (fun place => IsPath file.path ∧ place = output.place ++ scaffolded) file := by
  have named := Site.isName_of_mem_scaffold member
  have fileProper : (output.below scaffolded).IsProper :=
    proper.below fun name inNames => (named name inNames).toIsName
  rw [IsWrittenIn, written, fileProper.ofText_text]
  refine ⟨(absolute.below scaffolded).isAbsolute_text, ?_⟩
  rintro place ⟨isPath, rfl⟩
  exact ⟨isPath, CleanPath.place_below named⟩

/-- A file that every site has is not written where a page stands. -/
theorem isWrittenIn_of_scaffold (shown : IsShownPage names) :
    IsWrittenIn (· ≠ output.place ++ names) file := by
  refine (isWrittenIn_scaffold absolute proper member written).mono ?_
  rintro place ⟨-, rfl⟩ same
  exact Site.not_endsAsPage_of_mem_scaffold member (List.append_cancel_left same ▸ shown.ending)

end

/-- The page of the module at a position, as it is written. -/
def pageFile (project : Project) (position : Nat) (module : Module) : TextFile :=
  { path := pagePath module project.settings.outputDir
    content := Page.text module position
    overwrite := true }

/-- A world in which a site was just published, and how it came from a cleaned one. -/
structure IsPublished (project : Project) (cleaned after : World) : Prop where
  /-- Neither a page nor a log file stood in the place of a page. -/
  noPage : ∀ names, IsShownPage names → IsPath (project.output.below names).text →
    cleaned.disk.file? (project.output.place ++ names) = none ∧
      ¬cleaned.IsLogged (project.output.place ++ names)
  tree : cleaned.disk.IsTree
  /-- What was written is what every site has and the pages of the modules. -/
  written : ∃ (schedule : Schedule) (middle last : World) (due : List TextFile)
      (values : List Unit), OnlyLogs cleaned middle ∧
    ending (forEach schedule (fun file : TextFile => writeText file.path file.content) due) middle =
      (.ok values, last) ∧ OnlyLogs last after ∧
    (∀ file ∈ due,
      (∃ scaffolded ∈ Site.scaffold, file.path = (project.output.below scaffolded).text) ∨
      ∃ position module, project.modules[position]? = some module ∧
        file = pageFile project position module) ∧
    ∀ position module, project.modules[position]? = some module →
      pageFile project position module ∈ due

namespace IsPublished

variable {cleaned : World} {position : Nat} (isRead : project.IsRead environment world)
  (tree : world.disk.IsTree) (folder : project.HasShownSourceFolder)
  (published : IsPublished project cleaned after)

theorem ofText_pageFile {links : Bool} {world : World links}
    (isRead : project.IsRead environment world) (position : Nat)
    (member : module ∈ project.modules) :
    CleanPath.ofText (pageFile project position module).path = Site.page module project.output ∧
      Path.isAbsolute (pageFile project position module).path = true := by
  have areNames : ∀ part ∈ module.path, IsName part := fun _ inPath =>
    isRead.isName_of_mem_path member inPath
  have written : pagePath module project.settings.outputDir =
      (Site.page module project.output).text :=
    Site.pagePath_eq isRead.absolute_output isRead.proper_output areNames
  have pageAbsolute : (Site.page module project.output).IsAbsolute := isRead.absolute_output
  rw [pageFile, written, (Site.isProper_page isRead.proper_output areNames).ofText_text]
  exact ⟨rfl, pageAbsolute.isAbsolute_text⟩

include isRead in
theorem isWrittenIn_anywhere {file : TextFile}
    (ofSite : (∃ scaffolded ∈ Site.scaffold,
        file.path = (project.output.below scaffolded).text) ∨
      ∃ position module, project.modules[position]? = some module ∧
        file = pageFile project position module) :
    IsWrittenIn (fun _ => True) file := by
  refine ⟨?_, fun _ _ => trivial⟩
  rcases ofSite with ⟨scaffolded, -, written⟩ | ⟨position, module, atPosition, rfl⟩
  · have absolute : (project.output.below scaffolded).IsAbsolute := isRead.absolute_output
    exact written ▸ absolute.isAbsolute_text
  · exact (ofText_pageFile isRead position (List.mem_of_getElem? atPosition)).2

include isRead published

/-- After the site was published the disk is a tree. -/
theorem tree_after : after.disk.IsTree := by
  obtain ⟨_, middle, last, due, values, logs, ended, finished, all, -⟩ := published.written
  have evolves := evolves_of_ending_writeFiles
    (fun file isDue => isWrittenIn_anywhere isRead (all file isDue)) ended
  exact finished.tree (evolves.tree (logs.tree published.tree))

theorem isPath_page (atPosition : project.modules[position]? = some module) :
    IsPath (Site.page module project.output).text := by
  have member := List.mem_of_getElem? atPosition
  obtain ⟨_, middle, last, due, values, -, ended, -, -, pages⟩ := published.written
  have isPath := isPath_of_ending_writeFiles ended (pages position module atPosition)
  rwa [(ofText_pageFile isRead position member).1] at isPath

include tree folder

theorem place_page (atPosition : project.modules[position]? = some module) :
    (Site.page module project.output).place =
      project.output.place ++ Site.placeNames (module.path.drop 1) :=
  Site.place_page (isRead.goesDown_of_page tree folder.toHasSourceFolder
    (List.mem_of_getElem? atPosition) (isPath_page isRead published atPosition))

theorem isShownPage_page (atPosition : project.modules[position]? = some module) :
    IsShownPage (Site.placeNames (module.path.drop 1)) :=
  isRead.isShownPage tree folder.toHasSourceFolder folder.shown (List.mem_of_getElem? atPosition)
    (isPath_page isRead published atPosition)

theorem isWrittenIn_of_page (isModule : project.modules[position]? = some module)
    (differs : project.output.place ++ Site.placeNames (module.path.drop 1) ≠
      project.output.place ++ names) :
    IsWrittenIn (· ≠ project.output.place ++ names) (pageFile project position module) := by
  obtain ⟨read, fromRoot⟩ := ofText_pageFile isRead position (List.mem_of_getElem? isModule)
  rw [IsWrittenIn, read]
  refine ⟨fromRoot, ?_⟩
  rintro place ⟨-, rfl⟩
  rwa [place_page isRead tree folder published isModule]

/-- The files of the site are written elsewhere than at a place where no module has its page. -/
theorem isWrittenIn_of_due {file : TextFile} (shown : IsShownPage names)
    (ofSite : (∃ scaffolded ∈ Site.scaffold,
        file.path = (project.output.below scaffolded).text) ∨
      ∃ position module, project.modules[position]? = some module ∧
        file = pageFile project position module)
    (differs : ∀ position module, project.modules[position]? = some module →
      file = pageFile project position module →
      project.output.place ++ Site.placeNames (module.path.drop 1) ≠
        project.output.place ++ names) :
    IsWrittenIn (· ≠ project.output.place ++ names) file := by
  rcases ofSite with ⟨scaffolded, member, written⟩ | ⟨position, module, isModule, rfl⟩
  · exact isWrittenIn_of_scaffold isRead.absolute_output isRead.proper_output member written shown
  · exact isWrittenIn_of_page isRead tree folder published isModule
      (differs position module isModule rfl)

/-- No log file stood in the place of a page. -/
theorem notLogged_page (atPosition : project.modules[position]? = some module) :
    ¬cleaned.IsLogged (Site.page module project.output).place := by
  have member := List.mem_of_getElem? atPosition
  have isPath := isPath_page isRead published atPosition
  have areNames : ∀ part ∈ module.path, IsName part := fun _ inPath =>
    isRead.isName_of_mem_path member inPath
  have storedPath : IsPath (project.output.below (Site.placeNames (module.path.drop 1))).text :=
    isRead.absolute_output.isPath_stored isRead.proper_output
      (fun name inNames => Site.isProper_page isRead.proper_output areNames name
        (List.mem_append_right _ inNames))
      (isRead.goesDown_of_page tree folder.toHasSourceFolder member isPath) (List.cons_ne_nil _ _)
      isPath
  rw [place_page isRead tree folder published atPosition]
  exact (published.noPage _ (isShownPage_page isRead tree folder published atPosition)
    storedPath).2

/-- Every module has its page, and the page has the content for the module at its position. -/
theorem read_page (atPosition : project.modules[position]? = some module) :
    after.disk.read after.here (Site.page module project.output).text =
      .ok (Text.Utf8.encode (Page.text module position)) := by
  have member := List.mem_of_getElem? atPosition
  obtain ⟨read, fromRoot⟩ := ofText_pageFile isRead position member
  have pageAbsolute : (Site.page module project.output).IsAbsolute := isRead.absolute_output
  have pageProper := CleanPath.isProper_ofText (pageFile project position module).path
  rw [read] at pageProper
  have place := place_page isRead tree folder published atPosition
  have shown := isShownPage_page isRead tree folder published atPosition
  have notLogged := notLogged_page isRead tree folder published atPosition
  obtain ⟨_, middle, last, due, values, logs, ended, finished, all, pages⟩ := published.written
  have modulesDistinct : project.modules.Nodup :=
    (isRead.paths_of_hasSourceFolder tree folder.toHasSourceFolder).1.of_map _
  have others (other : TextFile) (isDue : other ∈ due)
      (differs : other ≠ pageFile project position module) :
      IsWrittenIn (· ≠ (Site.page module project.output).place) other := by
    rw [place]
    refine isWrittenIn_of_due isRead tree folder published shown (all other isDue) ?_
    rintro otherPosition otherModule isModule rfl samePlace
    obtain rfl := isRead.module_eq_of_placeNames tree folder.toHasSourceFolder
      (List.mem_of_getElem? isModule) member
      (List.append_cancel_left samePlace)
    have inBounds := (List.getElem?_eq_some_iff.mp isModule).1
    have samePosition : otherPosition = position :=
      (List.getElem?_inj inBounds modulesDistinct).mp (isModule.trans atPosition.symm)
    exact differs (by rw [samePosition])
  have anywhere (file : TextFile) (isDue : file ∈ due) : IsWrittenIn (fun _ => True) file :=
    isWrittenIn_anywhere isRead (all file isDue)
  have notLoggedMiddle : ¬middle.IsLogged (Site.page module project.output).place :=
    mt logs.isLogged notLogged
  have evolves := evolves_of_ending_writeFiles anywhere ended
  have readable := read_of_ending_writeFiles ended (pages position module atPosition) fromRoot
    (by rwa [read]) (by rwa [read])
  rw [read] at readable
  refine finished.toEvolves.read id ?_ readable
  rw [pageAbsolute.target_text pageProper]
  exact mt evolves.isLogged notLoggedMiddle

/-- There are no other pages than those of the modules. -/
theorem exists_page_of_read {content : List UInt8} (named : ∀ name ∈ names, Disk.IsName name)
    (shown : IsShownPage names)
    (readable : after.disk.read after.here (project.output.below names).text = .ok content) :
    ∃ (position : Nat) (module : Module), project.modules[position]? = some module ∧
      (Site.page module project.output).place = project.output.place ++ names ∧
        content = Text.Utf8.encode (Page.text module position) := by
  obtain ⟨located, standing⟩ := (Disk.read_eq_ok_iff).mp readable
  have isPath := Disk.isPath_of_locate located
  have properBelow : (project.output.below names).IsProper :=
    isRead.proper_output.below fun name member => (named name member).toIsName
  have absoluteBelow : (project.output.below names).IsAbsolute := isRead.absolute_output
  rw [absoluteBelow.target_text properBelow, CleanPath.place_below named] at standing
  by_cases isPage : ∃ (position : Nat) (module : Module), project.modules[position]? = some module ∧
      (Site.page module project.output).place = project.output.place ++ names
  · obtain ⟨position, module, atPosition, same⟩ := isPage
    refine ⟨position, module, atPosition, same, ?_⟩
    have pageAbsolute : (Site.page module project.output).IsAbsolute := isRead.absolute_output
    have pageProper := CleanPath.isProper_ofText (pageFile project position module).path
    rw [(ofText_pageFile isRead position (List.mem_of_getElem? atPosition)).1] at pageProper
    obtain ⟨-, written⟩ :=
      (Disk.read_eq_ok_iff).mp (read_page isRead tree folder published atPosition)
    rw [pageAbsolute.target_text pageProper, same, standing] at written
    exact Option.some.inj written
  · exfalso
    obtain ⟨nothing, notLogged⟩ := published.noPage names shown isPath
    obtain ⟨_, middle, last, due, values, logs, ended, finished, all, -⟩ := published.written
    have elsewhere (file : TextFile) (isDue : file ∈ due) :
        IsWrittenIn (· ≠ project.output.place ++ names) file := by
      refine isWrittenIn_of_due isRead tree folder published shown (all file isDue) ?_
      rintro position module atPosition - same
      rw [← place_page isRead tree folder published atPosition] at same
      exact isPage ⟨position, module, atPosition, same⟩
    have evolves := evolves_of_ending_writeFiles elsewhere ended
    have whole : World.Evolves (· ≠ project.output.place ++ names) Disk.nowhere cleaned after :=
      ((logs.evolves _ _).trans evolves).trans (finished.evolves _ _)
    rw [whole.file _ (fun differs => differs rfl) notLogged, nothing] at standing
    cases standing

end IsPublished

/-- What the removal of stale pages searches. -/
theorem isSearchBelow_output {links : Bool} {world : World links}
    (isRead : project.IsRead environment world) (plain : project.IsPlain) :
    Glob.IsSearchBelow project.output ".ts.md" where
  absolute := isRead.absolute_output
  proper := isRead.proper_output
  plain := by
    have noMagic := isRead.hasMagic_output plain
    intro name member
    rw [isRead.absolute_output.hasMagic_text, List.any_eq_false] at noMagic
    simpa using noMagic name member
  plainEnding := by decide
  wholeEnding := by decide
  nonemptyEnding := by decide

/-- A build that succeeds publishes the site of its project. -/
theorem exists_isPublished {read : World} {modules : List Module} (tree : world.disk.IsTree)
    (documented : ending (documented environment path) world = (.ok project, read))
    (built : ending (build environment path) world = (.ok modules, after))
    (plain : project.IsPlain)
    (lasting : project.HasLastingWay world.disk (belowPlace (Example.folderOf project.output))) :
    modules = project.modules ∧ ∃ cleaned, IsPublished project cleaned after := by
  have isRead := isRead_of_ending_documented documented
  obtain ⟨same, files, last, planned, published⟩ := exists_plan_and_publish documented built
  obtain ⟨config, configured, rfl⟩ := files_of_ending_plan planned
  obtain ⟨before, cleaned, middle, values, final, logs, removed, appends, written, finished⟩ :=
    exists_of_ending_publish published
  have toRead : OnlyLogs world (ending (Run.documented environment path) world).2 :=
    keeps_documented path world
  rw [documented] at toRead
  have anywhere (file : TextFile) (member : file ∈ project.examples) :
      IsWrittenIn (fun _ => True) file :=
    ⟨isAbsolute_of_mem_examples isRead member, fun _ _ => trivial⟩
  have passes : ∀ place, onWayOrBelow (Example.folderOf project.output) place →
      (fun _ : Location => True) place := fun _ _ => trivial
  have toLast := keeps_plan isRead plain passes (fun _ _ => trivial) anywhere
    (fun _ _ _ _ => trivial) read (read.isFree _)
  rw [planned] at toLast
  have toBefore := ((toRead.evolves _ _).trans toLast).trans (logs.evolves _ _)
  have search := isSearchBelow_output isRead plain
  have pattern : Site.stalePattern project.settings.outputDir =
      (project.output.below [Glob.everything, .char '*' :: ".ts.md"]).text :=
    Site.stalePattern_eq isRead.absolute_output isRead.proper_output
  rw [pattern] at removed
  have toCleaned : Evolves (fun _ => True) (fun _ => True) before (ending (remove environment
      (project.output.below [Glob.everything, .char '*' :: ".ts.md"]).text) before).2 :=
    evolves_remove fun _ _ _ _ => trivial
  rw [removed] at toCleaned
  refine ⟨same, cleaned, ?_, ?_, ?_⟩
  · exact fun names shown isPath => no_page_after_removal search (toBefore.tree tree)
      ((lasting.of_evolves toBefore).isClear isRead.proper_output) removed shown isPath
  · exact toCleaned.tree (toBefore.tree tree)
  · refine ⟨_, middle, final, _, values, appends.toOnlyLogs, written, finished, fun file isDue => ?_,
      fun position module atPosition => List.mem_filter.mpr ⟨?_, World.isDue_of_overwrite rfl⟩⟩
    · refine (Site.exists_of_mem_files isRead.absolute_output isRead.proper_output configured
        (List.mem_of_mem_filter isDue)).imp_left ?_
      rintro ⟨scaffolded, member, written, -⟩
      exact ⟨scaffolded, member, written⟩
    · obtain ⟨inBounds, rfl⟩ := List.getElem?_eq_some_iff.mp atPosition
      exact List.mem_append_right _ (List.mem_mapIdx.mpr ⟨position, inBounds, rfl⟩)

/--
After a build that succeeds, every module has its page below the folder of the site, with
the content for its position, and every page that can be read there is one of them.
-/
theorem build_leaves_pages_of_modules {read : World} {modules : List Module}
    (tree : world.disk.IsTree)
    (documented : ending (documented environment path) world = (.ok project, read))
    (built : ending (build environment path) world = (.ok modules, after))
    (plain : project.IsPlain) (folder : project.HasShownSourceFolder)
    (lasting : project.HasLastingWay world.disk (belowPlace (Example.folderOf project.output))) :
    modules = project.modules ∧
    (∀ (position : Nat) (module : Module), modules[position]? = some module →
      (∃ names, (∀ name ∈ names, Disk.IsName name) ∧ IsShownPage names ∧
        Disk.target after.here (pagePath module project.settings.outputDir) =
          Disk.target after.here project.settings.outputDir ++ names) ∧
      after.disk.read after.here (pagePath module project.settings.outputDir) =
        .ok (Text.Utf8.encode (Page.text module position))) ∧
    ∀ names content, (∀ name ∈ names, Disk.IsName name) → IsShownPage names →
      after.disk.read after.here
          (Path.join project.settings.outputDir (Text.joinWith "/" names)) = .ok content →
      ∃ (position : Nat) (module : Module), modules[position]? = some module ∧
        Disk.target after.here (pagePath module project.settings.outputDir) =
          Disk.target after.here project.settings.outputDir ++ names ∧
        content = Text.Utf8.encode (Page.text module position) := by
  have isRead := isRead_of_ending_documented documented
  obtain ⟨rfl, cleaned, published⟩ := exists_isPublished tree documented built plain lasting
  have shownTree := published.tree_after isRead
  have absolute := isRead.absolute_output
  have proper := isRead.proper_output
  have atOutput : Disk.target after.here project.settings.outputDir = project.output.place :=
    absolute.target_text proper after.here
  have pageText {module : Module} (member : module ∈ project.modules) :
      pagePath module project.settings.outputDir = (Site.page module project.output).text :=
    Site.pagePath_eq absolute proper fun _ inPath => isRead.isName_of_mem_path member inPath
  have atPage {module : Module} (member : module ∈ project.modules) :
      Disk.target after.here (pagePath module project.settings.outputDir) =
        (Site.page module project.output).place := by
    have pageAbsolute : (Site.page module project.output).IsAbsolute := absolute
    rw [pageText member]
    exact pageAbsolute.target_text (Site.isProper_page proper fun _ inPath =>
      isRead.isName_of_mem_path member inPath) after.here
  refine ⟨rfl, fun position module atPosition => ?_, fun names content named shown readable => ?_⟩
  · have member := List.mem_of_getElem? atPosition
    have readable := published.read_page isRead tree folder atPosition
    rw [← pageText member] at readable
    refine ⟨⟨Site.placeNames (module.path.drop 1), ?_,
      published.isShownPage_page isRead tree folder atPosition, ?_⟩, readable⟩
    · obtain ⟨-, standing⟩ := (Disk.read_eq_ok_iff).mp readable
      rw [atPage member, published.place_page isRead tree folder atPosition,
        Disk.file?_eq_some_iff] at standing
      exact fun name inNames => shownTree.isName_of_mem standing (List.mem_append_right _ inNames)
    · rw [atPage member, atOutput, published.place_page isRead tree folder atPosition]
  · have nonempty : names ≠ [] := by
      obtain ⟨front, last, rfl, -⟩ := shown.ending
      simp
    have written : Path.join project.settings.outputDir (Text.joinWith "/" names) =
        (project.output.below names).text :=
      absolute.join_text proper (fun name member => (named name member).toIsName) nonempty
    rw [written] at readable
    obtain ⟨position, module, atPosition, same, isContent⟩ :=
      published.exists_page_of_read isRead tree folder named shown readable
    refine ⟨position, module, atPosition, ?_, isContent⟩
    rw [atPage (List.mem_of_getElem? atPosition), same, atOutput]

/-- A project with one source, and with a page of a source that is gone. -/
def staleWorld (outputDir : Text) : World :=
  demoWorld "src" outputDir
    [([("p" : Text), "src"], .folder), ([("p" : Text), "src", "a.ts"], .file []),
      ([("p" : Text), "docs"], .folder), ([("p" : Text), "docs", "modules"], .folder),
      ([("p" : Text), "docs", "modules", "old.ts.md"], .file [104])]

/-- The site of a project has the page of its one source after a build. -/
theorem build_leaves_page_of_source :
    ∃ modules after module,
      ending (build emptySources ".") (staleWorld "docs") = (.ok modules, after) ∧
        modules[0]? = some module ∧
        after.disk.read after.here "/p/docs/modules/a.ts.md" =
          .ok (Text.Utf8.encode (Page.text module 0)) := by
  have building : succeeds (fun modules _ => modules.length == 1)
      (build emptySources ".") (staleWorld "docs") = true := by
    decide +kernel
  have reading : succeeds (fun project _ => decide (project.IsPlain ∧
      project.HasShownSourceFolder ∧ (∀ name ∈ project.output.names, Disk.Name.stored name ≠ "..") ∧
      ∀ module ∈ project.modules,
        pagePath module project.settings.outputDir = "/p/docs/modules/a.ts.md"))
      (Run.documented emptySources ".") (staleWorld "docs") = true := by
    decide +kernel
  obtain ⟨modules, after, built, one⟩ := exists_of_succeeds building
  obtain ⟨project, read, documented, known⟩ := exists_of_succeeds reading
  obtain ⟨plain, folder, climbs, places⟩ := of_decide_eq_true known
  obtain ⟨rfl, pages, -⟩ := build_leaves_pages_of_modules (by decide +kernel) documented built plain
    folder (Project.hasLastingWay_of_plain climbs)
  obtain ⟨module, single⟩ := List.length_eq_one_iff.mp (beq_iff_eq.mp one)
  have atFirst : project.modules[0]? = some module := by rw [single]; rfl
  have readable := (pages 0 module atFirst).2
  rw [places module (List.mem_of_getElem? atFirst)] at readable
  exact ⟨project.modules, after, module, built, atFirst, readable⟩

/-- If the way to the site goes up from a folder that is not there yet, a stale page stays. -/
theorem build_keeps_stale_page :
    ∃ modules after,
      ending (build emptySources ".") (staleWorld "new/../docs") = (.ok modules, after) ∧
      after.disk.read after.here "/p/new/../docs/modules/old.ts.md" = .ok [104] ∧
      ∀ module ∈ modules, Disk.target after.here (pagePath module "/p/new/../docs") ≠
        Disk.target after.here "/p/new/../docs/modules/old.ts.md" := by
  have building : succeeds (fun modules after =>
      decide ((after.disk.read after.here "/p/new/../docs/modules/old.ts.md").toOption = some [104] ∧
        ∀ module ∈ modules, Disk.target after.here (pagePath module "/p/new/../docs") ≠
          Disk.target after.here "/p/new/../docs/modules/old.ts.md"))
      (build emptySources ".") (staleWorld "new/../docs") = true := by
    decide +kernel
  obtain ⟨modules, after, built, known⟩ := exists_of_succeeds building
  obtain ⟨readable, elsewhere⟩ := of_decide_eq_true known
  refine ⟨modules, after, built, ?_, elsewhere⟩
  cases result : after.disk.read after.here "/p/new/../docs/modules/old.ts.md" with
  | error error =>
      rw [result] at readable
      cases readable
  | ok content =>
      rw [result] at readable
      rw [Option.some.inj readable]

end Run

end ApiDocs
