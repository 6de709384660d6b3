import ApiDocs.Proofs.Site.Frame

/-!
# The files of the user after any runs

Checks and builds of a project follow one another, and between them the user edits what is
on the disk.  Whatever the environment of a run and however it ends, a file that belongs to
the user stays as the user left it.  What one run keeps was shown before; here it is carried
through a history of runs.
-/

namespace ApiDocs.Run

open Site (IsDisposable IsOwn)
open World (Evolves)

variable {links : Bool} {output : CleanPath} {place : Location} {content : List UInt8}
variable {start after : World links}

/--
The worlds that come from a first one by runs on projects with one folder for their site, and by
edits in between that leave the file at a place alone and bring no link onto the way of a log file.
-/
inductive History (output : CleanPath) (place : Location) (start : World links) :
    World links → Prop
  | start : History output place start start
  | build {world : World links} (environment : Environment) (path : Text)
      (before : History output place start world)
      (tended : ∀ project middle,
        ending (documented environment path) world = (.ok project, middle) →
          project.IsTended output world) :
      History output place start (ending (build environment path) world).2
  | check {world : World links} (environment : Environment) (path : Text)
      (before : History output place start world)
      (tended : ∀ project middle,
        ending (documented environment path) world = (.ok project, middle) →
          project.IsTended output world) :
      History output place start (ending (check environment path) world).2
  | edit {world : World links} (disk : Disk links) (before : History output place start world)
      (tree : disk.IsTree) (same : disk.file? place = world.disk.file? place)
      (logs : ∀ log ∈ world.openLogs, world.disk.IsStraight world.here log →
        disk.IsStraight world.here log) :
      History output place start (world.withDisk disk)

/-- A history of runs keeps a file of the user. -/
theorem History.hasFile (history : History output place start after)
    (users : ¬IsOwn output place) (hasFile : HasFile place content start) :
    HasFile place content after := by
  induction history with
  | start => exact hasFile
  | build environment path before tended ih => exact ih.of_evolves (evolves_build tended users ih)
  | check environment path before tended ih => exact ih.of_evolves (evolves_check tended users ih)
  | edit disk before tree same logs ih =>
      refine ⟨tree, same.trans ih.file, ?_⟩
      rintro ⟨log, isOpen, atPlace⟩
      have wasOpen := (World.mem_openLogs_withDisk_iff.mp isOpen).1
      exact ih.notLogged ⟨log, wasOpen, fun straight => atPlace (logs log wasOpen straight)⟩

/--
No history of runs changes or takes away a file of the user.  An existing home page and an
existing index of the modules are such files.
-/
theorem runs_keep_user_files (history : History output place start after)
    (tree : start.disk.IsTree) (standing : start.disk.file? place = some content)
    (notLogged : ¬start.IsLogged place) :
    (¬IsOwn output place → after.disk.file? place = some content) ∧
      (place = output.place ++ [("index.md" : Text)] ∨
          place = output.place ++ [("modules" : Text), "index.md"] →
        after.disk.file? place = some content) := by
  have kept (users : ¬IsOwn output place) : after.disk.file? place = some content :=
    (history.hasFile users ⟨tree, standing, notLogged⟩).file
  refine ⟨kept, ?_⟩
  rintro (rfl | rfl)
  · exact kept Site.not_isOwn_home
  · exact kept Site.not_isOwn_index

/-- A project without sources, with a home page of its own and with a link beside its site. -/
def homeWorld (outputDir : Text) : World true :=
  demoWorld "src" outputDir
    [([("p" : Text), "src"], .folder), ([("p" : Text), "lib"], .link "src"),
      ([("p" : Text), "docs"], .folder), ([("p" : Text), "docs", "index.md"], .file [104])]

/-- What the user leaves after a first check: the project has got a source. -/
def editedWorld : World true :=
  let checked := (ending (check emptySources ".") (homeWorld "docs")).2
  checked.withDisk (checked.disk.put [("p" : Text), "src", "a.ts"] (.file []))

/-- A test for projects whose runs leave the files of the user alone; it allows for no step up. -/
def isTended (output : CleanPath) (disk : Disk links) (project : Project) : Bool :=
  decide (project.output = output ∧ project.IsPlain ∧ project.HasNoSlash ∧
    project.HasSourceSegments ∧ (∀ name ∈ project.output.names, Disk.Name.stored name ≠ "..") ∧
    ∀ pair ∈ disk.entries, pair.2.target?.isSome = true → ¬project.siteWays pair.1)

theorem isTended_of_succeeds {environment : Environment} {path : Text} {world : World links}
    (computed : succeeds (fun project _ => isTended output world.disk project)
      (documented environment path) world = true) (project : Project) (middle : World links)
    (ended : ending (documented environment path) world = (.ok project, middle)) :
    project.IsTended output world := by
  obtain ⟨isOutput, plain, names, segments, climbs, noLinks⟩ :=
    of_decide_eq_true (of_succeeds computed ended)
  exact ⟨isOutput, plain, names, segments, Project.hasLastingWay_of_plain climbs,
    World.isFree_of_entries noLinks⟩

/-- The home page is still the one of the user after a check, an edit and a build. -/
theorem home_page_outlives_runs :
    ∃ modules after, ending (build emptySources ".") editedWorld = (.ok modules, after) ∧
      modules.length = 1 ∧ after.disk.file? ["p", "docs", "index.md"] = some [104] := by
  have checkTended : succeeds
      (fun project _ => isTended ⟨.root, ["p", "docs"]⟩ (homeWorld "docs").disk project)
      (documented emptySources ".") (homeWorld "docs") = true := by
    decide +kernel
  have buildTended : succeeds
      (fun project _ => isTended ⟨.root, ["p", "docs"]⟩ editedWorld.disk project)
      (documented emptySources ".") editedWorld = true := by
    decide +kernel
  have edited : editedWorld.disk.IsTree ∧
      editedWorld.disk.file? ["p", "docs", "index.md"] =
        (ending (check emptySources ".") (homeWorld "docs")).2.disk.file?
          ["p", "docs", "index.md"] ∧
      (ending (check emptySources ".") (homeWorld "docs")).2.openLogs = [] := by
    decide +kernel
  obtain ⟨tree, same, noLogs⟩ := edited
  have building : succeeds (fun modules _ => modules.length == 1)
      (build emptySources ".") editedWorld = true := by
    decide +kernel
  obtain ⟨modules, after, built, one⟩ := exists_of_succeeds building
  have history : History ⟨.root, ["p", "docs"]⟩ ["p", "docs", "index.md"] (homeWorld "docs")
      (ending (build emptySources ".") editedWorld).2 :=
    .build _ _ (.edit _ (.check _ _ .start (isTended_of_succeeds checkTended)) tree same
      fun log isOpen => absurd isOpen (by rw [noLogs]; exact List.not_mem_nil))
      (isTended_of_succeeds buildTended)
  have standing : (homeWorld "docs").disk.file? ["p", "docs", "index.md"] = some [104] := by
    decide +kernel
  have noLog : ¬(homeWorld "docs").IsLogged ["p", "docs", "index.md"] :=
    World.not_isLogged_of_noLogs rfl _
  have kept := (runs_keep_user_files history (by decide +kernel) standing noLog).2
    (.inl (by decide +kernel))
  rw [built] at kept
  exact ⟨modules, after, built, beq_iff_eq.mp one, kept⟩

/--
If the way to the site goes up from a folder that is not there yet, the home page is replaced.  If
the folder of the examples is a link, a check writes to where it leads.
-/
theorem build_replaces_home_page :
    (∃ project middle modules after,
      ending (documented emptySources ".") (homeWorld "new/../docs") = (.ok project, middle) ∧
      project.IsPlain ∧ project.HasNoSlash ∧ project.HasSourceFolder ∧
      ¬IsOwn project.output ["p", "docs", "index.md"] ∧
      (homeWorld "new/../docs").disk.file? ["p", "docs", "index.md"] = some [104] ∧
      ending (build emptySources ".") (homeWorld "new/../docs") = (.ok modules, after) ∧
      after.disk.file? ["p", "docs", "index.md"] ≠ some [104]) ∧
    ∃ project middle report after,
      ending (documented withoutChecker ".") examplesInSources = (.ok project, middle) ∧
      project.IsPlain ∧ project.HasNoSlash ∧ project.HasSourceFolder ∧
      ¬IsOwn project.output ["p", "src", "index.ts"] ∧
      ending (check withoutChecker ".") examplesInSources = (.error (.examples report), after) ∧
      after.disk.file? ["p", "src", "index.ts"] ≠
        examplesInSources.disk.file? ["p", "src", "index.ts"] := by
  constructor
  · have reading : succeeds (fun project _ => decide (project.IsPlain ∧ project.HasNoSlash ∧
        project.HasSourceFolder ∧ project.output.place = [("p" : Text), "docs"]))
        (documented emptySources ".") (homeWorld "new/../docs") = true := by
      decide +kernel
    have building : succeeds (fun _ after =>
        decide (after.disk.file? ["p", "docs", "index.md"] ≠ some [104]))
        (build emptySources ".") (homeWorld "new/../docs") = true := by
      decide +kernel
    obtain ⟨project, middle, read, known⟩ := exists_of_succeeds reading
    obtain ⟨plain, names, folder, place⟩ := of_decide_eq_true known
    obtain ⟨modules, after, built, replaced⟩ := exists_of_succeeds building
    have users : ¬IsOwn project.output ["p", "docs", "index.md"] := by
      have atHome : [("p" : Text), "docs", "index.md"] =
          project.output.place ++ [("index.md" : Text)] := by
        rw [place]
        rfl
      rw [atHome]
      exact Site.not_isOwn_home
    exact ⟨project, middle, modules, after, read, plain, names, folder, users, by decide +kernel,
      built, of_decide_eq_true replaced⟩
  · have reading : succeeds (fun project _ => decide (project.IsPlain ∧ project.HasNoSlash ∧
        project.HasSourceFolder ∧ project.output.place = [("p" : Text), "docs"]))
        (documented withoutChecker ".") examplesInSources = true := by
      decide +kernel
    have checking : fails (fun failure => failure matches .examples _)
        (check withoutChecker ".") examplesInSources = true := by
      decide +kernel
    have written : (ending (check withoutChecker ".") examplesInSources).2.disk.file?
        ["p", "src", "index.ts"] ≠ examplesInSources.disk.file? ["p", "src", "index.ts"] := by
      decide +kernel
    obtain ⟨project, middle, read, known⟩ := exists_of_succeeds reading
    obtain ⟨plain, names, folder, place⟩ := of_decide_eq_true known
    obtain ⟨failure, after, failed, ofExamples⟩ := exists_of_fails checking
    rw [failed] at written
    have users : ¬IsOwn project.output ["p", "src", "index.ts"] :=
      Site.not_isOwn_of_outside (by rw [place]; decide +kernel)
    cases failure with
    | examples report =>
        exact ⟨project, middle, report, after, read, plain, names, folder, users, failed, written⟩
    | settings | rejected | resource | fault => cases ofExamples

end ApiDocs.Run
