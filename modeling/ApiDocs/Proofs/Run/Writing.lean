import ApiDocs.Proofs.Run.Stages

/-!
# What stands on the disk after writing

A file that was written has its content, and keeps it as long as nothing else is written at
its place and no log file stands there.  So after several files were written, every file
that replaces what is there has its content, if no other one of them has the same place.
-/

namespace ApiDocs

namespace World.Evolves

open Disk (nowhere target)

variable {files : Location → Prop} {before after : World} {path : Text} {content : List UInt8}

/-- A file outside of the scope of some changes can be read as before. -/
theorem read (evolves : Evolves files nowhere before after)
    (outside : ¬files (target before.here path))
    (notLogged : ¬before.IsLogged (target before.here path))
    (readable : before.disk.read before.here path = .ok content) :
    after.disk.read after.here path = .ok content := by
  obtain ⟨located, standing⟩ := (Disk.read_eq_ok_iff).mp readable
  rw [evolves.here]
  refine (Disk.read_eq_ok_iff).mpr ⟨Disk.locate_mono (fun place => evolves.folder place id) located, ?_⟩
  rw [evolves.file _ outside notLogged, standing]

end World.Evolves

namespace Run

open Disk (IsPath nowhere target)
open World (Evolves OnlyLogs)

variable {world after : World} {scope : Location → Prop} {path content part : Text}
variable {list : List TextFile} {file : TextFile} {schedule : Schedule}

/-- After a text was written it can be read, and the disk took its path as one. -/
theorem read_of_ending_writeText
    (ended : ending (writeText path content) world = (.ok (), after)) :
    after.disk.read after.here (CleanPath.ofText path).text = .ok (Text.Utf8.encode content) := by
  rw [writeText] at ended
  split at ended
  · rw [ending_change] at ended
    cases written : world.disk.write world.here path (Text.Utf8.encode content) with
    | mk outcome disk =>
        rw [written] at ended
        cases outcome with
        | error error => cases ended
        | ok value =>
            cases ended
            rw [← write_ofText] at written
            exact Disk.read_of_write (CleanPath.isProper_ofText path) written
  · obtain ⟨value, middle, -, thrown⟩ := ending_bind_eq_ok_iff.mp ended
    cases thrown

theorem keeps_writeTurns (schedule : Schedule) {jobs : List (TextFile × Nat)}
    (contained : ∀ job ∈ jobs, IsWrittenIn scope job.1) :
    Keeps (Evolves scope nowhere) (takeTurns schedule
      (fun file : TextFile => (writeText file.path file.content : Run Unit)) jobs) :=
  .takeTurns (Evolves.isKept scope nowhere) fun job member =>
    (keeps_writeText_unlinked (contained job member).1 job.1.content).widen
      (contained job member).2 fun _ => id

/-- Writing several files changes only the files at their places. -/
theorem evolves_of_ending_writeFiles {result : Except Failure (List Unit)}
    (contained : ∀ file ∈ list, IsWrittenIn scope file)
    (ended : ending (forEach schedule (fun file : TextFile => writeText file.path file.content) list)
      world = (result, after)) : Evolves scope nowhere world after := by
  have kept : Keeps (Evolves scope nowhere) (forEach schedule
      (fun file : TextFile => (writeText file.path file.content : Run Unit)) list) :=
    .forEach (Evolves.isKept scope nowhere) fun file member =>
      (keeps_writeText_unlinked (contained file member).1 file.content).widen
        (contained file member).2 fun _ => id
  have evolves := kept world
  rwa [ended] at evolves

/-- After several files were written, each of them could be read at some time. -/
theorem isPath_of_ending_writeFiles {values : List Unit}
    (ended : ending (forEach schedule (fun file : TextFile => writeText file.path file.content) list)
      world = (.ok values, after)) (member : file ∈ list) :
    IsPath (CleanPath.ofText file.path).text := by
  obtain ⟨_, start, last, taken⟩ := exists_taken ended member
  exact Disk.isPath_of_locate ((Disk.read_eq_ok_iff).mp (read_of_ending_writeText taken)).1

/-- After several files had their turns, one whose place no other has can be read. -/
theorem read_of_ending_writeTurns {jobs : List (TextFile × Nat)} {values : List (Unit × Nat)}
    {place : Nat}
    (ended : ending (takeTurns schedule (fun file : TextFile => writeText file.path file.content)
      jobs) world = (.ok values, after)) (member : (file, place) ∈ jobs)
    (absolute : Path.isAbsolute file.path = true)
    (others : ∀ job ∈ jobs, job.1 ≠ file →
      IsWrittenIn (· ≠ (CleanPath.ofText file.path).place) job.1)
    (notLogged : ¬world.IsLogged (CleanPath.ofText file.path).place) :
    after.disk.read after.here (CleanPath.ofText file.path).text =
      .ok (Text.Utf8.encode file.content) := by
  induction jobs generalizing world values place with
  | nil => cases member
  | cons first rest ih =>
      obtain ⟨value, further, middle, taken, remaining, -⟩ :=
        ending_takeTurns_cons_eq_ok_iff.mp ended
      have fromRoot := CleanPath.isAbsolute_ofText_iff.mpr absolute
      have atPlace (here : Location) :
          target here (CleanPath.ofText file.path).text = (CleanPath.ofText file.path).place :=
        fromRoot.target_text (CleanPath.isProper_ofText _) here
      have firstAbsolute : Path.isAbsolute first.1.path = true := by
        by_cases same : first.1 = file
        · rwa [same]
        · exact (others first List.mem_cons_self same).1
      have evolves := keeps_writeText_unlinked firstAbsolute first.1.content world
      rw [taken] at evolves
      have notLoggedNow : ¬middle.IsLogged (CleanPath.ofText file.path).place :=
        mt evolves.isLogged notLogged
      by_cases inRest : ∃ later, (file, later) ∈ rest
      · obtain ⟨later, inRest⟩ := inRest
        exact ih remaining inRest (fun other isOther =>
          others other (List.mem_cons_of_mem first isOther)) notLoggedNow
      · obtain rfl : (file, place) = first :=
          (List.mem_cons.mp member).resolve_right fun later => inRest ⟨place, later⟩
        have elsewhere : ∀ job ∈ rest,
            IsWrittenIn (· ≠ (CleanPath.ofText file.path).place) job.1 := fun job isOther =>
          others job (List.mem_cons_of_mem _ isOther) fun same =>
            inRest ⟨job.2, by rwa [← same]⟩
        have later := keeps_writeTurns schedule elsewhere middle
        rw [remaining] at later
        refine later.read ?_ ?_ (read_of_ending_writeText taken)
        · rw [atPlace]
          exact fun differs => differs rfl
        · rwa [atPlace]

/-- After several files were written, one whose place no other has can be read. -/
theorem read_of_ending_writeFiles {values : List Unit}
    (ended : ending (forEach schedule (fun file : TextFile => writeText file.path file.content) list)
      world = (.ok values, after)) (member : file ∈ list)
    (absolute : Path.isAbsolute file.path = true)
    (others : ∀ other ∈ list, other ≠ file →
      IsWrittenIn (· ≠ (CleanPath.ofText file.path).place) other)
    (notLogged : ¬world.IsLogged (CleanPath.ofText file.path).place) :
    after.disk.read after.here (CleanPath.ofText file.path).text =
      .ok (Text.Utf8.encode file.content) := by
  obtain ⟨found, taken, -⟩ := ending_forEach_eq_ok_iff.mp ended
  obtain ⟨place, hasTurn⟩ := schedule.exists_mem_arrange member
  exact read_of_ending_writeTurns taken hasTurn absolute
    (fun job isJob => others job.1 (Schedule.mem_of_mem_arrange isJob)) notLogged

/-- Writing files writes those that are due, after it has logged. -/
theorem exists_of_ending_writeAll {schedule : WriteSchedule}
    (ended : ending (writeAll part list schedule) world = (.ok (), after)) :
    ∃ middle values, World.OnlyAppends world middle ∧
      ending (forEach schedule.writes (fun file : TextFile => writeText file.path file.content)
        (list.filter world.isDue)) middle = (.ok values, after) := by
  obtain ⟨middle, taken, appends⟩ := ending_dueFiles schedule.checks part list world
  rw [writeAll, ending_bind_of_ok taken] at ended
  obtain ⟨values, last, written, rest⟩ := ending_bind_eq_ok_iff.mp ended
  cases rest
  exact ⟨middle, values, appends, written⟩

variable {environment : Environment} {project : Project} {files : List TextFile}

section

variable {links : Bool} {world after : World links}

/-- What is planned: three files that every site has, and the pages of the modules. -/
theorem files_of_ending_plan
    (ended : ending (plan environment project) world = (.ok files, after)) :
    ∃ config : TextFile, config.path = Site.configPath project.settings.outputDir ∧
      files =
        [Site.home project.settings.outputDir, Site.index project.settings.outputDir, config] ++
          Site.pages project.modules project.settings.outputDir := by
  obtain ⟨verified, middle, -, rest⟩ := ending_bind_eq_ok_iff.mp ended
  obtain ⟨logged, last, -, prepared⟩ := ending_bind_eq_ok_iff.mp rest
  obtain ⟨config, final, configured, rest⟩ := ending_bind_eq_ok_iff.mp prepared
  cases rest
  refine ⟨config, ?_, rfl⟩
  obtain ⟨found, between, -, rest⟩ := ending_bind_eq_ok_iff.mp configured
  split at rest
  · obtain ⟨existing, end', -, rest⟩ := ending_bind_eq_ok_iff.mp rest
    cases rest
    rfl
  · cases rest
    rfl

end

/-- Publishing removes the stale pages and then writes the files that are due. -/
theorem exists_of_ending_publish
    (ended : ending (publish environment project files) world = (.ok (), after)) :
    ∃ before cleaned middle values last, OnlyLogs world before ∧
      ending (remove environment (Site.stalePattern project.settings.outputDir)) before =
        (.ok (), cleaned) ∧
      World.OnlyAppends cleaned middle ∧
      ending (forEach (environment.writing .site).writes
        (fun file : TextFile => writeText file.path file.content)
        (files.filter cleaned.isDue)) middle = (.ok values, last) ∧ OnlyLogs last after := by
  obtain ⟨value, before, logged, rest⟩ := ending_bind_eq_ok_iff.mp ended
  obtain ⟨value, cleaned, removed, rest⟩ := ending_bind_eq_ok_iff.mp rest
  obtain ⟨value, last, written, finished⟩ := ending_bind_eq_ok_iff.mp rest
  obtain ⟨middle, values, appends, written⟩ := exists_of_ending_writeAll written
  have first := keeps_log .info mainPart "Writing markdown files..." world
  rw [logged] at first
  have second := keeps_log .info mainPart "Docs generation succeeded!" last
  rw [finished] at second
  exact ⟨before, cleaned, middle, values, last, first, removed, appends, written, second⟩

end Run

end ApiDocs
