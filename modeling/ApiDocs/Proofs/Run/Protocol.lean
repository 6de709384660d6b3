import ApiDocs.Proofs.Run.Effects

/-!
# The protocol of a check of examples

A check of examples writes the examples, then the two files that the type checker gets, then
starts the type checker, and last takes the folder away.  Each row of files is written in the
turns of a schedule.  The first failure in time stops the check before the next of these stages,
but never keeps the folder from being taken away; and it is this failure that is reported,
whatever becomes of the removal.

Links may lead to the folder of the examples.  A link in it may give two files one place, and then
the one that was written last stands there.
-/

namespace ApiDocs

variable {links : Bool}

/-! ## Paths in one folder -/

namespace Disk.Name

theorem bytes_stored (name : Text) : bytes (stored name) = bytes name := by
  rw [stored, bytes_ofBytes]

/-- Relative paths with the same bytes give paths with the same bytes when they are joined. -/
theorem bytes_join_congr {folder first second : Text}
    (firstRelative : Path.isAbsolute first = false)
    (secondRelative : Path.isAbsolute second = false) (same : bytes first = bytes second) :
    bytes (Path.join folder first) = bytes (Path.join folder second) := by
  obtain ⟨between, without, joined⟩ := exists_join_eq_append folder firstRelative
  obtain ⟨other, otherWithout, otherJoined⟩ := exists_join_eq_append folder secondRelative
  obtain rfl : other = between := List.append_cancel_left (otherWithout.symm.trans without)
  rw [joined, otherJoined, bytes_append, bytes_append _ second, same]

end Disk.Name

namespace Example

variable {folder : Text} {file other : TextFile} {here place : Location} {disk : Disk links}

/--
Files in one folder that lead to one place, over no link there, have paths with the same bytes.
-/
theorem LiesIn.bytes_eq_of_locate (lies : LiesIn folder file) (otherLies : LiesIn folder other)
    (located : disk.locate here (CleanPath.ofText file.path).text = .ok place)
    (noLink : disk.hasLink here (CleanPath.ofText file.path).text = false)
    (otherLocated : disk.locate here (CleanPath.ofText other.path).text = .ok place)
    (otherNoLink : disk.hasLink here (CleanPath.ofText other.path).text = false) :
    Disk.Name.bytes other.path = Disk.Name.bytes file.path := by
  obtain ⟨front, joined⟩ := CleanPath.exists_join_eq_ofText folder
  obtain ⟨name, isName, down, inFolder⟩ := lies.exists_name (Disk.isPath_of_locate located)
  obtain ⟨last, isLast, lastDown, otherIn⟩ :=
    otherLies.exists_name (Disk.isPath_of_locate otherLocated)
  rw [inFolder, joined name isName] at located noLink
  rw [otherIn, joined last isLast] at otherLocated otherNoLink
  obtain ⟨trail, above, leads, atName⟩ :=
    Disk.exists_folder_of_locate_join isName.whole down located noLink
  obtain ⟨again, below, also, atLast⟩ :=
    Disk.exists_folder_of_locate_join isLast.whole lastDown otherLocated otherNoLink
  obtain ⟨-, rfl⟩ := leads.unique also
  have shown : Disk.Name.stored last = Disk.Name.stored name :=
    List.singleton_inj.mp (List.append_cancel_left (atLast.symm.trans atName))
  rw [inFolder, otherIn]
  refine Disk.Name.bytes_join_congr (Path.isAbsolute_of_not_mem isLast.whole)
    (Path.isAbsolute_of_not_mem isName.whole) ?_
  rw [← Disk.Name.bytes_stored last, shown, Disk.Name.bytes_stored]

end Example

namespace Run

open World (OnlyAppends)

variable {environment : Environment} {world middle start after : World links}
variable {writings : List Writing} {folder options : Text}
variable {examples own files : List TextFile} {settings : Settings}

/-! ## Calls and removals -/

/-- A removal makes no call of the type checker, and is one however it ends. -/
theorem traces_of_remove (environment : Environment) (pattern : Text) (world : World links) :
    (ending (remove environment pattern) world).2.calls = world.calls ∧
      (ending (remove environment pattern) world).2.removals = world.removals ++ [pattern] := by
  rcases ending_remove_cases environment pattern world with
    ⟨failure, ended⟩ | ⟨found, -, ended⟩
  · rw [ended]
    exact ⟨rfl, rfl⟩
  · rw [ended, ending_change]
    exact ⟨rfl, rfl⟩

/-! ## How far a check gets -/

/--
Every file has a place on the disk, and there stands the content of the file that was last written
there, log files apart.  That is the file itself if no other one has its path and no link stands
under the name of a file.
-/
def StandOn (world : World links) (disk : Disk links) (files : List TextFile) : Prop :=
  ∀ file ∈ files,
    ∃ place, disk.locate world.here (CleanPath.ofText file.path).text = .ok place ∧
      (¬world.IsLogged place →
        ∃ last ∈ files,
          disk.locate world.here (CleanPath.ofText last.path).text = .ok place ∧
            disk.file? place = some (Text.Utf8.encode last.content) ∧
            ((∀ other ∈ files, other ≠ file →
                Disk.Name.bytes other.path ≠ Disk.Name.bytes file.path) →
              (∀ other ∈ files,
                disk.hasLink world.here (CleanPath.ofText other.path).text = false) →
              last = file))

/-- Files in one folder that were all written stand there, in whatever order they were. -/
theorem Attempts.standOn (attempts : Attempts environment world writings after)
    (written : firstFailure (writings.map Writing.outcome) = .ok ())
    (perm : (writings.map Writing.file).Perm files)
    (lie : ∀ file ∈ files, Example.LiesIn folder file) :
    StandOn world after.disk files := by
  intro file member
  have isOk (writing : Writing) (member : writing ∈ writings) : writing.outcome = .ok () :=
    eq_ok_of_firstFailure written (List.mem_map_of_mem member)
  obtain ⟨writing, inWritings, rfl⟩ := List.mem_map.mp (perm.mem_iff.mpr member)
  have left : writing.left? = some (Text.Utf8.encode writing.file.content) := by
    rw [Writing.left?, isOk writing inWritings]
  obtain ⟨place, located⟩ := attempts.located writing inWritings _ left
  obtain ⟨last, lastWritten, lastLocated, lastLeft⟩ :=
    Writing.exists_lastLeft? inWritings isOk located
  have lastMember : last.file ∈ files := perm.mem_iff.mp (List.mem_map_of_mem lastWritten)
  rw [← attempts.here]
  refine ⟨place, located, fun notLogged => ⟨last.file, lastMember, lastLocated, ?_, ?_⟩⟩
  · rw [attempts.file _ notLogged, lastLeft, Option.some_or]
  · intro apart noLink
    by_contra other
    exact apart _ lastMember other ((lie _ member).bytes_eq_of_locate (lie _ lastMember) located
      (noLink _ member) lastLocated (noLink _ lastMember))

/-- What is attempted of a row of files that all replace what is there. -/
def IsRow (schedule : WriteSchedule) (files : List TextFile) (writings : List Writing) : Prop :=
  Attempted schedule.writes (schedule.writes.arrange files) writings

theorem IsRow.perm {schedule : WriteSchedule} (row : IsRow schedule files writings)
    (written : firstFailure (writings.map Writing.outcome) = .ok ()) :
    (writings.map Writing.file).Perm files := by
  rw [row.files_of_ok written]
  simpa only [List.zipIdx_map_fst] using (schedule.writes.perm_arrange files).map Prod.fst

/-- Files that replace what is there are a row. -/
theorem exists_isRow (environment : Environment) (part : Text) (schedule : WriteSchedule)
    (replacing : ∀ file ∈ files, file.overwrite = true) (world : World links) :
    ∃ writings after,
      ending (writeAll part files schedule) world =
        (firstFailure (writings.map Writing.outcome), after) ∧
      IsRow schedule files writings ∧ Attempts environment world writings after := by
  obtain ⟨writings, after, ended, attempted, attempts⟩ :=
    exists_attempts_writeAll environment part files schedule world
  rw [World.filter_isDue_of_overwrite replacing] at attempted
  exact ⟨writings, after, ended, attempted, attempts⟩

/--
How far a check of examples gets before it takes the folder away: which files it attempts to
write, whether it starts the type checker, and which calls it makes.
-/
inductive Progress (environment : Environment) (examples own : List TextFile)
    (world : World links) : List Writing → List Effect → List (Call links) → Prop where
  /-- Some example could not be written. -/
  | examples {writings : List Writing} : IsRow (environment.writing .examples) examples writings →
      firstFailure (writings.map Writing.outcome) ≠ .ok () →
      Progress environment examples own world writings [] []
  /-- Some file for the type checker could not be written. -/
  | own {first second : List Writing} : IsRow (environment.writing .examples) examples first →
      firstFailure (first.map Writing.outcome) = .ok () →
      IsRow (environment.writing .checker) own second →
      firstFailure (second.map Writing.outcome) ≠ .ok () →
      Progress environment examples own world (first ++ second) [] []
  /-- All files stand on the disk when the type checker is started. -/
  | call {first second : List Writing} {command executable : Text}
      {additions : List (Text × Text)} {disk : Disk links} {outcome : Except Failure Unit} :
      IsRow (environment.writing .examples) examples first →
      IsRow (environment.writing .checker) own second →
      firstFailure ((first ++ second).map Writing.outcome) = .ok () →
      StandOn world disk (examples ++ own) →
      Progress environment examples own world (first ++ second)
        [.check command executable additions outcome] [{ command, executable, additions, disk }]

/-- Starting the type checker makes a call with the disk as it is, however it ends. -/
theorem exists_ending_callChecker_eq (environment : Environment) (command executable : Text)
    (additions : List (Text × Text)) (world : World links) :
    ∃ outcome after,
      ending (callChecker environment command executable additions) world = (outcome, after) ∧
        after.calls = world.calls ++ [{ command, executable, additions, disk := world.disk }] ∧
        after.removals = world.removals := by
  rw [callChecker, ending_bind_of_ok (ending_modify _ world)]
  split <;> exact ⟨_, _, rfl, rfl, rfl⟩

/-- Once both rows of files are written, a record is logged and the type checker is started. -/
theorem exists_ending_start (environment : Environment) (command : Text)
    (world : World links) {first second : World links}
    (writable : Example.options settings.exampleOptions = .ok options)
    (written : ending (writeAll examplesPart examples (environment.writing .examples)) world =
      (.ok (), first))
    (ownWritten : ending (writeAll examplesPart
      (Example.checkerFiles (Example.folder settings.outputDir) options examples)
      (environment.writing .checker)) first = (.ok (), second)) :
    ∃ start executable additions, OnlyAppends second start ∧
      ending (writeAndCheck environment command examples settings) world =
        ending (callChecker environment command executable additions) start := by
  let message : Text := "Type checking " ++ Number.intText examples.length ++ " examples..."
  let start := second.log { level := .info, logger := loggerName (some examplesPart), message }
  let place (name : Text) : Text :=
    Path.absolute start.hereText (Path.join (Example.folder settings.outputDir) name)
  refine ⟨start, place "index.ts", [("TS_NODE_PROJECT", place "tsconfig.json")],
    World.onlyAppends_log second _, ?_⟩
  rw [writeAndCheck, ending_bind_of_ok written, writable]
  exact (ending_bind_of_ok (ending_ofExcept (.ok options) first) _).trans
    ((ending_bind_of_ok ownWritten _).trans
      ((ending_bind_of_ok (ending_log _ _ _ second) _).trans (ending_bind_of_ok (ending_get _) _)))

/-- What a run did before it ended: which effects and calls it had, and how far it got. -/
structure Traces (environment : Environment) (examples own : List TextFile)
    (run : RunOn links Unit) (world : World links) (writings : List Writing) (checks : List Effect)
    (calls : List (Call links)) (after : World links) : Prop where
  ended : ending run world =
    (firstFailure ((writings.map Effect.write ++ checks).map Effect.outcome), after)
  does : Does environment world (writings.map .write ++ checks) after
  called : after.calls = world.calls ++ calls
  removals : after.removals = world.removals
  progress : Progress environment examples own world writings checks calls

/-- A run that ended with its attempts to write starts no type checker. -/
theorem Traces.of_attempts {run : RunOn links Unit}
    (attempts : Attempts environment world writings after)
    (ended : ending run world = (firstFailure (writings.map Writing.outcome), after))
    (progress : Progress environment examples own world writings [] []) :
    Traces environment examples own run world writings [] [] after where
  ended := by
    rw [List.append_nil, List.map_map]
    exact ended
  does := by
    rw [List.append_nil]
    exact attempts.does
  called := by rw [attempts.calls, List.append_nil]
  removals := attempts.removals
  progress := progress

/-- A run that wrote all files ends as the type checker does, which it starts once. -/
theorem exists_traces_of_start {run : RunOn links Unit} {executable : Text}
    {additions : List (Text × Text)}
    {first second : List Writing} (attempts : Attempts environment world (first ++ second) middle)
    (row : IsRow (environment.writing .examples) examples first)
    (ownRow : IsRow (environment.writing .checker) own second)
    (written : firstFailure (first.map Writing.outcome) = .ok ())
    (ownWritten : firstFailure (second.map Writing.outcome) = .ok ())
    (lie : ∀ file ∈ examples ++ own, Example.LiesIn folder file)
    (appends : OnlyAppends middle start)
    (started : ending run world =
      ending (callChecker environment command executable additions) start) :
    ∃ checks calls after,
      Traces environment examples own run world (first ++ second) checks calls after := by
  obtain ⟨outcome, after, called, calls, removals⟩ :=
    exists_ending_callChecker_eq environment command executable additions start
  have allWritten : firstFailure ((first ++ second).map Writing.outcome) = .ok () := by
    rw [List.map_append, firstFailure_append, written]
    exact ownWritten
  have perm : ((first ++ second).map Writing.file).Perm (examples ++ own) := by
    rw [List.map_append]
    exact (row.perm written).append (ownRow.perm ownWritten)
  have started' := attempts.append (.of_appends environment appends)
  rw [List.append_nil] at started'
  have stand := started'.standOn allWritten perm lie
  refine ⟨[.check command executable additions outcome], _, after, ?_, ?_, ?_, ?_,
    .call row ownRow allWritten stand⟩
  · rw [started, called, List.map_append, firstFailure_append, List.map_map]
    change _ = ((firstFailure ((first ++ second).map Writing.outcome)).bind _, after)
    rw [allWritten]
    cases outcome <;> rfl
  · exact attempts.does.append (.after_appends appends (.of_ending called))
  · rw [calls, appends.calls, attempts.calls]
  · rw [removals, appends.removals, attempts.removals]

/--
Both rows of files are written one after the other, and after both the type checker is started.
-/
theorem exists_traces (environment : Environment)
    (replacing : ∀ file ∈ examples, file.overwrite = true)
    (lie : ∀ file ∈ examples, Example.LiesIn (Example.folder settings.outputDir) file)
    (writable : Example.options settings.exampleOptions = .ok options) (command : Text)
    (world : World links) :
    ∃ writings checks calls after, Traces environment examples
      (Example.checkerFiles (Example.folder settings.outputDir) options examples)
      (writeAndCheck environment command examples settings) world writings checks calls after := by
  have ownReplacing : ∀ file ∈
      Example.checkerFiles (Example.folder settings.outputDir) options examples,
      file.overwrite = true := by
    simp [Example.checkerFiles]
  obtain ⟨first, middle, endedFirst, row, attempts⟩ :=
    exists_isRow environment examplesPart (environment.writing .examples) replacing world
  obtain ⟨second, last, endedSecond, ownRow, more⟩ :=
    exists_isRow environment examplesPart (environment.writing .checker) ownReplacing middle
  have both := attempts.append more
  have bothEnd : firstFailure ((first ++ second).map Writing.outcome) =
      (firstFailure (first.map Writing.outcome)).bind fun _ =>
        firstFailure (second.map Writing.outcome) := by
    rw [List.map_append, firstFailure_append]
  cases firstEnd : firstFailure (first.map Writing.outcome) with
  | error failure =>
      rw [firstEnd] at endedFirst
      refine ⟨first, [], [], middle,
        .of_attempts attempts ?_ (.examples row (by rw [firstEnd]; nofun))⟩
      rw [firstEnd]
      exact ending_bind_of_error endedFirst _
  | ok value =>
      rw [firstEnd] at endedFirst bothEnd
      cases secondEnd : firstFailure (second.map Writing.outcome) with
      | error failure =>
          rw [secondEnd] at endedSecond bothEnd
          refine ⟨first ++ second, [], [], last,
            .of_attempts both ?_ (.own row firstEnd ownRow (by rw [secondEnd]; nofun))⟩
          rw [bothEnd, writeAndCheck, ending_bind_of_ok endedFirst, writable]
          exact (ending_bind_of_ok (ending_ofExcept (.ok options) middle) _).trans
            (ending_bind_of_error endedSecond _)
      | ok value =>
          rw [secondEnd] at endedSecond
          obtain ⟨start, executable, additions, appends, started⟩ :=
            exists_ending_start environment command world writable endedFirst endedSecond
          have lieAll : ∀ file ∈ examples ++
              Example.checkerFiles (Example.folder settings.outputDir) options examples,
              Example.LiesIn (Example.folder settings.outputDir) file :=
            List.forall_mem_append.mpr ⟨lie, fun file => Example.liesIn_of_mem_checkerFiles⟩
          exact ⟨first ++ second, exists_traces_of_start both row ownRow firstEnd secondEnd lieAll
            appends started⟩

/-- The effects of a check that removes its folder at the end. -/
def checkEffects (writings : List Writing) (checks : List Effect) (folder : Text)
    (removal : Except Failure Unit) : List Effect :=
  writings.map .write ++ checks ++ [.remove folder removal]

theorem firstFailure_checkEffects (writings : List Writing) (checks : List Effect) (folder : Text)
    (removal : Except Failure Unit) :
    firstFailure ((checkEffects writings checks folder removal).map Effect.outcome) =
      (firstFailure ((writings.map Effect.write ++ checks).map Effect.outcome)).bind fun _ =>
        removal := by
  rw [checkEffects, List.map_append, firstFailure_append]
  cases removal <;> rfl

/-- After a failure only a fault of the removal is reported in its place. -/
theorem exists_ending_cleanUp (failure : Failure) {removal : Except Failure Unit}
    (removed : ending (remove environment folder) world = (removal, middle)) :
    ∃ result after, OnlyAppends middle after ∧
      ending (do cleanUp environment folder; throw failure : RunOn links Unit) world =
        (result, after) ∧
      ((∀ cause, removal ≠ .error (.fault cause)) → result = .error failure) := by
  simp only [cleanUp, bind_assoc]
  rw [ending_bind, ending_attempt, removed]
  cases removal with
  | ok value => exact ⟨_, middle, .refl middle, rfl, fun _ => rfl⟩
  | error other =>
      have trouble := failsOnly_remove environment folder world other middle removed
      cases other with
      | resource path sentence =>
          exact ⟨_, _, World.onlyAppends_log middle _, rfl, fun _ => rfl⟩
      | fault cause => exact ⟨_, middle, .refl middle, rfl, fun none => absurd rfl (none cause)⟩
      | settings problem => exact trouble.elim
      | rejected errors => exact trouble.elim
      | examples report => exact trouble.elim

/-- A type checker that rejects the examples, on a disk from which nothing can be taken away. -/
def rejecting : Environment :=
  { parse := fun _ => default, verdict := .finished 1 "rejected", removalRefused := some "denied" }

/-- The settings of a site in the folder `docs`. -/
def docsSettings : Settings := { outputDir := "docs" }

end Run

end ApiDocs
