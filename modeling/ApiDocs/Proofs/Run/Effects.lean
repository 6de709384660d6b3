import ApiDocs.Proofs.Run.Faults

/-!
# Effects of a run

A run has effects on its surroundings: it attempts to write files, starts the type checker and
takes things away.  `Does` says which effects a run has, one after the other, and how each of
them ends; between them a run may add lines to its log files and changes nothing else.

Writing several files attempts those that are due in the turns of a schedule.  The first failure
stops this, apart from what is under way.  A file on the disk ends with what the last attempt left
there whose path leads to it, over links or not.
-/

namespace ApiDocs

variable {links : Bool}

/-! ## Attempted writes -/

/-- A file that was to be written, and how that ended. -/
structure Writing where
  file : TextFile
  outcome : Except Failure Unit

namespace Writing

/--
What an attempt leaves in its file, if it reaches the file at all.  A text for which there are
no bytes leaves the file empty.
-/
def left? (writing : Writing) : Option (List UInt8) :=
  match writing.outcome with
  | .ok () => some (Text.Utf8.encode writing.file.content)
  | .error (.fault (.unencodable _)) => some []
  | .error _ => none

/-- What an attempt leaves at a place: its path has to lead there in the world afterwards. -/
def leftAt? (after : World links) (place : Location) (writing : Writing) : Option (List UInt8) :=
  if (after.disk.locate after.here (CleanPath.ofText writing.file.path).text).toOption = some place
  then writing.left? else none

theorem leftAt?_of_locate {after : World links} {place : Location} {writing : Writing}
    (located : after.disk.locate after.here (CleanPath.ofText writing.file.path).text = .ok place) :
    writing.leftAt? after place = writing.left? := by
  rw [leftAt?, located]
  exact if_pos rfl

theorem leftAt?_eq_some_iff {after : World links} {place : Location} {writing : Writing}
    {content : List UInt8} :
    writing.leftAt? after place = some content ↔
      after.disk.locate after.here (CleanPath.ofText writing.file.path).text = .ok place ∧
        writing.left? = some content := by
  rw [leftAt?, Option.ite_none_right_eq_some]
  cases after.disk.locate after.here (CleanPath.ofText writing.file.path).text <;>
    simp [Except.toOption]

/-- What the last attempt that reaches a place leaves there. -/
def lastLeft? (after : World links) (writings : List Writing) (place : Location) :
    Option (List UInt8) :=
  writings.reverse.findSome? (leftAt? after place)

@[simp]
theorem lastLeft?_nil (after : World links) (place : Location) :
    lastLeft? after [] place = none := rfl

theorem lastLeft?_cons (after : World links) (writing : Writing) (rest : List Writing)
    (place : Location) :
    lastLeft? after (writing :: rest) place =
      (lastLeft? after rest place).or (writing.leftAt? after place) := by
  simp [lastLeft?, List.findSome?_append]

theorem lastLeft?_append (after : World links) (first second : List Writing) (place : Location) :
    lastLeft? after (first ++ second) place =
      (lastLeft? after second place).or (lastLeft? after first place) := by
  simp [lastLeft?, List.findSome?_append]

theorem lastLeft?_congr {after later : World links} {writings : List Writing} {place : Location}
    (same : ∀ writing ∈ writings, writing.leftAt? later place = writing.leftAt? after place) :
    lastLeft? later writings place = lastLeft? after writings place := by
  induction writings with
  | nil => rfl
  | cons writing rest ih =>
      obtain ⟨own, others⟩ := List.forall_mem_cons.mp same
      rw [lastLeft?_cons, lastLeft?_cons, own, ih others]

/-- Where everything was written, a place has what was written by some path that leads there. -/
theorem exists_lastLeft? {after : World links} {writings : List Writing} {writing : Writing}
    {place : Location} (member : writing ∈ writings)
    (written : ∀ other ∈ writings, other.outcome = .ok ())
    (located : after.disk.locate after.here (CleanPath.ofText writing.file.path).text = .ok place) :
    ∃ last ∈ writings,
      after.disk.locate after.here (CleanPath.ofText last.file.path).text = .ok place ∧
        lastLeft? after writings place = some (Text.Utf8.encode last.file.content) := by
  have left {other : Writing} (inWritings : other ∈ writings) :
      other.left? = some (Text.Utf8.encode other.file.content) := by
    rw [left?, written other inWritings]
  cases found : lastLeft? after writings place with
  | none =>
      have nothing := List.findSome?_eq_none_iff.mp found writing (List.mem_reverse.mpr member)
      rw [leftAt?_of_locate located, left member] at nothing
      cases nothing
  | some content =>
      obtain ⟨last, inReverse, leaves⟩ := List.exists_of_findSome?_eq_some found
      have inWritings := List.mem_reverse.mp inReverse
      obtain ⟨atPlace, leaves⟩ := leftAt?_eq_some_iff.mp leaves
      exact ⟨last, inWritings, atPlace, by rw [← leaves, left inWritings]⟩

end Writing

/-- How a file can fail to be written: the disk refuses it, or it is none that can be written. -/
inductive WriteFailure (file : TextFile) : Failure → Prop where
  | refused (cause : Cause) (path : Text) :
      WriteFailure file (.resource file.path
        ("Unable to write " ++ file.path ++ ": " ++ (DiskError.refused cause path).message))
  | fault {fault : Fault} : WriteFault file fault → WriteFailure file (.fault fault)

/-! ## Effects -/

/-- What a run does to its surroundings, and how that ends. -/
inductive Effect where
  | write (writing : Writing)
  | check (command executable : Text) (additions : List (Text × Text))
      (outcome : Except Failure Unit)
  | remove (pattern : Text) (outcome : Except Failure Unit)

namespace Effect

/-- The step that has the effect. -/
def step (environment : Environment) : Effect → RunOn links Unit
  | .write writing => Run.writeText writing.file.path writing.file.content
  | .check command executable additions _ =>
    Run.callChecker environment command executable additions
  | .remove pattern _ => Run.remove environment pattern

/-- How the effect ends. -/
def outcome : Effect → Except Failure Unit
  | .write writing => writing.outcome
  | .check _ _ _ outcome => outcome
  | .remove _ outcome => outcome

end Effect

/-- The first failure of some outcomes, if there is one. -/
def firstFailure : List (Except Failure Unit) → Except Failure Unit
  | [] => .ok ()
  | .ok () :: rest => firstFailure rest
  | .error failure :: _ => .error failure

theorem firstFailure_append (first second : List (Except Failure Unit)) :
    firstFailure (first ++ second) = (firstFailure first).bind fun _ => firstFailure second := by
  induction first with
  | nil => rfl
  | cons outcome rest ih =>
      cases outcome with
      | error failure => rfl
      | ok value => exact ih

/-- No outcome is a failure if the first failure is none. -/
theorem eq_ok_of_firstFailure {outcomes : List (Except Failure Unit)}
    {outcome : Except Failure Unit}
    (none : firstFailure outcomes = .ok ()) (member : outcome ∈ outcomes) : outcome = .ok () := by
  induction outcomes with
  | nil => cases member
  | cons first rest ih =>
      cases first with
      | error failure => cases none
      | ok value =>
          rcases List.mem_cons.mp member with rfl | inRest
          · rfl
          · exact ih none inRest

/--
From one world another one is reached by having some effects, one after the other, with lines
added to log files in between.
-/
inductive Does (environment : Environment) : World links → List Effect → World links → Prop where
  | done {world after : World links} :
      World.OnlyAppends world after → Does environment world [] after
  | next {world start middle after : World links} {effect : Effect} {effects : List Effect} :
      World.OnlyAppends world start →
      Run.ending (effect.step environment) start = (effect.outcome, middle) →
      Does environment middle effects after → Does environment world (effect :: effects) after

namespace Does

variable {environment : Environment} {world middle after : World links}
variable {effect : Effect} {first second : List Effect}

theorem of_ending (ended : Run.ending (effect.step environment) world = (effect.outcome, after)) :
    Does environment world [effect] after :=
  .next (.refl world) ended (.done (.refl after))

theorem after_appends (appends : World.OnlyAppends world middle)
    (does : Does environment middle second after) : Does environment world second after := by
  cases does with
  | done more => exact .done (appends.trans more)
  | next more ended rest => exact .next (appends.trans more) ended rest

theorem append (before : Does environment world first middle)
    (later : Does environment middle second after) :
    Does environment world (first ++ second) after := by
  induction before with
  | done appends => exact later.after_appends appends
  | next appends ended _ ih => exact .next appends ended (ih later)

end Does

namespace Run

open World (OnlyAppends)

variable {environment : Environment} {part : Text} {world after : World links}
variable {file : TextFile} {files due : List TextFile} {outcome : Except Failure Unit}

/-! ## One attempt -/

/-- Writing bytes puts them where the path leads, or is refused and changes no file. -/
theorem ending_change_write_cases (bytes : List UInt8)
    (ended : ending (change "write" file.path fun disk here =>
      disk.write here file.path bytes) world = (outcome, after)) :
    ∃ disk, after = world.withDisk disk ∧
      ((outcome = .ok () ∧ ∃ place,
          disk.locate world.here (CleanPath.ofText file.path).text = .ok place ∧
          Disk.Grows (· = place) world.disk disk ∧ disk.file? place = some bytes) ∨
        ∃ error, outcome = .error (refusal "write" file.path error) ∧
          Disk.Grows Disk.nowhere world.disk disk) := by
  rw [ending_change] at ended
  rcases written : world.disk.write world.here file.path bytes with ⟨refused | taken, disk⟩
  · rw [written] at ended
    cases ended
    exact ⟨disk, rfl, .inr ⟨refused, rfl, Disk.grows_of_write_error written⟩⟩
  · rw [written] at ended
    cases ended
    exact ⟨disk, rfl, .inl ⟨rfl, Disk.exists_of_write written⟩⟩

theorem left?_refusal (file : TextFile) (error : DiskError) :
    Writing.left? ⟨file, .error (refusal "write" file.path error)⟩ = none := by
  cases error <;> rfl

/--
What an attempt to write a file leaves on the disk, however it ends: the disk grows, and if the
attempt leaves something its path leads to it.
-/
structure Leaves (world : World links) (writing : Writing) (disk : Disk links) : Prop where
  grows : Disk.Grows (fun _ => True) world.disk disk
  located : ∀ content, writing.left? = some content →
    ∃ place, disk.locate world.here (CleanPath.ofText writing.file.path).text = .ok place
  file : ∀ place, disk.file? place =
    (writing.leftAt? (world.withDisk disk) place).or (world.disk.file? place)

/-- An attempt that leaves nothing changes no file. -/
theorem Leaves.of_nothing {writing : Writing} {disk : Disk links} (nothing : writing.left? = none)
    (grows : Disk.Grows Disk.nowhere world.disk disk) : Leaves world writing disk where
  grows := grows.mono fun _ => False.elim
  located := fun content left => by
    rw [nothing] at left
    cases left
  file := fun place => by
    rw [grows.file place id, Writing.leftAt?, nothing, ite_self, Option.none_or]

/-- An attempt that leaves something leaves it where its path leads. -/
theorem Leaves.of_file {writing : Writing} {disk : Disk links} {bytes : List UInt8}
    {place : Location}
    (left : writing.left? = some bytes)
    (located : disk.locate world.here (CleanPath.ofText writing.file.path).text = .ok place)
    (grows : Disk.Grows (· = place) world.disk disk) (content : disk.file? place = some bytes) :
    Leaves world writing disk where
  grows := grows.mono fun _ _ => trivial
  located := fun _ _ => ⟨place, located⟩
  file := fun other => by
    have atPlace : (world.withDisk disk).disk.locate (world.withDisk disk).here
        (CleanPath.ofText writing.file.path).text = .ok place := located
    rcases eq_or_ne other place with rfl | differs
    · rw [Writing.leftAt?_of_locate atPlace, left, content, Option.some_or]
    · rw [grows.file other differs, Writing.leftAt?, atPlace, if_neg, Option.none_or]
      exact fun same => differs (Option.some.inj same).symm

theorem leaves_of_ending_writeText
    (ended : ending (writeText file.path file.content) world = (outcome, after)) :
    ∃ disk, after = world.withDisk disk ∧ Leaves world ⟨file, outcome⟩ disk := by
  rw [writeText] at ended
  split at ended
  · obtain ⟨disk, rfl, ⟨rfl, place, located, grows, content⟩ | ⟨error, rfl, grows⟩⟩ :=
      ending_change_write_cases _ ended
    · exact ⟨disk, rfl, .of_file rfl located grows content⟩
    · exact ⟨disk, rfl, .of_nothing (left?_refusal file error) grows⟩
  · rename_i halves unencodable
    rw [ending_bind] at ended
    rcases changed : ending (change "write" file.path fun disk here =>
      disk.write here file.path []) world with ⟨result, middle⟩
    rw [changed] at ended
    obtain ⟨disk, rfl, ⟨rfl, place, located, grows, content⟩ | ⟨error, rfl, grows⟩⟩ :=
      ending_change_write_cases _ changed
    · cases ended
      exact ⟨disk, rfl, .of_file rfl located grows content⟩
    · cases ended
      exact ⟨disk, rfl, .of_nothing (left?_refusal file error) grows⟩

/-- A file that cannot be written is refused by the disk, or is none that can be written. -/
theorem writeFailure_of_ending_writeText {failure : Failure}
    (ended : ending (writeText file.path file.content) world = (.error failure, after)) :
    WriteFailure file failure := by
  have refused (error : DiskError) {middle : World links} (failed :
      ending (writeText file.path file.content) world =
        (.error (refusal "write" file.path error), middle)) :
      WriteFailure file (refusal "write" file.path error) := by
    cases error with
    | refused cause path => exact .refused cause path
    | notAPath fault =>
        have faulty : EndsIn (.disk (.notAPath fault)) (writeText file.path file.content) world :=
          ⟨middle, failed⟩
        exact .fault (endsIn_writeText faulty)
  have whole := ended
  rw [writeText] at ended
  split at ended
  · obtain ⟨_, _, ⟨none, -⟩ | ⟨error, same, -⟩⟩ := ending_change_write_cases _ ended
    · cases none
    · cases same
      exact refused error whole
  · rename_i halves unencodable
    rw [ending_bind] at ended
    rcases changed : ending (change "write" file.path fun disk here =>
      disk.write here file.path []) world with ⟨result, middle⟩
    rw [changed] at ended
    obtain ⟨_, _, ⟨rfl, -⟩ | ⟨error, rfl, -⟩⟩ := ending_change_write_cases _ changed
    · cases ended
      exact .fault (.content unencodable)
    · cases ended
      exact refused error whole

/-! ## All attempts -/

/--
From one world another one is reached by attempts to write files.  The disk only grows, and every
file on it has what the last attempt that reached it left there, or is as it was, log files apart.
-/
structure Attempts (environment : Environment) (world : World links) (writings : List Writing)
    (after : World links) : Prop where
  does : Does environment world (writings.map .write) after
  here : after.here = world.here
  logs : ∀ path ∈ after.openLogs, path ∈ world.openLogs
  calls : after.calls = world.calls
  removals : after.removals = world.removals
  grows : Disk.Grows (fun _ => True) world.disk after.disk
  located : ∀ writing ∈ writings, ∀ content, writing.left? = some content →
    ∃ place, after.disk.locate after.here (CleanPath.ofText writing.file.path).text = .ok place
  file : ∀ place, ¬world.IsLogged place → after.disk.file? place =
    (Writing.lastLeft? after writings place).or (world.disk.file? place)
  failure : ∀ writing ∈ writings, ∀ failure, writing.outcome = .error failure →
    WriteFailure writing.file failure

namespace Attempts

variable {middle : World links} {writings first second : List Writing}

theorem of_appends (environment : Environment) (appends : OnlyAppends world after) :
    Attempts environment world [] after where
  does := .done appends
  here := appends.here
  logs := appends.logs
  calls := appends.calls
  removals := appends.removals
  grows := ⟨appends.shape.linkAt?, fun place => appends.folder place id, fun _ outside =>
    absurd trivial outside⟩
  located := fun _ none => nomatch none
  file := fun place notLogged => appends.file place id notLogged
  failure := fun _ none => nomatch none

theorem of_ending (environment : Environment)
    (ended : ending (writeText file.path file.content) world = (outcome, after)) :
    Attempts environment world [⟨file, outcome⟩] after := by
  obtain ⟨disk, rfl, leaves⟩ := leaves_of_ending_writeText ended
  refine ⟨.of_ending ended, rfl, fun path isOpen => (World.mem_openLogs_withDisk_iff.mp isOpen).1,
    rfl, rfl, leaves.grows, ?_, fun place _ => ?_, ?_⟩
  · intro writing member
    obtain rfl := List.mem_singleton.mp member
    exact leaves.located
  · rw [Writing.lastLeft?_cons, Writing.lastLeft?_nil, Option.none_or]
    exact leaves.file place
  · intro writing member failure failed
    obtain rfl := List.mem_singleton.mp member
    obtain rfl : outcome = .error failure := failed
    exact writeFailure_of_ending_writeText ended

theorem isLogged (attempts : Attempts environment world writings after) {place : Location}
    (logged : after.IsLogged place) : world.IsLogged place := by
  obtain ⟨path, isOpen, standing⟩ := logged
  rw [attempts.here] at standing
  refine ⟨path, attempts.logs path isOpen, fun straight => standing fun other passed => ?_⟩
  rw [attempts.grows.link]
  exact straight other passed

/-- What was left where a path led is found there by the same path as long as the disk grows. -/
theorem leftAt?_of_grows (attempts : Attempts environment world writings middle)
    (here : after.here = middle.here) {files : Location → Prop}
    (grows : Disk.Grows files middle.disk after.disk) {writing : Writing}
    (member : writing ∈ writings) (place : Location) :
    writing.leftAt? after place = writing.leftAt? middle place := by
  cases left : writing.left? with
  | none => rw [Writing.leftAt?, Writing.leftAt?, left, ite_self, ite_self]
  | some content =>
      obtain ⟨found, located⟩ := attempts.located writing member content left
      rw [Writing.leftAt?, Writing.leftAt?, here, grows.locate located, located]

/-- What one attempt leaves at a place stays until another one reaches the place. -/
theorem append (before : Attempts environment world first middle)
    (later : Attempts environment middle second after) :
    Attempts environment world (first ++ second) after where
  does := by
    rw [List.map_append]
    exact before.does.append later.does
  here := later.here.trans before.here
  logs := fun path isOpen => before.logs path (later.logs path isOpen)
  calls := later.calls.trans before.calls
  removals := later.removals.trans before.removals
  grows := before.grows.trans later.grows
  located := fun writing member content left => by
    rcases List.mem_append.mp member with inFirst | inSecond
    · obtain ⟨place, located⟩ := before.located writing inFirst content left
      exact ⟨place, later.here ▸ later.grows.locate located⟩
    · exact later.located writing inSecond content left
  file := fun place notLogged => by
    have same : Writing.lastLeft? after first place = Writing.lastLeft? middle first place :=
      Writing.lastLeft?_congr fun writing member =>
        before.leftAt?_of_grows later.here later.grows member place
    rw [later.file place (mt before.isLogged notLogged), before.file place notLogged,
      Writing.lastLeft?_append, same, Option.or_assoc]
  failure := fun writing member => by
    rcases List.mem_append.mp member with inFirst | inSecond
    · exact before.failure writing inFirst
    · exact later.failure writing inSecond

end Attempts

/--
Which of some jobs are attempted: each in turn up to the first that fails, and then only those
that are under way.
-/
inductive Attempted (schedule : Schedule) : List (TextFile × Nat) → List Writing → Prop where
  | done : Attempted schedule [] []
  | written {job : TextFile × Nat} {rest : List (TextFile × Nat)} {writings : List Writing} :
      Attempted schedule rest writings →
      Attempted schedule (job :: rest) (⟨job.1, .ok ()⟩ :: writings)
  | stopped {job : TextFile × Nat} {rest : List (TextFile × Nat)} {writings : List Writing}
      {failure : Failure} :
      writings.map Writing.file =
        (rest.filter fun other => schedule.underWay other.2).map Prod.fst →
      Attempted schedule (job :: rest) (⟨job.1, .error failure⟩ :: writings)

namespace Attempted

variable {schedule : Schedule} {jobs : List (TextFile × Nat)} {writings : List Writing}

/-- Where nothing fails, every job is attempted. -/
theorem files_of_ok (attempted : Attempted schedule jobs writings)
    (written : firstFailure (writings.map Writing.outcome) = .ok ()) :
    writings.map Writing.file = jobs.map Prod.fst := by
  induction attempted with
  | done => rfl
  | written _ ih => rw [List.map_cons, List.map_cons, ih written]
  | stopped _ => cases written

end Attempted

/-- The jobs that are under way are all attempted, however each of them ends. -/
theorem exists_attempts_finish (environment : Environment) (schedule : Schedule)
    (jobs : List (TextFile × Nat)) (world : World links) :
    ∃ writings after,
      ending (finish schedule (fun file : TextFile => writeText file.path file.content) jobs) world =
        (.ok (), after) ∧
      writings.map Writing.file = (jobs.filter fun job => schedule.underWay job.2).map Prod.fst ∧
      Attempts environment world writings after := by
  induction jobs generalizing world with
  | nil => exact ⟨[], world, rfl, rfl, .of_appends environment (.refl world)⟩
  | cons job rest ih =>
      rw [ending_finish_cons, List.filter_cons]
      by_cases underWay : schedule.underWay job.2 = true
      · rw [if_pos underWay, if_pos underWay]
        rcases ended : ending (writeText job.1.path job.1.content) world with ⟨outcome, middle⟩
        obtain ⟨writings, after, endedRest, same, attempts⟩ := ih middle
        exact ⟨⟨job.1, outcome⟩ :: writings, after, endedRest,
          by rw [List.map_cons, List.map_cons, same],
          (Attempts.of_ending environment ended).append attempts⟩
      · rw [if_neg underWay, if_neg underWay]
        exact ih world

/-- Files are attempted in turn; the first failure stops this, and is how the row ends. -/
theorem exists_attempts (environment : Environment) (schedule : Schedule)
    (jobs : List (TextFile × Nat)) (world : World links) :
    ∃ writings after,
      ending (discard (takeTurns schedule
          (fun file : TextFile => writeText file.path file.content) jobs)) world =
        (firstFailure (writings.map Writing.outcome), after) ∧
      Attempted schedule jobs writings ∧ Attempts environment world writings after := by
  induction jobs generalizing world with
  | nil => exact ⟨[], world, rfl, .done, .of_appends environment (.refl world)⟩
  | cons job rest ih =>
      rcases ended : ending (writeText job.1.path job.1.content) world with ⟨outcome, middle⟩
      have own := Attempts.of_ending environment ended
      rw [ending_discard]
      cases outcome with
      | ok value =>
          obtain ⟨writings, after, endedRest, attempted, attempts⟩ := ih middle
          refine ⟨⟨job.1, .ok ()⟩ :: writings, after, ?_, .written attempted, own.append attempts⟩
          rw [ending_discard] at endedRest
          rw [ending_takeTurns_cons_of_ok ended]
          refine Eq.trans ?_ endedRest
          rcases ending (takeTurns schedule _ rest) middle with ⟨_ | _, last⟩ <;> rfl
      | error failure =>
          obtain ⟨writings, after, finished, files, attempts⟩ :=
            exists_attempts_finish environment schedule rest middle
          refine ⟨⟨job.1, .error failure⟩ :: writings, after, ?_, .stopped files,
            own.append attempts⟩
          rw [ending_takeTurns_cons_of_error ended, finished]
          rfl

/-- Where the values do not matter, a row of steps is its turns. -/
theorem ending_discard_forEach {α ι : Type} (schedule : Schedule) (step : ι → RunOn links α)
    (items : List ι) (world : World links) :
    ending (discard (forEach schedule step items)) world =
      ending (discard (takeTurns schedule step (schedule.arrange items))) world := by
  rw [ending_discard, ending_discard, forEach, ending_bind]
  rcases ending (takeTurns schedule step (schedule.arrange items)) world with ⟨_ | _, after⟩ <;> rfl

/-- Writing files attempts those that are due, in turn, and ends as their row does. -/
theorem exists_attempts_writeAll (environment : Environment) (part : Text) (files : List TextFile)
    (schedule : WriteSchedule) (world : World links) :
    ∃ writings after,
      ending (writeAll part files schedule) world =
        (firstFailure (writings.map Writing.outcome), after) ∧
      Attempted schedule.writes (schedule.writes.arrange (files.filter world.isDue)) writings ∧
      Attempts environment world writings after := by
  obtain ⟨middle, due, appends⟩ := ending_dueFiles schedule.checks part files world
  obtain ⟨writings, after, ended, attempted, attempts⟩ :=
    exists_attempts environment schedule.writes
      (schedule.writes.arrange (files.filter world.isDue)) middle
  rw [writeAll, ending_bind_of_ok due, ending_discard_forEach]
  exact ⟨writings, after, ended, attempted,
    (Attempts.of_appends environment appends).append attempts⟩

/-- A file with half of a pair, for which there are no bytes. -/
def halfFile : TextFile := { path := "a.md", content := [.half 0] }

/-- A world in which files stand where the folders of other files would have to be. -/
def blockedWorld : World :=
  { disk := { entries := [([("a" : Text)], .file []), ([("b" : Text)], .file [])] } }

/-- Two files whose folders cannot be made, and one that can be written. -/
def blockedFiles : List TextFile :=
  [{ path := "a/x", content := "" }, { path := "b/x", content := "" }, { path := "c", content := "" }]

/-- The second of three files has its turn first, and then the first one is under way. -/
def secondFirst : WriteSchedule :=
  { writes :=
      { turn := fun place => if place = 1 then 0 else 1, underWay := fun place => place == 0 } }

/-- Whether a failure names a path. -/
def namesPath (path : Text) : Failure → Bool
  | .resource other _ => other == path
  | _ => false

end Run

end ApiDocs
