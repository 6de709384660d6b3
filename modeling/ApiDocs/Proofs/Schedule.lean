import Mathlib.Data.List.Nodup
import Mathlib.Data.List.Perm.Basic
import Mathlib.Logic.Function.Iterate
import ApiDocs.Proofs.Checked
import ApiDocs.Proofs.Outcome
import ApiDocs.Schedule

/-!
# Tasks under any schedule

Waiting for all tasks is described here turn by turn.  A schedule says whose turn it is; a
task finishes in its last turn, and the waiting ends when no task is left.  What is made of
the outcomes then goes by the places of the tasks and not by the order in which they finished.

The main statement says that every schedule that ends gives what waiting for all tasks gives,
that no task is cancelled and each finishes once, and that the tasks can finish in any order.
-/

namespace ApiDocs.Task

variable {ε α : Type}

/-- How far a task has come: how many turns come before its last one, or that it has finished. -/
inductive Stage (ε α : Type) where
  | running (left : Nat) (outcome : Except ε α)
  | finished (outcome : Except ε α)

namespace Stage

/-- What the task ends with, now or later. -/
def outcome : Stage ε α → Except ε α
  | .running _ outcome => outcome
  | .finished outcome => outcome

/-- What the task has ended with. -/
def ended? : Stage ε α → Option (Except ε α)
  | .running _ _ => none
  | .finished outcome => some outcome

/-- A turn of the task. -/
def turn : Stage ε α → Stage ε α
  | .running 0 outcome => .finished outcome
  | .running (left + 1) outcome => .running left outcome
  | .finished outcome => .finished outcome

/-- Whether the next turn of the task is its last one. -/
def isDue : Stage ε α → Bool
  | .running 0 _ => true
  | _ => false

@[simp]
theorem outcome_turn (stage : Stage ε α) : stage.turn.outcome = stage.outcome := by
  rcases stage with (_ | left) | _ <;> rfl

/-- A turn ends a task exactly if it is its last one. -/
theorem isSome_ended?_turn (stage : Stage ε α) :
    stage.turn.ended?.isSome = (stage.ended?.isSome || stage.isDue) := by
  rcases stage with (_ | left) | _ <;> rfl

theorem isSome_ended?_of_turns (turns left : Nat) (outcome : Except ε α) :
    ((turn^[turns]) (.running left outcome)).ended?.isSome = decide (left < turns) := by
  induction turns generalizing left with
  | zero => simp [ended?]
  | succ turns ih =>
      rw [Function.iterate_succ_apply]
      cases left with
      | zero =>
          have stays : (turn^[turns]) (.finished outcome) = .finished outcome :=
            Function.iterate_fixed rfl turns
          simp [turn, stays, ended?]
      | succ left => simp [turn, ih]

end Stage

/-- Tasks that are waited for, and what has happened to them so far. -/
structure Waiting (ε α : Type) where
  stages : List (Stage ε α)
  events : List TaskEvent := []

/-- Tasks that were started together. -/
def start (tasks : List (Task ε α)) : Waiting ε α :=
  { stages := tasks.map fun task => .running task.ticks task.outcome }

/-- The error of an outcome. -/
def failed? : Except ε α → Option ε
  | .ok _ => none
  | .error error => some error

/--
What is made of the outcomes of all tasks: they are searched for an error in the order of the
list, and only if there is none the checks are put together.
-/
def conclude (outcomes : List (Except ε (Checked α))) : Except ε (Checked (List α)) :=
  match outcomes.findSome? failed? with
  | some error => .error error
  | none => .ok (Checked.all (outcomes.filterMap Except.toOption))

namespace Waiting

/--
The task at a place takes a turn; a place without a task, or with a finished one, is passed by.
-/
def turn (waiting : Waiting ε α) (index : Nat) : Waiting ε α :=
  { stages := waiting.stages.modify index Stage.turn
    events := waiting.events ++
      if (waiting.stages[index]?).any Stage.isDue then [.finish index] else [] }

/-- Whether all tasks have finished. -/
def isOver (waiting : Waiting ε α) : Bool :=
  waiting.stages.all fun stage => stage.ended?.isSome

end Waiting

/--
Waits for all tasks under a schedule: the places of the tasks in the order of their turns.
The waiting ends as soon as all tasks have finished; a schedule that is too short has no end.
-/
def settleBy : List Nat → Waiting ε (Checked α) →
    Option (Except ε (Checked (List α)) × List TaskEvent)
  | [], waiting =>
    if waiting.isOver then some (conclude (waiting.stages.filterMap Stage.ended?), waiting.events)
    else none
  | index :: rest, waiting =>
    if waiting.isOver then some (conclude (waiting.stages.filterMap Stage.ended?), waiting.events)
    else settleBy rest (waiting.turn index)

section Conclusion

variable {outcomes : List (Except ε (Checked α))}

theorem conclude_of_checks {checks : List (Checked α)} (given : outcomes = checks.map .ok) :
    conclude outcomes = .ok (Checked.all checks) := by
  have fine : outcomes.findSome? failed? = none := by
    rw [given]
    simp [failed?]
  have values : outcomes.filterMap Except.toOption = checks := by
    rw [given, List.filterMap_map]
    exact List.filterMap_some
  rw [conclude, fine, values]

theorem conclude_of_failure {before after : List (Except ε (Checked α))} {error : ε}
    (fine : ∀ outcome ∈ before, ∃ checked, outcome = .ok checked) :
    conclude (before ++ .error error :: after) = .error error := by
  have fine : before.findSome? failed? = none := by
    rw [List.findSome?_eq_none_iff]
    intro outcome member
    obtain ⟨checked, rfl⟩ := fine outcome member
    rfl
  rw [conclude, List.findSome?_append, fine]
  rfl

/-- Waiting for all tasks makes of their outcomes what is made of them under any schedule. -/
theorem conclude_outcomes (tasks : List (Task ε (Checked α))) :
    conclude (tasks.map Task.outcome) = (settle tasks).1 := by
  rw [settle, values]
  cases made : tasks.mapM Task.outcome with
  | ok checks =>
      rw [conclude_of_checks (mapM_eq_ok_iff.mp made)]
  | error error =>
      obtain ⟨before, task, after, rfl, fine, failed⟩ := mapM_eq_error_iff.mp made
      rw [List.map_append, List.map_cons, failed, conclude_of_failure]
      intro outcome member
      obtain ⟨other, inBefore, rfl⟩ := List.mem_map.mp member
      exact fine other inBefore

end Conclusion

namespace Waiting

/-- The tasks after the turns of a schedule. -/
def run (schedule : List Nat) (waiting : Waiting ε α) : Waiting ε α :=
  schedule.foldl turn waiting

variable (waiting : Waiting ε α)

/-- A schedule gives each task as many turns as it names its place. -/
theorem stages_run (schedule : List Nat) (index : Nat) :
    (waiting.run schedule).stages[index]? =
      (waiting.stages[index]?).map (Stage.turn^[schedule.count index]) := by
  induction schedule generalizing waiting with
  | nil => simp [run]
  | cons next rest ih =>
      rw [run, List.foldl_cons, ← run, ih, turn, List.getElem?_modify, Option.map_eq_map,
        Option.map_map, List.count_cons]
      by_cases same : next = index
      · simp [same, Function.iterate_succ]
      · simp [same, Function.comp_def]

theorem outcomes_run (schedule : List Nat) :
    (waiting.run schedule).stages.map Stage.outcome = waiting.stages.map Stage.outcome := by
  have same (turns : Nat) (stage : Stage ε α) :
      (Stage.turn^[turns] stage).outcome = stage.outcome := by
    induction turns with
    | zero => rfl
    | succ turns ih => rw [Function.iterate_succ_apply', Stage.outcome_turn, ih]
  apply List.ext_getElem?
  intro index
  rw [List.getElem?_map, List.getElem?_map, stages_run, Option.map_map]
  congr 1
  funext stage
  exact same _ stage

variable {waiting}

/-- Once all tasks have finished, each has ended with its outcome. -/
theorem ended_of_isOver (allEnded : waiting.isOver = true) :
    waiting.stages.filterMap Stage.ended? = waiting.stages.map Stage.outcome := by
  rw [← List.filterMap_eq_map]
  apply List.filterMap_congr
  intro stage member
  have ended := List.all_eq_true.mp allEnded stage member
  cases stage with
  | running left outcome => cases ended
  | finished outcome => rfl

/-- Once all tasks have finished, no turn changes anything. -/
theorem turn_of_isOver (allEnded : waiting.isOver = true) (index : Nat) :
    waiting.turn index = waiting := by
  have still : ∀ stage ∈ waiting.stages, stage.turn = stage ∧ stage.isDue = false := by
    intro stage member
    have ended := List.all_eq_true.mp allEnded stage member
    cases stage with
    | running left outcome => cases ended
    | finished outcome => exact ⟨rfl, rfl⟩
  have stages : waiting.stages.modify index Stage.turn = waiting.stages := by
    apply List.ext_getElem?
    intro place
    rw [List.getElem?_modify]
    cases standing : waiting.stages[place]? with
    | none => rfl
    | some stage => simp [(still stage (List.mem_of_getElem? standing)).1]
  have notDue : (waiting.stages[index]?).any Stage.isDue = false := by
    cases standing : waiting.stages[index]? with
    | none => rfl
    | some stage => exact (still stage (List.mem_of_getElem? standing)).2
  rw [turn, stages, notDue]
  simp

theorem run_of_isOver (allEnded : waiting.isOver = true) (schedule : List Nat) :
    waiting.run schedule = waiting :=
  List.foldl_fixed' (turn_of_isOver allEnded) schedule

end Waiting

/-- The waiting ends with what has become of the tasks after all turns of the schedule. -/
theorem settleBy_eq (schedule : List Nat) (waiting : Waiting ε (Checked α)) :
    settleBy schedule waiting =
      if (waiting.run schedule).isOver then
        some (conclude (waiting.stages.map Stage.outcome), (waiting.run schedule).events)
      else none := by
  induction schedule generalizing waiting with
  | nil =>
      rw [settleBy, Waiting.run, List.foldl_nil]
      split
      · rename_i allEnded
        rw [Waiting.ended_of_isOver allEnded]
      · rfl
  | cons index rest ih =>
      rw [settleBy]
      split
      · rename_i allEnded
        rw [Waiting.run_of_isOver allEnded, if_pos allEnded, Waiting.ended_of_isOver allEnded]
      · rw [ih, Waiting.run, Waiting.run, List.foldl_cons, ← Waiting.outcomes_run waiting [index]]
        rfl

namespace Waiting

/-- What has happened is that each finished task has finished once. -/
structure IsRecorded (waiting : Waiting ε α) : Prop where
  nodup : waiting.events.Nodup
  finish_mem_iff : ∀ index, .finish index ∈ waiting.events ↔
    (waiting.stages[index]?).any (fun stage => stage.ended?.isSome) = true
  cancel_not_mem : ∀ index, .cancel index ∉ waiting.events

variable {waiting : Waiting ε α}

/-- A turn ends the task that takes it, if that is due. -/
theorem any_isSome_ended?_turn (waiting : Waiting ε α) (index place : Nat) :
    ((waiting.turn index).stages[place]?).any (fun stage => stage.ended?.isSome) =
      ((waiting.stages[place]?).any (fun stage => stage.ended?.isSome) ||
        (index == place && (waiting.stages[place]?).any Stage.isDue)) := by
  rw [Waiting.turn, List.getElem?_modify]
  cases waiting.stages[place]? with
  | none => simp
  | some stage =>
      by_cases same : index = place
      · simp [same, Stage.isSome_ended?_turn]
      · simp [same]

/-- A task that is due has not finished yet. -/
theorem IsRecorded.finish_not_mem_of_isDue (recorded : waiting.IsRecorded) {index : Nat}
    (due : (waiting.stages[index]?).any Stage.isDue = true) : .finish index ∉ waiting.events := by
  rw [recorded.finish_mem_iff]
  cases standing : waiting.stages[index]? with
  | none => simp
  | some stage =>
      rw [standing] at due
      rcases stage with (_ | left) | _
      · simp [Stage.ended?]
      · cases due
      · cases due

theorem IsRecorded.turn (recorded : waiting.IsRecorded) (index : Nat) :
    (waiting.turn index).IsRecorded := by
  by_cases due : (waiting.stages[index]?).any Stage.isDue = true
  · have events : (waiting.turn index).events = waiting.events ++ [.finish index] := by
      rw [Waiting.turn, if_pos due]
    refine ⟨?_, ?_, ?_⟩
    · rw [events, ← List.concat_eq_append]
      exact recorded.nodup.concat (recorded.finish_not_mem_of_isDue due)
    · intro place
      rw [events, any_isSome_ended?_turn, List.mem_append, recorded.finish_mem_iff]
      by_cases same : index = place
      · simp [← same, due]
      · simp [same, Ne.symm same]
    · intro place
      rw [events]
      simp [recorded.cancel_not_mem]
  · have events : (waiting.turn index).events = waiting.events := by
      rw [Waiting.turn, if_neg due, List.append_nil]
    refine ⟨?_, ?_, ?_⟩
    · rw [events]
      exact recorded.nodup
    · intro place
      rw [events, any_isSome_ended?_turn, recorded.finish_mem_iff]
      by_cases same : index = place
      · simp [← same, due]
      · simp [same]
    · rw [events]
      exact recorded.cancel_not_mem

theorem IsRecorded.run (recorded : waiting.IsRecorded) (schedule : List Nat) :
    (waiting.run schedule).IsRecorded := by
  induction schedule generalizing waiting with
  | nil => exact recorded
  | cons index rest ih => exact ih (recorded.turn index)

theorem isRecorded_start (tasks : List (Task ε α)) : (start tasks).IsRecorded where
  nodup := List.nodup_nil
  finish_mem_iff := by
    intro index
    cases standing : tasks[index]? with
    | none => simp [start, standing]
    | some task => simp [start, standing, Stage.ended?]
  cancel_not_mem := by simp [start]

/-- Once all tasks have finished, each of them has done so once, and nothing else has happened. -/
theorem IsRecorded.events_perm (recorded : waiting.IsRecorded) (allEnded : waiting.isOver = true) :
    waiting.events.Perm ((List.range waiting.stages.length).map .finish) := by
  have distinct : ((List.range waiting.stages.length).map TaskEvent.finish).Nodup :=
    List.nodup_range.map fun _ _ => TaskEvent.finish.inj
  rw [List.perm_ext_iff_of_nodup recorded.nodup distinct]
  intro event
  cases event with
  | cancel index => simp [recorded.cancel_not_mem]
  | finish index =>
      rw [recorded.finish_mem_iff, List.mem_map_of_injective fun _ _ => TaskEvent.finish.inj,
        List.mem_range]
      cases standing : waiting.stages[index]? with
      | none => simpa using standing
      | some stage =>
          have ended := List.all_eq_true.mp allEnded stage (List.mem_of_getElem? standing)
          have inside := (List.getElem?_eq_some_iff.mp standing).1
          simp [ended, inside]

theorem length_run (schedule : List Nat) :
    (waiting.run schedule).stages.length = waiting.stages.length := by
  have same := congrArg List.length (outcomes_run waiting schedule)
  simpa using same

/-- A schedule that gives each task all its turns sees every task finish. -/
theorem isOver_run_start {tasks : List (Task ε α)} {schedule : List Nat}
    (enough : ∀ index task, tasks[index]? = some task → task.ticks < schedule.count index) :
    ((start tasks).run schedule).isOver = true := by
  rw [isOver, List.all_eq_true]
  intro stage member
  obtain ⟨index, standing⟩ := List.mem_iff_getElem?.mp member
  rw [stages_run, start, List.getElem?_map, Option.map_map, Option.map_eq_some_iff] at standing
  obtain ⟨task, given, rfl⟩ := standing
  rw [Function.comp_apply, Stage.isSome_ended?_of_turns, decide_eq_true_eq]
  exact enough index task given

/-- All turns of one task in a row end with its finish. -/
theorem events_run_replicate {index left : Nat} {outcome : Except ε α}
    (standing : waiting.stages[index]? = some (.running left outcome)) :
    (waiting.run (List.replicate (left + 1) index)).events = waiting.events ++ [.finish index] := by
  induction left generalizing waiting with
  | zero =>
      simp [Waiting.run, Waiting.turn, standing, Stage.isDue]
  | succ left ih =>
      rw [List.replicate_succ, Waiting.run, List.foldl_cons, ← Waiting.run, ih]
      · simp [Waiting.turn, standing, Stage.isDue]
      · simp [Waiting.turn, standing, Stage.turn]

end Waiting

/-- The schedule in which the tasks take all their turns one after the other, in a given order. -/
def inOrder (tasks : List (Task ε α)) (order : List Nat) : List Nat :=
  order.flatMap fun index => List.replicate ((tasks[index]?).elim 0 Task.ticks + 1) index

theorem Waiting.events_run_inOrder {waiting : Waiting ε α} {tasks : List (Task ε α)}
    {order : List Nat} (distinct : order.Nodup)
    (standing : ∀ index ∈ order, ∃ task, tasks[index]? = some task ∧
      waiting.stages[index]? = some (.running task.ticks task.outcome)) :
    (waiting.run (inOrder tasks order)).events = waiting.events ++ order.map .finish := by
  induction order generalizing waiting with
  | nil => simp [Waiting.run, inOrder]
  | cons index rest ih =>
      obtain ⟨notAgain, others⟩ := List.nodup_cons.mp distinct
      obtain ⟨task, given, running⟩ := standing index List.mem_cons_self
      have first := events_run_replicate running
      rw [inOrder, List.flatMap_cons, given, Option.elim_some, ← inOrder, Waiting.run,
        List.foldl_append, ← Waiting.run, ← Waiting.run, ih others, first, List.map_cons,
        List.append_assoc, List.singleton_append]
      intro other member
      obtain ⟨task, given, running⟩ := standing other (List.mem_cons_of_mem _ member)
      have apart : index ≠ other := by
        rintro rfl
        exact notAgain member
      refine ⟨task, given, ?_⟩
      simp [stages_run, List.count_replicate, apart, running]

theorem length_start (tasks : List (Task ε α)) : (start tasks).stages.length = tasks.length := by
  simp [start]

theorem start_outcomes (tasks : List (Task ε α)) :
    (start tasks).stages.map Stage.outcome = tasks.map Task.outcome := by
  rw [start, List.map_map]
  rfl

/-- Waiting for all tasks lets each of them finish once, in an order of their rounds. -/
theorem exists_order_settle (tasks : List (Task ε (Checked α))) :
    ∃ order : List Nat, order.Perm (List.range tasks.length) ∧
      (settle tasks).2 = order.map .finish := by
  refine ⟨(byFinish tasks).map Prod.fst, ?_, ?_⟩
  · have places : (indexed tasks).map Prod.fst = List.range tasks.length := by
      rw [indexed, List.map_map, List.range_eq_range']
      exact List.zipIdx_map_snd 0 tasks
    rw [← places]
    exact (List.mergeSort_perm _ _).map Prod.fst
  · rw [settle, List.map_map]
    rfl

theorem settleBy_inOrder (tasks : List (Task ε (Checked α))) {order : List Nat}
    (perm : order.Perm (List.range tasks.length)) :
    settleBy (inOrder tasks order) (start tasks) =
      some ((settle tasks).1, order.map .finish) := by
  have distinct : order.Nodup := perm.nodup_iff.mpr List.nodup_range
  have standing : ∀ index ∈ order, ∃ task, tasks[index]? = some task ∧
      (start tasks).stages[index]? = some (.running task.ticks task.outcome) := by
    intro index member
    have inside : index < tasks.length := List.mem_range.mp (perm.subset member)
    exact ⟨tasks[index], List.getElem?_eq_getElem inside, by simp [start, inside]⟩
  have enough : ∀ index task, tasks[index]? = some task →
      task.ticks < (inOrder tasks order).count index := by
    intro index task given
    have inside : index ∈ order := by
      rw [perm.mem_iff, List.mem_range]
      exact (List.getElem?_eq_some_iff.mp given).1
    have turns : (List.replicate (task.ticks + 1) index).Sublist (inOrder tasks order) := by
      rw [inOrder, List.flatMap_def]
      refine List.sublist_flatten_of_mem (List.mem_map.mpr ⟨index, inside, ?_⟩)
      rw [given, Option.elim_some]
    have counted := turns.count_le index
    rw [List.count_replicate_self] at counted
    exact counted
  rw [settleBy_eq, if_pos (Waiting.isOver_run_start enough), start_outcomes, conclude_outcomes,
    Waiting.events_run_inOrder distinct standing]
  rfl

/--
Waiting for all tasks does not depend on the schedule.  Whatever the schedule, once the waiting
ends every task has finished, each of them once, none has been cancelled, and the outcome is the
same.  The waiting ends if every task gets its turns, and the tasks can finish in any order.
The outcome is the error of the first task in the list that has one, and otherwise all errors or
all values in the order of the list; it depends on nothing but the outcomes of the tasks.
-/
theorem settle_under_every_schedule (tasks : List (Task ε (Checked α))) :
    (∀ schedule outcome events,
      settleBy schedule (start tasks) = some (outcome, events) →
        outcome = (settle tasks).1 ∧
          events.Perm ((List.range tasks.length).map .finish)) ∧
    (∀ schedule,
      (∀ index task, tasks[index]? = some task → task.ticks < schedule.count index) →
        ∃ ended, settleBy schedule (start tasks) = some ended) ∧
    (∀ order : List Nat, order.Perm (List.range tasks.length) →
      ∃ schedule, settleBy schedule (start tasks) = some ((settle tasks).1, order.map .finish)) ∧
    (∃ schedule, settleBy schedule (start tasks) = some (settle tasks)) ∧
    (∀ before task after error, tasks = before ++ task :: after →
      (∀ earlier ∈ before, ∃ checked, earlier.outcome = .ok checked) →
        task.outcome = .error error → (settle tasks).1 = .error error) ∧
    (∀ checks : List (Checked α), tasks.map Task.outcome = checks.map .ok →
      ∃ merged, (settle tasks).1 = .ok merged ∧
        merged.errors = checks.flatMap Checked.errors ∧
        ∀ values, merged = .accepted values ↔ checks = values.map .accepted) ∧
    ∀ others : List (Task ε (Checked α)), others.map Task.outcome = tasks.map Task.outcome →
      (settle others).1 = (settle tasks).1 := by
  refine ⟨?_, ?_, ?_, ?_, ?_, ?_, ?_⟩
  · intro schedule outcome events ended
    rw [settleBy_eq, start_outcomes, conclude_outcomes] at ended
    split at ended
    · rename_i allEnded
      cases ended
      refine ⟨rfl, ?_⟩
      have recorded := (Waiting.isRecorded_start tasks).run schedule
      have perm := recorded.events_perm allEnded
      rw [Waiting.length_run, length_start] at perm
      exact perm
    · cases ended
  · intro schedule enough
    rw [settleBy_eq, if_pos (Waiting.isOver_run_start enough)]
    exact ⟨_, rfl⟩
  · exact fun order perm => ⟨_, settleBy_inOrder tasks perm⟩
  · obtain ⟨order, perm, events⟩ := exists_order_settle tasks
    refine ⟨inOrder tasks order, ?_⟩
    rw [settleBy_inOrder tasks perm, ← events]
  · rintro before task after error rfl fine failed
    rw [← conclude_outcomes, List.map_append, List.map_cons, failed, conclude_of_failure]
    intro outcome member
    obtain ⟨earlier, inBefore, rfl⟩ := List.mem_map.mp member
    exact fine earlier inBefore
  · intro checks given
    refine ⟨Checked.all checks, ?_, Checked.errors_all checks,
      fun values => Checked.all_eq_accepted_iff checks values⟩
    rw [← conclude_outcomes, conclude_of_checks given]
  · intro others same
    rw [← conclude_outcomes, same, conclude_outcomes]

/-- A check that is rejected in the second round, an error in the first and one in the third. -/
def mixedTasks : List (Task Nat (Checked Nat)) :=
  [{ ticks := 1, outcome := .ok (.rejected "unchecked" []) },
    { ticks := 0, outcome := .error 1 },
    { ticks := 2, outcome := .error 2 }]

/-- The last task finishes first, but the error of the one before it counts. -/
theorem settle_mixedTasks :
    settleBy [2, 2, 2, 0, 1, 0] (start mixedTasks) =
        some ((settle mixedTasks).1, [.finish 2, .finish 1, .finish 0]) ∧
      [TaskEvent.finish 2, .finish 1, .finish 0].Perm ((List.range 3).map .finish) ∧
      (settle mixedTasks).1 = .error 1 := by
  obtain ⟨everySchedule, -, -, -, firstError, -, -⟩ := settle_under_every_schedule mixedTasks
  have failed : (settle mixedTasks).1 = .error 1 :=
    firstError [_] _ [_] 1 rfl (by simp) rfl
  have ended : settleBy [2, 2, 2, 0, 1, 0] (start mixedTasks) =
      some (.error 1, [.finish 2, .finish 1, .finish 0]) := rfl
  obtain ⟨outcome, perm⟩ := everySchedule _ _ _ ended
  exact ⟨ended.trans (by rw [outcome]), perm, failed⟩

end ApiDocs.Task
