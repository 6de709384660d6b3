import Mathlib.Data.List.FinRange
import Mathlib.Data.List.Nodup
import Mathlib.Logic.Function.Basic
import Mathlib.Logic.Function.Iterate
import ApiDocs.Schedule

/-!
# Waiting for tasks on an event loop

An event loop holds calls that are ready, in the order in which they were made.  In a round it
handles the calls that are ready at its beginning; calls that are made meanwhile have to wait
for the next round.

The caller waits for tasks and hears of each that has finished.  At the first error it asks all
tasks that are still running to stop, and waits once more, until it has heard of every task again.
A task that was asked to stop is cancelled at its next turn.
-/

namespace ApiDocs.Task

variable {ε α : Type} {n : Nat}

/-- How far a task has come. -/
inductive Life (ε α : Type) where
  /-- It finishes after some more turns, unless it was asked to stop. -/
  | running (left : Nat) (asked : Bool) (outcome : Except ε α)
  | finished (outcome : Except ε α)
  | cancelled

namespace Life

/-- Whether the task takes no more turns. -/
def isOver : Life ε α → Bool
  | .running _ _ _ => false
  | .finished _ | .cancelled => true

/-- Asks a task to stop; one that is over does not mind. -/
def ask : Life ε α → Life ε α
  | .running left _ outcome => .running left true outcome
  | .finished outcome => .finished outcome
  | .cancelled => .cancelled

/-- The value that the task has finished with. -/
def value? : Life ε α → Option α
  | .finished (.ok value) => some value
  | .finished (.error _) | .running _ _ _ | .cancelled => none

end Life

/-- A call that is ready on the loop. -/
inductive Call (n : Nat) where
  /-- A task takes a turn. -/
  | turn (index : Fin n)
  /-- The caller hears that a task is over. -/
  | report (index : Fin n)
  /-- The caller hears so while it waits for all tasks to stop. -/
  | lastReport (index : Fin n)
  /-- The caller goes on. -/
  | wake

namespace Call

/-- Whether the call is a report. -/
def isReport : Call n → Bool
  | .report _ | .lastReport _ => true
  | .turn _ | .wake => false

/-- Whether the call reports that a task has stopped. -/
def isLast : Call n → Bool
  | .lastReport _ => true
  | .turn _ | .report _ | .wake => false

end Call

/-- What the caller does. -/
inductive Caller (ε α : Type) where
  | waiting
  /-- It waits for all tasks to stop, and will end with an error. -/
  | stopping (error : ε)
  | ended (result : Except ε (List α))

/-- The caller and its tasks. -/
structure Loop (n : Nat) (ε α : Type) where
  lives : Fin n → Life ε α
  caller : Caller ε α := .waiting
  /-- What the waiting has come to, once that is known. -/
  answer : Option (Except ε (List α)) := none
  /-- How many tasks the caller has heard of. -/
  heard : Nat := 0
  /-- How many tasks it has heard of since it waits for all of them to stop. -/
  heardAgain : Nat := 0
  ready : List (Call n)
  events : List TaskEvent := []

/-- Whether the caller has come to its end. -/
def Caller.hasEnded : Caller ε α → Bool
  | .ended _ => true
  | .waiting | .stopping _ => false

/-- The first error is that of the task that is least by its turns and then by its place. -/
structure FailsFirst (task : Fin n → Task ε α) (failing : Fin n) (turns : Nat) (error : ε) :
    Prop where
  ticks : (task failing).ticks = turns
  outcome : (task failing).outcome = .error error
  first : ∀ index other, (task index).outcome = .error other →
    turns < (task index).ticks ∨ turns = (task index).ticks ∧ failing ≤ index

/-- A task that is less has a value. -/
theorem FailsFirst.isOk {task : Fin n → Task ε α} {failing index : Fin n} {turns : Nat} {error : ε}
    (fails : FailsFirst task failing turns error)
    (earlier : (task index).ticks < turns ∨ (task index).ticks = turns ∧ index < failing) :
    ∃ value, (task index).outcome = .ok value := by
  cases outcome : (task index).outcome with
  | ok value => exact ⟨value, rfl⟩
  | error other =>
      have := fails.first index other outcome
      omega

namespace Loop

/-- Tasks that are started together; who waits for no task need not wait. -/
def start (task : Fin n → Task ε α) : Loop n ε α where
  lives := fun index => .running (task index).ticks false (task index).outcome
  caller := if n = 0 then .ended (.ok []) else .waiting
  ready := (List.finRange n).map .turn

/-- The calls that report that a task is over. -/
def reports (loop : Loop n ε α) (index : Fin n) : List (Call n) :=
  match loop.caller with
  | .stopping _ => [.report index, .lastReport index]
  | .waiting | .ended _ => [.report index]

/-- A task comes to its end, and is reported. -/
def endTask (loop : Loop n ε α) (index : Fin n) (life : Life ε α) (event : TaskEvent) :
    Loop n ε α :=
  { loop with
    lives := Function.update loop.lives index life
    ready := loop.ready ++ loop.reports index
    events := loop.events ++ [event] }

/-- A task takes a turn. -/
def takeTurn (loop : Loop n ε α) (index : Fin n) : Loop n ε α :=
  match loop.lives index with
  | .running _ true _ => loop.endTask index .cancelled (.cancel index)
  | .running 0 false outcome => loop.endTask index (.finished outcome) (.finish index)
  | .running (left + 1) false outcome =>
    { loop with
      lives := Function.update loop.lives index (.running left false outcome)
      ready := loop.ready ++ [.turn index] }
  | .finished _ | .cancelled => loop

/-- The values of the tasks that have finished with one. -/
def values (loop : Loop n ε α) : List α :=
  (List.finRange n).filterMap fun index => (loop.lives index).value?

/-- The waiting has come to an answer. -/
def resolve (loop : Loop n ε α) (answer : Except ε (List α)) : Loop n ε α :=
  { loop with answer := some answer, ready := loop.ready ++ [.wake] }

/-- The caller hears that a task is over; only the first answer counts. -/
def hear (loop : Loop n ε α) (index : Fin n) : Loop n ε α :=
  match loop.answer, loop.lives index with
  | none, .finished (.error error) => loop.resolve (.error error)
  | none, .finished (.ok _) =>
    let next := { loop with heard := loop.heard + 1 }
    if next.heard = n then next.resolve (.ok loop.values) else next
  | _, _ => loop

/-- The caller hears once more that a task is over; it goes on when it has heard of all. -/
def hearAgain (loop : Loop n ε α) : Loop n ε α :=
  { loop with
    heardAgain := loop.heardAgain + 1
    ready := loop.ready ++ if loop.heardAgain + 1 = n then [.wake] else [] }

/-- The caller asks all tasks to stop.  It hears at once of those that are over. -/
def stop (loop : Loop n ε α) (error : ε) : Loop n ε α :=
  { loop with
    lives := fun index => (loop.lives index).ask
    caller := .stopping error
    ready := loop.ready ++
      ((List.finRange n).filter fun index => (loop.lives index).isOver).map .lastReport }

/-- The caller goes on. -/
def goOn (loop : Loop n ε α) : Loop n ε α :=
  match loop.caller, loop.answer with
  | .waiting, some (.ok values) => { loop with caller := .ended (.ok values) }
  | .waiting, some (.error error) => loop.stop error
  | .stopping error, _ => { loop with caller := .ended (.error error) }
  | .waiting, none | .ended _, _ => loop

/-- A call is handled. -/
def handle (loop : Loop n ε α) : Call n → Loop n ε α
  | .turn index => loop.takeTurn index
  | .report index => loop.hear index
  | .lastReport _ => loop.hearAgain
  | .wake => loop.goOn

/-- A round of the loop: the calls that are ready are handled in order. -/
def round (loop : Loop n ε α) : Loop n ε α :=
  loop.ready.foldl handle { loop with ready := [] }

/-! ## Calls for several tasks -/

/--
Calls for different tasks, of which each changes only its own task, change all of these tasks.
The caller may hear of some of them, as long as it has not heard of all.
-/
theorem foldl_flatMap_handle {places : List (Fin n)} (nodup : places.Nodup)
    (calls out : Fin n → List (Call n)) (life : Fin n → Life ε α) (event : Fin n → List TaskEvent)
    (hears : Fin n → Bool) (loop : Loop n ε α) (few : loop.heard + places.countP hears < n)
    (each : ∀ index ∈ places, ∀ other : Loop n ε α, other.lives index = loop.lives index →
      other.caller = loop.caller → other.answer = loop.answer →
      other.heard + (if hears index then 1 else 0) < n →
      (calls index).foldl handle other =
        { other with
          lives := Function.update other.lives index (life index)
          heard := other.heard + if hears index then 1 else 0
          ready := other.ready ++ out index
          events := other.events ++ event index }) :
    (places.flatMap calls).foldl handle loop =
      { loop with
        lives := fun index => if index ∈ places then life index else loop.lives index
        heard := loop.heard + places.countP hears
        ready := loop.ready ++ places.flatMap out
        events := loop.events ++ places.flatMap event } := by
  induction places generalizing loop with
  | nil => simp
  | cons index rest ih =>
      obtain ⟨notAgain, distinct⟩ := List.nodup_cons.mp nodup
      rw [List.countP_cons, Nat.add_comm (List.countP _ _), ← Nat.add_assoc] at few
      have first := each index List.mem_cons_self loop rfl rfl rfl
        (Nat.lt_of_le_of_lt (Nat.le_add_right _ _) few)
      rw [List.flatMap_cons, List.foldl_append, first, ih distinct _ few]
      · rw [Loop.mk.injEq]
        refine ⟨?_, rfl, rfl, ?_, rfl, ?_, ?_⟩
        · funext other
          by_cases own : other = index
          · subst own
            simp [notAgain]
          · simp [own]
        · rw [List.countP_cons, Nat.add_comm (List.countP _ _), ← Nat.add_assoc]
        · simp
        · simp
      · intro other member current lives caller answer few
        refine each other (List.mem_cons_of_mem _ member) current ?_ caller answer few
        have apart : other ≠ index := by
          rintro rfl
          exact notAgain member
        exact lives.trans (Function.update_of_ne apart _ _)

/-! ## Rounds without an error -/

section Rounds

variable (task : Fin n → Task ε α) (turns : Nat)

/-- A task that has not been asked to stop, after some turns. -/
def lifeAfter (index : Fin n) : Life ε α :=
  if (task index).ticks < turns then .finished (task index).outcome
  else .running ((task index).ticks - turns) false (task index).outcome

/-- What is ready for a task after some turns: its next turn, or the report of its end. -/
def callsAfter (index : Fin n) : List (Call n) :=
  if turns ≤ (task index).ticks then [.turn index]
  else if (task index).ticks + 1 = turns then [.report index]
  else []

/-- What happens to a task in its turn with a number. -/
def finishAt (index : Fin n) : List TaskEvent :=
  if (task index).ticks = turns then [.finish index] else []

/-- What happens in the first turns of all tasks. -/
def finishesBefore : List TaskEvent :=
  (List.range turns).flatMap fun turn => (List.finRange n).flatMap (finishAt task turn)

/-- Whether the caller hears of the end of a task after a number of turns. -/
def hearsAfter (index : Fin n) : Bool :=
  (task index).ticks + 1 == turns

/-- Tasks of which none has failed and one is still running, after some turns. -/
def calm : Loop n ε α where
  lives := lifeAfter task turns
  heard := (List.finRange n).countP fun index => decide ((task index).ticks + 1 < turns)
  ready := (List.finRange n).flatMap (callsAfter task turns)
  events := finishesBefore task turns

variable {task turns}

theorem lifeAfter_of_lt {index : Fin n} (past : (task index).ticks < turns) :
    lifeAfter task turns index = .finished (task index).outcome :=
  if_pos past

theorem lifeAfter_of_le {index : Fin n} (still : turns ≤ (task index).ticks) :
    lifeAfter task turns index =
      .running ((task index).ticks - turns) false (task index).outcome :=
  if_neg still.not_gt

theorem callsAfter_of_le {index : Fin n} (still : turns ≤ (task index).ticks) :
    callsAfter task turns index = [.turn index] :=
  if_pos still

theorem callsAfter_of_succ_eq {index : Fin n} (isNew : (task index).ticks + 1 = turns) :
    callsAfter task turns index = [.report index] := by
  rw [callsAfter, if_neg (by omega), if_pos isNew]

theorem callsAfter_of_succ_lt {index : Fin n} (past : (task index).ticks + 1 < turns) :
    callsAfter task turns index = [] := by
  rw [callsAfter, if_neg (by omega), if_neg past.ne]

theorem flatMap_finishAt_eq_nil (nobody : ∀ index, (task index).ticks ≠ turns)
    (places : List (Fin n)) :
    places.flatMap (finishAt task turns) = [] :=
  List.flatMap_eq_nil_iff.mpr fun index _ => if_neg (nobody index)

theorem start_eq_calm (nonempty : n ≠ 0) : start task = calm task 0 := by
  have nobody : ((List.finRange n).countP fun index => decide ((task index).ticks + 1 < 0)) = 0 := by
    simp
  have turnsOnly : callsAfter task 0 = fun index => [Call.turn index] :=
    funext fun _ => callsAfter_of_le (Nat.zero_le _)
  rw [start, calm, if_neg nonempty, nobody, turnsOnly, ← List.map_eq_flatMap]
  rfl

/-- A task that is still running takes its turn; the caller hears nothing. -/
theorem foldl_callsAfter_of_le {index : Fin n} {loop : Loop n ε α}
    (lives : loop.lives index = lifeAfter task turns index) (caller : loop.caller = .waiting)
    (still : turns ≤ (task index).ticks) :
    (callsAfter task turns index).foldl handle loop =
      { loop with
        lives := Function.update loop.lives index (lifeAfter task (turns + 1) index)
        ready := loop.ready ++ callsAfter task (turns + 1) index
        events := loop.events ++ finishAt task turns index } := by
  rw [lifeAfter_of_le still] at lives
  rw [callsAfter_of_le still]
  rcases still.lt_or_eq with early | last
  · obtain ⟨left, more⟩ : ∃ left, (task index).ticks - turns = left + 1 :=
      ⟨_, (Nat.succ_pred (by omega)).symm⟩
    have next : lifeAfter task (turns + 1) index = .running left false (task index).outcome := by
      rw [lifeAfter_of_le early, show (task index).ticks - (turns + 1) = left by omega]
    have event : finishAt task turns index = [] := if_neg early.ne'
    rw [callsAfter_of_le early, event, next]
    simp [handle, takeTurn, lives, more]
  · have event : finishAt task turns index = [.finish index] := if_pos last.symm
    rw [callsAfter_of_succ_eq (by omega), event, lifeAfter_of_lt (by omega)]
    simp [handle, takeTurn, lives, last, Loop.endTask, reports, caller]

/-- The caller hears of a value, if it does not know the answer and others are missing. -/
theorem hear_of_value {index : Fin n} {loop : Loop n ε α} {value : α} (unknown : loop.answer = none)
    (finished : loop.lives index = .finished (.ok value)) (few : loop.heard + 1 ≠ n) :
    loop.hear index = { loop with heard := loop.heard + 1 } := by
  simp only [hear, unknown, finished, if_neg few]

/-- The caller does not mind what it hears once it knows the answer. -/
theorem hear_of_known {loop : Loop n ε α} (known : loop.answer ≠ none) (index : Fin n) :
    loop.hear index = loop := by
  obtain ⟨answer, known⟩ := Option.ne_none_iff_exists'.mp known
  simp only [hear, known]

/-- The calls that are ready for a task are handled. -/
theorem foldl_callsAfter {index : Fin n} {loop : Loop n ε α}
    (lives : loop.lives index = lifeAfter task turns index) (caller : loop.caller = .waiting)
    (hears : Bool) (isFine : (loop.answer = none ∧ hears = hearsAfter task turns index ∧
        ((task index).ticks + 1 = turns → ∃ value, (task index).outcome = .ok value)) ∨
      (loop.answer ≠ none ∧ hears = false))
    (few : loop.heard + (if hears then 1 else 0) < n) :
    (callsAfter task turns index).foldl handle loop =
      { loop with
        lives := Function.update loop.lives index (lifeAfter task (turns + 1) index)
        heard := loop.heard + if hears then 1 else 0
        ready := loop.ready ++ callsAfter task (turns + 1) index
        events := loop.events ++ finishAt task turns index } := by
  have quiet (notNew : (task index).ticks + 1 ≠ turns) : hears = false := by
    rcases isFine with ⟨-, rfl, -⟩ | ⟨-, rfl⟩
    · exact beq_false_of_ne notNew
    · rfl
  rcases le_or_gt turns (task index).ticks with still | past
  · rw [foldl_callsAfter_of_le lives caller still, quiet (by omega)]
    rfl
  · -- The task is over, and the caller hears of it if that was just now.
    rw [lifeAfter_of_lt past] at lives
    have next : Function.update loop.lives index (lifeAfter task (turns + 1) index) =
        loop.lives := by
      rw [lifeAfter_of_lt (by omega), ← lives, Function.update_eq_self]
    have event : finishAt task turns index = [] := if_neg past.ne
    rw [callsAfter_of_succ_lt (Nat.succ_lt_succ past), event, next]
    rcases (Nat.succ_le_of_lt past).eq_or_lt with isNew | longAgo
    · rw [callsAfter_of_succ_eq isNew, List.foldl_cons, List.foldl_nil, handle]
      rcases isFine with ⟨unknown, rfl, isOk⟩ | ⟨known, rfl⟩
      · obtain ⟨value, isOk⟩ := isOk isNew
        have hears : hearsAfter task turns index = true := beq_iff_eq.mpr isNew
        rw [hears, if_pos rfl] at few
        rw [hear_of_value unknown (lives.trans (by rw [isOk])) few.ne]
        simp [hears]
      · rw [hear_of_known known]
        simp
    · rw [callsAfter_of_succ_lt longAgo, quiet longAgo.ne]
      simp

/-- Once the answer is known, the calls that are ready for some tasks do not change it. -/
theorem foldl_flatMap_callsAfter {places : List (Fin n)} (nodup : places.Nodup) (loop : Loop n ε α)
    (caller : loop.caller = .waiting) (known : loop.answer ≠ none) (few : loop.heard < n)
    (lives : ∀ index ∈ places, loop.lives index = lifeAfter task turns index) :
    (places.flatMap (callsAfter task turns)).foldl handle loop =
      { loop with
        lives := fun index =>
          if index ∈ places then lifeAfter task (turns + 1) index else loop.lives index
        ready := loop.ready ++ places.flatMap (callsAfter task (turns + 1))
        events := loop.events ++ places.flatMap (finishAt task turns) } := by
  have nobody : places.countP (fun _ => false) = 0 := by simp
  have swept := foldl_flatMap_handle nodup (callsAfter task turns) (callsAfter task (turns + 1))
    (lifeAfter task (turns + 1)) (finishAt task turns) (fun _ => false) loop (by rwa [nobody])
    fun index member other same isWaiting answer few =>
      foldl_callsAfter (same.trans (lives index member)) (isWaiting.trans caller) _
        (.inr ⟨answer ▸ known, rfl⟩) few
  rwa [nobody] at swept

/-- Two things of which never both hold are counted apart. -/
theorem countP_add_countP {β : Type} (first second both : β → Bool)
    (cases : ∀ item, both item = (first item || second item))
    (apart : ∀ item, (first item && second item) = false) (list : List β) :
    list.countP first + list.countP second = list.countP both := by
  induction list with
  | nil => rfl
  | cons item rest ih =>
      have own := apart item
      simp only [List.countP_cons, cases]
      cases isFirst : first item <;> cases isSecond : second item <;> simp_all <;> omega

theorem heard_calm_succ (task : Fin n → Task ε α) (turns : Nat) :
    (calm task turns).heard + (List.finRange n).countP (hearsAfter task turns) =
      (calm task (turns + 1)).heard := by
  refine countP_add_countP _ _ _ (fun index => ?_) (fun index => ?_) _
  · rw [hearsAfter, Bool.eq_iff_iff]
    simp
    omega
  · simp [hearsAfter]
    omega

/-- As long as a task is running and none has failed, the next round is calm again. -/
theorem round_calm (isOk : ∀ index, (task index).ticks + 1 = turns →
      ∃ value, (task index).outcome = .ok value)
    (still : ∃ index, turns ≤ (task index).ticks) :
    (calm task turns).round = calm task (turns + 1) := by
  have counted := heard_calm_succ task turns
  have few : (calm task (turns + 1)).heard < n := by
    obtain ⟨index, running⟩ := still
    have notAll : (List.finRange n).countP (fun index => decide ((task index).ticks + 1 < turns + 1)) <
        (List.finRange n).length := by
      refine lt_of_le_of_ne List.countP_le_length fun all => ?_
      have heard := List.countP_eq_length.mp all index (List.mem_finRange index)
      rw [decide_eq_true_iff] at heard
      omega
    rwa [List.length_finRange] at notAll
  have swept := foldl_flatMap_handle (List.nodup_finRange n) (callsAfter task turns)
    (callsAfter task (turns + 1)) (lifeAfter task (turns + 1)) (finishAt task turns)
    (hearsAfter task turns) { calm task turns with ready := [] } (counted ▸ few)
    fun index _ other lives caller answer few =>
      foldl_callsAfter lives caller _ (.inl ⟨answer, rfl, isOk index⟩) few
  rw [round]
  refine swept.trans ?_
  rw [calm, Loop.mk.injEq]
  refine ⟨?_, rfl, rfl, counted, rfl, rfl, ?_⟩
  · funext index
    exact if_pos (List.mem_finRange index)
  · change finishesBefore task turns ++ (List.finRange n).flatMap (finishAt task turns) =
      finishesBefore task (turns + 1)
    rw [finishesBefore, finishesBefore, List.range_succ, List.flatMap_append,
      List.flatMap_singleton]

/-- Until the first error, and as long as a task is running, the rounds are calm. -/
theorem rounds_start (isOk : ∀ index, (task index).ticks + 1 < turns →
      ∃ value, (task index).outcome = .ok value)
    (still : ∃ index, turns ≤ (task index).ticks + 1) :
    round^[turns] (start task) = calm task turns := by
  induction turns with
  | zero =>
      obtain ⟨index, -⟩ := still
      exact start_eq_calm (Nat.ne_of_gt index.pos)
  | succ turns ih =>
      obtain ⟨index, running⟩ := still
      rw [Function.iterate_succ_apply', ih (fun index early => isOk index (by omega))
        ⟨index, by omega⟩]
      exact round_calm (fun index early => isOk index (by omega)) ⟨index, by omega⟩

/-! ## The end without an error -/

/-- When the caller hears of the last tasks, and they all have a value, it knows the answer. -/
theorem foldl_report {places : List (Fin n)} (nonempty : places ≠ []) (loop : Loop n ε α)
    (unknown : loop.answer = none)
    (isOk : ∀ index ∈ places, ∃ value, loop.lives index = .finished (.ok value))
    (all : loop.heard + places.length = n) :
    (places.map .report).foldl handle loop =
      { loop with heard := n }.resolve (.ok loop.values) := by
  induction places generalizing loop with
  | nil => exact absurd rfl nonempty
  | cons index rest ih =>
      obtain ⟨value, finished⟩ := isOk index List.mem_cons_self
      rw [List.length_cons] at all
      rw [List.map_cons, List.foldl_cons, handle]
      rcases eq_or_ne rest [] with rfl | more
      · rw [List.length_nil] at all
        simp only [hear, unknown, finished, all, if_true]
        rfl
      · have notLast : loop.heard + 1 ≠ n := by
          have := List.length_pos_iff.mpr more
          omega
        simp only [hear, unknown, finished, if_neg notLast]
        exact ih more _ rfl (fun other member => isOk other (List.mem_cons_of_mem _ member))
          (by simp only; omega)

theorem flatMap_ite_eq_map {β γ : Type} (test : β → Prop) [DecidablePred test] (image : β → γ)
    (list : List β) :
    (list.flatMap fun item => if test item then [image item] else []) =
      (list.filter fun item => decide (test item)).map image := by
  induction list with
  | nil => rfl
  | cons item rest ih =>
      rw [List.flatMap_cons, ih, List.filter_cons]
      by_cases passes : test item <;> simp [passes]

/-- The tasks that finish in a turn. -/
def finishers (task : Fin n → Task ε α) (turn : Nat) : List (Fin n) :=
  (List.finRange n).filter fun index => decide ((task index).ticks = turn)

section Latest

variable {last : Fin n} (latest : ∀ index, (task index).ticks ≤ (task last).ticks)

include latest

theorem lifeAfter_latest (index : Fin n) :
    lifeAfter task ((task last).ticks + 1) index = .finished (task index).outcome :=
  lifeAfter_of_lt (Nat.lt_succ_of_le (latest index))

/-- Behind the last turn only the tasks that took it have to be reported. -/
theorem ready_calm_latest :
    (calm task ((task last).ticks + 1)).ready = (finishers task (task last).ticks).map .report := by
  have calls : callsAfter task ((task last).ticks + 1) = fun index =>
      if (task index).ticks = (task last).ticks then [Call.report index] else [] := by
    funext index
    rw [callsAfter, if_neg (by have := latest index; omega)]
    simp
  rw [calm, calls]
  exact flatMap_ite_eq_map _ _ _

/-- The caller has heard of all other tasks then. -/
theorem heard_calm_latest :
    (calm task ((task last).ticks + 1)).heard + (finishers task (task last).ticks).length = n := by
  have everyone : (List.finRange n).countP (fun _ => true) = n := by
    rw [List.countP_true, List.length_finRange]
  rw [finishers, ← List.countP_eq_length_filter]
  refine (countP_add_countP _ _ _ (fun index => ?_) (fun index => ?_) _).trans everyone
  · have := latest index
    rw [eq_comm, Bool.or_eq_true, decide_eq_true_iff, decide_eq_true_iff]
    omega
  · rw [Bool.and_eq_false_iff, decide_eq_false_iff_not, decide_eq_false_iff_not]
    omega

/-- The values are those of all tasks, in their order. -/
theorem values_calm_latest {values : List α}
    (given : (List.finRange n).map (fun index => (task index).outcome) = values.map .ok) :
    (calm task ((task last).ticks + 1)).values = values := by
  have own : (fun index => (lifeAfter task ((task last).ticks + 1) index).value?) =
      Except.toOption ∘ fun index => (task index).outcome := by
    funext index
    rw [lifeAfter_latest latest, Function.comp_apply]
    cases (task index).outcome <;> rfl
  calc (List.finRange n).filterMap (fun index => (lifeAfter task ((task last).ticks + 1) index).value?)
      = ((List.finRange n).map fun index => (task index).outcome).filterMap Except.toOption := by
        rw [List.filterMap_map, own]
    _ = values := by
        rw [given, List.filterMap_map]
        exact List.filterMap_some

/-- When the last task has finished, and all have a value, the caller hears of it and ends. -/
theorem rounds_of_values {values : List α}
    (given : (List.finRange n).map (fun index => (task index).outcome) = values.map .ok) :
    ∃ loop : Loop n ε α, round^[(task last).ticks + 2] (start task) = loop ∧
      loop.caller = .waiting ∧ (∀ index, (loop.lives index).isOver = true) ∧
      loop.round =
        { lives := fun index => .finished (task index).outcome
          caller := .ended (.ok values)
          answer := some (.ok values)
          heard := n
          ready := []
          events := finishesBefore task ((task last).ticks + 1) } := by
  have isOk (index : Fin n) : ∃ value, (task index).outcome = .ok value := by
    have member :=
      List.mem_map_of_mem (f := fun index => (task index).outcome) (List.mem_finRange index)
    rw [given] at member
    obtain ⟨value, -, isOk⟩ := List.mem_map.mp member
    exact ⟨value, isOk.symm⟩
  have reached : round^[(task last).ticks + 1] (start task) = calm task ((task last).ticks + 1) :=
    rounds_start (fun index _ => isOk index) ⟨last, le_rfl⟩
  have nonempty : finishers task (task last).ticks ≠ [] :=
    List.ne_nil_of_mem (List.mem_filter.mpr ⟨List.mem_finRange last, decide_eq_true rfl⟩)
  have heard := foldl_report nonempty { calm task ((task last).ticks + 1) with ready := [] } rfl
    (fun index _ => by
      obtain ⟨value, isOk⟩ := isOk index
      exact ⟨value, (lifeAfter_latest latest index).trans (by rw [isOk])⟩)
    (heard_calm_latest latest)
  have gathered : Loop.values { calm task ((task last).ticks + 1) with ready := [] } = values :=
    values_calm_latest latest given
  refine ⟨_, rfl, ?_⟩
  rw [Function.iterate_succ_apply', reached, round, ready_calm_latest latest, heard, gathered]
  refine ⟨rfl, fun index => ?_, ?_⟩
  · change (lifeAfter task ((task last).ticks + 1) index).isOver = true
    rw [lifeAfter_latest latest]
    rfl
  · rw [show (fun index => Life.finished (task index).outcome) =
      lifeAfter task ((task last).ticks + 1) from
        funext fun index => (lifeAfter_latest latest index).symm]
    rfl

end Latest

end Rounds

/-! ## The end with an error -/

/-- The places in front of a place. -/
def before (index : Fin n) : List (Fin n) :=
  (List.finRange n).filter fun other => decide (other < index)

/-- The places behind a place. -/
def behind (index : Fin n) : List (Fin n) :=
  (List.finRange n).filter fun other => decide (index < other)

@[simp]
theorem mem_before {index other : Fin n} : other ∈ before index ↔ other < index := by
  simp [before]

@[simp]
theorem mem_behind {index other : Fin n} : other ∈ behind index ↔ index < other := by
  simp [behind]

theorem nodup_before (index : Fin n) : (before index).Nodup :=
  (List.nodup_finRange n).filter _

theorem nodup_behind (index : Fin n) : (behind index).Nodup :=
  (List.nodup_finRange n).filter _

theorem finRange_eq (index : Fin n) :
    List.finRange n = before index ++ index :: behind index := by
  obtain ⟨front, rest, cut⟩ := List.append_of_mem (List.mem_finRange index)
  have ordered := List.pairwise_lt_finRange n
  rw [cut, List.pairwise_append, List.pairwise_cons] at ordered
  obtain ⟨-, ⟨later, -⟩, earlier⟩ := ordered
  have inFront : ∀ other ∈ front, other < index := fun other member =>
    earlier other member index List.mem_cons_self
  have isFront : before index = front := by
    rw [before, cut, List.filter_append, List.filter_eq_self.mpr (by simpa using inFront),
      List.filter_cons_of_neg (by simp), List.filter_eq_nil_iff.mpr, List.append_nil]
    intro other member
    simpa using (later other member).le
  have isRest : behind index = rest := by
    rw [behind, cut, List.filter_append, List.filter_eq_nil_iff.mpr, List.nil_append,
      List.filter_cons_of_neg (by simp), List.filter_eq_self.mpr (by simpa using later)]
    intro other member
    simpa using (inFront other member).le
  rw [isFront, isRest, cut]

/-- What has become of a task that was to stop after some turns. -/
def lifeStopped (task : Fin n → Task ε α) (turns : Nat) (index : Fin n) : Life ε α :=
  if (task index).ticks ≤ turns then .finished (task index).outcome else .cancelled

theorem isOver_lifeStopped (task : Fin n → Task ε α) (turns : Nat) (index : Fin n) :
    (lifeStopped task turns index).isOver = true := by
  rw [lifeStopped]
  split <;> rfl

/-- The reports of a task that is cancelled. -/
def stopReports (task : Fin n → Task ε α) (turns : Nat) (index : Fin n) : List (Call n) :=
  if turns < (task index).ticks then [.report index, .lastReport index] else []

/-- What happens to a task that is to stop. -/
def cancelAt (task : Fin n → Task ε α) (turns : Nat) (index : Fin n) : List TaskEvent :=
  if turns < (task index).ticks then [.cancel index] else []

/-- Once the answer is known, reports are only counted; the last of them wakes the caller. -/
theorem foldl_reports {calls : List (Call n)} (only : ∀ call ∈ calls, call.isReport = true)
    {loop : Loop n ε α} (known : loop.answer ≠ none)
    (bound : loop.heardAgain + calls.countP Call.isLast ≤ n) :
    calls.foldl handle loop =
      { loop with
        heardAgain := loop.heardAgain + calls.countP Call.isLast
        ready := loop.ready ++
          if loop.heardAgain < n ∧ loop.heardAgain + calls.countP Call.isLast = n then [.wake]
          else [] } := by
  induction calls generalizing loop with
  | nil =>
      have notYet : ¬(loop.heardAgain < n ∧ loop.heardAgain = n) := by omega
      simp [notYet]
  | cons call rest ih =>
      have isReport := only call List.mem_cons_self
      have others : ∀ call ∈ rest, call.isReport = true := fun call member =>
        only call (List.mem_cons_of_mem _ member)
      cases call with
      | turn index | wake => cases isReport
      | report index =>
          rw [List.countP_cons_of_neg (by simp [Call.isLast])] at bound ⊢
          rw [List.foldl_cons, handle, hear_of_known known, ih others known bound]
      | lastReport index =>
          rw [List.countP_cons_of_pos rfl] at bound ⊢
          have stillKnown : loop.hearAgain.answer ≠ none := known
          have next : loop.hearAgain.heardAgain + rest.countP Call.isLast ≤ n := by
            change loop.heardAgain + 1 + _ ≤ n
            omega
          rw [List.foldl_cons, handle, ih others stillKnown next, Loop.mk.injEq]
          refine ⟨rfl, rfl, rfl, rfl, ?_, ?_, rfl⟩
          · change loop.heardAgain + 1 + _ = _
            omega
          · change loop.ready ++ (if loop.heardAgain + 1 = n then [Call.wake] else []) ++
              (if loop.heardAgain + 1 < n ∧ loop.heardAgain + 1 + _ = n then [Call.wake] else []) = _
            rw [List.append_assoc]
            congr 1
            by_cases isLast : loop.heardAgain + 1 = n
            · rw [if_pos isLast, if_neg (by omega), if_pos (by omega)]
              rfl
            · rw [if_neg isLast, List.nil_append]
              exact if_congr (by omega) rfl rfl

section Failing

variable {task : Fin n → Task ε α} {failing : Fin n} {turns : Nat} {error : ε}

variable (fails : FailsFirst task failing turns error)

include fails

omit fails in
theorem hear_of_error {index : Fin n} {loop : Loop n ε α} (unknown : loop.answer = none)
    (finished : loop.lives index = .finished (.error error)) :
    loop.hear index = loop.resolve (.error error) := by
  simp only [hear, unknown, finished]

/-- When the caller hears of the first error, it is to be woken. -/
theorem exists_alarmed (spaced : ∀ index, (task index).ticks ≠ turns + 1) :
    ∃ heard < n, round^[turns + 2] (start task) =
      { lives := lifeAfter task (turns + 2)
        answer := some (.error error)
        heard
        ready := (before failing).flatMap (callsAfter task (turns + 2)) ++
          .wake :: (behind failing).flatMap (callsAfter task (turns + 2))
        events := finishesBefore task (turns + 1) } := by
  have reached : round^[turns + 1] (start task) = calm task (turns + 1) :=
    rounds_start (fun index early => fails.isOk (.inl (by omega))) ⟨failing, by rw [fails.ticks]⟩
  have ready : (calm task (turns + 1)).ready =
      (before failing).flatMap (callsAfter task (turns + 1)) ++
        .report failing :: (behind failing).flatMap (callsAfter task (turns + 1)) := by
    have own : callsAfter task (turns + 1) failing = [.report failing] :=
      callsAfter_of_succ_eq (by rw [fails.ticks])
    rw [calm, finRange_eq failing, List.flatMap_append, List.flatMap_cons, own]
    rfl
  have few : (calm task (turns + 1)).heard +
      (before failing).countP (hearsAfter task (turns + 1)) < n := by
    have counted := heard_calm_succ task (turns + 1)
    have atMost : (calm task (turns + 1 + 1)).heard ≤ (List.finRange n).length := List.countP_le_length
    have own : hearsAfter task (turns + 1) failing = true := by simp [hearsAfter, fails.ticks]
    rw [finRange_eq failing, List.countP_append, List.countP_cons_of_pos own] at counted
    rw [List.length_finRange] at atMost
    omega
  have front := foldl_flatMap_handle (nodup_before failing) (callsAfter task (turns + 1))
    (callsAfter task (turns + 2)) (lifeAfter task (turns + 2)) (finishAt task (turns + 1))
    (hearsAfter task (turns + 1)) { calm task (turns + 1) with ready := [] } few
    fun index member other lives caller answer few =>
      foldl_callsAfter lives caller _ (.inl ⟨answer, rfl, fun isNew =>
        fails.isOk (.inr ⟨by omega, mem_before.mp member⟩)⟩) few
  have noFinish := flatMap_finishAt_eq_nil spaced
  have finished (later : Nat) (isLater : turns < later) :
      lifeAfter task later failing = .finished (.error error) := by
    rw [lifeAfter_of_lt (fails.ticks.trans_lt isLater), fails.outcome]
  refine ⟨_, few, ?_⟩
  rw [Function.iterate_succ_apply', reached, round, ready, List.foldl_append, front, List.foldl_cons,
    handle, hear_of_error rfl,
    foldl_flatMap_callsAfter (nodup_behind failing) _ rfl (Option.some_ne_none _) few, Loop.mk.injEq]
  · refine ⟨?_, rfl, rfl, ?_, rfl, ?_, ?_⟩
    · funext index
      rcases lt_trichotomy index failing with inFront | rfl | inBack
      · simp [resolve, inFront]
      · simp [resolve, calm, finished]
      · simp [inBack]
    · simp [resolve]
    · simp [resolve]
    · simp [resolve, calm, noFinish]
  · intro index inBack
    simp [resolve, calm, (mem_behind.mp inBack).le]
  · simp [calm, finished]

omit fails in
/-- Tasks that were asked to stop are cancelled at their next turn. -/
theorem foldl_flatMap_of_asked {places : List (Fin n)} (nodup : places.Nodup) (turns later : Nat)
    (loop : Loop n ε α) (caller : loop.caller = .stopping error) (few : loop.heard < n)
    (lives : ∀ index ∈ places, loop.lives index = (lifeAfter task later index).ask)
    (apart : ∀ index, (task index).ticks ≤ turns ∧ (task index).ticks + 1 < later ∨
      turns < (task index).ticks ∧ later ≤ (task index).ticks) :
    (places.flatMap (callsAfter task later)).foldl handle loop =
      { loop with
        lives := fun index =>
          if index ∈ places then lifeStopped task turns index else loop.lives index
        ready := loop.ready ++ places.flatMap (stopReports task turns)
        events := loop.events ++ places.flatMap (cancelAt task turns) } := by
  have nobody : places.countP (fun _ => false) = 0 := by simp
  have swept := foldl_flatMap_handle nodup (callsAfter task later) (stopReports task turns)
    (lifeStopped task turns) (cancelAt task turns) (fun _ => false) loop (by rwa [nobody])
    fun index member other same isStopping answer few => by
      rw [lives index member] at same
      rcases apart index with ⟨isOver, early⟩ | ⟨isRunning, late⟩
      · have finished : other.lives index = lifeStopped task turns index := by
          rw [same, lifeAfter_of_lt (by omega), lifeStopped, if_pos isOver]
          rfl
        have noCall : callsAfter task later index = [] := callsAfter_of_succ_lt early
        have noReport : stopReports task turns index = [] := if_neg (by omega)
        have noEvent : cancelAt task turns index = [] := if_neg (by omega)
        rw [← finished, Function.update_eq_self, noCall, noReport, noEvent]
        simp
      · have asked : other.lives index =
            .running ((task index).ticks - later) true (task index).outcome := by
          rw [same, lifeAfter_of_le late]
          rfl
        have cancelled : lifeStopped task turns index = .cancelled := if_neg (by omega)
        have call : callsAfter task later index = [.turn index] := callsAfter_of_le late
        have report : stopReports task turns index = [.report index, .lastReport index] :=
          if_pos isRunning
        have event : cancelAt task turns index = [.cancel index] := if_pos isRunning
        rw [cancelled, call, report, event]
        simp [handle, takeTurn, asked, Loop.endTask, reports, isStopping, caller]
  rwa [nobody] at swept

omit fails in
/-- The tasks that are over are those that were over at the failure, until the next one finishes. -/
theorem isOver_lifeAfter {index : Fin n} {later : Nat} (isLater : turns < later)
    (spaced : turns < (task index).ticks → later ≤ (task index).ticks) :
    (lifeAfter task later index).isOver = decide ((task index).ticks ≤ turns) := by
  rcases le_or_gt (task index).ticks turns with isOver | isRunning
  · rw [lifeAfter_of_lt (by omega), Life.isOver, decide_eq_true isOver]
  · rw [lifeAfter_of_le (spaced isRunning), Life.isOver, decide_eq_false isRunning.not_ge]

/--
When the caller is woken, it asks all tasks to stop; those behind the failing one are cancelled.
-/
theorem exists_asked (spaced : ∀ index, turns < (task index).ticks → turns + 3 ≤ (task index).ticks) :
    ∃ heard < n, round^[turns + 3] (start task) =
      { lives := fun index =>
          if failing < index then lifeStopped task turns index
          else (lifeAfter task (turns + 3) index).ask
        caller := .stopping error
        answer := some (.error error)
        heard
        ready := (before failing).flatMap (callsAfter task (turns + 3)) ++
          (((List.finRange n).filter fun index => decide ((task index).ticks ≤ turns)).map
            .lastReport ++ (behind failing).flatMap (stopReports task turns))
        events := finishesBefore task (turns + 1) ++
          (behind failing).flatMap (cancelAt task turns) } := by
  obtain ⟨heard, few, reached⟩ := exists_alarmed fails fun index => by
    have := spaced index
    omega
  refine ⟨heard, few, ?_⟩
  have apart (later : Nat) (isLater : turns + 1 < later) (isSoon : later ≤ turns + 3) (index : Fin n) :
      (task index).ticks ≤ turns ∧ (task index).ticks + 1 < later ∨
        turns < (task index).ticks ∧ later ≤ (task index).ticks := by
    have := spaced index
    omega
  have nobody (index : Fin n) : (task index).ticks ≠ turns + 2 := by
    have := spaced index
    omega
  have noFinish := flatMap_finishAt_eq_nil nobody
  rw [Function.iterate_succ_apply', reached, round, List.foldl_append,
    foldl_flatMap_callsAfter (nodup_before failing) _ rfl (Option.some_ne_none _) few
      fun index _ => rfl, List.foldl_cons, handle]
  simp only [goOn]
  rw [foldl_flatMap_of_asked (nodup_behind failing) turns (turns + 2) _ rfl few ?_
    (apart _ (by omega) (by omega)), Loop.mk.injEq]
  · refine ⟨?_, rfl, rfl, rfl, rfl, ?_, ?_⟩
    · funext index
      rcases lt_trichotomy index failing with inFront | rfl | inBack
      · simp [stop, inFront, inFront.not_gt]
      · simp [stop, lifeAfter, fails.ticks]
      · simp [inBack]
    · simp only [stop, List.nil_append, List.append_assoc]
      congr 3
      refine List.filter_congr fun index _ => ?_
      split
      · exact isOver_lifeAfter (by omega) (spaced index)
      · exact isOver_lifeAfter (by omega) fun running => by have := spaced index running; omega
    · simp [stop, noFinish]
  · intro index inBack
    simp [stop, (mem_behind.mp inBack).not_gt]

omit fails in
theorem countP_stopReports (list : List (Fin n)) :
    (list.flatMap (stopReports task turns)).countP Call.isLast =
      list.countP fun index => decide (turns < (task index).ticks) := by
  induction list with
  | nil => rfl
  | cons index rest ih =>
      rw [List.flatMap_cons, List.countP_append, ih, List.countP_cons, Nat.add_comm]
      congr 1
      by_cases running : turns < (task index).ticks
      · simp [stopReports, running, Call.isLast]
      · simp [stopReports, running]

omit fails in
theorem isReport_of_mem_stopReports {list : List (Fin n)} {call : Call n}
    (member : call ∈ list.flatMap (stopReports task turns)) : call.isReport = true := by
  obtain ⟨index, -, inReports⟩ := List.mem_flatMap.mp member
  rw [stopReports] at inReports
  split at inReports
  · simp only [List.mem_cons, List.not_mem_nil, or_false] at inReports
    rcases inReports with rfl | rfl <;> rfl
  · cases inReports

/--
Every task is over at the failure, or is cancelled behind the failing task, or in front of it.
-/
theorem countP_stopped :
    (List.finRange n).countP (fun index => decide ((task index).ticks ≤ turns)) +
      (behind failing).countP (fun index => decide (turns < (task index).ticks)) +
      (before failing).countP (fun index => decide (turns < (task index).ticks)) = n := by
  have everyone : (List.finRange n).countP (fun _ => true) = n := by simp
  have apart := (countP_add_countP (fun index => decide ((task index).ticks ≤ turns))
    (fun index => decide (turns < (task index).ticks)) (fun _ => true)
    (fun index => by simp [le_or_gt]) (fun index => by simp) (List.finRange n)).trans everyone
  have running : (List.finRange n).countP (fun index => decide (turns < (task index).ticks)) =
      (before failing).countP (fun index => decide (turns < (task index).ticks)) +
        (behind failing).countP (fun index => decide (turns < (task index).ticks)) := by
    rw [finRange_eq failing, List.countP_append, List.countP_cons_of_neg (by simp [fails.ticks])]
  omega

/-- The tasks in front of the failing one are cancelled last. -/
theorem exists_stopped (spaced : ∀ index, turns < (task index).ticks → turns + 3 ≤ (task index).ticks) :
    ∃ heard, round^[turns + 4] (start task) =
      { lives := lifeStopped task turns
        caller := .stopping error
        answer := some (.error error)
        heard
        heardAgain := n - (before failing).countP fun index => decide (turns < (task index).ticks)
        ready := (before failing).flatMap (stopReports task turns) ++
          if (before failing).countP (fun index => decide (turns < (task index).ticks)) = 0 then [.wake]
          else []
        events := finishesBefore task (turns + 1) ++
          (behind failing).flatMap (cancelAt task turns) ++
          (before failing).flatMap (cancelAt task turns) } := by
  obtain ⟨heard, few, reached⟩ := exists_asked fails spaced
  have counted := countP_stopped fails
  have told : (((List.finRange n).filter fun index => decide ((task index).ticks ≤ turns)).map
        Call.lastReport ++ (behind failing).flatMap (stopReports task turns)).countP Call.isLast =
      n - (before failing).countP fun index => decide (turns < (task index).ticks) := by
    have each : (Call.isLast ∘ Call.lastReport : Fin n → Bool) = fun _ => true := rfl
    rw [List.countP_append, List.countP_map, each, List.countP_true, ← List.countP_eq_length_filter,
      countP_stopReports]
    omega
  refine ⟨heard, ?_⟩
  rw [Function.iterate_succ_apply', reached, round, List.foldl_append,
    foldl_flatMap_of_asked (nodup_before failing) turns (turns + 3) _ rfl few ?_ ?_,
    foldl_reports ?_ (Option.some_ne_none _) ?_, told, Loop.mk.injEq]
  · refine ⟨?_, rfl, rfl, rfl, ?_, ?_, rfl⟩
    · funext index
      rcases lt_trichotomy index failing with inFront | rfl | inBack
      · simp [inFront]
      · simp [lifeAfter, lifeStopped, fails.ticks, Life.ask]
      · simp [inBack, inBack.not_gt]
    · exact Nat.zero_add _
    · dsimp only
      rw [List.nil_append]
      congr 1
      exact if_congr (by omega) rfl rfl
  · intro call member
    rcases List.mem_append.mp member with isOver | isStopped
    · obtain ⟨index, -, rfl⟩ := List.mem_map.mp isOver
      rfl
    · exact isReport_of_mem_stopReports isStopped
  · rw [told]
    exact Nat.le_trans (Nat.le_of_eq (Nat.zero_add _)) (Nat.sub_le _ _)
  · intro index inFront
    simp [(mem_before.mp inFront).not_gt]
  · intro index
    have := spaced index
    omega

/-- When all tasks have stopped, the caller ends with the first error. -/
theorem exists_ending (spaced : ∀ index, turns < (task index).ticks → turns + 3 ≤ (task index).ticks) :
    ∃ (rounds : Nat) (loop : Loop n ε α), round^[rounds] (start task) = loop ∧
      loop.caller = .stopping error ∧ (∀ index, (loop.lives index).isOver = true) ∧ ∃ heard,
      loop.round =
        { lives := lifeStopped task turns
          caller := .ended (.error error)
          answer := some (.error error)
          heard
          heardAgain := n
          ready := []
          events := finishesBefore task (turns + 1) ++
            (behind failing).flatMap (cancelAt task turns) ++
            (before failing).flatMap (cancelAt task turns) } := by
  obtain ⟨heard, stopped⟩ := exists_stopped fails spaced
  by_cases noneLeft : (before failing).countP (fun index => decide (turns < (task index).ticks)) = 0
  · refine ⟨turns + 4, _, stopped, rfl, isOver_lifeStopped task turns, heard, ?_⟩
    have noReport : (before failing).flatMap (stopReports task turns) = [] := by
      refine List.flatMap_eq_nil_iff.mpr fun index inFront => if_neg ?_
      simpa using List.countP_eq_zero.mp noneLeft index inFront
    rw [if_pos noneLeft, noReport, noneLeft]
    rfl
  · have woken : round^[turns + 5] (start task) =
        { lives := lifeStopped task turns
          caller := .stopping error
          answer := some (.error error)
          heard
          heardAgain := n
          ready := [.wake]
          events := finishesBefore task (turns + 1) ++
            (behind failing).flatMap (cancelAt task turns) ++
            (before failing).flatMap (cancelAt task turns) } := by
      have counted := countP_stopped fails
      rw [Function.iterate_succ_apply', stopped, round, if_neg noneLeft, List.append_nil,
        foldl_reports (fun call member => isReport_of_mem_stopReports member)
          (Option.some_ne_none _) ?_, countP_stopReports, Loop.mk.injEq]
      · refine ⟨rfl, rfl, rfl, rfl, ?_, ?_, rfl⟩
        · dsimp only
          omega
        · dsimp only
          rw [if_pos (by omega)]
          rfl
      · rw [countP_stopReports]
        dsimp only
        omega
    exact ⟨turns + 5, _, woken, rfl, isOver_lifeStopped task turns, heard, rfl⟩

end Failing

end Loop

end ApiDocs.Task
