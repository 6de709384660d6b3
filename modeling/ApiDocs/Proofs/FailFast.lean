import Mathlib.Data.Fintype.EquivFin
import Mathlib.Data.Fintype.Lattice
import ApiDocs.Proofs.EventLoop
import ApiDocs.Proofs.Outcome

/-!
# Waiting until the first failure

Tasks finish by their ticks, and in the order of the list where these are equal.  Waiting until
the first failure is compared here with the event loop: the caller ends with the same result after the
same events, and when it ends no task is left running.

If tasks whose ticks differ do so by enough, no task finishes between the failure and the turns
at which the others are cancelled.  The turns that come next are then those of the tasks behind
the failing one; so these are cancelled first, and the tasks in front of it after them.
-/

namespace ApiDocs.Task

variable {ε α : Type}

namespace Loop

variable {n : Nat}

/-! ## A caller that has ended -/

theorem hasEnded_handle {loop : Loop n ε α} (ended : loop.caller.hasEnded = true) (call : Call n) :
    (loop.handle call).caller.hasEnded = true := by
  cases call with
  | turn index =>
      rw [handle, takeTurn]
      split <;> exact ended
  | report index =>
      rw [handle, hear]
      split
      · exact ended
      · dsimp only
        split <;> exact ended
      · exact ended
  | lastReport index => exact ended
  | wake =>
      cases caller : loop.caller with
      | ended result =>
          have stays : loop.goOn = loop := by
            rw [goOn]
            simp [caller]
          rw [handle, stays]
          exact ended
      | waiting | stopping error =>
          rw [caller] at ended
          cases ended

theorem hasEnded_round {loop : Loop n ε α} (ended : loop.caller.hasEnded = true) :
    loop.round.caller.hasEnded = true := by
  have folded (calls : List (Call n)) (loop : Loop n ε α) (ended : loop.caller.hasEnded = true) :
      (calls.foldl handle loop).caller.hasEnded = true := by
    induction calls generalizing loop with
    | nil => exact ended
    | cons call rest ih => exact ih _ (hasEnded_handle ended call)
  exact folded loop.ready _ ended

/-- A caller that has not ended yet had not ended before. -/
theorem not_hasEnded_of_le {loop : Loop n ε α} {rounds earlier : Nat}
    (notYet : (round^[rounds] loop).caller.hasEnded = false) (le : earlier ≤ rounds) :
    (round^[earlier] loop).caller.hasEnded = false := by
  obtain ⟨more, rfl⟩ := Nat.exists_eq_add_of_le' le
  induction more with
  | zero => simpa using notYet
  | succ more ih =>
      refine ih ?_ (Nat.le_add_left _ _)
      rw [Nat.succ_add, Function.iterate_succ_apply'] at notYet
      rw [Bool.eq_false_iff] at notYet ⊢
      exact mt hasEnded_round notYet

end Loop

/-! ## The order in which tasks finish -/

/-- Whether a task finishes before another one: by its ticks, and then by its place. -/
def Precedes (first second : Nat × Task ε α) : Prop :=
  first.2.ticks < second.2.ticks ∨ first.2.ticks = second.2.ticks ∧ first.1 < second.1

theorem Precedes.asymm {first second : Nat × Task ε α} (precedes : Precedes first second) :
    ¬Precedes second first := by
  intro back
  rw [Precedes] at precedes back
  omega

theorem nodup_of_pairwise_precedes {list : List (Nat × Task ε α)}
    (ordered : list.Pairwise Precedes) :
    list.Nodup := by
  refine ordered.imp ?_
  rintro first _ precedes rfl
  exact precedes.asymm precedes

theorem indexed_eq_map (tasks : List (Task ε α)) :
    indexed tasks = (List.finRange tasks.length).map fun index => (index.val, tasks.get index) := by
  apply List.ext_getElem
  · simp [indexed]
  · intro place inside _
    simp [indexed]

theorem pairwise_indexed (tasks : List (Task ε α)) :
    (indexed tasks).Pairwise fun first second => first.1 < second.1 := by
  rw [indexed_eq_map, List.pairwise_map]
  exact List.pairwise_lt_finRange _

theorem byFinish_perm (tasks : List (Task ε α)) : (byFinish tasks).Perm (indexed tasks) :=
  List.mergeSort_perm _ _

theorem mem_byFinish {tasks : List (Task ε α)} {pair : Nat × Task ε α} :
    pair ∈ byFinish tasks ↔ ∃ index : Fin tasks.length, (index.val, tasks.get index) = pair := by
  rw [(byFinish_perm tasks).mem_iff, indexed_eq_map]
  simp

/-! Sorting compares the ticks alone, which is a total preorder. -/

theorem ticks_le_trans (first second third : Nat × Task ε α)
    (le : decide (first.2.ticks ≤ second.2.ticks) = true)
    (next : decide (second.2.ticks ≤ third.2.ticks) = true) :
    decide (first.2.ticks ≤ third.2.ticks) = true :=
  decide_eq_true (Nat.le_trans (of_decide_eq_true le) (of_decide_eq_true next))

theorem ticks_le_total (first second : Nat × Task ε α) :
    (decide (first.2.ticks ≤ second.2.ticks) || decide (second.2.ticks ≤ first.2.ticks)) =
      true := by
  rw [Bool.or_eq_true, decide_eq_true_iff, decide_eq_true_iff]
  exact Nat.le_total _ _

/-- Tasks with the same ticks are in order already, so sorting cannot take them apart. -/
theorem filter_byFinish (tasks : List (Task ε α)) (ticks : Nat) :
    ((byFinish tasks).filter fun pair => pair.2.ticks == ticks) =
      (indexed tasks).filter fun pair => pair.2.ticks == ticks := by
  have kept : ((indexed tasks).filter fun pair => pair.2.ticks == ticks).Sublist (byFinish tasks) := by
    refine List.sublist_mergeSort ticks_le_trans ticks_le_total ?_ List.filter_sublist
    apply List.pairwise_of_forall_mem_list
    intro first firstMember second secondMember
    have firstTicks := (List.mem_filter.mp firstMember).2
    have secondTicks := (List.mem_filter.mp secondMember).2
    rw [beq_iff_eq] at firstTicks secondTicks
    simp [firstTicks, secondTicks]
  have filtered := kept.filter fun pair => pair.2.ticks == ticks
  rw [List.filter_filter] at filtered
  simp only [Bool.and_self] at filtered
  exact (filtered.eq_of_length ((byFinish_perm tasks).filter _).length_eq.symm).symm

theorem pairwise_byFinish (tasks : List (Task ε α)) : (byFinish tasks).Pairwise Precedes := by
  have ascending : (byFinish tasks).Pairwise fun first second =>
      decide (first.2.ticks ≤ second.2.ticks) = true :=
    List.pairwise_mergeSort ticks_le_trans ticks_le_total _
  rw [List.pairwise_iff_forall_sublist] at ascending ⊢
  intro first second inside
  rcases Nat.lt_or_eq_of_le (of_decide_eq_true (ascending inside)) with less | same
  · exact .inl less
  · have together := inside.filter fun pair => pair.2.ticks == first.2.ticks
    rw [filter_byFinish] at together
    simp only [List.filter_cons, same, beq_self_eq_true, if_true, List.filter_nil] at together
    have inOrder := together.trans List.filter_sublist
    exact .inr ⟨same, List.pairwise_iff_forall_sublist.mp (pairwise_indexed tasks) inOrder⟩

section FinishOrder

variable {n : Nat} (task : Fin n → Task ε α) (turns : Nat)

/-- The places of the tasks that finish in the first turns, as they finish. -/
def finishOrder : List (Fin n) :=
  (List.range turns).flatMap fun turn =>
    (List.finRange n).filter fun index => decide ((task index).ticks = turn)

theorem mem_finishOrder {task : Fin n → Task ε α} {turns : Nat} {index : Fin n} :
    index ∈ finishOrder task turns ↔ (task index).ticks < turns := by
  simp [finishOrder]

theorem pairwise_finishOrder :
    (finishOrder task turns).Pairwise fun first second =>
      Precedes (first.val, task first) (second.val, task second) := by
  rw [finishOrder, List.pairwise_flatMap]
  refine ⟨fun turn _ => ?_, List.pairwise_lt_range.imp ?_⟩
  · refine ((List.pairwise_lt_finRange n).filter _).imp_of_mem ?_
    intro first second firstMember secondMember less
    have firstTicks := of_decide_eq_true (List.mem_filter.mp firstMember).2
    have secondTicks := of_decide_eq_true (List.mem_filter.mp secondMember).2
    exact .inr ⟨firstTicks.trans secondTicks.symm, less⟩
  · intro earlier later less first firstMember second secondMember
    have firstTicks := of_decide_eq_true (List.mem_filter.mp firstMember).2
    have secondTicks := of_decide_eq_true (List.mem_filter.mp secondMember).2
    refine .inl ?_
    dsimp only
    omega

theorem nodup_finishOrder : (finishOrder task turns).Nodup := by
  have ordered := List.pairwise_map.mpr (pairwise_finishOrder task turns)
  exact (nodup_of_pairwise_precedes ordered).of_map _

theorem Loop.finishesBefore_eq_map :
    finishesBefore task turns = (finishOrder task turns).map fun index => .finish index.val := by
  rw [finishOrder, List.map_flatMap]
  exact List.flatMap_congr fun turn _ => flatMap_ite_eq_map _ _ _

end FinishOrder

/-- The first tasks by their ticks, and by their places where these are equal. -/
theorem filter_byFinish_lt (tasks : List (Task ε α)) (turns : Nat) :
    ((byFinish tasks).filter fun pair => decide (pair.2.ticks < turns)) =
      (finishOrder tasks.get turns).map fun index => (index.val, tasks.get index) := by
  have byTicks := (pairwise_byFinish tasks).filter fun pair => decide (pair.2.ticks < turns)
  have byTurns := List.pairwise_map.mpr (pairwise_finishOrder tasks.get turns)
  refine List.Perm.eq_of_pairwise
    (fun first second _ _ precedes back => absurd back precedes.asymm) byTicks byTurns ?_
  rw [List.perm_ext_iff_of_nodup (nodup_of_pairwise_precedes byTicks)
    (nodup_of_pairwise_precedes byTurns)]
  intro pair
  rw [List.mem_filter, mem_byFinish, List.mem_map]
  constructor
  · rintro ⟨⟨index, rfl⟩, early⟩
    exact ⟨index, mem_finishOrder.mpr (of_decide_eq_true early), rfl⟩
  · rintro ⟨index, early, rfl⟩
    exact ⟨⟨index, rfl⟩, decide_eq_true (mem_finishOrder.mp early)⟩

/-- The order in which all tasks finish if none is cancelled. -/
theorem byFinish_eq_map {tasks : List (Task ε α)} {turns : Nat}
    (all : ∀ index, (tasks.get index).ticks < turns) :
    byFinish tasks = (finishOrder tasks.get turns).map fun index => (index.val, tasks.get index) := by
  rw [← filter_byFinish_lt, List.filter_eq_self.mpr]
  intro pair member
  obtain ⟨index, rfl⟩ := mem_byFinish.mp member
  exact decide_eq_true (all index)

/-! ## The first failure -/

theorem error?_eq_none_iff {task : Task ε α} :
    task.error? = none ↔ ∃ value, task.outcome = .ok value := by
  rw [error?]
  cases task.outcome <;> simp

theorem error?_eq_some_iff {task : Task ε α} {error : ε} :
    task.error? = some error ↔ task.outcome = .error error := by
  rw [error?]
  cases task.outcome <;> simp

theorem exists_values_of_firstFailure?_eq_none {tasks : List (Task ε α)}
    (nobody : firstFailure? tasks = none) :
    ∃ values : List α, tasks.map Task.outcome = values.map .ok := by
  have each : ∀ task ∈ tasks, ∃ value, task.outcome = .ok value := by
    intro task member
    obtain ⟨index, rfl⟩ := List.get_of_mem member
    have failsNot := List.findSome?_eq_none_iff.mp nobody _ (mem_byFinish.mpr ⟨index, rfl⟩)
    exact error?_eq_none_iff.mp (Option.map_eq_none_iff.mp failsNot)
  obtain ⟨values, made⟩ := exists_mapM_eq_ok each
  exact ⟨values, mapM_eq_ok_iff.mp made⟩

/-- The failure found first is that of the least failing task by the ticks and then by the place. -/
theorem failsFirst_of_firstFailure?_eq_some {tasks : List (Task ε α)} {place turns : Nat}
    {error : ε}
    (found : firstFailure? tasks = some (place, turns, error)) :
    ∃ failing : Fin tasks.length, failing.val = place ∧
      FailsFirst tasks.get failing turns error := by
  obtain ⟨front, ⟨index, failing⟩, rest, cut, fails, noneBefore⟩ := List.findSome?_eq_some_iff.mp found
  obtain ⟨error', isError, same⟩ := Option.map_eq_some_iff.mp fails
  cases same
  have ordered := pairwise_byFinish tasks
  rw [cut, List.pairwise_append, List.pairwise_cons] at ordered
  obtain ⟨-, ⟨later, -⟩, -⟩ := ordered
  have own : (place, failing) ∈ byFinish tasks := by
    rw [cut]
    exact List.mem_append_right _ List.mem_cons_self
  obtain ⟨index, same⟩ := mem_byFinish.mp own
  cases same
  refine ⟨index, rfl, rfl, error?_eq_some_iff.mp isError, ?_⟩
  intro other error' otherFails
  have member := mem_byFinish.mpr ⟨other, rfl⟩
  rw [cut, List.mem_append, List.mem_cons] at member
  rcases member with inFront | isOwn | inRest
  · have isError : (tasks.get other).error? = some error' := error?_eq_some_iff.mpr otherFails
    have failsNot := Option.map_eq_none_iff.mp (noneBefore _ inFront)
    rw [isError] at failsNot
    cases failsNot
  · have same := congrArg Prod.fst isOwn
    have same : other = index := Fin.ext same
    exact .inr ⟨by rw [same], same.ge⟩
  · rcases later _ inRest with less | ⟨same, less⟩
    · exact .inl less
    · exact .inr ⟨same, Nat.le_of_lt less⟩

/-- The places of the tasks that a failure cancels, as they are cancelled. -/
def stopOrder {n : Nat} (task : Fin n → Task ε α) (failing : Fin n) : List (Fin n) :=
  (Loop.behind failing ++ Loop.before failing).filter fun index =>
    decide ((task failing).ticks < (task index).ticks)

theorem cancelled_eq_map (tasks : List (Task ε α)) (failing : Fin tasks.length) :
    cancelled failing (tasks.get failing).ticks tasks =
      (stopOrder tasks.get failing).map Fin.val := by
  have running : ((indexed tasks).filter fun pair =>
        decide ((tasks.get failing).ticks < pair.2.ticks)).map Prod.fst =
      ((List.finRange tasks.length).filter fun index =>
        decide ((tasks.get failing).ticks < (tasks.get index).ticks)).map Fin.val := by
    rw [indexed_eq_map, List.filter_map, List.map_map]
    rfl
  have inTurn : cancelled failing (tasks.get failing).ticks tasks =
      let running := ((indexed tasks).filter fun pair =>
        decide ((tasks.get failing).ticks < pair.2.ticks)).map Prod.fst
      (running.filter fun index => decide (failing.val < index)) ++
        running.filter fun index => decide (index < failing.val) := rfl
  simp only [inTurn, running, stopOrder, Loop.behind, Loop.before, List.filter_map,
    List.filter_append, List.map_append, List.filter_filter]
  congr 2
  · exact List.filter_congr fun index _ => Bool.and_comm _ _
  · exact List.filter_congr fun index _ => Bool.and_comm _ _

theorem Loop.flatMap_cancelAt {n : Nat} (task : Fin n → Task ε α) (failing : Fin n) :
    (behind failing).flatMap (cancelAt task (task failing).ticks) ++
        (before failing).flatMap (cancelAt task (task failing).ticks) =
      (stopOrder task failing).map fun index => .cancel index.val := by
  rw [← List.flatMap_append]
  exact flatMap_ite_eq_map _ _ _

theorem nodup_stopOrder {n : Nat} (task : Fin n → Task ε α) (failing : Fin n) :
    (stopOrder task failing).Nodup := by
  refine (List.Nodup.append (Loop.nodup_behind failing) (Loop.nodup_before failing) ?_).filter _
  intro index inBack inFront
  exact lt_asymm (Loop.mem_behind.mp inBack) (Loop.mem_before.mp inFront)

/-! ## The end of the waiting -/

/-- Tasks whose ticks differ do so by at least ten. -/
def IsSpaced (tasks : List (Task ε α)) : Prop :=
  ∀ first ∈ tasks, ∀ second ∈ tasks, first.ticks < second.ticks → first.ticks + 10 ≤ second.ticks

instance (tasks : List (Task ε α)) : Decidable (IsSpaced tasks) :=
  inferInstanceAs (Decidable (∀ first ∈ tasks, ∀ second ∈ tasks,
    first.ticks < second.ticks → first.ticks + 10 ≤ second.ticks))

/-- The caller comes to its end after some rounds, with a result and after events. -/
structure Loop.EndsAfter {n : Nat} (task : Fin n → Task ε α) (rounds : Nat)
    (ending : Except ε (List α) × List TaskEvent) : Prop where
  result : (round^[rounds] (start task)).caller = .ended ending.1
  events : (round^[rounds] (start task)).events = ending.2
  /-- Nothing is left to be done. -/
  idle : (round^[rounds] (start task)).ready = []
  notBefore : ∀ earlier < rounds, (round^[earlier] (start task)).caller.hasEnded = false
  /-- When the caller comes to its end, every task has come to its own in an earlier round. -/
  allOver : ∀ earlier, earlier + 1 = rounds →
    ∀ index, ((round^[earlier] (start task)).lives index).isOver = true

/-- A caller that ends in the round after a state in which all tasks are over. -/
theorem Loop.endsAfter_of_round {n : Nat} {task : Fin n → Task ε α} {rounds : Nat}
    {loop last : Loop n ε α} {ending : Except ε (List α) × List TaskEvent}
    (reached : round^[rounds] (start task) = loop) (notEnded : loop.caller.hasEnded = false)
    (allOver : ∀ index, (loop.lives index).isOver = true) (next : loop.round = last)
    (result : last.caller = .ended ending.1) (events : last.events = ending.2)
    (idle : last.ready = []) : EndsAfter task (rounds + 1) ending := by
  have ended : round^[rounds + 1] (start task) = last := by
    rw [Function.iterate_succ_apply', reached, next]
  refine ⟨by rw [ended, result], by rw [ended, events], by rw [ended, idle], ?_, ?_⟩
  · intro earlier less
    exact not_hasEnded_of_le (by rw [reached, notEnded]) (Nat.le_of_lt_succ less)
  · intro earlier same
    cases same
    rwa [reached]

/-- Tasks that all have a value are waited for until the last has finished. -/
theorem exists_endsAfter_of_values {tasks : List (Task ε α)} {values : List α}
    (given : tasks.map Task.outcome = values.map .ok) :
    ∃ rounds turns, (∀ index, (tasks.get index).ticks < turns) ∧
      Loop.EndsAfter tasks.get rounds
        (.ok values, (finishOrder tasks.get turns).map fun index => .finish index.val) := by
  have each := congrArg (List.map Task.outcome) (List.map_get_finRange tasks)
  rw [List.map_map, given] at each
  rcases eq_or_ne tasks [] with rfl | nonempty
  · have noValue : values = [] := by simpa using given.symm
    subst noValue
    refine ⟨0, 0, fun index => index.elim0, rfl, rfl, rfl, ?_, ?_⟩
    · intro earlier less
      omega
    · intro earlier same
      omega
  · have : Nonempty (Fin tasks.length) := ⟨⟨0, List.length_pos_iff.mpr nonempty⟩⟩
    obtain ⟨last, latest⟩ := Finite.exists_max fun index => (tasks.get index).ticks
    obtain ⟨loop, reached, waiting, allOver, ends⟩ := Loop.rounds_of_values latest each
    refine ⟨(tasks.get last).ticks + 3, (tasks.get last).ticks + 1,
      fun index => Nat.lt_succ_of_le (latest index), ?_⟩
    rw [← Loop.finishesBefore_eq_map]
    exact Loop.endsAfter_of_round reached (by rw [waiting]; rfl) allOver ends rfl rfl rfl

/-- After the first failure the others are stopped, and the waiting ends when all are over. -/
theorem exists_endsAfter_of_failure {tasks : List (Task ε α)} (spaced : IsSpaced tasks)
    {failing : Fin tasks.length} {turns : Nat} {error : ε}
    (fails : FailsFirst tasks.get failing turns error) :
    ∃ rounds, Loop.EndsAfter tasks.get rounds
      (.error error,
        ((finishOrder tasks.get (turns + 1)).map fun index => .finish index.val) ++
          (stopOrder tasks.get failing).map fun index => .cancel index.val) := by
  have apart (index : Fin tasks.length) (later : turns < (tasks.get index).ticks) :
      turns + 3 ≤ (tasks.get index).ticks := by
    have byTen := spaced _ (List.get_mem tasks failing) _ (List.get_mem tasks index)
    rw [fails.ticks] at byTen
    have := byTen later
    omega
  obtain ⟨rounds, loop, reached, stopping, allOver, heard, ends⟩ := Loop.exists_ending fails apart
  refine ⟨rounds + 1, Loop.endsAfter_of_round reached (by rw [stopping]; rfl) allOver ends rfl ?_ rfl⟩
  dsimp only
  rw [← fails.ticks, List.append_assoc, Loop.flatMap_cancelAt, Loop.finishesBefore_eq_map]

theorem failFast_of_values {tasks : List (Task ε α)} {values : List α} {turns : Nat}
    (given : tasks.map Task.outcome = values.map .ok)
    (all : ∀ index, (tasks.get index).ticks < turns) :
    failFast tasks =
      (.ok values, (finishOrder tasks.get turns).map fun index => .finish index.val) := by
  have nobody : firstFailure? tasks = none := by
    rw [firstFailure?, List.findSome?_eq_none_iff]
    intro pair member
    obtain ⟨index, rfl⟩ := mem_byFinish.mp member
    have inList := List.mem_map_of_mem (f := Task.outcome) (List.get_mem tasks index)
    rw [given] at inList
    obtain ⟨value, -, isOk⟩ := List.mem_map.mp inList
    exact Option.map_eq_none_iff.mpr (error?_eq_none_iff.mpr ⟨value, isOk.symm⟩)
  have gathered : Task.values tasks = .ok values := mapM_eq_ok_iff.mpr given
  rw [failFast, nobody]
  simp only [gathered, byFinish_eq_map all, List.map_map]
  rfl

theorem failFast_of_failure {tasks : List (Task ε α)} {failing : Fin tasks.length} {turns : Nat}
    {error : ε} (found : firstFailure? tasks = some (failing.val, turns, error))
    (fails : FailsFirst tasks.get failing turns error) :
    failFast tasks =
      (.error error,
        ((finishOrder tasks.get (turns + 1)).map fun index => .finish index.val) ++
          (stopOrder tasks.get failing).map fun index => .cancel index.val) := by
  have finished : ((byFinish tasks).filter fun pair => decide (pair.2.ticks ≤ turns)) =
      (finishOrder tasks.get (turns + 1)).map fun index => (index.val, tasks.get index) := by
    rw [← filter_byFinish_lt]
    exact List.filter_congr fun pair _ => decide_eq_decide.mpr Nat.lt_succ_iff.symm
  have stopped := cancelled_eq_map tasks failing
  rw [fails.ticks] at stopped
  rw [failFast, found]
  simp only [finished, stopped, List.map_map]
  rfl

/-- Whatever is finished or cancelled, each place has its own event. -/
theorem nodup_events {n : Nat} {finished stopped : List (Fin n)} (finishedOnce : finished.Nodup)
    (stoppedOnce : stopped.Nodup) :
    ((finished.map fun index => TaskEvent.finish index.val) ++
      stopped.map fun index => TaskEvent.cancel index.val).Nodup := by
  refine List.Nodup.append
    (finishedOnce.map fun first second same => Fin.ext (TaskEvent.finish.inj same))
    (stoppedOnce.map fun first second same => Fin.ext (TaskEvent.cancel.inj same)) ?_
  intro event isFinish isCancel
  obtain ⟨index, -, rfl⟩ := List.mem_map.mp isFinish
  obtain ⟨other, -, same⟩ := List.mem_map.mp isCancel
  cases same

/--
Waiting until the first failure leaves no task running.  The caller comes to its end after some
rounds and not before; every task is over by then, and what has happened and come out is what
`failFast` says.  No task has two events.  If all tasks have values, these come out in the order
of the list, and every task has finished.  Otherwise the error of the failing task that is least
by its ticks and then by its place comes out; exactly the tasks with at most its ticks have
finished; and after that all others are cancelled, first those behind the failing task and then
those in front of it, each in the order of the list.
-/
theorem failFast_leaves_no_task_running (tasks : List (Task ε α)) (spaced : IsSpaced tasks) :
    (∃ rounds, Loop.EndsAfter tasks.get rounds (failFast tasks)) ∧
    (failFast tasks).2.Nodup ∧
    ((∃ (values : List α) (finished : List (Fin tasks.length)),
        tasks.map Task.outcome = values.map .ok ∧
        failFast tasks = (.ok values, finished.map fun index => .finish index.val) ∧
        (finished.Pairwise fun first second =>
          Precedes (first.val, tasks.get first) (second.val, tasks.get second)) ∧
        ∀ index, index ∈ finished) ∨
      ∃ failing turns error, FailsFirst tasks.get failing turns error ∧
        ∃ finished behind before : List (Fin tasks.length),
          failFast tasks =
            (.error error, (finished.map fun index => .finish index.val) ++
              (behind ++ before).map fun index => .cancel index.val) ∧
          (finished.Pairwise fun first second =>
            Precedes (first.val, tasks.get first) (second.val, tasks.get second)) ∧
          (∀ index, index ∈ finished ↔ (tasks.get index).ticks ≤ turns) ∧
          behind.Pairwise (· < ·) ∧
          (∀ index, index ∈ behind ↔ failing < index ∧ turns < (tasks.get index).ticks) ∧
          before.Pairwise (· < ·) ∧
          ∀ index, index ∈ before ↔ index < failing ∧ turns < (tasks.get index).ticks) := by
  cases found : firstFailure? tasks with
  | none =>
      obtain ⟨values, given⟩ := exists_values_of_firstFailure?_eq_none found
      obtain ⟨rounds, turns, all, ends⟩ := exists_endsAfter_of_values given
      have ending := failFast_of_values given all
      refine ⟨⟨rounds, ending ▸ ends⟩, ?_, .inl ⟨values, _, given, ending,
        pairwise_finishOrder tasks.get turns, fun index => mem_finishOrder.mpr (all index)⟩⟩
      rw [ending]
      simpa using nodup_events (nodup_finishOrder tasks.get turns) List.nodup_nil
  | some failure =>
      obtain ⟨place, turns, error⟩ := failure
      obtain ⟨failing, rfl, fails⟩ := failsFirst_of_firstFailure?_eq_some found
      obtain ⟨rounds, ends⟩ := exists_endsAfter_of_failure spaced fails
      have ending := failFast_of_failure found fails
      refine ⟨⟨rounds, ending ▸ ends⟩, ?_, .inr ⟨failing, turns, error, fails,
        finishOrder tasks.get (turns + 1),
        (Loop.behind failing).filter fun index => decide (turns < (tasks.get index).ticks),
        (Loop.before failing).filter fun index => decide (turns < (tasks.get index).ticks),
        ?_, pairwise_finishOrder tasks.get (turns + 1), ?_, ?_, ?_, ?_, ?_⟩⟩
      · rw [ending]
        exact nodup_events (nodup_finishOrder _ _) (nodup_stopOrder _ _)
      · rw [ending, stopOrder, fails.ticks, List.filter_append]
      · exact fun index => mem_finishOrder.trans Nat.lt_succ_iff
      · exact ((List.pairwise_lt_finRange _).filter _).filter _
      · intro index
        simp
      · exact ((List.pairwise_lt_finRange _).filter _).filter _
      · intro index
        simp

/-- Tasks that finish out of their order; the fourth one fails. -/
def staggeredTasks : List (Task Nat Nat) :=
  [{ ticks := 20, outcome := .ok 1 }, { ticks := 10, outcome := .ok 2 },
    { ticks := 0, outcome := .ok 3 }, { ticks := 10, outcome := .error 4 },
    { ticks := 20, outcome := .ok 5 }]

theorem failFast_staggered :
    failFast staggeredTasks =
      (.error 4, [.finish 2, .finish 1, .finish 3, .cancel 4, .cancel 0]) := by
  have early : ∀ index, (staggeredTasks.get index).ticks < 21 := by decide
  rw [failFast, firstFailure?, byFinish_eq_map early]
  decide +kernel

/-- The last task is cancelled before the first one, and then the caller ends. -/
theorem failFast_leaves_no_staggeredTask_running :
    IsSpaced staggeredTasks ∧
      ∃ rounds, Loop.EndsAfter staggeredTasks.get rounds
        (.error 4, [.finish 2, .finish 1, .finish 3, .cancel 4, .cancel 0]) := by
  have spaced : IsSpaced staggeredTasks := by decide
  obtain ⟨⟨rounds, ends⟩, -, -⟩ := failFast_leaves_no_task_running staggeredTasks spaced
  rw [failFast_staggered] at ends
  exact ⟨spaced, rounds, ends⟩

/-- Neither the finished tasks nor the cancelled ones need be in the order of the list. -/
theorem failFast_does_not_cancel_in_order :
    IsSpaced staggeredTasks ∧
      ∀ finished cancelled : List Nat,
        (failFast staggeredTasks).2 = finished.map .finish ++ cancelled.map .cancel →
          ¬finished.Pairwise (· < ·) ∧ ¬cancelled.Pairwise (· < ·) := by
  refine ⟨by decide, ?_⟩
  intro finished cancelled events
  rw [failFast_staggered] at events
  have finishes : [2, 1, 3] = finished := by
    simpa using congrArg (List.filterMap (TaskEvent.rec some fun _ => none)) events
  have cancels : [4, 0] = cancelled := by
    simpa using congrArg (List.filterMap (TaskEvent.rec (fun _ => none) some)) events
  subst finishes cancels
  decide

end ApiDocs.Task
