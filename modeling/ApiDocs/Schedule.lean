import ApiDocs.Checked

/-!
# Tasks that take turns

Tasks that were started together take turns in list order: in every round each
task that is still running takes one turn.  A task finishes in the round given by
its number of ticks.  Waiting for all of them ends when the last one has finished.
Waiting until the first failure ends earlier: once the failure has been seen, which is at
the failing task's own place in a round, every task that has not finished is
cancelled at its next turn.  So the tasks behind the failing one are cancelled
first, those in front of it after them.  A failure is seen two rounds after it
happened; tasks whose ticks differ do so by more than that.
-/

namespace ApiDocs

/-- A task: in which round it finishes, and with what. -/
structure Task (ε α : Type) where
  ticks : Nat
  outcome : Except ε α

/-- What happens to a task, given by its place in the list. -/
inductive TaskEvent where
  | finish (index : Nat)
  | cancel (index : Nat)
  deriving DecidableEq, Repr, Inhabited

namespace Task

variable {ε α : Type}

/-- The tasks with their places. -/
def indexed (tasks : List (Task ε α)) : List (Nat × Task ε α) :=
  tasks.zipIdx.map fun (task, index) => (index, task)

/-- The tasks with their places, by the round and then by the place in which they finish. -/
def byFinish (tasks : List (Task ε α)) : List (Nat × Task ε α) :=
  (indexed tasks).mergeSort fun (_, first) (_, second) => first.ticks ≤ second.ticks

/-- The error of a task that fails. -/
def error? (task : Task ε α) : Option ε :=
  match task.outcome with
  | .ok _ => none
  | .error error => some error

/-- The first task to fail: its place, its round and its error. -/
def firstFailure? (tasks : List (Task ε α)) : Option (Nat × Nat × ε) :=
  (byFinish tasks).findSome? fun (index, task) =>
    task.error?.map fun error => (index, task.ticks, error)

/-- The values of tasks that all succeed, or the error of the first that does not. -/
def values (tasks : List (Task ε α)) : Except ε (List α) :=
  tasks.mapM fun task => task.outcome

/--
Waits for all tasks.  No task is cancelled; if some failed, the first of them in
the list gives the error, and otherwise the checks are put together.
-/
def settle (tasks : List (Task ε (Checked α))) : Except ε (Checked (List α)) × List TaskEvent :=
  let outcome :=
    match values tasks with
    | .ok checks => .ok (Checked.all checks)
    | .error error => .error error
  (outcome, (byFinish tasks).map fun (index, _) => .finish index)

/-- The tasks that a failure cancels, in the order of their next turns. -/
def cancelled (failing round : Nat) (tasks : List (Task ε α)) : List Nat :=
  let running := ((indexed tasks).filter fun (_, task) => round < task.ticks).map Prod.fst
  running.filter (failing < ·) ++ running.filter (· < failing)

/-- Waits for all tasks until one fails; then the others are cancelled. -/
def failFast (tasks : List (Task ε α)) : Except ε (List α) × List TaskEvent :=
  match firstFailure? tasks with
  | none => (values tasks, (byFinish tasks).map fun (index, _) => .finish index)
  | some (failing, round, error) =>
    let finished := (byFinish tasks).filter fun (_, task) => task.ticks ≤ round
    (.error error,
      finished.map (fun (index, _) => .finish index) ++
        (cancelled failing round tasks).map .cancel)

end Task

end ApiDocs
