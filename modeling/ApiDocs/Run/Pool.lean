/-!
# Jobs that are done beside each other

A stage hands a row of jobs to a pool, which works on several of them at once and may finish
them in any order.  A *schedule* says in which order the jobs have their turns, and which of
the others are under way when one of them fails: those are still done, and the rest never
begin.

A job has its whole effect at its turn, and a row is over before the run goes on.
-/

namespace ApiDocs

/-- In which order the jobs of a row are done, and which of them a failure does not stop. -/
structure Schedule where
  /-- When a job has its turn; jobs with one turn have it in their own order. -/
  turn : Nat → Nat := fun _ => 0
  /-- Whether a job that has its turn behind a failure is under way by then. -/
  underWay : Nat → Bool := fun _ => true

/-- Puts an item in front of the first one whose key is not smaller. -/
def insertBy {α : Type} (key : α → Nat) (item : α) : List α → List α
  | [] => [item]
  | other :: rest =>
    if key item ≤ key other then item :: other :: rest else other :: insertBy key item rest

/-- The items by their keys; items with one key stay in their order. -/
def sortBy {α : Type} (key : α → Nat) (items : List α) : List α :=
  items.foldr (insertBy key) []

/-- Some items with their places in the list, in the order in which they have their turns. -/
def Schedule.arrange {α : Type} (schedule : Schedule) (items : List α) : List (α × Nat) :=
  sortBy (fun (_, place) => schedule.turn place) items.zipIdx

/-- The schedules of a row of files: of looking which of them are there, and of writing them. -/
structure WriteSchedule where
  checks : Schedule := {}
  writes : Schedule := {}

/-- The rows of files that a run writes. -/
inductive FileRow where
  /-- The examples. -/
  | examples
  /-- What the type checker needs beside the examples. -/
  | checker
  /-- The site. -/
  | site
  deriving DecidableEq, Repr, Inhabited

end ApiDocs
