import ApiDocs.Proofs.Outcome
import ApiDocs.Proofs.Run.Logs

/-!
# Two runs side by side

Two steps that start from related worlds may end alike: both with alike results or both with
failures of one kind, and in related worlds again.  This is carried from the parts of two
steps to the whole of them.
-/

namespace ApiDocs

/-- Failures of one kind.  Those that tell of paths may tell of different ones. -/
inductive Failure.Alike : Failure → Failure → Prop where
  | same (failure : Failure) : Alike failure failure
  | settings (problem problem' : SettingsProblem) : Alike (.settings problem) (.settings problem')
  | resource (path sentence path' sentence' : Text) :
      Alike (.resource path sentence) (.resource path' sentence')
  | fault (cause cause' : Fault) : Alike (.fault cause) (.fault cause')

/-- Sources are rejected in the same way or not at all. -/
theorem Failure.Alike.eq_rejected_iff {failure failure' : Failure} (alike : failure.Alike failure')
    {errors : List Text} : failure = .rejected errors ↔ failure' = .rejected errors := by
  cases alike with
  | same => rfl
  | _ => simp

namespace Run

open World (OnlyLogs)

variable {α α' β β' ι ι' : Type} {related : World → World → Prop}
variable {alike : α → α' → Prop} {further : β → β' → Prop} {matched : ι → ι' → Prop}

/-- Two outcomes of steps: alike results, or failures of one kind. -/
abbrev EndAlike (alike : α → α' → Prop) : Except Failure α → Except Failure α' → Prop :=
  SameOutcome Failure.Alike alike

/-- From related worlds two steps end alike and in related worlds. -/
def GoAlike (related : World → World → Prop) (alike : α → α' → Prop) (step : Run α)
    (step' : Run α') : Prop :=
  ∀ world world', related world world' →
    EndAlike alike (ending step world).1 (ending step' world').1 ∧
      related (ending step world).2 (ending step' world').2

/-- Whether logging in either of two related worlds leaves them related. -/
def LogsFreely (related : World → World → Prop) : Prop :=
  ∀ world world' after after', related world world' → OnlyLogs world after →
    OnlyLogs world' after' → related after after'

namespace GoAlike

variable {step : Run α} {step' : Run α'} {next : α → Run β} {next' : α' → Run β'}

theorem pure {value : α} {value' : α'} (values : alike value value') :
    GoAlike related alike (pure value) (pure value') :=
  fun _ _ worlds => ⟨.ok values, worlds⟩

theorem throw {failure failure' : Failure} (failures : failure.Alike failure') :
    GoAlike related alike (throw failure) (throw failure') :=
  fun _ _ worlds => ⟨.error failures, worlds⟩

theorem ofExcept {result : Except Failure α} {result' : Except Failure α'}
    (results : EndAlike alike result result') :
    GoAlike related alike (ofExcept result) (ofExcept result') := by
  intro world world' worlds
  rw [ending_ofExcept, ending_ofExcept]
  exact ⟨results, worlds⟩

theorem get : GoAlike related related MonadState.get MonadState.get :=
  fun _ _ worlds => ⟨.ok worlds, worlds⟩

theorem bind (first : GoAlike related alike step step')
    (second : ∀ value value', alike value value' →
      GoAlike related further (next value) (next' value')) :
    GoAlike related further (step >>= next) (step' >>= next') := by
  intro world world' worlds
  obtain ⟨outcomes, worlds⟩ := first world world' worlds
  rw [ending_bind, ending_bind]
  revert outcomes worlds
  rcases ending step world with ⟨outcome, middle⟩
  rcases ending step' world' with ⟨outcome', middle'⟩
  rintro (values | failures) worlds
  · exact second _ _ values middle middle' worlds
  · exact ⟨.error failures, worlds⟩

theorem mono {other : α → α' → Prop} (first : GoAlike related alike step step')
    (wider : ∀ value value', alike value value' → other value value') :
    GoAlike related other step step' := by
  intro world world' worlds
  obtain ⟨outcomes, worlds⟩ := first world world' worlds
  exact ⟨outcomes.mono wider, worlds⟩

theorem attempt (first : GoAlike related alike step step') :
    GoAlike related (EndAlike alike) (attempt step) (attempt step') := by
  intro world world' worlds
  obtain ⟨outcomes, worlds⟩ := first world world' worlds
  rw [ending_attempt, ending_attempt]
  exact ⟨.ok outcomes, worlds⟩

theorem discard (first : GoAlike related alike step step') :
    GoAlike related (fun _ _ => True) (discard step) (discard step') :=
  bind first fun _ _ _ => pure trivial

/-- Jobs under way that match leave related worlds. -/
theorem finish {schedule : Schedule} {step : ι → Run α} {step' : ι' → Run α'}
    {jobs : List (ι × Nat)} {jobs' : List (ι' × Nat)}
    (pairs : List.Forall₂ (fun job job' => job.2 = job'.2 ∧ matched job.1 job'.1) jobs jobs')
    (each : ∀ item item', matched item item' → GoAlike related alike (step item) (step' item')) :
    GoAlike related (fun _ _ => True) (finish schedule step jobs) (finish schedule step' jobs') := by
  induction pairs with
  | nil => exact pure trivial
  | @cons job job' rest rest' pair _ ih =>
      intro world world' worlds
      have own := (each job.1 job'.1 pair.2 world world' worlds).2
      rw [ending_finish_cons, ending_finish_cons, pair.1]
      split
      · exact ih _ _ own
      · exact ih _ _ worlds

/-- Rows of jobs that match end alike if the steps for each pair do. -/
theorem takeTurns {schedule : Schedule} {step : ι → Run α} {step' : ι' → Run α'}
    {jobs : List (ι × Nat)} {jobs' : List (ι' × Nat)}
    (pairs : List.Forall₂ (fun job job' => job.2 = job'.2 ∧ matched job.1 job'.1) jobs jobs')
    (each : ∀ item item', matched item item' → GoAlike related alike (step item) (step' item')) :
    GoAlike related
      (List.Forall₂ fun value value' => value.2 = value'.2 ∧ alike value.1 value'.1)
      (takeTurns schedule step jobs) (takeTurns schedule step' jobs') := by
  induction pairs with
  | nil => exact pure .nil
  | @cons job job' rest rest' pair more ih =>
      intro world world' worlds
      have own := each job.1 job'.1 pair.2 world world' worlds
      rcases taken : ending (step job.1) world with ⟨outcome, middle⟩
      rcases taken' : ending (step' job'.1) world' with ⟨outcome', middle'⟩
      rw [taken, taken'] at own
      obtain ⟨outcomes, middles⟩ := own
      cases outcomes with
      | error failures =>
          rw [ending_takeTurns_cons_of_error taken, ending_takeTurns_cons_of_error taken']
          exact ⟨.error failures, (finish more each middle middle' middles).2⟩
      | ok values =>
          rw [ending_takeTurns_cons_of_ok taken, ending_takeTurns_cons_of_ok taken']
          have others := ih middle middle' middles
          revert others
          rcases ending (Run.takeTurns schedule step rest) middle with ⟨results, last⟩
          rcases ending (Run.takeTurns schedule step' rest') middle' with ⟨results', last'⟩
          rintro ⟨further | failures, lasts⟩
          · exact ⟨.ok (.cons ⟨pair.1, values⟩ further), lasts⟩
          · exact ⟨.error failures, lasts⟩

/-- Two steps for each of matching items end alike if those for each pair do. -/
theorem forEach {schedule : Schedule} {step : ι → Run α} {step' : ι' → Run α'} {items : List ι}
    {items' : List ι'} (pairs : List.Forall₂ matched items items')
    (each : ∀ item item', matched item item' → GoAlike related alike (step item) (step' item')) :
    GoAlike related (List.Forall₂ alike) (forEach schedule step items)
      (forEach schedule step' items') := by
  refine bind (takeTurns (schedule.forall₂_arrange pairs) each) fun values values' found => pure ?_
  rw [List.forall₂_map_left_iff, List.forall₂_map_right_iff]
  exact (forall₂_sortBy found).imp fun _ _ pair => pair.2

/-- Two steps that only log end alike. -/
theorem of_keeps (free : LogsFreely related) (logs : Keeps OnlyLogs step)
    (logs' : Keeps OnlyLogs step')
    (outcomes : ∀ world world', EndAlike alike (ending step world).1 (ending step' world').1) :
    GoAlike related alike step step' :=
  fun world world' worlds => ⟨outcomes world world', free _ _ _ _ worlds (logs world) (logs' world')⟩

/-- Steps that only log end alike and leave narrowly related worlds so. -/
theorem narrow {wide : World → World → Prop} (first : GoAlike wide alike step step')
    (within : ∀ world world', related world world' → wide world world')
    (free : LogsFreely related) (logs : Keeps OnlyLogs step) (logs' : Keeps OnlyLogs step') :
    GoAlike related alike step step' :=
  fun world world' worlds => ⟨(first world world' (within world world' worlds)).1,
    free _ _ _ _ worlds (logs world) (logs' world')⟩

theorem log (free : LogsFreely related) {level level' : Level}
    {part part' message message' : Text} :
    GoAlike related Eq (log level part message) (log level' part' message') :=
  of_keeps free (keeps_log _ _ _) (keeps_log _ _ _) fun _ _ => .ok rfl

end GoAlike

end Run

end ApiDocs
