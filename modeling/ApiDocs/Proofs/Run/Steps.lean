import ApiDocs.Run.Files
import Mathlib.Data.List.Forall2
import Mathlib.Data.List.Nodup

/-!
# Steps of a run

A step ends with a result or a failure, and with the world afterwards.  This module says
how the ends of steps that are put together come from the ends of their parts, and how a
relation between the worlds before and after is carried from the parts to the whole:
if it holds of every part, however that part ends, it holds of all.

Jobs have their turns in an order that a schedule gives them, and their values come back in the
order of the jobs.  So a row that succeeds does not show its schedule but in the worlds between.
-/

namespace ApiDocs

/-! ## Items by their keys -/

section Sorting

variable {α β : Type} {key : α → Nat} {other : β → Nat} {item : α}

theorem perm_insertBy (key : α → Nat) (item : α) (items : List α) :
    (insertBy key item items).Perm (item :: items) := by
  induction items with
  | nil => exact .refl _
  | cons first rest ih =>
      rw [insertBy]
      split
      · exact .refl _
      · exact (ih.cons first).trans (.swap item first rest)

theorem perm_sortBy (key : α → Nat) (items : List α) : (sortBy key items).Perm items := by
  induction items with
  | nil => exact .refl _
  | cons first rest ih => exact (perm_insertBy key first _).trans (ih.cons first)

theorem pairwise_insertBy {items : List α} (sorted : items.Pairwise fun a b => key a ≤ key b) :
    (insertBy key item items).Pairwise fun a b => key a ≤ key b := by
  induction items with
  | nil => exact List.pairwise_singleton _ _
  | cons first rest ih =>
      obtain ⟨least, sortedRest⟩ := List.pairwise_cons.mp sorted
      rw [insertBy]
      split
      · rename_i small
        exact List.pairwise_cons.mpr ⟨List.forall_mem_cons.mpr
          ⟨small, fun other member => Nat.le_trans small (least other member)⟩, sorted⟩
      · rename_i large
        refine List.pairwise_cons.mpr ⟨fun other member => ?_, ih sortedRest⟩
        rcases List.mem_cons.mp ((perm_insertBy key item rest).mem_iff.mp member) with rfl | inRest
        · exact Nat.le_of_not_le large
        · exact least other inRest

theorem pairwise_sortBy (key : α → Nat) (items : List α) :
    (sortBy key items).Pairwise fun a b => key a ≤ key b := by
  induction items with
  | nil => exact .nil
  | cons first rest ih => exact pairwise_insertBy ih

/-- Two lists that match item by item still do when both are sorted by keys that match. -/
theorem forall₂_sortBy {matched : α → β → Prop} {items : List α} {others : List β}
    (pairs : List.Forall₂ (fun a b => key a = other b ∧ matched a b) items others) :
    List.Forall₂ (fun a b => key a = other b ∧ matched a b) (sortBy key items)
      (sortBy other others) := by
  have insert {item : α} {item' : β} (own : key item = other item' ∧ matched item item') :
      ∀ {rest rest'}, List.Forall₂ (fun a b => key a = other b ∧ matched a b) rest rest' →
        List.Forall₂ (fun a b => key a = other b ∧ matched a b) (insertBy key item rest)
          (insertBy other item' rest') := by
    intro rest rest' more
    induction more with
    | nil => exact .cons own .nil
    | @cons first first' _ _ pair rest ih =>
        rw [insertBy, insertBy, own.1, pair.1]
        split
        · exact .cons own (.cons pair rest)
        · exact .cons pair ih
  induction pairs with
  | nil => exact .nil
  | cons pair _ ih => exact insert pair ih

end Sorting

namespace Schedule

variable {α : Type} {schedule : Schedule} {items : List α}

/-- Every item has its turn. -/
theorem perm_arrange (schedule : Schedule) (items : List α) :
    (schedule.arrange items).Perm items.zipIdx :=
  perm_sortBy _ _

theorem mem_of_mem_arrange {job : α × Nat} (member : job ∈ schedule.arrange items) :
    job.1 ∈ items :=
  List.fst_mem_of_mem_zipIdx ((schedule.perm_arrange items).mem_iff.mp member)

theorem exists_mem_arrange {item : α} (schedule : Schedule) (member : item ∈ items) :
    ∃ place, (item, place) ∈ schedule.arrange items := by
  obtain ⟨place, inBounds, rfl⟩ := List.mem_iff_getElem.mp member
  refine ⟨place, (schedule.perm_arrange items).mem_iff.mpr ?_⟩
  rw [List.mem_zipIdx_iff_getElem?, List.getElem?_eq_getElem inBounds]

theorem forall_mem_arrange_iff (schedule : Schedule) (holds : α → Prop) :
    (∀ job ∈ schedule.arrange items, holds job.1) ↔ ∀ item ∈ items, holds item := by
  constructor
  · intro each item member
    obtain ⟨place, hasTurn⟩ := exists_mem_arrange schedule member
    exact each _ hasTurn
  · exact fun each job isJob => each job.1 (mem_of_mem_arrange isJob)

/-- By their places, the jobs are in the order of the items. -/
theorem sortBy_snd_arrange (schedule : Schedule) (items : List α) :
    sortBy Prod.snd (schedule.arrange items) = items.zipIdx := by
  have perm := (perm_sortBy Prod.snd (schedule.arrange items)).trans (schedule.perm_arrange items)
  refine perm.eq_of_pairwise (fun first second isFirst isSecond before after => ?_)
    (pairwise_sortBy Prod.snd _) ?_
  · have place : first.2 = second.2 := Nat.le_antisymm before after
    have own := List.mem_zipIdx_iff_getElem?.mp (perm.mem_iff.mp isFirst)
    have same := List.mem_zipIdx_iff_getElem?.mp isSecond
    rw [place] at own
    exact Prod.ext (Option.some.inj (own.symm.trans same)) place
  · have increasing : (items.zipIdx.map Prod.snd).Pairwise (· < ·) := by
      rw [List.zipIdx_map_snd]
      exact List.pairwise_lt_range'
    exact (List.pairwise_map.mp increasing).imp Nat.le_of_lt

theorem forall₂_zipIdx {β : Type} {matched : α → β → Prop} {items : List α} {others : List β}
    (pairs : List.Forall₂ matched items others) (start : Nat) :
    List.Forall₂ (fun a b => a.2 = b.2 ∧ matched a.1 b.1) (items.zipIdx start)
      (others.zipIdx start) := by
  induction pairs generalizing start with
  | nil => exact .nil
  | cons pair _ ih => exact .cons ⟨rfl, pair⟩ (ih (start + 1))

/-- Jobs for items that match have their turns beside each other. -/
theorem forall₂_arrange {β : Type} {matched : α → β → Prop} {items : List α} {others : List β}
    (schedule : Schedule) (pairs : List.Forall₂ matched items others) :
    List.Forall₂ (fun a b => a.2 = b.2 ∧ matched a.1 b.1) (schedule.arrange items)
      (schedule.arrange others) := by
  have keyed := (forall₂_zipIdx pairs 0).imp fun a b pair =>
    And.intro (congrArg schedule.turn pair.1) pair
  exact (forall₂_sortBy keyed).imp fun _ _ pair => pair.2

/-- Values that match their jobs match the items when they are put in order. -/
theorem forall₂_of_arrange {β : Type} {matched : α → β → Prop} {values : List (β × Nat)}
    (pairs : List.Forall₂ (fun job value => job.2 = value.2 ∧ matched job.1 value.1)
      (schedule.arrange items) values) :
    List.Forall₂ matched items ((sortBy Prod.snd values).map Prod.fst) := by
  have sorted := forall₂_sortBy pairs
  rw [sortBy_snd_arrange] at sorted
  rw [List.forall₂_map_right_iff, ← List.zipIdx_map_fst 0 items, List.forall₂_map_left_iff]
  exact sorted.imp fun _ _ pair => pair.2

end Schedule

namespace Run

variable {links : Bool} {α β : Type} {world : World links}

/-- How a step ends from a world: with a result or a failure, and with the world afterwards. -/
def ending (step : RunOn links α) (world : World links) : Except Failure α × World links :=
  step.run.run world

/-! ## Ends of steps -/

@[simp]
theorem ending_pure (value : α) (world : World links) :
    ending (pure value) world = (.ok value, world) := rfl

@[simp]
theorem ending_get (world : World links) : ending get world = (.ok world, world) := rfl

@[simp]
theorem ending_modify (change : World links → World links) (world : World links) :
    ending (modify change) world = (.ok (), change world) := rfl

@[simp]
theorem ending_ofExcept (result : Except Failure α) (world : World links) :
    ending (ofExcept result) world = (result, world) := by
  cases result <;> rfl

@[simp]
theorem ending_log (level : Level) (part message : Text) (world : World links) :
    ending (log level part message) world =
      (.ok (), world.log { level, logger := loggerName (some part), message }) := rfl

theorem ending_bind (step : RunOn links α) (next : α → RunOn links β) (world : World links) :
    ending (step >>= next) world =
      match ending step world with
      | (.ok value, after) => ending (next value) after
      | (.error failure, after) => (.error failure, after) := by
  change
    ending (ExceptT.mk (ExceptT.bindCont next (ending step world).1) : RunOn links β)
      (ending step world).2 = _
  rcases ending step world with ⟨result, after⟩
  cases result <;> rfl

theorem ending_bind_of_ok {step : RunOn links α} {value : α} {after : World links}
    (ended : ending step world = (.ok value, after)) (next : α → RunOn links β) :
    ending (step >>= next) world = ending (next value) after := by
  rw [ending_bind, ended]

theorem ending_bind_of_error {step : RunOn links α} {failure : Failure} {after : World links}
    (ended : ending step world = (.error failure, after)) (next : α → RunOn links β) :
    ending (step >>= next) world = (.error failure, after) := by
  rw [ending_bind, ended]

/-- A row of steps succeeds exactly if each of them does. -/
theorem ending_bind_eq_ok_iff {step : RunOn links α} {next : α → RunOn links β} {value : β}
    {after : World links} :
    ending (step >>= next) world = (.ok value, after) ↔
      ∃ first middle, ending step world = (.ok first, middle) ∧
        ending (next first) middle = (.ok value, after) := by
  rw [ending_bind]
  rcases ending step world with ⟨result, middle⟩
  cases result with
  | error failure => simp
  | ok first =>
      constructor
      · intro ended
        exact ⟨first, middle, rfl, ended⟩
      · rintro ⟨other, between, same, ended⟩
        cases same
        exact ended

theorem ending_mk_bind (step : RunOn links α)
    (next : Except Failure α → StateM (World links) (Except Failure β))
    (world : World links) :
    ending (ExceptT.mk (step.run >>= next)) world =
      ending (ExceptT.mk (next (ending step world).1)) (ending step world).2 := rfl

@[simp]
theorem ending_attempt (step : RunOn links α) (world : World links) :
    ending (attempt step) world = (.ok (ending step world).1, (ending step world).2) := by
  simp only [attempt, tryCatch, tryCatchThe, MonadExceptOf.tryCatch, ExceptT.tryCatch]
  refine (ending_mk_bind (step >>= fun value => (pure (.ok value) : RunOn links (Except Failure α)))
    _ world).trans ?_
  rw [ending_bind]
  rcases ending step world with ⟨result, after⟩
  cases result <;> rfl

@[simp]
theorem ending_discard (step : RunOn links α) (world : World links) :
    ending (discard step) world =
      ((ending step world).1.map fun _ => (), (ending step world).2) := by
  change ending (step >>= fun _ => pure ()) world = _
  rw [ending_bind]
  rcases ending step world with ⟨_ | _, after⟩ <;> rfl

/-! ## Steps for each item of a list -/

variable {ι : Type} {schedule : Schedule}

/-- Jobs that are under way are finished whether or not one fails. -/
theorem ending_finish_cons (schedule : Schedule) (step : ι → RunOn links α) (job : ι × Nat)
    (rest : List (ι × Nat)) (world : World links) :
    ending (finish schedule step (job :: rest)) world =
      ending (finish schedule step rest)
        (if schedule.underWay job.2 then (ending (step job.1) world).2 else world) := by
  obtain ⟨item, place⟩ := job
  rw [finish]
  split
  · exact ending_bind_of_ok (by rw [ending_discard, ending_attempt]; rfl) _
  · rfl

theorem exists_ending_finish (schedule : Schedule) (step : ι → RunOn links α)
    (jobs : List (ι × Nat))
    (world : World links) :
    ∃ after, ending (finish schedule step jobs) world = (.ok (), after) := by
  induction jobs generalizing world with
  | nil => exact ⟨world, rfl⟩
  | cons job rest ih =>
      rw [ending_finish_cons]
      exact ih _

@[simp]
theorem ending_takeTurns_nil (schedule : Schedule) (step : ι → RunOn links α)
    (world : World links) :
    ending (takeTurns schedule step []) world = (.ok [], world) := rfl

theorem ending_takeTurns_cons_of_ok {step : ι → RunOn links α} {job : ι × Nat} {value : α}
    {middle : World links} (taken : ending (step job.1) world = (.ok value, middle))
    (rest : List (ι × Nat)) :
    ending (takeTurns schedule step (job :: rest)) world =
      ((ending (takeTurns schedule step rest) middle).1.map fun values => (value, job.2) :: values,
        (ending (takeTurns schedule step rest) middle).2) := by
  obtain ⟨item, place⟩ := job
  have attempted : ending (attempt (step item)) world = (.ok (.ok value), middle) := by
    rw [ending_attempt, taken]
  rw [takeTurns, ending_bind_of_ok attempted]
  change ending (takeTurns schedule step rest >>= _) middle = _
  rw [ending_bind]
  rcases ending (takeTurns schedule step rest) middle with ⟨_ | _, after⟩ <;> rfl

/-- The first failure stops a row, once the jobs that are under way are finished. -/
theorem ending_takeTurns_cons_of_error {step : ι → RunOn links α} {job : ι × Nat}
    {failure : Failure}
    {middle : World links} (failed : ending (step job.1) world = (.error failure, middle))
    (rest : List (ι × Nat)) :
    ending (takeTurns schedule step (job :: rest)) world =
      (.error failure, (ending (finish schedule step rest) middle).2) := by
  obtain ⟨item, place⟩ := job
  have attempted : ending (attempt (step item)) world = (.ok (.error failure), middle) := by
    rw [ending_attempt, failed]
  obtain ⟨after, finished⟩ := exists_ending_finish schedule step rest middle
  rw [takeTurns, ending_bind_of_ok attempted, finished]
  exact ending_bind_of_ok finished _

/-- A row of jobs succeeds exactly if the jobs one after the other do. -/
theorem ending_takeTurns_cons_eq_ok_iff {step : ι → RunOn links α} {job : ι × Nat}
    {rest : List (ι × Nat)} {values : List (α × Nat)} {after : World links} :
    ending (takeTurns schedule step (job :: rest)) world = (.ok values, after) ↔
      ∃ value others middle, ending (step job.1) world = (.ok value, middle) ∧
        ending (takeTurns schedule step rest) middle = (.ok others, after) ∧
        values = (value, job.2) :: others := by
  rcases taken : ending (step job.1) world with ⟨failure | value, middle⟩
  · rw [ending_takeTurns_cons_of_error taken]
    simp
  · rw [ending_takeTurns_cons_of_ok taken]
    constructor
    · intro ended
      rcases further : ending (takeTurns schedule step rest) middle with ⟨failure | others, last⟩ <;>
        rw [further] at ended <;> cases ended
      exact ⟨value, others, middle, rfl, further, rfl⟩
    · rintro ⟨other, others, between, same, further, rfl⟩
      cases same
      rw [further]
      rfl

theorem ending_forEach_eq_ok_iff {step : ι → RunOn links α} {items : List ι} {values : List α}
    {after : World links} :
    ending (forEach schedule step items) world = (.ok values, after) ↔
      ∃ found, ending (takeTurns schedule step (schedule.arrange items)) world = (.ok found, after) ∧
        values = (sortBy Prod.snd found).map Prod.fst := by
  rw [forEach, ending_bind_eq_ok_iff]
  constructor
  · rintro ⟨found, middle, taken, same⟩
    cases same
    exact ⟨found, taken, rfl⟩
  · rintro ⟨found, taken, rfl⟩
    exact ⟨found, after, taken, rfl⟩

/-- A row fails as its turns do. -/
theorem ending_forEach_eq_error_iff {step : ι → RunOn links α} {items : List ι} {failure : Failure}
    {after : World links} :
    ending (forEach schedule step items) world = (.error failure, after) ↔
      ending (takeTurns schedule step (schedule.arrange items)) world =
        (.error failure, after) := by
  rw [forEach, ending_bind]
  rcases ending (takeTurns schedule step (schedule.arrange items)) world with ⟨_ | _, last⟩ <;> simp

/-- A row of steps succeeds if each of them does and keeps the condition under which it does. -/
theorem exists_ending_forEach {holds : World links → Prop} {step : ι → RunOn links α}
    {items : List ι}
    {values : List α}
    (each : List.Forall₂ (fun item value => ∀ middle, holds middle →
      ∃ last, ending (step item) middle = (.ok value, last) ∧ holds last) items values)
    (start : holds world) :
    ∃ after, ending (forEach schedule step items) world = (.ok values, after) ∧ holds after := by
  have turns : ∀ {jobs : List (ι × Nat)} {found : List (α × Nat)} {world : World links},
      List.Forall₂ (fun job value => job.2 = value.2 ∧ ∀ middle, holds middle →
        ∃ last, ending (step job.1) middle = (.ok value.1, last) ∧ holds last) jobs found →
      holds world →
      ∃ after, ending (takeTurns schedule step jobs) world = (.ok found, after) ∧ holds after := by
    intro jobs found world pairs start
    induction pairs generalizing world with
    | nil => exact ⟨world, ending_takeTurns_nil schedule step world, start⟩
    | @cons job value rest others own _ ih =>
        obtain ⟨middle, taken, reached⟩ := own.2 world start
        obtain ⟨after, further, holds⟩ := ih reached
        refine ⟨after, ending_takeTurns_cons_eq_ok_iff.mpr
          ⟨value.1, others, middle, taken, further, ?_⟩, holds⟩
        rw [own.1]
  obtain ⟨after, taken, holds⟩ := turns (schedule.forall₂_arrange each) start
  refine ⟨after, ending_forEach_eq_ok_iff.mpr ⟨_, taken, ?_⟩, holds⟩
  rw [Schedule.sortBy_snd_arrange, List.zipIdx_map_fst]

/-! ## Ends that can be computed -/

/-- Whether a step succeeds, and its value and the world afterwards pass a test. -/
def succeeds (test : α → World links → Bool) (step : RunOn links α) (world : World links) : Bool :=
  match ending step world with
  | (.ok value, after) => test value after
  | (.error _, _) => false

/-- Whether a step fails with a failure that passes a test. -/
def fails (test : Failure → Bool) (step : RunOn links α) (world : World links) : Bool :=
  match (ending step world).1 with
  | .ok _ => false
  | .error failure => test failure

theorem exists_of_succeeds {test : α → World links → Bool} {step : RunOn links α}
    (computed : succeeds test step world = true) :
    ∃ value after, ending step world = (.ok value, after) ∧ test value after = true := by
  rw [succeeds] at computed
  rcases ended : ending step world with ⟨result, after⟩
  rw [ended] at computed
  cases result with
  | ok value => exact ⟨value, after, rfl, computed⟩
  | error failure => cases computed

/-- Every value of a step passes the test that was computed. -/
theorem of_succeeds {test : α → World links → Bool} {step : RunOn links α}
    (computed : succeeds test step world = true) {value : α} {after : World links}
    (ended : ending step world = (.ok value, after)) : test value after = true := by
  rwa [succeeds, ended] at computed

theorem exists_of_fails {test : Failure → Bool} {step : RunOn links α}
    (computed : fails test step world = true) :
    ∃ failure after, ending step world = (.error failure, after) ∧ test failure = true := by
  rw [fails] at computed
  rcases ended : ending step world with ⟨result, after⟩
  rw [ended] at computed
  cases result with
  | ok value => cases computed
  | error failure => exact ⟨failure, after, rfl, computed⟩

/-! ## What every step keeps -/

/-- However the step ends, the relation holds between the worlds before and after. -/
def Keeps (relation : World links → World links → Prop) (step : RunOn links α) : Prop :=
  ∀ world, relation world (ending step world).2

/-- A relation that holds if nothing happens, and of a row of steps if it holds of each. -/
structure IsKept (relation : World links → World links → Prop) : Prop where
  refl : ∀ world, relation world world
  trans : ∀ {first second third : World links}, relation first second → relation second third →
    relation first third

/-- A relation that is only asked for where a condition holds before. -/
def Provided (condition : World links → Prop) (relation : World links → World links → Prop)
    (before after : World links) :
    Prop :=
  condition before → relation before after

/-- If what keeps the relation keeps the condition, the relation under the condition is kept. -/
theorem IsKept.provided {relation : World links → World links → Prop}
    {condition : World links → Prop}
    (kept : IsKept relation)
    (stays : ∀ before after, relation before after → condition before → condition after) :
    IsKept (Provided condition relation) where
  refl := fun world _ => kept.refl world
  trans := fun first second holds =>
    kept.trans (first holds) (second (stays _ _ (first holds) holds))

/-- A relation holds of a row of steps from a world if it holds of each step where it starts. -/
theorem IsKept.ending_bind {relation : World links → World links → Prop} {step : RunOn links α}
    {next : α → RunOn links β}
    (kept : IsKept relation) (first : relation world (ending step world).2)
    (second : ∀ value middle, ending step world = (.ok value, middle) → relation world middle →
      relation middle (ending (next value) middle).2) :
    relation world (ending (step >>= next) world).2 := by
  rw [Run.ending_bind]
  rcases ended : ending step world with ⟨result, middle⟩
  rw [ended] at first
  cases result with
  | error failure => exact first
  | ok value => exact kept.trans first (second value middle ended first)

namespace Keeps

variable {relation : World links → World links → Prop} {step : RunOn links α}
variable {next : α → RunOn links β}

theorem pure (kept : IsKept relation) (value : α) : Keeps relation (pure value : RunOn links α) :=
  fun world => kept.refl world

theorem throw (kept : IsKept relation) (failure : Failure) :
    Keeps relation (throw failure : RunOn links α) :=
  fun world => kept.refl world

theorem ofExcept (kept : IsKept relation) (result : Except Failure α) :
    Keeps relation (ofExcept result) := by
  intro world
  rw [ending_ofExcept]
  exact kept.refl world

theorem get (kept : IsKept relation) :
    Keeps relation (MonadState.get : RunOn links (World links)) :=
  fun world => kept.refl world

theorem bind (kept : IsKept relation) (first : Keeps relation step)
    (second : ∀ value, Keeps relation (next value)) : Keeps relation (step >>= next) :=
  fun world => kept.ending_bind (first world) fun value middle _ _ => second value middle

theorem attempt (first : Keeps relation step) : Keeps relation (attempt step) := by
  intro world
  rw [ending_attempt]
  exact first world

theorem discard (kept : IsKept relation) (first : Keeps relation step) :
    Keeps relation (discard step) :=
  bind kept first fun _ => pure kept _

theorem finish (kept : IsKept relation) {step : ι → RunOn links α} {jobs : List (ι × Nat)}
    (each : ∀ job ∈ jobs, Keeps relation (step job.1)) :
    Keeps relation (finish schedule step jobs) := by
  induction jobs with
  | nil => exact pure kept _
  | cons job rest ih =>
      intro world
      have others := ih fun other member => each other (List.mem_cons_of_mem job member)
      rw [ending_finish_cons]
      split
      · exact kept.trans (each job List.mem_cons_self world) (others _)
      · exact others world

theorem takeTurns (kept : IsKept relation) {step : ι → RunOn links α} {jobs : List (ι × Nat)}
    (each : ∀ job ∈ jobs, Keeps relation (step job.1)) :
    Keeps relation (takeTurns schedule step jobs) := by
  induction jobs with
  | nil => exact pure kept _
  | cons job rest ih =>
      intro world
      have eachRest := fun other member => each other (List.mem_cons_of_mem job member)
      have own := each job List.mem_cons_self world
      rcases taken : ending (step job.1) world with ⟨failure | value, middle⟩ <;> rw [taken] at own
      · rw [ending_takeTurns_cons_of_error taken]
        exact kept.trans own (finish kept eachRest middle)
      · rw [ending_takeTurns_cons_of_ok taken]
        exact kept.trans own (ih eachRest middle)

theorem forEach (kept : IsKept relation) {step : ι → RunOn links α} {items : List ι}
    (each : ∀ item ∈ items, Keeps relation (step item)) :
    Keeps relation (forEach schedule step items) :=
  bind kept (takeTurns kept fun _ member => each _ (Schedule.mem_of_mem_arrange member))
    fun _ => pure kept _

theorem mono {wider : World links → World links → Prop}
    (contained : ∀ before after, relation before after → wider before after)
    (first : Keeps relation step) : Keeps wider step :=
  fun world => contained _ _ (first world)

end Keeps

/--
In a row of steps that succeeded each step did, at some time between the first and the last world.
-/
theorem exists_ending_of_mem {relation : World links → World links → Prop} (kept : IsKept relation)
    {step : ι → RunOn links α} {items : List ι} {values : List α} {item : ι}
    (each : ∀ item ∈ items, Keeps relation (step item))
    (ended : ending (forEach schedule step items) world = (.ok values, after))
    (member : item ∈ items) :
    ∃ value start last, relation world start ∧ ending (step item) start = (.ok value, last) ∧
      relation last after := by
  have turns : ∀ {jobs : List (ι × Nat)} {found : List (α × Nat)} {world : World links} {place : Nat},
      (∀ job ∈ jobs, Keeps relation (step job.1)) →
      ending (takeTurns schedule step jobs) world = (.ok found, after) → (item, place) ∈ jobs →
      ∃ value start last, relation world start ∧ ending (step item) start = (.ok value, last) ∧
        relation last after := by
    intro jobs found world place each taken member
    induction jobs generalizing world found with
    | nil => cases member
    | cons first rest ih =>
        obtain ⟨value, others, middle, took, further, -⟩ :=
          ending_takeTurns_cons_eq_ok_iff.mp taken
        have before := each first List.mem_cons_self world
        rw [took] at before
        have eachRest := fun job inRest => each job (List.mem_cons_of_mem first inRest)
        have later : relation middle (ending (takeTurns schedule step rest) middle).2 :=
          Keeps.takeTurns kept eachRest middle
        rw [further] at later
        rcases List.mem_cons.mp member with rfl | inRest
        · exact ⟨value, world, middle, kept.refl world, took, later⟩
        · obtain ⟨value, start, last, reached, took, toAfter⟩ := ih eachRest further inRest
          exact ⟨value, start, last, kept.trans before reached, took, toAfter⟩
  obtain ⟨found, taken, -⟩ := ending_forEach_eq_ok_iff.mp ended
  obtain ⟨place, hasTurn⟩ := schedule.exists_mem_arrange member
  exact turns (fun _ member => each _ (Schedule.mem_of_mem_arrange member)) taken hasTurn

/-- In a row of steps that succeeded each step did, at some time. -/
theorem exists_taken {step : ι → RunOn links α} {items : List ι} {values : List α} {item : ι}
    {after : World links} (ended : ending (forEach schedule step items) world = (.ok values, after))
    (member : item ∈ items) :
    ∃ value start last, ending (step item) start = (.ok value, last) := by
  have kept : IsKept fun _ _ : World links => True := ⟨fun _ => trivial, fun _ _ => trivial⟩
  obtain ⟨value, start, last, -, taken, -⟩ :=
    exists_ending_of_mem kept (fun _ _ _ => trivial) ended member
  exact ⟨value, start, last, taken⟩

end Run

end ApiDocs
