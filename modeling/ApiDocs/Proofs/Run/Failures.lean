import ApiDocs.Proofs.Run.Stages

/-!
# How a stage can fail

Refused settings and rejected sources are found while a project is documented, and
examples that do not pass while they are checked.  Everything else that can go wrong is a
refusal of the disk or a fault: this is all that writing, removing and planning fail with.
-/

namespace ApiDocs

/-- Whether a failure is a refusal of the disk or a fault. -/
def Failure.IsTrouble : Failure → Prop
  | .resource _ _ | .fault _ => True
  | _ => False

/-- Whether a failure is one of the examples, or trouble on the way to check them. -/
def Failure.IsOfCheck : Failure → Prop
  | .settings _ | .rejected _ => False
  | _ => True

theorem Failure.IsTrouble.isOfCheck {failure : Failure} (trouble : failure.IsTrouble) :
    failure.IsOfCheck := by
  cases failure with
  | settings problem => exact trouble
  | rejected errors => exact trouble
  | examples report => trivial
  | resource path sentence => trivial
  | fault cause => trivial

namespace Run

variable {links : Bool} {ι α β : Type} {allowed wider : Failure → Prop}

/-- However the step ends, if it fails it is with an allowed failure. -/
def FailsOnly (allowed : Failure → Prop) (step : RunOn links α) : Prop :=
  ∀ world failure after, ending step world = (.error failure, after) → allowed failure

namespace FailsOnly

variable {step : RunOn links α} {next : α → RunOn links β}

theorem of_ok {value : World links → α} {after : World links → World links}
    (same : ∀ world, ending step world = (.ok (value world), after world)) :
    FailsOnly allowed step := by
  intro world failure last ended
  rw [same] at ended
  cases ended

theorem throw {failure : Failure} (isAllowed : allowed failure) :
    FailsOnly allowed (throw failure : RunOn links α) := by
  intro world other last ended
  cases ended
  exact isAllowed

theorem ofExcept {result : Except Failure α}
    (each : ∀ failure, result = .error failure → allowed failure) :
    FailsOnly allowed (ofExcept result : RunOn links α) := by
  intro world failure last ended
  rw [ending_ofExcept] at ended
  exact each failure (Prod.mk.inj ended).1

theorem pure (value : α) : FailsOnly allowed (pure value : RunOn links α) :=
  of_ok fun world => ending_pure value world

theorem get : FailsOnly allowed (MonadState.get : RunOn links (World links)) :=
  of_ok ending_get

theorem log (level : Level) (part message : Text) :
    FailsOnly allowed (log level part message : RunOn links Unit) :=
  of_ok fun world => ending_log level part message world

theorem bind (first : FailsOnly allowed step) (second : ∀ value, FailsOnly allowed (next value)) :
    FailsOnly allowed (step >>= next) := by
  intro world failure last ended
  rw [ending_bind] at ended
  split at ended
  · exact second _ _ _ _ ended
  · rename_i taken
    cases ended
    exact first _ _ _ taken

/-- If a step fails only as allowed, then what an attempt of it brings is allowed. -/
theorem bind_attempt {next : Except Failure α → RunOn links β} (first : FailsOnly allowed step)
    (onOk : ∀ value, FailsOnly allowed (next (.ok value)))
    (onError : ∀ failure, allowed failure → FailsOnly allowed (next (.error failure))) :
    FailsOnly allowed (Run.attempt step >>= next) := by
  intro world failure last ended
  rw [ending_bind, ending_attempt] at ended
  rcases taken : ending step world with ⟨result, middle⟩
  rw [taken] at ended
  cases result with
  | ok value => exact onOk value _ _ _ ended
  | error other => exact onError other (first _ _ _ taken) _ _ _ ended

theorem discard (first : FailsOnly allowed step) : FailsOnly allowed (discard step) :=
  bind first fun _ => pure _

theorem takeTurns {schedule : Schedule} {step : ι → RunOn links α} {jobs : List (ι × Nat)}
    (each : ∀ job ∈ jobs, FailsOnly allowed (step job.1)) :
    FailsOnly allowed (takeTurns schedule step jobs) := by
  induction jobs with
  | nil => exact pure _
  | cons job rest ih =>
      have others := ih fun other member => each other (List.mem_cons_of_mem job member)
      have own := each job List.mem_cons_self
      intro world failure last ended
      rcases taken : ending (step job.1) world with ⟨other | value, middle⟩
      · rw [ending_takeTurns_cons_of_error taken] at ended
        cases ended
        exact own _ _ _ taken
      · rw [ending_takeTurns_cons_of_ok taken] at ended
        rcases further : ending (Run.takeTurns schedule step rest) middle with ⟨other | values, final⟩
          <;> rw [further] at ended <;> cases ended
        exact others _ _ _ further

theorem forEach {schedule : Schedule} {step : ι → RunOn links α} {items : List ι}
    (each : ∀ item ∈ items, FailsOnly allowed (step item)) :
    FailsOnly allowed (forEach schedule step items) :=
  bind (takeTurns fun _ member => each _ (Schedule.mem_of_mem_arrange member)) fun _ => pure _

theorem mono (contained : ∀ failure, allowed failure → wider failure)
    (first : FailsOnly allowed step) : FailsOnly wider step :=
  fun world failure last ended => contained failure (first world failure last ended)

end FailsOnly

open Failure (IsTrouble IsOfCheck)

variable (environment : Environment)

/-! ## Files -/

theorem isTrouble_refusal (action path : Text) (error : DiskError) :
    (refusal action path error).IsTrouble := by
  cases error <;> trivial

theorem failsOnly_readText (path : Text) :
    FailsOnly IsTrouble (readText path : RunOn links Text) := by
  refine .bind .get fun world => ?_
  split
  · exact .pure _
  · exact .throw (isTrouble_refusal _ _ _)
  · exact .throw trivial

theorem failsOnly_change (action path : Text)
    (changed : Disk links → Location → Disk.Changed links) :
    FailsOnly IsTrouble (change action path changed) := by
  intro world failure last ended
  rw [ending_change] at ended
  cases outcome : (changed world.disk world.here).1 with
  | ok value =>
      rw [outcome] at ended
      cases ended
  | error error =>
      rw [outcome] at ended
      cases ended
      exact isTrouble_refusal action path error

theorem failsOnly_writeText (path content : Text) :
    FailsOnly IsTrouble (writeText path content : RunOn links Unit) := by
  rw [writeText]
  split
  · exact failsOnly_change _ _ _
  · exact .bind (failsOnly_change _ _ _) fun _ => .throw trivial

theorem failsOnly_exists? (path : Text) : FailsOnly IsTrouble (exists? path : RunOn links Bool) :=
  .bind .get fun _ => .pure _

theorem failsOnly_matching (pattern : Text) :
    FailsOnly IsTrouble (matching pattern : RunOn links (List Text)) := by
  refine .bind .get fun world => .ofExcept fun failure failed => ?_
  cases searched : Glob.search world.disk world.here pattern with
  | ok found =>
      rw [searched] at failed
      cases failed
  | error error =>
      rw [searched] at failed
      cases failed
      trivial

theorem failsOnly_remove (pattern : Text) :
    FailsOnly IsTrouble (remove environment pattern : RunOn links Unit) := by
  refine .bind (.of_ok fun world => ending_modify _ world) fun _ => ?_
  split
  · exact .throw trivial
  · exact .bind (failsOnly_matching pattern) fun _ => failsOnly_change _ _ _

theorem failsOnly_isDue (part : Text) (file : TextFile) :
    FailsOnly IsTrouble (isDue part file : RunOn links Bool) := by
  refine .bind (failsOnly_exists? _) fun found => ?_
  split
  · split
    · exact .bind (.log _ _ _) fun _ => .pure _
    · exact .bind (.log _ _ _) fun _ => .pure _
  · exact .pure _

theorem failsOnly_dueFiles (schedule : Schedule) (part : Text) (files : List TextFile) :
    FailsOnly IsTrouble (dueFiles schedule part files : RunOn links (List TextFile)) :=
  .bind (.forEach fun file _ => failsOnly_isDue part file) fun _ => .pure _

theorem failsOnly_writeAll (part : Text) (files : List TextFile) (schedule : WriteSchedule) :
    FailsOnly IsTrouble (writeAll part files schedule : RunOn links Unit) :=
  .bind (failsOnly_dueFiles schedule.checks part files) fun _ =>
    .discard (.forEach fun file _ => failsOnly_writeText file.path file.content)

theorem failsOnly_siteFiles (modules : List Module) (settings : Settings) :
    FailsOnly IsTrouble (siteFiles modules settings : RunOn links (List TextFile)) := by
  refine .bind (.bind (failsOnly_exists? _) fun found => ?_) fun _ => .pure _
  split
  · exact .bind (failsOnly_readText _) fun _ => .pure _
  · exact .pure _

/-! ## Stages -/

/-- The end of the type checker is no matter of settings or sources. -/
theorem isOfCheck_of_failure? {command : Text} {verdict : Verdict} {failure : Failure}
    (failed : verdict.failure? command = some failure) : failure.IsOfCheck := by
  cases verdict with
  | missing | refused | undecodable =>
      cases failed
      trivial
  | finished code report =>
      rw [Verdict.failure?] at failed
      split at failed
      · cases failed
      · cases failed
        trivial

theorem failsOnly_callChecker (command executable : Text) (additions : List (Text × Text)) :
    FailsOnly IsOfCheck (callChecker environment command executable additions : RunOn links Unit) := by
  refine .bind (.of_ok fun world => ending_modify _ world) fun _ => ?_
  split
  · exact .pure _
  · rename_i failed
    exact .throw (isOfCheck_of_failure? failed)

theorem failsOnly_writeAndCheck (command : Text) (examples : List TextFile)
    (settings : Settings) :
    FailsOnly IsOfCheck (writeAndCheck environment command examples settings : RunOn links Unit) := by
  have written (files : List TextFile) (schedule : WriteSchedule) :
      FailsOnly IsOfCheck (writeAll examplesPart files schedule : RunOn links Unit) :=
    (failsOnly_writeAll examplesPart files schedule).mono fun _ => IsTrouble.isOfCheck
  refine .bind (written _ _) fun _ => .bind (.ofExcept fun failure failed => ?_) fun _ =>
    .bind (written _ _) fun _ => .bind (.log _ _ _) fun _ => .bind .get fun _ =>
      failsOnly_callChecker environment _ _ _
  cases made : Example.options settings.exampleOptions with
  | ok options =>
      rw [made] at failed
      cases failed
  | error problem =>
      rw [made] at failed
      cases failed
      trivial

theorem failsOnly_cleanUp (folder : Text) :
    FailsOnly IsOfCheck (cleanUp environment folder : RunOn links Unit) := by
  refine .bind_attempt ((failsOnly_remove environment folder).mono fun _ => IsTrouble.isOfCheck)
    (fun _ => .pure _) fun failure isAllowed => ?_
  cases failure with
  | resource path sentence => exact .log _ _ _
  | settings problem => exact .throw isAllowed
  | rejected errors => exact .throw isAllowed
  | examples report => exact .throw isAllowed
  | fault cause => exact .throw isAllowed

theorem failsOnly_checkExamples (command : Option Text) (examples : List TextFile)
    (settings : Settings) :
    FailsOnly IsOfCheck (checkExamples environment command examples settings : RunOn links Unit) := by
  have removed (folder : Text) : FailsOnly IsOfCheck (remove environment folder : RunOn links Unit) :=
    (failsOnly_remove environment folder).mono fun _ => IsTrouble.isOfCheck
  unfold checkExamples
  extract_lets folder command
  by_cases none : examples.isEmpty = true
  · rw [if_pos none]
    exact .bind (.log _ _ _) fun _ => removed _
  · rw [if_neg none]
    refine .bind_attempt (failsOnly_writeAndCheck environment command examples settings)
      (fun _ => removed _) fun failure isAllowed => ?_
    exact .bind (failsOnly_cleanUp environment _) fun _ => .throw isAllowed

/-- The examples fail for themselves or for trouble, never for settings or sources. -/
theorem failsOnly_verify (project : Project) :
    FailsOnly IsOfCheck (verify environment project : RunOn links Unit) :=
  .bind (.log _ _ _) fun _ => failsOnly_checkExamples environment _ _ _

theorem failsOnly_plan (project : Project) :
    FailsOnly IsOfCheck (plan environment project : RunOn links (List TextFile)) :=
  .bind (failsOnly_verify environment project) fun _ => .bind (.log _ _ _) fun _ =>
    (failsOnly_siteFiles _ _).mono fun _ => IsTrouble.isOfCheck

/-- Publishing fails for trouble only. -/
theorem failsOnly_publish (project : Project) (files : List TextFile) :
    FailsOnly IsTrouble (publish environment project files : RunOn links Unit) :=
  .bind (.log _ _ _) fun _ => .bind (failsOnly_remove environment _) fun _ =>
    .bind (failsOnly_writeAll _ _ _) fun _ => .log _ _ _

end Run

end ApiDocs
