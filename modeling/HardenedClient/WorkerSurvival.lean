import HardenedClient.Client.Pool
import HardenedClient.Client.Replay

/-!
# Worker-pool survival

An exception that leaves `_handle` ends its worker for good. This module says
when that happens, in terms of the URL, the configuration, the attempt and the
outcome of the HTTP exchange, and that the pool keeps its size in every run in
which it does not.
-/

namespace HardenedClient

open Foundation

/-- The exponential backoff of the item stays in the range of a float, or is not
computed because no retry is left. -/
def BackoffFits (env : Env) (item : QueueItem) : Prop :=
  shouldRetry env.config.retry item.attempt = true →
    item.attempt < PyFloat.overflowExponent

/-- `_handle` gets past the await it is suspended at without raising. The URL
parses and the host has a breaker or may get one; the host has a token bucket or
may get one; `_execute` raises nothing outside `Exception`, nor does the response
hook; and where a retry is decided on without a positive Retry-After, the
backoff fits. -/
def HandlesSafely (env : Env) (state : State) (item : QueueItem) : HandlePoint → Choice → Prop
  | .gating, _ => ∃ host, env.hostOf? item.request.request.url = some host ∧
      (state.breakers.breakers host = none → 0 ≤ env.config.circuitBreaker.rollingWindow) ∧
      ((state.breakers.lookup host).full env.config.circuitBreaker state.now →
        BackoffFits env item)
  | .acquiring host _ none _ _, _ =>
      state.limiter.buckets host = none →
        0 < (state.limiter.configFor env.config.rateLimit host).ratePerSecond ∧
          0 < (state.limiter.configFor env.config.rateLimit host).burst
  | .executing _ _, .http event _ => ∀ exc,
      execute item.request.request item.attempt event = .error exc →
        exc.isException = true ∧
          (isRetryableException exc = true → overrides exc.retryAfter? = false →
            BackoffFits env item)
  | .hooking _, .hook (some exc) => exc.isException = true
  | _, _ => True

/-- The client's storage works: a step that awaits it does not fail. -/
def StorageWorks (state : State) (label : Label) : Prop :=
  (∀ id exc, label ≠ .step id (.storageError exc)) ∧
    ∀ id choice item point, label = .step id choice →
      state.tasks id = some (.worker (.handling item point)) → state.connected = true

/-- Every worker that a step moves gets past its await without raising. -/
def SafeStep (env : Env) (state : State) (label : Label) : Prop :=
  ∀ id choice item point, label = .step id choice →
    state.tasks id = some (.worker (.handling item point)) →
      HandlesSafely env state item point choice

/-! ## One step -/

theorem overflows_iff (env : Env) (item : QueueItem) (exc : PyException) :
    Overflows env item exc ↔
      (exc.isRetryableError = true ∨ exc.isCircuitOpenError = true) ∧
        overrides exc.retryAfter? = false ∧ ¬ BackoffFits env item := by
  simp only [Overflows, BackoffFits, willRetry, Bool.and_eq_true, Bool.or_eq_true]
  constructor
  · rintro ⟨⟨retryable, left⟩, notOverridden, large⟩
    exact ⟨retryable, notOverridden, fun fits => absurd (fits left) (Nat.not_lt_of_le large)⟩
  · rintro ⟨retryable, notOverridden, large⟩
    rw [Classical.not_imp] at large
    exact ⟨⟨retryable, large.1⟩, notOverridden, Nat.le_of_not_lt large.2⟩

/-- A cool-down in progress gives a positive hint, and full probe slots the hint
0, so only the latter need the exponential. -/
theorem blocked_overflows_iff
    (env : Env)
    (item : QueueItem)
    (now : ℚ)
    (breaker : CircuitBreaker) :
    (∃ exc, (breaker.beforeCall env.config.circuitBreaker now).2 = some exc ∧
      Overflows env item exc) ↔
      breaker.full env.config.circuitBreaker now ∧ ¬ BackoffFits env item := by
  simp only [CircuitBreaker.beforeCall_blocked_iff, overflows_iff]
  constructor
  · rintro ⟨exc, ⟨cooling, rfl⟩ | ⟨isFull, rfl⟩, _, notOverridden, large⟩
    · have running := of_decide_eq_true cooling
      simp only [overrides, PyException.retryAfter?, PyFloat.lt, decide_eq_false_iff_not,
        sub_pos, not_lt] at notOverridden
      exact absurd running.2 (not_lt_of_ge notOverridden)
    · exact ⟨isFull, large⟩
  · rintro ⟨isFull, large⟩
    exact ⟨_, Or.inr ⟨isFull, rfl⟩, Or.inr rfl, by simp [overrides, PyException.retryAfter?,
      PyFloat.lt], large⟩

/-- What the `except` clauses make of an exception is retried exactly when the
exception is retryable, with the hint the exception has. -/
theorem caught_overflows_iff
    (env : Env)
    (item : QueueItem)
    (exc : PyException) :
    (∃ error reported, caught? exc = some (error, reported) ∧ Overflows env item error) ↔
      isRetryableException exc = true ∧ overrides exc.retryAfter? = false ∧
        ¬ BackoffFits env item := by
  simp only [overflows_iff]
  cases exc <;>
    simp [caught?, PyException.isRetryableError, PyException.isNonRetryableError,
      PyException.isException, PyException.isCircuitOpenError, isRetryableException,
      PyException.retryAfter?, overrides]

/-- When the storage works, an exception escapes exactly where `_handle` does not
get past its await safely. -/
theorem escapes_iff
    (env : Env)
    (state : State)
    (item : QueueItem)
    (point : HandlePoint)
    (choice : Choice)
    (connected : state.connected = true)
    (stored : ∀ exc, choice ≠ .storageError exc) :
    Escapes env state item point choice ↔ ¬ HandlesSafely env state item point choice := by
  cases point with
  | gating =>
      simp only [Escapes, HandlesSafely]
      cases parsed : env.hostOf? item.request.request.url with
      | none => simp
      | some host =>
          cases found : state.breakers.forHost? env.config.circuitBreaker host with
          | none =>
              have missing : state.breakers.breakers host = none ∧
                  ¬ 0 ≤ env.config.circuitBreaker.rollingWindow := by
                unfold HostCircuitBreakers.forHost? at found
                split at found
                · cases found
                · next absent => exact ⟨absent, by simpa using found⟩
              simp [missing, found]
          | some breaker =>
              have available : state.breakers.breakers host = none →
                  0 ≤ env.config.circuitBreaker.rollingWindow := by
                intro absent
                simp only [HostCircuitBreakers.forHost?, absent] at found
                split_ifs at found with window
                exact window
              simp only [found, blocked_overflows_iff]
              rw [HostCircuitBreakers.forHost?_eq_some found]
              constructor
              · rintro ⟨isFull, large⟩ ⟨other, same, _, fits⟩
                cases Option.some.inj same
                exact large (fits isFull)
              · intro raises
                by_contra notBoth
                exact raises ⟨host, rfl, available, fun isFull =>
                  by_contra fun large => notBoth ⟨isFull, large⟩⟩
  | acquiring host probe bucket delayTotal wakeAt =>
      cases bucket with
      | none =>
          simp only [Escapes, HandlesSafely, Classical.not_imp, not_and_or, not_lt]
      | some held => simp [Escapes, HandlesSafely]
  | executing host probe =>
      cases choice <;> simp only [Escapes, HandlesSafely, not_true_eq_false]
      simp only [caught_overflows_iff, not_forall, not_and_or, Bool.not_eq_true, exists_prop]
  | hooking response =>
      cases choice with
      | hook raised => cases raised <;> simp [Escapes, HandlesSafely]
      | _ => simp [Escapes, HandlesSafely]
  | deleting | incrementing | scheduling | deadLettering | retiring =>
      cases choice <;> simp_all [Escapes, HandlesSafely]
  | deleted | resolving | failing => simp [Escapes, HandlesSafely]

/-- A worker task has ended with an exception. -/
def State.Ended (state : State) (id : ℕ) : Prop :=
  ∃ exc, state.tasks id = some (.worker (.ended exc))

instance (state : State) (id : ℕ) : Decidable (state.Ended id) :=
  match current : state.tasks id with
  | some (.worker (.ended exc)) => isTrue ⟨exc, current⟩
  | none | some (.worker .idle) | some (.worker (.handling _ _)) | some (.worker .cancelled)
  | some (.caller _ _) | some (.reschedule _) | some (.starter _) | some (.drainer _)
  | some (.stopper _) => isFalse (by simp [State.Ended, current])

theorem Handled.not_ended
    {state next : State}
    {id : ℕ}
    {item : QueueItem}
    {point : HandlePoint}
    (handled : Handled state id item point next) :
    ¬ next.Ended id := by
  rintro ⟨exc, ended⟩
  cases handled with
  | advanced | succeeded | failed | deleted | incremented | pushed | retired =>
      simp at ended
  | resolved | rejected | rescheduled => simp at ended

theorem Escaped.ended
    {state next : State}
    {id : ℕ}
    {item : QueueItem}
    (escaped : Escaped state id item next) :
    next.Ended id := by
  cases escaped with
  | @intro exc => exact ⟨exc, by simp⟩

/-- Where the storage works, a step inside `_handle` ends the worker exactly when
`_handle` does not get past its await safely. -/
theorem step_ended_iff
    {env : Env}
    {state next : State}
    {id : ℕ}
    {choice : Choice}
    {item : QueueItem}
    {point : HandlePoint}
    (current : state.tasks id = some (.worker (.handling item point)))
    (works : StorageWorks state (.step id choice))
    (moved : step env (.step id choice) state = some next) :
    next.Ended id ↔ ¬ HandlesSafely env state item point choice := by
  rw [← escapes_iff env state item point choice (works.2 id choice item point rfl current)
    fun exc isError => works.1 id exc (by rw [isError])]
  have task : state.stepHandle env id item point choice = some next := by
    simpa [step, State.stepTask, current, State.stepWorker] using moved
  rcases State.stepHandle_ends task with ⟨escapes, escaped⟩ | ⟨inside, handled⟩
  · exact ⟨fun _ => escapes, fun _ => escaped.ended⟩
  · exact ⟨fun ended => absurd ended handled.not_ended, fun escapes => absurd escapes inside⟩

/-! ## Whole runs -/

/-- The number of live workers in the pool. -/
def State.liveWorkers (state : State) : ℕ := state.workers.countP state.alive

/-- No worker has ended with an exception, and until `stop()` cancels them all
workers of the pool are alive. -/
structure Healthy (env : Env) (state : State) : Prop where
  tidy : state.Tidy
  noneEnded : ∀ id, ¬ state.Ended id
  pool : state.cancelRequests = [] → state.workers ≠ [] →
    state.workers.length = env.config.queue.workers ∧
      ∀ id ∈ state.workers, state.alive id = true

theorem healthy_boot (env : Env) (tables : Tables) (now : ℚ) :
    Healthy env (State.boot tables now) where
  tidy := State.tidy_boot tables now []
  noneEnded := by simp [State.Ended, State.boot]
  pool := by simp [State.boot]

/-- A step that keeps the workers of the pool keeps it healthy when the task it
moves does not end, and stays alive if it was. -/
theorem Healthy.of_frame
    {env : Env}
    {state next : State}
    {id : ℕ}
    (healthy : Healthy env state)
    (frame : Frame id state next)
    (ended : ¬ next.Ended id)
    (requests : next.cancelRequests = [] → next.workers ≠ [] →
      state.cancelRequests = [] ∧ next.workers = state.workers ∧
        (state.alive id = true → next.alive id = true)) :
    Healthy env next where
  tidy := .of_frame frame
  noneEnded := by
    rintro other ⟨exc, present⟩
    by_cases isActor : other = id
    · exact ended ⟨exc, isActor ▸ present⟩
    · rcases frame.origin isActor present with before | born
      · exact healthy.noneEnded other ⟨exc, before⟩
      · cases born
  pool := by
    intro notCancelled serving
    obtain ⟨wasNotCancelled, workers, aliveActor⟩ := requests notCancelled serving
    obtain ⟨count, alive⟩ := healthy.pool wasNotCancelled (workers ▸ serving)
    refine ⟨workers ▸ count, fun other inPool => ?_⟩
    rw [workers] at inPool
    have wasAlive := alive other inPool
    by_cases isActor : other = id
    · subst isActor
      exact aliveActor wasAlive
    · have known : other < state.spawned := by
        rcases (alive_iff state other).mp wasAlive with idle | ⟨item, point, handling⟩
        · exact healthy.tidy.lt_of_task idle
        · exact healthy.tidy.lt_of_task handling
      rw [alive_iff, frame.others other known isActor, ← alive_iff]
      exact wasAlive

/-- Every step whose workers get past their awaits keeps the pool healthy. -/
theorem Healthy.step
    {env : Env}
    {state next : State}
    {label : Label}
    (healthy : Healthy env state)
    (works : StorageWorks state label)
    (safe : SafeStep env state label)
    (moved : HardenedClient.step env label state = some next) :
    Healthy env next := by
  have stepped := step_stepped moved
  by_cases crashed : label = .crash
  · subst crashed
    rw [stepped.boot_of_crash]
    exact ⟨State.tidy_boot _ _ _, by simp [State.Ended, State.boot], by simp [State.boot]⟩
  have frame := stepped.frame healthy.tidy crashed
  have unborn : state.alive state.spawned = false := by
    simp [State.alive, healthy.tidy state.spawned (Nat.le_refl _)]
  cases stepped with
  | crash => exact absurd rfl crashed
  | outside isOutside =>
      have actor : label.actor state = state.spawned := by
        cases label <;> first | rfl | cases isOutside
      rw [actor] at frame
      refine healthy.of_frame frame (healthy.noneEnded _) fun notCancelled _ => ?_
      exact ⟨notCancelled, rfl, by simp [unborn]⟩
  | purged =>
      exact healthy.of_frame frame (healthy.noneEnded _) fun notCancelled _ =>
        ⟨notCancelled, rfl, by simp [Label.actor, unborn]⟩
  | request | replay | drain | start =>
      refine healthy.of_frame frame ?_ fun notCancelled _ => ?_
      · simp [State.Ended, Label.actor]
      · exact ⟨notCancelled, rfl, by simp [Label.actor, unborn]⟩
  | stop pool =>
      refine healthy.of_frame frame ?_ fun notCancelled serving => ?_
      · simp [State.Ended, Label.actor]
      · refine ⟨?_, rfl, by simp [Label.actor, unborn]⟩
        rcases pool with same | same
        · exact same ▸ notCancelled
        · exact absurd (same ▸ notCancelled) serving
  | caller current | upserted current | removed current | cancelCaller current
    | cancelStarter current | reschedule current | starter current | drainer current =>
      refine healthy.of_frame frame ?_ fun notCancelled _ => ?_
      · simp [State.Ended, Label.actor]
      · exact ⟨notCancelled, rfl, by simp [State.alive, Label.actor, current]⟩
  | stopper current pool =>
      refine healthy.of_frame frame ?_ fun notCancelled serving => ?_
      · simp [State.Ended, Label.actor]
      · rcases pool with gone | ⟨kept, same | same⟩
        · exact absurd gone serving
        · exact ⟨same ▸ notCancelled, kept, by simp [State.alive, Label.actor, current]⟩
        · exact absurd (kept.trans (same ▸ notCancelled)) serving
  | taken current waiting =>
      refine healthy.of_frame frame ?_ fun notCancelled _ => ?_
      · simp [State.Ended, Label.actor]
      · exact ⟨notCancelled, rfl, by simp [State.alive, Label.actor]⟩
  | cancelIdle current requested | cancelHandling current requested =>
      refine healthy.of_frame frame ?_ fun notCancelled _ => ?_
      · simp [State.Ended, Label.actor]
      · rw [show state.cancelRequests = [] from notCancelled] at requested
        cases requested
  | handled current _ handled =>
      obtain ⟨alive, workers, cancelRequests⟩ := handled.alive
      exact healthy.of_frame frame handled.not_ended fun notCancelled _ =>
        ⟨cancelRequests ▸ notCancelled, workers, fun _ => alive⟩
  | @escaped id choice item point next current escapes escaped =>
      have ends := (step_ended_iff current works moved).mp escaped.ended
      exact absurd (safe id choice item point rfl current) ends
  | @online id current =>
      refine ⟨.of_frame frame, ?_, fun _ _ => ⟨?_, ?_⟩⟩
      · rintro other ⟨exc, present⟩
        simp only [State.online, State.setTask, Function.update_apply] at present
        split_ifs at present
        · cases present
        · cases present
        · exact healthy.noneEnded other ⟨exc, present⟩
      · simp [State.online, State.setTask]
      · intro other inPool
        simp only [State.online, State.setTask, List.mem_map, List.mem_range] at inPool
        obtain ⟨index, small, rfl⟩ := inPool
        have different : state.spawned + index ≠ id := by
          have := healthy.tidy.lt_of_task current
          omega
        simp [State.alive, State.online, State.setTask, different, small]

/-- A check for `StorageWorks` on replayed runs. -/
def storageWorks (state : State) : Label → Bool
  | .step _ (.storageError _) => false
  | .step id _ => state.connected || !state.alive id
  | _ => true

theorem storageWorks_sound
    (state : State)
    (label : Label)
    (passes : storageWorks state label = true) :
    StorageWorks state label := by
  constructor
  · rintro id exc rfl
    cases passes
  · rintro id choice item point rfl current
    have alive : state.alive id = true := by simp [State.alive, current]
    cases choice <;> simp_all [storageWorks]

/-- `_handle` ends without raising at an await exactly when the step is safe
there, and in every run of safe steps no worker ends with an exception, and the
pool that `start()` created keeps its size until `stop()` cancels it. -/
theorem worker_pool_survival (env : Env) :
    (∀ (state next : State) (id : ℕ) (choice : Choice) (item : QueueItem)
        (point : HandlePoint),
      state.tasks id = some (.worker (.handling item point)) →
      StorageWorks state (.step id choice) →
      step env (.step id choice) state = some next →
        (¬ next.Ended id ↔ HandlesSafely env state item point choice)) ∧
    ∀ (tables : Tables) (now : ℚ) (state : State),
      Run (step env) (fun before label => StorageWorks before label ∧ SafeStep env before label)
        (State.boot tables now) state →
      (∀ id, ¬ state.Ended id) ∧
        (state.cancelRequests = [] → state.workers ≠ [] →
          state.liveWorkers = env.config.queue.workers) := by
  constructor
  · intro state next id choice item point current works moved
    rw [step_ended_iff current works moved, not_not]
  · intro tables now state run
    have healthy : Healthy env state :=
      run.invariant (Healthy env) (healthy_boot env tables now)
        fun before label after healthy allowed moved =>
          healthy.step allowed.1 allowed.2 moved
    refine ⟨healthy.noneEnded, fun notCancelled serving => ?_⟩
    obtain ⟨count, alive⟩ := healthy.pool notCancelled serving
    rw [State.liveWorkers, List.countP_eq_length.mpr alive, count]

/-- A check for `SafeStep` on replayed runs. -/
def handlesSafely (env : Env) (state : State) : Label → Bool
  | .step id choice =>
      match state.tasks id with
      | some (.worker (.handling item point)) =>
          match point, choice with
          | .gating, _ => (env.hostOf? item.request.request.url).isSome &&
              decide (0 ≤ env.config.circuitBreaker.rollingWindow) &&
              decide (item.attempt < PyFloat.overflowExponent)
          | .acquiring host _ _ _ _, _ =>
              decide (0 < (state.limiter.configFor env.config.rateLimit host).ratePerSecond) &&
              decide (0 < (state.limiter.configFor env.config.rateLimit host).burst)
          | .executing _ _, .http (.reply reply) _ =>
              decide (reply.text = []) && decide (item.attempt < PyFloat.overflowExponent)
          | .executing _ _, _ | .hooking _, _ => false
          | _, _ => true
      | _ => true
  | _ => true

theorem handlesSafely_sound
    (env : Env)
    (state : State)
    (label : Label)
    (passes : handlesSafely env state label = true) :
    SafeStep env state label := by
  rintro id choice item point rfl current
  simp only [handlesSafely, current] at passes
  cases point <;> try trivial
  case gating =>
    simp only [Bool.and_eq_true, decide_eq_true_eq] at passes
    obtain ⟨host, parsed⟩ := Option.isSome_iff_exists.mp passes.1.1
    exact ⟨host, parsed, fun _ => passes.1.2, fun _ _ => passes.2⟩
  case acquiring host probe bucket delayTotal wakeAt =>
    simp only [Bool.and_eq_true, decide_eq_true_eq] at passes
    cases bucket with
    | none => exact fun _ => passes
    | some held => trivial
  case executing =>
    cases choice <;> try trivial
    case http event draw =>
      cases event with
      | raises exc => cases passes
      | reply reply =>
          simp only [Bool.and_eq_true, decide_eq_true_eq] at passes
          intro exc raised
          refine ⟨?_, fun _ _ _ => passes.2⟩
          simp only [execute, readResponse, passes.1, if_true] at raised
          split_ifs at raised <;> cases raised <;> rfl

/-- A request whose URL has an unbalanced bracket. -/
def bracketLabels : List Label :=
  startLabels ++ requestLabels 2 "http://[" ++ [.step 1 .proceed, .step 1 (.jitter 0)]

/-- A request whose URL has an unbalanced bracket ends the only worker. -/
theorem worker_pool_not_survives :
    ∃ state, Run (step oneWorker) StorageWorks (State.boot {}) state ∧
      state.Ended 1 ∧ state.liveWorkers = 0 := by
  have passes : (executeChecked (step oneWorker) storageWorks bracketLabels
      (State.boot {})).any (fun state =>
        decide (state.Ended 1 ∧ state.liveWorkers = 0)) = true := by decide +kernel
  obtain ⟨state, run, tested⟩ := exists_run_of_executeChecked storageWorks_sound passes
  exact ⟨state, run, of_decide_eq_true tested⟩

/-- A worker at the start of `_handle`. -/
def gatingState (item : QueueItem) : State :=
  { State.boot {} with connected := true }.setTask 0 (.worker (.handling item .gating))

/-- A request that is answered with 200, from `start()` on. -/
def answeredLabels : List Label :=
  startLabels ++ requestLabels 2 "http://example.org/" ++ sendLabels 1 ++ answerLabels 1 200 3

theorem worker_pool_survival_get :
    (∀ next, step oneWorker (.step 0 (.jitter 0))
        (gatingState ⟨(getPayload "http://example.org/").request, 0, 0⟩) = some next →
      ¬ next.Ended 0) ∧
    ∃ state, Run (step oneWorker)
        (fun before label => StorageWorks before label ∧ SafeStep oneWorker before label)
        (State.boot {}) state ∧ state.liveWorkers = 1 := by
  constructor
  · intro next moved
    refine ((worker_pool_survival oneWorker).1 _ next 0 (.jitter 0) _ .gating rfl
      ⟨by simp, fun _ _ _ _ _ _ => rfl⟩ moved).mpr ?_
    exact ⟨"example.org", by decide +kernel, by decide, fun _ _ => by decide⟩
  · have checks : ∀ state label,
        (storageWorks state label && handlesSafely oneWorker state label) = true →
          StorageWorks state label ∧ SafeStep oneWorker state label := by
      intro state label both
      rw [Bool.and_eq_true] at both
      exact ⟨storageWorks_sound state label both.1,
        handlesSafely_sound oneWorker state label both.2⟩
    have passes : (executeChecked (step oneWorker)
        (fun state label => storageWorks state label && handlesSafely oneWorker state label)
        answeredLabels (State.boot {})).any (fun state =>
          decide (state.cancelRequests = [] ∧ state.workers ≠ [])) = true := by
      decide +kernel
    obtain ⟨state, run, tested⟩ := exists_run_of_executeChecked checks passes
    have serving := of_decide_eq_true tested
    exact ⟨state, run, ((worker_pool_survival oneWorker).2 {} 0 state run).2
      serving.1 serving.2⟩

end HardenedClient
