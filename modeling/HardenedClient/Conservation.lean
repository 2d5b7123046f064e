import HardenedClient.DeadLetterReplay
import HardenedClient.DiskMirror
import HardenedClient.StartCompletion
import Mathlib.Algebra.Order.Field.Basic

/-!
# Conservation of requests

A request is counted as started when its item is about to be enqueued, and as succeeded or
failed when its worker has the outcome. In between it is carried by one task or by the
queue, so the number of those is what the two counters have not caught up with.
-/

namespace HardenedClient

open Foundation

/-- The items, one or none, whose outcome is not counted at an await of `_handle`. -/
def HandlePoint.uncounted : HandlePoint → ℕ
  | .gating | .acquiring _ _ _ _ _ | .executing _ _ | .incrementing _ _ _
  | .scheduling _ _ => 1
  | _ => 0

/-- The started items of a task whose outcome is not counted yet: blocked in `enqueue`, in
`_handle`, or in `_reschedule`. -/
def Task.uncounted : Option Task → ℕ
  | some (.caller _ (.enqueueing _ _)) | some (.starter (.reenqueueing _ _)) => 1
  | some (.worker (.handling _ point)) => point.uncounted
  | some (.reschedule (.sleeping _ _)) | some (.reschedule (.enqueueing _)) => 1
  | _ => 0

namespace Metrics

/-- Every terminal failure is a dead letter, and every retryable one a retry. -/
def Paired (metrics : Metrics) : Prop :=
  metrics.requestsFailedTerminal = metrics.dlqPushes ∧
    metrics.requestsFailedRetryable = metrics.retriesPerformed

/-- `success_rate` of `snapshot()`. -/
def successRate (metrics : Metrics) : ℚ :=
  if metrics.requestsStarted = 0 then 0
  else metrics.requestsSucceeded / metrics.requestsStarted

/-- The requests whose outcome is counted. -/
def settled (metrics : Metrics) : ℕ :=
  metrics.requestsSucceeded + metrics.requestsFailedTerminal

/-- The counters of a metrics object that the law is about stay as they are. -/
structure Keeps (before after : Metrics) : Prop where
  started : after.requestsStarted = before.requestsStarted
  settled : after.settled = before.settled
  paired : before.Paired → after.Paired

end Metrics

namespace State

/-- The started items of tasks whose outcome is not counted yet. -/
def carried (state : State) : ℕ :=
  ∑ id ∈ Finset.range state.spawned, Task.uncounted (state.tasks id)

/-- The started items whose outcome is not counted yet. -/
def uncounted (state : State) : ℕ := state.queue.items.length + state.carried

end State

/-- No task is cancelled, `stop()` is not called, and neither the storage nor a step of
`_handle` before the outcome is counted raises. -/
structure Conserving (env : Env) (state : State) (label : Label) : Prop where
  notStop : label ≠ .stop
  notCancelled : ∀ id, label ≠ .cancel id
  stored : ∀ id exc, label ≠ .step id (.storageError exc)
  safe : ∀ id choice item point, label = .step id choice →
    state.tasks id = some (.worker (.handling item point)) → point.uncounted = 1 →
      HandlesSafely env state item point choice

/-! ## The counters of a worker -/

/-- A step of a worker moves its item to the counted ones, or neither. -/
structure Tallied (before : Metrics) (weight : ℕ) (next : State) (id : ℕ) : Prop where
  started : next.metrics.requestsStarted = before.requestsStarted
  settled : next.metrics.settled + Task.uncounted (next.tasks id) = before.settled + weight
  paired : before.Paired → next.metrics.Paired

namespace State

variable {env : Env} {state next : State} {label : Label} {id : ℕ} {item : QueueItem}

/-- The worker moves on to another await. -/
theorem tallied_moveTo
    {before : Metrics}
    {base : State}
    {point : HandlePoint}
    {weight : ℕ}
    (started : base.metrics.requestsStarted = before.requestsStarted)
    (settled : base.metrics.settled + point.uncounted = before.settled + weight)
    (paired : before.Paired → base.metrics.Paired) :
    Tallied before weight (base.moveTo id item point) id where
  started := started
  settled := by
    rw [moveTo_tasks_self]
    exact settled
  paired := paired

/-- A retry stays uncounted, and a terminal failure is counted. -/
theorem tallied_retryOrDlq
    {before : Metrics}
    {exc : PyException}
    {retryAfter : Option PyFloat}
    {draw : ℚ}
    (keeps : before.Keeps state.metrics)
    (given : retryAfter.or exc.retryAfter? = exc.retryAfter?)
    (fits : ¬ Overflows env item exc) :
    Tallied before 1 (state.retryOrDlq env id item exc retryAfter draw) id := by
  have decision := dispose?_eq_none_iff env.config.retry item.attempt exc retryAfter draw
  rw [given] at decision
  obtain ⟨started, settled, paired⟩ := keeps
  unfold Metrics.settled at settled
  unfold retryOrDlq
  cases decided : dispose? env.config.retry item.attempt exc retryAfter draw with
  | none => exact absurd (decision.mp decided) fits
  | some disposition =>
      cases disposition with
      | retry newAttempt delay =>
          simp only
          apply tallied_moveTo
          · exact started
          · simp only [Metrics.settled, HandlePoint.uncounted]
            omega
          · intro was
            obtain ⟨terminal, retryable⟩ := paired was
            exact ⟨terminal, congrArg (· + 1) retryable⟩
      | terminal =>
          simp only
          apply tallied_moveTo
          · exact started
          · simp only [Metrics.settled, HandlePoint.uncounted]
            omega
          · intro was
            obtain ⟨terminal, retryable⟩ := paired was
            exact ⟨congrArg (· + 1) terminal, retryable⟩

theorem tallied_gate
    {draw : ℚ}
    (inside : ¬ Escapes env state item .gating (.jitter draw)) :
    Tallied state.metrics 1 (state.gate env id item draw) id := by
  simp only [Escapes] at inside
  unfold gate
  cases parsed : env.hostOf? item.request.request.url with
  | none => simp [parsed] at inside
  | some host =>
      cases found : state.breakers.forHost? env.config.circuitBreaker host with
      | none => simp [parsed, found] at inside
      | some breaker =>
          simp only [parsed, found] at inside ⊢
          cases called : (breaker.beforeCall env.config.circuitBreaker state.now).2 with
          | none => exact tallied_moveTo rfl rfl fun was => was
          | some exc =>
              simp only
              apply tallied_retryOrDlq
              · exact ⟨rfl, rfl, fun was => was⟩
              · cases exc.retryAfter? <;> rfl
              · exact fun overflows => inside ⟨exc, called, overflows⟩

theorem tallied_acquire
    {host : PyStr}
    {probe bucket : Option ℕ}
    {delayTotal wakeAt : ℚ}
    (inside : ¬ Escapes env state item (.acquiring host probe bucket delayTotal wakeAt) .proceed)
    (moved : state.acquire env id item host probe bucket delayTotal wakeAt = some next) :
    Tallied state.metrics 1 next id := by
  have round : ∀ (limiter : HostRateLimiter) (held : ℕ), Tallied state.metrics 1
      ({ state with limiter := limiter }.acquireRound id item host probe held delayTotal) id := by
    intro limiter held
    unfold acquireRound
    split
    · simp only
      split_ifs <;> exact tallied_moveTo rfl rfl fun was => was
    · exact tallied_moveTo rfl rfl fun was => was
  unfold acquire at moved
  split_ifs at moved
  cases bucket with
  | some held =>
      rw [← Option.some.inj moved]
      exact round state.limiter held
  | none =>
      have raises := state.limiter.bucketFor?_eq_none_iff env.config.rateLimit state.now host
      simp only at moved
      split at moved
      · next missing => exact absurd (raises.mp missing) inside
      · rw [← Option.some.inj moved]
        exact round _ _

theorem tallied_receive
    {host : PyStr}
    {probe : Option ℕ}
    {event : HttpEvent}
    {draw : ℚ}
    (inside : ¬ Escapes env state item (.executing host probe) (.http event draw)) :
    Tallied state.metrics 1 (state.receive env id item host event draw) id := by
  simp only [Escapes] at inside
  unfold receive
  cases executed : execute item.request.request item.attempt event with
  | ok response =>
      apply tallied_moveTo
      · rfl
      · simp only [Metrics.settled, HandlePoint.uncounted, record]
        omega
      · exact fun was => was
  | error exc =>
      simp only
      cases handler : caught? exc with
      | none => exact absurd ⟨exc, executed, Or.inl ((caught?_eq_none_iff exc).mp handler)⟩ inside
      | some handled =>
          obtain ⟨error, reported⟩ := handled
          simp only
          apply tallied_retryOrDlq
          · exact ⟨rfl, rfl, fun was => was⟩
          · rfl
          · exact fun overflows =>
              inside ⟨exc, executed, Or.inr ⟨error, reported, handler, overflows⟩⟩

/-- A step of `_handle` tallies the item, unless it hands it to a retry. -/
theorem tallied_stepHandle
    {point : HandlePoint}
    {choice : Choice}
    (notScheduling : ∀ newAttempt delay, point ≠ .scheduling newAttempt delay)
    (inside : point.uncounted = 1 → ¬ Escapes env state item point choice)
    (moved : state.stepHandle env id item point choice = some next) :
    Tallied state.metrics point.uncounted next id := by
  have quiet : ∀ {base : State} {task : Task}, base.metrics = state.metrics →
      Task.uncounted (some task) = point.uncounted →
      Tallied state.metrics point.uncounted (base.setTask id task) id := by
    intro base task same weight
    refine ⟨congrArg _ same, ?_, fun was => same.symm ▸ was⟩
    rw [setTask_tasks_self, weight]
    exact congrArg (fun metrics => metrics.settled + point.uncounted) same
  cases point <;> cases choice <;> simp only [stepHandle, reduceCtorEq] at moved
  case gating.jitter draw =>
    split_ifs at moved
    rw [← Option.some.inj moved]
    exact tallied_gate (inside rfl)
  case acquiring.proceed => exact tallied_acquire (inside rfl) moved
  case executing.http host probe event draw =>
    split_ifs at moved
    rw [← Option.some.inj moved]
    exact tallied_receive (inside rfl)
  case incrementing.proceed exc newAttempt delay =>
    split_ifs at moved with connected <;> rw [← Option.some.inj moved]
    · exact quiet rfl rfl
    · exact absurd (Bool.eq_false_iff.mpr connected) (inside rfl)
  case incrementing.storageError => exact absurd trivial (inside rfl)
  case scheduling.proceed newAttempt delay | scheduling.storageError newAttempt delay exc =>
    exact absurd rfl (notScheduling newAttempt delay)
  case resolving.proceed | failing.proceed =>
    rw [← Option.some.inj moved, settleKey_eq]
    exact quiet rfl rfl
  case hooking.hook raised =>
    cases raised with
    | none =>
        rw [← Option.some.inj moved]
        exact quiet rfl rfl
    | some exc =>
        simp only at moved
        split_ifs at moved <;> rw [← Option.some.inj moved] <;> exact quiet rfl rfl
  case deleted.proceed response =>
    rw [← Option.some.inj moved]
    refine quiet rfl ?_
    split_ifs <;> rfl
  all_goals
    try split_ifs at moved
    all_goals
      rw [← Option.some.inj moved]
      exact quiet rfl rfl

/-! ## The law -/

/-- Started requests are counted once: in a counter, or where they are. -/
structure Conserved (state : State) : Prop where
  unstopped : state.Unstopped
  balance : state.metrics.requestsStarted = state.metrics.settled + state.uncounted
  paired : state.metrics.Paired

theorem Conserved.boot (tables : Tables) (now : ℚ) (history : List Event) :
    (boot tables now history).Conserved where
  unstopped := .boot tables now history
  balance := rfl
  paired := ⟨rfl, rfl⟩

theorem carried_of_frame
    (frame : Frame id state next)
    (tidy : state.Tidy)
    (light : ∀ other, state.spawned ≤ other → other ≠ id →
      Task.uncounted (next.tasks other) = 0) :
    next.carried + Task.uncounted (state.tasks id) =
      state.carried + Task.uncounted (next.tasks id) :=
  frame.total tidy Task.uncounted rfl light

/-- A step that moves one task changes what the task, the queue and the counters hold by
amounts that cancel out. -/
theorem Conserved.of_frame
    (conserved : state.Conserved)
    (unstopped : next.Unstopped)
    (frame : Frame id state next)
    (light : ∀ other, state.spawned ≤ other → other ≠ id →
      Task.uncounted (next.tasks other) = 0)
    (even : next.metrics.requestsStarted + state.metrics.settled +
        state.queue.items.length + Task.uncounted (state.tasks id) =
      state.metrics.requestsStarted + next.metrics.settled +
        next.queue.items.length + Task.uncounted (next.tasks id))
    (paired : state.metrics.Paired → next.metrics.Paired) :
    next.Conserved where
  unstopped := unstopped
  balance := by
    have total := carried_of_frame frame conserved.unstopped.tidy light
    have balance := conserved.balance
    unfold uncounted at balance ⊢
    omega
  paired := paired conserved.paired

/-- A step that moves one task and creates none. -/
theorem Conserved.setTask
    {base : State}
    {old task : Task}
    (conserved : state.Conserved)
    (current : state.tasks id = some old)
    (tasks : base.tasks = state.tasks)
    (spawned : base.spawned = state.spawned)
    (unstopped : (base.setTask id task).Unstopped)
    (even : base.metrics.requestsStarted + state.metrics.settled +
        state.queue.items.length + Task.uncounted (some old) =
      state.metrics.requestsStarted + base.metrics.settled +
        base.queue.items.length + Task.uncounted (some task))
    (paired : state.metrics.Paired → base.metrics.Paired) :
    (base.setTask id task).Conserved := by
  have tidy := conserved.unstopped.tidy
  apply conserved.of_frame unstopped (frame_setTask tidy current tasks spawned) _ _ paired
  · intro other beyond different
    rw [setTask_tasks_of_ne _ _ different, tasks, tidy other beyond]
    rfl
  · rw [setTask_tasks_self, current]
    exact even

/-- A call that creates a task without an item. -/
theorem Conserved.call
    {base : State}
    {task : Task}
    (conserved : state.Conserved)
    (tasks : base.tasks = state.tasks)
    (spawned : base.spawned = state.spawned + 1)
    (queue : base.queue = state.queue)
    (metrics : base.metrics = state.metrics)
    (weightless : Task.uncounted (some task) = 0)
    (unstopped : (base.setTask state.spawned task).Unstopped) :
    (base.setTask state.spawned task).Conserved := by
  have tidy := conserved.unstopped.tidy
  have paired : state.metrics.Paired → base.metrics.Paired := fun was => metrics.symm ▸ was
  apply conserved.of_frame unstopped (frame_call tidy tasks spawned) _ _ paired
  · intro other beyond different
    rw [setTask_tasks_of_ne _ _ different, tasks, tidy other beyond]
    rfl
  · rw [setTask_tasks_self, weightless, tidy state.spawned (Nat.le_refl _), State.setTask, queue, metrics]
    rfl

/-- A call of `request()` does not get as far as its enqueue. -/
theorem callRequest_weightless
    (state : State)
    (env : Env)
    (id : ℕ)
    (replayed : Option ℕ)
    (request : Request) :
    ∃ dedup point, state.callRequest env id replayed request =
        { state with dedup := dedup }.setTask id (.caller replayed point) ∧
      Task.uncounted (some (.caller replayed point)) = 0 := by
  unfold callRequest submit
  split
  · split
    · exact ⟨state.dedup, _, rfl, rfl⟩
    · split
      · exact ⟨_, _, rfl, rfl⟩
      · split <;> exact ⟨_, _, rfl, rfl⟩
  · exact ⟨state.dedup, _, rfl, rfl⟩

theorem Conserved.stepCaller
    {replayed : Option ℕ}
    {point : CallerPoint}
    {choice : Choice}
    (conserved : state.Conserved)
    (unstopped : next.Unstopped)
    (current : state.tasks id = some (.caller replayed point))
    (moved : state.stepCaller env id replayed point choice = some next) :
    next.Conserved := by
  cases point <;> cases choice <;> simp only [State.stepCaller, reduceCtorEq] at moved
  case removed.resubmit row requestId createdAt =>
    obtain ⟨dedup, point, same, weightless⟩ :=
      state.callRequest_weightless env id replayed (replayRequest row requestId createdAt)
    rw [← Option.some.inj moved, same] at unstopped ⊢
    refine conserved.setTask current rfl rfl unstopped ?_ fun was => was
    rw [weightless]
    rfl
  case upserted.proceed request future =>
    rw [← Option.some.inj moved] at unstopped ⊢
    refine conserved.setTask current rfl rfl unstopped ?_ fun was => was
    simp only [Metrics.settled, Task.uncounted]
    omega
  case enqueueing.proceed request future =>
    split_ifs at moved
    rw [← Option.some.inj moved] at unstopped ⊢
    refine conserved.setTask current rfl rfl unstopped ?_ fun was => was
    simp only [RequestQueue.put_items, List.length_append, List.length_singleton, Task.uncounted]
    omega
  all_goals
    try split_ifs at moved
    all_goals
      rw [← Option.some.inj moved] at unstopped ⊢
      exact conserved.setTask current rfl rfl unstopped rfl fun was => was

theorem Conserved.stepReschedule
    {point : ReschedulePoint}
    {choice : Choice}
    (conserved : state.Conserved)
    (unstopped : next.Unstopped)
    (current : state.tasks id = some (.reschedule point))
    (moved : state.stepReschedule env id point choice = some next) :
    next.Conserved := by
  cases point <;> cases choice <;>
    simp only [State.stepReschedule, conserved.unstopped.running, Bool.false_eq_true, if_false,
      reduceCtorEq] at moved
  case sleeping.proceed item wakeAt =>
    split_ifs at moved
    rw [← Option.some.inj moved] at unstopped ⊢
    exact conserved.setTask current rfl rfl unstopped rfl fun was => was
  case enqueueing.proceed item =>
    split_ifs at moved
    rw [← Option.some.inj moved] at unstopped ⊢
    refine conserved.setTask current rfl rfl unstopped ?_ fun was => was
    simp only [RequestQueue.put_items, List.length_append, List.length_singleton, Task.uncounted]
    omega

theorem Conserved.stepStarter
    {point : StartPoint}
    {choice : Choice}
    (conserved : state.Conserved)
    (unstopped : next.Unstopped)
    (current : state.tasks id = some (.starter point))
    (moved : state.stepStarter env id point choice = some next) :
    next.Conserved := by
  cases point <;> cases choice <;>
    simp only [State.stepStarter, failStart, reduceCtorEq] at moved
  case recovering.proceed rows =>
    cases rows with
    | nil =>
        rw [← Option.some.inj moved] at unstopped ⊢
        have frame := frame_online env conserved.unstopped.tidy current
        refine conserved.of_frame unstopped frame ?_ ?_ fun was => was
        · intro other beyond different
          simp only [online, State.setTask, Function.update_of_ne different]
          split_ifs
          · rfl
          · rw [conserved.unstopped.tidy other beyond]
            rfl
        · rw [online_tasks_self, current]
          rfl
    | cons row rows =>
        rw [← Option.some.inj moved] at unstopped ⊢
        rcases state.dedup.getOrCreate_cases row.idempotencyKey with
          ⟨_, _, _, called⟩ | ⟨_, called⟩ <;> simp only [recoverRow, called] at unstopped ⊢
        · exact conserved.setTask current rfl rfl unstopped rfl fun was => was
        · refine conserved.setTask current rfl rfl unstopped ?_ fun was => was
          simp only [Metrics.settled, Task.uncounted]
          omega
  case reenqueueing.proceed item rows =>
    split_ifs at moved
    rw [← Option.some.inj moved] at unstopped ⊢
    refine conserved.setTask current rfl rfl unstopped ?_ fun was => was
    simp only [RequestQueue.put_items, List.length_append, List.length_singleton, Task.uncounted]
    omega
  all_goals
    try split_ifs at moved
    all_goals
      rw [← Option.some.inj moved] at unstopped ⊢
      exact conserved.setTask current rfl rfl unstopped rfl fun was => was

/-- The await after `increment_retry`: the item goes from its worker to a new task. -/
theorem Conserved.rescheduled
    {newAttempt : ℕ}
    {delay : PyFloat}
    {retry : Task}
    (conserved : state.Conserved)
    (current : state.tasks id = some (.worker (.handling item (.scheduling newAttempt delay))))
    (carries : Task.uncounted (some retry) = 1)
    (unstopped : ((state.spawn retry).endHandle id).Unstopped) :
    ((state.spawn retry).endHandle id).Conserved := by
  have tidy := conserved.unstopped.tidy
  have known : id ≠ state.spawned := (tidy.lt_of_task current).ne
  have spawning : Frame state.spawned state (state.spawn retry) :=
    @frame_call state { state with spawned := state.spawned + 1 } retry tidy rfl rfl
  have middle : (state.spawn retry).Tidy := .of_frame spawning
  have there : (state.spawn retry).tasks id =
      some (.worker (.handling item (.scheduling newAttempt delay))) := by
    rw [spawn_tasks_of_ne _ _ known, current]
  have born : (state.spawn retry).carried + 0 = state.carried + 1 := by
    have moved := carried_of_frame spawning tidy fun other beyond different => by
      rw [spawn_tasks_of_ne _ _ different, tidy other beyond]
      rfl
    rwa [tidy state.spawned (Nat.le_refl _), spawn_tasks_self, carries] at moved
  have ended : ((state.spawn retry).endHandle id).carried + 1 =
      (state.spawn retry).carried + 0 := by
    have ending : Frame id (state.spawn retry) ((state.spawn retry).endHandle id) :=
      frame_setTask middle there rfl rfl
    have moved := carried_of_frame ending middle fun other beyond different => by
      rw [endHandle, setTask_tasks_of_ne _ _ different]
      exact congrArg Task.uncounted (middle other beyond)
    rwa [there, endHandle_tasks_self] at moved
  refine ⟨unstopped, ?_, conserved.paired⟩
  have balance := conserved.balance
  change state.metrics.requestsStarted = state.metrics.settled +
    (state.queue.items.length + ((state.spawn retry).endHandle id).carried)
  unfold uncounted at balance
  omega

/-- A step of `_handle` that creates no task moves its own and leaves the queue. -/
theorem stepHandle_setTask
    {point : HandlePoint}
    {choice : Choice}
    (notScheduling : ∀ newAttempt delay, point ≠ .scheduling newAttempt delay)
    (moved : state.stepHandle env id item point choice = some next) :
    ∃ (base : State) (task : Task), next = base.setTask id task ∧ base.tasks = state.tasks ∧
      base.spawned = state.spawned ∧ base.queue.items = state.queue.items := by
  rcases stepHandle_ends moved with ⟨_, escaped⟩ | ⟨_, handled⟩
  · obtain ⟨_⟩ := escaped
    exact ⟨_, _, rfl, rfl, rfl, rfl⟩
  · cases handled with
    | rescheduled => exact absurd rfl (notScheduling _ _)
    | resolved | rejected =>
        rw [settleKey_eq]
        exact ⟨_, _, rfl, rfl, rfl, rfl⟩
    | _ => exact ⟨_, _, rfl, rfl, rfl, rfl⟩

theorem Conserved.stepWorker
    {point : WorkerPoint}
    {choice : Choice}
    (conserved : state.Conserved)
    (conserving : Conserving env state (.step id choice))
    (unstopped : next.Unstopped)
    (current : state.tasks id = some (.worker point))
    (moved : HardenedClient.step env (.step id choice) state = some next) :
    next.Conserved := by
  have tidy := conserved.unstopped.tidy
  have stepped := step_stepped moved
  simp only [HardenedClient.step, stepTask, current] at moved
  cases point with
  | ended | cancelled => cases choice <;> cases moved
  | idle =>
      cases choice <;> simp only [State.stepWorker, reduceCtorEq] at moved
      cases waiting : state.queue.items with
      | nil => simp [waiting] at moved
      | cons item rest =>
          simp only [waiting, Option.some.injEq] at moved
          rw [← moved] at unstopped ⊢
          refine conserved.setTask current rfl rfl unstopped ?_ fun was => was
          simp only [record, waiting, List.length_cons, Task.uncounted, HandlePoint.uncounted]
          omega
  | handling item point =>
      by_cases scheduling : ∃ newAttempt delay, point = .scheduling newAttempt delay
      · obtain ⟨newAttempt, delay, rfl⟩ := scheduling
        cases choice <;> simp only [State.stepWorker, stepHandle, reduceCtorEq] at moved
        case proceed =>
          rw [← Option.some.inj moved] at unstopped ⊢
          exact conserved.rescheduled current rfl unstopped
        case storageError exc => exact absurd rfl (conserving.stored id exc)
      · have moved : state.stepHandle env id item point choice = some next := by
          cases choice <;> exact moved
        have inside : point.uncounted = 1 → ¬ Escapes env state item point choice := by
          intro uncounted escapes
          apply (escapes_iff env state item point choice
            (conserved.unstopped.connected current) _).mp escapes
          · exact conserving.safe id choice item point rfl current uncounted
          · rintro exc rfl
            exact conserving.stored id exc rfl
        have notScheduling : ∀ newAttempt delay, point ≠ .scheduling newAttempt delay :=
          fun newAttempt delay same => scheduling ⟨newAttempt, delay, same⟩
        obtain ⟨started, settled, paired⟩ := tallied_stepHandle notScheduling inside moved
        obtain ⟨base, task, rfl, tasks, spawned, items⟩ := stepHandle_setTask notScheduling moved
        refine conserved.setTask current tasks spawned unstopped ?_ paired
        rw [setTask_tasks_self] at settled
        rw [items]
        change base.metrics.requestsStarted = _ at started
        change base.metrics.settled + _ = _ at settled
        change _ + point.uncounted = _
        omega

theorem Conserved.step
    (conserved : state.Conserved)
    (conserving : Conserving env state label)
    (moved : HardenedClient.step env label state = some next) :
    next.Conserved := by
  have unstopped := conserved.unstopped.step conserving.notStop moved
  have tidy := conserved.unstopped.tidy
  cases label with
  | tick seconds =>
      simp only [HardenedClient.step, Option.ite_none_right_eq_some, Option.some.injEq] at moved
      rw [← moved.2] at unstopped ⊢
      exact ⟨unstopped, conserved.balance, conserved.paired⟩
  | setOverride | setResponseHook | purge =>
      rw [← Option.some.inj moved] at unstopped ⊢
      exact ⟨unstopped, conserved.balance, conserved.paired⟩
  | request request =>
      obtain ⟨dedup, point, same, weightless⟩ := callRequest_weightless
        { state with spawned := state.spawned + 1 } env state.spawned none request
      rw [← Option.some.inj moved, same] at unstopped ⊢
      exact conserved.call rfl rfl rfl rfl weightless unstopped
  | replay row =>
      rw [← Option.some.inj moved] at unstopped ⊢
      exact @Conserved.call state { state with spawned := state.spawned + 1 } _ conserved rfl rfl
        rfl rfl rfl unstopped
  | drain =>
      rw [← Option.some.inj moved] at unstopped ⊢
      exact @Conserved.call state { state with spawned := state.spawned + 1 } _ conserved rfl rfl
        rfl rfl rfl unstopped
  | cancel id => exact absurd rfl (conserving.notCancelled id)
  | stop => exact absurd rfl conserving.notStop
  | crash =>
      rw [← Option.some.inj moved]
      exact Conserved.boot _ _ _
  | cancelWorker id =>
      simp [HardenedClient.step, cancelWorker, conserved.unstopped.unrequested] at moved
  | start =>
      simp only [HardenedClient.step, callStart] at moved
      split_ifs at moved
      · exact Option.some.inj moved ▸ conserved
      · rw [← Option.some.inj moved] at unstopped ⊢
        exact @Conserved.call state { state with
          session := true, lifecycle := true, spawned := state.spawned + 1 } _ conserved rfl rfl
          rfl rfl rfl unstopped
      · rw [← Option.some.inj moved] at unstopped ⊢
        exact @Conserved.call state { state with lifecycle := true, spawned := state.spawned + 1 }
          _ conserved rfl rfl rfl rfl rfl unstopped
  | step id choice =>
      cases current : state.tasks id with
      | none => simp [HardenedClient.step, stepTask, current] at moved
      | some task =>
          have moves := moved
          simp only [HardenedClient.step, stepTask, current] at moves
          cases task with
          | caller replayed point => exact conserved.stepCaller unstopped current moves
          | worker point => exact conserved.stepWorker conserving unstopped current moved
          | reschedule point => exact conserved.stepReschedule unstopped current moves
          | starter point => exact conserved.stepStarter unstopped current moves
          | drainer point =>
              obtain ⟨_, after, _, rfl⟩ := stepDrainer_eq_some_iff.mp moves
              exact conserved.setTask current rfl rfl unstopped rfl fun was => was
          | stopper point => exact absurd current (conserved.unstopped.noStopper id point)

end State

/-- In every run without `stop()` and without cancellations, in which neither the storage
nor a step of `_handle` before the outcome is counted raises: the started requests are
those counted as succeeded or as failed terminally and the started items that wait to be
enqueued, are queued, are in `_handle` with an outcome that is not counted yet, or are in
`_reschedule`. Terminal failures are dead letters, retryable ones are retries, the success
rate lies between 0 and 1, and with nothing live every started request is counted. -/
theorem requests_conserved
    (env : Env)
    (tables : Tables)
    (now : ℚ)
    (state : State)
    (run : Run (step env) (Conserving env) (State.boot tables now) state) :
    state.metrics.requestsStarted =
      state.metrics.requestsSucceeded + state.metrics.requestsFailedTerminal +
        state.uncounted ∧
    state.metrics.requestsFailedTerminal = state.metrics.dlqPushes ∧
    state.metrics.requestsFailedRetryable = state.metrics.retriesPerformed ∧
    0 ≤ state.metrics.successRate ∧ state.metrics.successRate ≤ 1 ∧
    (state.queue.items = [] → (∀ id, Task.uncounted (state.tasks id) = 0) →
      state.metrics.requestsStarted =
        state.metrics.requestsSucceeded + state.metrics.requestsFailedTerminal) := by
  have conserved : state.Conserved := by
    apply run.invariant State.Conserved
    · exact State.Conserved.boot tables now []
    · intro before label after conserved conserving moved
      exact conserved.step conserving moved
  have balance := conserved.balance
  unfold Metrics.settled at balance
  refine ⟨balance, conserved.paired.1, conserved.paired.2, ?_, ?_, ?_⟩
  · unfold Metrics.successRate
    split_ifs
    · exact le_refl 0
    · exact div_nonneg (Nat.cast_nonneg _) (Nat.cast_nonneg _)
  · unfold Metrics.successRate
    split_ifs with none
    · exact zero_le_one
    · have fewer : (state.metrics.requestsSucceeded : ℚ) ≤ state.metrics.requestsStarted := by
        exact_mod_cast (by omega : _ ≤ state.metrics.requestsStarted)
      have positive : (0 : ℚ) < state.metrics.requestsStarted := by
        exact_mod_cast Nat.pos_of_ne_zero none
      exact div_le_one_of_le₀ fewer positive.le
  · intro empty idle
    have nothing : state.uncounted = 0 := by
      rw [State.uncounted, State.carried, empty, List.length_nil, zero_add]
      exact Finset.sum_eq_zero fun id _ => idle id
    omega

/-! ## Requests that are lost -/

/-- `stop()` is not called, no caller is cancelled, and the storage, the parsing of URLs and
the computation of backoffs succeed. -/
structure Untroubled (env : Env) (state : State) (label : Label) : Prop where
  notStop : label ≠ .stop
  uncancelled : Uncancelled state label
  stored : ∀ id exc, label ≠ .step id (.storageError exc)
  computes : Computes env state label

/-- A check for `Untroubled` on replayed runs. -/
def isUntroubled (env : Env) (state : State) (label : Label) : Bool :=
  computes env state label &&
    match label with
    | .stop | .step _ (.storageError _) => false
    | .cancel id =>
        match state.tasks id with
        | some (.caller _ _) => false
        | _ => true
    | _ => true

theorem isUntroubled_sound
    (env : Env)
    (state : State)
    (label : Label)
    (passes : isUntroubled env state label = true) :
    Untroubled env state label := by
  obtain ⟨fits, passes⟩ := Bool.and_eq_true_iff.mp passes
  refine ⟨?_, ?_, ?_, computes_sound env state label fits⟩
  · rintro rfl
    cases passes
  · rintro id replayed point rfl current
    simp [current] at passes
  · rintro id exc rfl
    cases passes

/-- A client loses sight of a request that it has counted as started. -/
def LosesCount (env : Env) (tables : Tables) : Prop :=
  ∃ state, Run (step env) (Untroubled env) (State.boot tables) state ∧
    state.metrics.requestsStarted ≠
      state.metrics.requestsSucceeded + state.metrics.requestsFailedTerminal + state.uncounted

theorem losesCount_of_replay
    {env : Env}
    {tables : Tables}
    {labels : List Label}
    (passes : (executeChecked (step env) (isUntroubled env) labels (State.boot tables)).any
      (fun state => decide (state.metrics.requestsStarted ≠
        state.metrics.requestsSucceeded + state.metrics.requestsFailedTerminal +
          state.uncounted)) = true) :
    LosesCount env tables := by
  obtain ⟨state, run, tested⟩ := exists_run_of_executeChecked (isUntroubled_sound env) passes
  exact ⟨state, run, of_decide_eq_true tested⟩

/-- A database with the rows of two requests. -/
def twoRows : Tables := oneRow.upsertInflight (getPayload "http://example.com/").request 0

/-- The worker dies of the ValueError of a token bucket or of a breaker's window, or of what
an HTTP call raises outside `Exception`; or a `start()` call is cancelled while it waits to
enqueue a row. -/
theorem requests_not_conserved :
    LosesCount zeroRate {} ∧ LosesCount negativeWindow {} ∧ LosesCount oneWorker {} ∧
      LosesCount narrow twoRows := by
  refine ⟨?_, ?_, ?_, ?_⟩
  · apply @losesCount_of_replay _ _
      (startLabels ++ requestLabels 2 "http://example.org/" ++ sendLabels 1)
    decide +kernel
  · apply @losesCount_of_replay _ _ (startLabels ++
      requestLabels 2 "http://example.org/" ++ [.step 1 .proceed, .step 1 (.jitter 0)])
    decide +kernel
  · apply @losesCount_of_replay _ _ (startLabels ++ requestLabels 2 "http://example.org/" ++
      sendLabels 1 ++ [.step 1 (.http (.raises .cancelledError) 0)])
    decide +kernel
  · apply @losesCount_of_replay _ _ (.start :: proceedLabels 0 6 ++ [.cancel 0])
    decide +kernel

/-! ## A retry and a failure -/

/-- A check for `Conserving` on replayed runs. -/
def isConserving (env : Env) (state : State) (label : Label) : Bool :=
  handlesSafely env state label &&
    match label with
    | .stop | .step _ (.storageError _) | .cancel _ => false
    | _ => true

theorem isConserving_sound
    (env : Env)
    (state : State)
    (label : Label)
    (passes : isConserving env state label = true) :
    Conserving env state label := by
  obtain ⟨handles, passes⟩ := Bool.and_eq_true_iff.mp passes
  refine ⟨?_, ?_, ?_, fun id choice item point isStep current _ =>
    handlesSafely_sound env state label handles id choice item point isStep current⟩
  · rintro rfl
    cases passes
  · rintro id rfl
    cases passes
  · rintro id exc rfl
    cases passes

/-- One request is answered with 404 and another one sleeps until its retry. -/
theorem requests_conserved_retrying :
    ∃ state, Run (step oneWorker) (Conserving oneWorker) (State.boot {}) state ∧
      state.metrics.requestsFailedTerminal = 1 ∧ state.uncounted = 1 ∧
      state.metrics.requestsStarted =
        state.metrics.requestsSucceeded + state.metrics.requestsFailedTerminal +
          state.uncounted := by
  have passes : (executeChecked (step oneWorker) (isConserving oneWorker)
      (startLabels ++ rejectedLabels 2 ++ requestLabels 3 "http://example.com/" ++
        sendLabels 1 ++ answerLabels 1 500 2)
      (State.boot {})).any (fun state =>
        decide (state.metrics.requestsFailedTerminal = 1 ∧ state.uncounted = 1)) = true := by
    decide +kernel
  obtain ⟨state, run, tested⟩ :=
    exists_run_of_executeChecked (isConserving_sound oneWorker) passes
  obtain ⟨terminal, live⟩ := of_decide_eq_true tested
  exact ⟨state, run, terminal, live, (requests_conserved oneWorker {} 0 state run).1⟩

end HardenedClient
