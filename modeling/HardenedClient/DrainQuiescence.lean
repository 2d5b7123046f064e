import HardenedClient.GracefulStop

/-!
# What `drain()` waits for

`join()` wakes its waiter when the count of unfinished items comes down to zero, and the
waiter does not look at the count again when it resumes. An item that a retry puts on the
queue in between is neither waited for nor still a pending retry, so the drain returns
beside it. While nothing is put on the queue in between, a drain returns only when there is
no work left.
-/

namespace HardenedClient

open Foundation

/-- Where a task is in `drain()`, called by itself or from `stop()`. -/
def Task.drain? : Task → Option DrainPoint
  | .drainer point => some point
  | .stopper (.draining point) => some point
  | _ => none

namespace State

/-- A `join()` inside a drain has been woken and has not resumed. -/
def HasWokenDrain (state : State) : Prop :=
  ∃ id task since, state.tasks id = some task ∧ task.drain? = some (.joining since) ∧
    since < state.queue.joins

/-- The queue is empty, no item is inside `_handle` and no retry is pending. -/
structure Quiescent (state : State) : Prop where
  queue : state.queue.items = []
  handling : ∀ id item point, state.tasks id ≠ some (.worker (.handling item point))
  reschedules : ∀ id point, state.tasks id = some (.reschedule point) → point = .done

end State

/-- The step makes a `drain()` return. -/
def ReturnsDrain (state : State) (label : Label) : Prop :=
  ((label = .drain ∨ label = .stop ∧ state.session = true) ∧ state.enterDrain = .drained) ∨
    ∃ id choice task point, label = .step id choice ∧ state.tasks id = some task ∧
      task.drain? = some point ∧ state.stepDrain point = some .drained

/-- The step puts an item on the queue while a woken drain has not resumed. -/
def EnqueuesBesideWoken (state : State) (label : Label) : Prop :=
  (state.enqueues? label).isSome = true ∧ state.HasWokenDrain

namespace State

variable {env : Env} {state next : State} {label : Label} {id : ℕ}

/-! ## What a step does to the count -/

/-- A step leaves the count that `join()` waits for, marks an item done, or puts one on the
queue. -/
theorem count_cases
    (alive : label ≠ .crash)
    (moved : HardenedClient.step env label state = some next) :
    (next.queue.unfinished = state.queue.unfinished ∧ next.queue.joins = state.queue.joins) ∨
      next.queue = state.queue.taskDone ∨
      ∃ item, state.enqueues? label = some item ∧ next.queue = state.queue.put item := by
  have coroutine : ∀ {id choice task}, label = .step id choice →
      state.tasks id = some task → (∀ point, task ≠ .worker point) →
      (next.queue.unfinished = state.queue.unfinished ∧
        next.queue.joins = state.queue.joins) ∨
      next.queue = state.queue.taskDone ∨
      ∃ item, state.enqueues? label = some item ∧ next.queue = state.queue.put item := by
    rintro id choice task rfl current notWorker
    rcases stepTask_queue current notWorker moved with same | put
    · rw [same]
      exact Or.inl ⟨rfl, rfl⟩
    · exact Or.inr (Or.inr put)
  cases step_stepped moved with
  | crash => exact absurd rfl alive
  | caller current | upserted current | removed current | reschedule current
    | starter current | online current | drainer current | stopper current =>
      exact coroutine rfl current (by simp)
  | handled _ _ handled =>
      cases handled with
      | resolved | rejected =>
          rw [settleKey_eq]
          exact Or.inr (Or.inl rfl)
      | rescheduled => exact Or.inr (Or.inl rfl)
      | _ => exact Or.inl ⟨rfl, rfl⟩
  | escaped _ _ escaped =>
      obtain ⟨_⟩ := escaped
      exact Or.inr (Or.inl rfl)
  | cancelHandling => exact Or.inr (Or.inl rfl)
  | _ => exact Or.inl ⟨rfl, rfl⟩

/-! ## The steps of a drain -/

theorem afterJoin_ne_joining
    (state : State)
    (since : ℕ) :
    state.afterJoin ≠ .joining since := by
  unfold afterJoin
  split_ifs <;> simp

/-- A drain that waits for the queue waits from now on. -/
theorem joining_of_enterDrain
    {since : ℕ}
    (enters : state.enterDrain = .joining since) :
    since = state.queue.joins := by
  unfold enterDrain at enters
  split_ifs at enters
  · exact absurd enters (state.afterJoin_ne_joining since)
  · exact (DrainPoint.joining.inj enters).symm

theorem joining_of_stepDrain
    {point : DrainPoint}
    {since : ℕ}
    (steps : state.stepDrain point = some (.joining since)) :
    since = state.queue.joins := by
  cases point <;> simp only [stepDrain] at steps
  · split_ifs at steps
    exact absurd (Option.some.inj steps) (state.afterJoin_ne_joining since)
  · split_ifs at steps
    exact joining_of_enterDrain (Option.some.inj steps)
  · cases steps

/-- The call that a drain belongs to moves on to the next await. -/
theorem drain_of_afterDrain
    {point after : DrainPoint}
    {task : Task}
    (current : (state.afterDrain id point).tasks id = some task)
    (drains : task.drain? = some after) :
    point = after := by
  cases point <;> simp only [afterDrain, setTask_tasks_self, Option.some.injEq] at current <;>
    subst current <;> first | exact Option.some.inj drains | cases drains

theorem queue_afterDrain
    (state : State)
    (id : ℕ)
    (point : DrainPoint) :
    (state.afterDrain id point).queue = state.queue := by
  cases point <;> rfl

/-- A drain waits for the queue because it did before, or because the step has made it look
at the queue. -/
theorem joining_origin
    {task : Task}
    {since : ℕ}
    (tidy : state.Tidy)
    (moved : HardenedClient.step env label state = some next)
    (current : next.tasks id = some task)
    (joins : task.drain? = some (.joining since)) :
    state.tasks id = some task ∨
      (since = state.queue.joins ∧ next.queue = state.queue) := by
  have stepped := step_stepped moved
  rcases stepped.origin tidy current with ⟨before, _⟩ | ⟨rfl, alive⟩ | born
  · exact Or.inl before
  swap
  · cases born <;> cases joins
  cases stepped with
  | crash => exact absurd rfl alive
  | outside | purged => exact Or.inl current
  | drain =>
      simp only [Label.actor, setTask_tasks_self, Option.some.injEq] at current
      rw [← current] at joins
      exact Or.inr ⟨joining_of_enterDrain (Option.some.inj joins), rfl⟩
  | stop _ idle =>
      have unborn : state.tasks state.spawned = none := tidy _ (Nat.le_refl _)
      simp only [HardenedClient.step, callStop, idle, Bool.false_eq_true, if_false] at moved
      split_ifs at moved
      · rw [← Option.some.inj moved] at current ⊢
        exact Or.inr ⟨joining_of_enterDrain (drain_of_afterDrain current joins),
          queue_afterDrain _ _ _⟩
      · rw [← Option.some.inj moved] at current
        cases unborn.symm.trans current
  | drainer before =>
      simp only [HardenedClient.step, stepTask, before] at moved
      obtain ⟨_, point, steps, same⟩ := stepDrainer_eq_some_iff.mp moved
      rw [← same] at current ⊢
      simp only [Label.actor, setTask_tasks_self, Option.some.injEq] at current
      rw [← current] at joins
      rw [Option.some.inj joins] at steps
      exact Or.inr ⟨joining_of_stepDrain steps, rfl⟩
  | @stopper _ choice point _ _ _ _ _ _ before =>
      simp only [HardenedClient.step, stepTask, before] at moved
      cases point <;> cases choice <;> simp only [stepStopper, reduceCtorEq] at moved
      case draining.proceed drain =>
        obtain ⟨after, steps, same⟩ := Option.map_eq_some_iff.mp moved
        rw [← same] at current ⊢
        rw [drain_of_afterDrain current joins] at steps
        exact Or.inr ⟨joining_of_stepDrain steps, queue_afterDrain _ _ _⟩
      all_goals
        try split_ifs at moved
        rw [← Option.some.inj moved] at current
        simp only [Label.actor, setTask_tasks_self, Option.some.injEq] at current
        rw [← current] at joins
        cases joins
  | handled _ _ handled =>
      obtain ⟨_, isWorker⟩ := handled.worker
      rw [← Option.some.inj (isWorker.symm.trans current)] at joins
      cases joins
  | escaped _ _ escaped =>
      obtain ⟨_, isWorker⟩ := escaped.worker
      rw [← Option.some.inj (isWorker.symm.trans current)] at joins
      cases joins
  | _ =>
      simp only [Label.actor, setTask_tasks_self, moveTo_tasks_self, online_tasks_self,
        Option.some.injEq] at current
      rw [← current] at joins
      cases joins

/-! ## The invariant -/

/-- A drain that was woken finds nothing unfinished when it resumes. -/
structure Joined (state : State) : Prop where
  counted : state.Counted
  since : ∀ id task since, state.tasks id = some task → task.drain? = some (.joining since) →
    since ≤ state.queue.joins ∧ (since < state.queue.joins → state.queue.unfinished = 0)

theorem Joined.boot (tables : Tables) (now : ℚ) (history : List Event) :
    (boot tables now history).Joined where
  counted := .boot tables now history
  since := fun _ _ _ current => by cases current

/-- A step that puts nothing on the queue beside a woken drain. -/
theorem Joined.step
    (joined : state.Joined)
    (alone : ¬ EnqueuesBesideWoken state label)
    (moved : HardenedClient.step env label state = some next) :
    next.Joined := by
  have stepped := step_stepped moved
  refine ⟨joined.counted.step stepped, fun id task since current joins => ?_⟩
  by_cases crashed : label = .crash
  · subst crashed
    rw [stepped.boot_of_crash] at current
    cases current
  rcases joining_origin joined.counted.tidy moved current joins with before | ⟨same, queue⟩
  · obtain ⟨past, woken⟩ := joined.since id task since before joins
    rcases count_cases crashed moved with ⟨unfinished, joinsSame⟩ | done | ⟨item, puts, put⟩
    · rw [unfinished, joinsSame]
      exact ⟨past, woken⟩
    · -- the count comes down to zero exactly when `join()` wakes its waiters
      simp only [done, RequestQueue.taskDone]
      split_ifs with last
      · omega
      · exact ⟨past, fun wakes => by have := woken wakes; omega⟩
    · have asleep : ¬ since < state.queue.joins := fun wakes =>
        alone ⟨by rw [puts]; rfl, id, task, since, before, joins, wakes⟩
      rw [put]
      exact ⟨past, fun wakes => absurd wakes asleep⟩
  · rw [queue, same]
    exact ⟨le_refl _, fun wakes => absurd wakes (lt_irrefl _)⟩

/-! ## The return of a drain -/

theorem pendingReschedules_of_returnsDrain
    (returns : ReturnsDrain state label) :
    state.pendingReschedules = [] := by
  rcases returns with ⟨_, ended⟩ | ⟨_, _, _, _, _, _, _, ended⟩
  · exact pendingReschedules_of_enterDrain ended
  · exact pendingReschedules_of_stepDrain ended

theorem unfinished_of_enterDrain
    (ended : state.enterDrain = .drained) :
    state.queue.unfinished = 0 := by
  unfold enterDrain at ended
  split_ifs at ended with finished
  exact finished

/-- A drain ends with nothing unfinished. -/
theorem Joined.unfinished
    (joined : state.Joined)
    (returns : ReturnsDrain state label) :
    state.queue.unfinished = 0 := by
  rcases returns with ⟨_, ended⟩ | ⟨id, _, task, point, _, current, drains, ended⟩
  · exact unfinished_of_enterDrain ended
  · cases point <;> simp only [stepDrain] at ended
    case joining since =>
      split_ifs at ended with wakes
      exact (joined.since id task since current drains).2 wakes
    case gathering pending =>
      split_ifs at ended
      exact unfinished_of_enterDrain (Option.some.inj ended)
    case drained => cases ended

/-- The return of a drain changes only the task that called it. -/
theorem next_of_returnsDrain
    (returns : ReturnsDrain state label)
    (moved : HardenedClient.step env label state = some next) :
    next.queue = state.queue ∧
      ∀ id point, next.tasks id = some (.reschedule point) →
        state.tasks id = some (.reschedule point) := by
  have changed : ∀ {id : ℕ} {task : Task} {point : ReschedulePoint} {other : ℕ},
      (∀ point, task ≠ .reschedule point) →
      Function.update state.tasks id (some task) other = some (.reschedule point) →
        state.tasks other = some (.reschedule point) := by
    intro id task point other notRetry found
    by_cases same : other = id
    · rw [same, Function.update_self] at found
      exact absurd (Option.some.inj found) (notRetry point)
    · rwa [Function.update_of_ne same] at found
  rcases returns with ⟨rfl | ⟨rfl, serving⟩, ended⟩ |
    ⟨id, choice, task, point, rfl, current, drains, ended⟩
  · rw [← Option.some.inj moved]
    exact ⟨rfl, fun other point found => changed (by simp) found⟩
  · simp only [HardenedClient.step, callStop, serving, if_true, Option.ite_none_left_eq_some,
      Option.some.injEq] at moved
    rw [← moved.2, ended]
    exact ⟨rfl, fun other point found => changed (by simp) found⟩
  · simp only [HardenedClient.step, stepTask, current] at moved
    cases task with
    | drainer before =>
        cases Option.some.inj drains
        obtain ⟨_, after, _, rfl⟩ := stepDrainer_eq_some_iff.mp moved
        exact ⟨rfl, fun other point found => changed (by simp) found⟩
    | stopper before =>
        cases before with
        | draining before =>
            cases Option.some.inj drains
            cases choice <;> simp only [stepStopper, reduceCtorEq] at moved
            simp only [ended, Option.map_some, Option.some.injEq] at moved
            rw [← moved]
            exact ⟨rfl, fun other point found => changed (by simp) found⟩
        | _ => cases drains
    | _ => cases drains

theorem Joined.quiescent
    (joined : state.Joined)
    (returns : ReturnsDrain state label)
    (moved : HardenedClient.step env label state = some next) :
    next.Quiescent := by
  obtain ⟨queue, retries⟩ := next_of_returnsDrain returns moved
  have finished : next.queue.unfinished = 0 := by
    rw [queue]
    exact joined.unfinished returns
  obtain ⟨empty, idle⟩ := (joined.counted.step (step_stepped moved)).idle finished
  refine ⟨empty, idle, fun id point current => ?_⟩
  exact joined.counted.tidy.reschedule_done (pendingReschedules_of_returnsDrain returns)
    (retries id point current)

end State

/-- In every run in which nothing is put on the queue between the moment `join()` wakes a
drain and the drain's resumption: when a `drain()` returns, the queue is empty, no item is
inside `_handle` and no retry is pending. -/
theorem drain_returns_quiescent
    (env : Env)
    (tables : Tables)
    (now : ℚ)
    (state next : State)
    (label : Label)
    (run : Run (step env) (fun before label => ¬ EnqueuesBesideWoken before label)
      (State.boot tables now) state)
    (moved : step env label state = some next)
    (returns : ReturnsDrain state label) :
    next.Quiescent := by
  have joined : state.Joined := by
    apply run.invariant State.Joined
    · exact State.Joined.boot tables now []
    · intro before label after joined alone moved
      exact joined.step alone moved
  exact joined.quiescent returns moved

/-! ## A retry beside a woken drain -/

/-- A request is answered with 500 and sleeps until its retry; another one is being sent
when `drain()` is called. -/
def drainLabels : List Label :=
  startLabels ++ requestLabels 2 "http://example.org/first" ++ sendLabels 1 ++
    answerLabels 1 500 2 ++ requestLabels 4 "http://example.org/second" ++ sendLabels 1 ++ [.drain]

/-- The second request is answered, which wakes the drain, and the retry of the first one
goes on the queue before the drain resumes. -/
def overtakenLabels : List Label :=
  drainLabels ++ answerLabels 1 200 3 ++ proceedLabels 3 2

/-- A drain has returned. -/
def DrainPoint.isDrained : DrainPoint → Bool
  | .drained => true
  | _ => false

/-- A check for the return of the drain `id`. -/
def returnsDrain (state : State) (id : ℕ) : Bool :=
  match state.tasks id with
  | some (.drainer point) => (state.stepDrain point).any DrainPoint.isDrained
  | _ => false

theorem returnsDrain_sound
    {state : State}
    {id : ℕ}
    (passes : returnsDrain state id = true) :
    ReturnsDrain state (.step id .proceed) := by
  unfold returnsDrain at passes
  split at passes
  · next point current =>
      obtain ⟨after, steps, drained⟩ := (Option.any_eq_true _ _).mp passes
      cases after <;> cases drained
      exact Or.inr ⟨id, .proceed, _, point, rfl, current, rfl, steps⟩
  · cases passes

theorem drain_returns_not_quiescent :
    ∃ state next, Reachable (step oneWorker) (State.boot {}) state ∧
      step oneWorker (.step 5 .proceed) state = some next ∧
      ReturnsDrain state (.step 5 .proceed) ∧ ¬ next.Quiescent := by
  have passes : (executeChecked (step oneWorker) (fun _ _ => true) overtakenLabels
      (State.boot {})).any (fun state => returnsDrain state 5 &&
        (step oneWorker (.step 5 .proceed) state).any fun next =>
          !next.queue.items.isEmpty) = true := by
    decide +kernel
  obtain ⟨state, run, tested⟩ := exists_run_of_executeChecked (fun _ _ _ => trivial) passes
  rw [Bool.and_eq_true] at tested
  obtain ⟨next, moved, waiting⟩ := (Option.any_eq_true _ _).mp tested.2
  refine ⟨state, next, run, moved, returnsDrain_sound tested.1, fun quiescent => ?_⟩
  rw [quiescent.queue] at waiting
  cases waiting

/-- A drain at an await has not been woken by `join()`. -/
def DrainPoint.isAsleep (joins : ℕ) : DrainPoint → Bool
  | .joining since => decide (joins ≤ since)
  | _ => true

/-- A check for `EnqueuesBesideWoken` on replayed runs. -/
def enqueuesAlone (state : State) (label : Label) : Bool :=
  (state.enqueues? label).isNone ||
    state.allTasks fun task => task.drain?.all (DrainPoint.isAsleep state.queue.joins)

theorem enqueuesAlone_sound
    (state : State)
    (label : Label)
    (tidy : state.Tidy)
    (passes : enqueuesAlone state label = true) :
    ¬ EnqueuesBesideWoken state label := by
  rintro ⟨enqueues, id, task, since, current, drains, woken⟩
  rw [enqueuesAlone, Bool.or_eq_true] at passes
  rcases passes with puts | asleep
  · rw [Option.isNone_iff_eq_none.mp puts] at enqueues
    cases enqueues
  · have waits := tidy.forall_task asleep id task current
    simp only [drains, Option.all_some, DrainPoint.isAsleep, decide_eq_true_eq] at waits
    omega

/-- The drain resumes first, waits for the retry, and is woken again when it is answered. -/
def awaitedLabels : List Label :=
  drainLabels ++ answerLabels 1 200 3 ++ proceedLabels 5 1 ++ proceedLabels 3 2 ++
    proceedLabels 5 1 ++ sendLabels 1 ++ answerLabels 1 200 3

theorem drain_returns_quiescent_awaited :
    ∃ state next, Run (step oneWorker) (fun before label => ¬ EnqueuesBesideWoken before label)
        (State.boot {}) state ∧
      step oneWorker (.step 5 .proceed) state = some next ∧
      ReturnsDrain state (.step 5 .proceed) ∧ next.Quiescent := by
  have passes : (executeChecked (step oneWorker) enqueuesAlone awaitedLabels
      (State.boot {})).any (fun state => returnsDrain state 5 &&
        (step oneWorker (.step 5 .proceed) state).isSome) = true := by
    decide +kernel
  obtain ⟨state, checked, tested⟩ :=
    exists_run_of_executeChecked (fun _ _ passes => passes) passes
  have run : Run (step oneWorker) (fun before label => ¬ EnqueuesBesideWoken before label)
      (State.boot {}) state :=
    (checked.with_invariant State.Tidy (State.tidy_boot {} 0 []) fun _ _ _ tidy _ moved =>
      (step_stepped moved).tidy tidy).mono fun state label allowed =>
        enqueuesAlone_sound state label allowed.1 allowed.2
  rw [Bool.and_eq_true] at tested
  obtain ⟨next, moved⟩ := Option.isSome_iff_exists.mp tested.2
  have returns := returnsDrain_sound tested.1
  exact ⟨state, next, run, moved, returns,
    drain_returns_quiescent oneWorker {} 0 state next _ run moved returns⟩

end HardenedClient
