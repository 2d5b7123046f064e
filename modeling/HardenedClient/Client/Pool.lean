import HardenedClient.Client.Lifecycle

/-!
# The worker pool

Live workers belong to the pool of the client, and there is no pool while a
`start()` call is in progress or the session is closed. So nobody handles an item
during recovery.
-/

namespace HardenedClient

open Foundation

/-- The task is a worker that waits for an item or handles one. -/
def State.alive (state : State) (id : ℕ) : Bool :=
  match state.tasks id with
  | some (.worker .idle) | some (.worker (.handling _ _)) => true
  | _ => false

theorem alive_iff (state : State) (id : ℕ) :
    state.alive id = true ↔
      state.tasks id = some (.worker .idle) ∨
        ∃ item point, state.tasks id = some (.worker (.handling item point)) := by
  unfold State.alive
  split <;> simp_all

theorem Handled.alive
    {state next : State}
    {id : ℕ}
    {item : QueueItem}
    {point : HandlePoint}
    (handled : Handled state id item point next) :
    next.alive id = true ∧ next.workers = state.workers ∧
      next.cancelRequests = state.cancelRequests := by
  cases handled with
  | advanced | succeeded | failed | deleted | incremented | pushed | retired | rescheduled =>
      exact ⟨by simp [State.alive], rfl, rfl⟩
  | resolved | rejected =>
      rw [State.settleKey_eq]
      exact ⟨by simp [State.alive], rfl, rfl⟩

/-- The session is open from this await of `start()` on. -/
def StartPoint.serving : StartPoint → Bool
  | .listing | .recovering _ | .reenqueueing _ _ => true
  | _ => false

namespace State

variable {env : Env} {state next : State} {id : ℕ} {label : Label}

/-- Live workers belong to the pool, and there is no pool while a `start()` call
is in progress or the session is closed. -/
structure Pooled (state : State) : Prop extends state.Guarded where
  employed : ∀ id, state.alive id = true → id ∈ state.workers
  offline : state.session = false → state.workers = []
  starting : ∀ id point, state.tasks id = some (.starter point) →
    (Task.starter point).inLifecycle = true →
      state.workers = [] ∧ (point.serving = true → state.session = true)
  closing : ∀ id, state.tasks id = some (.stopper .closingSession) → state.workers = []

theorem Pooled.boot (tables : Tables) (now : ℚ) (history : List Event) :
    (boot tables now history).Pooled where
  toGuarded := .boot tables now history
  employed := fun _ living => by cases living
  offline := fun _ => rfl
  starting := fun _ _ current => by cases current
  closing := fun _ current => by cases current

/-- A task that was not a live worker does not become one by being replaced with
another that is none. -/
theorem alive_setTask
    {base : State}
    {task : Task}
    (tasks : base.tasks = state.tasks)
    (lives : (base.setTask id task).alive id = true → state.alive id = true)
    (other : ℕ)
    (living : (base.setTask id task).alive other = true) :
    state.alive other = true := by
  by_cases same : other = id
  · subst same
    exact lives living
  · simpa [alive, setTask, same, tasks] using living

/-- A step that keeps the pool and hires nobody, and does not close the session. -/
theorem Pooled.of_same
    (pooled : state.Pooled)
    (guarded : next.Guarded)
    (frame : Frame id state next)
    (living : ∀ other, next.alive other = true → state.alive other = true)
    (workers : next.workers = state.workers)
    (session : state.session = true → next.session = true)
    (starter : ∀ point, next.tasks id = some (.starter point) →
      (Task.starter point).inLifecycle = true →
        state.workers = [] ∧ (point.serving = true → next.session = true))
    (stopper : next.tasks id = some (.stopper .closingSession) → state.workers = []) :
    next.Pooled where
  toGuarded := guarded
  employed := fun other lives => workers ▸ pooled.employed other (living other lives)
  offline := by
    intro closed
    rw [workers]
    apply pooled.offline
    by_contra isOpen
    simp [session (by simpa using isOpen)] at closed
  starting := by
    intro other point current active
    rw [workers]
    by_cases isActor : other = id
    · exact starter point (isActor ▸ current) active
    · rcases frame.origin isActor current with before | born
      · obtain ⟨none, serving⟩ := pooled.starting other point before active
        exact ⟨none, fun late => session (serving late)⟩
      · cases born
  closing := by
    intro other current
    rw [workers]
    by_cases isActor : other = id
    · exact stopper (isActor ▸ current)
    · rcases frame.origin isActor current with before | born
      · exact pooled.closing other before
      · cases born

/-- What `start()` does when it is called: the session was closed. -/
theorem Pooled.callStart
    (pooled : state.Pooled)
    (guarded : next.Guarded)
    (moved : state.callStart = some next) :
    next.Pooled := by
  have called : ∀ point session, (session = true ∨ point = .opening) →
      state.session = false → next = ({ state with
        spawned := state.spawned + 1, session := session, lifecycle := true }.setTask
          state.spawned (.starter point)) → next.Pooled := by
    rintro point session serves closed rfl
    have none := pooled.offline closed
    refine pooled.of_same guarded (frame_call pooled.tidy rfl rfl)
      (alive_setTask rfl (by simp [alive])) rfl (by simp [closed]) ?_ (by simp)
    intro after current _
    simp only [setTask_tasks_self] at current
    cases current
    refine ⟨none, fun late => ?_⟩
    rcases serves with rfl | rfl
    · rfl
    · cases late
  simp only [State.callStart] at moved
  split_ifs at moved with busy serving connected
  · exact Option.some.inj moved ▸ pooled
  · exact called _ true (Or.inl rfl) (by simpa using serving) (Option.some.inj moved).symm
  · exact called _ state.session (Or.inr rfl) (by simpa using serving)
      (Option.some.inj moved).symm

/-- What `stop()` does when it is called. -/
theorem Pooled.callStop
    (pooled : state.Pooled)
    (guarded : next.Guarded)
    (moved : state.callStop = some next) :
    next.Pooled := by
  simp only [State.callStop] at moved
  split_ifs at moved
  · rw [← Option.some.inj moved] at guarded ⊢
    generalize state.enterDrain = drain at guarded ⊢
    cases drain <;>
      exact pooled.of_same guarded (frame_call pooled.tidy rfl rfl)
        (alive_setTask rfl (by simp [alive])) rfl (fun isOpen => isOpen)
        (by simp [afterDrain]) (by simp [afterDrain])
  · exact Option.some.inj moved ▸ pooled

/-- A step of `stop()`: the pool is given up when every worker has ended, before
the session is closed. -/
theorem Pooled.stepStopper
    {point : StopPoint}
    {choice : Choice}
    (pooled : state.Pooled)
    (guarded : next.Guarded)
    (current : state.tasks id = some (.stopper point))
    (moved : state.stepStopper id point choice = some next) :
    next.Pooled := by
  -- No `start()` call is in progress beside this one.
  have noStarter : (Task.stopper point).inLifecycle = true →
      ∀ other start, next.tasks other = some (.starter start) → other ≠ id →
        state.tasks other = some (.starter start) → (Task.starter start).inLifecycle = false := by
    intro active other start _ different found
    by_contra inside
    exact different (pooled.only other id _ _ found current (by simpa using inside) active)
  have unchanged : ∀ base : State, ∀ after, next = base.setTask id (.stopper after) →
      base.tasks = state.tasks → base.spawned = state.spawned →
      base.workers = state.workers → base.session = state.session →
      after ≠ .closingSession → next.Pooled := by
    rintro base after rfl tasks spawned workers session notClosing
    refine pooled.of_same guarded (frame_setTask pooled.tidy current tasks spawned)
      (alive_setTask tasks (by simp [alive])) workers (by simp [setTask, session]) (by simp) ?_
    intro isClosing
    simp only [setTask_tasks_self, Option.some.injEq, Task.stopper.injEq] at isClosing
    exact absurd isClosing notClosing
  cases point <;> cases choice <;> simp only [State.stepStopper, reduceCtorEq] at moved
  case draining.proceed =>
    obtain ⟨after, _, rfl⟩ := Option.map_eq_some_iff.mp moved
    cases after with
    | drained => exact unchanged _ _ rfl rfl rfl rfl rfl (by simp)
    | joining | gathering => exact unchanged _ _ rfl rfl rfl rfl rfl (by simp)
  case cancelling.proceed =>
    split_ifs at moved with allEnded
    rw [← Option.some.inj moved] at guarded noStarter ⊢
    refine ⟨guarded, fun other living => ?_, fun _ => rfl, ?_, fun _ _ => rfl⟩
    · have wasLiving := @alive_setTask state id { state with workers := [], cancelRequests := [] }
        (.stopper .closingSession) rfl (by simp [alive]) other living
      have ended := List.all_eq_true.mp allEnded other (pooled.employed other wasLiving)
      unfold workerEnded at ended
      rcases (alive_iff state other).mp wasLiving with idle | ⟨_, _, handling⟩
      · simp [idle] at ended
      · simp [handling] at ended
    · intro other start found active
      by_cases isActor : other = id
      · subst isActor
        simp at found
      · have before : state.tasks other = some (.starter start) := by
          simpa [setTask, isActor] using found
        simp [noStarter rfl other start found isActor before] at active
  case closingSession.proceed =>
    rw [← Option.some.inj moved] at guarded noStarter ⊢
    have none := pooled.closing id current
    refine ⟨guarded, fun other living => ?_, fun _ => none, ?_, fun _ _ => none⟩
    · exact pooled.employed other (@alive_setTask state id { state with session := false }
        (.stopper .closingStorage) rfl (by simp [alive]) other living)
    · intro other start found active
      by_cases isActor : other = id
      · subst isActor
        simp at found
      · have before : state.tasks other = some (.starter start) := by
          simpa [setTask, isActor] using found
        simp [noStarter rfl other start found isActor before] at active
  case closingStorage.proceed =>
    exact unchanged _ _ (Option.some.inj moved).symm rfl rfl rfl rfl (by simp)

/-- The end of `start()`: there were no workers, and the new ones are the pool. -/
theorem Pooled.online
    (pooled : state.Pooled)
    (guarded : (state.online env id).Guarded)
    (current : state.tasks id = some (.starter (.recovering []))) :
    (state.online env id).Pooled := by
  obtain ⟨none, serving⟩ := pooled.starting id _ current rfl
  have before : ∀ other task, (state.online env id).tasks other = some task → other ≠ id →
      task ≠ .worker .idle → state.tasks other = some task := by
    intro other task found different notIdle
    simp only [State.online, setTask, Function.update_of_ne different] at found
    split_ifs at found
    · exact absurd (Option.some.inj found).symm notIdle
    · exact found
  refine ⟨guarded, ?_, ?_, ?_, ?_⟩
  · intro other living
    by_cases isNew : state.spawned ≤ other ∧ other < state.spawned + env.config.queue.workers
    · apply List.mem_map.mpr
      exact ⟨other - state.spawned, List.mem_range.mpr (by omega), by omega⟩
    · by_cases isActor : other = id
      · subst isActor
        simp [alive] at living
      · have wasLiving : state.alive other = true := by
          simpa [alive, State.online, setTask, isActor, isNew] using living
        have := pooled.employed other wasLiving
        rw [none] at this
        cases this
  · intro closed
    have isOpen : (state.online env id).session = true := serving rfl
    rw [isOpen] at closed
    cases closed
  · intro other point found active
    by_cases isActor : other = id
    · subst isActor
      simp only [online_tasks_self] at found
      cases found
      cases active
    · exact absurd (pooled.only other id _ _ (before other _ found isActor (by simp)) current
        active rfl) isActor
  · intro other found
    by_cases isActor : other = id
    · subst isActor
      simp at found
    · exact absurd (pooled.only other id _ _ (before other _ found isActor (by simp)) current
        rfl rfl) isActor

/-- A step of `start()`: the session is opened before the rows are listed, and
the workers come online at the end. -/
theorem Pooled.stepStarter
    {point : StartPoint}
    {choice : Choice}
    (pooled : state.Pooled)
    (guarded : next.Guarded)
    (current : state.tasks id = some (.starter point))
    (moved : state.stepStarter env id point choice = some next) :
    next.Pooled := by
  have started := pooled.starting id point current
  have unchanged : (Task.starter point).inLifecycle = true → ∀ base : State, ∀ after,
      next = base.setTask id (.starter after) →
      base.tasks = state.tasks → base.spawned = state.spawned →
      base.workers = state.workers → (state.session = true → base.session = true) →
      (after.serving = true → base.session = true) → next.Pooled := by
    rintro active base after rfl tasks spawned workers session serves
    refine pooled.of_same guarded (frame_setTask pooled.tidy current tasks spawned)
      (alive_setTask tasks (by simp [alive])) workers session ?_ (by simp)
    intro later isLater _
    simp only [setTask_tasks_self, Option.some.injEq, Task.starter.injEq] at isLater
    exact ⟨(started active).1, isLater ▸ serves⟩
  cases point <;> cases choice <;>
    simp only [State.stepStarter, failStart, reduceCtorEq] at moved
  case preparing.proceed =>
    exact unchanged rfl _ _ (Option.some.inj moved).symm rfl rfl rfl (fun _ => rfl) fun _ => rfl
  case recovering.proceed rows =>
    have serving := (started rfl).2 rfl
    cases rows with
    | nil =>
        rw [← Option.some.inj moved] at guarded ⊢
        exact pooled.online guarded current
    | cons row rows =>
        simp only [recoverRow] at moved
        split at moved
        all_goals
          exact unchanged rfl _ _ (Option.some.inj moved).symm rfl rfl rfl (fun isOpen => isOpen)
            fun _ => serving
  case reenqueueing.proceed item rows =>
    split_ifs at moved
    exact unchanged rfl _ _ (Option.some.inj moved).symm rfl rfl rfl (fun isOpen => isOpen)
      fun _ => (started rfl).2 rfl
  case listing.proceed =>
    split_ifs at moved
    · exact unchanged rfl _ _ (Option.some.inj moved).symm rfl rfl rfl (fun isOpen => isOpen)
        fun _ => (started rfl).2 rfl
    · exact unchanged rfl _ _ (Option.some.inj moved).symm rfl rfl rfl (fun isOpen => isOpen)
        (by simp [StartPoint.serving])
  all_goals
    exact unchanged rfl _ _ (Option.some.inj moved).symm rfl rfl rfl (fun isOpen => isOpen)
      (by simp [StartPoint.serving])

/-- Live workers belong to the pool in every reachable state, and there is none
during `start()`. -/
theorem Pooled.step
    (pooled : state.Pooled)
    (moved : HardenedClient.step env label state = some next) :
    next.Pooled := by
  have stepped := step_stepped moved
  have guarded := pooled.toGuarded.step stepped
  by_cases crashed : label = .crash
  · subst crashed
    rw [stepped.boot_of_crash]
    exact .boot _ _ _
  have frame := stepped.frame pooled.tidy crashed
  have unborn : state.alive state.spawned = false := by
    simp [alive, pooled.tidy state.spawned (Nat.le_refl _)]
  cases stepped with
  | crash => exact absurd rfl crashed
  | outside isOutside =>
      have actor : label.actor state = state.spawned := by
        cases label <;> first | rfl | cases isOutside
      rw [actor] at frame
      apply pooled.of_same guarded frame (fun _ lives => lives) rfl (fun isOpen => isOpen)
      · intro point found
        simp [pooled.tidy state.spawned (Nat.le_refl _)] at found
      · intro found
        simp [pooled.tidy state.spawned (Nat.le_refl _)] at found
  | purged =>
      apply pooled.of_same guarded frame (fun _ lives => lives) rfl (fun isOpen => isOpen)
      · intro point found
        simp [record, Label.actor, pooled.tidy state.spawned (Nat.le_refl _)] at found
      · intro found
        simp [record, Label.actor, pooled.tidy state.spawned (Nat.le_refl _)] at found
  | start => exact pooled.callStart guarded moved
  | stop => exact pooled.callStop guarded moved
  | stopper current =>
      apply pooled.stepStopper guarded current
      simpa [HardenedClient.step, stepTask, current] using moved
  | starter current =>
      apply pooled.stepStarter guarded current
      simpa [HardenedClient.step, stepTask, current] using moved
  | online current =>
      apply pooled.stepStarter guarded current
      simpa [HardenedClient.step, stepTask, current] using moved
  | request | replay | drain | caller | upserted | removed | cancelCaller
    | cancelIdle | cancelHandling | reschedule | drainer =>
      apply pooled.of_same guarded frame (alive_setTask rfl (by simp [alive])) rfl
        (fun isOpen => isOpen)
      · simp [Label.actor]
      · simp [Label.actor]
  | cancelStarter =>
      apply pooled.of_same guarded frame (alive_setTask rfl (by simp [alive])) rfl
        (fun isOpen => isOpen)
      · intro point found active
        simp only [Label.actor, setTask_tasks_self, Option.some.injEq,
          Task.starter.injEq] at found
        subst found
        cases active
      · simp [Label.actor]
  | taken current =>
      apply pooled.of_same guarded frame
        (alive_setTask rfl fun _ => (alive_iff _ _).mpr (Or.inl current)) rfl
        (fun isOpen => isOpen)
      · simp [Label.actor]
      · simp [Label.actor]
  | @handled id choice item point next current _ handled =>
      have wasLiving := (alive_iff state id).mpr (Or.inr ⟨item, point, current⟩)
      obtain ⟨after, isWorker⟩ := handled.worker
      have same : next.workers = state.workers ∧ next.session = state.session := by
        refine ⟨handled.alive.2.1, ?_⟩
        cases handled with
        | resolved | rejected =>
            rw [settleKey_eq]
            rfl
        | _ => rfl
      apply pooled.of_same guarded frame _ same.1 (fun isOpen => same.2.trans isOpen)
      · simp [Label.actor, isWorker]
      · simp [Label.actor, isWorker]
      · cases handled with
        | resolved | rejected =>
            rw [settleKey_eq]
            exact alive_setTask rfl fun _ => wasLiving
        | rescheduled =>
            intro other living
            by_cases isActor : other = id
            · exact isActor ▸ wasLiving
            · by_cases isNew : other = state.spawned
              · subst isNew
                simp [alive, endHandle, spawn, setTask, isActor] at living
              · simpa [alive, endHandle, spawn, setTask, isActor, isNew] using living
        | _ => exact alive_setTask rfl fun _ => wasLiving
  | escaped _ _ escaped =>
      obtain ⟨_⟩ := escaped
      apply pooled.of_same guarded frame (alive_setTask rfl (by simp [alive])) rfl
        (fun isOpen => isOpen)
      · simp [Label.actor]
      · simp [Label.actor]

end State

end HardenedClient
