import HardenedClient.Client.Uptime
import HardenedClient.StartCompletion

/-!
# A `start()` call that fails

`start()` publishes the connection, then the session, then registry entries and
queue items, and takes none of them back when it raises. So it leaves a stopped
client behind only when it fails before there is a connection.
-/

namespace HardenedClient

open Foundation

/-- Every pending future in the registry is that of a work item. -/
def State.Attended (state : State) : Prop :=
  ∀ key future, state.dedup.pendingFuture? key = some future →
    ∃ place item, state.itemAt place = some item ∧ item.flight = future

/-- The client is not started: it has neither session nor connection, nobody
waits for an item that is not there, `request()` is refused and queues nothing,
and `start()` begins with the connection. -/
structure LeftStopped (env : Env) (state : State) : Prop where
  sessionless : state.session = false
  disconnected : state.connected = false
  attended : state.Attended
  refuses : ∀ request, ∃ after, step env (.request request) state = some after ∧
    after.tasks state.spawned = some (.caller none (.raised notStarted)) ∧
    after.queue = state.queue ∧ after.dedup = state.dedup
  restarts : ∃ after, step env .start state = some after ∧
    after.tasks state.spawned = some (.starter .opening)

variable {env : Env} {state next : State} {label : Label} {id : ℕ} {point : StartPoint}

/-! ## What is published at each await -/

/-- A step leaves the session and the connection as they are, or is one of a
`start()` or `stop()` call. -/
theorem Stepped.opens
    (stepped : Stepped env state label next)
    (alive : label ≠ .crash) :
    (next.session = state.session ∧ next.connected = state.connected) ∨
      (label = .start ∧ state.lifecycle = false) ∨
      ∃ task, state.tasks (label.actor state) = some task ∧ task.inLifecycle = true := by
  cases stepped with
  | crash => exact absurd rfl alive
  | start _ idle => exact Or.inr (Or.inl ⟨rfl, idle⟩)
  | starter current _ _ _ active | stopper current _ active =>
      exact Or.inr (Or.inr ⟨_, current, active⟩)
  | handled _ _ handled =>
      refine Or.inl ?_
      cases handled with
      | resolved | rejected =>
          rw [State.settleKey_eq]
          exact ⟨rfl, rfl⟩
      | _ => exact ⟨rfl, rfl⟩
  | escaped _ _ escaped =>
      obtain ⟨_⟩ := escaped
      exact Or.inl ⟨rfl, rfl⟩
  | _ => exact Or.inl ⟨rfl, rfl⟩

namespace State

/-- A `start()` call that has not opened the session finds the connection made
exactly when it made it itself. -/
structure Published (state : State) : Prop extends state.Pooled where
  unopened : ∀ id point, state.tasks id = some (.starter point) → point.unopened = true →
    state.session = false ∧ (state.connected = true ↔ point = .preparing)

theorem Published.boot (tables : Tables) (now : ℚ) (history : List Event) :
    (boot tables now history).Published where
  toPooled := .boot tables now history
  unopened := fun _ _ current => by cases current

/-- The connection is made from one of these awaits to the other. -/
theorem stepStarter_unopened
    {before : StartPoint}
    {choice : Choice}
    (moved : state.stepStarter env id before choice = some next)
    (current : next.tasks id = some (.starter point))
    (isUnopened : point.unopened = true) :
    before = .opening ∧ point = .preparing ∧
      next.session = state.session ∧ next.connected = true := by
  cases before <;> cases choice <;>
    simp only [State.stepStarter, failStart, reduceCtorEq] at moved
  case opening.proceed =>
    rw [← Option.some.inj moved] at current ⊢
    rw [setTask_tasks_self] at current
    cases current
    exact ⟨rfl, rfl, rfl, rfl⟩
  case recovering.proceed rows =>
    cases rows with
    | nil =>
        rw [← Option.some.inj moved, online_tasks_self] at current
        cases current
        cases isUnopened
    | cons row rows =>
        rw [← Option.some.inj moved] at current
        rcases recoverRow_point state id row rows with passed | ⟨item, owned⟩
        · rw [passed] at current
          cases current
          cases isUnopened
        · rw [owned] at current
          cases current
          cases isUnopened
  all_goals
    try split_ifs at moved
    all_goals
      rw [← Option.some.inj moved, setTask_tasks_self] at current
      cases current
      cases isUnopened

/-- A new `start()` call that has no session yet has no connection either. -/
theorem callStart_unopened
    (unborn : state.tasks state.spawned = none)
    (moved : state.callStart = some next)
    (current : next.tasks state.spawned = some (.starter point))
    (isUnopened : point.unopened = true) :
    next.session = false ∧ (next.connected = true ↔ point = .preparing) := by
  simp only [State.callStart] at moved
  split_ifs at moved with busy serving connected
  · rw [← Option.some.inj moved, unborn] at current
    cases current
  · rw [← Option.some.inj moved] at current
    cases (spawn_tasks_self _ _).symm.trans current
    cases isUnopened
  · have closed : state.session = false := by simpa using serving
    rw [← Option.some.inj moved] at current ⊢
    cases (spawn_tasks_self _ _).symm.trans current
    exact ⟨closed, by simp [spawn, connected]⟩

/-- A step of a `start()` call, or the call itself. -/
theorem Published.unopened_of_actor
    (published : state.Published)
    (moved : HardenedClient.step env label state = some next)
    (alive : label ≠ .crash)
    (current : next.tasks (label.actor state) = some (.starter point))
    (isUnopened : point.unopened = true) :
    next.session = false ∧ (next.connected = true ↔ point = .preparing) := by
  have unborn := published.tidy state.spawned (Nat.le_refl _)
  have goes : ∀ id choice before, state.tasks id = some (.starter before) →
      state.stepStarter env id before choice = some next →
      next.tasks id = some (.starter point) →
        next.session = false ∧ (next.connected = true ↔ point = .preparing) := by
    intro id choice before there moved current
    obtain ⟨rfl, rfl, session, connected⟩ := stepStarter_unopened moved current isUnopened
    exact ⟨session.trans (published.unopened id _ there rfl).1, by simp [connected]⟩
  cases step_stepped moved with
  | crash => exact absurd rfl alive
  | start => exact callStart_unopened unborn moved current isUnopened
  | starter there | online there =>
      simp only [HardenedClient.step, stepTask, there] at moved
      exact goes _ _ _ there moved current
  | outside isOutside =>
      have actor : label.actor state = state.spawned := by
        cases label <;> first | rfl | cases isOutside
      rw [actor] at current
      cases unborn.symm.trans current
  | purged => cases unborn.symm.trans current
  | cancelStarter =>
      rw [Label.actor, setTask_tasks_self] at current
      cases current
      cases isUnopened
  | handled _ _ handled =>
      obtain ⟨_, isWorker⟩ := handled.worker
      cases isWorker.symm.trans current
  | escaped _ _ escaped =>
      obtain ⟨_, isWorker⟩ := escaped.worker
      cases isWorker.symm.trans current
  | _ => simp [Label.actor] at current

/-- The await a `start()` call is at tells what it has published. -/
theorem Published.step
    (published : state.Published)
    (moved : HardenedClient.step env label state = some next) :
    next.Published := by
  have stepped := step_stepped moved
  refine ⟨published.toPooled.step moved, fun id point current isUnopened => ?_⟩
  by_cases crashed : label = .crash
  · subst crashed
    rw [stepped.boot_of_crash] at current
    cases current
  by_cases isActor : id = label.actor state
  · subst isActor
    exact published.unopened_of_actor moved crashed current isUnopened
  · -- nobody else opens or closes anything while the call is in progress
    rcases (stepped.frame published.tidy crashed).origin isActor current with there | born
    swap
    · cases born
    have active := inLifecycle_of_unopened isUnopened
    rcases stepped.opens crashed with ⟨session, connected⟩ | ⟨_, idle⟩ | ⟨task, acts, inside⟩
    · rw [session, connected]
      exact published.unopened id point there isUnopened
    · rw [published.locked id _ there active] at idle
      cases idle
    · exact absurd (published.only id _ _ task there acts active inside) isActor

end State

/-! ## The failure -/

theorem eq_failStart_of_stepStarter
    {choice : Choice}
    {exc : PyException}
    (moved : state.stepStarter env id point choice = some next)
    (raised : next.tasks id = some (.starter (.failed exc))) :
    next = state.failStart id exc := by
  cases point <;> cases choice <;> simp only [State.stepStarter, reduceCtorEq] at moved
  case recovering.proceed rows =>
    cases rows with
    | nil =>
        rw [← Option.some.inj moved, State.online_tasks_self] at raised
        cases raised
    | cons row rows =>
        rw [← Option.some.inj moved] at raised
        rcases recoverRow_point state id row rows with passed | ⟨item, owned⟩
        · cases passed.symm.trans raised
        · cases owned.symm.trans raised
  all_goals
    try split_ifs at moved
    all_goals
      rw [← Option.some.inj moved] at raised ⊢
      simp only [State.failStart, State.setTask_tasks_self, Option.some.injEq,
        Task.starter.injEq, StartPoint.failed.injEq, reduceCtorEq] at raised
      try rw [raised]

/-- A `start()` call that raises takes nothing back. -/
theorem eq_failStart_of_raised
    {exc : PyException}
    (tidy : state.Tidy)
    (current : state.tasks id = some (.starter point))
    (active : (Task.starter point).inLifecycle = true)
    (moved : step env label state = some next)
    (raised : next.tasks id = some (.starter (.failed exc))) :
    next = state.failStart id exc := by
  have known := tidy.lt_of_task current
  have alive : label ≠ .crash := by
    rintro rfl
    rw [(step_stepped moved).boot_of_crash] at raised
    cases raised
  have isActor : id = label.actor state := by
    by_contra different
    have same := ((step_stepped moved).frame tidy alive).others id known different
    cases (current.symm.trans same.symm).trans raised
    cases active
  cases label with
  | step actor choice =>
      obtain rfl : id = actor := isActor
      simp only [step, State.stepTask, current] at moved
      exact eq_failStart_of_stepStarter moved raised
  | cancel actor =>
      obtain rfl : id = actor := isActor
      have cancelled : next = state.failStart id .cancelledError := by
        cases point <;> simp_all [step, State.cancelTask, State.failStart]
      rw [cancelled, State.failStart, State.setTask_tasks_self] at raised
      cases raised
      exact cancelled
  | cancelWorker actor =>
      obtain rfl : id = actor := isActor
      simp [step, State.cancelWorker, current] at moved
  | _ => exact absurd isActor known.ne

/-- Giving up the lock touches no future and no work item. -/
theorem attended_failStart_iff
    {exc : PyException}
    (current : state.tasks id = some (.starter .opening)) :
    (state.failStart id exc).Attended ↔ state.Attended := by
  have items : (state.failStart id exc).itemAt = state.itemAt := by
    funext place
    cases place with
    | queue position => rfl
    | agent other =>
        by_cases isActor : other = id
        · subst isActor
          simp [State.itemAt, State.failStart, current, Task.item?]
        · simp [State.itemAt, State.failStart, State.setTask, isActor]
  rw [State.Attended, items]
  rfl

/-- Without session and connection, the checks of `request()` and `start()` do the
rest. -/
theorem LeftStopped.of_closed
    (closed : state.session = false)
    (disconnected : state.connected = false)
    (unlocked : state.lifecycle = false)
    (attended : state.Attended) :
    LeftStopped env state where
  sessionless := closed
  disconnected := disconnected
  attended := attended
  refuses := fun request => by
    refine ⟨_, rfl, ?_⟩
    simp only [State.callRequest, closed, Bool.false_eq_true, if_false, State.setTask_tasks_self,
      true_and]
    exact ⟨rfl, rfl⟩
  restarts := by
    simp [step, State.callStart, unlocked, closed, disconnected]

/-- The client is left stopped by a `start()` call that fails, or is cancelled,
before there is a connection, unless futures had been left without their items
before; at every later await it is not. -/
theorem failed_start_leaves_stopped_iff
    {tables : Tables}
    {now : ℚ}
    {exc : PyException}
    (reached : Reachable (step env) (State.boot tables now) state)
    (current : state.tasks id = some (.starter point))
    (active : (Task.starter point).inLifecycle = true)
    (moved : step env label state = some next)
    (raised : next.tasks id = some (.starter (.failed exc))) :
    LeftStopped env next ↔ point = .opening ∧ state.Attended := by
  have published : state.Published :=
    reached.invariant State.Published (.boot tables now []) fun _ _ _ published _ moved =>
      published.step moved
  obtain rfl := eq_failStart_of_raised published.tidy current active moved raised
  constructor
  · intro stopped
    have early : point = .opening := by
      by_contra late
      have serves : point.serving = true := by
        cases point with
        | opening => exact absurd rfl late
        | preparing =>
            have connected := (published.unopened id .preparing current rfl).2.mpr rfl
            cases connected.symm.trans stopped.disconnected
        | listing | recovering | reenqueueing => rfl
        | started | failed => cases active
      have isOpen := (published.starting id point current active).2 serves
      cases isOpen.symm.trans stopped.sessionless
    subst early
    exact ⟨rfl, (attended_failStart_iff current).mp stopped.attended⟩
  · rintro ⟨rfl, attended⟩
    obtain ⟨closed, connects⟩ := published.unopened id .opening current rfl
    have disconnected : state.connected = false := by simpa using connects
    exact .of_closed closed disconnected rfl ((attended_failStart_iff current).mpr attended)

/-- The rows cannot be listed. -/
def diskError : PyException := .exception "OperationalError" "disk I/O error"

/-- `start()` fails when it lists the rows: the session is open, so the next
`start()` returns at once, and the client has no workers. -/
theorem not_leftStopped_listing :
    ∃ state next, Reachable (step oneWorker) (State.boot {}) state ∧
      state.tasks 0 = some (.starter .listing) ∧
      step oneWorker (.step 0 (.storageError diskError)) state = some next ∧
      next.tasks 0 = some (.starter (.failed diskError)) ∧
      next.session = true ∧ next.workers = [] ∧ step oneWorker .start next = some next ∧
      ¬ LeftStopped oneWorker next := by
  have called : Reachable (step oneWorker) (State.boot {}) _ :=
    .single trivial (show step oneWorker .start _ = some _ from rfl)
  have prepared := called.tail trivial (show step oneWorker (.step 0 .proceed) _ = some _ from rfl)
  have reached := prepared.tail trivial (show step oneWorker (.step 0 .proceed) _ = some _ from rfl)
  exact ⟨_, _, reached, rfl, rfl, rfl, rfl, rfl, rfl, fun stopped => by cases stopped.sessionless⟩

/-- `start()` fails when it connects. -/
theorem failed_start_leaves_stopped_iff_connecting :
    ∃ state next, Reachable (step oneWorker) (State.boot {}) state ∧
      step oneWorker (.step 0 (.storageError diskError)) state = some next ∧
      LeftStopped oneWorker next := by
  have reached : Reachable (step oneWorker) (State.boot {}) _ :=
    .single trivial (show step oneWorker .start _ = some _ from rfl)
  refine ⟨_, _, reached, rfl, ?_⟩
  refine (failed_start_leaves_stopped_iff reached (show State.tasks _ 0 = some _ from rfl) rfl
    (show step oneWorker (.step 0 (.storageError diskError)) _ = some _ from rfl) rfl).mpr ?_
  exact ⟨rfl, fun key future registered => by cases registered⟩

end HardenedClient
