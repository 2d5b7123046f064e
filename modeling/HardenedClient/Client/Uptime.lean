import HardenedClient.Client.Arrivals
import HardenedClient.Client.Pool

/-!
# A process that is not stopped

Until `stop()` is called, one `start()` call at most gets as far as opening the
session, and when it returns the session and the database stay open.
-/

namespace HardenedClient

open Foundation

/-- A `start()` call of this process has recovered the rows and returned. -/
def State.Started (state : State) : Prop :=
  ∃ id, state.tasks id = some (.starter .started)

/-- A `start()` call has opened the session, and has not failed since. -/
def State.Serving (state : State) : Prop :=
  ∃ id point, state.tasks id = some (.starter point) ∧
    (point.serving = true ∨ point = .started)

/-- A task of a `start()` or `stop()` call. -/
def Task.isCall : Task → Bool
  | .starter _ | .stopper _ => true
  | _ => false

/-- A `start()` call that has not opened the session yet. -/
def StartPoint.unopened : StartPoint → Bool
  | .opening | .preparing => true
  | _ => false

namespace State

variable {env : Env} {state next base : State} {label : Label} {id : ℕ}

/-- Nothing has asked the client to stop, and what `start()` opens stays open. -/
structure Unstopped (state : State) : Prop extends state.Pooled where
  noStopper : ∀ id point, state.tasks id ≠ some (.stopper point)
  running : state.stopping = false
  unrequested : state.cancelRequests = []
  connects : state.session = true → state.connected = true
  unopened : ∀ id point, state.tasks id = some (.starter point) → point.unopened = true →
    state.session = false ∧ (point = .preparing → state.connected = true)
  opened : state.Started → state.session = true
  alone : state.Started → ∀ id point, state.tasks id = some (.starter point) →
    (Task.starter point).inLifecycle = false

theorem Unstopped.boot (tables : Tables) (now : ℚ) (history : List Event) :
    (boot tables now history).Unstopped where
  toPooled := .boot tables now history
  noStopper := fun _ _ current => by cases current
  running := rfl
  unrequested := rfl
  connects := fun isOpen => by cases isOpen
  unopened := fun _ _ current => by cases current
  opened := fun ⟨_, current⟩ => by cases current
  alone := fun ⟨_, current⟩ => by cases current

/-- A worker handles an item only while the storage is open. -/
theorem Unstopped.connected
    {item : QueueItem}
    {point : HandlePoint}
    (unstopped : state.Unstopped)
    (current : state.tasks id = some (.worker (.handling item point))) :
    state.connected = true := by
  apply unstopped.connects
  by_contra closed
  have member := unstopped.employed id ((alive_iff state id).mpr (Or.inr ⟨_, _, current⟩))
  rw [unstopped.offline (by simpa using closed)] at member
  cases member

/-- A step of another coroutine. -/
theorem Unstopped.of_same
    (unstopped : state.Unstopped)
    (pooled : next.Pooled)
    (frame : Frame id state next)
    (calm : ∀ task, next.tasks id = some task → task.isCall = false)
    (session : next.session = state.session)
    (connected : next.connected = state.connected)
    (stopping : next.stopping = state.stopping)
    (requests : next.cancelRequests = [] ∨ next.cancelRequests = state.cancelRequests) :
    next.Unstopped := by
  have before : ∀ other task, next.tasks other = some task → task.isCall = true →
      state.tasks other = some task := by
    intro other task current isCall
    by_cases isActor : other = id
    · rw [calm task (isActor ▸ current)] at isCall
      cases isCall
    · rcases frame.origin isActor current with there | born
      · exact there
      · cases born <;> cases isCall
  have started : next.Started → state.Started := fun ⟨other, current⟩ =>
    ⟨other, before other _ current rfl⟩
  exact {
    toPooled := pooled
    noStopper := fun id point current => unstopped.noStopper id point (before id _ current rfl)
    running := stopping.trans unstopped.running
    unrequested := requests.elim (fun none => none) fun same => same.trans unstopped.unrequested
    connects := by
      rw [session, connected]
      exact unstopped.connects
    unopened := by
      rw [session, connected]
      exact fun id point current => unstopped.unopened id point (before id _ current rfl)
    opened := fun isStarted => session.trans (unstopped.opened (started isStarted))
    alone := fun isStarted id point current =>
      unstopped.alone (started isStarted) id point (before id _ current rfl) }

/-- A step of a `start()` call that does not return. -/
theorem Unstopped.of_starter
    {after : StartPoint}
    (unstopped : state.Unstopped)
    (pooled : next.Pooled)
    (frame : Frame id state next)
    (notStarted : ¬ state.Started)
    (free : ∀ other point, other ≠ id → state.tasks other = some (.starter point) →
      point.unopened = false)
    (reaches : next.tasks id = some (.starter after))
    (unfinished : after ≠ .started)
    (stopping : next.stopping = state.stopping)
    (requests : next.cancelRequests = state.cancelRequests)
    (connects : next.session = true → next.connected = true)
    (unopened : after.unopened = true →
      next.session = false ∧ (after = .preparing → next.connected = true)) :
    next.Unstopped := by
  have before : ∀ other task, other ≠ id → next.tasks other = some task →
      task.isCall = true → state.tasks other = some task := by
    intro other task different current isCall
    rcases frame.origin different current with there | born
    · exact there
    · cases born <;> cases isCall
  have started : ¬ next.Started := by
    rintro ⟨other, current⟩
    by_cases isActor : other = id
    · rw [isActor, reaches] at current
      exact unfinished (by simpa using current)
    · exact notStarted ⟨other, before other _ isActor current rfl⟩
  refine ⟨pooled, ?_, stopping.trans unstopped.running, requests.trans unstopped.unrequested,
    connects, ?_, fun isStarted => absurd isStarted started,
    fun isStarted => absurd isStarted started⟩
  · intro other point current
    by_cases isActor : other = id
    · rw [isActor, reaches] at current
      cases current
    · exact unstopped.noStopper other point (before other _ isActor current rfl)
  · intro other point current isUnopened
    by_cases isActor : other = id
    · rw [isActor, reaches] at current
      cases current
      exact unopened isUnopened
    · rw [free other point isActor (before other _ isActor current rfl)] at isUnopened
      cases isUnopened

theorem inLifecycle_of_unopened
    {point : StartPoint}
    (unopened : point.unopened = true) :
    (Task.starter point).inLifecycle = true := by
  cases point <;> first | rfl | cases unopened

/-- The call `start()` while the session is closed. -/
theorem Unstopped.callStart
    (unstopped : state.Unstopped)
    (pooled : next.Pooled)
    (frame : Frame state.spawned state next)
    (moved : state.callStart = some next) :
    next.Unstopped := by
  simp only [State.callStart] at moved
  split_ifs at moved with busy serving connected
  · exact Option.some.inj moved ▸ unstopped
  all_goals
    have closed : state.session = false := by simpa using serving
    have notStarted : ¬ state.Started := fun started => by
      rw [unstopped.opened started] at closed
      cases closed
    have free : ∀ other point, other ≠ state.spawned →
        state.tasks other = some (.starter point) → point.unopened = false := by
      intro other point _ current
      by_contra unopened
      exact busy (unstopped.locked other _ current (inLifecycle_of_unopened (by simpa using unopened)))
    rw [← Option.some.inj moved] at pooled frame ⊢
    refine unstopped.of_starter pooled frame notStarted free (Function.update_self _ _ _)
      (by simp) rfl rfl ?_ ?_
  · exact fun _ => connected
  · simp [StartPoint.unopened]
  · intro isOpen
    rw [show state.session = true from isOpen] at closed
    cases closed
  · exact fun _ => ⟨closed, by simp⟩

/-- A step of `start()`. -/
theorem Unstopped.stepStarter
    {point : StartPoint}
    {choice : Choice}
    (unstopped : state.Unstopped)
    (pooled : next.Pooled)
    (current : state.tasks id = some (.starter point))
    (active : (Task.starter point).inLifecycle = true)
    (moved : state.stepStarter env id point choice = some next) :
    next.Unstopped := by
  have notStarted : ¬ state.Started := fun started => by
    rw [unstopped.alone started id point current] at active
    cases active
  have free : ∀ other after, other ≠ id → state.tasks other = some (.starter after) →
      after.unopened = false := by
    intro other after different found
    by_contra unopened
    exact different (unstopped.only other id _ _ found current
      (inLifecycle_of_unopened (by simpa using unopened)) active)
  have goes : ∀ base : State, ∀ after, next = base.setTask id (.starter after) →
      base.tasks = state.tasks → base.spawned = state.spawned →
      base.stopping = state.stopping → base.cancelRequests = state.cancelRequests →
      after ≠ .started → (base.session = true → base.connected = true) →
      (after.unopened = true →
        base.session = false ∧ (after = .preparing → base.connected = true)) →
      next.Unstopped := by
    rintro base after rfl tasks spawned stopping requests unfinished connects unopened
    exact unstopped.of_starter pooled (frame_setTask unstopped.tidy current tasks spawned)
      notStarted free (setTask_tasks_self _ _ _) unfinished stopping requests connects unopened
  have stays : ∀ base : State, ∀ after, next = base.setTask id (.starter after) →
      base.tasks = state.tasks → base.spawned = state.spawned →
      base.stopping = state.stopping → base.cancelRequests = state.cancelRequests →
      base.session = state.session → base.connected = state.connected →
      after.unopened = false → after ≠ .started → next.Unstopped := by
    intro base after same tasks spawned stopping requests session connected late unfinished
    apply goes base after same tasks spawned stopping requests unfinished
    · rw [session, connected]
      exact unstopped.connects
    · rw [late]
      simp
  cases point <;> cases choice <;>
    simp only [State.stepStarter, failStart, reduceCtorEq] at moved
  case opening.proceed =>
    have closed := (unstopped.unopened id _ current rfl).1
    exact goes _ _ (Option.some.inj moved).symm rfl rfl rfl rfl (by simp) (fun _ => rfl)
      fun _ => ⟨closed, fun _ => rfl⟩
  case preparing.proceed =>
    have connected := (unstopped.unopened id _ current rfl).2 rfl
    exact goes _ _ (Option.some.inj moved).symm rfl rfl rfl rfl (by simp) (fun _ => connected)
      (by simp [StartPoint.unopened])
  case recovering.proceed rows =>
    cases rows with
    | cons row rows =>
        simp only [recoverRow] at moved
        split at moved
        all_goals
          exact stays _ _ (Option.some.inj moved).symm rfl rfl rfl rfl rfl rfl rfl (by simp)
    | nil =>
        have serving := (unstopped.starting id _ current rfl).2 rfl
        rw [← Option.some.inj moved] at pooled ⊢
        have before : ∀ other task, other ≠ id → (state.online env id).tasks other = some task →
            task.isCall = true → state.tasks other = some task := by
          intro other task different found isCall
          rcases (frame_online env unstopped.tidy current).origin different found with there | born
          · exact there
          · cases born <;> cases isCall
        refine ⟨pooled, ?_, rfl, unstopped.unrequested, unstopped.connects, ?_,
          fun _ => serving, ?_⟩
        · intro other point found
          by_cases isActor : other = id
          · rw [isActor, online_tasks_self] at found
            cases found
          · exact unstopped.noStopper other point (before other _ isActor found rfl)
        · intro other point found isUnopened
          by_cases isActor : other = id
          · rw [isActor, online_tasks_self] at found
            cases found
            cases isUnopened
          · rw [free other point isActor (before other _ isActor found rfl)] at isUnopened
            cases isUnopened
        · intro _ other point found
          by_cases isActor : other = id
          · rw [isActor, online_tasks_self] at found
            cases found
            rfl
          · by_contra inside
            exact isActor (unstopped.only other id _ _ (before other _ isActor found rfl) current
              (by simpa using inside) active)
  case reenqueueing.proceed | listing.proceed =>
    split_ifs at moved <;>
      exact stays _ _ (Option.some.inj moved).symm rfl rfl rfl rfl rfl rfl rfl (by simp)
  all_goals
    exact stays _ _ (Option.some.inj moved).symm rfl rfl rfl rfl rfl rfl rfl (by simp)

/-- Steps other than `stop()` leave the client open. -/
theorem Unstopped.step
    (unstopped : state.Unstopped)
    (notStop : label ≠ .stop)
    (moved : HardenedClient.step env label state = some next) :
    next.Unstopped := by
  have stepped := step_stepped moved
  have pooled := unstopped.toPooled.step moved
  by_cases crashed : label = .crash
  · subst crashed
    rw [stepped.boot_of_crash]
    exact .boot _ _ _
  have frame := stepped.frame unstopped.tidy crashed
  have unborn := unstopped.tidy state.spawned (Nat.le_refl _)
  cases stepped with
  | crash => exact absurd rfl crashed
  | outside isOutside =>
      have actor : label.actor state = state.spawned := by
        cases label <;> first | rfl | cases isOutside
      rw [actor] at frame
      refine unstopped.of_same pooled frame ?_ rfl rfl rfl (Or.inr rfl)
      simp [unborn]
  | purged =>
      refine unstopped.of_same pooled frame ?_ rfl rfl rfl (Or.inr rfl)
      simp [record, Label.actor, unborn]
  | start => exact unstopped.callStart pooled frame moved
  | stop => exact absurd rfl notStop
  | stopper current => exact absurd current (unstopped.noStopper _ _)
  | starter current _ _ _ active =>
      apply unstopped.stepStarter pooled current active
      simpa [HardenedClient.step, stepTask, current] using moved
  | online current =>
      apply unstopped.stepStarter pooled current rfl
      simpa [HardenedClient.step, stepTask, current] using moved
  | @cancelStarter id point current active =>
      have notStarted : ¬ state.Started := fun started => by
        rw [unstopped.alone started id point current] at active
        cases active
      refine unstopped.of_starter pooled frame notStarted ?_ (setTask_tasks_self _ _ _)
        (by simp) rfl rfl unstopped.connects (by simp [StartPoint.unopened])
      intro other after different found
      by_contra unopened
      exact different (unstopped.only other id _ _ found current
        (inLifecycle_of_unopened (by simpa using unopened)) active)
  | handled _ _ handled =>
      obtain ⟨after, isWorker⟩ := handled.worker
      have calm : ∀ task, next.tasks _ = some task → task.isCall = false := fun task found => by
        rw [isWorker] at found
        cases found
        rfl
      cases handled with
      | resolved | rejected =>
          refine unstopped.of_same pooled frame calm ?_ ?_ ?_ (Or.inr ?_) <;>
            rw [settleKey_eq] <;> rfl
      | _ => exact unstopped.of_same pooled frame calm rfl rfl rfl (Or.inr rfl)
  | escaped _ _ escaped =>
      obtain ⟨_, ended⟩ := escaped.worker
      have calm : ∀ task, next.tasks _ = some task → task.isCall = false := fun task found => by
        rw [ended] at found
        cases found
        rfl
      obtain ⟨_⟩ := escaped
      exact unstopped.of_same pooled frame calm rfl rfl rfl (Or.inr rfl)
  | _ =>
      refine unstopped.of_same pooled frame ?_ rfl rfl rfl (Or.inr rfl)
      intro task found
      simp only [Label.actor, setTask_tasks_self, moveTo_tasks_self, Option.some.injEq] at found
      subst found
      rfl

/-- A `start()` call that has returned stays so until the process crashes. -/
theorem started_step
    (tidy : state.Tidy)
    (alive : label ≠ .crash)
    (moved : HardenedClient.step env label state = some next)
    (started : state.Started) :
    next.Started := by
  obtain ⟨id, current⟩ := started
  refine ⟨id, ?_⟩
  have known : id < state.spawned := by
    by_contra beyond
    cases (tidy id (Nat.le_of_not_lt beyond)).symm.trans current
  have frame := (step_stepped moved).frame tidy alive
  rw [frame.others id known, current]
  -- the call makes no further step itself
  rintro rfl
  cases label with
  | step actor choice =>
      have here : state.tasks actor = some (.starter .started) := current
      simp [HardenedClient.step, stepTask, here, State.stepStarter] at moved
  | cancel actor =>
      have here : state.tasks actor = some (.starter .started) := current
      simp [HardenedClient.step, cancelTask, here] at moved
  | cancelWorker actor =>
      have here : state.tasks actor = some (.starter .started) := current
      simp [HardenedClient.step, State.cancelWorker, here] at moved
  | _ => exact absurd known (Nat.lt_irrefl _)

/-- A `start()` call does not close the session. -/
theorem session_stepStarter
    {point : StartPoint}
    {choice : Choice}
    (moved : state.stepStarter env id point choice = some next)
    (isOpen : state.session = true) :
    next.session = true := by
  cases point <;> cases choice <;>
    simp only [State.stepStarter, failStart, reduceCtorEq] at moved
  case recovering.proceed rows =>
    cases rows with
    | nil =>
        rw [← Option.some.inj moved]
        exact isOpen
    | cons row rows =>
        rw [← Option.some.inj moved]
        unfold recoverRow
        split <;> exact isOpen
  all_goals
    try split_ifs at moved
    all_goals
      rw [← Option.some.inj moved]
      first | rfl | exact isOpen

/-- The session stays open until `stop()` is called or the process crashes. -/
theorem Unstopped.session_step
    (unstopped : state.Unstopped)
    (notStop : label ≠ .stop)
    (alive : label ≠ .crash)
    (moved : HardenedClient.step env label state = some next)
    (isOpen : state.session = true) :
    next.session = true := by
  cases step_stepped moved with
  | crash => exact absurd rfl alive
  | stop => exact absurd rfl notStop
  | stopper current => exact absurd current (unstopped.noStopper _ _)
  | start _ idle =>
      simp only [HardenedClient.step, State.callStart, idle, isOpen] at moved
      rw [← Option.some.inj moved]
      exact isOpen
  | starter current =>
      simp only [HardenedClient.step, stepTask, current] at moved
      exact session_stepStarter moved isOpen
  | handled _ _ handled =>
      cases handled with
      | resolved | rejected =>
          rw [settleKey_eq]
          exact isOpen
      | _ => exact isOpen
  | escaped _ _ escaped =>
      obtain ⟨_⟩ := escaped
      exact isOpen
  | _ => exact isOpen

/-- The session is opened by the step that makes a `start()` call serve. -/
theorem Unstopped.serving_cases
    (unstopped : state.Unstopped)
    (moved : HardenedClient.step env label state = some next)
    (serving : next.Serving) :
    state.Serving ∨ state.session = false ∧ next.dedup = state.dedup := by
  obtain ⟨id, point, current, serves⟩ := serving
  rcases (step_stepped moved).starter_cases unstopped.tidy current with
    ⟨there, _⟩ | ⟨rfl, _⟩ | ⟨choice, before, rfl, there, -⟩ | ⟨_, rfl⟩
  · exact Or.inl ⟨id, point, there, serves⟩
  · simp only [HardenedClient.step, State.callStart] at moved
    split_ifs at moved with busy isOpen connected
    · rw [← Option.some.inj moved] at current
      exact Or.inl ⟨id, point, current, serves⟩
    all_goals
      exact Or.inr ⟨by simpa using isOpen, by rw [← Option.some.inj moved]; rfl⟩
  · simp only [HardenedClient.step, stepTask, there] at moved
    by_cases wasServing : before.serving = true ∨ before = .started
    · exact Or.inl ⟨id, before, there, wasServing⟩
    · cases before <;> cases choice <;>
        simp only [State.stepStarter, failStart, reduceCtorEq] at moved <;>
        simp only [StartPoint.serving, reduceCtorEq, or_false, not_true_eq_false,
          not_false_eq_true] at wasServing
      case preparing.proceed =>
        exact Or.inr ⟨(unstopped.unopened id _ there rfl).1, by rw [← Option.some.inj moved]; rfl⟩
      all_goals
        rw [← Option.some.inj moved, setTask_tasks_self] at current
        cases current
        simp [StartPoint.serving] at serves
  · simp [StartPoint.serving] at serves

/-- No `start()` call serves once the one in progress is cancelled. -/
theorem Unstopped.not_serving_of_cancel
    {point : StartPoint}
    (unstopped : state.Unstopped)
    (current : state.tasks id = some (.starter point))
    (moved : HardenedClient.step env (.cancel id) state = some next) :
    ¬ next.Serving := by
  rintro ⟨other, after, found, serves⟩
  have active : (Task.starter point).inLifecycle = true := by
    cases point <;> first | rfl | simp [HardenedClient.step, cancelTask, current] at moved
  have isNext : next = { state with lifecycle := false }.setTask id
      (.starter (.failed .cancelledError)) := by
    cases point <;> simp_all [HardenedClient.step, cancelTask]
  rw [isNext] at found
  by_cases isActor : other = id
  · rw [isActor, setTask_tasks_self] at found
    cases found
    simp [StartPoint.serving] at serves
  · rw [setTask_tasks_of_ne _ _ isActor] at found
    rcases serves with serves | rfl
    · refine isActor (unstopped.only other id _ _ found current ?_ active)
      cases after <;> first | rfl | cases serves
    · rw [unstopped.alone ⟨other, found⟩ id point current] at active
      cases active

end State

end HardenedClient
