import HardenedClient.Client.Arrivals
import HardenedClient.Client.Lifecycle
import HardenedClient.Client.Replay
import HardenedClient.SingleFlight

/-!
# Graceful stop

When `stop()` returns, every future is done, as long as no task loses its work
item, the drain ends with nothing unfinished and nobody still submitting, and no
request is accepted after it. Every pending future then has a work item until it
is done, and after the drain there are no work items.
-/

namespace HardenedClient

open Foundation

/-- A caller whose request is accepted and not yet on the queue. -/
def CallerPoint.isSubmitting : CallerPoint → Bool
  | .upserting _ _ | .upserted _ _ | .enqueueing _ _ => true
  | _ => false

/-- A `stop()` call is past its drain. -/
def StopPoint.isPastDrain : StopPoint → Bool
  | .cancelling | .closingSession | .closingStorage => true
  | _ => false

/-- The step ends the drain of a `stop()` call. -/
def EndsDrain (state : State) (label : Label) : Prop :=
  (label = .stop ∧ state.session = true ∧ state.enterDrain = .drained) ∨
    ∃ id point, label = .step id .proceed ∧
      state.tasks id = some (.stopper (.draining point)) ∧
      state.stepDrain point = some .drained

/-- The steps under which `stop()` settles every caller. -/
structure Graceful (env : Env) (state : State) (label : Label) : Prop where
  /-- No row fails to be saved, no exception escapes from `_handle`, no worker is
  cancelled inside it, and no retry wakes up while the client is stopping. -/
  keepsItems : ∀ id, Spills env state label id → (state.tasks id).bind Task.item? = none
  notCancelled : ∀ id replayed point,
    label = .cancel id → state.tasks id ≠ some (.caller replayed point)
  storable : ∀ request key, state.submitted? label = some request →
    request.idempotencyKey? env.python = some key → state.dedup.pendingFuture? key = none →
      request.durable? env.python ≠ none
  recoversOwnKey : RecoversOwnKey state label
  drained : EndsDrain state label → state.queue.unfinished = 0 ∧
    ∀ id replayed point, state.tasks id = some (.caller replayed point) →
      point.isSubmitting = false
  closed : ∀ id point request, state.tasks id = some (.stopper point) →
    point.isPastDrain = true → state.submitted? label ≠ some request

/-! ## The end of a drain -/

namespace State

variable {env : Env} {state next : State} {label : Label}

theorem pendingReschedules_of_afterJoin
    (ended : state.afterJoin = .drained) :
    state.pendingReschedules = [] := by
  unfold afterJoin at ended
  split_ifs at ended with none
  exact none

theorem pendingReschedules_of_enterDrain
    (ended : state.enterDrain = .drained) :
    state.pendingReschedules = [] := by
  unfold enterDrain at ended
  split_ifs at ended
  exact pendingReschedules_of_afterJoin ended

theorem pendingReschedules_of_stepDrain
    {point : DrainPoint}
    (ended : state.stepDrain point = some .drained) :
    state.pendingReschedules = [] := by
  cases point <;> simp only [stepDrain] at ended
  · split_ifs at ended
    exact pendingReschedules_of_afterJoin (Option.some.inj ended)
  · split_ifs at ended
    exact pendingReschedules_of_enterDrain (Option.some.inj ended)
  · cases ended

/-- A drain ends only when no retry is asleep. -/
theorem pendingReschedules_of_endsDrain
    (ends : EndsDrain state label) :
    state.pendingReschedules = [] := by
  rcases ends with ⟨_, _, ended⟩ | ⟨_, _, _, _, ended⟩
  · exact pendingReschedules_of_enterDrain ended
  · exact pendingReschedules_of_stepDrain ended

/-- A `stop()` call is past its drain after a step because it was before, or
because the step ends the drain; such a step changes only the call's task. -/
theorem pastDrain_step
    {id : ℕ}
    {point : StopPoint}
    (tidy : state.Tidy)
    (moved : step env label state = some next)
    (current : next.tasks id = some (.stopper point))
    (past : point.isPastDrain = true) :
    (∃ before, state.tasks id = some (.stopper before) ∧ before.isPastDrain = true) ∨
      (EndsDrain state label ∧ next.queue = state.queue ∧
        (∀ other, other ≠ id → next.tasks other = state.tasks other) ∧
        (state.lifecycle = false ∨ ∃ before, state.tasks id = some (.stopper before) ∧
          (Task.stopper before).inLifecycle = true)) := by
  rcases (step_stepped moved).stopper_cases tidy current with
    before | ⟨rfl, rfl, idle⟩ | ⟨choice, before, rfl, stopping⟩
  · exact Or.inl ⟨point, before, past⟩
  · have unborn : state.tasks state.spawned = none := tidy _ (Nat.le_refl _)
    simp only [HardenedClient.step, callStop, idle, Bool.false_eq_true, if_false] at moved
    split_ifs at moved with serving <;> rw [← Option.some.inj moved] at current ⊢
    · cases drain : state.enterDrain with
      | drained =>
          refine Or.inr ⟨Or.inl ⟨rfl, serving, drain⟩, rfl, fun other different => ?_,
            Or.inl idle⟩
          simp [afterDrain, different]
      | joining | gathering =>
          simp only [drain, afterDrain, setTask_tasks_self] at current
          cases current
          cases past
    · cases unborn.symm.trans current
  · have task : state.stepStopper id before choice = some next := by
      simpa [HardenedClient.step, stepTask, stopping] using moved
    cases before <;> cases choice <;> simp only [stepStopper, reduceCtorEq] at task
    case draining.proceed drain =>
      obtain ⟨after, ended, rfl⟩ := Option.map_eq_some_iff.mp task
      cases after with
      | drained =>
          refine Or.inr ⟨Or.inr ⟨id, drain, rfl, stopping, ended⟩, rfl,
            fun other different => ?_, Or.inr ⟨_, stopping, rfl⟩⟩
          simp [afterDrain, different]
      | joining | gathering =>
          simp only [afterDrain, setTask_tasks_self] at current
          cases current
          cases past
    all_goals exact Or.inl ⟨_, stopping, rfl⟩

/-! ## Futures and their work items -/

/-- The invariant of graceful runs: flights are single, every pending future has
a work item, and there is none once a `stop()` call is past its drain. -/
structure Stopping (state : State) : Prop extends state.SingleFlight where
  attended : state.flights.Attended
  guarded : state.Guarded
  counted : state.Counted
  empty : ∀ id point, state.tasks id = some (.stopper point) → point.isPastDrain = true →
    ∀ place, state.itemAt place = none

theorem keepsSingle_of_graceful
    (graceful : Graceful env state label) :
    KeepsSingle state label := by
  refine ⟨?_, graceful.recoversOwnKey⟩
  rintro ⟨id, replayed, key, future, _, _, isCancel, current, _⟩
  exact graceful.notCancelled id replayed _ isCancel current

/-- Owners carry a storable request, and no task loses its item. -/
theorem keeping_of_graceful
    {action : Flights.Action Key}
    {after : Flights Key}
    (graceful : Graceful env state label)
    (move : Flights.Move action state.flights after)
    (traces : Traces env state label action) :
    state.flights.Keeping action := by
  cases action with
  | own agent key carry hold =>
      cases move with
      | own free =>
          have unregistered : state.dedup.pendingFuture? key = none := by
            simpa [busy_iff] using free
          rcases traces with ⟨request, submits, hashes, rfl⟩ | ⟨row, _, _, rfl⟩
          · have storable := graceful.storable request key submits hashes unregistered
            simpa [Flights.Keeping, Option.isSome_iff_ne_none] using storable
          · rfl
  | drop agent =>
      change ((state.tasks agent).bind Task.item?).map QueueItem.job = none
      rw [graceful.keepsItems agent traces]
      rfl
  | _ => trivial

/-- A retry that is asleep or waits for a place is found by `drain()`. -/
theorem Tidy.reschedule_done
    {id : ℕ}
    {point : ReschedulePoint}
    (tidy : state.Tidy)
    (none : state.pendingReschedules = [])
    (current : state.tasks id = some (.reschedule point)) :
    point = .done := by
  by_contra waiting
  have pending : state.reschedulePending id = true := by
    cases point <;> simp_all [reschedulePending]
  have listed : id ∈ state.pendingReschedules :=
    List.mem_filter.mpr ⟨List.mem_range.mpr (tidy.lt_of_task current), pending⟩
  rw [none] at listed
  cases listed

/-- When a drain ends, no task but its own has a work item. -/
theorem Stopping.empty_of_endsDrain
    {id : ℕ}
    (stopping : state.Stopping)
    (graceful : Graceful env state label)
    (ends : EndsDrain state label)
    (alone : state.lifecycle = false ∨ ∃ before, state.tasks id = some (.stopper before) ∧
      (Task.stopper before).inLifecycle = true) :
    ∀ place, place ≠ .agent id → state.itemAt place = none := by
  obtain ⟨finished, submitted⟩ := graceful.drained ends
  obtain ⟨noItems, noHandling⟩ := stopping.counted.idle finished
  rintro (position | other) elsewhere
  · simp [itemAt, noItems]
  cases current : state.tasks other with
  | none => simp [itemAt, current]
  | some task =>
      have unladen : task.item? = none := by
        cases task with
        | caller replayed point =>
            have notSubmitting := submitted other replayed point current
            cases point <;> first | rfl | cases notSubmitting
        | worker point =>
            cases point <;> first | rfl | exact absurd current (noHandling _ _ _)
        | reschedule point =>
            rw [stopping.tidy.reschedule_done (pendingReschedules_of_endsDrain ends) current]
            rfl
        | starter point =>
            -- no recovery is under way beside a `stop()` call
            cases point <;> try rfl
            rcases alone with idle | ⟨before, ours, inside⟩
            · have locked := stopping.guarded.locked other _ current rfl
              simp [idle] at locked
            · have same := stopping.guarded.only other id _ _ current ours rfl inside
              exact absurd (by rw [same]) elsewhere
        | drainer | stopper => rfl
      simp [itemAt, current, unladen]

theorem live_of_itemAt
    {place : Place}
    {item : QueueItem}
    (found : state.itemAt place = some item) :
    state.flights.Live item.job :=
  ⟨place, by rw [jobAt_flights, found]; rfl⟩

/-- Past the drain, no step brings a new work item. -/
theorem Stopping.empty_of_pastDrain
    {id : ℕ}
    {point : StopPoint}
    {action : Flights.Action Key}
    (stopping : state.Stopping)
    (graceful : Graceful env state label)
    (current : state.tasks id = some (.stopper point))
    (past : point.isPastDrain = true)
    (move : Flights.Move action state.flights next.flights)
    (traces : Traces env state label action) :
    ∀ place, next.itemAt place = none := by
  intro place
  by_contra present
  obtain ⟨item, found⟩ := Option.ne_none_iff_exists'.mp present
  have live := live_of_itemAt found
  have notOwn : ∀ agent key carry hold, action ≠ .own agent key carry hold := by
    rintro agent key carry hold rfl
    rcases traces with ⟨request, submits, _⟩ | ⟨row, recovers, _⟩
    · exact graceful.closed id point request current past submits
    · unfold recovered? at recovers
      split at recovers <;> try cases recovers
      split at recovers <;> cases recovers
      next starting =>
        have inside : (Task.stopper point).inLifecycle = true := by cases point <;> trivial
        have same := stopping.guarded.only _ id _ _ starting current rfl inside
        rw [same, current] at starting
        cases starting
  obtain ⟨origin, relocates⟩ := move.relocates notOwn
  obtain ⟨before, there⟩ := relocates.live live
  rw [jobAt_flights, stopping.empty id point current past before] at there
  cases there

theorem Stopping.step
    (stopping : state.Stopping)
    (graceful : Graceful env state label)
    (moved : HardenedClient.step env label state = some next) :
    next.Stopping := by
  obtain ⟨action, move, traces⟩ := step_movesFlights stopping.tidy moved
  have stepped := step_stepped moved
  refine {
    toSingleFlight := stopping.toSingleFlight.step (keepsSingle_of_graceful graceful) moved
    attended := stopping.attended.move stopping.exclusive
      (keeping_of_graceful graceful move traces) move
    guarded := stopping.guarded.step stepped
    counted := stopping.counted.step stepped
    empty := fun id point current past => ?_ }
  rcases pastDrain_step stopping.tidy moved current past with
    ⟨before, present, wasPast⟩ | ⟨ends, queue, others, alone⟩
  · exact stopping.empty_of_pastDrain graceful present wasPast move traces
  · have empty := stopping.empty_of_endsDrain graceful ends alone
    rintro (position | other)
    · have waiting := empty (.queue position) (by simp)
      simpa [itemAt, queue] using waiting
    · by_cases mine : other = id
      · simp [itemAt, mine, current, Task.item?]
      · have carried := empty (.agent other) (by simpa using mine)
        simpa [itemAt, others other mine] using carried

theorem Stopping.boot (tables : Tables) (now : ℚ) (history : List Event) :
    (boot tables now history).Stopping where
  toSingleFlight := .boot tables now history
  attended := fun ticket old => absurd old (Nat.not_lt_zero _)
  guarded := .boot tables now history
  counted := .boot tables now history
  empty := fun _ _ current => by cases current

/-- Past the drain, every future is done. -/
theorem Stopping.done_of_pastDrain
    {id : ℕ}
    {point : StopPoint}
    (stopping : state.Stopping)
    (current : state.tasks id = some (.stopper point))
    (past : point.isPastDrain = true)
    {future : ℕ}
    (created : future < state.dedup.created) :
    (state.dedup.futures future).done = true := by
  by_contra notDone
  have pending : (state.dedup.futures future).promise = .pending :=
    (Future.promise_eq_pending_iff _).mpr (Future.eq_pending_of_not_done (by simpa using notDone))
  obtain ⟨job, ⟨place, found⟩, _⟩ := stopping.attended future created pending
  rw [jobAt_flights, stopping.empty id point current past place] at found
  cases found

end State

/-- In every graceful run, when a `stop()` call returns, every future created so
far is done, and so is the future of every caller. -/
theorem stop_settles_callers
    (env : Env)
    (tables : Tables)
    (now : ℚ)
    (state next : State)
    (id : ℕ)
    (run : Run (step env) (Graceful env) (State.boot tables now) state)
    (closing : state.tasks id = some (.stopper .closingStorage))
    (returned : step env (.step id .proceed) state = some next) :
    (∀ future < next.dedup.created, (next.dedup.futures future).done = true) ∧
    ∀ caller task claim, next.tasks caller = some task → task.claim? = some claim →
      (next.dedup.futures claim.ticket).done = true := by
  have stopping : state.Stopping := run.invariant State.Stopping (.boot tables now [])
    fun _ _ _ stopping graceful moved => stopping.step graceful moved
  have stopped : next = { state with connected := false, lifecycle := false }.setTask id
      (.stopper .stopped) := by
    simpa [step, State.stepTask, closing, State.stepStopper] using returned.symm
  subst stopped
  have done : ∀ future < state.dedup.created, (state.dedup.futures future).done = true :=
    fun future created => stopping.done_of_pastDrain closing rfl created
  refine ⟨done, fun caller task claim current claims => done claim.ticket ?_⟩
  have other : caller ≠ id := by
    rintro rfl
    simp only [State.setTask, Function.update_self, Option.some.injEq] at current
    rw [← current] at claims
    cases claims
  apply stopping.sound.held_lt caller
  simp only [State.setTask, Function.update_of_ne other] at current
  simp [State.flights, current, claims]

/-- A `stop()` call is about to return. -/
def State.isClosing (state : State) (id : ℕ) : Bool :=
  match state.tasks id with
  | some (.stopper .closingStorage) => true
  | _ => false

theorem isClosing_iff (state : State) (id : ℕ) :
    state.isClosing id = true ↔ state.tasks id = some (.stopper .closingStorage) := by
  unfold State.isClosing
  split <;> simp_all

/-- The cancellation of a caller or of a `start()` call. -/
def Label.isCancel : Label → Bool
  | .cancel _ => true
  | _ => false

/-- When `stop()` returns, a caller that nobody cancelled awaits a pending future,
and no task has a work item. -/
theorem stop_not_settles_callers :
    ∃ state next future,
      Run (step oneWorker) (fun _ label => ∀ id, label ≠ .cancel id) (State.boot {}) state ∧
      state.tasks 4 = some (.stopper .closingStorage) ∧
      step oneWorker (.step 4 .proceed) state = some next ∧
      next.awaited? 2 = some future ∧ ∀ place, next.itemAt place = none := by
  have checks : ∀ (state : State) (label : Label),
      (!label.isCancel) = true → ∀ id, label ≠ .cancel id := by
    rintro state label passes id rfl
    cases passes
  have passes : (executeChecked (step oneWorker) (fun _ label => !label.isCancel)
      abandonedLabels (State.boot {})).any (fun state => state.isClosing 4 &&
        (step oneWorker (.step 4 .proceed) state).any fun next => (next.awaited? 2).isSome &&
          next.queue.items.isEmpty && (List.range next.spawned).all fun id =>
            (next.tasks id).all fun task => task.item?.isNone) = true := by
    decide +kernel
  obtain ⟨state, run, tested⟩ := exists_run_of_executeChecked checks passes
  rw [Bool.and_eq_true, isClosing_iff] at tested
  obtain ⟨next, returned, ended⟩ := (Option.any_eq_true _ _).mp tested.2
  simp only [Bool.and_eq_true, List.isEmpty_iff] at ended
  obtain ⟨⟨awaits, empty⟩, unladen⟩ := ended
  obtain ⟨future, awaited⟩ := Option.isSome_iff_exists.mp awaits
  have tidy := (step_stepped returned).tidy (State.Tidy.of_run (State.tidy_boot {} 0 []) run)
  exact ⟨state, next, future, run, tested.1, returned, awaited,
    tidy.itemAt_eq_none empty unladen⟩

/-- All tasks created so far pass a check. -/
def State.allTasks (state : State) (check : Task → Bool) : Bool :=
  (List.range state.spawned).all fun id => (state.tasks id).all check

/-- A task is not submitting a request. -/
def Task.isSubmitted : Task → Bool
  | .caller _ point => !point.isSubmitting
  | _ => true

/-- A task is no `stop()` call. -/
def Task.isNoStopper : Task → Bool
  | .stopper _ => false
  | _ => true

/-- A check that a step loses no work item, on replayed runs without retries. -/
def losesNoItem (env : Env) (state : State) : Label → Bool
  | .cancel _ => false
  | .cancelWorker id => ((state.tasks id).bind Task.item?).isNone
  | .step id choice =>
      match state.tasks id, choice with
      | some (.caller _ (.upserting _ _)), .proceed => state.connected
      | some (.caller _ (.upserting _ _)), _ => false
      | some (.worker _), choice =>
          (step env (.step id choice) state).any fun next => !next.workerEnded id
      | some (.reschedule _), _ => false
      | some (.stopper (.draining _)), _ => false
      | _, _ => true
  | _ => true

/-- A check for `Graceful` on replayed runs without retries. -/
def isGraceful (env : Env) (state : State) (label : Label) : Bool :=
  losesNoItem env state label &&
  (state.submitted? label).all (fun request =>
    (request.durable? env.python).isSome && state.allTasks Task.isNoStopper) &&
  (state.recovered? label).isNone &&
  match label with
  | .stop => decide (state.queue.unfinished = 0) && state.allTasks Task.isSubmitted
  | _ => true

theorem losesNoItem_sound
    (env : Env)
    (state : State)
    (label : Label)
    (passes : losesNoItem env state label = true)
    (id : ℕ)
    (spills : Spills env state label id) :
    (state.tasks id).bind Task.item? = none := by
  cases spills with
  | cancelled => cases passes
  | workerCancelled => exact Option.isNone_iff_eq_none.mp passes
  | stopping current => simp [losesNoItem, current] at passes
  | @unsaved _ _ _ _ choice current fails =>
      cases choice <;> simp only [losesNoItem, current, Bool.false_eq_true] at passes
      simp [fails rfl] at passes
  | escaped current escapes =>
      simp only [losesNoItem, current] at passes
      obtain ⟨next, moved, alive⟩ := (Option.any_eq_true _ _).mp passes
      simp only [step, State.stepTask, current, State.stepWorker] at moved
      rcases State.stepHandle_ends moved with ⟨_, escaped⟩ | ⟨inside, _⟩
      · obtain ⟨_⟩ := escaped
        simp [State.workerEnded, State.escape, State.setTask] at alive
      · exact absurd escapes inside

theorem isGraceful_sound
    (env : Env)
    (state : State)
    (label : Label)
    (tidy : state.Tidy)
    (passes : isGraceful env state label = true) :
    Graceful env state label := by
  simp only [isGraceful, Bool.and_eq_true] at passes
  obtain ⟨⟨⟨keeps, submits⟩, recovers⟩, stops⟩ := passes
  refine {
    keepsItems := losesNoItem_sound env state label keeps
    notCancelled := ?_
    storable := ?_
    recoversOwnKey := ?_
    drained := ?_
    closed := ?_ }
  · rintro id replayed point rfl
    cases keeps
  · intro request key submitted _ _ unstorable
    simp [submitted, unstorable] at submits
  · intro row recovered
    simp [recovered] at recovers
  · rintro (⟨rfl, _⟩ | ⟨id, point, rfl, current, _⟩)
    · rw [Bool.and_eq_true, decide_eq_true_eq] at stops
      refine ⟨stops.1, fun id replayed point current => ?_⟩
      simpa [Task.isSubmitted] using tidy.forall_task stops.2 id _ current
    · simp [losesNoItem, current] at keeps
  · intro id point request current _ submitted
    simp only [submitted, Option.all_some, Bool.and_eq_true] at submits
    cases tidy.forall_task submits.2 id _ current

/-- A request that is answered with 200, and a `stop()` call that is about to
return. -/
def stoppedLabels : List Label :=
  startLabels ++ requestLabels 2 "http://example.org/" ++ sendLabels 1 ++
    answerLabels 1 200 3 ++ [.stop, .cancelWorker 1] ++ proceedLabels 3 2

/-- A caller whose request was answered has its outcome when `stop()` returns. -/
theorem stop_settles_callers_answered :
    ∃ state next, Run (step oneWorker) (Graceful oneWorker) (State.boot {}) state ∧
      step oneWorker (.step 3 .proceed) state = some next ∧ next.dedup.created = 1 ∧
      (next.dedup.futures 0).done = true := by
  have passes : (executeChecked (step oneWorker) (isGraceful oneWorker) stoppedLabels
      (State.boot {})).any (fun state => state.isClosing 3 &&
        (step oneWorker (.step 3 .proceed) state).any fun next =>
          decide (next.dedup.created = 1)) = true := by
    decide +kernel
  obtain ⟨state, checked, tested⟩ :=
    exists_run_of_executeChecked (fun _ _ passes => passes) passes
  have run : Run (step oneWorker) (Graceful oneWorker) (State.boot {}) state :=
    (checked.with_invariant State.Tidy (State.tidy_boot {} 0 []) fun _ _ _ tidy _ moved =>
      (step_stepped moved).tidy tidy).mono fun state label allowed =>
        isGraceful_sound oneWorker state label allowed.1 allowed.2
  rw [Bool.and_eq_true, isClosing_iff] at tested
  obtain ⟨next, returned, created⟩ := (Option.any_eq_true _ _).mp tested.2
  have one : next.dedup.created = 1 := of_decide_eq_true created
  exact ⟨state, next, run, returned, one,
    (stop_settles_callers oneWorker {} 0 state next 3 run tested.1 returned).1 0 (by omega)⟩

end HardenedClient
