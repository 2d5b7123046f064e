import HardenedClient.Client.Claims
import HardenedClient.Client.Replay

/-!
# Failed submissions

A submission acquires a registry entry, then a row, then a place in the queue. A
failure in between gives nothing of it back. So it leaves a trace unless somebody
else gave the key back before it: a caller cancelled while it awaited the future, or
a worker with an older job of the key.
-/

namespace HardenedClient

open Foundation

/-- Nothing is left under the key that no work item answers for: no pending
future is registered, and an inflight row belongs to a live item. -/
def State.NoTrace (state : State) (key : Key) : Prop :=
  state.dedup.pendingFuture? key = none ∧
    (state.tables.inflight.Has key →
      ∃ place item, state.itemAt place = some item ∧ item.key = key)

/-- The step fails the submission of the task `id` before its item is queued: its
row is not saved, or it is cancelled. -/
inductive FailsOwner (state : State) (id : ℕ) (request : DurableRequest) (future : ℕ) :
    Label → Prop
  | unsaved {replayed : Option ℕ} {exc : PyException}
      (current : state.tasks id = some (.caller replayed (.upserting request future))) :
      FailsOwner state id request future (.step id (.storageError exc))
  | unopened {replayed : Option ℕ}
      (current : state.tasks id = some (.caller replayed (.upserting request future)))
      (closed : state.connected = false) :
      FailsOwner state id request future (.step id .proceed)
  | cancelled {replayed : Option ℕ} {point : CallerPoint}
      (current : state.tasks id = some (.caller replayed point))
      (submitting : point = .upserting request future ∨ point = .upserted request future ∨
        point = .enqueueing request future) :
      FailsOwner state id request future (.cancel id)

/-- The key of a submission was given back in the moves before: since it was last
claimed, a caller that awaited its pending future was cancelled or a worker settled it;
and its row was deleted by a worker since it was last written, or a task took on a job
of the key, for another future, that was not let go since. -/
structure GivenBack
    (env : Env)
    (tables : Tables)
    (log : List Moment)
    (key : Key)
    (future : ℕ) : Prop where
  released : Undone (Claims env key) (Releases key) log
  removed : (Undone (Stores key) (Removes key) log ∧
      (tables.inflight.Has key → ∃ moment ∈ log, Removes key moment)) ∨
    ∃ other ≠ future, ¬ Undone (TakesOn env ⟨key, other⟩) (LetsGo env ⟨key, other⟩) log

theorem State.itemAt_setTask
    (state : State)
    (id : ℕ)
    (task : Task)
    (place : Place) :
    (state.setTask id task).itemAt place =
      if place = .agent id then task.item? else state.itemAt place := by
  cases place with
  | queue position => simp [itemAt, setTask]
  | agent other =>
      simp only [itemAt, setTask, Function.update_apply, Place.agent.injEq]
      split_ifs <;> rfl

/-- A submission that fails writes its task only. -/
theorem FailsOwner.spec
    {env : Env}
    {state next : State}
    {id : ℕ}
    {request : DurableRequest}
    {future : ℕ}
    {label : Label}
    (fails : FailsOwner state id request future label)
    (moved : step env label state = some next) :
    ∃ task, task.item? = none ∧ next = state.setTask id task := by
  cases fails with
  | @unsaved replayed exc current =>
      refine ⟨.caller replayed (.raised exc), rfl, ?_⟩
      simpa [step, State.stepTask, current, State.stepCaller] using moved.symm
  | @unopened replayed current closed =>
      refine ⟨.caller replayed (.raised notOpened), rfl, ?_⟩
      simpa [step, State.stepTask, current, State.stepCaller, closed] using moved.symm
  | @cancelled replayed point current submitting =>
      rcases submitting with rfl | rfl | rfl
      all_goals
        refine ⟨.caller replayed .cancelled, rfl, ?_⟩
        simpa [step, State.cancelTask, current] using moved.symm

/-- The task whose submission fails has the item of its request. -/
theorem FailsOwner.item
    {state : State}
    {id : ℕ}
    {request : DurableRequest}
    {future : ℕ}
    {label : Label}
    (fails : FailsOwner state id request future label) :
    state.itemAt (.agent id) = some ⟨request, 0, future⟩ := by
  cases fails with
  | unsaved current | unopened current => simp [State.itemAt, current, Task.item?]
  | cancelled current submitting =>
      rcases submitting with rfl | rfl | rfl <;> simp [State.itemAt, current, Task.item?]

/-- The items of a key that are left when the task of one of them ends are the jobs for
other futures. -/
theorem State.carried_setTask_iff
    {state : State}
    {id : ℕ}
    {task : Task}
    {item : QueueItem}
    (sound : state.flights.Sound)
    (current : state.itemAt (.agent id) = some item)
    (unladen : task.item? = none) :
    (∃ place other, (state.setTask id task).itemAt place = some other ∧ other.key = item.key) ↔
      ∃ flight ≠ item.flight, state.flights.Live ⟨item.key, flight⟩ := by
  have mine : state.flights.jobAt (.agent id) = some item.job := by
    rw [jobAt_flights, current, Option.map_some]
  simp only [itemAt_setTask, unladen]
  constructor
  · rintro ⟨place, other, found, sameKey⟩
    split_ifs at found with isTask
    have there : state.flights.jobAt place = some ⟨item.key, other.flight⟩ := by
      rw [jobAt_flights, found, Option.map_some, QueueItem.job, sameKey]
    exact ⟨other.flight, fun same => isTask (sound.job_unique _ _ _ _ there mine same),
      place, there⟩
  · rintro ⟨flight, different, place, there⟩
    have elsewhere : place ≠ .agent id := by
      rintro rfl
      exact different (congrArg Job.ticket (Option.some.inj (mine.symm.trans there))).symm
    rw [jobAt_flights] at there
    obtain ⟨other, found, isJob⟩ := Option.map_eq_some_iff.mp there
    exact ⟨place, other, by rw [if_neg elsewhere, found], congrArg Job.key isJob⟩

/-- In every run, a submission that fails before its item is queued leaves no trace
exactly when its key had been given back before; one whose request cannot be stored
always leaves a pending future. Where no trace is left, the next request with the key
is taken on. -/
theorem failed_submission_no_trace_iff
    (env : Env)
    (tables : Tables)
    (now : ℚ)
    (reached : Journaled State Moment)
    (run : Run (record (step env) moments) (fun _ _ => True)
      ⟨State.boot tables now, []⟩ reached) :
    (∀ label next id request future,
      FailsOwner reached.state id request future label →
      step env label reached.state = some next →
        (next.NoTrace request.key ↔
          GivenBack env tables reached.log request.key future)) ∧
    (∀ label next request key,
      reached.state.submitted? label = some request →
      request.idempotencyKey? env.python = some key →
      reached.state.dedup.pendingFuture? key = none → request.durable? env.python = none →
      step env label reached.state = some next → ¬ next.NoTrace key) ∧
    ∀ state label next request durable,
      state.NoTrace durable.key → state.submitted? label = some request →
      request.durable? env.python = some durable → step env label state = some next →
        next.flights.Live ⟨durable.key, state.dedup.created⟩ := by
  refine ⟨?_, ?_, ?_⟩
  · intro label next id request future fails moved
    obtain ⟨task, unladen, rfl⟩ := fails.spec moved
    -- the registry and the table are as before, so the moves before decide
    have free := free_iff_undone request.key run
    have unstored := unstored_iff_undone request.key run
    have orderly : reached.state.Orderly :=
      run.invariant (fun reached => reached.state.Orderly) (.boot tables now [])
        fun _ _ _ orderly _ moved => orderly.step (record_eq_some_iff.mp moved).1
    have carried := (State.carried_setTask_iff orderly.sound fails.item unladen).trans
      (exists_congr fun flight => and_congr_right' (live_iff_not_undone ⟨request.key, flight⟩ run))
    constructor
    · rintro ⟨noPending, answered⟩
      refine ⟨free.mp noPending, ?_⟩
      by_cases row : reached.state.tables.inflight.Has request.key
      · exact Or.inr (carried.mp (answered row))
      · exact Or.inl (unstored.mp row)
    · rintro ⟨released, removed⟩
      refine ⟨free.mpr released, fun row => ?_⟩
      rcases removed with gone | others
      · exact absurd row (unstored.mpr gone)
      · exact carried.mpr others
  · rintro label next request key submits hashes _ _ moved ⟨noPending, _⟩
    exact State.busy_of_claims (.submitted submits hashes) moved noPending
  · rintro state label next request durable ⟨noPending, _⟩ submits packed moved
    exact State.live_of_takesOn (.submitted submits packed noPending rfl) moved

/-- A request with a body of bytes, which can be hashed but not stored. -/
def bytesRequest : Request :=
  { getRequest "http://example.org/" with body := .bytes "data" }

/-- After a failed submission of bytes, the same request waits for a future that
no work item will settle. -/
theorem failed_submission_leaves_trace :
    ∃ state future, Reachable (step oneWorker) (State.boot {}) state ∧
      (state.raised? 2).isSome = true ∧ state.awaited? 3 = some future ∧
      ∀ place, state.itemAt place = none := by
  have passes : (executeChecked (step oneWorker) (fun _ _ => true)
      (startLabels ++ [.request bytesRequest, .request bytesRequest])
      (State.boot {})).any (fun state =>
        (state.raised? 2).isSome && (state.awaited? 3).isSome &&
          state.queue.items.isEmpty &&
          (List.range state.spawned).all fun id =>
            (state.tasks id).all fun task => task.item?.isNone) = true := by
    decide +kernel
  obtain ⟨state, run, tested⟩ := exists_run_of_executeChecked (fun _ _ _ => trivial) passes
  simp only [Bool.and_eq_true, List.isEmpty_iff] at tested
  obtain ⟨⟨⟨raised, awaits⟩, empty⟩, unladen⟩ := tested
  obtain ⟨future, awaited⟩ := Option.isSome_iff_exists.mp awaits
  have tidy := State.Tidy.of_run (State.tidy_boot {} 0 []) run
  exact ⟨state, future, run, raised, awaited, tidy.itemAt_eq_none empty unladen⟩

/-- A submission whose future an attached caller took with it, before its row is
written. -/
def givenBackLabels : List Label :=
  startLabels ++ [.request (getRequest "http://example.org/"),
    .request (getRequest "http://example.org/"), .cancel 3]

/-- The request a caller is about to persist, with its future. -/
def State.upserting? (state : State) (id : ℕ) : Option (DurableRequest × ℕ) :=
  match state.tasks id with
  | some (.caller _ (.upserting request future)) => some (request, future)
  | _ => none

theorem failed_submission_no_trace_cancelled :
    ∃ reached next request,
      Run (record (step oneWorker) moments) (fun _ _ => True) ⟨State.boot {}, []⟩ reached ∧
      step oneWorker (.cancel 2) reached.state = some next ∧ next.NoTrace request := by
  have passes : (executeChecked (step oneWorker) (fun _ _ => true) givenBackLabels
      (State.boot {})).any (fun state => (state.upserting? 2).any fun submission =>
        (state.dedup.pendingFuture? submission.1.key).isNone &&
          !decide (state.tables.inflight.Has submission.1.key)) = true := by
    decide +kernel
  obtain ⟨state, run, tested⟩ := exists_run_of_executeChecked (fun _ _ _ => trivial) passes
  obtain ⟨⟨request, future⟩, submitting, checks⟩ := (Option.any_eq_true _ _).mp tested
  simp only [Bool.and_eq_true, Option.isNone_iff_eq_none, Bool.not_eq_eq_eq_not, Bool.not_true,
    decide_eq_false_iff_not] at checks
  obtain ⟨free, unstored⟩ := checks
  obtain ⟨log, journaled⟩ := run.journaled moments
  unfold State.upserting? at submitting
  split at submitting <;> cases submitting
  next replayed current =>
    have moved : step oneWorker (.cancel 2) state =
        some (state.setTask 2 (.caller replayed .cancelled)) := by
      simp [step, State.cancelTask, current]
    refine ⟨⟨state, log⟩, _, request.key, journaled, moved, ?_⟩
    exact ((failed_submission_no_trace_iff oneWorker {} 0 ⟨state, log⟩ journaled).1 _ _ 2 request
      future (.cancelled current (Or.inl rfl)) moved).mpr
        ⟨(free_iff_undone request.key journaled).mp free,
          Or.inl ((unstored_iff_undone request.key journaled).mp unstored)⟩

end HardenedClient
