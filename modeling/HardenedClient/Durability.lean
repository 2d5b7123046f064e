import HardenedClient.Client.Replay
import HardenedClient.Client.RowKeys
import HardenedClient.Foundation.History
import HardenedClient.SingleFlight

/-!
# Durability of accepted work

Once the row of a submission is committed, the tables hold the request, as an
inflight row or as a dead letter pushed since, until one of its executions has
succeeded. The order of the commits carries this: a worker deletes a row only
after a success it has seen, or after the dead letter is there; and no other
submission of the key falls in between, since its flight is single.
-/

namespace HardenedClient

open Foundation

/-- Steps without caller cancellation, replay and purge, on requests whose
parameters and body are string-keyed JSON values. -/
structure Undisturbed (state : State) (label : Label) : Prop where
  notCancelled : ∀ id replayed point,
    label = .cancel id → state.tasks id ≠ some (.caller replayed point)
  notReplay : ∀ row, label ≠ .replay row
  notPurge : label ≠ .purge
  isJson : ∀ request, label = .request request → request.isJson = true

/-- After some event, the request of a key is durable: its row is there, or a
dead letter pushed since, or an execution has succeeded since. -/
def State.Durable (state : State) (key : Key) (later : List Event) : Prop :=
  state.tables.inflight.Has key ∨
    (∃ row ∈ state.tables.deadLetters, row.idempotencyKey = key ∧
      .deadLettered key row.id ∈ later) ∨
    .executed key true ∈ later

/-- What a worker knows at an await that deletes its row: since the last commit
of the row, the request succeeded, or is a dead letter. -/
def State.Discharged (state : State) (key : Key) (later : List Event) : Prop :=
  (∃ row ∈ state.tables.deadLetters, row.idempotencyKey = key ∧
      .deadLettered key row.id ∈ later) ∨
    .executed key true ∈ later

namespace State

variable {env : Env} {state next : State} {label : Label}

theorem Discharged.cons
    {key : Key}
    (event : Event)
    {later : List Event}
    (discharged : state.Discharged key later) :
    state.Discharged key (event :: later) := by
  rcases discharged with ⟨row, present, sameKey, pushed⟩ | succeeded
  · exact Or.inl ⟨row, present, sameKey, List.mem_cons_of_mem _ pushed⟩
  · exact Or.inr (List.mem_cons_of_mem _ succeeded)

theorem Discharged.mono
    {key : Key}
    {later : List Event}
    (keeps : ∀ row ∈ state.tables.deadLetters, row ∈ next.tables.deadLetters)
    (discharged : state.Discharged key later) :
    next.Discharged key later := by
  rcases discharged with ⟨row, present, sameKey, pushed⟩ | succeeded
  · exact Or.inl ⟨row, keeps row present, sameKey, pushed⟩
  · exact Or.inr succeeded

theorem Durable.cons
    {key : Key}
    (event : Event)
    {later : List Event}
    (durable : state.Durable key later) :
    state.Durable key (event :: later) := by
  rcases durable with row | discharged
  · exact Or.inl row
  · exact Or.inr (Discharged.cons event discharged)

/-- Only a caller that persists a request records its key as persisted. -/
theorem upserted_of_commit
    {tables : Tables}
    {history : List Event}
    {key : Key}
    (commits : Commits state tables history)
    (marked : history = .upserted key :: state.history) :
    tables.inflight.Has key ∧ ∃ id replayed request future,
      state.tasks id = some (.caller replayed (.upserting request future)) ∧
        request.key = key := by
  cases commits with
  | none volatile =>
      obtain rfl := List.append_cancel_right (show _ = [Event.upserted key] ++ state.history from marked)
      cases volatile _ List.mem_cons_self
  | upserted current =>
      obtain rfl := Event.upserted.inj (List.cons.inj marked).1
      exact ⟨by simp, _, _, _, _, current, rfl⟩
  | incremented | deleted | pushed | removed | purged => cases (List.cons.inj marked).1

/-- A commit that does not persist the key anew keeps an obligation that later
events cannot break. -/
theorem since_commit
    {tables : Tables}
    {history : List Event}
    {key : Key}
    {holds : List Event → Prop}
    (commits : Commits state tables history)
    (unmarked : history ≠ .upserted key :: state.history)
    (grows : ∀ event later, holds later → holds (event :: later))
    (since : Since (· = .upserted key) holds state.history) :
    Since (· = .upserted key) holds history := by
  cases commits with
  | none volatile =>
      apply since.append _ _ grows
      rintro event present rfl
      cases volatile _ present
  | upserted | incremented | deleted | pushed | removed | purged =>
      refine since.cons_of_not_mark ?_ (grows _)
      rintro same
      exact unmarked (by rw [same])

/-- The invariant of undisturbed runs. -/
structure Accountable (state : State) : Prop extends state.SingleFlight where
  consistent : state.tables.Consistent
  callers : ∀ id replayed point, state.tasks id = some (.caller replayed point) →
    (∀ request future, point = .upserting request future →
      request.payload.request.key = request.key) ∧
    (∀ row, point ≠ .removing row) ∧ ∀ row, point ≠ .removed row
  starters : ∀ id point, state.tasks id = some (.starter point) →
    ∀ row ∈ point.rows, row.payload.request.key = row.idempotencyKey
  discharged : ∀ id item point, state.tasks id = some (.worker (.handling item point)) →
    point.deletes = true →
      Since (· = .upserted item.key) (state.Discharged item.key) state.history
  durable : ∀ key, Since (· = .upserted key) (state.Durable key) state.history

/-- Callers persist requests that decode to their own key, and none replays. -/
theorem Accountable.callers_step
    (accountable : state.Accountable)
    (undisturbed : Undisturbed state label)
    (stepped : Stepped env state label next) :
    ∀ id replayed point, next.tasks id = some (.caller replayed point) →
      (∀ request future, point = .upserting request future →
        request.payload.request.key = request.key) ∧
      (∀ row, point ≠ .removing row) ∧ ∀ row, point ≠ .removed row := by
  intro id replayed point current
  cases stepped.awaits accountable.tidy current with
  | stayed before => exact accountable.callers id replayed point before
  | replays => exact absurd rfl (undisturbed.notReplay _)
  | cancelled before => exact absurd before (undisturbed.notCancelled _ _ _ rfl)
  | removed before => exact absurd rfl ((accountable.callers _ _ _ before).2.1 _)
  | upserted => exact ⟨by simp, by simp, by simp⟩
  | @requested request point enters _ =>
      refine ⟨fun durable future isUpserting => ?_, fun row => (enters.notReplays row).1,
        fun row => (enters.notReplays row).2⟩
      obtain ⟨submitted, submits, packed⟩ := enters.submits durable future isUpserting
      apply durable.key_payload_request
      rw [Request.request_of_durable? packed]
      have json := undisturbed.isJson request rfl
      simp only [State.submitted?] at submits
      split_ifs at submits
      rw [← Option.some.inj submits]
      exact Request.isJson_accepted json
  | @moved choice before point present enters _ =>
      refine ⟨fun durable future isUpserting => ?_, fun row => (enters.notReplays row).1,
        fun row => (enters.notReplays row).2⟩
      -- only a replay submits a request at a step of its own
      obtain ⟨submitted, submits, _⟩ := enters.submits durable future isUpserting
      cases choice <;> simp only [State.submitted?, present, reduceCtorEq] at submits
      split at submits
      · next found =>
          cases found
          exact absurd rfl ((accountable.callers _ _ _ present).2.2 _)
      · cases submits

/-- Undisturbed steps keep flights single. -/
theorem Accountable.keepsSingle
    (accountable : state.Accountable)
    (undisturbed : Undisturbed state label) :
    KeepsSingle state label := by
  constructor
  · rintro ⟨id, replayed, key, future, _, _, rfl, current, _⟩
    exact undisturbed.notCancelled id replayed _ rfl current
  · intro row isRow
    unfold State.recovered? at isRow
    split at isRow <;> try cases isRow
    split at isRow <;> cases isRow
    next current => exact accountable.starters _ _ current row List.mem_cons_self

/-- Undisturbed steps keep every dead letter. -/
theorem Accountable.deadLetters_step
    (accountable : state.Accountable)
    (undisturbed : Undisturbed state label)
    (stepped : Stepped env state label next) :
    ∀ row ∈ state.tables.deadLetters, row ∈ next.tables.deadLetters := by
  rcases stepped.deadLetters with keeps | purged | ⟨_, _, row, _, current, _⟩
  · exact keeps
  · exact absurd purged undisturbed.notPurge
  · exact absurd rfl ((accountable.callers _ _ _ current).2.1 row)

/-- No step persists the key of an item that a worker handles. -/
theorem Accountable.unmarked_of_handling
    {id : ℕ}
    {item : QueueItem}
    {point : HandlePoint}
    (accountable : state.Accountable)
    (stepped : Stepped env state label next)
    (current : state.tasks id = some (.worker (.handling item point))) :
    next.history ≠ .upserted item.key :: state.history := by
  intro marked
  obtain ⟨_, other, replayed, request, future, persisting, sameKey⟩ :=
    upserted_of_commit stepped.commits marked
  have handled : state.itemAt (.agent id) = some item := by simp [itemAt, current, Task.item?]
  have submitted : state.itemAt (.agent other) = some ⟨request, 0, future⟩ := by
    simp [itemAt, persisting, Task.item?]
  have same := accountable.place_unique submitted handled sameKey
  rw [Place.agent.inj same, current] at persisting
  cases persisting

/-- A worker reaches an await that deletes its row with the request's success or
dead letter behind it. -/
theorem Accountable.discharged_step
    (accountable : state.Accountable)
    (undisturbed : Undisturbed state label)
    (stepped : Stepped env state label next) :
    ∀ id item point, next.tasks id = some (.worker (.handling item point)) →
      point.deletes = true →
        Since (· = .upserted item.key) (next.Discharged item.key) next.history := by
  intro id item point current deletes
  have keeps := accountable.deadLetters_step undisturbed stepped
  rcases stepped.stage accountable.tidy current with
    before | ⟨response, rfl, recorded⟩ | ⟨exc, rfl, pushed, recorded⟩ | stays
  · have since := accountable.discharged id item point before deletes
    exact since_commit stepped.commits (accountable.unmarked_of_handling stepped before)
      (fun event _ => Discharged.cons event)
      (since.mono fun _ => Discharged.mono keeps)
  · rw [recorded, since_cons]
    refine ⟨by simp, Since.of_forall _ fun later => Or.inr List.mem_cons_self⟩
  · rw [recorded, since_cons]
    refine ⟨by simp, Since.of_forall _ fun later => Or.inl ?_⟩
    rw [pushed]
    exact ⟨_, List.mem_append_right _ List.mem_cons_self, rfl, List.mem_cons_self⟩
  · rw [stays] at deletes
    cases deletes

/-- Every commit keeps the requests that were accepted before durable. -/
theorem Accountable.durable_step
    (accountable : state.Accountable)
    (undisturbed : Undisturbed state label)
    (stepped : Stepped env state label next)
    (key : Key) :
    Since (· = .upserted key) (next.Durable key) next.history := by
  by_cases stored : next.tables.inflight.Has key
  · exact Since.of_forall _ fun later => Or.inl stored
  have keeps := accountable.deadLetters_step undisturbed stepped
  have unmarked : next.history ≠ .upserted key :: state.history := fun marked =>
    stored (upserted_of_commit stepped.commits marked).1
  -- with the row gone, the worker that deleted it had the success or the dead letter
  have since : Since (· = .upserted key) (state.Discharged key) state.history := by
    by_cases row : state.tables.inflight.Has key
    · obtain ⟨id, item, point, current, deletes, rfl⟩ :=
        stepped.commits.deletes_of_gone stored row
      exact accountable.discharged id item point current deletes
    · exact (accountable.durable key).mono fun _ durable => durable.resolve_left row
  refine since_commit stepped.commits unmarked (fun event _ => Durable.cons event) ?_
  exact since.mono fun _ discharged => Or.inr (Discharged.mono keeps discharged)

theorem Accountable.step
    (accountable : state.Accountable)
    (undisturbed : Undisturbed state label)
    (moved : HardenedClient.step env label state = some next) :
    next.Accountable := by
  have stepped := step_stepped moved
  exact {
    toSingleFlight := accountable.toSingleFlight.step (accountable.keepsSingle undisturbed) moved
    consistent := stepped.commits.consistent accountable.consistent
      fun id replayed request future current =>
        (accountable.callers id replayed _ current).1 request future rfl
    callers := accountable.callers_step undisturbed stepped
    starters := stepped.starters_own_key accountable.tidy accountable.consistent
      accountable.starters
    discharged := accountable.discharged_step undisturbed stepped
    durable := accountable.durable_step undisturbed stepped }

theorem Accountable.boot
    {tables : Tables}
    (now : ℚ)
    (consistent : tables.Consistent) :
    (boot tables now).Accountable where
  toSingleFlight := .boot tables now []
  consistent := consistent
  callers := fun _ _ _ current => by cases current
  starters := fun _ _ current => by cases current
  discharged := fun _ _ _ current => by cases current
  durable := fun _ => since_nil _ _

end State

/-- In every undisturbed run over a database whose rows hold requests of their
own keys, from each commit of a row on, its request has a row, a dead letter
pushed since, or an execution that succeeded since. -/
theorem accepted_work_durable
    (env : Env)
    (tables : Tables)
    (now : ℚ)
    (consistent : tables.Consistent)
    (state : State)
    (run : Run (step env) Undisturbed (State.boot tables now) state)
    (key : Key)
    (later earlier : List Event)
    (committed : state.history = later ++ .upserted key :: earlier) :
    state.tables.inflight.Has key ∨
      (∃ row ∈ state.tables.deadLetters, row.idempotencyKey = key ∧
        .deadLettered key row.id ∈ later) ∨
      .executed key true ∈ later := by
  have accountable : state.Accountable :=
    run.invariant State.Accountable (.boot now consistent)
      fun _ _ _ accountable undisturbed moved => accountable.step undisturbed moved
  exact accountable.durable key later _ earlier committed rfl

/-- A check for undisturbed steps on replayed runs. -/
def undisturbed : Label → Bool
  | .cancel _ | .replay _ | .purge => false
  | .request request => request.isJson
  | _ => true

theorem undisturbed_sound
    (state : State)
    (label : Label)
    (passes : undisturbed label = true) :
    Undisturbed state label := by
  constructor
  · rintro id replayed point rfl
    cases passes
  · rintro row rfl
    cases passes
  · rintro rfl
    cases passes
  · rintro request rfl
    exact passes

/-- A request that is answered with 500, and a crash after its retry is counted;
the next process sends it again, and it is answered with 200. -/
def crashedLabels : List Label :=
  startLabels ++ requestLabels 2 "http://example.org/" ++ sendLabels 1 ++
    answerLabels 1 500 1 ++ [.crash, .start] ++ proceedLabels 0 6 ++ sendLabels 1 ++
    answerLabels 1 200 1

/-- The key whose row was committed. -/
def Event.persisted? : Event → Option Key
  | .upserted key => some key
  | _ => none

theorem accepted_work_durable_crashed :
    ∃ state key later earlier, Run (step oneWorker) Undisturbed (State.boot {}) state ∧
      state.history = later ++ .upserted key :: earlier ∧
      (state.tables.inflight.Has key ∨
        (∃ row ∈ state.tables.deadLetters, row.idempotencyKey = key ∧
          .deadLettered key row.id ∈ later) ∨
        .executed key true ∈ later) := by
  have passes : (executeChecked (step oneWorker) (fun _ label => undisturbed label)
      crashedLabels (State.boot {})).any (fun state =>
        state.history.any fun event => event.persisted?.isSome) = true := by
    decide +kernel
  obtain ⟨state, run, tested⟩ := exists_run_of_executeChecked undisturbed_sound passes
  obtain ⟨event, present, persisted⟩ := List.any_eq_true.mp tested
  obtain ⟨later, earlier, split⟩ := List.append_of_mem present
  cases event <;> cases persisted
  next key =>
    exact ⟨state, key, later, earlier, run, split,
      accepted_work_durable oneWorker {} 0 (fun _ row => by cases row) state run key _ _ split⟩

end HardenedClient
