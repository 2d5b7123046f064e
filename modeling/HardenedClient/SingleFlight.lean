import HardenedClient.Client.Moves
import HardenedClient.Client.Replay

/-!
# Single flight

At most one work item per key is live, and the callers that wait on a key wait
for the future of that item, as long as no caller is cancelled while it awaits
the future of a live item, and recovered rows hold requests of their own key.
-/

namespace HardenedClient

open Foundation

/-- A caller that awaits a pending future is cancelled while a work item for its
key is live. -/
def CancelsLive (state : State) (label : Label) : Prop :=
  ∃ id replayed key future place item, label = .cancel id ∧
    state.tasks id = some (.caller replayed (.awaiting key future)) ∧
    state.dedup.futures future = .pending ∧
    state.itemAt place = some item ∧ item.key = key

/-- A row that the recovery loop turns to holds a request of the row's key. -/
def RecoversOwnKey (state : State) (label : Label) : Prop :=
  ∀ row, state.recovered? label = some row → row.payload.request.key = row.idempotencyKey

/-- The steps that keep flights single. -/
def KeepsSingle (state : State) (label : Label) : Prop :=
  ¬ CancelsLive state label ∧ RecoversOwnKey state label

namespace State

/-- Every live item works for the pending future registered for its key. -/
structure SingleFlight (state : State) : Prop extends state.Orderly where
  exclusive : state.flights.Exclusive

end State

theorem careful_of_keepsSingle
    {env : Env}
    {state : State}
    {label : Label}
    {action : Flights.Action Key}
    (single : state.SingleFlight)
    (keeps : KeepsSingle state label)
    (traces : Traces env state label action) :
    state.flights.Careful action := by
  cases action with
  | own agent key carry hold =>
      intro own carries
      rcases traces with ⟨request, _, hashes, packed⟩ | ⟨row, isRow, rfl, isOwn⟩
      · rw [carries] at packed
        obtain ⟨durable, isDurable, rfl⟩ := Option.map_eq_some_iff.mp packed.symm
        exact Request.key_of_durable? hashes isDurable
      · rw [carries] at isOwn
        rw [Option.some.inj isOwn]
        exact keeps.2 row isRow
  | cancel agent =>
      rintro claim job holding pending ⟨place, found⟩ same
      obtain ⟨rfl, replayed, key, future, current⟩ := traces
      obtain rfl : ⟨key, future⟩ = claim := by
        simpa [State.flights, current, Task.claim?] using holding
      -- the job and the claim are registered under one ticket, hence one key
      have claimed := single.sound.held_registered agent _ holding pending
      have registered := (single.exclusive job ⟨place, found⟩).1
      have sameKey := single.sound.registered_inj _ _ _ registered (same ▸ claimed)
      rw [State.jobAt_flights] at found
      obtain ⟨item, isItem, rfl⟩ := Option.map_eq_some_iff.mp found
      exact keeps.1 ⟨agent, replayed, key, future, place, item, rfl, current,
        (Future.promise_eq_pending_iff _).mp pending, isItem, sameKey⟩
  | _ => trivial

theorem State.SingleFlight.boot (tables : Tables) (now : ℚ) (history : List Event) :
    (State.boot tables now history).SingleFlight where
  toOrderly := .boot tables now history
  exclusive := fun job live => by simp [State.flights_boot, Flights.live_iff, Flights.initial] at live

theorem State.SingleFlight.step
    {env : Env}
    {state next : State}
    {label : Label}
    (single : state.SingleFlight)
    (keeps : KeepsSingle state label)
    (moved : HardenedClient.step env label state = some next) :
    next.SingleFlight := by
  obtain ⟨action, move, traces⟩ := step_movesFlights single.tidy moved
  exact {
    toOrderly := single.toOrderly.step moved
    exclusive := single.exclusive.move single.sound
      (careful_of_keepsSingle single keeps traces) move }

/-- Single flight over a run. -/
theorem State.SingleFlight.of_run
    {env : Env}
    {allowed : State → Label → Prop}
    {start state : State}
    (single : start.SingleFlight)
    (keeps : ∀ before label, allowed before label → KeepsSingle before label)
    (run : Run (HardenedClient.step env) allowed start state) :
    state.SingleFlight :=
  run.invariant State.SingleFlight single fun _ _ _ single permitted moved =>
    single.step (keeps _ _ permitted) moved

/-- Two places with an item for one key are one place. -/
theorem State.SingleFlight.place_unique
    {state : State}
    (single : state.SingleFlight)
    {place other : Place}
    {first second : QueueItem}
    (found : state.itemAt place = some first)
    (present : state.itemAt other = some second)
    (sameKey : first.key = second.key) :
    place = other :=
  single.exclusive.single single.sound place other first.job second.job
    (by rw [State.jobAt_flights, found]; rfl) (by rw [State.jobAt_flights, present]; rfl)
    sameKey

/-- The pending future registered for the key of a live item is its own. -/
theorem State.SingleFlight.registered
    {state : State}
    (single : state.SingleFlight)
    {place : Place}
    {item : QueueItem}
    (found : state.itemAt place = some item) :
    state.dedup.inflight item.key = some item.flight ∧
      state.dedup.futures item.flight = .pending := by
  have exclusive := single.exclusive item.job
    ⟨place, by rw [State.jobAt_flights, found]; rfl⟩
  exact ⟨exclusive.1, (Future.promise_eq_pending_iff _).mp exclusive.2⟩

/-- In every run in which no caller is cancelled while it awaits the future of a
live item, and recovered rows hold requests of their own key, there is one live
item per key, and whoever waits on its key waits for its future. -/
theorem single_flight
    (env : Env)
    (tables : Tables)
    (now : ℚ)
    (state : State)
    (run : Run (step env) KeepsSingle (State.boot tables now) state) :
    (∀ place other first second,
      state.itemAt place = some first → state.itemAt other = some second →
        first.key = second.key → place = other) ∧
    ∀ place item id task claim,
      state.itemAt place = some item → state.tasks id = some task →
        task.claim? = some claim → claim.key = item.key →
          state.dedup.futures claim.ticket = .pending → claim.ticket = item.flight := by
  have single : state.SingleFlight :=
    .of_run (.boot tables now []) (fun _ _ keeps => keeps) run
  refine ⟨fun place other first second found present sameKey =>
    single.place_unique found present sameKey, ?_⟩
  intro place item id task claim found current claims sameKey pending
  have holding : state.flights.held id = some claim := by
    simp [State.flights, current, claims]
  have registered := single.sound.held_registered id claim holding
    ((Future.promise_eq_pending_iff _).mpr pending)
  have own := (single.registered found).1
  rw [← sameKey] at own
  exact Option.some.inj (registered.symm.trans own)

/-- The key a worker is executing a request for. -/
def State.executing? (state : State) (id : ℕ) : Option Key :=
  match state.tasks id with
  | some (.worker (.handling item (.executing _ _))) => some item.key
  | _ => none

/-- A caller is cancelled while its request is executed, and the request is
submitted again. -/
def resubmittedLabels : List Label :=
  startLabels ++ requestLabels 3 "http://example.org/" ++ sendLabels 1 ++ [.cancel 3] ++
    requestLabels 4 "http://example.org/" ++ sendLabels 2

/-- Two workers execute requests for one key at a time, after the caller of the
first was cancelled. -/
theorem not_single_flight :
    ∃ state key, Reachable (step twoWorkers) (State.boot {}) state ∧
      state.executing? 1 = some key ∧ state.executing? 2 = some key := by
  have passes : (executeChecked (step twoWorkers) (fun _ _ => true) resubmittedLabels
      (State.boot {})).any (fun state => (state.executing? 1).isSome &&
        decide (state.executing? 2 = state.executing? 1)) = true := by
    decide +kernel
  obtain ⟨state, run, tested⟩ := exists_run_of_executeChecked (fun _ _ _ => trivial) passes
  simp only [Bool.and_eq_true, decide_eq_true_eq] at tested
  obtain ⟨key, executing⟩ := Option.isSome_iff_exists.mp tested.1
  exact ⟨state, key, run, executing, tested.2.trans executing⟩

/-- A check for `KeepsSingle` on replayed runs. -/
def keepsSingle (state : State) : Label → Bool
  | .cancel _ => false
  | label => (state.recovered? label).isNone

theorem keepsSingle_sound
    (state : State)
    (label : Label)
    (passes : keepsSingle state label = true) :
    KeepsSingle state label := by
  constructor
  · rintro ⟨id, _, _, _, _, _, rfl, _⟩
    cases passes
  · intro row isRow
    cases label <;> simp_all [keepsSingle]

/-- Two callers share a key, and the item they wait for is executed. -/
theorem single_flight_shared :
    ∃ state, Run (step twoWorkers) KeepsSingle (State.boot {}) state ∧
      (state.executing? 1).isSome = true ∧
      ∀ place first second, state.itemAt (.agent 1) = some first →
        state.itemAt place = some second → first.key = second.key → place = .agent 1 := by
  have passes : (executeChecked (step twoWorkers) keepsSingle
      (startLabels ++ requestLabels 3 "http://example.org/" ++
        [.request (getRequest "http://example.org/")] ++ sendLabels 1)
      (State.boot {})).any (fun state => (state.executing? 1).isSome) = true := by
    decide +kernel
  obtain ⟨state, run, tested⟩ := exists_run_of_executeChecked keepsSingle_sound passes
  refine ⟨state, run, tested, fun place first second found present sameKey => ?_⟩
  exact ((single_flight twoWorkers {} 0 state run).1 (.agent 1) place first second found present
    sameKey).symm

end HardenedClient
