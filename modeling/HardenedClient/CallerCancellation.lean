import HardenedClient.Client.Arrivals
import HardenedClient.Client.Ledger
import HardenedClient.Client.Moves
import HardenedClient.Client.Replay

/-!
# Cancellation of callers

The callers of a key await one future. What they receive is what a worker
settled for their key, as long as a caller is cancelled only when no other caller
holds the future it awaits.
-/

namespace HardenedClient

open Foundation

/-- A caller is cancelled while it awaits a pending future that another caller
holds. -/
def CancelsShared (state : State) (label : Label) : Prop :=
  ∃ id replayed key future other task claim, label = .cancel id ∧
    state.tasks id = some (.caller replayed (.awaiting key future)) ∧
    state.dedup.futures future = .pending ∧
    other ≠ id ∧ state.tasks other = some task ∧ task.claim? = some claim ∧
    claim.ticket = future

/-- A registration changes no future that exists. -/
theorem Registers.futures
    {registry after : InFlightRegistry Response}
    {future : ℕ}
    (registers : Registers registry after)
    (exists_ : future < registry.created) :
    after.futures future = registry.futures future := by
  cases registers with
  | same => rfl
  | called key =>
      rcases registry.getOrCreate_cases key with ⟨_, _, _, called⟩ | ⟨_, called⟩ <;> rw [called]
      simp [exists_.ne]

/-- A future changes by being cancelled while pending, or by a worker that
settles the key it is registered for. -/
theorem Stepped.futures
    {env : Env}
    {label : Label}
    {state next : State}
    {future : ℕ}
    (stepped : Stepped env state label next)
    (alive : label ≠ .crash)
    (exists_ : future < state.dedup.created) :
    next.dedup.futures future = state.dedup.futures future ∨
      state.dedup.futures future = .pending ∧
        ((next.dedup.futures future = .cancelled ∧ ∃ id replayed point,
            label = .cancel id ∧ state.tasks id = some (.caller replayed point)) ∨
          ∃ key outcome, state.dedup.inflight key = some future ∧
            next.dedup.futures future = outcome ∧
            next.history = .settled key future outcome :: state.history) := by
  have settles : ∀ key outcome id,
      ((state.settleKey key outcome).endHandle id).dedup.futures future =
        state.dedup.futures future ∨
      (state.dedup.inflight key = some future ∧ state.dedup.futures future = .pending) ∧
        ((state.settleKey key outcome).endHandle id).dedup.futures future = outcome ∧
        ((state.settleKey key outcome).endHandle id).history =
          .settled key future outcome :: state.history := by
    intro key outcome id
    rw [State.settleKey_endHandle_dedup, InFlightRegistry.settle_futures]
    split_ifs with registered
    · refine Or.inr ⟨(state.dedup.pendingFuture?_eq_some_iff key future).mp registered,
        rfl, ?_⟩
      simp [State.settleKey, registered, State.endHandle, State.setTask, State.record]
    · exact Or.inl rfl
  cases stepped with
  | crash => exact absurd rfl alive
  | request registers | caller _ registers | starter _ registers =>
      exact Or.inl (registers.futures exists_)
  | cancelCaller current cancels =>
      rcases cancels with rfl | ⟨cancelled, rfl⟩
      · exact Or.inl rfl
      · simp only [State.setTask, InFlightRegistry.cancel_futures]
        split_ifs with isOpen
        · obtain ⟨rfl, notDone⟩ := isOpen
          exact Or.inr ⟨Future.eq_pending_of_not_done notDone,
            Or.inl ⟨rfl, _, _, _, rfl, current⟩⟩
        · exact Or.inl rfl
  | handled current _ handled =>
      cases handled with
      | resolved | rejected =>
          rcases settles _ _ _ with same | ⟨⟨registered, pending⟩, settled⟩
          · exact Or.inl same
          · exact Or.inr ⟨pending, Or.inr ⟨_, _, registered, settled⟩⟩
      | _ => exact Or.inl rfl
  | escaped current _ escaped =>
      obtain ⟨_⟩ := escaped
      exact Or.inl rfl
  | _ => exact Or.inl rfl

/-- Futures are numbered in order until a crash. -/
theorem Stepped.created_le
    {env : Env}
    {label : Label}
    {state next : State}
    (stepped : Stepped env state label next)
    (alive : label ≠ .crash) :
    state.dedup.created ≤ next.dedup.created := by
  have registers : ∀ {dedup}, Registers state.dedup dedup →
      state.dedup.created ≤ dedup.created := by
    intro dedup called
    cases called with
    | same => exact Nat.le_refl _
    | called key =>
        rcases state.dedup.getOrCreate_cases key with ⟨_, _, _, called⟩ | ⟨_, called⟩ <;>
          rw [called]
        exact Nat.le_succ _
  cases stepped with
  | crash => exact absurd rfl alive
  | request called | caller _ called | starter _ called => exact registers called
  | cancelCaller _ cancels =>
      rcases cancels with rfl | ⟨future, rfl⟩
      · exact Nat.le_refl _
      · exact (state.dedup.cancel_created future).ge
  | handled _ _ handled =>
      cases handled with
      | resolved | rejected =>
          rw [State.settleKey_eq]
          exact Nat.le_refl _
      | _ => exact Nat.le_refl _
  | escaped _ _ escaped =>
      obtain ⟨_⟩ := escaped
      exact Nat.le_refl _
  | _ => exact Nat.le_refl _

/-- Nobody holds a cancelled future, and every outcome that reached a caller, or
is there for one to receive, was settled for the caller's key. -/
structure State.Delivers (state : State) : Prop extends state.Orderly where
  unharmed : state.flights.Unharmed
  told : ∀ id claim, state.flights.held id = some claim →
    (state.dedup.futures claim.ticket).promise = .kept →
      .settled claim.key claim.ticket (state.dedup.futures claim.ticket) ∈ state.history
  received : ∀ id replayed key future outcome,
    state.tasks id = some (.caller replayed (.received key future outcome)) →
      outcome.promise = .kept ∧ .settled key future outcome ∈ state.history

namespace State.Delivers

theorem boot (tables : Tables) (now : ℚ) (history : List Event) :
    (State.boot tables now history).Delivers where
  toOrderly := .boot tables now history
  unharmed := by simp [Flights.Unharmed, flights_boot, Flights.initial]
  told := by simp [flights_boot, Flights.initial]
  received := by simp [State.boot]

variable {env : Env} {state next : State} {label : Label}

theorem told_step
    (delivers : state.Delivers)
    (alive : label ≠ .crash)
    (moved : HardenedClient.step env label state = some next) :
    ∀ id claim, next.flights.held id = some claim →
      (next.dedup.futures claim.ticket).promise = .kept →
        .settled claim.key claim.ticket (next.dedup.futures claim.ticket) ∈ next.history := by
  intro id claim holding kept
  obtain ⟨action, move, _⟩ := step_movesFlights delivers.tidy moved
  have stepped := step_stepped moved
  rcases move.held_cases holding with there | pending
  · have exists_ := delivers.sound.held_lt id claim there
    rcases stepped.futures alive exists_ with same | ⟨wasPending, ⟨cancelled, _⟩ | settled⟩
    · rw [same] at kept ⊢
      exact stepped.commits.history_suffix.subset (delivers.told id claim there kept)
    · rw [cancelled] at kept
      cases kept
    · obtain ⟨key, outcome, registered, isOutcome, recorded⟩ := settled
      have own := delivers.sound.held_registered id claim there
        ((Future.promise_eq_pending_iff _).mpr wasPending)
      rw [delivers.sound.registered_inj _ _ _ own registered, isOutcome, recorded]
      exact List.mem_cons_self
  · have open_ : (next.dedup.futures claim.ticket).promise = .pending := pending
    rw [open_] at kept
    cases kept

theorem received_step
    (delivers : state.Delivers)
    (moved : HardenedClient.step env label state = some next) :
    ∀ id replayed key future outcome,
      next.tasks id = some (.caller replayed (.received key future outcome)) →
        outcome.promise = .kept ∧ .settled key future outcome ∈ next.history := by
  intro id replayed key future outcome present
  have stepped := step_stepped moved
  cases stepped.awaits delivers.tidy present with
  | stayed before =>
      have received := delivers.received id replayed key future outcome before
      exact ⟨received.1, stepped.commits.history_suffix.subset received.2⟩
  | requested _ waits => exact absurd rfl (waits key future outcome)
  | moved current _ handsOver =>
      obtain ⟨rfl, rfl, done⟩ := handsOver key future outcome rfl
      have holding : state.flights.held id = some ⟨key, future⟩ := by
        simp [State.flights, current, Task.claim?]
      have kept : (state.dedup.futures future).promise = .kept := by
        have unharmed := delivers.unharmed id _ holding
        cases status : state.dedup.futures future <;>
          simp_all [Future.promise, State.flights]
      have told := delivers.told id _ holding kept
      exact ⟨kept, stepped.commits.history_suffix.subset told⟩

theorem solitary
    {action : Flights.Action Key}
    (alone : ¬ CancelsShared state label)
    (traces : Traces env state label action) :
    state.flights.Solitary action := by
  cases action with
  | cancel agent =>
      intro claim other second holding pending shared different sameTicket
      obtain ⟨rfl, replayed, key, future, current⟩ := traces
      obtain rfl : ⟨key, future⟩ = claim := by
        simpa [flights, current, Task.claim?] using holding
      obtain ⟨task, present, claims⟩ := Option.bind_eq_some_iff.mp shared
      exact alone ⟨agent, replayed, key, future, other, task, second, rfl, current,
        (Future.promise_eq_pending_iff _).mp pending, different, present, claims, sameTicket⟩
  | _ => trivial

theorem step
    (delivers : state.Delivers)
    (alone : ¬ CancelsShared state label)
    (moved : HardenedClient.step env label state = some next) :
    next.Delivers := by
  by_cases crashed : label = .crash
  · subst crashed
    rw [← Option.some.inj moved]
    exact .boot _ _ _
  obtain ⟨action, move, traces⟩ := step_movesFlights delivers.tidy moved
  exact {
    toOrderly := delivers.toOrderly.step moved
    unharmed := delivers.unharmed.move delivers.sound (solitary alone traces) move
    told := delivers.told_step crashed moved
    received := delivers.received_step moved }

end State.Delivers

/-- The outcome a worker is about to settle the key of its item with. -/
def HandlePoint.outcome? : HandlePoint → Option (Future Response)
  | .resolving response => some (.result response)
  | .failing exc => some (.exception (terminalError exc))
  | _ => none

/-- A worker that settles a key hands its outcome to every caller that awaits a
pending future for the key. -/
theorem State.Orderly.settles
    {env : Env}
    {state next : State}
    {worker id : ℕ}
    {item : QueueItem}
    {point : HandlePoint}
    {outcome : Future Response}
    {replayed : Option ℕ}
    {future : ℕ}
    (orderly : state.Orderly)
    (current : state.tasks worker = some (.worker (.handling item point)))
    (settling : point.outcome? = some outcome)
    (waiting : state.tasks id = some (.caller replayed (.awaiting item.key future)))
    (pending : state.dedup.futures future = .pending)
    (moved : HardenedClient.step env (.step worker .proceed) state = some next) :
    next.dedup.futures future = outcome := by
  have holding : state.flights.held id = some ⟨item.key, future⟩ := by
    simp [State.flights, waiting, Task.claim?]
  have registered := orderly.sound.held_registered id _ holding
    ((Future.promise_eq_pending_iff _).mpr pending)
  have found : state.dedup.pendingFuture? item.key = some future :=
    (state.dedup.pendingFuture?_eq_some_iff _ _).mpr ⟨registered, pending⟩
  have settled : ∀ outcome, ((state.settleKey item.key outcome).endHandle worker).dedup.futures
      future = outcome := by
    intro outcome
    simp [State.settleKey, found, State.endHandle, State.setTask, State.record,
      InFlightRegistry.settle_futures]
  have task : state.stepHandle env worker item point .proceed = some next := by
    simpa [HardenedClient.step, State.stepTask, current, State.stepWorker] using moved
  cases point <;> simp only [HandlePoint.outcome?, Option.some.injEq, reduceCtorEq] at settling
  case resolving | failing =>
    rw [← Option.some.inj task, ← settling]
    exact settled _

/-- In every run in which a caller is cancelled only when no other caller holds
the pending future it awaits: no caller awaits a cancelled future, what a caller
received was settled for its key, and a worker that settles a key hands its
outcome to all who await it. -/
theorem callers_receive_outcome
    (env : Env)
    (tables : Tables)
    (now : ℚ)
    (state : State)
    (run : Run (step env) (fun before label => ¬ CancelsShared before label)
      (State.boot tables now) state) :
    (∀ id replayed key future,
      state.tasks id = some (.caller replayed (.awaiting key future)) →
        (state.dedup.futures future).promise ≠ .cancelled) ∧
    (∀ id replayed key future outcome,
      state.tasks id = some (.caller replayed (.received key future outcome)) →
        outcome.promise = .kept ∧ .settled key future outcome ∈ state.history) ∧
    ∀ worker item point outcome id replayed future next,
      state.tasks worker = some (.worker (.handling item point)) →
      point.outcome? = some outcome →
      state.tasks id = some (.caller replayed (.awaiting item.key future)) →
      state.dedup.futures future = .pending →
      step env (.step worker .proceed) state = some next →
        next.dedup.futures future = outcome := by
  have delivers : state.Delivers :=
    run.invariant State.Delivers (.boot tables now []) fun _ _ _ delivers alone moved =>
      delivers.step alone moved
  refine ⟨fun id replayed key future current => ?_, delivers.received, ?_⟩
  · exact delivers.unharmed id ⟨key, future⟩ (by simp [State.flights, current, Task.claim?])
  · intro worker item point outcome id replayed future next current settling waiting pending
    exact delivers.settles current settling waiting pending

/-- The outcome a caller received. -/
def State.received? (state : State) (id : ℕ) : Option Promise :=
  match state.tasks id with
  | some (.caller _ (.received _ _ outcome)) => some outcome.promise
  | _ => none

/-- Two callers with one key, of which the first is cancelled. -/
def cancelledLabels : List Label :=
  startLabels ++ requestLabels 2 "http://example.org/" ++
    [.request (getRequest "http://example.org/"), .cancel 2, .step 3 .proceed]

/-- A caller that nobody cancelled receives the cancellation of another. -/
theorem callers_not_receive_outcome :
    ∃ state, Reachable (step oneWorker) (State.boot {}) state ∧
      state.received? 3 = some .cancelled := by
  have passes : (executeChecked (step oneWorker) (fun _ _ => true) cancelledLabels
      (State.boot {})).any (fun state => decide (state.received? 3 = some .cancelled)) =
        true := by
    decide +kernel
  obtain ⟨state, run, tested⟩ := exists_run_of_executeChecked (fun _ _ _ => trivial) passes
  exact ⟨state, run, of_decide_eq_true tested⟩

/-- Two callers with one key, whose request is answered; the second is then
cancelled before it resumes. -/
def deliveredLabels : List Label :=
  startLabels ++ requestLabels 2 "http://example.org/" ++
    [.request (getRequest "http://example.org/")] ++ sendLabels 1 ++ answerLabels 1 200 3 ++
    [.cancel 3, .step 2 .proceed]

/-- A check for steps that cancel no shared future on replayed runs. -/
def cancelsAlone (state : State) : Label → Bool
  | .cancel id =>
      match state.tasks id with
      | some (.caller _ (.awaiting _ future)) => (state.dedup.futures future).done
      | _ => true
  | _ => true

theorem cancelsAlone_sound
    (state : State)
    (label : Label)
    (passes : cancelsAlone state label = true) :
    ¬ CancelsShared state label := by
  rintro ⟨id, replayed, key, future, other, task, claim, rfl, current, pending, _⟩
  simp [cancelsAlone, current, pending] at passes

theorem callers_receive_outcome_shared :
    ∃ state, Run (step oneWorker) (fun before label => ¬ CancelsShared before label)
        (State.boot {}) state ∧
      ∃ replayed key future outcome,
        state.tasks 2 = some (.caller replayed (.received key future outcome)) ∧
          outcome.promise = .kept ∧ .settled key future outcome ∈ state.history := by
  have passes : (executeChecked (step oneWorker) cancelsAlone deliveredLabels
      (State.boot {})).any (fun state => decide (state.received? 2 = some .kept)) = true := by
    decide +kernel
  obtain ⟨state, run, tested⟩ := exists_run_of_executeChecked cancelsAlone_sound passes
  have kept := of_decide_eq_true tested
  unfold State.received? at kept
  split at kept
  · next replayed key future outcome current =>
      exact ⟨state, run, replayed, key, future, outcome, current,
        (callers_receive_outcome oneWorker {} 0 state run).2.1 2 _ _ _ _ current⟩
  · cases kept

end HardenedClient
