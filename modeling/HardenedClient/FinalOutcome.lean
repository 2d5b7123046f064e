import HardenedClient.CallerCancellation
import HardenedClient.Custody
import HardenedClient.Foundation.History

/-!
# Outcomes are final

A worker deletes the row of its item before it settles the key, and no row of
the key is persisted in between, since its flight is single. So an outcome that a
caller has observed is never executed again after a restart, and everybody who
awaits the same future gets it.
-/

namespace HardenedClient

open Foundation

/-- The row of a key has been deleted, and none was persisted since. -/
def DeletedLast (key : Key) (history : List Event) : Prop :=
  ∃ later earlier, history = later ++ .deleted key :: earlier ∧ .upserted key ∉ later

/-- A future was settled for a key with an outcome, by the process that still
runs. -/
def SettledHere
    (key : Key)
    (future : ℕ)
    (outcome : Future Response)
    (history : List Event) : Prop :=
  ∃ later earlier, history = later ++ .settled key future outcome :: earlier ∧
    .crashed ∉ later

/-- The event settles a key. -/
def Event.Settles (key : Key) : Event → Prop
  | .settled other _ _ => other = key
  | _ => False

/-- What the history before an event has to show: a key is settled once its row
is deleted for good, and handled again only if it was persisted again. -/
def Event.Admitted : Event → List Event → Prop
  | .settled key _ _, earlier => DeletedLast key earlier
  | .handled key _, earlier => Since (Event.Settles key) (.upserted key ∈ ·) earlier
  | _, _ => True

theorem DeletedLast.cons
    {key : Key}
    {event : Event}
    {history : List Event}
    (deleted : DeletedLast key history)
    (other : event ≠ .upserted key) :
    DeletedLast key (event :: history) := by
  obtain ⟨later, earlier, rfl, none⟩ := deleted
  refine ⟨event :: later, earlier, rfl, ?_⟩
  rintro (_ | ⟨_, present⟩)
  · exact other rfl
  · exact none present

theorem SettledHere.cons
    {key : Key}
    {future : ℕ}
    {outcome : Future Response}
    {event : Event}
    {history : List Event}
    (settled : SettledHere key future outcome history)
    (running : event ≠ .crashed) :
    SettledHere key future outcome (event :: history) := by
  obtain ⟨later, earlier, rfl, none⟩ := settled
  refine ⟨event :: later, earlier, rfl, ?_⟩
  rintro (_ | ⟨_, present⟩)
  · exact running rfl
  · exact none present

namespace State

variable {env : Env} {state next : State} {label : Label}

/-- A future that was settled stays so until a crash. -/
theorem settledHere_step
    {key : Key}
    {future : ℕ}
    {outcome : Future Response}
    (settled : SettledHere key future outcome state.history)
    (alive : label ≠ .crash)
    (moved : HardenedClient.step env label state = some next) :
    SettledHere key future outcome next.history := by
  rcases step_records moved with ⟨quiet, _⟩ | ⟨event, recorded, records⟩
  · rwa [quiet]
  · rw [recorded]
    apply settled.cons
    rintro rfl
    cases records with
    | crashed isCrash => exact alive isCrash

/-- Outcomes are settled after the row of their key is gone, and the callers that
know one have it from there. -/
structure Final (env : Env) (state : State) : Prop extends state.Reconciled env where
  retired : ∀ id item point, state.tasks id = some (.worker (.handling item point)) →
    point.backed? item = none → DeletedLast item.key state.history
  admitted : Foundation.Recorded Event.Admitted state.history
  gone : ∀ key, Since (Event.Settles key)
    (fun later => state.tables.inflight.Has key → .upserted key ∈ later) state.history
  told : ∀ id claim, state.flights.held id = some claim →
    state.dedup.futures claim.ticket ≠ .pending →
      SettledHere claim.key claim.ticket (state.dedup.futures claim.ticket) state.history
  received : ∀ id replayed key future outcome,
    state.tasks id = some (.caller replayed (.received key future outcome)) →
      future < state.dedup.created ∧ state.dedup.futures future = outcome ∧
        outcome.done = true ∧ SettledHere key future outcome state.history

theorem Final.boot
    {tables : Tables}
    (env : Env)
    (now : ℚ)
    (consistent : tables.Consistent) :
    Final env (boot tables now) where
  toReconciled := .boot env now [] consistent
  retired := fun _ _ _ current => by cases current
  admitted := recorded_nil _
  gone := fun _ => since_nil _ _
  told := by simp [flights_boot, Flights.initial]
  received := fun _ _ _ _ _ current => by cases current

/-- A worker past the delete of its row has no later row of the key. -/
theorem Final.retired_step
    (final : Final env state)
    (moved : HardenedClient.step env label state = some next) :
    ∀ id item point, next.tasks id = some (.worker (.handling item point)) →
      point.backed? item = none → DeletedLast item.key next.history := by
  intro id item point current past
  have stays : ∀ before, state.tasks id = some (.worker (.handling item before)) →
      before.backed? item = none → DeletedLast item.key next.history := by
    intro before there wasPast
    have deleted := final.retired id item before there wasPast
    rcases step_records moved with ⟨quiet, _⟩ | ⟨event, recorded, records⟩
    · rwa [quiet]
    · rw [recorded]
      exact deleted.cons (final.not_upserted_of_handling there records)
  rcases worker_cases final.tidy moved current with
    ⟨before, _⟩ | ⟨_, _, _, rfl⟩ | ⟨choice, before, rfl, present, stepped, handled⟩
  · exact stays point before past
  · cases past
  · cases handled with
    | advanced advances =>
        cases advances with
        | blocked disposes => cases disposes <;> (simp at current; subst current; cases past)
        | admitted | waits | granted => simp at current; subst current; cases past
        | answered response chosen => exact stays _ present rfl
        | hooked => exact stays _ present rfl
    | failed disposes => cases disposes <;> (simp at current; subst current; cases past)
    | succeeded | incremented | pushed => simp at current; subst current; cases past
    | deleted | retired => exact ⟨[], _, rfl, List.not_mem_nil⟩
    | resolved | rescheduled | rejected => simp at current

/-- Each event is recorded when the history admits it. -/
theorem Final.admitted_step
    (final : Final env state)
    (moved : HardenedClient.step env label state = some next) :
    Foundation.Recorded Event.Admitted next.history := by
  rcases step_records moved with ⟨quiet, _⟩ | ⟨event, recorded, records⟩
  · rw [quiet]
    exact final.admitted
  · rw [recorded, recorded_cons]
    refine ⟨?_, final.admitted⟩
    cases records with
    | settled current past => exact final.retired _ _ _ current past
    | @handled id item rest idle waiting =>
        -- the item on the queue has a row, so the key was persisted after it was settled
        obtain ⟨row, present, sameKey, _⟩ :=
          final.mirrored (.queue 0) item (by simp [backedAt, waiting])
        exact (final.gone item.key).mono fun later persisted => persisted ⟨row, present, sameKey⟩
    | _ => trivial

/-- A key that was settled has a row only if it was persisted since. -/
theorem Final.gone_step
    (final : Final env state)
    (moved : HardenedClient.step env label state = some next)
    (key : Key) :
    Since (Event.Settles key)
      (fun later => next.tables.inflight.Has key → .upserted key ∈ later) next.history := by
  have has : next.tables.inflight.Has key →
      state.tables.inflight.Has key ∨ next.history = .upserted key :: state.history :=
    (step_stepped moved).commits.has_cases
  rcases step_records moved with ⟨quiet, _⟩ | ⟨event, recorded, records⟩
  · rw [quiet] at has ⊢
    refine (final.gone key).mono fun later persisted row => persisted ?_
    exact (has row).resolve_right fun same => List.ne_cons_self same
  · rw [recorded] at has ⊢
    rw [since_cons]
    constructor
    · intro settles row
      cases records with
      | settled current past _ _ _ tables =>
          obtain rfl : _ = key := settles
          rw [tables] at row
          exact absurd row (final.cleared _ _ _ current past)
      | _ => cases settles
    · refine (final.gone key).mono fun later persisted row => ?_
      rcases has row with before | same
      · exact List.mem_cons_of_mem _ (persisted before)
      · rw [(List.cons.inj same).1]
        exact List.mem_cons_self

/-- A future that is done was settled for whoever holds it. -/
theorem Final.told_step
    (final : Final env state)
    (uncancelled : Uncancelled state label)
    (alive : label ≠ .crash)
    (moved : HardenedClient.step env label state = some next) :
    ∀ id claim, next.flights.held id = some claim →
      next.dedup.futures claim.ticket ≠ .pending →
        SettledHere claim.key claim.ticket (next.dedup.futures claim.ticket) next.history := by
  intro id claim holding done
  obtain ⟨action, move, _⟩ := step_movesFlights final.tidy moved
  rcases move.held_cases holding with there | pending
  swap
  · exact absurd ((Future.promise_eq_pending_iff _).mp pending) done
  have exists_ := final.sound.held_lt id claim there
  rcases (step_stepped moved).futures alive exists_ with
    same | ⟨wasPending, ⟨_, _, _, _, isCancel, caller⟩ |
      ⟨key, outcome, registered, isOutcome, recorded⟩⟩
  · rw [same] at done ⊢
    exact settledHere_step (final.told id claim there done) alive moved
  · exact absurd caller (uncancelled _ _ _ isCancel)
  · have own := final.sound.held_registered id claim there
      ((Future.promise_eq_pending_iff _).mpr wasPending)
    rw [final.sound.registered_inj _ _ _ own registered, isOutcome, recorded]
    exact ⟨[], _, rfl, List.not_mem_nil⟩

/-- What a caller has received was settled, and stays the outcome of its
future. -/
theorem Final.received_step
    (final : Final env state)
    (alive : label ≠ .crash)
    (moved : HardenedClient.step env label state = some next) :
    ∀ id replayed key future outcome,
      next.tasks id = some (.caller replayed (.received key future outcome)) →
        future < next.dedup.created ∧ next.dedup.futures future = outcome ∧
          outcome.done = true ∧ SettledHere key future outcome next.history := by
  intro id replayed key future outcome current
  have stepped := step_stepped moved
  have keeps : future < state.dedup.created → state.dedup.futures future = outcome →
      outcome.done = true → SettledHere key future outcome state.history →
      future < next.dedup.created ∧ next.dedup.futures future = outcome ∧
          outcome.done = true ∧ SettledHere key future outcome next.history := by
    intro exists_ isOutcome done settled
    refine ⟨exists_.trans_le (stepped.created_le alive), ?_, done, settledHere_step settled alive moved⟩
    rcases stepped.futures alive exists_ with same | ⟨pending, _⟩
    · rw [same, isOutcome]
    · rw [← isOutcome, pending] at done
      cases done
  cases stepped.awaits final.tidy current with
  | stayed before =>
      obtain ⟨exists_, isOutcome, done, settled⟩ :=
        final.received id replayed key future outcome before
      exact keeps exists_ isOutcome done settled
  | requested _ waits => exact absurd rfl (waits key future outcome)
  | moved waiting _ delivers =>
      obtain ⟨rfl, rfl, done⟩ := delivers key future outcome rfl
      have holding : state.flights.held id = some ⟨key, future⟩ := by
        simp [State.flights, waiting, Task.claim?]
      refine keeps (final.sound.held_lt id _ holding) rfl done (final.told id _ holding ?_)
      intro pending
      rw [show state.dedup.futures future = .pending from pending] at done
      cases done

theorem Final.step
    (final : Final env state)
    (regular : Regular state label)
    (moved : HardenedClient.step env label state = some next) :
    Final env next := by
  have reconciled := final.toReconciled.step regular moved
  have retired := final.retired_step moved
  have admitted := final.admitted_step moved
  have gone := final.gone_step moved
  by_cases crashed : label = .crash
  · subst crashed
    rw [← Option.some.inj moved] at reconciled retired admitted gone ⊢
    refine ⟨reconciled, retired, admitted, gone, ?_, fun _ _ _ _ _ current => by cases current⟩
    simp [flights_boot, Flights.initial]
  · exact ⟨reconciled, retired, admitted, gone,
      final.told_step regular.uncancelled crashed moved, final.received_step crashed moved⟩

/-! ## Those who wait for an outcome -/

/-- A caller awaits a future for a key, or has received its outcome. -/
def AwaitsOrReceived
    (state : State)
    (id : ℕ)
    (replayed : Option ℕ)
    (key : Key)
    (future : ℕ) : Prop :=
  state.tasks id = some (.caller replayed (.awaiting key future)) ∨
    ∃ outcome, state.tasks id = some (.caller replayed (.received key future outcome))

/-- A caller that is not cancelled awaits its future until it receives it. -/
theorem AwaitsOrReceived.step
    {id : ℕ}
    {replayed : Option ℕ}
    {key : Key}
    {future : ℕ}
    (attached : state.AwaitsOrReceived id replayed key future)
    (tidy : state.Tidy)
    (uncancelled : Uncancelled state label)
    (alive : label ≠ .crash)
    (moved : HardenedClient.step env label state = some next) :
    next.AwaitsOrReceived id replayed key future := by
  obtain ⟨point, current⟩ : ∃ point, state.tasks id = some (.caller replayed point) := by
    rcases attached with waits | ⟨outcome, received⟩
    · exact ⟨_, waits⟩
    · exact ⟨_, received⟩
  have known := tidy.lt_of_task current
  by_cases isActor : id = label.actor state
  swap
  · unfold AwaitsOrReceived
    rw [((step_stepped moved).frame tidy alive).others id known isActor]
    exact attached
  cases label with
  | step actor choice =>
      obtain rfl : id = actor := isActor
      rcases attached with waits | ⟨outcome, received⟩
      · simp only [HardenedClient.step, stepTask, waits] at moved
        cases choice <;> simp only [stepCaller, reduceCtorEq] at moved
        split_ifs at moved
        rw [← Option.some.inj moved]
        exact Or.inr ⟨_, setTask_tasks_self _ _ _⟩
      · simp only [HardenedClient.step, stepTask, received] at moved
        cases choice <;> cases moved
  | cancel actor =>
      obtain rfl : id = actor := isActor
      exact absurd current (uncancelled id replayed point rfl)
  | cancelWorker actor =>
      obtain rfl : id = actor := isActor
      simp only [HardenedClient.step, State.cancelWorker, current] at moved
      split_ifs at moved
  | crash => exact absurd rfl alive
  | _ => exact absurd isActor known.ne

end State

/-- In every regular run over a database whose rows hold requests of their own
keys: what a caller received was settled by the running process after the row was
deleted for good; a key that was settled has a row, or is handled, only after it
was persisted again; the callers that await a pending future for one key await
one future; and once somebody has received a future, everybody who awaits it
receives the same. -/
theorem observed_outcome_final
    (env : Env)
    (tables : Tables)
    (now : ℚ)
    (consistent : tables.Consistent)
    (state : State)
    (run : Run (step env) Regular (State.boot tables now) state) :
    (∀ id replayed key future outcome,
      state.tasks id = some (.caller replayed (.received key future outcome)) →
        ∃ later earlier, state.history = later ++ .settled key future outcome :: earlier ∧
          .crashed ∉ later ∧ DeletedLast key earlier) ∧
    (∀ later key future outcome earlier,
      state.history = later ++ .settled key future outcome :: earlier →
        DeletedLast key earlier ∧
        (state.tables.inflight.Has key → .upserted key ∈ later) ∧
        ∀ recent attempt past, later = recent ++ .handled key attempt :: past →
          .upserted key ∈ past) ∧
    (∀ id other replayed second key future shared,
      state.tasks id = some (.caller replayed (.awaiting key future)) →
      state.tasks other = some (.caller second (.awaiting key shared)) →
      state.dedup.futures future = .pending → state.dedup.futures shared = .pending →
        future = shared) ∧
    ∀ id replayed key future,
      state.tasks id = some (.caller replayed (.awaiting key future)) →
      ∀ after, Run (step env) (fun before label => Regular before label ∧ label ≠ .crash)
          state after →
        ∀ other second outcome,
          after.tasks other = some (.caller second (.received key future outcome)) →
            after.tasks id = some (.caller replayed (.received key future outcome)) ∨
              after.tasks id = some (.caller replayed (.awaiting key future)) ∧
                step env (.step id .proceed) after = some
                  (after.setTask id (.caller replayed (.received key future outcome))) := by
  have final : state.Final env :=
    run.invariant (State.Final env) (.boot env now consistent)
      fun _ _ _ final regular moved => final.step regular moved
  refine ⟨?_, ?_, ?_, ?_⟩
  · intro id replayed key future outcome current
    obtain ⟨_, _, _, later, earlier, split, running⟩ :=
      final.received id replayed key future outcome current
    exact ⟨later, earlier, split, running, final.admitted later _ earlier split⟩
  · intro later key future outcome earlier split
    refine ⟨final.admitted later _ earlier split, final.gone key later _ earlier split rfl, ?_⟩
    rintro recent attempt past rfl
    rw [List.append_assoc, List.cons_append] at split
    exact final.admitted recent _ _ split past _ earlier rfl rfl
  · intro id other replayed second key future shared current present pending unsettled
    have first := final.sound.held_registered id ⟨key, future⟩
      (by simp [State.flights, current, Task.claim?])
      ((Future.promise_eq_pending_iff _).mpr pending)
    have next := final.sound.held_registered other ⟨key, shared⟩
      (by simp [State.flights, present, Task.claim?])
      ((Future.promise_eq_pending_iff _).mpr unsettled)
    exact Option.some.inj (first.symm.trans next)
  · intro id replayed key future current after continued other second outcome received
    have later : after.Final env ∧ after.AwaitsOrReceived id replayed key future :=
      continued.invariant
        (fun state => state.Final env ∧ state.AwaitsOrReceived id replayed key future)
        ⟨final, Or.inl current⟩ fun _ _ _ holds permitted moved =>
          ⟨holds.1.step permitted.1 moved,
            holds.2.step holds.1.tidy permitted.1.uncancelled permitted.2 moved⟩
    obtain ⟨_, isOutcome, done, _⟩ := later.1.received other second key future outcome received
    rcases later.2 with waits | ⟨own, mine⟩
    · refine Or.inr ⟨waits, ?_⟩
      simp [step, State.stepTask, waits, State.stepCaller, isOutcome, done]
    · obtain ⟨_, isOwn, _⟩ := later.1.received id replayed key future own mine
      left
      rw [mine, ← isOwn, isOutcome]

/-- Two callers share a key, the request is answered, and the first resumes. -/
def observedLabels : List Label :=
  startLabels ++ requestLabels 2 "http://example.org/" ++
    [.request (getRequest "http://example.org/")] ++ sendLabels 1 ++ answerLabels 1 200 3 ++
    proceedLabels 2 1

/-- A caller awaits the future whose outcome another has received. -/
def State.sharesOutcome (state : State) (received awaiting : ℕ) : Bool :=
  match state.tasks received, state.tasks awaiting with
  | some (.caller _ (.received key future _)), some (.caller _ (.awaiting other shared)) =>
      decide (key = other ∧ future = shared)
  | _, _ => false

theorem observed_outcome_final_shared :
    ∃ state replayed key future outcome, Run (step oneWorker) Regular (State.boot {}) state ∧
      (∃ later earlier, state.history = later ++ .settled key future outcome :: earlier ∧
        .crashed ∉ later ∧ DeletedLast key earlier) ∧
      (state.tasks 3 = some (.caller replayed (.received key future outcome)) ∨
        state.tasks 3 = some (.caller replayed (.awaiting key future)) ∧
          step oneWorker (.step 3 .proceed) state = some
            (state.setTask 3 (.caller replayed (.received key future outcome)))) := by
  have passes : (executeChecked (step oneWorker) (fun _ label => regular label) observedLabels
      (State.boot {})).any (fun state => state.sharesOutcome 2 3) = true := by
    decide +kernel
  obtain ⟨state, run, tested⟩ := exists_run_of_executeChecked regular_sound passes
  have final := observed_outcome_final oneWorker {} 0 (fun _ row => by cases row) state run
  unfold State.sharesOutcome at tested
  split at tested
  · next first key future outcome second other shared received awaiting =>
      obtain ⟨rfl, rfl⟩ := of_decide_eq_true tested
      exact ⟨state, second, key, future, outcome, run,
        final.1 2 first key future outcome received,
        final.2.2.2 3 second key future awaiting state .refl 2 first outcome received⟩
  · cases tested

end HardenedClient
