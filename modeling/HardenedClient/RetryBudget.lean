import HardenedClient.Client.Replay
import HardenedClient.Foundation.History
import HardenedClient.Served

/-!
# The retry budget over restarts

An attempt that fails is counted in the row before it is followed by another one,
and an attempt whose count is lost takes the process with it. So the attempts of a
submission are bounded by its retries and the crashes it has lived through.
-/

namespace HardenedClient

open Foundation

/-- The event starts an attempt for a key. -/
def Event.isAttempt (key : Key) : Event → Bool
  | .handled other _ => decide (other = key)
  | _ => false

/-- The event counts a retry of a key. -/
def Event.isRetry (key : Key) : Event → Bool
  | .incremented other => decide (other = key)
  | _ => false

/-- The event is a crash. -/
def Event.isCrash : Event → Bool
  | .crashed => true
  | _ => false

/-- How often `_handle` was started for a key. -/
def attemptCount (key : Key) (events : List Event) : ℕ :=
  events.countP (Event.isAttempt key)

/-- How many retries of a key were counted in its row. -/
def retries (key : Key) (events : List Event) : ℕ :=
  events.countP (Event.isRetry key)

/-- How often the process crashed and was started anew. -/
def crashes (events : List Event) : ℕ :=
  events.countP Event.isCrash

@[simp] theorem attemptCount_cons (key : Key) (event : Event) (events : List Event) :
    attemptCount key (event :: events) =
      attemptCount key events + if event.isAttempt key then 1 else 0 :=
  List.countP_cons

@[simp] theorem retries_cons (key : Key) (event : Event) (events : List Event) :
    retries key (event :: events) =
      retries key events + if event.isRetry key then 1 else 0 :=
  List.countP_cons

@[simp] theorem crashes_cons (event : Event) (events : List Event) :
    crashes (event :: events) = crashes events + if event.isCrash then 1 else 0 :=
  List.countP_cons

namespace State

variable {env : Env} {state next : State} {label : Label} {key : Key} {first : ℕ}
  {window : List Event}

/-- Nobody is in the middle of an attempt for the key: an item waits for its next
one, or the key is free. -/
def Rests (state : State) (key : Key) : Prop :=
  (∃ place item, state.backedAt place = some item ∧ item.key = key ∧
    state.readyAt place = true) ∨ state.dedup.pendingFuture? key = none

/-- The books of a submission whose row was first persisted with some retry count,
over the events since. -/
structure Budget (env : Env) (state : State) (key : Key) (first : ℕ)
    (window : List Event) : Prop where
  counted : ∃ row ∈ state.tables.inflight.rows,
    row.idempotencyKey = key ∧ row.retryCount = first + retries key window
  capped : (first + retries key window : ℤ) ≤ max (first : ℤ) env.config.retry.maxRetries
  begun : attemptCount key window ≤ retries key window + crashes window + 1
  waiting : state.Rests key → attemptCount key window ≤ retries key window + crashes window

theorem Budget.has
    (budget : Budget env state key first window) :
    state.tables.inflight.Has key := by
  obtain ⟨row, present, sameKey, _⟩ := budget.counted
  exact ⟨row, present, sameKey⟩

/-- The attempts of a submission in terms of its retries and crashes. -/
theorem Budget.attemptCount_le
    (budget : Budget env state key first window) :
    attemptCount key window ≤
      (env.config.retry.maxRetries - first).toNat + 1 + crashes window := by
  have capped := budget.capped
  have begun := budget.begun
  omega

/-- A key with a row comes to rest by a counted retry or a crash, unless it has
rested before. -/
theorem Rests.back
    (waits : next.Rests key)
    (claimed : Claimed env state)
    (truthful : state.Truthful)
    (uncancelled : Uncancelled state label)
    (moved : HardenedClient.step env label state = some next)
    (row : state.tables.inflight.Has key) :
    state.Rests key ∨ label = .crash ∨ next.history = .incremented key :: state.history := by
  rcases waits with ⟨place, item, found, rfl, ready⟩ | free
  · cases backed_origin claimed.tidy moved found with
    | kept before there _ wasReady =>
        exact Or.inl (Or.inl ⟨before, item, there, rfl, wasReady ready⟩)
    | upserted _ current => exact absurd row (claimed.fresh _ _ _ _ current)
    | @recovered id listed rows isStep current wasFree request =>
        left
        right
        have own : listed.payload.request.key = listed.idempotencyKey := by
          apply @Truthful.recoversOwnKey state label listed truthful
          rw [isStep, recovered?, current]
        rw [QueueItem.key, request, own]
        exact wasFree
    | counted _ _ request _ recorded =>
        right
        right
        rw [QueueItem.key, request]
        exact recorded
  · by_cases busy : state.dedup.pendingFuture? key = none
    · exact Or.inl (Or.inr busy)
    · rcases busy_step claimed.sound uncancelled moved busy with
        stays | crashed | ⟨id, item, point, current, past, rfl⟩
      · exact absurd free stays
      · exact Or.inr (Or.inl crashed)
      · exact absurd row (claimed.cleared id item point current past)

/-- A key does not rest while a worker is in the middle of an attempt for it. -/
theorem SingleFlight.not_rests
    {id : ℕ}
    {item : QueueItem}
    {point : HandlePoint}
    (single : state.SingleFlight)
    (current : state.tasks id = some (.worker (.handling item point)))
    (begun : point.ready = false) :
    ¬ state.Rests item.key := by
  rintro (⟨place, other, found, sameKey, ready⟩ | free)
  · obtain ⟨held, there, heldKey, _⟩ := itemAt_of_backedAt found
    obtain rfl := single.place_of_handling current there (heldKey.trans sameKey)
    rw [readyAt_agent current] at ready
    exact Bool.false_ne_true (begun.symm.trans ready)
  · have registered := single.registered
      (show state.itemAt (.agent id) = some item by simp [itemAt, current, Task.item?])
    rw [(state.dedup.pendingFuture?_eq_some_iff _ _).mpr registered] at free
    cases free

/-- A step that records nothing leaves the books. -/
theorem Budget.quiet
    (budget : Budget env state key first window)
    (claimed : Claimed env state)
    (truthful : state.Truthful)
    (uncancelled : Uncancelled state label)
    (moved : HardenedClient.step env label state = some next)
    (quiet : next.history = state.history)
    (tables : next.tables = state.tables) :
    Budget env next key first window where
  counted := tables ▸ budget.counted
  capped := budget.capped
  begun := budget.begun
  waiting := by
    intro waits
    rcases waits.back claimed truthful uncancelled moved budget.has with
      waited | rfl | recorded
    · exact budget.waiting waited
    · rw [← Option.some.inj moved] at quiet
      exact absurd quiet.symm (List.ne_cons_self)
    · exact absurd (quiet.symm.trans recorded) List.ne_cons_self

/-- The row of a submission stays and counts its retries until it is deleted. -/
theorem Budget.counted_step
    {event : Event}
    (budget : Budget env state key first window)
    (claimed : Claimed env state)
    (records : Records state label next event)
    (kept : event ≠ .deleted key) :
    ∃ row ∈ next.tables.inflight.rows,
      row.idempotencyKey = key ∧ row.retryCount = first + retries key (event :: window) := by
  obtain ⟨row, present, sameKey, counts⟩ := budget.counted
  have stays : next.tables.inflight = state.tables.inflight → event.isRetry key = false →
      ∃ row ∈ next.tables.inflight.rows,
        row.idempotencyKey = key ∧ row.retryCount = first + retries key (event :: window) := by
    intro inflight notRetry
    exact ⟨row, inflight ▸ present, sameKey, by simpa [notRetry] using counts⟩
  cases records with
  | upserted _ current tables =>
      refine ⟨row, ?_, sameKey, by simpa [Event.isRetry] using counts⟩
      rw [tables]
      apply Tables.mem_upsertInflight_of_ne _ present
      intro clash
      exact claimed.fresh _ _ _ _ current (clash ▸ ⟨row, present, rfl⟩)
  | @incremented id item exc newAttempt delay current tables =>
      by_cases same : item.key = key
      · obtain ⟨after, there, afterKey, _, counted⟩ :=
          Tables.exists_mem_incrementRetry exc.message state.now present
        refine ⟨after, ?_, afterKey.trans sameKey, ?_⟩
        · rw [tables, same, ← sameKey]
          exact there
        · rw [counted, counts]
          simp [Event.isRetry, same, Nat.add_assoc]
      · refine ⟨row, ?_, sameKey, by simpa [Event.isRetry, same] using counts⟩
        rw [tables]
        apply Tables.mem_incrementRetry_of_ne _ _ present
        rw [sameKey]
        exact fun clash => same clash.symm
  | deleted _ _ tables =>
      refine ⟨row, ?_, sameKey, by simpa [Event.isRetry] using counts⟩
      rw [tables]
      refine KeyedTable.mem_erase_rows.mpr ⟨present, fun clash => kept ?_⟩
      rw [← clash, sameKey]
  | deadLettered _ tables | removedDeadLetter tables | purged tables =>
      exact stays (by rw [tables]; rfl) rfl
  | handled _ _ _ tables | executed _ tables | settled _ _ _ _ _ tables | crashed _ tables =>
      exact stays (congrArg Tables.inflight tables) rfl

/-- A step that records an event other than the delete keeps the books. -/
theorem Budget.record
    {event : Event}
    (budget : Budget env state key first window)
    (claimed : Claimed env state)
    (truthful : state.Truthful)
    (single : next.SingleFlight)
    (uncancelled : Uncancelled state label)
    (moved : HardenedClient.step env label state = some next)
    (recorded : next.history = event :: state.history)
    (records : Records state label next event)
    (kept : event ≠ .deleted key) :
    Budget env next key first (event :: window) := by
  have counted := budget.counted_step claimed records kept
  have back := fun waits : next.Rests key =>
    waits.back claimed truthful uncancelled moved budget.has
  have capped := budget.capped
  have begun := budget.begun
  have waiting := budget.waiting
  refine ⟨counted, ?_, ?_, ?_⟩
  · cases records with
    | @incremented id item exc newAttempt delay current tables =>
        by_cases same : item.key = key
        · -- the item counts the attempt its row does, and it is in the budget
          obtain ⟨row, present, sameKey, counts⟩ := claimed.mirrored (.agent id) item
            (by rw [backedAt_agent current]; rfl)
          obtain ⟨own, there, ownKey, ownCounts⟩ := budget.counted
          obtain rfl := state.tables.inflight.row_unique present there
            (sameKey.trans (same.trans ownKey.symm))
          have inBudget := (claimed.counts id item exc newAttempt delay current).2
          simp only [retries_cons, Event.isRetry, same, decide_true, if_true]
          omega
        · simpa [Event.isRetry, same] using capped
    | _ => simpa [Event.isRetry] using capped
  · cases records with
    | @handled id item rest idle queued =>
        by_cases same : item.key = key
        · have waited := waiting (Or.inl ⟨.queue 0, item, by simp [backedAt, queued], same, rfl⟩)
          simp only [attemptCount_cons, retries_cons, crashes_cons, Event.isAttempt,
            Event.isRetry, Event.isCrash, same, decide_true, Bool.false_eq_true, if_true, if_false]
          omega
        · simpa [Event.isAttempt, Event.isRetry, Event.isCrash, same] using begun
    | _ =>
        simp only [attemptCount_cons, retries_cons, crashes_cons, Event.isAttempt, Event.isRetry,
          Event.isCrash]
        split_ifs <;> omega
  · intro waits
    rcases back waits with waited | isCrash | isRetry
    · have before := waiting waited
      cases records with
      | @handled id item rest _ _ taken =>
          have other : item.key ≠ key := by
            rintro rfl
            exact single.not_rests taken rfl waits
          simpa [Event.isAttempt, Event.isRetry, Event.isCrash, other] using before
      | _ =>
          simp only [attemptCount_cons, retries_cons, crashes_cons, Event.isAttempt, Event.isRetry,
            Event.isCrash]
          split_ifs <;> omega
    · subst isCrash
      rw [← Option.some.inj moved] at recorded
      rw [← (List.cons.inj recorded).1]
      simp only [attemptCount_cons, retries_cons, crashes_cons, Event.isAttempt, Event.isRetry,
        Event.isCrash, Bool.false_eq_true, if_true, if_false]
      omega
    · rw [(List.cons.inj (recorded.symm.trans isRetry)).1]
      simp only [attemptCount_cons, retries_cons, crashes_cons, Event.isAttempt, Event.isRetry,
        Event.isCrash, decide_true, Bool.false_eq_true, if_true, if_false]
      omega

/-- The books of every submission whose row is there: those persisted by the run,
and those found in the database. -/
structure Thrifty (env : Env) (tables : Tables) (state : State) : Prop
    extends state.Claimed env where
  truthful : state.Truthful
  persisted : ∀ key, Since (· = .upserted key)
    (fun later => .deleted key ∉ later → Budget env state key 0 later) state.history
  found : ∀ row ∈ tables.inflight.rows, .deleted row.idempotencyKey ∉ state.history →
    Budget env state row.idempotencyKey row.retryCount state.history

theorem Thrifty.boot
    {tables : Tables}
    (env : Env)
    (now : ℚ)
    (consistent : tables.Consistent) :
    Thrifty env tables (boot tables now) where
  toClaimed := .boot env tables now []
  truthful := .boot now [] consistent
  persisted := fun _ => since_nil _ _
  found := by
    intro row present _
    refine ⟨⟨row, present, rfl, rfl⟩, ?_, ?_, fun _ => ?_⟩ <;>
      simp [State.boot, attemptCount, retries, crashes]

/-- The row of a submission starts without retries. -/
theorem Budget.fresh
    (upserted : Records state label next (.upserted key)) :
    Budget env next key 0 [] := by
  generalize isEvent : Event.upserted key = event at upserted
  cases upserted with
  | @upserted id replayed request future _ _ tables =>
      cases isEvent
      obtain ⟨row, present, sameKey, zero, _⟩ :=
        state.tables.exists_mem_upsertInflight request state.now
      refine ⟨⟨row, tables ▸ present, sameKey, ?_⟩, ?_, ?_, fun _ => ?_⟩
      · simpa [retries] using zero
      all_goals simp [attemptCount, retries, crashes]
  | _ => cases isEvent

theorem Thrifty.step
    {tables : Tables}
    (thrifty : Thrifty env tables state)
    (served : Served state label)
    (json : JsonRequest label)
    (moved : HardenedClient.step env label state = some next) :
    Thrifty env tables next := by
  have claimed := thrifty.toClaimed.step served
    (fun _ isRow => thrifty.truthful.recoversOwnKey isRow) moved
  have truthful := thrifty.truthful.step json moved
  rcases step_records moved with ⟨quiet, same⟩ | ⟨event, recorded, records⟩
  · have keeps : ∀ {key first window}, Budget env state key first window →
        Budget env next key first window := fun budget =>
      budget.quiet thrifty.toClaimed thrifty.truthful served.uncancelled moved quiet same
    refine ⟨claimed, truthful, fun key => ?_, fun row present kept => ?_⟩
    · rw [quiet]
      exact (thrifty.persisted key).mono fun later budget kept => keeps (budget kept)
    · rw [quiet] at kept ⊢
      exact keeps (thrifty.found row present kept)
  · have keeps : ∀ {key first window}, .deleted key ∉ event :: window →
        Budget env state key first window → Budget env next key first (event :: window) :=
      fun kept budget => budget.record thrifty.toClaimed thrifty.truthful
        claimed.toSingleFlight served.uncancelled moved recorded records
        fun deleted => kept (deleted ▸ List.mem_cons_self)
    refine ⟨claimed, truthful, fun key => ?_, fun row present kept => ?_⟩
    · rw [recorded, since_cons]
      refine ⟨fun persists _ => ?_, (thrifty.persisted key).mono fun later budget kept => ?_⟩
      · exact .fresh (persists ▸ records)
      · exact keeps kept (budget fun deleted => kept (List.mem_cons_of_mem _ deleted))
    · rw [recorded] at kept ⊢
      exact keeps kept
        (thrifty.found row present fun deleted => kept (List.mem_cons_of_mem _ deleted))

end State

/-- In every run without caller cancellation over a database whose rows hold
requests of their own keys, in which string-keyed JSON requests are submitted after
`start()` has returned: from the commit of a row to its delete, and from the first
process to the delete of a row found in the database, `_handle` is started at most
once, once more for each retry the row has left, and once more for each crash. -/
theorem retry_budget_survives_crashes
    (env : Env)
    (tables : Tables)
    (now : ℚ)
    (consistent : tables.Consistent)
    (state : State)
    (run : Run (step env) (fun before label => Served before label ∧ JsonRequest label)
      (State.boot tables now) state) :
    (∀ later window key earlier,
      state.history = later ++ (window ++ .upserted key :: earlier) →
        .deleted key ∉ window →
          attemptCount key window ≤ env.config.retry.maxRetries.toNat + 1 + crashes window) ∧
    ∀ row ∈ tables.inflight.rows, ∀ later window,
      state.history = later ++ window → .deleted row.idempotencyKey ∉ window →
        attemptCount row.idempotencyKey window ≤
          (env.config.retry.maxRetries - row.retryCount).toNat + 1 + crashes window := by
  have thrifty : ∀ state, Run (step env)
      (fun before label => Served before label ∧ JsonRequest label)
      (State.boot tables now) state → State.Thrifty env tables state := fun state run =>
    run.invariant (State.Thrifty env tables) (.boot env now consistent)
      fun _ _ _ thrifty permitted moved => thrifty.step permitted.1 permitted.2 moved
  constructor
  · intro later window key earlier split kept
    obtain ⟨middle, reached, past⟩ := State.exists_run_of_suffix run rfl split
    have budget := (thrifty middle reached).persisted key window _ earlier past rfl kept
    simpa using budget.attemptCount_le
  · intro row present later window split kept
    obtain ⟨middle, reached, rfl⟩ := State.exists_run_of_suffix run rfl split
    exact ((thrifty middle reached).found row present kept).attemptCount_le

/-- A request is answered with 500, the process crashes after the retry is counted,
and the next one sends the request again. -/
def recountedLabels : List Label :=
  startLabels ++ requestLabels 2 "http://example.org/" ++ sendLabels 1 ++
    answerLabels 1 500 1 ++ [.crash, .start] ++ proceedLabels 0 6 ++ sendLabels 1

/-- The event deletes the row of a key. -/
def Event.isDelete (key : Key) : Event → Bool
  | .deleted other => decide (other = key)
  | _ => false

/-- The oldest event persists a row, which was tried twice over a crash and is not
deleted since. -/
def triedOverCrash (history : List Event) : Bool :=
  match history.getLast? with
  | some (.upserted key) =>
      decide (attemptCount key history.dropLast = 2) && decide (crashes history.dropLast = 1) &&
        !history.dropLast.any (Event.isDelete key)
  | _ => false

theorem retry_budget_survives_crashes_recounted :
    ∃ state window key, Run (step oneWorker)
        (fun before label => Served before label ∧ JsonRequest label) (State.boot {}) state ∧
      state.history = window ++ [.upserted key] ∧ attemptCount key window = 2 ∧
      crashes window = 1 ∧
      attemptCount key window ≤ oneWorker.config.retry.maxRetries.toNat + 1 + crashes window := by
  have passes : (executeChecked (step oneWorker) served recountedLabels (State.boot {})).any
      (fun state => triedOverCrash state.history) = true := by
    decide +kernel
  obtain ⟨state, run, tested⟩ := exists_run_of_executeChecked served_sound passes
  unfold triedOverCrash at tested
  split at tested
  · next key oldest =>
      simp only [Bool.and_eq_true, decide_eq_true_eq, Bool.not_eq_eq_eq_not, Bool.not_true] at tested
      obtain ⟨⟨twice, once⟩, kept⟩ := tested
      have split : state.history.dropLast ++ [.upserted key] = state.history :=
        List.dropLast_append_getLast? _ oldest
      refine ⟨state, state.history.dropLast, key, run, split.symm, twice, once, ?_⟩
      apply (retry_budget_survives_crashes oneWorker {} 0 (fun _ row => by cases row) state
        run).1 [] _ key [] split.symm
      intro deleted
      have found := List.any_eq_false.mp kept _ deleted
      simp [Event.isDelete] at found
  · cases tested

end HardenedClient
