import HardenedClient.Client.Ledger
import HardenedClient.Client.Replay

/-!
# The store and its history

Every commit is recorded, and what is recorded determines the store: replaying the events
of a run, crashes and restarts included, on a plain map of retry counters and a list of
numbered dead letters gives what the tables hold. The numbers of dead letters are given out
once.
-/

namespace HardenedClient

open Foundation

/-! ## Replaying the events -/

/-- What the store is for: which keys have work in flight, how often each was retried, and
which dead letters there are, oldest first. -/
structure Ledger where
  retries : Key → Option ℕ
  letters : List (ℕ × Key)

namespace Ledger

/-- What one event says about the store. -/
def apply (event : Event) (ledger : Ledger) : Ledger :=
  match event with
  | .upserted key => { ledger with retries := Function.update ledger.retries key (some 0) }
  | .incremented key => { ledger with
      retries := Function.update ledger.retries key ((ledger.retries key).map (· + 1)) }
  | .deleted key => { ledger with retries := Function.update ledger.retries key none }
  | .deadLettered key id => { ledger with letters := ledger.letters ++ [(id, key)] }
  | .removedDeadLetter id => { ledger with
      letters := ledger.letters.filter fun letter => letter.1 ≠ id }
  | .purged => { ledger with letters := [] }
  | .handled _ _ | .executed _ _ | .settled _ _ _ | .crashed => ledger

/-- What a list of events, newest first, makes of a store. -/
def replay (events : List Event) (ledger : Ledger) : Ledger := events.foldr apply ledger

@[simp] theorem replay_append (later earlier : List Event) (ledger : Ledger) :
    replay (later ++ earlier) ledger = replay later (replay earlier ledger) :=
  List.foldr_append

theorem apply_of_volatile
    {event : Event}
    (volatile : event.isVolatile = true)
    (ledger : Ledger) :
    apply event ledger = ledger := by
  cases event with
  | handled | executed | settled | crashed => rfl
  | _ => cases volatile

theorem replay_of_volatile
    {events : List Event}
    (volatile : ∀ event ∈ events, event.isVolatile = true)
    (ledger : Ledger) :
    replay events ledger = ledger := by
  induction events with
  | nil => rfl
  | cons event events inductionHypothesis =>
      have rest := inductionHypothesis fun other member =>
        volatile other (List.mem_cons_of_mem _ member)
      exact (apply_of_volatile (volatile event List.mem_cons_self) _).trans rest

end Ledger

namespace Tables

/-- The tables, seen as what they are for. -/
def ledger (tables : Tables) : Ledger where
  retries key := (tables.inflight.lookup key).map InflightRow.retryCount
  letters := tables.deadLetters.map fun row => (row.id, row.idempotencyKey)

variable (tables : Tables)

theorem ledger_upsertInflight (request : DurableRequest) (now : ℚ) :
    (tables.upsertInflight request now).ledger = tables.ledger.apply (.upserted request.key) := by
  unfold ledger Ledger.apply
  congr 1
  funext key
  rw [upsertInflight, KeyedTable.lookup_upsert, Function.update_apply]
  split_ifs
  · cases tables.inflight.lookup key <;> rfl
  · rfl

theorem ledger_incrementRetry (key : Key) (error : PyStr) (now : ℚ) :
    (tables.incrementRetry key error now).ledger = tables.ledger.apply (.incremented key) := by
  unfold ledger Ledger.apply
  congr 1
  funext other
  rw [incrementRetry, KeyedTable.lookup_modify, Function.update_apply]
  split_ifs with same
  · simp only [same, Option.map_map]
    rfl
  · rfl

theorem ledger_deleteInflight (key : Key) :
    (tables.deleteInflight key).ledger = tables.ledger.apply (.deleted key) := by
  unfold ledger Ledger.apply
  congr 1
  funext other
  rw [deleteInflight, KeyedTable.lookup_erase, Function.update_apply]
  split_ifs <;> rfl

theorem ledger_pushDeadLetter
    (request : DurableRequest)
    (error : PyStr)
    (retryCount : ℕ)
    (now : ℚ) :
    (tables.pushDeadLetter request error retryCount now).ledger =
      tables.ledger.apply (.deadLettered request.key tables.nextDeadLetterId) := by
  unfold ledger Ledger.apply
  congr 1
  exact List.map_append

theorem ledger_removeDeadLetter (id : ℕ) :
    (tables.removeDeadLetter id).ledger = tables.ledger.apply (.removedDeadLetter id) := by
  unfold ledger Ledger.apply
  congr 1
  simp only [removeDeadLetter, List.filter_map]
  rfl

end Tables

/-- A commit does to the tables what its events say. -/
theorem Commits.ledger
    {state : State}
    {tables : Tables}
    {history : List Event}
    (commits : Commits state tables history) :
    ∃ events, history = events ++ state.history ∧
      tables.ledger = state.tables.ledger.replay events := by
  cases commits with
  | @none events volatile =>
      exact ⟨events, rfl, (Ledger.replay_of_volatile volatile _).symm⟩
  | upserted => exact ⟨[_], rfl, Tables.ledger_upsertInflight _ _ _⟩
  | incremented => exact ⟨[_], rfl, Tables.ledger_incrementRetry _ _ _ _⟩
  | deleted => exact ⟨[_], rfl, Tables.ledger_deleteInflight _ _⟩
  | pushed => exact ⟨[_], rfl, Tables.ledger_pushDeadLetter _ _ _ _ _⟩
  | removed => exact ⟨[_], rfl, Tables.ledger_removeDeadLetter _ _⟩
  | purged => exact ⟨[_], rfl, rfl⟩

/-- A request that fails for good, and a crash. -/
def failedLabels : List Label :=
  startLabels ++ requestLabels 2 "http://example.org/" ++ sendLabels 1 ++
    answerLabels 1 404 2 ++ [.crash]

/-- The number an event gives to a dead letter. -/
def Event.issues? : Event → Option ℕ
  | .deadLettered _ id => some id
  | _ => none

/-- The numbers that events give out, newest first. -/
def issued (events : List Event) : List ℕ := events.filterMap Event.issues?

theorem issued_of_volatile
    {events : List Event}
    (volatile : ∀ event ∈ events, event.isVolatile = true) :
    issued events = [] := by
  rw [issued, List.filterMap_eq_nil_iff]
  intro event member
  have quiet := volatile event member
  cases event <;> first | rfl | cases quiet

namespace Tables

/-- The numbers of the dead letters. -/
def letterIds (tables : Tables) : List ℕ := tables.deadLetters.map DeadLetterRow.id

/-- The counter of AUTOINCREMENT has passed the numbers that are in use, each once. -/
structure Numbered (tables : Tables) : Prop where
  distinct : tables.letterIds.Nodup
  counted : ∀ id ∈ tables.letterIds, id < tables.nextDeadLetterId

end Tables

/-- A commit takes dead letters away, or adds one with the next number. -/
theorem Commits.numbering
    {state : State}
    {tables : Tables}
    {history : List Event}
    (commits : Commits state tables history) :
    (tables.letterIds.Sublist state.tables.letterIds ∧
        tables.nextDeadLetterId = state.tables.nextDeadLetterId ∧
        issued history = issued state.history) ∨
      (tables.letterIds = state.tables.letterIds ++ [state.tables.nextDeadLetterId] ∧
        tables.nextDeadLetterId = state.tables.nextDeadLetterId + 1 ∧
        issued history = state.tables.nextDeadLetterId :: issued state.history) := by
  cases commits with
  | none volatile =>
      refine Or.inl ⟨List.Sublist.refl _, rfl, ?_⟩
      rw [issued, List.filterMap_append, ← issued, ← issued, issued_of_volatile volatile,
        List.nil_append]
  | upserted | incremented | deleted => exact Or.inl ⟨List.Sublist.refl _, rfl, rfl⟩
  | pushed => exact Or.inr ⟨List.map_append, rfl, rfl⟩
  | removed => exact Or.inl ⟨List.filter_sublist.map _, rfl, rfl⟩
  | purged => exact Or.inl ⟨List.nil_sublist _, rfl, rfl⟩

/-- Numbers are given out in order, starting from the first one, and the dead letters have
different ones. -/
structure State.Issues (first : ℕ) (state : State) : Prop where
  numbered : state.tables.Numbered
  ordered : (issued state.history).Pairwise (· > ·)
  issued : ∀ id ∈ issued state.history, first ≤ id ∧ id < state.tables.nextDeadLetterId
  started : first ≤ state.tables.nextDeadLetterId

theorem State.Issues.step
    {env : Env}
    {first : ℕ}
    {state next : State}
    {label : Label}
    (issues : state.Issues first)
    (moved : HardenedClient.step env label state = some next) :
    next.Issues first := by
  obtain ⟨distinct, counted⟩ := issues.numbered
  rcases (step_stepped moved).commits.numbering with
    ⟨fewer, counter, same⟩ | ⟨more, counter, added⟩
  · refine ⟨⟨distinct.sublist fewer, ?_⟩, ?_, ?_, ?_⟩
    · rw [counter]
      exact fun id member => counted id (fewer.subset member)
    · exact same ▸ issues.ordered
    · rw [same, counter]
      exact issues.issued
    · exact counter ▸ issues.started
  · have old := issues.issued
    refine ⟨⟨?_, ?_⟩, ?_, ?_, ?_⟩
    · rw [more, List.nodup_append_comm, List.singleton_append, List.nodup_cons]
      exact ⟨fun member => absurd (counted _ member) (Nat.lt_irrefl _), distinct⟩
    · rw [more, counter]
      intro id member
      rcases List.mem_append.mp member with before | isNew
      · exact Nat.lt_succ_of_lt (counted id before)
      · exact Nat.lt_succ_of_le (List.mem_singleton.mp isNew).le
    · rw [added, List.pairwise_cons]
      exact ⟨fun id member => (old id member).2, issues.ordered⟩
    · rw [added, counter]
      intro id member
      rcases List.mem_cons.mp member with rfl | before
      · exact ⟨issues.started, Nat.lt_succ_self _⟩
      · exact ⟨(old id before).1, Nat.lt_succ_of_lt (old id before).2⟩
    · rw [counter]
      exact Nat.le_succ_of_le issues.started

/-- A number that was given out and is not in use does not come into use again. -/
theorem letterIds_of_run
    {env : Env}
    {state later : State}
    (run : Reachable (step env) state later) :
    state.tables.nextDeadLetterId ≤ later.tables.nextDeadLetterId ∧
      ∀ id < state.tables.nextDeadLetterId, id ∈ later.tables.letterIds →
        id ∈ state.tables.letterIds := by
  induction run with
  | refl => exact ⟨Nat.le_refl _, fun _ _ present => present⟩
  | tail _ _ moved inductionHypothesis =>
      obtain ⟨grows, kept⟩ := inductionHypothesis
      rcases (step_stepped moved).commits.numbering with
        ⟨fewer, counter, _⟩ | ⟨more, counter, _⟩
      · exact ⟨counter ▸ grows, fun id old present => kept id old (fewer.subset present)⟩
      · refine ⟨counter ▸ Nat.le_succ_of_le grows, fun id old present => ?_⟩
        rw [more] at present
        rcases List.mem_append.mp present with before | isNew
        · exact kept id old before
        · rw [List.mem_singleton.mp isNew] at old
          exact absurd (Nat.lt_of_lt_of_le old grows) (Nat.lt_irrefl _)

/-- In every run over tables whose dead letters have different numbers below the counter,
crashes and restarts included: dead letters always have different numbers, each new one has
a higher number than all before it, and once a dead letter is gone its number never names
another one. -/
theorem dead_letter_ids_never_reused
    (env : Env)
    (tables : Tables)
    (numbered : tables.Numbered)
    (now : ℚ)
    (state later : State)
    (run : Reachable (step env) (State.boot tables now) state)
    (goes : Reachable (step env) state later) :
    state.tables.letterIds.Nodup ∧
      (issued state.history).Pairwise (· > ·) ∧
      (∀ id ∈ issued state.history,
        tables.nextDeadLetterId ≤ id ∧ id < state.tables.nextDeadLetterId) ∧
      ∀ id < state.tables.nextDeadLetterId, id ∉ state.tables.letterIds →
        id ∉ later.tables.letterIds := by
  have issues : state.Issues tables.nextDeadLetterId :=
    run.invariant (State.Issues tables.nextDeadLetterId)
      ⟨numbered, List.Pairwise.nil, by simp [issued, State.boot], Nat.le_refl _⟩
      fun _ _ _ issues _ moved => issues.step moved
  refine ⟨issues.numbered.distinct, issues.ordered, issues.issued, ?_⟩
  intro id old gone present
  exact gone ((letterIds_of_run goes).2 id old present)

/-- Two requests fail one after the other, with a crash in between. -/
theorem dead_letter_ids_never_reused_twice :
    ∃ state, Reachable (step oneWorker) (State.boot {} 0) state ∧
      issued state.history = [2, 1] ∧ (issued state.history).Pairwise (· > ·) := by
  have passes : (executeChecked (step oneWorker) (fun _ _ => true)
      (failedLabels ++ [.purge] ++ failedLabels) (State.boot {} 0)).any (fun state =>
        decide (issued state.history = [2, 1])) = true := by
    decide +kernel
  obtain ⟨state, run, tested⟩ := exists_run_of_executeChecked (fun _ _ _ => trivial) passes
  have numbered : Tables.Numbered {} := ⟨List.nodup_nil, by simp [Tables.letterIds]⟩
  exact ⟨state, run, of_decide_eq_true tested,
    (dead_letter_ids_never_reused oneWorker {} numbered 0 state state run .refl).2.1⟩

end HardenedClient
