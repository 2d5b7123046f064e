import HardenedClient.Foundation.Journal
import HardenedClient.Storage
import HardenedClient.StoredIdentity

/-!
# The counter that increment_retry returns

`increment_retry` counts up under the write lock and reads the counter back
after it has released it. It queues its read with no suspension after the
release, so the read is ahead of every write that takes the lock later, and the
connection has one thread that serves its queue in order. So the read finds the
value that the call itself has produced.
-/

namespace HardenedClient

open Foundation

namespace Tables

/-- `upsert_inflight(request, status=…, retry_count=…, last_error=…)`. -/
def upsertInflightAs
    (tables : Tables)
    (request : DurableRequest)
    (status : InflightStatus)
    (retryCount : ℕ)
    (lastError : Option PyStr)
    (now : ℚ) : Tables :=
  { tables with
    inflight := tables.inflight.upsert
      { idempotencyKey := request.key
        requestId := request.request.requestId
        payload := request.payload
        status := status
        retryCount := retryCount
        lastError := lastError
        createdAt := now
        updatedAt := now }
      (fun row => { row with
        status := status
        retryCount := retryCount
        lastError := lastError
        updatedAt := now })
      (fun _ => rfl) }

/-- The client upserts with the default arguments. -/
example (tables : Tables) (request : DurableRequest) (now : ℚ) :
    tables.upsertInflightAs request .pending 0 none now = tables.upsertInflight request now := rfl

/-- `SELECT retry_count FROM inflight_requests WHERE idempotency_key = ?`. -/
def counter (tables : Tables) (key : Key) : Option ℕ :=
  (tables.inflight.lookup key).map InflightRow.retryCount

theorem counter_incrementRetry
    (tables : Tables)
    (wanted : Key)
    (lastError : PyStr)
    (now : ℚ)
    (key : Key) :
    (tables.incrementRetry wanted lastError now).counter key =
      if key = wanted then (tables.counter key).map (· + 1) else tables.counter key := by
  simp only [counter, incrementRetry, KeyedTable.lookup_modify]
  split_ifs
  · rw [Option.map_map, Option.map_map]
    rfl
  · rfl

theorem counter_markInflightStatus
    (tables : Tables)
    (wanted : Key)
    (status : InflightStatus)
    (lastError : Option PyStr)
    (now : ℚ)
    (key : Key) :
    (tables.markInflightStatus wanted status lastError now).counter key = tables.counter key := by
  simp only [counter, markInflightStatus, KeyedTable.lookup_modify]
  split_ifs
  · rw [Option.map_map]
    rfl
  · rfl

theorem counter_deleteInflight (tables : Tables) (wanted key : Key) :
    (tables.deleteInflight wanted).counter key =
      if key = wanted then none else tables.counter key := by
  simp only [counter, deleteInflight, KeyedTable.lookup_erase]
  split_ifs <;> rfl

theorem counter_upsertInflightAs
    (tables : Tables)
    (request : DurableRequest)
    (status : InflightStatus)
    (retryCount : ℕ)
    (lastError : Option PyStr)
    (now : ℚ)
    (key : Key) :
    (tables.upsertInflightAs request status retryCount lastError now).counter key =
      if key = request.key then some retryCount else tables.counter key := by
  simp only [counter, upsertInflightAs, KeyedTable.lookup_upsert]
  split_ifs
  · cases tables.inflight.lookup key <;> rfl
  · rfl

end Tables

/-! ## Interleaved calls -/

/-- What a call does under the write lock. -/
inductive Write
  | increment (key : Key) (lastError : PyStr) (now : ℚ)
  | upsert (request : DurableRequest) (status : InflightStatus) (retryCount : ℕ)
      (lastError : Option PyStr) (now : ℚ)
  | mark (key : Key) (status : InflightStatus) (lastError : Option PyStr) (now : ℚ)
  | delete (key : Key)

/-- What the thread of the connection has to do: the locked section of a call, or the
read-back of one. -/
inductive ThreadJob
  | write (call : ℕ) (write : Write)
  | select (call : ℕ) (key : Key)

/-- The call that holds the write lock: its write is queued, or committed. -/
inductive LockHolder
  | queued (call : ℕ) (write : Write)
  | committed (call : ℕ) (write : Write)

/-- The tables, the queue of the connection's thread and the holder of the write lock. -/
structure CounterState where
  tables : Tables
  jobs : List ThreadJob := []
  holder : Option LockHolder := none
  calls : ℕ := 0

/-- What can happen to the inflight table. -/
inductive CounterLabel
  | acquire (write : Write)
  | execute (position : ℕ)
  | release

/-- What is committed to the counters: an increment with the value it produced, the count of
an upsert, a deletion; and the value a call returns. -/
inductive CounterEvent
  | incremented (call : ℕ) (key : Key) (produced : Option ℕ)
  | returned (call : ℕ) (value : ℕ)
  | stored (key : Key) (count : ℕ)
  | deleted (key : Key)
  deriving DecidableEq

/-- The tables after a write. -/
def Write.apply : Write → Tables → Tables
  | .increment key lastError now, tables => tables.incrementRetry key lastError now
  | .upsert request status retryCount lastError now, tables =>
      tables.upsertInflightAs request status retryCount lastError now
  | .mark key status lastError now, tables => tables.markInflightStatus key status lastError now
  | .delete key, tables => tables.deleteInflight key

/-- What a write shows, by the tables after it. -/
def Write.events (call : ℕ) (after : Tables) : Write → List CounterEvent
  | .increment key _ _ => [.incremented call key (after.counter key)]
  | .upsert request _ retryCount _ _ => [.stored request.key retryCount]
  | .mark _ _ _ _ => []
  | .delete key => [.deleted key]

/-- What a call queues when it has released the lock. -/
def Write.readBack (call : ℕ) : Write → List ThreadJob
  | .increment key _ _ => [.select call key]
  | _ => []

namespace CounterState

/-- A call takes the free lock and queues its write, the thread does a job, or a call whose
write is committed releases the lock and queues its read-back at once. -/
def step (label : CounterLabel) (state : CounterState) : Option CounterState :=
  match label with
  | .acquire write =>
      match state.holder with
      | none =>
          some { state with
            jobs := state.jobs ++ [.write state.calls write]
            holder := some (.queued state.calls write)
            calls := state.calls + 1 }
      | some _ => none
  | .execute position =>
      match state.jobs[position]? with
      | some (.write call write) =>
          some { state with
            tables := write.apply state.tables
            jobs := state.jobs.eraseIdx position
            holder := some (.committed call write) }
      | some (.select _ _) => some { state with jobs := state.jobs.eraseIdx position }
      | none => none
  | .release =>
      match state.holder with
      | some (.committed call write) =>
          some { state with
            jobs := state.jobs ++ write.readBack call
            holder := none }
      | _ => none

/-- What a move shows; a read-back of a missing row returns zero. -/
def observe (before : CounterState) (label : CounterLabel) (after : CounterState) :
    List CounterEvent :=
  match label with
  | .execute position =>
      match before.jobs[position]? with
      | some (.write call write) => write.events call after.tables
      | some (.select call key) => [.returned call ((before.tables.counter key).getD 0)]
      | none => []
  | _ => []

end CounterState

/-- The connection's thread serves its queue first in, first out. -/
def FirstInFirstOut (label : CounterLabel) : Prop :=
  ∀ position, label = .execute position → position = 0

/-! ## What the log makes of a counter -/

namespace CounterEvent

/-- What an event does to the counter of a key. -/
def effect (key : Key) (counter : Option ℕ) : CounterEvent → Option ℕ
  | .incremented _ other _ => if key = other then counter.map (· + 1) else counter
  | .stored other count => if key = other then some count else counter
  | .deleted other => if key = other then none else counter
  | .returned _ _ => counter

/-- The counter of a key after some events. -/
def replay (key : Key) (events : List CounterEvent) (counter : Option ℕ) : Option ℕ :=
  events.foldl (effect key) counter

/-- The event counts the key up. -/
def increments (key : Key) : CounterEvent → Bool
  | .incremented _ other _ => other = key
  | _ => false

/-- The event sets the counter of the key, or removes it. -/
def resets (key : Key) : CounterEvent → Bool
  | .stored other _ | .deleted other => other = key
  | _ => false

theorem replay_append (key : Key) (events others : List CounterEvent) (counter : Option ℕ) :
    replay key (events ++ others) counter = replay key others (replay key events counter) :=
  List.foldl_append

theorem replay_cons
    (key : Key)
    (event : CounterEvent)
    (events : List CounterEvent)
    (counter : Option ℕ) :
    replay key (event :: events) counter = replay key events (effect key counter event) := rfl

theorem effect_of_not_reset
    {key : Key}
    {event : CounterEvent}
    (notReset : event.resets key = false)
    (count : ℕ) :
    effect key (some count) event = some (count + if event.increments key then 1 else 0) := by
  cases event with
  | incremented call other produced =>
      by_cases same : other = key
      · simp [effect, increments, same]
      · simp [effect, increments, same, Ne.symm same]
  | returned => rfl
  | stored other | deleted other =>
      have different : key ≠ other := by
        rintro rfl
        simp [resets] at notReset
      simp [effect, increments, different]

/-- Without resets a counter grows by the increments. -/
theorem replay_of_not_reset
    {key : Key}
    {events : List CounterEvent}
    (notReset : ∀ event ∈ events, event.resets key = false)
    (count : ℕ) :
    replay key events (some count) = some (count + events.countP (increments key)) := by
  induction events generalizing count with
  | nil => rfl
  | cons event events inductionHypothesis =>
      obtain ⟨head, tail⟩ := List.forall_mem_cons.mp notReset
      rw [replay_cons, effect_of_not_reset head, inductionHypothesis tail, List.countP_cons]
      congr 1
      omega

end CounterEvent

open CounterEvent

/-- What a write does to the counters is what its event does. -/
theorem Write.counter_apply
    (write : Write)
    (tables : Tables)
    (call : ℕ)
    (key : Key) :
    (write.apply tables).counter key =
      replay key (write.events call (write.apply tables)) (tables.counter key) := by
  cases write with
  | increment wanted lastError now => exact Tables.counter_incrementRetry _ _ _ _ _
  | upsert request status retryCount lastError now =>
      exact Tables.counter_upsertInflightAs _ _ _ _ _ _ _
  | mark wanted status lastError now => exact Tables.counter_markInflightStatus _ _ _ _ _ _
  | delete wanted => exact Tables.counter_deleteInflight _ _ _

/-! ## The queue -/

/-- What waits in the queue, by who holds the lock: at most one read-back, and behind it
the write of the holder. -/
inductive Queue : Option LockHolder → List ThreadJob → Prop
  | idle : Queue none []
  | reading (call : ℕ) (key : Key) : Queue none [.select call key]
  | writing (call : ℕ) (write : Write) : Queue (some (.queued call write)) [.write call write]
  | behind (other : ℕ) (key : Key) (call : ℕ) (write : Write) :
      Queue (some (.queued call write)) [.select other key, .write call write]
  | committed (call : ℕ) (write : Write) : Queue (some (.committed call write)) []

/-- A call has counted a key up, and has not read the counter back. -/
inductive Unread : Option LockHolder → List ThreadJob → ℕ → Key → Prop
  | committed (call : ℕ) (key : Key) (lastError : PyStr) (now : ℚ) (jobs : List ThreadJob) :
      Unread (some (.committed call (.increment key lastError now))) jobs call key
  | queued {call : ℕ} {key : Key} {jobs : List ThreadJob} (holder : Option LockHolder)
      (member : .select call key ∈ jobs) : Unread holder jobs call key

/-- The one increment of a call in a log, and the value it produced. -/
def Produced (log : List CounterEvent) (call : ℕ) (key : Key) (produced : Option ℕ) : Prop :=
  .incremented call key produced ∈ log ∧
    ∀ other made, .incremented call other made ∈ log → other = key ∧ made = produced

/-- What the log tells of the counters, and of the calls that have not read one back. -/
structure Counted (start : Tables) (reached : Journaled CounterState CounterEvent) : Prop where
  queue : Queue reached.state.holder reached.state.jobs
  counters : ∀ key, reached.state.tables.counter key =
    replay key reached.log (start.counter key)
  produced : ∀ earlier call key produced later,
    reached.log = earlier ++ .incremented call key produced :: later →
      produced = (replay key earlier (start.counter key)).map (· + 1)
  unread : ∀ call key, Unread reached.state.holder reached.state.jobs call key →
    Produced reached.log call key (reached.state.tables.counter key)
  returned : ∀ earlier call value later,
    reached.log = earlier ++ .returned call value :: later →
      ∃ key produced, Produced earlier call key produced ∧ value = produced.getD 0
  unlogged : ∀ call write, reached.state.holder = some (.queued call write) →
    ∀ key produced, .incremented call key produced ∉ reached.log
  known : ∀ call key produced, .incremented call key produced ∈ reached.log →
    call < reached.state.calls
  holding : ∀ call write, reached.state.holder = some (.queued call write) →
    call < reached.state.calls


namespace Counted

variable {start : Tables} {reached : Journaled CounterState CounterEvent}

/-- A free lock is taken, and a write queued. -/
theorem acquire
    (counted : Counted start reached)
    (free_ : reached.state.holder = none)
    (write : Write) :
    Counted start
      ⟨{ reached.state with
          jobs := reached.state.jobs ++ [.write reached.state.calls write]
          holder := some (.queued reached.state.calls write)
          calls := reached.state.calls + 1 },
        reached.log⟩ where
  queue := by
    have queue := counted.queue
    rw [free_] at queue
    generalize reached.state.jobs = jobs at queue ⊢
    cases queue with
    | idle => exact .writing _ _
    | reading call key => exact .behind call key _ _
  counters := counted.counters
  produced := counted.produced
  unread := by
    intro call key unread
    apply counted.unread
    cases unread with
    | queued _ member =>
        rcases List.mem_append.mp member with before | last
        · exact .queued _ before
        · cases List.mem_singleton.mp last
  returned := counted.returned
  unlogged := by
    intro call write isHolder key produced member
    obtain ⟨rfl, _⟩ := LockHolder.queued.inj (Option.some.inj isHolder)
    exact (counted.known _ key produced member).false
  known := fun call key produced member =>
    (counted.known call key produced member).trans (Nat.lt_succ_self _)
  holding := by
    intro call write isHolder
    obtain ⟨rfl, _⟩ := LockHolder.queued.inj (Option.some.inj isHolder)
    exact Nat.lt_succ_self _

/-- The write of the lock's holder is committed. -/
theorem commit
    {call : ℕ}
    {write : Write}
    (counted : Counted start reached)
    (isHolder : reached.state.holder = some (.queued call write)) :
    Counted start
      ⟨{ reached.state with
          tables := write.apply reached.state.tables
          jobs := []
          holder := some (.committed call write) },
        reached.log ++ write.events call (write.apply reached.state.tables)⟩ where
  queue := .committed call write
  counters := by
    intro key
    rw [write.counter_apply, counted.counters, replay_append]
  produced := by
    intro earlier other key produced later split
    cases write with
    | mark =>
        apply counted.produced earlier other key produced later
        simpa [Write.events] using split
    | increment wanted lastError now =>
        rcases split_concat split with ⟨rfl, isLast, _⟩ | ⟨before, _, same⟩
        · obtain ⟨_, rfl, rfl⟩ := CounterEvent.incremented.inj isLast
          rw [Write.apply, Tables.counter_incrementRetry, if_pos rfl, counted.counters]
        · exact counted.produced earlier other key produced before same
    | upsert | delete =>
        rcases split_concat split with ⟨_, isLast, _⟩ | ⟨before, _, same⟩
        · cases isLast
        · exact counted.produced earlier other key produced before same
  unread := by
    intro other key unread
    have unlogged := counted.unlogged call write isHolder
    cases unread with
    | queued _ member => cases member
    | committed _ _ lastError now =>
        refine ⟨List.mem_append_right _ List.mem_cons_self, fun name made member => ?_⟩
        rcases List.mem_append.mp member with before | last
        · exact absurd before (unlogged name made)
        · obtain ⟨_, rfl, rfl⟩ := CounterEvent.incremented.inj (List.mem_singleton.mp last)
          exact ⟨rfl, rfl⟩
  returned := by
    intro earlier other value later split
    cases write with
    | mark =>
        apply counted.returned earlier other value later
        simpa [Write.events] using split
    | increment | upsert | delete =>
        rcases split_concat split with ⟨_, isLast, _⟩ | ⟨before, _, same⟩
        · cases isLast
        · exact counted.returned earlier other value before same
  unlogged := by
    intro other write isQueued
    cases isQueued
  known := by
    intro other key produced member
    rcases List.mem_append.mp member with before | last
    · exact counted.known other key produced before
    · cases write with
      | mark => cases last
      | increment wanted lastError now =>
          obtain ⟨rfl, _⟩ := CounterEvent.incremented.inj (List.mem_singleton.mp last)
          exact counted.holding other _ isHolder
      | upsert | delete => cases List.mem_singleton.mp last
  holding := by
    intro other write isQueued
    cases isQueued

/-- A call reads its counter back, and returns it. -/
theorem readBack
    {call : ℕ}
    {key : Key}
    {rest : List ThreadJob}
    (counted : Counted start reached)
    (first : reached.state.jobs = .select call key :: rest)
    (queue : Queue reached.state.holder rest) :
    Counted start
      ⟨{ reached.state with jobs := rest },
        reached.log ++ [.returned call ((reached.state.tables.counter key).getD 0)]⟩ := by
  have own := counted.unread call key (.queued _ (first ▸ List.mem_cons_self))
  refine ⟨queue, ?_, ?_, ?_, ?_, ?_, ?_, counted.holding⟩
  · intro other
    rw [counted.counters, replay_append]
    rfl
  · intro earlier other name produced later split
    rcases split_concat split with ⟨_, isLast, _⟩ | ⟨before, _, same⟩
    · cases isLast
    · exact counted.produced earlier other name produced before same
  · intro other name unread
    have wasUnread : Unread reached.state.holder reached.state.jobs other name := by
      generalize reached.state.holder = holder at unread
      cases unread with
      | committed _ _ lastError now => exact .committed other name lastError now _
      | queued _ member => exact .queued _ (first ▸ List.mem_cons_of_mem _ member)
    obtain ⟨member, only⟩ := counted.unread other name wasUnread
    refine ⟨List.mem_append_left _ member, fun wanted made isMade => ?_⟩
    exact only wanted made (by simpa using isMade)
  · intro earlier other value later split
    rcases split_concat split with ⟨rfl, isLast, _⟩ | ⟨before, _, same⟩
    · obtain ⟨rfl, rfl⟩ := CounterEvent.returned.inj isLast
      exact ⟨key, _, own, rfl⟩
    · exact counted.returned earlier other value before same
  · intro other write isQueued name produced member
    exact counted.unlogged other write isQueued name produced (by simpa using member)
  · intro other name produced member
    exact counted.known other name produced (by simpa using member)

/-- The lock is released, and the counter is to be read back. -/
theorem release
    {call : ℕ}
    {write : Write}
    (counted : Counted start reached)
    (isHolder : reached.state.holder = some (.committed call write)) :
    Counted start
      ⟨{ reached.state with
          jobs := reached.state.jobs ++ write.readBack call
          holder := none },
        reached.log⟩ := by
  have queue := counted.queue
  have unread := counted.unread
  rw [isHolder] at queue unread
  generalize isJobs : reached.state.jobs = jobs at queue unread ⊢
  cases queue
  refine ⟨?_, counted.counters, counted.produced, ?_, counted.returned, ?_, counted.known, ?_⟩
  · cases write with
    | increment key lastError now => exact .reading call key
    | upsert | mark | delete => exact .idle
  · intro other key isUnread
    apply unread
    cases isUnread with
    | queued _ member =>
        cases write with
        | increment wanted lastError now =>
            obtain ⟨rfl, rfl⟩ := ThreadJob.select.inj (List.mem_singleton.mp member)
            exact .committed other key lastError now _
        | upsert | mark | delete => cases member
  · intro other write isQueued
    cases isQueued
  · intro other write isQueued
    cases isQueued

theorem step
    {label : CounterLabel}
    {next : Journaled CounterState CounterEvent}
    (counted : Counted start reached)
    (inOrder : FirstInFirstOut label)
    (moved : record CounterState.step CounterState.observe label reached = some next) :
    Counted start next := by
  obtain ⟨after, stepped, rfl⟩ := Option.map_eq_some_iff.mp moved
  cases label with
  | acquire write =>
      simp only [CounterState.step] at stepped
      split at stepped
      · next free_ =>
        obtain rfl := Option.some.inj stepped
        simpa [CounterState.observe] using counted.acquire free_ write
      · cases stepped
  | release =>
      simp only [CounterState.step] at stepped
      split at stepped
      · next call write isHolder =>
        obtain rfl := Option.some.inj stepped
        simpa [CounterState.observe] using counted.release isHolder
      · cases stepped
  | execute position =>
      obtain rfl := inOrder position rfl
      have queue := counted.queue
      generalize isHolder : reached.state.holder = holder at queue
      generalize isJobs : reached.state.jobs = jobs at queue
      simp only [CounterState.step, isJobs] at stepped
      simp only [CounterState.observe, isJobs]
      cases queue with
      | idle | committed => cases stepped
      | reading call key =>
          obtain rfl := Option.some.inj stepped
          exact counted.readBack isJobs (isHolder ▸ .idle)
      | writing call write =>
          obtain rfl := Option.some.inj stepped
          exact counted.commit isHolder
      | behind other key call write =>
          obtain rfl := Option.some.inj stepped
          exact counted.readBack isJobs (isHolder ▸ .writing call write)

end Counted

/-- Whatever a call returns is what its own update produced, or zero for a missing row. -/
def ReturnsOwn (log : List CounterEvent) : Prop :=
  ∀ earlier call value later, log = earlier ++ .returned call value :: later →
    ∃ key produced, Produced earlier call key produced ∧ value = produced.getD 0

/-- No increment is lost, whatever the interleaving: the counters are those of the committed
events, and increments of a row that is not reset produce consecutive values. Every call
returns the value that its own update produced. -/
theorem increment_retry_linearizable
    (tables : Tables)
    {reached : Journaled CounterState CounterEvent}
    (run : Run (record CounterState.step CounterState.observe)
      (fun _ label => FirstInFirstOut label) ⟨{ tables := tables }, []⟩ reached) :
    (∀ key, reached.state.tables.counter key = replay key reached.log (tables.counter key)) ∧
    (∀ earlier first second key own between other later,
      reached.log = earlier ++ .incremented first key (some own) ::
          (between ++ .incremented second key (some other) :: later) →
        (∀ event ∈ between, event.resets key = false) →
          other = own + between.countP (increments key) + 1) ∧
    ReturnsOwn reached.log := by
  have counted : Counted tables reached := by
    apply run.invariant (Counted tables)
    · refine ⟨.idle, fun key => rfl, by simp, ?_, by simp, by simp, by simp, by simp⟩
      intro call key unread
      cases unread with
      | queued _ member => cases member
    · exact fun before label after counted inOrder moved => counted.step inOrder moved
  refine ⟨counted.counters, ?_, counted.returned⟩
  intro earlier first second key own between other later split notReset
  have whole : reached.log = (earlier ++ .incremented first key (some own) :: between) ++
      .incremented second key (some other) :: later := by
    rw [split]
    simp
  have isOwn : effect key (replay key earlier (tables.counter key))
      (.incremented first key (some own)) = some own := by
    rw [effect, if_pos rfl]
    exact (counted.produced earlier first key (some own) _ split).symm
  have isOther := counted.produced _ second key (some other) later whole
  rw [replay_append, replay_cons, isOwn, replay_of_not_reset notReset] at isOther
  exact Option.some.inj isOther

/-- A stored request whose attempts are counted. -/
def countedRequest : DurableRequest :=
  ((postRequest .none).durable? {}).get (by decide +kernel)

/-- A row is stored, and two calls count it up at once: the second one takes the lock while
the first one still waits for its read-back. -/
def overlappingLabels : List CounterLabel :=
  [.acquire (.upsert countedRequest .pending 0 none 0), .execute 0, .release,
    .acquire (.increment countedRequest.key "HTTP 503" 1), .execute 0, .release,
    .acquire (.increment countedRequest.key "HTTP 503" 2), .execute 0, .execute 0, .release,
    .execute 0]

/-- A check that the thread serves its queue in order. -/
def servesFirst : CounterLabel → Bool
  | .execute position => decide (position = 0)
  | _ => true

theorem servesFirst_sound
    (_ : Journaled CounterState CounterEvent)
    (label : CounterLabel)
    (passes : servesFirst label = true) :
    FirstInFirstOut label := by
  rintro position rfl
  exact of_decide_eq_true passes

/-- The two calls return one and two. -/
theorem increment_retry_linearizable_overlapping :
    ∃ reached, Run (record CounterState.step CounterState.observe)
        (fun _ label => FirstInFirstOut label) ⟨{ tables := {} }, []⟩ reached ∧
      reached.log = [.stored countedRequest.key 0, .incremented 1 countedRequest.key (some 1),
        .returned 1 1, .incremented 2 countedRequest.key (some 2), .returned 2 2] ∧
      ReturnsOwn reached.log := by
  have passes : (executeChecked (record CounterState.step CounterState.observe)
      (fun _ label => servesFirst label) overlappingLabels ⟨{ tables := {} }, []⟩).any
        (fun reached => decide (reached.log = [.stored countedRequest.key 0,
          .incremented 1 countedRequest.key (some 1), .returned 1 1,
          .incremented 2 countedRequest.key (some 2), .returned 2 2])) = true := by
    decide +kernel
  obtain ⟨reached, run, tested⟩ := exists_run_of_executeChecked servesFirst_sound passes
  exact ⟨reached, run, of_decide_eq_true tested, (increment_retry_linearizable {} run).2.2⟩

end HardenedClient
