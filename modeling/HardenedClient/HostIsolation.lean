import HardenedClient.Client.Arrivals
import HardenedClient.Client.Replay

/-!
# Hosts behind a saturated one

Workers wait for a token inside the pool, so a host whose bucket is empty can
occupy all of them while an item for another host stays on the queue. It cannot
as long as the last worker to join the others finds the queue without such an
item, and none is put on it while they all wait.
-/

namespace HardenedClient

open Foundation

namespace State

/-- A worker is asleep inside the token bucket of a host. -/
def WaitsIn (state : State) (host : PyStr) (id : ℕ) : Prop :=
  ∃ item probe bucket delayTotal wakeAt, state.tasks id =
    some (.worker (.handling item (.acquiring host probe (some bucket) delayTotal wakeAt)))

/-- Every worker of the pool is asleep inside the token bucket of a host. -/
def PoolWaits (state : State) (host : PyStr) : Prop :=
  state.workers ≠ [] ∧ ∀ id ∈ state.workers, state.WaitsIn host id

/-- The queue holds an item for a host other than this one. -/
def HoldsOther (env : Env) (state : State) (host other : PyStr) : Prop :=
  other ≠ host ∧
    ∃ item ∈ state.queue.items, env.hostOf? item.request.request.url = some other

/-- The next call to a host gets a token at once. -/
def HasToken (env : Env) (state : State) (host : PyStr) : Prop :=
  ∃ limiter bucket,
    state.limiter.bucketFor? env.config.rateLimit state.now host = some (limiter, bucket) ∧
      (limiter.round state.now bucket).2 = .granted

/-- The breaker of a host admits the next call. -/
def Admits (env : Env) (state : State) (host : PyStr) : Prop :=
  ∃ breaker, state.breakers.forHost? env.config.circuitBreaker host = some breaker ∧
    (breaker.beforeCall env.config.circuitBreaker state.now).2 = none

/-- The pool waits for one host while another one could be called. -/
def Stalled (env : Env) (state : State) : Prop :=
  ∃ host other, state.PoolWaits host ∧ HoldsOther env state host other ∧
    HasToken env state other ∧ Admits env state other

end State

/-- A host's bucket holds less than one token. -/
def HostRateLimiter.Empty (limiter : HostRateLimiter) (now : ℚ) (host : PyStr) : Prop :=
  ∃ bucket cell, limiter.buckets host = some bucket ∧ limiter.cells bucket = some cell ∧
    (cell.refill now).tokens < 1

/-- The last worker that is not asleep in a host's bucket finds it empty, and
leaves an item for another host on the queue. -/
def FillsPool (env : Env) (state : State) (label : Label) : Prop :=
  ∃ id item host probe delayTotal wakeAt other, label = .step id .proceed ∧
    id ∈ state.workers ∧
    state.tasks id = some (.worker (.handling item
      (.acquiring host probe none delayTotal wakeAt))) ∧
    (∀ worker ∈ state.workers, worker ≠ id → state.WaitsIn host worker) ∧
    state.limiter.Empty state.now host ∧ state.HoldsOther env host other

/-- An item for another host is put on the queue while the whole pool waits in
one host's bucket. -/
def QueuesBehind (env : Env) (state : State) (label : Label) : Prop :=
  ∃ host item other, state.PoolWaits host ∧ state.enqueues? label = some item ∧
    env.hostOf? item.request.request.url = some other ∧ other ≠ host

namespace State

variable {env : Env} {state next : State} {label : Label} {id : ℕ}

/-! ## The pool -/

/-- The pool stays as it is, or is new, or is gone. -/
theorem workers_cases
    (tidy : state.Tidy)
    (moved : HardenedClient.step env label state = some next) :
    next.workers = state.workers ∨ next.workers = [] ∨
      ∀ id ∈ next.workers, next.tasks id = some (.worker .idle) := by
  cases step_stepped moved with
  | crash => exact Or.inr (Or.inl rfl)
  | stopper _ pool =>
      rcases pool with gone | ⟨same, _⟩
      · exact Or.inr (Or.inl gone)
      · exact Or.inl same
  | @online id current =>
      have known := tidy.lt_of_task current
      right
      right
      intro worker member
      obtain ⟨offset, below, rfl⟩ := List.mem_map.mp member
      have within := List.mem_range.mp below
      have different : state.spawned + offset ≠ id := by omega
      simp [online, setTask, different, within]
  | handled _ _ handled =>
      cases handled with
      | resolved | rejected =>
          rw [settleKey_eq]
          exact Or.inl rfl
      | _ => exact Or.inl rfl
  | escaped _ _ escaped =>
      obtain ⟨_⟩ := escaped
      exact Or.inl rfl
  | _ => exact Or.inl rfl

/-! ## How a worker falls asleep in a bucket -/

/-- A worker that falls asleep as it enters a host's bucket found it empty: a
new bucket is full. -/
theorem empty_of_waits
    {item before : QueueItem}
    {host asked : PyStr}
    {probe slot : Option ℕ}
    {delayTotal wakeAt total until_ : ℚ}
    {held : ℕ}
    (moved : state.acquire env id item host probe none delayTotal wakeAt = some next)
    (waits : next.tasks id = some (.worker (.handling before
      (.acquiring asked slot (some held) total until_)))) :
    asked = host ∧ state.limiter.Empty state.now host := by
  have round : ∀ limiter bucket,
      ({ state with limiter := limiter }.acquireRound id item host probe bucket
        delayTotal).tasks id = some (.worker (.handling before
          (.acquiring asked slot (some held) total until_))) →
      asked = host ∧ ∃ cell, limiter.cells bucket = some cell ∧
        (cell.refill state.now).tokens < 1 := by
    intro limiter bucket current
    simp only [acquireRound, HostRateLimiter.round] at current
    cases stored : limiter.cells bucket with
    | none => simp [stored] at current
    | some cell =>
        by_cases enough : 1 ≤ (cell.refill state.now).tokens
        · simp [stored, TokenBucket.tryAcquire_of_le enough] at current
        · simp [stored, TokenBucket.tryAcquire_of_lt (lt_of_not_ge enough)] at current
          exact ⟨current.2.1.symm, cell, rfl, lt_of_not_ge enough⟩
  unfold acquire at moved
  split_ifs at moved
  simp only [HostRateLimiter.bucketFor?] at moved
  cases stored : state.limiter.buckets host with
  | some bucket =>
      simp only [stored, Option.some.injEq] at moved
      rw [← moved] at waits
      obtain ⟨same, cell, isCell, short⟩ := round _ _ waits
      exact ⟨same, bucket, cell, stored, isCell, short⟩
  | none =>
      simp only [stored] at moved
      cases built : TokenBucket.create?
          (state.limiter.configFor env.config.rateLimit host) state.now with
      | none =>
          simp only [built, Option.map_none, Option.some.injEq] at moved
          simp [← moved] at waits
      | some bucket =>
          simp only [built, Option.map_some, Option.some.injEq] at moved
          rw [← moved] at waits
          obtain ⟨_, cell, isCell, short⟩ := round _ _ waits
          obtain rfl : bucket = cell := by simpa using isCell
          exact absurd short (not_lt_of_ge (TokenBucket.one_le_of_create? built))

/-- A worker that sleeps in a bucket slept there, or has just entered it and
found it empty. -/
theorem waitsIn_origin
    {host : PyStr}
    (tidy : state.Tidy)
    (moved : HardenedClient.step env label state = some next)
    (waits : next.WaitsIn host id) :
    state.WaitsIn host id ∨
      label = .step id .proceed ∧ next.queue = state.queue ∧
        state.limiter.Empty state.now host ∧ ∃ item probe delayTotal wakeAt,
          state.tasks id = some (.worker (.handling item
            (.acquiring host probe none delayTotal wakeAt))) := by
  obtain ⟨item, probe, held, total, until_, current⟩ := waits
  rcases worker_cases tidy moved current with
    ⟨before, _⟩ | ⟨_, _, _, isGating⟩ | ⟨choice, before, rfl, present, stepped, handled⟩
  · exact Or.inl ⟨item, probe, held, total, until_, before⟩
  · cases isGating
  · cases handled with
    | advanced advances =>
        cases advances with
        | waits asked slot bucket delayTotal wakeAt =>
            cases choice <;> simp only [stepHandle, reduceCtorEq] at stepped
            cases bucket with
            | none =>
                obtain ⟨rfl, empty⟩ := empty_of_waits stepped current
                exact Or.inr ⟨rfl, rfl, empty, item, slot, delayTotal, wakeAt, present⟩
            | some bucket =>
                simp only [moveTo_tasks_self] at current
                cases current
                exact Or.inl ⟨item, _, bucket, delayTotal, wakeAt, present⟩
        | blocked disposes => cases disposes <;> simp at current
        | answered response chosen => rcases chosen with rfl | rfl <;> simp at current
        | admitted | granted | hooked => simp at current
    | failed disposes => cases disposes <;> simp at current
    | _ => simp at current

/-- While the whole pool waits for one host, the queue has no item for another. -/
def Isolated (env : Env) (state : State) : Prop :=
  ∀ host other, state.PoolWaits host → ¬ state.HoldsOther env host other

theorem Isolated.step
    (holds : state.Isolated env)
    (tidy : state.Tidy)
    (leaves : ¬ FillsPool env state label)
    (keeps : ¬ QueuesBehind env state label)
    (moved : HardenedClient.step env label state = some next) :
    next.Isolated env := by
  rintro host other ⟨nonempty, waits⟩ ⟨different, item, present, routed⟩
  have pool : next.workers = state.workers := by
    rcases workers_cases tidy moved with same | gone | idle
    · exact same
    · exact absurd gone nonempty
    · obtain ⟨id, member⟩ := List.exists_mem_of_ne_nil _ nonempty
      obtain ⟨_, _, _, _, _, current⟩ := waits id member
      rw [idle id member] at current
      cases current
  rw [pool] at nonempty waits
  by_cases entered : ∃ id ∈ state.workers, ¬ state.WaitsIn host id
  · -- One worker has just fallen asleep, beside the others.
    obtain ⟨id, member, awake⟩ := entered
    obtain ⟨rfl, queue, empty, held, probe, delayTotal, wakeAt, current⟩ :=
      (waitsIn_origin tidy moved (waits id member)).resolve_left awake
    rw [queue] at present
    refine leaves ⟨id, held, host, probe, delayTotal, wakeAt, other, rfl, member, current, ?_,
      empty, different, item, present, routed⟩
    intro worker isWorker isOther
    rcases waitsIn_origin tidy moved (waits worker isWorker) with old | ⟨isStep, _⟩
    · exact old
    · cases isStep
      exact absurd rfl isOther
  · have slept : state.PoolWaits host :=
      ⟨nonempty, fun id member => by_contra fun awake => entered ⟨id, member, awake⟩⟩
    rcases mem_queue moved present with old | put
    · exact holds host other slept ⟨different, item, old, routed⟩
    · exact keeps ⟨host, item, other, slept, put, routed, different⟩

end State

/-- A client of one worker that sends one request a second to a host. -/
def frugal : Env where
  config := {
    rateLimit := { ratePerSecond := 1, burst := 1 }
    queue := { workers := 1 } }
  urlparse := netloc?
  lower := List.map lowerAscii

/-- The host in whose bucket a task sleeps. -/
def Task.sleepsIn? : Task → Option PyStr
  | .worker (.handling _ (.acquiring host _ (some _) _ _)) => some host
  | _ => none

/-- A check for a pool that waits in a host's bucket. -/
def State.poolWaits (state : State) (host : PyStr) : Bool :=
  !state.workers.isEmpty &&
    state.workers.all fun id => (state.tasks id).any fun task => task.sleepsIn? = some host

theorem State.poolWaits_iff
    (state : State)
    (host : PyStr) :
    state.poolWaits host = true ↔ state.PoolWaits host := by
  have sleeps : ∀ id, ((state.tasks id).any fun task => task.sleepsIn? = some host) = true ↔
      state.WaitsIn host id := by
    intro id
    simp only [Option.any_eq_true, decide_eq_true_eq]
    constructor
    · rintro ⟨task, current, asleep⟩
      unfold Task.sleepsIn? at asleep
      split at asleep
      · cases asleep
        exact ⟨_, _, _, _, _, current⟩
      · cases asleep
    · rintro ⟨_, _, _, _, _, current⟩
      exact ⟨_, current, rfl⟩
  simp [poolWaits, PoolWaits, sleeps]

/-- The one worker waits for a token of a host it has just called, and a request
for another host is queued behind it. -/
def saturatedLabels : List Label :=
  startLabels ++ requestLabels 2 "http://sam.gov/first" ++
    requestLabels 3 "http://sam.gov/second" ++ requestLabels 4 "http://usaspending.gov/" ++
    sendLabels 1 ++ answerLabels 1 200 3 ++ sendLabels 1

/-- A move other than the call `stop()`. -/
def Label.notStop : Label → Bool
  | .stop => false
  | _ => true

theorem Label.ne_stop_of_notStop
    {label : Label}
    (passes : label.notStop = true) :
    label ≠ .stop := by
  rintro rfl
  cases passes

/-- Without a stop, a host whose bucket is empty stalls another one that has a
token and whose breaker is CLOSED. -/
theorem host_stalls_other :
    ∃ state, Run (step frugal) (fun _ label => label ≠ .stop) (State.boot {}) state ∧
      state.Stalled frugal := by
  have passes : (executeChecked (step frugal) (fun _ label => label.notStop) saturatedLabels
      (State.boot {})).any (fun state => state.poolWaits "sam.gov" &&
        (state.queue.items.any fun item => decide
          (frugal.hostOf? item.request.request.url = some "usaspending.gov")) &&
        (state.limiter.bucketFor? frugal.config.rateLimit state.now "usaspending.gov").any
          (fun found => decide ((found.1.round state.now found.2).2 = .granted)) &&
        (state.breakers.forHost? frugal.config.circuitBreaker "usaspending.gov").any
          (fun breaker =>
            (breaker.beforeCall frugal.config.circuitBreaker state.now).2.isNone)) = true := by
    decide +kernel
  obtain ⟨state, run, tested⟩ := exists_run_of_executeChecked
    (fun _ _ passes => Label.ne_stop_of_notStop passes) passes
  simp only [Bool.and_eq_true, Option.any_eq_true, List.any_eq_true, decide_eq_true_eq,
    Option.isNone_iff_eq_none] at tested
  obtain ⟨⟨⟨waits, queued⟩, ⟨limiter, bucket⟩, found, granted⟩, breaker, given, admitted⟩ :=
    tested
  exact ⟨state, run, "sam.gov", "usaspending.gov", (state.poolWaits_iff _).mp waits,
    ⟨by decide, queued⟩, ⟨limiter, bucket, found, granted⟩, breaker, given, admitted⟩

/-- Where the last free worker never joins the others in a host's bucket with an
item for another host on the queue, and no such item is queued while they all
wait, no host stalls another. -/
theorem host_never_stalls_other
    (env : Env)
    (tables : Tables)
    (now : ℚ)
    (state : State)
    (run : Run (step env)
      (fun before label => ¬ FillsPool env before label ∧ ¬ QueuesBehind env before label)
      (State.boot tables now) state) :
    ¬ state.Stalled env := by
  have invariant : state.Tidy ∧ state.Isolated env := by
    apply run.invariant (fun state => state.Tidy ∧ state.Isolated env)
    · refine ⟨State.tidy_boot tables now [], ?_⟩
      intro host other waits
      exact absurd rfl waits.1
    · rintro before label after ⟨tidy, isolated⟩ ⟨leaves, keeps⟩ moved
      exact ⟨(step_stepped moved).tidy tidy, isolated.step tidy leaves keeps moved⟩
  rintro ⟨host, other, waits, holds, _⟩
  exact invariant.2 host other waits holds

/-- A check for steps in which a worker does not enter a bucket with items on
the queue, and none is put there while the pool sleeps. -/
def entersAlone (state : State) (label : Label) : Bool :=
  match label with
  | .step id .proceed =>
      (state.queue.items.isEmpty || (state.tasks id).all fun
        | .worker (.handling _ (.acquiring _ _ _ _ _)) => false
        | _ => true) &&
      ((state.enqueues? label).isNone ||
        state.workers.any fun id => (state.tasks id).any fun task => task.sleepsIn? = none)
  | _ => true

theorem entersAlone_sound
    {env : Env}
    {state : State}
    {label : Label}
    (passes : entersAlone state label = true) :
    ¬ FillsPool env state label ∧ ¬ QueuesBehind env state label := by
  constructor
  · rintro ⟨id, _, _, _, _, _, _, rfl, _, current, _, _, _, _, present, _⟩
    simp only [entersAlone, current, Option.all_some, Bool.or_false, Bool.and_eq_true,
      List.isEmpty_iff] at passes
    rw [passes.1] at present
    cases present
  · rintro ⟨host, item, _, ⟨_, waits⟩, put, _⟩
    unfold entersAlone at passes
    split at passes
    · simp only [put, Option.isNone_some, Bool.false_or, Bool.and_eq_true, List.any_eq_true,
        Option.any_eq_true, decide_eq_true_eq] at passes
      obtain ⟨_, id, member, task, current, awake⟩ := passes
      obtain ⟨_, _, _, _, _, asleep⟩ := waits id member
      rw [current] at asleep
      cases asleep
      cases awake
    · next other =>
        unfold State.enqueues? at put
        split at put
        · exact other _ rfl
        · cases put

theorem saturated_host_stalls_only_itself :
    ∃ state, Run (step frugal)
        (fun before label => ¬ FillsPool frugal before label ∧ ¬ QueuesBehind frugal before label)
        (State.boot {}) state ∧
      state.PoolWaits "sam.gov" ∧ ¬ state.Stalled frugal := by
  have passes : (executeChecked (step frugal) entersAlone
      (startLabels ++ requestLabels 2 "http://usaspending.gov/" ++ sendLabels 1 ++
        answerLabels 1 200 3 ++ requestLabels 3 "http://sam.gov/first" ++ sendLabels 1 ++
        answerLabels 1 200 3 ++ requestLabels 4 "http://sam.gov/second" ++ sendLabels 1)
      (State.boot {})).any (fun state => state.poolWaits "sam.gov") = true := by
    decide +kernel
  obtain ⟨state, run, waits⟩ := exists_run_of_executeChecked
    (fun _ _ passes => entersAlone_sound passes) passes
  exact ⟨state, run, (state.poolWaits_iff _).mp waits,
    host_never_stalls_other frugal {} 0 state run⟩

end HardenedClient
