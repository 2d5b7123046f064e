import HardenedClient.Client.Arrivals
import HardenedClient.Client.Replay
import HardenedClient.Foundation.Journal
import HardenedClient.HostOverrides

/-!
# Rate of the calls to a host

Workers draw from the bucket of the host of their item before they send its request, and
sleep on it in between. However workers, overrides of other hosts and the clock interleave,
the requests that are sent to a host keep to the configuration its bucket is built from.
-/

namespace HardenedClient

open Foundation

/-- A request that a worker sends. -/
structure Call where
  url : PyStr
  time : ℚ

/-- The call goes to a host within a window of time. -/
def Call.goesTo (env : Env) (host : PyStr) (first final : ℚ) (call : Call) : Bool :=
  decide (env.hostOf? call.url = some host) && within first final call.time

theorem Call.countP_concat
    (env : Env)
    (host : PyStr)
    (first final : ℚ)
    (log : List Call)
    (call : Call) :
    ((log ++ [call]).countP (Call.goesTo env host first final) : ℚ) =
      log.countP (Call.goesTo env host first final) +
        if env.hostOf? call.url = some host then
          if within first final call.time = true then 1 else 0
        else 0 := by
  rw [List.countP_append, Nat.cast_add, List.countP_singleton]
  simp only [goesTo, Bool.and_eq_true, decide_eq_true_eq]
  split_ifs <;> simp_all

/-- A worker inside `_rate_limiter.acquire`. -/
structure Acquisition where
  url : PyStr
  host : PyStr
  bucket : Option ℕ

namespace HostRateLimiter

variable {limiter : HostRateLimiter} {host other : PyStr} {default config : RateLimitConfig}

/-- A registry in which the configuration of a host is an override. -/
def pinned (limiter : HostRateLimiter) (host : PyStr) (config : RateLimitConfig) :
    HostRateLimiter :=
  { limiter with overrides := Function.update limiter.overrides host (some config) }

theorem pinned_configFor
    (read : limiter.configFor default host = config) :
    (limiter.pinned host config).configFor default other = limiter.configFor default other := by
  by_cases same : other = host
  · subst same
    rw [read]
    simp [configFor, pinned]
  · simp only [configFor, pinned, Function.update_of_ne same]

theorem pinned_setOverride
    (apart : host ≠ other)
    (replacement : RateLimitConfig) :
    (limiter.setOverride other replacement).pinned host config =
      (limiter.pinned host config).setOverride other replacement := by
  simp only [pinned, setOverride, mk.injEq, and_true]
  exact Function.update_comm apart.symm _ _ _

theorem Registered.pinned
    {now : ℚ}
    (registered : limiter.Registered now) :
    (limiter.pinned host config).Registered now :=
  ⟨registered.fresh, registered.built, registered.distinct, registered.clocked⟩

end HostRateLimiter

/-- A round on a bucket that is not the one of the host. -/
theorem InForce.round_of_ne
    {limiter : HostRateLimiter}
    {host : PyStr}
    {config : RateLimitConfig}
    {draws : List (Draw ℚ)}
    {bucket : ℕ}
    (inForce : InForce limiter host config draws)
    (apart : limiter.buckets host ≠ some bucket)
    (after : TokenBucket) :
    InForce { limiter with cells := Function.update limiter.cells bucket (some after) }
      host config draws := by
  refine ⟨inForce.read, inForce.idle, fun own cell held found => ?_⟩
  rcases update_eq_some_iff.mp found with ⟨rfl, _⟩ | ⟨_, before⟩
  · exact absurd held apart
  · exact inForce.metered own cell held before

namespace State

/-- What a task acquires. -/
def acquiring? (state : State) (id : ℕ) : Option Acquisition :=
  match state.tasks id with
  | some (.worker (.handling item (.acquiring host _ bucket _ _))) =>
      some ⟨item.request.request.url, host, bucket⟩
  | _ => none

/-- A worker that has acquired sends its request. -/
def observeCalls (state : State) (label : Label) (next : State) : List Call :=
  match label with
  | .step id _ =>
      match state.acquiring? id, next.tasks id with
      | some acquisition, some (.worker (.handling _ (.executing _ _))) =>
          [⟨acquisition.url, state.now⟩]
      | _, _ => []
  | _ => []

variable {env : Env} {state next : State} {label : Label} {id : ℕ} {item : QueueItem}
  {host : PyStr}

theorem acquiring?_eq_some
    {acquisition : Acquisition}
    (acquires : state.acquiring? id = some acquisition) :
    ∃ item probe delayTotal wakeAt, acquisition.url = item.request.request.url ∧
      state.tasks id = some (.worker (.handling item
        (.acquiring acquisition.host probe acquisition.bucket delayTotal wakeAt))) := by
  unfold acquiring? at acquires
  split at acquires
  · next item host probe bucket delayTotal wakeAt current =>
      obtain rfl := Option.some.inj acquires
      exact ⟨item, probe, delayTotal, wakeAt, rfl, current⟩
  · cases acquires

/-! ## What a step does to the limiter -/

theorem retryOrDlq_limiter
    (env : Env)
    (state : State)
    (id : ℕ)
    (item : QueueItem)
    (exc : PyException)
    (retryAfter : Option PyFloat)
    (draw : ℚ) :
    (state.retryOrDlq env id item exc retryAfter draw).limiter = state.limiter := by
  unfold retryOrDlq
  split <;> rfl

theorem gate_limiter
    (env : Env)
    (state : State)
    (id : ℕ)
    (item : QueueItem)
    (draw : ℚ) :
    (state.gate env id item draw).limiter = state.limiter := by
  unfold gate
  split
  · rfl
  · split
    · rfl
    · dsimp only
      split
      · exact retryOrDlq_limiter env _ id item _ _ draw
      · rfl

theorem receive_limiter
    (env : Env)
    (state : State)
    (id : ℕ)
    (item : QueueItem)
    (host : PyStr)
    (event : HttpEvent)
    (draw : ℚ) :
    (state.receive env id item host event draw).limiter = state.limiter := by
  unfold receive
  split
  · rfl
  · dsimp only
    split
    · rfl
    · exact retryOrDlq_limiter env _ id item _ _ draw

/-- A step of `_handle` outside `acquire` leaves the limiter alone. -/
theorem stepHandle_limiter
    {point : HandlePoint}
    {choice : Choice}
    (moved : state.stepHandle env id item point choice = some next)
    (outside : ∀ host probe bucket delayTotal wakeAt,
      point ≠ .acquiring host probe bucket delayTotal wakeAt) :
    next.limiter = state.limiter := by
  cases point <;> cases choice <;> simp only [stepHandle, reduceCtorEq] at moved
  case acquiring.proceed => exact absurd rfl (outside _ _ _ _ _)
  case gating.jitter draw =>
    split_ifs at moved
    rw [← Option.some.inj moved]
    exact gate_limiter env state id item draw
  case executing.http host _ event draw =>
    split_ifs at moved
    rw [← Option.some.inj moved]
    exact receive_limiter env state id item host event draw
  case resolving.proceed | failing.proceed =>
    rw [← Option.some.inj moved, settleKey_eq]
    rfl
  case hooking.hook response raised =>
    cases raised with
    | none =>
        rw [← Option.some.inj moved]
        rfl
    | some exc =>
        dsimp only at moved
        split at moved <;> rw [← Option.some.inj moved] <;> rfl
  all_goals
    try split at moved
    all_goals
      rw [← Option.some.inj moved]
      rfl

/-- A step other than a crash leaves the limiter alone, installs an override or is one inside
`acquire`. -/
theorem limiter_cases
    (alive : label ≠ .crash)
    (moved : HardenedClient.step env label state = some next) :
    (next.limiter = state.limiter ∧
        ∀ id choice, label = .step id choice → state.acquiring? id = none) ∨
      (∃ host config, label = .setOverride host config ∧
        next = { state with limiter := state.limiter.setOverride host config }) ∨
      ∃ id choice item host probe bucket delayTotal wakeAt, label = .step id choice ∧
        state.tasks id =
          some (.worker (.handling item (.acquiring host probe bucket delayTotal wakeAt))) := by
  cases label with
  | crash => exact absurd rfl alive
  | setOverride host config =>
      exact Or.inr (Or.inl ⟨host, config, rfl, (Option.some.inj moved).symm⟩)
  | tick seconds =>
      simp only [HardenedClient.step, Option.ite_none_right_eq_some, Option.some.injEq] at moved
      obtain ⟨_, rfl⟩ := moved
      exact Or.inl ⟨rfl, by simp⟩
  | setResponseHook =>
      rw [← Option.some.inj moved]
      exact Or.inl ⟨rfl, by simp⟩
  | start =>
      refine Or.inl ⟨?_, by simp⟩
      simp only [HardenedClient.step, callStart] at moved
      split_ifs at moved <;> rw [← Option.some.inj moved] <;> rfl
  | stop =>
      refine Or.inl ⟨?_, by simp⟩
      simp only [HardenedClient.step, callStop] at moved
      split_ifs at moved <;> rw [← Option.some.inj moved]
      cases state.enterDrain <;> rfl
  | step id choice =>
      cases acquires : state.acquiring? id with
      | some acquisition =>
          obtain ⟨item, probe, delayTotal, wakeAt, _, current⟩ := acquiring?_eq_some acquires
          exact Or.inr (Or.inr ⟨id, choice, item, _, probe, _, delayTotal, wakeAt, rfl, current⟩)
      | none =>
          refine Or.inl ⟨?_, ?_⟩
          swap
          · rintro _ _ ⟨rfl, rfl⟩
            exact acquires
          have inside : ∀ {item point}, state.tasks id = some (.worker (.handling item point)) →
              next.limiter = state.limiter := by
            intro item point current
            simp only [HardenedClient.step, stepTask, current, stepWorker] at moved
            refine stepHandle_limiter moved ?_
            rintro host probe bucket delayTotal wakeAt rfl
            simp [acquiring?, current] at acquires
          cases step_stepped moved with
          | outside isOutside => cases isOutside
          | handled current | escaped current => exact inside current
          | _ => rfl
  | _ =>
      refine Or.inl ⟨?_, by simp⟩
      cases step_stepped moved with
      | outside isOutside => cases isOutside
      | _ => rfl

/-- What a step does to the limiter, and the calls it shows. -/
inductive Draws (env : Env) (state : State) (label : Label) (next : State) : Prop
  | apart
      (same : next.limiter = state.limiter)
      (silent : state.observeCalls label next = [])
      (entered : ∀ id acquisition, next.acquiring? id = some acquisition →
        state.acquiring? id = some acquisition ∨
          env.hostOf? acquisition.url = some acquisition.host ∧ acquisition.bucket = none)
  | overridden (host : PyStr) (config : RateLimitConfig)
      (isOverride : label = .setOverride host config)
      (installed : next = { state with limiter := state.limiter.setOverride host config })
  | acquired (id : ℕ) (acquisition : Acquisition) (limiter : HostRateLimiter) (held : ℕ)
      (cell : TokenBucket)
      (isStep : label = .step id .proceed)
      (acquires : state.acquiring? id = some acquisition)
      (chosen : acquisition.bucket = some held ∧ limiter = state.limiter ∨
        acquisition.bucket = none ∧ state.limiter.bucketFor? env.config.rateLimit state.now
          acquisition.host = some (limiter, held))
      (found : limiter.cells held = some cell)
      (stored : next.limiter = { limiter with
        cells := Function.update limiter.cells held (some (cell.tryAcquire 1 state.now).1) })
      (clock : next.now = state.now)
      (shown : state.observeCalls label next =
        if (cell.tryAcquire 1 state.now).2 = .granted then [⟨acquisition.url, state.now⟩] else [])
      (entered : ∀ other after, next.acquiring? other = some after →
        (state.acquiring? other = some after ∨
          env.hostOf? after.url = some after.host ∧ after.bucket = none) ∨
          after = { acquisition with bucket := some held })

/-- The buckets are registered, workers that sleep in `acquire` hold one, and acquire for
the host of their URL. -/
structure Provisioned (env : Env) (state : State) : Prop where
  tidy : state.Tidy
  registered : state.limiter.Registered state.now
  parsed : ∀ id acquisition, state.acquiring? id = some acquisition →
    env.hostOf? acquisition.url = some acquisition.host
  held : ∀ id acquisition bucket, state.acquiring? id = some acquisition →
    acquisition.bucket = some bucket → ∃ cell, state.limiter.cells bucket = some cell

theorem acquiring?_retryOrDlq
    {exc : PyException}
    {retryAfter : Option PyFloat}
    {draw : ℚ} :
    (state.retryOrDlq env id item exc retryAfter draw).acquiring? id = none := by
  unfold retryOrDlq
  split <;> simp [acquiring?]

/-- The gate admits a call with the host of its URL and without a bucket. -/
theorem acquiring?_gate
    {draw : ℚ}
    {acquisition : Acquisition}
    (acquires : (state.gate env id item draw).acquiring? id = some acquisition) :
    env.hostOf? acquisition.url = some acquisition.host ∧ acquisition.bucket = none := by
  unfold gate at acquires
  split at acquires
  · simp [acquiring?] at acquires
  · next host parsed =>
      split at acquires
      · simp [acquiring?] at acquires
      · dsimp only at acquires
        split at acquires
        · rw [acquiring?_retryOrDlq] at acquires
          cases acquires
        · simp only [acquiring?, moveTo_tasks_self, Option.some.injEq] at acquires
          rw [← acquires]
          exact ⟨parsed, rfl⟩

/-- A worker that acquires was there before, comes from the gate, or takes its own step. -/
theorem acquiring?_cases
    {acquisition : Acquisition}
    (tidy : state.Tidy)
    (moved : HardenedClient.step env label state = some next)
    (acquires : next.acquiring? id = some acquisition) :
    (state.acquiring? id = some acquisition ∧ id ≠ label.actor state) ∨
      (env.hostOf? acquisition.url = some acquisition.host ∧ acquisition.bucket = none) ∨
      ∃ choice, label = .step id choice ∧ (state.acquiring? id).isSome := by
  obtain ⟨item, probe, delayTotal, wakeAt, isUrl, current⟩ := acquiring?_eq_some acquires
  rcases worker_cases tidy moved current with
    ⟨before, different⟩ | ⟨_, _, _, isGating⟩ | ⟨choice, before, rfl, present, handles, handled⟩
  · refine Or.inl ⟨?_, different⟩
    rw [acquiring?, before]
    rw [acquiring?, current] at acquires
    exact acquires
  · cases isGating
  · right
    cases before with
    | gating =>
        cases choice <;> simp only [stepHandle, reduceCtorEq] at handles
        split_ifs at handles
        rw [← Option.some.inj handles] at acquires
        exact Or.inl (acquiring?_gate acquires)
    | acquiring => exact Or.inr ⟨choice, rfl, by simp [acquiring?, present]⟩
    | executing =>
        exfalso
        cases handled with
        | advanced advances => cases advances
        | succeeded => simp [acquiring?] at acquires
        | failed disposes => cases disposes <;> simp [acquiring?] at acquires
    | _ =>
        exfalso
        cases handled with
        | advanced advances => cases advances <;> simp_all
        | _ => simp_all

/-- A step of `acquire` escapes, or plays a round on the bucket it holds or looks up. -/
theorem acquire_cases
    {probe bucket : Option ℕ}
    {delayTotal wakeAt : ℚ}
    (built : ∀ held, bucket = some held → ∃ cell, state.limiter.cells held = some cell)
    (registered : state.limiter.Registered state.now)
    (moved : state.acquire env id item host probe bucket delayTotal wakeAt = some next) :
    (∃ exc, next = state.escape id exc) ∨
      ∃ limiter held cell,
        (bucket = some held ∧ limiter = state.limiter ∨
          bucket = none ∧ state.limiter.bucketFor? env.config.rateLimit state.now host =
            some (limiter, held)) ∧
        limiter.cells held = some cell ∧
        next = { state with limiter := limiter }.acquireRound id item host probe held delayTotal := by
  unfold acquire at moved
  split_ifs at moved
  cases bucket with
  | some held =>
      obtain ⟨cell, found⟩ := built held rfl
      exact Or.inr ⟨state.limiter, held, cell, Or.inl ⟨rfl, rfl⟩, found,
        (Option.some.inj moved).symm⟩
  | none =>
      dsimp only at moved
      split at moved
      · exact Or.inl ⟨_, (Option.some.inj moved).symm⟩
      · next limiter held looked =>
          have found : ∃ cell, limiter.cells held = some cell := by
            rcases HostRateLimiter.bucketFor?_cases looked with
              ⟨known, rfl⟩ | ⟨_, rfl, cell, _, rfl⟩
            · exact registered.built host held known
            · exact ⟨cell, Function.update_self _ _ _⟩
          obtain ⟨cell, found⟩ := found
          exact Or.inr ⟨limiter, held, cell, Or.inr ⟨rfl, looked⟩, found,
            (Option.some.inj moved).symm⟩

/-- A round sends the request when the bucket grants, and sleeps on the bucket otherwise. -/
theorem acquireRound_spec
    {probe : Option ℕ}
    {held : ℕ}
    {cell : TokenBucket}
    (delayTotal : ℚ)
    (found : state.limiter.cells held = some cell) :
    (state.acquireRound id item host probe held delayTotal).limiter =
        { state.limiter with
          cells := Function.update state.limiter.cells held
            (some (cell.tryAcquire 1 state.now).1) } ∧
      (state.acquireRound id item host probe held delayTotal).now = state.now ∧
      if (cell.tryAcquire 1 state.now).2 = .granted then
        (state.acquireRound id item host probe held delayTotal).tasks id =
          some (.worker (.handling item (.executing host probe)))
      else ∃ total until_,
        (state.acquireRound id item host probe held delayTotal).tasks id =
          some (.worker (.handling item (.acquiring host probe (some held) total until_))) := by
  unfold acquireRound
  rw [HostRateLimiter.round_of_cell state.now found]
  cases result : (cell.tryAcquire 1 state.now).2 with
  | granted => exact ⟨rfl, rfl, by simp⟩
  | wait seconds => exact ⟨rfl, rfl, by simp⟩

/-- A step that no worker takes inside `acquire`. -/
theorem Draws.of_not_acquiring
    (tidy : state.Tidy)
    (moved : HardenedClient.step env label state = some next)
    (same : next.limiter = state.limiter)
    (idle : ∀ id choice, label = .step id choice → state.acquiring? id = none) :
    Draws env state label next := by
  refine .apart same ?_ fun id acquisition acquires => ?_
  · cases label with
    | step id choice => simp [observeCalls, idle id choice rfl]
    | _ => rfl
  · rcases acquiring?_cases tidy moved acquires with ⟨before, _⟩ | fresh | ⟨choice, rfl, acquired⟩
    · exact Or.inl before
    · exact Or.inr fresh
    · rw [idle id choice rfl] at acquired
      cases acquired

/-- A step inside `acquire`. -/
theorem Draws.of_acquiring
    {choice : Choice}
    {probe bucket : Option ℕ}
    {delayTotal wakeAt : ℚ}
    (provisioned : Provisioned env state)
    (current : state.tasks id =
      some (.worker (.handling item (.acquiring host probe bucket delayTotal wakeAt))))
    (moved : HardenedClient.step env (.step id choice) state = some next) :
    Draws env state (.step id choice) next := by
  have acquires : state.acquiring? id = some ⟨item.request.request.url, host, bucket⟩ := by
    rw [acquiring?, current]
  have others : ∀ other after, other ≠ id → next.acquiring? other = some after →
      state.acquiring? other = some after ∨
        env.hostOf? after.url = some after.host ∧ after.bucket = none := by
    intro other after different acquired
    rcases acquiring?_cases provisioned.tidy moved acquired with ⟨before, _⟩ | fresh | own
    · exact Or.inl before
    · exact Or.inr fresh
    · obtain ⟨_, isOwn, _⟩ := own
      cases isOwn
      exact absurd rfl different
  have handles := moved
  simp only [HardenedClient.step, stepTask, current, stepWorker] at handles
  cases choice <;> simp only [stepHandle, reduceCtorEq] at handles
  rcases acquire_cases (fun held => provisioned.held id _ held acquires) provisioned.registered
    handles with ⟨exc, rfl⟩ | ⟨limiter, held, cell, chosen, found, rfl⟩
  · refine .apart rfl ?_ fun other after acquired => ?_
    · simp [observeCalls, acquires]
    · by_cases own : other = id
      · simp [own, acquiring?] at acquired
      · exact others other after own acquired
  · obtain ⟨stored, clock, turns⟩ := @acquireRound_spec { state with limiter := limiter } id item
      host probe held cell delayTotal found
    refine .acquired id _ limiter held cell rfl acquires chosen found stored clock ?_
      fun other after acquired => ?_
    · split_ifs at turns ⊢ with granted
      · simp only [observeCalls, acquires, turns]
      · obtain ⟨total, until_, waits⟩ := turns
        simp only [observeCalls, acquires, waits]
    · by_cases own : other = id
      · right
        rw [own, acquiring?] at acquired
        split_ifs at turns with granted
        · simp [turns] at acquired
        · obtain ⟨total, until_, waits⟩ := turns
          rw [waits] at acquired
          exact (Option.some.inj acquired).symm
      · exact Or.inl (others other after own acquired)

/-- Every step leaves the limiter alone, installs an override or is one round of an
acquisition. -/
theorem draws_step
    (provisioned : Provisioned env state)
    (alive : label ≠ .crash)
    (moved : HardenedClient.step env label state = some next) :
    Draws env state label next := by
  rcases limiter_cases alive moved with
    ⟨same, idle⟩ | ⟨host, config, isOverride, installed⟩ |
      ⟨id, choice, item, host, probe, bucket, delayTotal, wakeAt, rfl, current⟩
  · exact .of_not_acquiring provisioned.tidy moved same idle
  · exact .overridden host config isOverride installed
  · exact .of_acquiring provisioned current moved

/-! ## Buckets in use -/

theorem Provisioned.boot
    (env : Env)
    (tables : Tables)
    (now : ℚ)
    (history : List Event) :
    Provisioned env (boot tables now history) := by
  have nobody : ∀ id, (State.boot tables now history).acquiring? id = none := fun _ => rfl
  constructor
  · exact tidy_boot tables now history
  · constructor <;> intros <;> simp_all [State.boot]
  · intro id acquisition acquires
    cases (nobody id).symm.trans acquires
  · intro id acquisition bucket acquires
    cases (nobody id).symm.trans acquires

/-- The registry that a worker draws from is the one there was, or has a new bucket for the
host. -/
theorem Provisioned.chosen
    {acquisition : Acquisition}
    {limiter : HostRateLimiter}
    {held : ℕ}
    (provisioned : Provisioned env state)
    (chosen : acquisition.bucket = some held ∧ limiter = state.limiter ∨
      acquisition.bucket = none ∧ state.limiter.bucketFor? env.config.rateLimit state.now
        acquisition.host = some (limiter, held)) :
    limiter.Registered state.now ∧
      ∀ bucket cell, state.limiter.cells bucket = some cell →
        limiter.cells bucket = some cell := by
  rcases chosen with ⟨_, rfl⟩ | ⟨_, looked⟩
  · exact ⟨provisioned.registered, fun _ _ found => found⟩
  · rcases HostRateLimiter.bucketFor?_cases looked with
      ⟨_, rfl⟩ | ⟨_, rfl, built, created, rfl⟩
    · exact ⟨provisioned.registered, fun _ _ found => found⟩
    · refine ⟨provisioned.registered.build created, fun bucket cell found => ?_⟩
      have old := provisioned.registered.fresh bucket cell found
      exact update_eq_some_iff.mpr (Or.inr ⟨old.ne, found⟩)

/-- A step keeps the bucket that a worker sleeps on. -/
theorem Provisioned.step
    (provisioned : Provisioned env state)
    (moved : HardenedClient.step env label state = some next) :
    Provisioned env next := by
  by_cases alive : label = .crash
  · subst alive
    obtain rfl := Option.some.inj moved
    exact .boot env _ _ _
  have tidy := (step_stepped moved).tidy provisioned.tidy
  cases draws_step provisioned alive moved with
  | apart same silent entered =>
      refine ⟨tidy, ?_, ?_, ?_⟩
      · rw [same]
        exact provisioned.registered.later (now_le_step moved)
      · intro id acquisition acquires
        rcases entered id acquisition acquires with before | ⟨parsed, _⟩
        · exact provisioned.parsed id acquisition before
        · exact parsed
      · intro id acquisition bucket acquires holds
        rcases entered id acquisition acquires with before | ⟨_, none⟩
        · rw [same]
          exact provisioned.held id acquisition bucket before holds
        · cases none.symm.trans holds
  | overridden host config isOverride installed =>
      subst installed
      exact ⟨tidy, provisioned.registered.setOverride host config, provisioned.parsed,
        provisioned.held⟩
  | acquired id acquisition limiter held cell isStep acquires chosen found stored clock shown
      entered =>
      obtain ⟨registered, kept⟩ := provisioned.chosen chosen
      have clocked := TokenBucket.tryAcquire_last_le (registered.clocked held cell found)
      refine ⟨tidy, ?_, ?_, ?_⟩
      · rw [stored, clock]
        exact registered.store found clocked
      · intro other after acquired
        rcases entered other after acquired with (before | ⟨parsed, _⟩) | rfl
        · exact provisioned.parsed other after before
        · exact parsed
        · exact provisioned.parsed id acquisition acquires
      · intro other after bucket acquired holds
        rw [stored]
        by_cases same : bucket = held
        · exact ⟨_, update_eq_some_iff.mpr (Or.inl ⟨same, rfl⟩)⟩
        · rcases entered other after acquired with (before | ⟨_, none⟩) | rfl
          · obtain ⟨old, present⟩ := provisioned.held other after bucket before holds
            exact ⟨old, update_eq_some_iff.mpr (Or.inr ⟨same, kept bucket old present⟩)⟩
          · cases none.symm.trans holds
          · exact absurd (Option.some.inj holds).symm same

/-! ## The bucket of one host -/

/-- The bucket of a host keeps to a configuration, which is the one it is built from, and
nobody else holds it. -/
structure Meters
    (env : Env)
    (host : PyStr)
    (config : RateLimitConfig)
    (state : State)
    (log : List Call) : Prop extends Provisioned env state where
  read : state.limiter.configFor env.config.rateLimit host = config
  apart : ∀ id acquisition bucket, state.acquiring? id = some acquisition →
    acquisition.bucket = some bucket →
      (state.limiter.buckets host = some bucket ↔ acquisition.host = host)
  metered : ∃ draws, InForce (state.limiter.pinned host config) host config draws ∧
    ∀ first final, (log.countP (Call.goesTo env host first final) : ℚ) =
      drawn (within first final) draws

variable {config : RateLimitConfig} {log : List Call}

/-- A bucket that is looked up for a host is the one of that host alone. -/
theorem Meters.lookup
    {other : PyStr}
    {limiter : HostRateLimiter}
    {held : ℕ}
    {draws : List (Draw ℚ)}
    (meters : Meters env host config state log)
    (inForce : InForce (state.limiter.pinned host config) host config draws)
    (looked : state.limiter.bucketFor? env.config.rateLimit state.now other =
      some (limiter, held)) :
    limiter.configFor env.config.rateLimit host = config ∧
      (limiter.buckets host = some held ↔ other = host) ∧
      (∀ id acquisition bucket, state.acquiring? id = some acquisition →
        acquisition.bucket = some bucket →
          (limiter.buckets host = some bucket ↔ acquisition.host = host)) ∧
      InForce (limiter.pinned host config) host config draws := by
  have registered := meters.registered
  rcases HostRateLimiter.bucketFor?_cases looked with
    ⟨known, rfl⟩ | ⟨absent, rfl, cell, created, rfl⟩
  · refine ⟨meters.read, ⟨fun own => ?_, fun same => same ▸ known⟩, meters.apart, inForce⟩
    exact registered.distinct other host held known own
  · have below : ∀ {bucket}, (∃ cell, state.limiter.cells bucket = some cell) →
        bucket ≠ state.limiter.created := fun ⟨_, found⟩ =>
      (registered.fresh _ _ found).ne
    refine ⟨meters.read, ?_, ?_, ?_⟩
    · constructor
      · intro own
        rcases update_eq_some_iff.mp own with ⟨same, _⟩ | ⟨_, before⟩
        · exact same.symm
        · exact absurd rfl (below (registered.built host _ before))
      · exact fun same => update_eq_some_iff.mpr (Or.inl ⟨same.symm, rfl⟩)
    · intro id acquisition bucket acquires holds
      have old := below (meters.held id acquisition bucket acquires holds)
      have before := meters.apart id acquisition bucket acquires holds
      by_cases same : host = other
      · -- nobody can hold a bucket of a host that has none
        subst same
        rw [absent] at before
        rw [← before, update_eq_some_iff]
        simp [old.symm]
      · rw [← before]
        show Function.update _ _ _ host = _ ↔ _
        rw [Function.update_of_ne same]
    · rw [← HostRateLimiter.pinned_configFor meters.read] at created
      exact inForce.build registered.pinned absent created

theorem Meters.step
    (meters : Meters env host config state log)
    (alive : label ≠ .crash)
    (kept : ∀ replacement, label ≠ .setOverride host replacement)
    (moved : HardenedClient.step env label state = some next) :
    Meters env host config next (log ++ state.observeCalls label next) := by
  have provisioned := meters.toProvisioned.step moved
  obtain ⟨draws, inForce, counted⟩ := meters.metered
  cases draws_step meters.toProvisioned alive moved with
  | apart same silent entered =>
      rw [silent, List.append_nil]
      refine ⟨provisioned, same ▸ meters.read, fun id acquisition bucket acquires holds => ?_,
        same ▸ meters.metered⟩
      rcases entered id acquisition acquires with before | ⟨_, none⟩
      · rw [same]
        exact meters.apart id acquisition bucket before holds
      · cases none.symm.trans holds
  | overridden other replacement isOverride installed =>
      have different : host ≠ other := by
        rintro rfl
        exact kept replacement isOverride
      have bucket : next.limiter.buckets host = state.limiter.buckets host := by
        rw [installed]
        exact Function.update_of_ne different _ _
      subst isOverride installed
      refine ⟨provisioned, ?_, ?_, draws, ?_, ?_⟩
      · simpa only [HostRateLimiter.configFor, HostRateLimiter.setOverride,
          Function.update_of_ne different] using meters.read
      · intro id acquisition held acquires holds
        rw [bucket]
        exact meters.apart id acquisition held acquires holds
      · rw [HostRateLimiter.pinned_setOverride different]
        exact inForce.install_of_ne different replacement
      · simpa [observeCalls] using counted
  | acquired id acquisition limiter held cell isStep acquires chosen found stored clock shown
      entered =>
      obtain ⟨registered, _⟩ := meters.toProvisioned.chosen chosen
      have looked : limiter.configFor env.config.rateLimit host = config ∧
          (limiter.buckets host = some held ↔ acquisition.host = host) ∧
          (∀ id acquisition bucket, state.acquiring? id = some acquisition →
            acquisition.bucket = some bucket →
              (limiter.buckets host = some bucket ↔ acquisition.host = host)) ∧
          InForce (limiter.pinned host config) host config draws := by
        rcases chosen with ⟨holds, rfl⟩ | ⟨_, looked⟩
        · exact ⟨meters.read, meters.apart id acquisition held acquires holds, meters.apart,
            inForce⟩
        · exact meters.lookup inForce looked
      obtain ⟨read, own, apart, inForce⟩ := looked
      have parsed := meters.parsed id acquisition acquires
      refine ⟨provisioned, stored ▸ read, ?_, ?_⟩
      · intro other after bucket acquired holds
        rw [stored]
        rcases entered other after acquired with (before | ⟨_, none⟩) | rfl
        · exact apart other after bucket before holds
        · cases none.symm.trans holds
        · exact Option.some.inj holds ▸ own
      · rw [stored, shown]
        by_cases ours : acquisition.host = host
        · subst ours
          have round := inForce.round registered.pinned (own.mpr rfl) found
          simp only [true_and] at round
          refine ⟨_, round, fun first final => ?_⟩
          split_ifs with granted
          · rw [Call.countP_concat, counted, if_pos parsed]
            by_cases inside : within first final state.now = true
            · rw [drawn_cons_of_mem _ inside, if_pos inside, add_comm]
            · rw [drawn_cons_of_not_mem _ (by simpa using inside), if_neg inside, add_zero]
          · rw [List.append_nil]
            exact counted first final
        · refine ⟨draws, inForce.round_of_ne (fun holds => ours (own.mp holds)) _,
            fun first final => ?_⟩
          have elsewhere : env.hostOf? acquisition.url ≠ some host := by
            rw [parsed]
            simpa using ours
          split_ifs
          · rw [Call.countP_concat, counted, if_neg elsewhere, add_zero]
          · rw [List.append_nil]
            exact counted first final

/-- No bucket of the host is in use: none is registered, and nobody sleeps on one. -/
theorem Meters.start
    (provisioned : Provisioned env state)
    (unmetered : state.limiter.buckets host = none)
    (awake : ∀ id acquisition, state.acquiring? id = some acquisition →
      acquisition.host = host → acquisition.bucket = none) :
    Meters env host (state.limiter.configFor env.config.rateLimit host) state [] := by
  refine ⟨provisioned, rfl, ?_, [], ⟨Function.update_self _ _ _, fun _ => rfl, ?_⟩, by simp⟩
  · intro id acquisition bucket acquires holds
    rw [unmetered]
    constructor
    · intro own
      cases own
    · intro same
      cases (awake id acquisition acquires same).symm.trans holds
  · intro bucket cell held
    cases unmetered.symm.trans held

theorem Meters.bound
    (meters : Meters env host config state log)
    {first final : ℚ}
    (ordered : first ≤ final) :
    (log.countP (Call.goesTo env host first final) : ℚ) ≤
      max 0 (config.burst + config.ratePerSecond * (final - first)) := by
  obtain ⟨draws, inForce, counted⟩ := meters.metered
  rw [counted]
  cases held : state.limiter.buckets host with
  | none =>
      rw [inForce.idle held, drawn_nil]
      exact le_max_left _ _
  | some bucket =>
      obtain ⟨cell, found⟩ := meters.registered.built host bucket held
      have keeps := inForce.metered bucket cell held found
      exact (keeps.metered.drawn_within first final ordered).trans (le_max_right _ _)

end State

/-- From any reachable state in which a host has no bucket and no worker sleeps on one of it
(as at boot, or after an override of the host), in every run without a crash and without
another override of the host: the requests that are sent to URLs of the host in any window
of time are at most the burst and the refill of its configuration, or none. -/
theorem calls_within_rate
    (env : Env)
    (tables : Tables)
    (now : ℚ)
    (history : List Event)
    (state : State)
    (reached : Reachable (step env) (State.boot tables now history) state)
    (host : PyStr)
    (unmetered : state.limiter.buckets host = none)
    (awake : ∀ id acquisition, state.acquiring? id = some acquisition →
      acquisition.host = host → acquisition.bucket = none)
    (journal : Journaled State Call)
    (run : Run (record (step env) State.observeCalls)
      (fun _ label => label ≠ .crash ∧ ∀ config, label ≠ .setOverride host config)
      ⟨state, []⟩ journal)
    (first final : ℚ)
    (ordered : first ≤ final) :
    (journal.log.countP (Call.goesTo env host first final) : ℚ) ≤
      max 0 ((state.limiter.configFor env.config.rateLimit host).burst +
        (state.limiter.configFor env.config.rateLimit host).ratePerSecond * (final - first)) := by
  have provisioned : state.Provisioned env :=
    reached.invariant (State.Provisioned env) (.boot env tables now history)
      fun _ _ _ provisioned _ moved => provisioned.step moved
  have meters := run.invariant
    (fun reached => State.Meters env host (state.limiter.configFor env.config.rateLimit host)
      reached.state reached.log)
    (.start provisioned unmetered awake) fun before label after meters allowed moved => by
      obtain ⟨stepped, extended⟩ := record_eq_some_iff.mp moved
      rw [extended]
      exact meters.step allowed.1 allowed.2 stepped
  exact meters.bound ordered

/-- The step is no crash and installs no override. -/
def Label.keepsRates : Label → Bool
  | .crash | .setOverride _ _ => false
  | _ => true

theorem Label.keeps_of_keepsRates
    {label : Label}
    (host : PyStr)
    (keeps : label.keepsRates = true) :
    label ≠ .crash ∧ ∀ config, label ≠ .setOverride host config := by
  cases label <;> simp_all [keepsRates]

/-- One worker, and one call a second to each host. -/
def onceASecond : Env :=
  { oneWorker with config := { oneWorker.config with rateLimit := ⟨1, 1⟩ } }

/-- Two calls to a host in a second, of which the second one has to wait for its token. -/
theorem calls_within_rate_waited :
    ∃ journal,
      Run (record (step onceASecond) State.observeCalls)
        (fun _ label => label ≠ .crash ∧ ∀ config, label ≠ .setOverride "example.org" config)
        ⟨State.boot {} 0 [], []⟩ journal ∧
      journal.log.countP (Call.goesTo onceASecond "example.org" 0 1) = 2 ∧
      (journal.log.countP (Call.goesTo onceASecond "example.org" 0 1) : ℚ) ≤
        max 0 (1 + 1 * (1 - 0)) := by
  have passes : (executeChecked (record (step onceASecond) State.observeCalls)
      (fun (_ : Journaled State Call) label => label.keepsRates)
      (startLabels ++ requestLabels 2 "http://example.org/first" ++
        requestLabels 3 "http://example.org/second" ++ sendLabels 1 ++ answerLabels 1 200 3 ++
        sendLabels 1 ++ [.tick 1, .step 1 .proceed])
      ⟨State.boot {} 0 [], []⟩).any (fun journal =>
        decide (journal.log.countP (Call.goesTo onceASecond "example.org" 0 1) = 2)) = true := by
    decide +kernel
  obtain ⟨journal, run, tested⟩ := exists_run_of_executeChecked
    (fun _ _ => Label.keeps_of_keepsRates "example.org") passes
  refine ⟨journal, run, of_decide_eq_true tested, ?_⟩
  have bound := calls_within_rate onceASecond {} 0 [] (State.boot {} 0 []) .refl "example.org" rfl
    (fun _ _ acquires => by cases acquires) journal run 0 1 zero_le_one
  have read : (State.boot {} 0 []).limiter.configFor onceASecond.config.rateLimit "example.org" =
      ⟨1, 1⟩ := rfl
  simpa only [read, Int.cast_one] using bound

end HardenedClient
