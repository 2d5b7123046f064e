import HardenedClient.AcquireRun
import HardenedClient.Foundation.Journal

/-!
# What acquire returns

`acquire` returns the sum of the waits it computed. A coroutine that is alone
on its bucket waits at most once, because the refill of its wait is what it was
short of. One that competes may wait any number of times, but each wait it adds
to its delay is a sleep that lasted at least as long.
-/

namespace HardenedClient

open Foundation

namespace TokenBucket

/-- Refilling twice is refilling at the later time. -/
theorem refill_refill
    {now later : ℚ}
    {bucket : TokenBucket}
    (ratePositive : 0 < bucket.rate)
    (clock : bucket.last ≤ now)
    (after : now ≤ later) :
    (bucket.refill now).refill later = bucket.refill later := by
  by_cases moved : 0 < now - bucket.last
  · by_cases again : 0 < later - now
    · have whole : 0 < later - bucket.last := by linarith
      simp only [refill, if_pos moved, if_pos again, if_pos whole, TokenBucket.mk.injEq, true_and,
        and_true]
      have grown : bucket.capacity ≤ bucket.capacity + (later - now) * bucket.rate :=
        le_add_of_nonneg_right (mul_nonneg again.le ratePositive.le)
      have capped : ∀ level, min bucket.capacity
          (min bucket.capacity level + (later - now) * bucket.rate) =
            min bucket.capacity (level + (later - now) * bucket.rate) := by
        intro level
        rw [← min_add_add_right, ← min_assoc, min_eq_left grown]
      rw [capped]
      congr 1
      ring
    · obtain rfl : later = now := by linarith
      simp [refill, moved]
  · simp [refill, moved]

theorem refill_last
    {now : ℚ}
    {bucket : TokenBucket}
    (clock : bucket.last ≤ now) :
    (bucket.refill now).last = now := by
  simp only [refill]
  split_ifs with moved
  · rfl
  · linarith

theorem of_create?
    {config : RateLimitConfig}
    {now : ℚ}
    {bucket : TokenBucket}
    (created : create? config now = some bucket) :
    0 < bucket.rate ∧ bucket.last = now := by
  simp only [create?] at created
  split_ifs at created with slow small
  obtain rfl := Option.some.inj created
  exact ⟨not_le.mp slow, rfl⟩

/-- A round that falls short finds what it was short of once the wait is over. -/
theorem le_refill_of_waited
    {count now later : ℚ}
    {bucket : TokenBucket}
    (ratePositive : 0 < bucket.rate)
    (clock : bucket.last ≤ now)
    (fits : count ≤ bucket.capacity)
    (short : (bucket.refill now).tokens < count)
    (waited : now + (count - (bucket.refill now).tokens) / bucket.rate ≤ later) :
    count ≤ (bucket.refill later).tokens := by
  have positive : 0 < (count - (bucket.refill now).tokens) / bucket.rate :=
    div_pos (by linarith) ratePositive
  have still : (bucket.refill now).last = now := refill_last clock
  rw [← refill_refill ratePositive clock (by linarith)]
  rw [refill, still, refill_capacity, refill_rate, if_pos (by linarith)]
  apply le_min fits
  have grown := mul_le_mul_of_nonneg_right (le_sub_iff_add_le'.mpr waited) ratePositive.le
  rw [div_mul_cancel₀ _ ratePositive.ne'] at grown
  linarith

end TokenBucket

/-- Whether a coroutine is about to make a round: it contends, or its sleep has lasted the
time it asked for. -/
def AcquirePoint.due (now : ℚ) : AcquirePoint → Bool
  | .contending => true
  | .sleeping wakeAt => decide (wakeAt ≤ now)
  | .returned _ | .raised => false

/-- The time up to which the delay of a coroutine is accounted for: the end of its sleep, or
now. -/
def AcquirePoint.horizon (now : ℚ) : AcquirePoint → ℚ
  | .sleeping wakeAt => wakeAt
  | _ => now

/-! ## What a move does -/

namespace BucketState

/-- The moves of the system, a round by what it finds. -/
inductive Moves : BucketState → BucketLabel → BucketState → Prop
  | tick {state : BucketState} {elapsed : ℚ} (forward : 0 ≤ elapsed) :
      Moves state (.tick elapsed) { state with now := state.now + elapsed }
  | call {state : BucketState} (count : ℚ) :
      Moves state (.call count)
        { state.setAcquirer state.spawned (enter state.bucket count) with
          spawned := state.spawned + 1 }
  | granted {state : BucketState} {id : ℕ} {acquirer : Acquirer}
      (found : state.acquirers id = some acquirer)
      (contends : acquirer.point = .contending)
      (enough : acquirer.count ≤ (state.bucket.refill state.now).tokens) :
      Moves state (.round id)
        { state.setAcquirer id { acquirer with point := .returned acquirer.delayTotal } with
          bucket := { state.bucket.refill state.now with
            tokens := (state.bucket.refill state.now).tokens - acquirer.count }
          grants := ⟨state.now, acquirer.count⟩ :: state.grants }
  | waited {state : BucketState} {id : ℕ} {acquirer : Acquirer} {seconds : ℚ}
      (found : state.acquirers id = some acquirer)
      (contends : acquirer.point = .contending)
      (short : (state.bucket.refill state.now).tokens < acquirer.count)
      (isWait : seconds =
        (acquirer.count - (state.bucket.refill state.now).tokens) / state.bucket.rate) :
      Moves state (.round id)
        { state.setAcquirer id
            { acquirer with
              delayTotal := acquirer.delayTotal + seconds
              point := .sleeping (state.now + seconds) } with
          bucket := state.bucket.refill state.now }
  | woken {state : BucketState} {id : ℕ} {acquirer : Acquirer} {wakeAt : ℚ}
      (found : state.acquirers id = some acquirer)
      (asleep : acquirer.point = .sleeping wakeAt) :
      Moves state (.wake id) (state.setAcquirer id { acquirer with point := .contending })

theorem moves_of_step
    {label : BucketLabel}
    {before after : BucketState}
    (moved : before.step label = some after) :
    Moves before label after := by
  cases label with
  | tick elapsed =>
      simp only [step, Option.ite_none_right_eq_some, Option.some.injEq] at moved
      obtain ⟨forward, rfl⟩ := moved
      exact .tick forward
  | call count =>
      obtain rfl := Option.some.inj moved
      exact .call count
  | round id =>
      simp only [step, Option.bind_eq_some_iff, Option.ite_none_right_eq_some,
        Option.some.injEq] at moved
      obtain ⟨acquirer, found, contends, rfl⟩ := moved
      rcases before.runRound_cases id acquirer with
        ⟨enough, granted⟩ | ⟨short, seconds, isWait, waits⟩
      · rw [granted]
        exact .granted found contends enough
      · rw [waits]
        exact .waited found contends short isWait
  | wake id =>
      simp only [step, Option.bind_eq_some_iff] at moved
      obtain ⟨acquirer, found, woken⟩ := moved
      split at woken <;> simp only [Option.some.injEq, reduceCtorEq] at woken
      subst woken
      exact .woken found (by assumption)

/-! ## What is seen of a call -/

/-- What a bystander sees of the calls of `acquire`. -/
inductive AcquireEvent
  | entered (id : ℕ)
  | waited (id : ℕ)
  | granted (id : ℕ)
  deriving DecidableEq

/-- What a move shows. -/
def observe (before : BucketState) (label : BucketLabel) (after : BucketState) :
    List AcquireEvent :=
  match label with
  | .call _ => [.entered before.spawned]
  | .round id =>
      match (after.acquirers id).map Acquirer.point with
      | some (.sleeping _) => [.waited id]
      | some (.returned _) => [.granted id]
      | _ => []
  | .tick _ | .wake _ => []

theorem length_observe_le (before : BucketState) (label : BucketLabel) (after : BucketState) :
    (observe before label after).length ≤ 1 := by
  cases label with
  | tick | call | wake => simp [observe]
  | round id =>
      simp only [observe]
      split <;> simp

/-- A sleep lasts at least the time it was asked for. -/
def SleepsLast (state : BucketState) : BucketLabel → Prop
  | .wake id => (state.acquirers id).all (fun acquirer => acquirer.point.due state.now) = true
  | _ => True

instance (state : BucketState) (label : BucketLabel) : Decidable (SleepsLast state label) :=
  match label with
  | .wake id => inferInstanceAs (Decidable
      ((state.acquirers id).all (fun acquirer => acquirer.point.due state.now) = true))
  | .tick _ | .call _ | .round _ => .isTrue trivial

/-- No other coroutine draws from the bucket. -/
def Undisturbed (id : ℕ) (state : BucketState) : BucketLabel → Prop
  | .round other => other = id ∨ (state.acquirers other).all (fun acquirer =>
      decide ((state.bucket.refill state.now).tokens < acquirer.count)) = true
  | _ => True

/-- A bucket with its rate and capacity, last refilled in the past. -/
structure Built (rate capacity : ℚ) (state : BucketState) : Prop where
  rate_eq : state.bucket.rate = rate
  capacity_eq : state.bucket.capacity = capacity
  clock : state.bucket.last ≤ state.now

theorem Built.step
    {rate capacity : ℚ}
    {label : BucketLabel}
    {before after : BucketState}
    (holds : Built rate capacity before)
    (moved : before.step label = some after) :
    Built rate capacity after := by
  obtain ⟨rate_eq, capacity_eq, clock⟩ := holds
  cases moves_of_step moved with
  | tick forward => exact ⟨rate_eq, capacity_eq, by simp only; linarith⟩
  | call count => exact ⟨rate_eq, capacity_eq, clock⟩
  | woken found asleep => exact ⟨rate_eq, capacity_eq, clock⟩
  | granted found contends enough =>
      exact ⟨by simpa using rate_eq, by simpa using capacity_eq,
        (TokenBucket.refill_last clock).le⟩
  | waited found contends short isWait =>
      exact ⟨by simpa using rate_eq, by simpa using capacity_eq,
        (TokenBucket.refill_last clock).le⟩

/-! ## Alone on the bucket -/

/-- Where a coroutine is that alone draws from the bucket. Once its wait is over, the
bucket holds what it asked for. -/
structure Lone (count delay wakeAt : ℚ) (id : ℕ) (state : BucketState) (acquirer : Acquirer) :
    Prop where
  found : state.acquirers id = some acquirer
  known : id < state.spawned
  count_eq : acquirer.count = count
  delay_eq : acquirer.delayTotal = delay
  point : acquirer.point = .returned delay ∨
    (acquirer.point = .sleeping wakeAt ∨ acquirer.point = .contending ∧ wakeAt ≤ state.now) ∧
      ∀ later, state.now ≤ later → wakeAt ≤ later → count ≤ (state.bucket.refill later).tokens

namespace Lone

variable {count delay wakeAt rate capacity : ℚ} {id : ℕ}
  {before after : BucketState} {acquirer : Acquirer}

/-- A move that leaves the coroutine and the refilled bucket alone. -/
theorem frame
    (holds : Lone count delay wakeAt id before acquirer)
    (same : after.acquirers id = before.acquirers id)
    (spawned : before.spawned ≤ after.spawned)
    (clock : before.now ≤ after.now)
    (refills : ∀ later, after.now ≤ later →
      after.bucket.refill later = before.bucket.refill later) :
    Lone count delay wakeAt id after acquirer := by
  refine ⟨same.trans holds.found, holds.known.trans_le spawned, holds.count_eq,
    holds.delay_eq, holds.point.imp_right ?_⟩
  rintro ⟨stands, filled⟩
  refine ⟨stands.imp_right fun awake => ⟨awake.1, awake.2.trans clock⟩, ?_⟩
  intro later isLater elapsed
  rw [refills later isLater]
  exact filled later (clock.trans isLater) elapsed

/-- One move of a run in which nobody else draws: the coroutine does not wait again. -/
theorem step
    {label : BucketLabel}
    (holds : Lone count delay wakeAt id before acquirer)
    (built : Built rate capacity before)
    (ratePositive : 0 < rate)
    (sleeps : SleepsLast before label)
    (undisturbed : Undisturbed id before label)
    (moved : before.step label = some after) :
    .waited id ∉ observe before label after ∧
      ∃ next, Lone count delay wakeAt id after next := by
  cases moves_of_step moved with
  | tick forward =>
      exact ⟨List.not_mem_nil, acquirer, holds.frame rfl le_rfl (by simpa using forward)
        fun _ _ => rfl⟩
  | call count =>
      have other : id ≠ before.spawned := holds.known.ne
      refine ⟨by simp [observe], acquirer, holds.frame ?_ (Nat.le_succ _) le_rfl fun _ _ => rfl⟩
      exact Function.update_of_ne other _ _
  | @woken woken sleeper wakesAt found asleep =>
      refine ⟨List.not_mem_nil, ?_⟩
      by_cases other : id = woken
      · subst other
        obtain rfl := Option.some.inj (holds.found.symm.trans found)
        rcases holds.point with returned | ⟨sleeping | ⟨contends, _⟩, filled⟩
        · rw [returned] at asleep
          cases asleep
        · have elapsed : wakeAt ≤ before.now := by
            simpa [SleepsLast, found, sleeping, AcquirePoint.due] using sleeps
          exact ⟨_, Function.update_self .., holds.known, holds.count_eq, holds.delay_eq,
            Or.inr ⟨Or.inr ⟨rfl, elapsed⟩, filled⟩⟩
        · rw [contends] at asleep
          cases asleep
      · exact ⟨acquirer, holds.frame (Function.update_of_ne other _ _) le_rfl le_rfl
          fun _ _ => rfl⟩
  | @granted drawer drawing found contends enough =>
      refine ⟨by simp [observe, setAcquirer], ?_⟩
      by_cases other : drawer = id
      · subst other
        obtain rfl := Option.some.inj (holds.found.symm.trans found)
        exact ⟨_, Function.update_self .., holds.known, holds.count_eq, holds.delay_eq,
          Or.inl (congrArg AcquirePoint.returned holds.delay_eq)⟩
      · -- A grant to another coroutine is a draw.
        rcases undisturbed with same | short
        · exact absurd same other
        · simp only [found, Option.all_some, decide_eq_true_eq] at short
          exact absurd enough (not_le_of_gt short)
  | @waited waiter waiting seconds found contends short isWait =>
      by_cases other : id = waiter
      · -- The bucket would have held what the coroutine asked for.
        subst other
        obtain rfl := Option.some.inj (holds.found.symm.trans found)
        rcases holds.point with returned | ⟨sleeping | ⟨_, elapsed⟩, filled⟩
        · rw [returned] at contends
          cases contends
        · rw [sleeping] at contends
          cases contends
        · rw [holds.count_eq] at short
          exact absurd (filled _ le_rfl elapsed) (not_le_of_gt short)
      · refine ⟨by simpa [observe, setAcquirer] using other, acquirer, ?_⟩
        refine holds.frame (Function.update_of_ne other _ _) le_rfl le_rfl ?_
        intro later isLater
        exact TokenBucket.refill_refill (built.rate_eq ▸ ratePositive) built.clock isLater

end Lone

/-- What `acquire(count)` is short of when it enters, as the time the refill takes. -/
def shortfall (state : BucketState) (count : ℚ) : ℚ :=
  max 0 ((count - (state.bucket.refill state.now).tokens) / state.bucket.rate)

/-- The first round of a call returns without a delay, or sleeps for what it was short of. -/
theorem lone_first
    {rate capacity count : ℚ}
    {id : ℕ}
    {entry : BucketState}
    (built : Built rate capacity entry)
    (ratePositive : 0 < rate)
    (fits : count ≤ capacity)
    (found : entry.acquirers id = some { count := count, point := .contending })
    (known : id < entry.spawned) :
    ∃ first acquirer, entry.step (.round id) = some first ∧
      Lone count (entry.shortfall count) (entry.now + entry.shortfall count) id first
        acquirer := by
  obtain ⟨rfl, rfl, clock⟩ := built
  have runs : entry.step (.round id) =
      some (entry.runRound id { count := count, point := .contending }) := by
    simp [step, found]
  rcases entry.runRound_cases id { count := count, point := .contending } with
    ⟨enough, granted⟩ | ⟨short, seconds, isWait, waits⟩
  · have atOnce : entry.shortfall count = 0 :=
      max_eq_left (div_nonpos_of_nonpos_of_nonneg (sub_nonpos.mpr enough) ratePositive.le)
    rw [atOnce]
    exact ⟨_, _, runs.trans (congrArg some granted), Function.update_self .., known, rfl, rfl,
      Or.inl rfl⟩
  · have delayed : entry.shortfall count = seconds := by
      rw [isWait]
      exact max_eq_right (div_pos (sub_pos.mpr short) ratePositive).le
    rw [delayed]
    refine ⟨_, _, runs.trans (congrArg some waits), Function.update_self .., known, rfl,
      zero_add seconds, Or.inr ⟨Or.inl rfl, ?_⟩⟩
    intro later isLater elapsed
    rw [isWait] at elapsed
    change count ≤ ((entry.bucket.refill entry.now).refill later).tokens
    rw [TokenBucket.refill_refill ratePositive clock isLater]
    exact TokenBucket.le_refill_of_waited ratePositive clock fits short elapsed

/-- A coroutine whose wait is over returns with its next round. -/
theorem Lone.returns
    {count delay wakeAt : ℚ}
    {id : ℕ}
    {state : BucketState}
    {acquirer : Acquirer}
    (holds : Lone count delay wakeAt id state acquirer)
    (contends : acquirer.point = .contending) :
    ∃ after, state.step (.round id) = some after ∧
      (after.acquirers id).map Acquirer.point = some (.returned delay) := by
  rcases holds.point with returned | ⟨sleeping | ⟨_, elapsed⟩, filled⟩
  · rw [contends] at returned
    cases returned
  · rw [contends] at sleeping
    cases sleeping
  · have enough : acquirer.count ≤ (state.bucket.refill state.now).tokens :=
      holds.count_eq ▸ filled _ le_rfl elapsed
    refine ⟨state.runRound id acquirer, by simp [BucketState.step, holds.found, contends], ?_⟩
    rcases state.runRound_cases id acquirer with ⟨_, granted⟩ | ⟨short, _⟩
    · rw [granted]
      simp [setAcquirer, holds.delay_eq]
    · exact absurd enough (not_le_of_gt short)

/-! ## In competition -/

/-- The delay of a coroutine that entered at `entry` is no more than the time since then, a
sleep counted to its end. -/
structure Accounted (entry : ℚ) (state : BucketState) (acquirer : Acquirer) : Prop where
  bound : acquirer.delayTotal ≤ acquirer.point.horizon state.now - entry
  returns : ∀ delay, acquirer.point = .returned delay → delay = acquirer.delayTotal

theorem accounted_enter
    {entry : ℚ}
    {state : BucketState}
    (atEntry : state.now = entry)
    (bucket : TokenBucket)
    (count : ℚ) :
    Accounted entry state (enter bucket count) := by
  have bound : 0 ≤ state.now - entry := (sub_eq_zero.mpr atEntry).ge
  simp only [enter]
  split_ifs
  · exact ⟨bound, fun delay returned => by cases returned⟩
  · exact ⟨bound, fun delay returned => by cases returned⟩

/-- Storing a coroutine keeps the account of another one. -/
theorem accounted_setAcquirer
    {entry : ℚ}
    {id other : ℕ}
    {before after : BucketState}
    {changed : Acquirer}
    (holds : ∀ acquirer, before.acquirers id = some acquirer → Accounted entry before acquirer)
    (stored : after.acquirers = Function.update before.acquirers other (some changed))
    (clock : after.now = before.now)
    (own : id = other → Accounted entry after changed) :
    ∀ acquirer, after.acquirers id = some acquirer → Accounted entry after acquirer := by
  intro acquirer found
  rw [stored, Function.update_apply] at found
  split_ifs at found with same
  · exact Option.some.inj found ▸ own same
  · obtain ⟨bound, returns⟩ := holds acquirer found
    exact ⟨clock ▸ bound, returns⟩

theorem accounted_step
    {entry : ℚ}
    {id : ℕ}
    {label : BucketLabel}
    {before after : BucketState}
    (holds : ∀ acquirer, before.acquirers id = some acquirer → Accounted entry before acquirer)
    (known : id < before.spawned)
    (sleeps : SleepsLast before label)
    (moved : before.step label = some after) :
    id < after.spawned ∧
      ∀ acquirer, after.acquirers id = some acquirer → Accounted entry after acquirer := by
  cases moves_of_step moved with
  | tick forward =>
      refine ⟨known, fun acquirer found => ?_⟩
      obtain ⟨bound, returns⟩ := holds acquirer found
      refine ⟨bound.trans (sub_le_sub_right ?_ entry), returns⟩
      cases acquirer.point <;> simp [AcquirePoint.horizon, forward]
  | call count =>
      refine ⟨known.trans (Nat.lt_succ_self _), accounted_setAcquirer holds rfl rfl ?_⟩
      exact fun same => absurd same known.ne
  | @woken woken sleeper wakesAt found asleep =>
      refine ⟨known, accounted_setAcquirer holds rfl rfl ?_⟩
      rintro rfl
      obtain ⟨bound, returns⟩ := holds sleeper found
      have elapsed : wakesAt ≤ before.now := by
        simpa [SleepsLast, found, asleep, AcquirePoint.due] using sleeps
      rw [asleep] at bound
      exact ⟨bound.trans (sub_le_sub_right elapsed entry), fun delay returned => by cases returned⟩
  | @granted drawer drawing found contends enough =>
      refine ⟨known, accounted_setAcquirer holds rfl rfl ?_⟩
      rintro rfl
      obtain ⟨bound, returns⟩ := holds drawing found
      rw [contends] at bound
      exact ⟨bound, fun delay returned => (AcquirePoint.returned.inj returned).symm⟩
  | @waited waiter waiting seconds found contends short isWait =>
      refine ⟨known, accounted_setAcquirer holds rfl rfl ?_⟩
      rintro rfl
      obtain ⟨bound, returns⟩ := holds waiting found
      rw [contends] at bound
      refine ⟨?_, fun delay returned => by cases returned⟩
      change waiting.delayTotal + seconds ≤ before.now + seconds - entry
      have spent : waiting.delayTotal ≤ before.now - entry := bound
      linarith

/-- What a call leaves as it found it, and the coroutine it adds. -/
structure Called (count : ℚ) (before called : BucketState) : Prop where
  now : called.now = before.now
  bucket : called.bucket = before.bucket
  spawned : called.spawned = before.spawned + 1
  found : called.acquirers before.spawned = some (enter before.bucket count)

theorem called_of_step
    {count : ℚ}
    {before called : BucketState}
    (calls : before.step (.call count) = some called) :
    Called count before called := by
  obtain rfl := Option.some.inj calls
  exact ⟨rfl, rfl, rfl, Function.update_self ..⟩

/-- `acquire` ends and tells its delay. In every state of a bucket, a call that is then alone
in drawing from it waits at most once and returns exactly the time it was short of, where
sleeps last at least as long as they were asked to; and a call in any competition returns no
more than the time between its entry and its return. -/
theorem acquire_ends_truthfully
    (config : RateLimitConfig)
    (start : ℚ)
    {bucket : TokenBucket}
    (created : TokenBucket.create? config start = some bucket)
    {before called : BucketState}
    (reached : Reachable step (initial start bucket) before)
    {count : ℚ}
    (calls : before.step (.call count) = some called) :
    (count ≤ bucket.capacity →
      ∃ first, called.step (.round before.spawned) = some first ∧
        ∀ final, Run (record step observe)
            (fun reached label => SleepsLast reached.state label ∧
              Undisturbed before.spawned reached.state label)
            ⟨first, observe called (.round before.spawned) first⟩ final →
          final.log.count (.waited before.spawned) ≤ 1 ∧
          ∃ point, (final.state.acquirers before.spawned).map Acquirer.point = some point ∧
            (point = .returned (before.shortfall count) ∨
              point = .sleeping (before.now + before.shortfall count) ∨
              point = .contending ∧ ∃ after,
                final.state.step (.round before.spawned) = some after ∧
                (after.acquirers before.spawned).map Acquirer.point =
                  some (.returned (before.shortfall count)))) ∧
    ∀ final, Run step SleepsLast called final →
      ∀ delay, (final.acquirers before.spawned).map Acquirer.point = some (.returned delay) →
        delay ≤ final.now - before.now := by
  obtain ⟨ratePositive, isNew⟩ := TokenBucket.of_create? created
  have built : Built bucket.rate bucket.capacity before := by
    apply reached.invariant (Built bucket.rate bucket.capacity)
    · exact ⟨rfl, rfl, isNew.le⟩
    · exact fun state label after holds _ moved => holds.step moved
  have calledBuilt := built.step calls
  obtain ⟨sameTime, sameBucket, spawned, found⟩ := called_of_step calls
  have known : before.spawned < called.spawned := spawned ▸ Nat.lt_succ_self _
  constructor
  · intro fits
    rw [enter, if_neg (not_lt_of_ge (built.capacity_eq ▸ fits))] at found
    obtain ⟨first, acquirer, runs, lone⟩ := lone_first calledBuilt ratePositive fits found known
    have sameShortfall : called.shortfall count = before.shortfall count := by
      rw [shortfall, shortfall, sameTime, sameBucket]
    rw [sameShortfall, sameTime] at lone
    refine ⟨first, runs, fun final run => ?_⟩
    have holds := run.invariant
      (fun reached => Built bucket.rate bucket.capacity reached.state ∧
        reached.log.count (.waited before.spawned) ≤ 1 ∧
        ∃ acquirer, Lone count (before.shortfall count) (before.now + before.shortfall count)
          before.spawned reached.state acquirer)
      ⟨calledBuilt.step runs, ?_, acquirer, lone⟩ ?_
    · obtain ⟨_, waits, acquirer, lone⟩ := holds
      refine ⟨waits, acquirer.point, by rw [lone.found, Option.map_some], ?_⟩
      rcases lone.point with returned | ⟨sleeping | ⟨contends, _⟩, _⟩
      · exact Or.inl returned
      · exact Or.inr (Or.inl sleeping)
      · exact Or.inr (Or.inr ⟨contends, lone.returns contends⟩)
    · exact List.count_le_length.trans (length_observe_le called (.round before.spawned) first)
    · rintro reached label after ⟨built, waits, acquirer, lone⟩ ⟨sleeps, undisturbed⟩ moved
      obtain ⟨moved, logged⟩ := record_eq_some_iff.mp moved
      obtain ⟨silent, next, stays⟩ := lone.step built ratePositive sleeps undisturbed moved
      refine ⟨built.step moved, ?_, next, stays⟩
      rw [logged, List.count_append, List.count_eq_zero_of_not_mem silent]
      exact waits
  · intro final run delay returned
    have holds := run.invariant
      (fun state => before.spawned < state.spawned ∧ ∀ acquirer,
        state.acquirers before.spawned = some acquirer → Accounted before.now state acquirer)
      ⟨known, ?_⟩ ?_
    · obtain ⟨acquirer, found, isReturned⟩ := Option.map_eq_some_iff.mp returned
      obtain ⟨bound, returns⟩ := holds.2 acquirer found
      rw [returns delay isReturned]
      rw [isReturned] at bound
      exact bound
    · intro acquirer isAcquirer
      obtain rfl := Option.some.inj (found.symm.trans isAcquirer)
      exact accounted_enter sameTime before.bucket count
    · rintro state label after ⟨known, holds⟩ sleeps moved
      exact accounted_step holds known sleeps moved

/-- On a bucket that another call has just emptied, a call is short of one second. -/
theorem acquire_ends_truthfully_emptied :
    ∃ before called first, Reachable step (initial 0 ⟨1, 2, 2, 0⟩) before ∧
      before.shortfall 1 = 1 ∧ before.step (.call 1) = some called ∧
      called.step (.round before.spawned) = some first ∧
      ∀ final, Run (record step observe)
          (fun reached label => SleepsLast reached.state label ∧
            Undisturbed before.spawned reached.state label)
          ⟨first, observe called (.round before.spawned) first⟩ final →
        final.log.count (.waited before.spawned) ≤ 1 := by
  have passes : (executeChecked step (fun _ _ => true) [.call 2, .round 0]
      (initial 0 ⟨1, 2, 2, 0⟩)).any (fun state => decide (state.shortfall 1 = 1)) = true := by
    decide +kernel
  obtain ⟨before, reached, short⟩ := exists_run_of_executeChecked (fun _ _ _ => trivial) passes
  have ends := acquire_ends_truthfully ⟨1, 2⟩ 0 (by decide +kernel) reached
    (show before.step (.call 1) = some _ from rfl)
  obtain ⟨first, runs, alone⟩ := ends.1 (by decide +kernel)
  exact ⟨before, _, first, reached, of_decide_eq_true short, rfl, runs,
    fun final run => (alone final run).1⟩

end BucketState

end HardenedClient
