import HardenedClient.AcquireDelay

/-!
# The order of waiters on a bucket

The lock orders the rounds, not the waits: a call that finds no token sleeps
outside the lock, and a later call that comes by when the token is there, but
before the sleeper has tried again, takes it. So waiters are served in the order
of their arrival as long as no call takes a token that an earlier one is due.
-/

namespace HardenedClient

open Foundation

namespace TokenBucket

/-- A bucket that falls short falls short until the wait is over. -/
theorem refill_lt_of_waiting
    {count now later : ℚ}
    {bucket : TokenBucket}
    (ratePositive : 0 < bucket.rate)
    (clock : bucket.last ≤ now)
    (after : now ≤ later)
    (short : (bucket.refill now).tokens < count)
    (waiting : later < now + (count - (bucket.refill now).tokens) / bucket.rate) :
    (bucket.refill later).tokens < count := by
  rw [← refill_refill ratePositive clock after]
  rw [refill, refill_last clock, refill_capacity, refill_rate]
  split_ifs with moved
  · have grown := mul_lt_mul_of_pos_right (sub_lt_iff_lt_add'.mpr waiting) ratePositive
    rw [div_mul_cancel₀ _ ratePositive.ne'] at grown
    exact (min_le_right _ _).trans_lt (by linarith)
  · exact short

/-- Drawing from a bucket leaves less at any later time. -/
theorem refill_drawn_le
    {count later : ℚ}
    {bucket : TokenBucket}
    (positive : 0 ≤ count) :
    (refill later { bucket with tokens := bucket.tokens - count }).tokens ≤
      (bucket.refill later).tokens := by
  simp only [refill]
  split_ifs with moved
  · exact min_le_min_left _ (by linarith)
  · simpa using positive

end TokenBucket

namespace BucketState

/-- Waiters are granted their tokens in the order of their arrival: when one call had found
no token before another one entered, it is granted before the other. -/
def ServedInOrder (log : List AcquireEvent) : Prop :=
  ∀ first second, [.waited first, .entered second].Sublist log → .granted second ∈ log →
    [.granted first, .granted second].Sublist log

/-- The call an event is about. -/
def AcquireEvent.id : AcquireEvent → ℕ
  | .entered id | .waited id | .granted id => id

/-- Every call asks for one token. -/
def AsksOne : BucketLabel → Prop
  | .call count => count = 1
  | _ => True

/-- A call that would find a token makes no round while an earlier waiter is due: while a
call that had found none before this one entered has not tried again after its sleep. -/
def YieldsToDue (reached : Journaled BucketState AcquireEvent) : BucketLabel → Prop
  | .round id => 1 ≤ (reached.state.bucket.refill reached.state.now).tokens →
      ∀ first, [.waited first, .entered id].Sublist reached.log →
        (reached.state.acquirers first).all
          (fun acquirer => !acquirer.point.due reached.state.now) = true
  | _ => True

instance (label : BucketLabel) : Decidable (AsksOne label) :=
  match label with
  | .call count => inferInstanceAs (Decidable (count = 1))
  | .tick _ | .round _ | .wake _ => .isTrue trivial

instance (reached : Journaled BucketState AcquireEvent) (label : BucketLabel) :
    Decidable (YieldsToDue reached label) :=
  match label with
  | .tick _ | .call _ | .wake _ => .isTrue trivial
  | .round id => decidable_of_iff
      (1 ≤ (reached.state.bucket.refill reached.state.now).tokens → ∀ event ∈ reached.log,
        [.waited event.id, .entered id].Sublist reached.log →
          (reached.state.acquirers event.id).all
            (fun acquirer => !acquirer.point.due reached.state.now) = true)
      ⟨fun checked enough first earlier =>
        checked enough (.waited first) (earlier.subset (by simp)) earlier,
        fun yields enough event _ => yields enough event.id⟩

/-- What the log tells of the coroutines, and what the bucket holds for the sleeping ones. -/
structure Waits (rate capacity : ℚ) (reached : Journaled BucketState AcquireEvent) : Prop where
  built : Built rate capacity reached.state
  counts : ∀ id acquirer, reached.state.acquirers id = some acquirer → acquirer.count = 1
  known : ∀ id acquirer, reached.state.acquirers id = some acquirer →
    id < reached.state.spawned
  waited : ∀ id, .waited id ∈ reached.log →
    ∃ acquirer, reached.state.acquirers id = some acquirer ∧ acquirer.point ≠ .raised
  granted : ∀ id, .granted id ∈ reached.log ↔
    ∃ acquirer, reached.state.acquirers id = some acquirer ∧
      ∃ delay, acquirer.point = .returned delay
  asleep : ∀ id acquirer wakeAt, reached.state.acquirers id = some acquirer →
    acquirer.point = .sleeping wakeAt → ∀ later, reached.state.now ≤ later → later < wakeAt →
      (reached.state.bucket.refill later).tokens < 1

theorem enter_point (bucket : TokenBucket) (count : ℚ) :
    (enter bucket count).point = .contending ∨ (enter bucket count).point = .raised := by
  simp only [enter]
  split_ifs
  · exact Or.inr rfl
  · exact Or.inl rfl

namespace Waits

variable {rate capacity : ℚ} {reached after : Journaled BucketState AcquireEvent}

/-- Storing one coroutine keeps the log right when it is right about that coroutine, and
when the bucket holds no more than before. -/
theorem store
    {id : ℕ}
    {changed : Acquirer}
    {events : List AcquireEvent}
    (holds : Waits rate capacity reached)
    (built : Built rate capacity after.state)
    (stored : after.state.acquirers = Function.update reached.state.acquirers id (some changed))
    (spawned : reached.state.spawned ≤ after.state.spawned)
    (isKnown : id < after.state.spawned)
    (count : changed.count = 1)
    (clock : after.state.now = reached.state.now)
    (logged : after.log = reached.log ++ events)
    (own : ∀ event ∈ events, event.id = id)
    (waitedOwn : .waited id ∈ after.log → changed.point ≠ .raised)
    (grantedOwn : .granted id ∈ after.log ↔ ∃ delay, changed.point = .returned delay)
    (refills : ∀ later, reached.state.now ≤ later →
      (after.state.bucket.refill later).tokens ≤ (reached.state.bucket.refill later).tokens)
    (asleepOwn : ∀ wakeAt, changed.point = .sleeping wakeAt → ∀ later,
      reached.state.now ≤ later → later < wakeAt → (after.state.bucket.refill later).tokens < 1) :
    Waits rate capacity after := by
  have others : ∀ event, event.id ≠ id → (event ∈ after.log ↔ event ∈ reached.log) := by
    intro event other
    rw [logged, List.mem_append]
    exact or_iff_left fun member => other (own event member)
  have kept : ∀ other, other ≠ id →
      after.state.acquirers other = reached.state.acquirers other := by
    intro other different
    rw [stored, Function.update_of_ne different]
  have found : after.state.acquirers id = some changed := by
    rw [stored, Function.update_self]
  refine ⟨built, ?_, ?_, ?_, ?_, ?_⟩
  · intro other acquirer isAcquirer
    by_cases same : other = id
    · subst same
      exact Option.some.inj (found.symm.trans isAcquirer) ▸ count
    · exact holds.counts other acquirer (kept other same ▸ isAcquirer)
  · intro other acquirer isAcquirer
    by_cases same : other = id
    · exact same ▸ isKnown
    · exact (holds.known other acquirer (kept other same ▸ isAcquirer)).trans_le spawned
  · intro other member
    by_cases same : other = id
    · subst same
      exact ⟨changed, found, waitedOwn member⟩
    · rw [kept other same]
      exact holds.waited other ((others (.waited other) same).mp member)
  · intro other
    by_cases same : other = id
    · subst same
      rw [grantedOwn, found]
      simp
    · rw [kept other same, others (.granted other) same]
      exact holds.granted other
  · intro other acquirer wakeAt isAcquirer sleeps later isLater early
    rw [clock] at isLater
    by_cases same : other = id
    · subst same
      obtain rfl := Option.some.inj (found.symm.trans isAcquirer)
      exact asleepOwn wakeAt sleeps later isLater early
    · exact (refills later isLater).trans_lt
        (holds.asleep other acquirer wakeAt (kept other same ▸ isAcquirer) sleeps later isLater
          early)

theorem not_granted
    {id : ℕ}
    {acquirer : Acquirer}
    (holds : Waits rate capacity reached)
    (found : reached.state.acquirers id = some acquirer)
    (pending : ∀ delay, acquirer.point ≠ .returned delay) :
    .granted id ∉ reached.log := by
  intro member
  obtain ⟨stored, isStored, delay, returned⟩ := (holds.granted id).mp member
  obtain rfl := Option.some.inj (found.symm.trans isStored)
  exact pending delay returned

/-- One move in which a call asks for one token, if it is a call. -/
theorem step
    {label : BucketLabel}
    (holds : Waits rate capacity reached)
    (ratePositive : 0 < rate)
    (asksOne : AsksOne label)
    (moved : record BucketState.step observe label reached = some after) :
    Waits rate capacity after := by
  obtain ⟨next, stepped, rfl⟩ := Option.map_eq_some_iff.mp moved
  have built := holds.built.step stepped
  have bucketRate : 0 < reached.state.bucket.rate := holds.built.rate_eq ▸ ratePositive
  have clock := holds.built.clock
  have refills : ∀ later, reached.state.now ≤ later →
      ((reached.state.bucket.refill reached.state.now).refill later) =
        reached.state.bucket.refill later := fun later =>
    TokenBucket.refill_refill bucketRate clock
  cases moves_of_step stepped with
  | tick forward =>
      rw [observe, List.append_nil]
      refine ⟨built, holds.counts, holds.known, holds.waited, holds.granted, ?_⟩
      intro id acquirer wakeAt found sleeps later isLater early
      exact holds.asleep id acquirer wakeAt found sleeps later
        ((le_add_of_nonneg_right forward).trans isLater) early
  | call count =>
      obtain rfl : count = 1 := asksOne
      have fresh : reached.state.acquirers reached.state.spawned = none := by
        refine Option.eq_none_iff_forall_ne_some.mpr fun acquirer found => ?_
        exact (holds.known _ acquirer found).ne rfl
      have unseen : .waited reached.state.spawned ∉ reached.log ∧
          .granted reached.state.spawned ∉ reached.log := by
        constructor
        · intro member
          obtain ⟨acquirer, found, _⟩ := holds.waited _ member
          exact Option.some_ne_none acquirer (found.symm.trans fresh)
        · rw [holds.granted, fresh]
          simp
      have pending := enter_point reached.state.bucket 1
      refine holds.store built rfl (Nat.le_succ _) (Nat.lt_succ_self _) rfl rfl rfl ?_ ?_ ?_ ?_ ?_
      · simp [observe, AcquireEvent.id]
      · intro member
        simp [observe, unseen.1] at member
      · rcases pending with contends | raised
        · simp [observe, unseen.2, contends]
        · simp [observe, unseen.2, raised]
      · exact fun later _ => le_rfl
      · intro wakeAt sleeps
        rcases pending with contends | raised
        · simp [contends] at sleeps
        · simp [raised] at sleeps
  | @woken woken sleeper wakesAt found asleep =>
      have pending := holds.not_granted found (by simp [asleep])
      have one := holds.counts woken sleeper found
      refine holds.store built rfl le_rfl (holds.known woken sleeper found) one rfl rfl
        ?_ ?_ ?_ ?_ ?_
      · simp [observe]
      · simp
      · simp [observe, pending]
      · exact fun later _ => le_rfl
      · simp
  | @granted drawer drawing found contends enough =>
      have one : drawing.count = 1 := holds.counts drawer drawing found
      refine holds.store built rfl le_rfl (holds.known drawer drawing found) one rfl rfl
        ?_ ?_ ?_ ?_ ?_
      · simp [observe, setAcquirer, AcquireEvent.id]
      · simp
      · simp [observe, setAcquirer]
      · intro later isLater
        rw [← refills later isLater]
        exact TokenBucket.refill_drawn_le (one ▸ zero_le_one)
      · simp
  | @waited waiter waiting seconds found contends short isWait =>
      have one : waiting.count = 1 := holds.counts waiter waiting found
      have pending := holds.not_granted found (by simp [contends])
      refine holds.store built rfl le_rfl (holds.known waiter waiting found) one rfl rfl
        ?_ ?_ ?_ ?_ ?_
      · simp [observe, setAcquirer, AcquireEvent.id]
      · simp
      · simp [observe, setAcquirer, pending]
      · exact fun later isLater => (congrArg TokenBucket.tokens (refills later isLater)).le
      · intro wakeAt sleeps later isLater early
        obtain rfl := AcquirePoint.sleeping.inj sleeps
        rw [one] at short isWait
        rw [isWait] at early
        change ((reached.state.bucket.refill reached.state.now).refill later).tokens < 1
        rw [refills later isLater]
        exact TokenBucket.refill_lt_of_waiting bucketRate clock isLater short early

end Waits

/-! ## The order of the grants -/

/-- A pair of events still stands in a longer log. -/
theorem ServedInOrder.append
    {log : List AcquireEvent}
    (ordered : ServedInOrder log)
    {event : AcquireEvent}
    (entered : ∀ id, event = .entered id → .granted id ∉ log)
    (granted : ∀ first id, event = .granted id → [.waited first, .entered id].Sublist log →
      .granted first ∈ log) :
    ServedInOrder (log ++ [event]) := by
  intro first second pair isGranted
  rcases pair_sublist_concat_iff.mp pair with earlier | ⟨_, isEntered⟩
  · rcases List.mem_append.mp isGranted with before | last
    · exact (ordered first second earlier before).trans (List.sublist_append_left log [event])
    · have isLast := (List.mem_singleton.mp last).symm
      exact pair_sublist_concat_iff.mpr (Or.inr ⟨granted first second isLast earlier, isLast.symm⟩)
  · subst isEntered
    have before : .granted second ∈ log := by simpa using isGranted
    exact absurd before (entered second rfl)

/-- A round that yields to the due waiters keeps the order. -/
theorem Waits.ordered_step
    {rate capacity : ℚ}
    {reached after : Journaled BucketState AcquireEvent}
    {label : BucketLabel}
    (holds : Waits rate capacity reached)
    (ordered : ServedInOrder reached.log)
    (yields : YieldsToDue reached label)
    (moved : record BucketState.step observe label reached = some after) :
    ServedInOrder after.log := by
  obtain ⟨next, stepped, rfl⟩ := Option.map_eq_some_iff.mp moved
  cases moves_of_step stepped with
  | tick forward =>
      change ServedInOrder (reached.log ++ [])
      rwa [List.append_nil]
  | call count =>
      refine ordered.append ?_ (fun first id isGrant => by cases isGrant)
      intro id isEntered member
      obtain rfl := AcquireEvent.entered.inj isEntered
      obtain ⟨acquirer, found, _⟩ := (holds.granted _).mp member
      exact (holds.known _ acquirer found).ne rfl
  | woken found asleep =>
      change ServedInOrder (reached.log ++ [])
      rwa [List.append_nil]
  | @waited waiter waiting seconds found contends short isWait =>
      simp only [observe, setAcquirer, Function.update_self, Option.map_some]
      exact ordered.append (fun id isEntered => by cases isEntered)
        fun first id isGrant => by cases isGrant
  | @granted drawer drawing found contends enough =>
      simp only [observe, setAcquirer, Function.update_self, Option.map_some]
      refine ordered.append (fun id isEntered => by cases isEntered) ?_
      intro first id isGrant earlier
      obtain rfl := AcquireEvent.granted.inj isGrant
      rw [holds.counts drawer drawing found] at enough
      have waited : .waited first ∈ reached.log := earlier.subset (by simp)
      obtain ⟨acquirer, isFirst, entered⟩ := holds.waited first waited
      have notDue := yields enough first earlier
      rw [isFirst, Option.all_some] at notDue
      -- The earlier call is not about to try: it has been granted, or the bucket is still short.
      cases point : acquirer.point with
      | returned delay => exact (holds.granted first).mpr ⟨acquirer, isFirst, delay, point⟩
      | raised => exact absurd point entered
      | contending =>
          rw [point] at notDue
          cases notDue
      | sleeping wakeAt =>
          have early : reached.state.now < wakeAt := by
            simpa [point, AcquirePoint.due] using notDue
          have short := holds.asleep first acquirer wakeAt isFirst point _ le_rfl early
          exact absurd enough (not_le_of_gt short)

/-- A round that takes the token an earlier waiter is due breaks the order. -/
theorem Waits.disordered_step
    {rate capacity : ℚ}
    {reached after : Journaled BucketState AcquireEvent}
    {label : BucketLabel}
    (holds : Waits rate capacity reached)
    (overtakes : ¬ YieldsToDue reached label)
    (moved : record BucketState.step observe label reached = some after) :
    ¬ ServedInOrder after.log := by
  obtain ⟨next, stepped, rfl⟩ := Option.map_eq_some_iff.mp moved
  cases moves_of_step stepped with
  | tick | call | woken => exact absurd trivial overtakes
  | @waited waiter waiting seconds found contends short isWait =>
      rw [holds.counts waiter waiting found] at short
      exact absurd (fun enough => absurd enough (not_le_of_gt short)) overtakes
  | @granted drawer drawing found contends enough =>
      simp only [observe, setAcquirer, Function.update_self, Option.map_some]
      intro ordered
      apply overtakes
      intro _ first earlier
      have pair := ordered first drawer (earlier.trans (List.sublist_append_left _ _)) (by simp)
      have member : .granted first ∈ reached.log := by
        rcases pair_sublist_concat_iff.mp pair with before | ⟨before, _⟩
        · exact before.subset (by simp)
        · exact before
      obtain ⟨acquirer, isFirst, delay, returned⟩ := (holds.granted first).mp member
      simp [isFirst, returned, AcquirePoint.due]

/-- Waiters on a bucket are served in the order of their arrival in every run in which no
call takes a token that an earlier waiter is due; and a call that takes such a token
overtakes the waiter. -/
theorem waiters_served_in_order
    (config : RateLimitConfig)
    (start : ℚ)
    {bucket : TokenBucket}
    (created : TokenBucket.create? config start = some bucket) :
    (∀ final, Run (record step observe)
        (fun reached label => AsksOne label ∧ YieldsToDue reached label)
        ⟨initial start bucket, []⟩ final → ServedInOrder final.log) ∧
    ∀ reached label after, Run (record step observe) (fun _ label => AsksOne label)
        ⟨initial start bucket, []⟩ reached →
      AsksOne label → record step observe label reached = some after →
      ¬ YieldsToDue reached label → ¬ ServedInOrder after.log := by
  obtain ⟨ratePositive, isNew⟩ := TokenBucket.of_create? created
  have initially : Waits bucket.rate bucket.capacity ⟨initial start bucket, []⟩ := by
    refine ⟨⟨rfl, rfl, isNew.le⟩, ?_, ?_, ?_, ?_, ?_⟩ <;> simp [initial]
  constructor
  · intro final run
    have holds := run.invariant
      (fun reached => Waits bucket.rate bucket.capacity reached ∧ ServedInOrder reached.log)
      ⟨initially, fun first second _ absent => absurd absent List.not_mem_nil⟩ ?_
    · exact holds.2
    · rintro reached label after ⟨holds, ordered⟩ ⟨asksOne, yields⟩ moved
      exact ⟨holds.step ratePositive asksOne moved, holds.ordered_step ordered yields moved⟩
  · intro reached label after run asksOne moved overtakes
    have holds := run.invariant (Waits bucket.rate bucket.capacity) initially
      fun before label after holds asksOne moved => holds.step ratePositive asksOne moved
    exact holds.disordered_step overtakes moved

/-- A call comes by when the first token of a sleeping one is there. -/
def latecomerLabels : List BucketLabel :=
  [.call 1, .round 0, .call 1, .round 1, .tick 1, .call 1, .round 2]

/-- A waiter is overtaken by a call that entered after it had found no token: when its sleep
is over, the other coroutine makes its round first. -/
theorem not_served_in_order :
    ∃ bucket, TokenBucket.create? ⟨1, 1⟩ 0 = some bucket ∧
      ∃ final, Run (record step observe)
          (fun reached label => AsksOne label ∧ SleepsLast reached.state label)
          ⟨initial 0 bucket, []⟩ final ∧
        ¬ ServedInOrder final.log := by
  refine ⟨⟨1, 1, 1, 0⟩, by decide +kernel, ?_⟩
  have passes : (executeChecked (record step observe)
      (fun reached label => decide (AsksOne label ∧ SleepsLast reached.state label))
      latecomerLabels ⟨initial 0 ⟨1, 1, 1, 0⟩, []⟩).any (fun final => decide (final.log =
        [.entered 0, .granted 0, .entered 1, .waited 1, .entered 2, .granted 2])) = true := by
    decide +kernel
  obtain ⟨final, run, logged⟩ :=
    exists_run_of_executeChecked (fun _ _ => of_decide_eq_true) passes
  refine ⟨final, run, fun ordered => ?_⟩
  rw [of_decide_eq_true logged] at ordered
  exact absurd (ordered 1 2 (by decide) (by decide)) (by decide)

/-- The sleeper tries first, and the two are served in their order. -/
def patientLabels : List BucketLabel :=
  [.call 1, .round 0, .call 1, .round 1, .call 1, .round 2, .tick 1, .wake 1, .round 1, .wake 2,
    .round 2, .tick 1, .wake 2, .round 2]

theorem waiters_served_in_order_patient :
    ∃ final, Run (record step observe)
        (fun reached label => AsksOne label ∧ YieldsToDue reached label)
        ⟨initial 0 ⟨1, 1, 1, 0⟩, []⟩ final ∧
      [.waited 1, .entered 2].Sublist final.log ∧ .granted 2 ∈ final.log ∧
        [.granted 1, .granted 2].Sublist final.log := by
  have passes : (executeChecked (record step observe)
      (fun reached label => decide (AsksOne label ∧ YieldsToDue reached label))
      patientLabels ⟨initial 0 ⟨1, 1, 1, 0⟩, []⟩).any (fun final =>
        decide ([.waited 1, .entered 2].Sublist final.log ∧ .granted 2 ∈ final.log)) = true := by
    decide +kernel
  obtain ⟨final, run, tested⟩ :=
    exists_run_of_executeChecked (fun _ _ => of_decide_eq_true) passes
  obtain ⟨earlier, granted⟩ := of_decide_eq_true tested
  have ordered := (waiters_served_in_order ⟨1, 1⟩ 0 (by decide +kernel)).1 final run
  exact ⟨final, run, earlier, granted, ordered 1 2 earlier granted⟩

end BucketState

end HardenedClient
