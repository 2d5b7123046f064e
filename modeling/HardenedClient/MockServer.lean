import HardenedClient.Foundation.Meter
import HardenedClient.PyFloat
import Mathlib.Algebra.Order.Field.Rat
import Mathlib.Logic.Function.Basic

/-!
# The quota of the mock server

The server that the client is tested against enforces a quota with a token bucket of its own.
It never makes a request wait: one that finds less than a token is answered with 429 and the
time until there is one. A sequence of requests gets through exactly when it keeps to the
quota in every window of time.
-/

namespace HardenedClient

open Foundation

/-- The knobs of `FailureProfile` that its quota is about. -/
structure FailureProfile where
  enforceRatePerSecond : Option ℚ := none
  enforceBurst : ℤ := 5

/-- What `_ServerState` keeps of the quota, and its count of 429 answers. -/
structure ServerState where
  profile : FailureProfile
  throttles : ℕ := 0
  bucketTokens : ℚ
  bucketLastRefill : ℚ

/-- How `_check_rate_limit` ends: it returns, or raises a 429 with a `Retry-After`, or a
ZeroDivisionError. -/
inductive QuotaCheck
  | admitted
  | throttled (wait : ℚ)
  | zeroDivision
  deriving DecidableEq

namespace ServerState

/-- `reset_for_profile`. -/
def resetForProfile (profile : FailureProfile) (now : ℚ) : ServerState where
  profile := profile
  bucketTokens := profile.enforceBurst
  bucketLastRefill := now

/-- `_check_rate_limit`. -/
def checkRateLimit (now : ℚ) (state : ServerState) : ServerState × QuotaCheck :=
  match state.profile.enforceRatePerSecond with
  | none => (state, .admitted)
  | some rate =>
      let elapsed := now - state.bucketLastRefill
      let refilled : ServerState :=
        { state with
          bucketTokens := min state.profile.enforceBurst (state.bucketTokens + elapsed * rate)
          bucketLastRefill := now }
      if refilled.bucketTokens < 1 then
        if rate = 0 then (refilled, .zeroDivision)
        else ({ refilled with throttles := refilled.throttles + 1 },
          .throttled ((1 - refilled.bucketTokens) / rate))
      else ({ refilled with bucketTokens := refilled.bucketTokens - 1 }, .admitted)

/-- The checks of requests that arrive at the given times. -/
def serve : List ℚ → ServerState → List QuotaCheck
  | [], _ => []
  | now :: later, state =>
      (state.checkRateLimit now).2 :: serve later (state.checkRateLimit now).1

end ServerState

/-- The arrivals keep to a quota in every window of time. -/
def Conforms (rate : ℚ) (burst : ℤ) (arrivals : List ℚ) : Prop :=
  ∀ first final, first ≤ final →
    (arrivals.countP (within first final) : ℚ) ≤ burst + rate * (final - first)

/-! ## The bucket of the server -/

/-- One request each. -/
def unitDraws (times : List ℚ) : List (Draw ℚ) := times.map fun time => ⟨time, 1⟩

theorem drawn_unitDraws (window : ℚ → Bool) (times : List ℚ) :
    drawn window (unitDraws times) = times.countP window := by
  induction times with
  | nil => simp [unitDraws]
  | cons time times inductionHypothesis =>
      by_cases inside : window time = true
      · rw [unitDraws, List.map_cons, drawn_cons_of_mem _ inside, ← unitDraws,
          inductionHypothesis, List.countP_cons_of_pos inside]
        push_cast
        ring
      · rw [unitDraws, List.map_cons, drawn_cons_of_not_mem _ (by simpa using inside), ← unitDraws,
          inductionHypothesis, List.countP_cons_of_neg inside]

namespace ServerState

variable {state : ServerState} {rate now : ℚ} {admitted later : List ℚ}

/-- A bucket that has admitted requests at some times, newest first. -/
structure Served (state : ServerState) (rate : ℚ) (admitted : List ℚ) : Prop where
  enforced : state.profile.enforceRatePerSecond = some rate
  metered : Metered rate state.profile.enforceBurst state.bucketTokens state.bucketLastRefill
    (unitDraws admitted)
  spent : Spent rate state.profile.enforceBurst state.bucketTokens state.bucketLastRefill
    (unitDraws admitted)

theorem Served.initial
    {profile : FailureProfile}
    (enforced : profile.enforceRatePerSecond = some rate)
    (positive : 0 < rate)
    (burst : 0 ≤ profile.enforceBurst)
    (start : ℚ) :
    (resetForProfile profile start).Served rate [] where
  enforced := enforced
  metered := .initial positive (by exact_mod_cast burst) start
  spent := .initial rate _ start

/-- The bucket as a check finds it, filled up to the time of the check. -/
def refilled (rate now : ℚ) (state : ServerState) : ServerState :=
  { state with
    bucketTokens := min state.profile.enforceBurst
      (state.bucketTokens + (now - state.bucketLastRefill) * rate)
    bucketLastRefill := now }

@[simp] theorem profile_checkRateLimit (now : ℚ) (state : ServerState) :
    (state.checkRateLimit now).1.profile = state.profile := by
  unfold checkRateLimit
  split
  · rfl
  · simp only
    split_ifs <;> rfl

/-- Waiting for a request keeps the account of the admitted ones. -/
theorem Served.refilled
    (served : state.Served rate admitted)
    (positive : 0 < rate)
    (after : state.bucketLastRefill ≤ now) :
    (state.refilled rate now).Served rate admitted where
  enforced := served.enforced
  metered := served.metered.refill positive after
  spent := served.spent.refill served.metered.amounts after

/-- A check that finds less than a token refuses the request. -/
theorem Served.refuses
    (served : state.Served rate admitted)
    (positive : 0 < rate)
    (short : (state.refilled rate now).bucketTokens < 1) :
    ∃ wait, (state.checkRateLimit now).2 = .throttled wait := by
  simp only [ServerState.refilled] at short
  simp only [checkRateLimit, served.enforced, if_pos short, if_neg positive.ne']
  exact ⟨_, rfl⟩

/-- A check that finds a token takes it, and admits the request. -/
theorem Served.admits
    (served : state.Served rate admitted)
    (positive : 0 < rate)
    (after : state.bucketLastRefill ≤ now)
    (enough : 1 ≤ (state.refilled rate now).bucketTokens) :
    (state.checkRateLimit now).2 = .admitted ∧
      (state.checkRateLimit now).1.bucketLastRefill = now ∧
      (state.checkRateLimit now).1.Served rate (now :: admitted) := by
  have full := served.refilled positive after
  have taken : state.checkRateLimit now =
      ({ state.refilled rate now with
        bucketTokens := (state.refilled rate now).bucketTokens - 1 }, .admitted) := by
    simp only [ServerState.refilled] at enough ⊢
    simp only [checkRateLimit, served.enforced, if_neg (not_lt.mpr enough)]
  rw [taken]
  exact ⟨rfl, rfl, served.enforced, full.metered.draw positive zero_le_one enough,
    full.spent.draw 1⟩

end ServerState

/-! ## Requests over time -/

theorem Conforms.perm
    {rate : ℚ}
    {burst : ℤ}
    {arrivals others : List ℚ}
    (conforms : Conforms rate burst arrivals)
    (same : arrivals.Perm others) :
    Conforms rate burst others := by
  intro first final ordered
  rw [← same.countP_eq]
  exact conforms first final ordered

namespace ServerState

variable {state : ServerState} {rate now : ℚ} {admitted later : List ℚ}

/-- A refused request breaks the quota: some window that ends with it has more requests than
the burst and the refill of the window. -/
theorem Served.not_conforms
    (served : state.Served rate admitted)
    (positive : 0 < rate)
    (after : state.bucketLastRefill ≤ now)
    (short : (state.refilled rate now).bucketTokens < 1)
    (later : List ℚ) :
    ¬ Conforms rate state.profile.enforceBurst (now :: (later ++ admitted)) := by
  intro conforms
  have full := served.refilled positive after
  obtain ⟨first, before, exceeds⟩ : ∃ first, first ≤ now ∧
      (state.profile.enforceBurst : ℚ) + rate * (now - first) <
        1 + drawn (since first) (unitDraws admitted) :=
    full.spent.exceeds short
  have bound := conforms first now before
  have inside : within first now now = true := by simpa [within] using before
  have past : ∀ time ∈ admitted, since first time = true → within first now time = true := by
    intro time member isSince
    have isPast := full.metered.past ⟨time, 1⟩ (List.mem_map_of_mem member)
    simp only [since, within, decide_eq_true_eq] at isSince ⊢
    exact ⟨isSince, isPast⟩
  have counted : admitted.countP (since first) ≤ (later ++ admitted).countP (within first now) :=
    (List.countP_mono_left past).trans
      (List.Sublist.countP_le (List.sublist_append_right later admitted))
  rw [drawn_unitDraws] at exceeds
  rw [List.countP_cons_of_pos inside] at bound
  have more : (admitted.countP (since first) : ℚ) ≤
      (later ++ admitted).countP (within first now) := by exact_mod_cast counted
  push_cast at bound
  linarith

/-- The requests still to come are all admitted exactly when, with those admitted before, they
keep to the quota. -/
theorem Served.serve_iff
    (served : state.Served rate admitted)
    (positive : 0 < rate)
    {arrivals : List ℚ}
    (ordered : (state.bucketLastRefill :: arrivals).Pairwise (· ≤ ·)) :
    (∀ check ∈ serve arrivals state, check = .admitted) ↔
      Conforms rate state.profile.enforceBurst (arrivals ++ admitted) := by
  induction arrivals generalizing state admitted with
  | nil =>
      constructor
      · intro _ first final before
        have drawn := served.metered.drawn_within first final before
        rwa [drawn_unitDraws] at drawn
      · exact fun _ _ none => absurd none List.not_mem_nil
  | cons now arrivals inductionHypothesis =>
      obtain ⟨before, rest⟩ := List.pairwise_cons.mp ordered
      have after := before now List.mem_cons_self
      rcases lt_or_ge (state.refilled rate now).bucketTokens 1 with short | enough
      · obtain ⟨wait, refused⟩ := served.refuses positive short
        constructor
        · intro all
          have isAdmitted := all _ List.mem_cons_self
          rw [refused] at isAdmitted
          cases isAdmitted
        · exact fun conforms => absurd conforms (served.not_conforms positive after short arrivals)
      · obtain ⟨isAdmitted, isNow, next⟩ := served.admits positive after enough
        have remaining := inductionHypothesis next (by rwa [isNow])
        rw [profile_checkRateLimit] at remaining
        rw [serve, List.forall_mem_cons, remaining]
        constructor
        · exact fun both => both.2.perm List.perm_middle
        · exact fun conforms => ⟨isAdmitted, conforms.perm List.perm_middle.symm⟩

end ServerState

/-- A server with a quota admits a sequence of requests exactly when it keeps to the quota in
every window of time. -/
theorem quota_admits_conforming
    (profile : FailureProfile)
    (rate start : ℚ)
    (enforced : profile.enforceRatePerSecond = some rate)
    (positive : 0 < rate)
    (burst : 0 ≤ profile.enforceBurst)
    (arrivals : List ℚ)
    (ordered : (start :: arrivals).Pairwise (· ≤ ·)) :
    (∀ check ∈ ServerState.serve arrivals (.resetForProfile profile start), check = .admitted) ↔
      Conforms rate profile.enforceBurst arrivals := by
  have served := ServerState.Served.initial enforced positive burst start
  rw [served.serve_iff positive ordered, List.append_nil]
  rfl

/-- One request each second against a quota of one per second and a burst of two. -/
theorem quota_admits_conforming_spaced :
    Conforms 1 2 [0, 0, 1, 2] := by
  have admits := (quota_admits_conforming { enforceRatePerSecond := some 1, enforceBurst := 2 } 1 0
    rfl (by norm_num) (by norm_num) [0, 0, 1, 2] (by norm_num)).mp
  exact admits (by decide +kernel)

end HardenedClient
