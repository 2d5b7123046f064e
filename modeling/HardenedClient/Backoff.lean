import HardenedClient.Retry
import Mathlib.Algebra.Order.Field.Rat
import Mathlib.Algebra.Order.Ring.Pow
import Mathlib.Tactic.NormNum
import Mathlib.Tactic.Positivity

/-!
# The delay before a retry

Under a policy with finite, non-negative delays the backoff stays within the longest
delay and grows with the attempt, and a positive Retry-After is taken as it is up to
that delay. Without one the exponential is formed before it is capped, so from attempt
1024 on there is no delay at all.
-/

namespace HardenedClient

/-- `backoff_seconds` returns a delay between 0 and the longest one, which is the
Retry-After hint, capped, when that is positive. -/
def BacksOff
    (policy : RetryPolicy)
    (attempt : ℕ)
    (retryAfter : Option PyFloat)
    (draw longest : ℚ) : Prop :=
  ∃ seconds, backoffSeconds? policy attempt retryAfter draw = some (.finite seconds) ∧
    0 ≤ seconds ∧ seconds ≤ longest ∧
    ∀ value, retryAfter = some value → (PyFloat.finite 0).lt value = true →
      .finite seconds = value.pyMin policy.maxDelay

/-- A policy with finite, non-negative delays. -/
structure RetryPolicy.Sane (policy : RetryPolicy) (base longest : ℚ) : Prop where
  isBase : policy.baseDelay = .finite base
  isLongest : policy.maxDelay = .finite longest
  base_nonneg : 0 ≤ base
  longest_nonneg : 0 ≤ longest

theorem PyFloat.pyMin_finite (first second : ℚ) :
    (PyFloat.finite first).pyMin (.finite second) = .finite (min first second) := by
  simp only [pyMin, lt, decide_eq_true_eq]
  split_ifs with above
  · rw [min_eq_right above.le]
  · rw [min_eq_left (le_of_not_gt above)]

theorem PyFloat.pyMax_zero
    {value : ℚ}
    (nonneg : 0 ≤ value) :
    (PyFloat.finite 0).pyMax (.finite value) = .finite value := by
  simp only [pyMax, lt, decide_eq_true_eq]
  split_ifs with positive
  · rfl
  · rw [le_antisymm (le_of_not_gt positive) nonneg]

/-- The capped exponential of an attempt. -/
def cappedExponential (base longest : ℚ) (attempt : ℕ) : ℚ :=
  min longest (base * 2 ^ attempt)

theorem cappedExponential_nonneg
    {base longest : ℚ}
    (base_nonneg : 0 ≤ base)
    (longest_nonneg : 0 ≤ longest)
    (attempt : ℕ) :
    0 ≤ cappedExponential base longest attempt :=
  le_min longest_nonneg (by positivity)

theorem cappedExponential_mono
    {base : ℚ}
    (longest : ℚ)
    (base_nonneg : 0 ≤ base) :
    Monotone (cappedExponential base longest) := by
  intro lower higher ordered
  apply min_le_min le_rfl
  apply mul_le_mul_of_nonneg_left _ base_nonneg
  exact pow_le_pow_right₀ (by norm_num) ordered

namespace RetryPolicy.Sane

variable {policy : RetryPolicy} {base longest : ℚ}

/-- The branch without a positive Retry-After. -/
theorem exponential
    (sane : policy.Sane base longest)
    (attempt : ℕ)
    (draw : ℚ) :
    backoffSeconds?.exponential policy attempt draw =
      if attempt < PyFloat.overflowExponent then
        some (.finite (if policy.jitter then cappedExponential base longest attempt * draw
          else cappedExponential base longest attempt))
      else none := by
  simp only [backoffSeconds?.exponential, sane.isBase, sane.isLongest,
    PyFloat.pyMax_zero sane.base_nonneg, PyFloat.pyMax_zero sane.longest_nonneg,
    PyFloat.mulPowTwo?]
  by_cases fits : attempt < PyFloat.overflowExponent
  · rw [if_pos fits, if_pos fits, Option.map_some, PyFloat.pyMin_finite]
    cases policy.jitter <;> rfl
  · rw [if_neg fits, if_neg fits, Option.map_none]

/-- The exponential is in range, with and without jitter. -/
theorem exponential_bounds
    (sane : policy.Sane base longest)
    (attempt : ℕ)
    {draw : ℚ}
    (draw_nonneg : 0 ≤ draw)
    (draw_lt : draw < 1) :
    0 ≤ (if policy.jitter then cappedExponential base longest attempt * draw
        else cappedExponential base longest attempt) ∧
      (if policy.jitter then cappedExponential base longest attempt * draw
        else cappedExponential base longest attempt) ≤ longest := by
  have nonneg := cappedExponential_nonneg sane.base_nonneg sane.longest_nonneg attempt
  have capped : cappedExponential base longest attempt ≤ longest := min_le_left _ _
  split_ifs
  · refine ⟨mul_nonneg nonneg draw_nonneg, ?_⟩
    calc cappedExponential base longest attempt * draw
        ≤ cappedExponential base longest attempt * 1 :=
          mul_le_mul_of_nonneg_left draw_lt.le nonneg
      _ ≤ longest := by rwa [mul_one]
  · exact ⟨nonneg, capped⟩

/-- A positive hint is taken, up to the longest delay. -/
theorem backsOff_of_overrides
    (sane : policy.Sane base longest)
    (attempt : ℕ)
    (draw : ℚ)
    {retryAfter : Option PyFloat}
    (positive : overrides retryAfter = true) :
    BacksOff policy attempt retryAfter draw longest := by
  cases retryAfter with
  | none => cases positive
  | some value =>
      have above : (PyFloat.finite 0).lt value = true := positive
      have taken : backoffSeconds? policy attempt (some value) draw =
          some (value.pyMin policy.maxDelay) := by
        simp only [backoffSeconds?, above, if_true]
      rw [sane.isLongest] at taken
      cases value with
      | finite seconds =>
          have seconds_pos : 0 < seconds := by simpa [PyFloat.lt] using above
          rw [PyFloat.pyMin_finite] at taken
          refine ⟨min seconds longest, taken, le_min seconds_pos.le sane.longest_nonneg,
            min_le_right _ _, ?_⟩
          intro other same _
          rw [← Option.some.inj same, sane.isLongest, PyFloat.pyMin_finite]
      | posInf =>
          refine ⟨longest, taken, sane.longest_nonneg, le_rfl, ?_⟩
          intro other same _
          rw [← Option.some.inj same, sane.isLongest]
          rfl
      | negInf => cases above
      | nan => cases above

/-- Without a positive hint the attempt has to fit. -/
theorem backsOff_iff
    (sane : policy.Sane base longest)
    (attempt : ℕ)
    (retryAfter : Option PyFloat)
    {draw : ℚ}
    (draw_nonneg : 0 ≤ draw)
    (draw_lt : draw < 1) :
    BacksOff policy attempt retryAfter draw longest ↔
      overrides retryAfter = true ∨ attempt < PyFloat.overflowExponent := by
  constructor
  · rintro ⟨seconds, returns, _⟩
    by_contra neither
    rw [not_or, Bool.not_eq_true, not_lt] at neither
    rw [(backoffSeconds?_eq_none_iff policy attempt retryAfter draw).mpr neither] at returns
    cases returns
  · intro either
    by_cases positive : overrides retryAfter = true
    · exact sane.backsOff_of_overrides attempt draw positive
    · have fits := either.resolve_left positive
      have isExponential : backoffSeconds? policy attempt retryAfter draw =
          backoffSeconds?.exponential policy attempt draw := by
        cases retryAfter with
        | none => rfl
        | some value => exact if_neg positive
      have bounds := sane.exponential_bounds attempt draw_nonneg draw_lt
      refine ⟨_, isExponential.trans ((sane.exponential attempt draw).trans (if_pos fits)),
        bounds.1, bounds.2, ?_⟩
      rintro value rfl above
      exact absurd above positive

end RetryPolicy.Sane

/-- Under a policy with finite, non-negative delays, for every attempt, Retry-After
header and draw: `backoff_seconds` returns a delay in range, the capped hint where that
is positive, exactly when the hint is positive or the attempt is below 1024; and
without jitter and header the delay of an attempt is at least that of an earlier one
exactly when the later attempt is below 1024. -/
theorem backoff_in_range_iff
    (policy : RetryPolicy)
    (base longest : ℚ)
    (sane : policy.Sane base longest)
    (draw : ℚ)
    (draw_nonneg : 0 ≤ draw)
    (draw_lt : draw < 1) :
    (∀ attempt header, BacksOff policy attempt (parseRetryAfter header) draw longest ↔
      overrides (parseRetryAfter header) = true ∨ attempt < PyFloat.overflowExponent) ∧
    (policy.jitter = false → ∀ lower higher, lower ≤ higher →
      ((∃ shorter longer, backoffSeconds? policy lower none draw = some (.finite shorter) ∧
          backoffSeconds? policy higher none draw = some (.finite longer) ∧
          shorter ≤ longer) ↔
        higher < PyFloat.overflowExponent)) := by
  refine ⟨fun attempt header => sane.backsOff_iff attempt _ draw_nonneg draw_lt, ?_⟩
  intro noJitter lower higher ordered
  have delay : ∀ attempt, backoffSeconds? policy attempt none draw =
      if attempt < PyFloat.overflowExponent then
        some (.finite (cappedExponential base longest attempt))
      else none := by
    intro attempt
    have exponential : backoffSeconds? policy attempt none draw = _ :=
      sane.exponential attempt draw
    simpa only [noJitter, Bool.false_eq_true, if_false] using exponential
  rw [delay lower, delay higher]
  constructor
  · rintro ⟨_, _, _, returns, _⟩
    by_contra beyond
    rw [if_neg beyond] at returns
    cases returns
  · intro fits
    exact ⟨_, _, if_pos (lt_of_le_of_lt ordered fits), if_pos fits,
      cappedExponential_mono longest sane.base_nonneg ordered⟩

/-- A policy that goes on retrying past the range of a float. -/
def patientPolicy : RetryPolicy := { maxRetries := 2000 }

theorem patientPolicy_sane : patientPolicy.Sane (1 / 4) 30 :=
  ⟨rfl, rfl, by norm_num, by norm_num⟩

/-- The policy admits attempt 1024 and `backoff_seconds` raises there. -/
theorem backoff_overflows :
    shouldRetry patientPolicy 1024 = true ∧
      ¬ BacksOff patientPolicy 1024 (parseRetryAfter none) (1 / 2) 30 := by
  refine ⟨by decide, ?_⟩
  rintro ⟨seconds, returns, _⟩
  rw [(backoffSeconds?_eq_none_iff patientPolicy 1024 (parseRetryAfter none) (1 / 2)).mpr
    ⟨rfl, le_rfl⟩] at returns
  cases returns

/-- A header with blanks around "2" is a hint of two seconds, whatever the attempt. -/
theorem backoff_in_range_hinted :
    BacksOff patientPolicy 5000 (parseRetryAfter (some "  2 ")) (1 / 2) 30 :=
  ((backoff_in_range_iff patientPolicy (1 / 4) 30 patientPolicy_sane (1 / 2) (by norm_num)
    (by norm_num)).1 5000 (some "  2 ")).mpr (Or.inl (by decide +kernel))

end HardenedClient
