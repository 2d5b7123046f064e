import HardenedClient.Config
import HardenedClient.Errors

/-!
# Retry policy

The backoff arithmetic and the retry decision. The decision of
`_handle_retry_or_dlq` is a pure function of the policy, the attempt, the error
and the jitter draw; it raises only when the exponential overflows a float.
-/

namespace HardenedClient

/-- `should_retry`: `attempt` counts the previous attempts. -/
def shouldRetry (policy : RetryPolicy) (attempt : ℕ) : Bool :=
  decide ((attempt : ℤ) < policy.maxRetries)

/-- A Retry-After value that overrides the exponential backoff. -/
def overrides (retryAfter : Option PyFloat) : Bool :=
  match retryAfter with
  | some value => (PyFloat.finite 0).lt value
  | none => false

/-- `backoff_seconds`, with the draw of `rng.uniform` as a fraction in `[0, 1)`.
`none` is the OverflowError of `base * (2 ** attempt)`. -/
def backoffSeconds?
    (policy : RetryPolicy)
    (attempt : ℕ)
    (retryAfter : Option PyFloat)
    (draw : ℚ) : Option PyFloat :=
  match retryAfter with
  | some value =>
      if (PyFloat.finite 0).lt value then some (value.pyMin policy.maxDelay)
      else exponential
  | none => exponential
where
  /-- The branch without a positive Retry-After. -/
  exponential : Option PyFloat :=
    let cap := (PyFloat.finite 0).pyMax policy.maxDelay
    let base := (PyFloat.finite 0).pyMax policy.baseDelay
    (base.mulPowTwo? attempt).map fun product =>
      let target := cap.pyMin product
      if policy.jitter then target.uniformFromZero draw else target

/-- Backoff raises exactly when no Retry-After overrides it and the attempt is
past the float range of `2 ** attempt`. -/
theorem backoffSeconds?_eq_none_iff
    (policy : RetryPolicy)
    (attempt : ℕ)
    (retryAfter : Option PyFloat)
    (draw : ℚ) :
    backoffSeconds? policy attempt retryAfter draw = none ↔
      overrides retryAfter = false ∧ PyFloat.overflowExponent ≤ attempt := by
  cases retryAfter with
  | none => simp [backoffSeconds?, backoffSeconds?.exponential, overrides]
  | some value =>
      cases positive : (PyFloat.finite 0).lt value <;>
        simp [backoffSeconds?, backoffSeconds?.exponential, overrides, positive]

/-- `parse_retry_after`. -/
def parseRetryAfter (value : Option PyStr) : Option PyFloat :=
  match value with
  | none => none
  | some text =>
      if text = [] then none
      else (PyFloat.ofText? (strip text)).map (PyFloat.pyMax (.finite 0))

/-- What `_handle_retry_or_dlq` decides about a failed pass. -/
inductive Disposition
  | retry (newAttempt : ℕ) (delay : PyFloat)
  | terminal

/-- The test `retryable and should_retry(..)` of `_handle_retry_or_dlq`. -/
def willRetry (policy : RetryPolicy) (attempt : ℕ) (exc : PyException) : Bool :=
  (exc.isRetryableError || exc.isCircuitOpenError) && shouldRetry policy attempt

/-- The decision of `_handle_retry_or_dlq`. `retryAfter` is its keyword
argument; without it the hint is read off the exception. `none` is an
OverflowError escaping from `backoff_seconds`. -/
def dispose?
    (policy : RetryPolicy)
    (attempt : ℕ)
    (exc : PyException)
    (retryAfter : Option PyFloat)
    (draw : ℚ) : Option Disposition :=
  if willRetry policy attempt exc then
    let inferredRetryAfter := retryAfter.or exc.retryAfter?
    (backoffSeconds? policy attempt inferredRetryAfter draw).map (.retry (attempt + 1))
  else some .terminal

/-- The decision raises exactly when it retries, with no positive Retry-After,
an attempt past the float range. -/
theorem dispose?_eq_none_iff
    (policy : RetryPolicy)
    (attempt : ℕ)
    (exc : PyException)
    (retryAfter : Option PyFloat)
    (draw : ℚ) :
    dispose? policy attempt exc retryAfter draw = none ↔
      willRetry policy attempt exc = true ∧
        overrides (retryAfter.or exc.retryAfter?) = false ∧
        PyFloat.overflowExponent ≤ attempt := by
  unfold dispose?
  cases willRetry policy attempt exc <;>
    simp [backoffSeconds?_eq_none_iff]

end HardenedClient
