import HardenedClient.PyValue

/-!
# Exceptions and their classification

The client's own error classes beside the exceptions its collaborators raise.
A transport exception is kept by the class tests the code makes on it; every
other `Exception` is retained with its class name and text. `base` stands for
an exception outside `Exception`, which no `except Exception` clause catches.
-/

namespace HardenedClient

/-- Exceptions raised by, or passing through, the client. -/
inductive PyException
  | circuitOpenError (host : PyStr) (retryAfter : ℚ)
  | retryableError (message : PyStr) (statusCode : Option ℕ) (retryAfter : Option PyFloat)
  | nonRetryableError (message : PyStr) (statusCode : Option ℕ) (body : PyValue)
  | deadLetterError (message : PyStr)
  | timeoutError (message : PyStr)
  | clientConnectionError (className message : PyStr)
  | clientPayloadError (message : PyStr)
  | exception (className message : PyStr)
  | cancelledError
  | base (className message : PyStr)

namespace PyException

/-- `isinstance(exc, Exception)`. -/
def isException : PyException → Bool
  | .cancelledError | .base _ _ => false
  | _ => true

/-- `isinstance(exc, AsyncHardenedError)`. -/
def isAsyncHardenedError : PyException → Bool
  | .circuitOpenError _ _ | .retryableError _ _ _
  | .nonRetryableError _ _ _ | .deadLetterError _ => true
  | _ => false

/-- `isinstance(exc, RetryableError)`. -/
def isRetryableError : PyException → Bool
  | .retryableError _ _ _ => true
  | _ => false

/-- `isinstance(exc, NonRetryableError)`, which covers DeadLetterError. -/
def isNonRetryableError : PyException → Bool
  | .nonRetryableError _ _ _ | .deadLetterError _ => true
  | _ => false

/-- `isinstance(exc, CircuitOpenError)`. -/
def isCircuitOpenError : PyException → Bool
  | .circuitOpenError _ _ => true
  | _ => false

/-- `getattr(exc, "retry_after", None)`. -/
def retryAfter? : PyException → Option PyFloat
  | .circuitOpenError _ retryAfter => some (.finite retryAfter)
  | .retryableError _ _ retryAfter => retryAfter
  | _ => none

/-- `exc.__class__.__name__`. -/
def className : PyException → PyStr
  | .circuitOpenError _ _ => "CircuitOpenError"
  | .retryableError _ _ _ => "RetryableError"
  | .nonRetryableError _ _ _ => "NonRetryableError"
  | .deadLetterError _ => "DeadLetterError"
  | .timeoutError _ => "TimeoutError"
  | .clientConnectionError className _ => className
  | .clientPayloadError _ => "ClientPayloadError"
  | .exception className _ => className
  | .cancelledError => "CancelledError"
  | .base className _ => className

/-- A rational rounded half to even, as `round` does. -/
def roundHalfEven (value : ℚ) : ℤ :=
  let floor := value.floor
  let rest := value - floor
  if rest < 1 / 2 then floor
  else if 1 / 2 < rest then floor + 1
  else if floor % 2 = 0 then floor else floor + 1

/-- The format `{value:.1f}`. -/
def formatTenths (value : ℚ) : PyStr :=
  let tenths := roundHalfEven (10 * |value|)
  let sign := if value < 0 then "-" else ""
  PyStr.ofString (sign ++ toString (tenths / 10) ++ "." ++ toString (tenths % 10))

/-- `str(exc)`. -/
def message : PyException → PyStr
  | .circuitOpenError host retryAfter =>
      PyStr.ofString "circuit open for " ++ host ++ PyStr.ofString ", retry after " ++
        formatTenths retryAfter ++ PyStr.ofString "s"
  | .retryableError message _ _ => message
  | .nonRetryableError message _ _ => message
  | .deadLetterError message => message
  | .timeoutError message => message
  | .clientConnectionError _ message => message
  | .clientPayloadError message => message
  | .exception _ message => message
  | .cancelledError => []
  | .base _ message => message

/-- `str(exc) or exc.__class__.__name__`. -/
def describe (exc : PyException) : PyStr :=
  if exc.message = [] then exc.className else exc.message

end PyException

/-- `is_retryable_status`: 5xx and 429. -/
def isRetryableStatus (statusCode : ℕ) : Bool :=
  if statusCode = 429 then true else decide (500 ≤ statusCode ∧ statusCode < 600)

/-- `is_retryable_exception`. -/
def isRetryableException : PyException → Bool
  | .retryableError _ _ _ => true
  | .nonRetryableError _ _ _ | .deadLetterError _ => false
  | .timeoutError _ => true
  | .clientConnectionError _ _ => true
  | .clientPayloadError _ => true
  | _ => false

/-- `_is_throttle`: a RetryableError carrying status 429. -/
def isThrottle : PyException → Bool
  | .retryableError _ (some statusCode) _ => decide (statusCode = 429)
  | _ => false

end HardenedClient
