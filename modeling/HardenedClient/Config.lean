import HardenedClient.PyValue

/-!
# Configuration

The configuration dataclasses with their defaults, and the environment of the
model: a configuration beside what the standard library does with strings and
the limits of the interpreter.
-/

namespace HardenedClient

/-- Token-bucket parameters of a single host. -/
structure RateLimitConfig where
  ratePerSecond : ℚ := 10
  burst : ℤ := 20
  deriving DecidableEq

/-- Thresholds of the per-host circuit breaker. -/
structure CircuitBreakerConfig where
  failureThreshold : ℤ := 5
  failureRate : ℚ := 1 / 2
  rollingWindow : ℤ := 20
  openSeconds : ℚ := 30
  halfOpenMaxProbes : ℤ := 1
  deriving DecidableEq

/-- Exponential backoff retry policy. -/
structure RetryPolicy where
  maxRetries : ℤ := 5
  baseDelay : PyFloat := .finite (1 / 4)
  maxDelay : PyFloat := .finite 30
  jitter : Bool := true
  deriving DecidableEq

/-- Sizing of the bounded request queue and the worker pool. -/
structure QueueConfig where
  maxSize : ℕ := 1000
  workers : ℕ := 16
  deriving DecidableEq

/-- The part of the client configuration that steers its control flow. -/
structure ClientConfig where
  rateLimit : RateLimitConfig := {}
  circuitBreaker : CircuitBreakerConfig := {}
  retry : RetryPolicy := {}
  queue : QueueConfig := {}
  deriving DecidableEq

/-- What a client runs in: its configuration, `urlparse`, of which the code only
reads the authority and which raises ValueError for `none`, `str.lower`, and the
interpreter. -/
structure Env where
  config : ClientConfig
  urlparse : PyStr → Option PyStr
  lower : PyStr → PyStr
  python : Interpreter := {}

/-- `host_of`: the lowercased authority of a URL, or the URL itself when the
authority is empty. `none` is the ValueError raised by `urlparse`. -/
def Env.hostOf? (env : Env) (url : PyStr) : Option PyStr :=
  (env.urlparse url).map fun netloc =>
    if env.lower netloc = [] then url else env.lower netloc

end HardenedClient
