import HardenedClient.Models
import HardenedClient.Retry

/-!
# Executing a request

`_execute` and `_read_response` as functions of what the HTTP exchange does,
and the `except` clauses of `_handle` that turn a raised exception into the
error the retry decision sees.
-/

namespace HardenedClient

/-- What `json.loads` does on the text of a body. -/
inductive JsonParse
  | value (data : PyValue)
  | decodeError
  | raises (exc : PyException)

/-- A response whose body has been read: its status, `dict(resp.headers)`, the
decoded text and what `json.loads` does on it. -/
structure HttpReply where
  status : ℕ
  headers : List (PyStr × PyStr) := []
  text : PyStr := []
  parse : JsonParse := .decodeError

/-- How the HTTP exchange of one pass ends. -/
inductive HttpEvent
  | reply (reply : HttpReply)
  | raises (exc : PyException)

/-- `_read_response`, without the headers. -/
def readResponse (reply : HttpReply) : Except PyException PyValue :=
  if reply.text = [] then .ok .none
  else
    match reply.parse with
    | .value data => .ok data
    | .decodeError => .ok (.str reply.text)
    | .raises exc => .error exc

/-- `_execute`. -/
def execute
    (request : Request)
    (attempt : ℕ)
    (event : HttpEvent) : Except PyException Response :=
  match event with
  | .raises exc => .error exc
  | .reply reply =>
      match readResponse reply with
      | .error exc => .error exc
      | .ok data =>
          if 200 ≤ reply.status ∧ reply.status < 400 then
            .ok {
              statusCode := reply.status
              data := data
              headers := reply.headers
              retries := attempt
              requestId := request.requestId }
          else
            let retryAfter := parseRetryAfter (reply.headers.lookup (PyStr.ofString "Retry-After"))
            let message := PyStr.ofString ("HTTP " ++ toString reply.status)
            if isRetryableStatus reply.status then
              .error (.retryableError message (some reply.status) retryAfter)
            else
              .error (.nonRetryableError message (some reply.status) data)

/-- The `except` clauses of `_handle` around `_execute`: the error handed to
`_handle_retry_or_dlq`, and whether the breaker is told of a failure. `none` is
an exception outside `Exception`, which none of the clauses catches. -/
def caught? (exc : PyException) : Option (PyException × Bool) :=
  if exc.isRetryableError || exc.isNonRetryableError then
    some (exc, !isThrottle exc)
  else if exc.isException then
    if isRetryableException exc then
      some (.retryableError exc.describe none none, true)
    else
      some (.nonRetryableError exc.describe none .none, true)
  else none

/-- Only an exception outside `Exception` escapes from the clauses. -/
theorem caught?_eq_none_iff (exc : PyException) :
    caught? exc = none ↔ exc.isException = false := by
  cases exc <;> simp [caught?, PyException.isRetryableError,
    PyException.isNonRetryableError, PyException.isException, isRetryableException]

/-- The error that ends a request in the dead-letter queue, as its callers see
it. -/
def terminalError (exc : PyException) : PyException :=
  if exc.isNonRetryableError then exc else .deadLetterError exc.message

end HardenedClient
