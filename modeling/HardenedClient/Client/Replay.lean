import HardenedClient.Client.Step
import HardenedClient.Foundation.Transition

/-!
# Replayed runs

Concrete runs are lists of labels. They use `urlparse` and `str.lower` as they
behave on the ASCII URLs that occur in them, GET requests, and a client with few
workers.
-/

namespace HardenedClient

open Foundation

/-- An ASCII letter or digit. -/
def isAlphanumeric (point : CodePoint) : Bool :=
  decide (48 ≤ point.val ∧ point.val ≤ 57 ∨ 65 ≤ point.val ∧ point.val ≤ 90 ∨
    97 ≤ point.val ∧ point.val ≤ 122)

/-- What follows the scheme of a URL, if it has one. -/
def afterScheme (url : PyStr) : PyStr :=
  match url.span fun point => !spells point ':' with
  | (scheme, _ :: rest) =>
      if !scheme.isEmpty && scheme.all isAlphanumeric then rest else url
  | _ => url

/-- `urlparse(url).netloc`; `none` is the ValueError on an authority with an
unbalanced bracket. -/
def netloc? (url : PyStr) : Option PyStr :=
  match afterScheme url with
  | first :: second :: rest =>
      if spells first '/' && spells second '/' then
        let netloc := rest.takeWhile fun point =>
          !(spells point '/' || spells point '?' || spells point '#')
        if netloc.any (spells · '[') = netloc.any (spells · ']') then some netloc else none
      else some []
  | _ => some []

/-- A client with one worker. -/
def oneWorker : Env where
  config := { queue := { workers := 1 } }
  urlparse := netloc?
  lower := List.map lowerAscii

/-- A client with two workers. -/
def twoWorkers : Env where
  config := { queue := { workers := 2 } }
  urlparse := netloc?
  lower := List.map lowerAscii

/-- A GET request without params or body. -/
def getRequest (url : PyStr) : Request where
  method := "GET"
  url := url

/-- The JSON a GET request is stored as. -/
def getPayload (url : PyStr) : Payload where
  method := toUnits (PyStr.ofString "GET")
  url := toUnits url
  headers := .obj []
  params := .obj []
  body := .null
  priority := 0
  requestId := ""
  createdAt := 0

/-- A response with the given status and no body. -/
def answer (status : ℕ) : HttpEvent := .reply { status := status }

/-- A task goes on a number of times. -/
def proceedLabels (id steps : ℕ) : List Label := List.replicate steps (.step id .proceed)

/-- `start()` as task 0 over an empty table. -/
def startLabels : List Label :=
  .start :: proceedLabels 0 4

/-- `request()` as the task `id`, until it awaits its future. -/
def requestLabels (id : ℕ) (url : PyStr) : List Label :=
  .request (getRequest url) :: proceedLabels id 3

/-- `replay_entry()` as the task `id`, until it awaits its future. -/
def replayLabels (id : ℕ) : List Label :=
  .step id .proceed :: .step id (.resubmit "" 0) :: proceedLabels id 3

/-- A worker takes an item and sends its request. -/
def sendLabels (id : ℕ) : List Label :=
  [.step id .proceed, .step id (.jitter 0), .step id .proceed]

/-- The exchange of a worker ends with an answer, and the worker goes on. -/
def answerLabels (id status steps : ℕ) : List Label :=
  .step id (.http (answer status) 0) :: proceedLabels id steps

/-- A request is answered with 500 and sleeps until its retry while `stop()` is
called; the retry is dropped when it wakes up, and `stop()` is about to return. -/
def abandonedLabels : List Label :=
  startLabels ++ requestLabels 2 "http://example.org/" ++ sendLabels 1 ++ answerLabels 1 500 2 ++
    [.stop, .step 3 .proceed, .step 4 .proceed, .cancelWorker 1] ++ proceedLabels 4 2

/-! ## What a replay shows -/

/-- The pending future a caller awaits. -/
def State.awaited? (state : State) (id : ℕ) : Option ℕ :=
  match state.tasks id with
  | some (.caller _ (.awaiting _ future)) =>
      if (state.dedup.futures future).done then none else some future
  | _ => none

/-- The exception a caller raised. -/
def State.raised? (state : State) (id : ℕ) : Option PyException :=
  match state.tasks id with
  | some (.caller _ (.raised exc)) => some exc
  | _ => none

/-- The process ends. -/
def Label.isCrash : Label → Bool
  | .crash => true
  | _ => false

theorem Label.ne_crash_of_not_isCrash
    {label : Label}
    (passes : (!label.isCrash) = true) :
    label ≠ .crash := by
  rintro rfl
  cases passes

end HardenedClient
