import HardenedClient.PyValue

/-!
# Requests and responses

A `Request` is hashed over its method, URL, params and body. The key is
represented by the text that SHA-256 is applied to, so equality of keys is
equality of digests for a collision-free hash. Hashing and persisting are both
partial; `DurableRequest` packs a request with the results of the two.
-/

namespace HardenedClient

open Foundation

/-- An immutable description of an HTTP request. -/
structure Request where
  method : PyStr
  url : PyStr
  headers : PyDict := []
  params : PyDict := []
  body : PyValue := .none
  priority : ℤ := 0
  requestId : String := ""
  createdAt : ℚ := 0

/-- An idempotency key, as the text whose SHA-256 digest the code uses. -/
abbrev Key := List Char

namespace Request

/-- The request that `request()` submits: with its method in upper case. -/
def accepted (request : Request) : Request :=
  { request with method := request.method.upper }

/-- The dictionary that `idempotency_key` hashes. -/
def identity (request : Request) : PyValue :=
  .dict [
    (.str "method", .str request.method.upper),
    (.str "url", .str request.url),
    (.str "params", .dict request.params),
    (.str "body", request.body)]

/-- The text that is hashed under an order of keys, or a TypeError. -/
def hashText? (order : KeyOrder) (request : Request) : Option Key :=
  canonicalText? order request.identity

/-- `idempotency_key`; `none` is the error of the canonical dump. -/
def idempotencyKey? (python : Interpreter) (request : Request) : Option Key :=
  stableDump? python request.identity

end Request

/-- The JSON text a request is persisted as, by its fields. -/
structure Payload where
  method : JsonText
  url : JsonText
  headers : Json
  params : Json
  body : Json
  priority : ℤ
  requestId : String
  createdAt : ℚ

/-- The entries of a decoded dictionary, as `value or {}` reads them. -/
def PyValue.entriesOr : PyValue → PyDict
  | .dict entries => entries
  | _ => []

namespace Request

/-- The document of what `to_storage` returns; `none` is the TypeError on a value
json cannot encode. -/
def payload? (request : Request) : Option Payload := do
  let headers ← encode? none (.dict request.headers)
  let params ← encode? none (.dict request.params)
  let body ← encode? none request.body
  return {
    method := toUnits request.method
    url := toUnits request.url
    headers := headers
    params := params
    body := body
    priority := request.priority
    requestId := request.requestId
    createdAt := request.createdAt }

/-- What `to_storage` returns, without the fields json always spells. -/
def stored (request : Request) : PyValue :=
  .dict [
    (.str "headers", .dict request.headers),
    (.str "params", .dict request.params),
    (.str "body", request.body),
    (.str "priority", .int request.priority)]

/-- `json.dumps(request.to_storage())`; `none` is the error it raises. -/
def toStorage? (python : Interpreter) (request : Request) : Option Payload :=
  if request.stored.fits python python.recursionLimit then request.payload? else none

/-- `Request.from_storage(json.loads(payload))`. -/
def fromStorage (payload : Payload) : Request where
  method := ofUnits payload.method
  url := ofUnits payload.url
  headers := (loads payload.headers).entriesOr
  params := (loads payload.params).entriesOr
  body := loads payload.body
  priority := payload.priority
  requestId := payload.requestId
  createdAt := payload.createdAt

/-- The parameters and the body are string-keyed JSON values, and the method is a
string without surrogate pairs. -/
def isJson (request : Request) : Bool :=
  decide (Unpaired request.method) && (PyValue.dict request.params).isJson && request.body.isJson

end Request

/-- A request that can be hashed and persisted, with its idempotency key and
the payload it is stored as. Parameters and body are taken as values: the code
computes the key anew wherever it needs it, from the caller's own objects. -/
structure DurableRequest where
  request : Request
  key : Key
  payload : Payload
  /-- The key is the request's own, on the interpreter it was made by. -/
  hashes : ∃ order, request.hashText? order = some key
  /-- The payload is the request's own. -/
  stores : request.payload? = some payload

namespace Request

/-- A key is the text that is hashed. -/
theorem hashText?_of_idempotencyKey?
    {python : Interpreter}
    {request : Request}
    {key : Key}
    (hashes : request.idempotencyKey? python = some key) :
    request.hashText? python.order = some key := by
  unfold idempotencyKey? stableDump? at hashes
  split_ifs at hashes
  exact hashes

/-- A stored payload is the request's document. -/
theorem payload?_of_toStorage?
    {python : Interpreter}
    {request : Request}
    {payload : Payload}
    (stores : request.toStorage? python = some payload) :
    request.payload? = some payload := by
  unfold toStorage? at stores
  split_ifs at stores
  exact stores

/-- A request as a durable one, when it can be hashed and persisted. -/
def durable? (python : Interpreter) (request : Request) : Option DurableRequest :=
  match hashes : request.idempotencyKey? python, stores : request.toStorage? python with
  | some key, some payload =>
      some ⟨request, key, payload, ⟨python.order, hashText?_of_idempotencyKey? hashes⟩,
        payload?_of_toStorage? stores⟩
  | _, _ => none

/-- A durable request is the request it was made from. -/
theorem request_of_durable?
    {python : Interpreter}
    {request : Request}
    {durable : DurableRequest}
    (packed : request.durable? python = some durable) :
    durable.request = request := by
  unfold durable? at packed
  split at packed
  · rw [← Option.some.inj packed]
  · cases packed

/-- A durable request has the key its request hashes to. -/
theorem key_of_durable?
    {python : Interpreter}
    {request : Request}
    {durable : DurableRequest}
    {key : Key}
    (hashes : request.idempotencyKey? python = some key)
    (packed : request.durable? python = some durable) :
    durable.key = key := by
  unfold durable? at packed
  split at packed
  · next own _ ownHashes _ =>
    rw [← Option.some.inj packed]
    exact Option.some.inj (ownHashes.symm.trans hashes)
  · cases packed

/-- A durable request is stored under the key of its request. -/
theorem idempotencyKey?_of_durable?
    {python : Interpreter}
    {request : Request}
    {durable : DurableRequest}
    (packed : request.durable? python = some durable) :
    request.idempotencyKey? python = some durable.key := by
  unfold durable? at packed
  split at packed
  · next hashes _ =>
    rw [← Option.some.inj packed]
    exact hashes
  · cases packed

/-- Capitals keep a request one that can be restored. -/
theorem isJson_accepted
    {request : Request}
    (json : request.isJson = true) :
    request.accepted.isJson = true := by
  simp only [isJson, Bool.and_eq_true] at json ⊢
  obtain ⟨⟨method, params⟩, body⟩ := json
  exact ⟨⟨decide_eq_true (PyStr.unpaired_upper (of_decide_eq_true method)), params⟩, body⟩

end Request

/-- Result of an executed request. -/
structure Response where
  statusCode : ℕ
  data : PyValue
  headers : List (PyStr × PyStr)
  retries : ℕ
  requestId : String

end HardenedClient
