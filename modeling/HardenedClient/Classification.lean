import HardenedClient.Execute

/-!
# Classification of a response

A response is classified by its status once its body has been read. The body is read
first, and what `json.loads` raises beside JSONDecodeError is caught as an error of the
exchange: the status is never looked at, and the request fails for good.
-/

namespace HardenedClient

/-- What a pass of `_handle` makes of an exchange. -/
inductive OutcomeClass
  | success
  | retryable (retryAfter : Option PyFloat)
  | permanent
  deriving DecidableEq

/-- The class the `except` clauses of `_handle` put the result of `_execute` in; `none`
is an exception that escapes. -/
def outcomeClass : Except PyException Response → Option OutcomeClass
  | .ok _ => some .success
  | .error exc => (caught? exc).map fun caught =>
      if caught.1.isRetryableError then .retryable caught.1.retryAfter? else .permanent

/-- The class given by the status and the Retry-After header. -/
def statusClass (status : ℕ) (headers : List (PyStr × PyStr)) : OutcomeClass :=
  if 200 ≤ status ∧ status < 400 then .success
  else if isRetryableStatus status then
    .retryable (parseRetryAfter (headers.lookup (PyStr.ofString "Retry-After")))
  else .permanent

/-- A response whose body is read is classified by its status. -/
theorem outcomeClass_of_readResponse
    {reply : HttpReply}
    {data : PyValue}
    (request : Request)
    (attempt : ℕ)
    (read : readResponse reply = .ok data) :
    outcomeClass (execute request attempt (.reply reply)) =
      some (statusClass reply.status reply.headers) := by
  simp only [execute, read, statusClass]
  by_cases success : 200 ≤ reply.status ∧ reply.status < 400
  · rw [if_pos success, if_pos success]
    rfl
  · rw [if_neg success, if_neg success]
    cases isRetryableStatus reply.status <;> rfl

/-- The standard library's part in reading a body: decoding it as UTF-8 with
replacements, and `json.loads`. -/
structure BodyReader where
  decode : List UInt8 → PyStr
  loads : PyStr → JsonParse

namespace BodyReader

/-- Beside JSONDecodeError, `json.loads` raises the ValueError of its digit limit and
RecursionError. -/
def Documented (reader : BodyReader) : Prop :=
  ∀ text exc, reader.loads text = .raises exc →
    ∃ message, exc = .exception "ValueError" message ∨ exc = .exception "RecursionError" message

/-- The text of a body. -/
def text (reader : BodyReader) (body : List UInt8) : PyStr :=
  if body = [] then [] else reader.decode body

/-- A response with a body that has been read to its end. -/
def reply
    (reader : BodyReader)
    (status : ℕ)
    (headers : List (PyStr × PyStr))
    (body : List UInt8) : HttpReply where
  status := status
  headers := headers
  text := reader.text body
  parse := reader.loads (reader.text body)

/-- The parsed body, or its raw text when it cannot be used as JSON. -/
def data (reader : BodyReader) (body : List UInt8) : PyValue :=
  if reader.text body = [] then .none
  else
    match reader.loads (reader.text body) with
    | .value data => data
    | _ => .str (reader.text body)

/-- `json.loads` runs into one of its limits on the body. -/
def Limited (reader : BodyReader) (body : List UInt8) : Prop :=
  reader.text body ≠ [] ∧ ∃ exc, reader.loads (reader.text body) = .raises exc

variable {reader : BodyReader} {status : ℕ} {headers : List (PyStr × PyStr)}
  {body : List UInt8}

/-- A body is read as its data, unless it runs into a limit. -/
theorem readResponse_reply_iff :
    readResponse (reader.reply status headers body) = .ok (reader.data body) ↔
      ¬ reader.Limited body := by
  unfold readResponse Limited data
  by_cases empty : reader.text body = []
  · simp [reply, empty]
  · cases parsed : reader.loads (reader.text body) <;> simp [reply, empty, parsed]

/-- A body that runs into a limit makes the pass a permanent failure. -/
theorem outcomeClass_of_limited
    (documented : reader.Documented)
    (request : Request)
    (attempt : ℕ)
    (limited : reader.Limited body) :
    outcomeClass (execute request attempt (.reply (reader.reply status headers body))) =
      some .permanent := by
  obtain ⟨notEmpty, exc, raised⟩ := limited
  have failed : execute request attempt (.reply (reader.reply status headers body)) =
      .error exc := by
    simp [execute, readResponse, reply, notEmpty, raised]
  obtain ⟨message, rfl | rfl⟩ := documented _ exc raised <;> rw [failed] <;> rfl

/-- A body that is read is classified by the status. -/
theorem outcomeClass_of_read
    (request : Request)
    (attempt : ℕ)
    (read : ¬ reader.Limited body) :
    outcomeClass (execute request attempt (.reply (reader.reply status headers body))) =
      some (statusClass status headers) :=
  outcomeClass_of_readResponse request attempt (readResponse_reply_iff.mpr read)

end BodyReader

/-- The body is read as parsed data or raw text, and the response is put in the class of
its status. -/
def ClassifiedByStatus
    (reader : BodyReader)
    (request : Request)
    (attempt status : ℕ)
    (headers : List (PyStr × PyStr))
    (body : List UInt8) : Prop :=
  readResponse (reader.reply status headers body) = .ok (reader.data body) ∧
    outcomeClass (execute request attempt (.reply (reader.reply status headers body))) =
      some (statusClass status headers)

theorem BodyReader.classifiedByStatus_iff
    (reader : BodyReader)
    (request : Request)
    (attempt status : ℕ)
    (headers : List (PyStr × PyStr))
    (body : List UInt8) :
    ClassifiedByStatus reader request attempt status headers body ↔ ¬ reader.Limited body := by
  constructor
  · rintro ⟨read, _⟩
    exact readResponse_reply_iff.mp read
  · intro read
    exact ⟨readResponse_reply_iff.mpr read, outcomeClass_of_read request attempt read⟩

/-- For every status, header set and two bodies: both are read and the response is in the
class of its status for both, exactly when `json.loads` runs into no limit on either;
and the class alone is that of the status exactly then or when the status is a permanent
failure itself. -/
theorem classified_by_status_iff
    (reader : BodyReader)
    (documented : reader.Documented)
    (request : Request)
    (attempt status : ℕ)
    (headers : List (PyStr × PyStr))
    (first second : List UInt8) :
    ((ClassifiedByStatus reader request attempt status headers first ∧
        ClassifiedByStatus reader request attempt status headers second) ↔
      ¬ reader.Limited first ∧ ¬ reader.Limited second) ∧
    ((∀ body ∈ [first, second],
        outcomeClass (execute request attempt (.reply (reader.reply status headers body))) =
          some (statusClass status headers)) ↔
      statusClass status headers = .permanent ∨
        ¬ reader.Limited first ∧ ¬ reader.Limited second) := by
  have byClass : ∀ body,
      outcomeClass (execute request attempt (.reply (reader.reply status headers body))) =
          some (statusClass status headers) ↔
        statusClass status headers = .permanent ∨ ¬ reader.Limited body := by
    intro body
    by_cases limited : reader.Limited body
    · rw [BodyReader.outcomeClass_of_limited documented request attempt limited]
      simp [limited, eq_comm]
    · exact iff_of_true (BodyReader.outcomeClass_of_read request attempt limited)
        (Or.inr limited)
  constructor
  · rw [reader.classifiedByStatus_iff, reader.classifiedByStatus_iff]
  · simp only [List.forall_mem_cons, List.not_mem_nil, false_implies, implies_true, and_true,
      byClass, ← or_and_left]

/-! ## A literal beyond the digit limit -/

/-- The ValueError of an integer literal that is too long. -/
def digitLimit : PyException :=
  .exception "ValueError" "Exceeds the limit (4300 digits) for integer string conversion"

/-- The reader on bodies in ASCII that are an integer literal, or not JSON at all. -/
def literalReader : BodyReader where
  decode body := body.map fun byte => Fin.castLE (by decide) byte.toFin
  loads text :=
    if text.all (fun point => decide (48 ≤ point.val ∧ point.val ≤ 57)) &&
        text.head?.all (!spells · '0') then
      if 4300 < text.length then .raises digitLimit
      else .value (.int (text.foldl (fun value point => 10 * value + (point.val - 48)) 0))
    else .decodeError

theorem literalReader_documented : literalReader.Documented := by
  intro text exc raised
  simp only [literalReader] at raised
  split_ifs at raised
  cases raised
  exact ⟨_, Or.inl rfl⟩

/-- A body of ones. -/
def ones (count : ℕ) : List UInt8 := List.replicate count 49

theorem text_ones (count : ℕ) :
    literalReader.text (ones count) = List.replicate count ⟨49, by omega⟩ := by
  cases count with
  | zero => rfl
  | succ count =>
      rw [BodyReader.text, if_neg (by simp [ones, List.replicate_succ])]
      simp only [literalReader, ones, List.map_replicate]
      rfl

/-- An integer literal of more than 4300 digits runs into the limit. -/
theorem limited_ones
    {count : ℕ}
    (long : 4300 < count) :
    literalReader.Limited (ones count) := by
  have length : (literalReader.text (ones count)).length = count := by
    rw [text_ones, List.length_replicate]
  have digits : ((literalReader.text (ones count)).all (fun point =>
        decide (48 ≤ point.val ∧ point.val ≤ 57)) &&
      (literalReader.text (ones count)).head?.all (!spells · '0')) = true := by
    rw [text_ones]
    cases count with
    | zero => rfl
    | succ count => simp [List.replicate_succ, spells]
  refine ⟨fun empty => ?_, digitLimit, ?_⟩
  · rw [empty, List.length_nil] at length
    omega
  · change (if _ then _ else _) = _
    rw [if_pos digits, if_pos (by omega)]

/-- A GET request without params or body. -/
def plainGet : Request where
  method := "GET"
  url := "http://example.org/"

/-- A 200 with a body of 4301 digits is a permanent failure, and with an empty body a
success. -/
theorem classified_by_body :
    outcomeClass (execute plainGet 0 (.reply (literalReader.reply 200 [] (ones 4301)))) =
        some .permanent ∧
      outcomeClass (execute plainGet 0 (.reply (literalReader.reply 200 [] []))) =
        some .success ∧
      statusClass 200 [] = .success :=
  ⟨BodyReader.outcomeClass_of_limited literalReader_documented plainGet 0
    (limited_ones (by omega)),
    rfl, rfl⟩

/-- A body that is no JSON at all, and an empty one, are classified by their status. -/
theorem classified_by_status_text :
    ClassifiedByStatus literalReader plainGet 0 503 [("Retry-After", "7")] [60, 62] ∧
      ClassifiedByStatus literalReader plainGet 0 503 [("Retry-After", "7")] [] := by
  refine (classified_by_status_iff literalReader literalReader_documented plainGet 0 503
    [("Retry-After", "7")] [60, 62] []).1.mpr ⟨?_, ?_⟩
  · rintro ⟨_, exc, raised⟩
    have parsed : literalReader.loads (literalReader.text [60, 62]) = .decodeError := by rfl
    rw [parsed] at raised
    cases raised
  · rintro ⟨notEmpty, _⟩
    exact notEmpty rfl

end HardenedClient
