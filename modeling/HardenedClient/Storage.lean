import HardenedClient.Foundation.KeyedTable
import HardenedClient.RoundTrip

/-!
# Durable storage

The two SQLite tables and the committed effect of each `Storage` method. The
primary key of `inflight_requests` is the constraint of its table type; the
ids of `dead_letter_queue` come from an AUTOINCREMENT counter. A payload is
the JSON text a request was persisted as.
-/

namespace HardenedClient

open Foundation

/-- The two statuses of an inflight row. -/
inductive InflightStatus
  | pending
  | inProgress
  deriving DecidableEq

/-- A row of `inflight_requests`. -/
structure InflightRow where
  idempotencyKey : Key
  requestId : String
  payload : Payload
  status : InflightStatus
  retryCount : ℕ
  lastError : Option PyStr
  createdAt : ℚ
  updatedAt : ℚ

/-- A row of `dead_letter_queue`. -/
structure DeadLetterRow where
  id : ℕ
  idempotencyKey : Key
  requestId : String
  payload : Payload
  error : PyStr
  retryCount : ℕ
  firstSeen : ℚ
  lastAttempt : ℚ

/-- `inflight_requests`. -/
abbrev InflightTable := KeyedTable InflightRow Key InflightRow.idempotencyKey

/-- What survives a crash: the committed tables and the AUTOINCREMENT counter. -/
structure Tables where
  inflight : InflightTable := KeyedTable.empty
  deadLetters : List DeadLetterRow := []
  nextDeadLetterId : ℕ := 1

namespace Tables

/-- `upsert_inflight(request)`: insert a pending row, or reset the row that
already has the key; the payload of an existing row is left alone. -/
def upsertInflight
    (tables : Tables)
    (request : DurableRequest)
    (now : ℚ) : Tables :=
  { tables with
    inflight := tables.inflight.upsert
      { idempotencyKey := request.key
        requestId := request.request.requestId
        payload := request.payload
        status := .pending
        retryCount := 0
        lastError := none
        createdAt := now
        updatedAt := now }
      (fun row => { row with
        status := .pending
        retryCount := 0
        lastError := none
        updatedAt := now })
      (fun _ => rfl) }

/-- `mark_inflight_status`. -/
def markInflightStatus
    (tables : Tables)
    (key : Key)
    (status : InflightStatus)
    (lastError : Option PyStr)
    (now : ℚ) : Tables :=
  { tables with
    inflight := tables.inflight.modify key
      (fun row => { row with
        status := status
        lastError := lastError.or row.lastError
        updatedAt := now })
      (fun _ => rfl) }

/-- The update of `increment_retry`. -/
def incrementRetry
    (tables : Tables)
    (key : Key)
    (lastError : PyStr)
    (now : ℚ) : Tables :=
  { tables with
    inflight := tables.inflight.modify key
      (fun row => { row with
        retryCount := row.retryCount + 1
        status := .pending
        lastError := some lastError
        updatedAt := now })
      (fun _ => rfl) }

/-- `delete_inflight`. -/
def deleteInflight (tables : Tables) (key : Key) : Tables :=
  { tables with inflight := tables.inflight.erase key }

/-- `push_dead_letter`; the new row's id is `nextDeadLetterId`. -/
def pushDeadLetter
    (tables : Tables)
    (request : DurableRequest)
    (error : PyStr)
    (retryCount : ℕ)
    (now : ℚ) : Tables :=
  { tables with
    deadLetters := tables.deadLetters ++ [{
      id := tables.nextDeadLetterId
      idempotencyKey := request.key
      requestId := request.request.requestId
      payload := request.payload
      error := error
      retryCount := retryCount
      firstSeen := now
      lastAttempt := now }]
    nextDeadLetterId := tables.nextDeadLetterId + 1 }

/-- `remove_dead_letter`. -/
def removeDeadLetter (tables : Tables) (id : ℕ) : Tables :=
  { tables with deadLetters := tables.deadLetters.filter fun row => row.id ≠ id }

/-- `purge_dead_letter`. -/
def purgeDeadLetter (tables : Tables) : Tables :=
  { tables with deadLetters := [] }

/-- Insert a row into rows ordered by creation time, after its equals. -/
def insertByCreation (row : InflightRow) : List InflightRow → List InflightRow
  | [] => [row]
  | head :: rest =>
      if row.createdAt < head.createdAt then row :: head :: rest
      else head :: insertByCreation row rest

/-- `list_inflight`: all rows, oldest first. -/
def listInflight (tables : Tables) : List InflightRow :=
  tables.inflight.rows.foldl (fun sorted row => insertByCreation row sorted) []

/-- Every row holds a request of its own key. -/
def Consistent (tables : Tables) : Prop :=
  ∀ row ∈ tables.inflight.rows, row.payload.request.key = row.idempotencyKey

theorem insertByCreation_perm (row : InflightRow) (rows : List InflightRow) :
    (insertByCreation row rows).Perm (row :: rows) := by
  induction rows with
  | nil => exact .refl _
  | cons head rest inductionHypothesis =>
      simp only [insertByCreation]
      split
      · exact .refl _
      · exact (inductionHypothesis.cons head).trans (.swap row head rest)

/-- The listing holds exactly the rows of the table, each once. -/
theorem listInflight_perm (tables : Tables) :
    tables.listInflight.Perm tables.inflight.rows := by
  have general : ∀ rows sorted : List InflightRow,
      (rows.foldl (fun sorted row => insertByCreation row sorted) sorted).Perm
        (rows.reverse ++ sorted) := by
    intro rows
    induction rows with
    | nil => intro sorted; exact .refl _
    | cons head rest inductionHypothesis =>
        intro sorted
        refine (inductionHypothesis _).trans ?_
        rw [List.reverse_cons, List.append_assoc]
        exact (insertByCreation_perm head sorted).append_left _
  refine (general tables.inflight.rows []).trans ?_
  rw [List.append_nil]
  exact List.reverse_perm _

@[simp] theorem has_upsertInflight
    (tables : Tables)
    (request : DurableRequest)
    (now : ℚ)
    (key : Key) :
    (tables.upsertInflight request now).inflight.Has key ↔
      key = request.key ∨ tables.inflight.Has key := by
  simp [upsertInflight]

@[simp] theorem has_incrementRetry
    (tables : Tables)
    (wanted key : Key)
    (lastError : PyStr)
    (now : ℚ) :
    (tables.incrementRetry wanted lastError now).inflight.Has key ↔
      tables.inflight.Has key := by
  simp [incrementRetry]

@[simp] theorem has_deleteInflight
    (tables : Tables)
    (wanted key : Key) :
    (tables.deleteInflight wanted).inflight.Has key ↔
      tables.inflight.Has key ∧ key ≠ wanted := by
  simp [deleteInflight]

/-- A row after an upsert is the new one, or has the key and the payload of an
old one. -/
theorem mem_upsertInflight
    {tables : Tables}
    {request : DurableRequest}
    {now : ℚ}
    {row : InflightRow}
    (present : row ∈ (tables.upsertInflight request now).inflight.rows) :
    (row.idempotencyKey = request.key ∧ row.payload = request.payload) ∨
      ∃ old ∈ tables.inflight.rows,
        old.idempotencyKey = row.idempotencyKey ∧ old.payload = row.payload := by
  unfold upsertInflight at present
  rcases KeyedTable.mem_upsert_rows present with old | ⟨rfl, _⟩ | ⟨old, oldIn, _, rfl⟩
  · exact Or.inr ⟨row, old, rfl, rfl⟩
  · exact Or.inl ⟨rfl, rfl⟩
  · exact Or.inr ⟨old, oldIn, rfl, rfl⟩

/-- A row after a retry was counted has the key and the payload of an old one. -/
theorem mem_incrementRetry
    {tables : Tables}
    {wanted : Key}
    {lastError : PyStr}
    {now : ℚ}
    {row : InflightRow}
    (present : row ∈ (tables.incrementRetry wanted lastError now).inflight.rows) :
    ∃ old ∈ tables.inflight.rows,
      old.idempotencyKey = row.idempotencyKey ∧ old.payload = row.payload := by
  rw [incrementRetry, KeyedTable.mem_modify_rows] at present
  rcases present with ⟨old, _⟩ | ⟨old, oldIn, _, rfl⟩
  · exact ⟨row, old, rfl, rfl⟩
  · exact ⟨old, oldIn, rfl, rfl⟩

/-- A persisted request has a row that counts no attempt, with its own payload
unless there was a row before. -/
theorem exists_mem_upsertInflight
    (tables : Tables)
    (request : DurableRequest)
    (now : ℚ) :
    ∃ row ∈ (tables.upsertInflight request now).inflight.rows,
      row.idempotencyKey = request.key ∧ row.retryCount = 0 ∧
        (¬ tables.inflight.Has request.key → row.payload = request.payload) := by
  unfold upsertInflight
  obtain ⟨row, present, sameKey, rfl | ⟨taken, old, rfl⟩⟩ :=
    tables.inflight.exists_mem_upsert_rows _ _ _
  · exact ⟨_, present, sameKey, rfl, fun _ => rfl⟩
  · exact ⟨_, present, sameKey, rfl, fun free => absurd taken free⟩

theorem mem_upsertInflight_of_ne
    {tables : Tables}
    {request : DurableRequest}
    {row : InflightRow}
    (now : ℚ)
    (present : row ∈ tables.inflight.rows)
    (different : row.idempotencyKey ≠ request.key) :
    row ∈ (tables.upsertInflight request now).inflight.rows :=
  KeyedTable.mem_upsert_rows_of_ne present different

theorem mem_incrementRetry_of_ne
    {tables : Tables}
    {wanted : Key}
    {row : InflightRow}
    (lastError : PyStr)
    (now : ℚ)
    (present : row ∈ tables.inflight.rows)
    (different : row.idempotencyKey ≠ wanted) :
    row ∈ (tables.incrementRetry wanted lastError now).inflight.rows := by
  rw [incrementRetry, KeyedTable.mem_modify_rows]
  exact Or.inl ⟨present, different⟩

/-- A row that is counted up keeps its key and its payload. -/
theorem exists_mem_incrementRetry
    {tables : Tables}
    {row : InflightRow}
    (lastError : PyStr)
    (now : ℚ)
    (present : row ∈ tables.inflight.rows) :
    ∃ after ∈ (tables.incrementRetry row.idempotencyKey lastError now).inflight.rows,
      after.idempotencyKey = row.idempotencyKey ∧ after.payload = row.payload ∧
        after.retryCount = row.retryCount + 1 := by
  refine ⟨{ row with
    retryCount := row.retryCount + 1
    status := .pending
    lastError := some lastError
    updatedAt := now }, ?_, rfl, rfl, rfl⟩
  rw [incrementRetry, KeyedTable.mem_modify_rows]
  exact Or.inr ⟨row, present, rfl, rfl⟩

@[simp] theorem pushDeadLetter_inflight
    (tables : Tables)
    (request : DurableRequest)
    (error : PyStr)
    (retryCount : ℕ)
    (now : ℚ) :
    (tables.pushDeadLetter request error retryCount now).inflight =
      tables.inflight := rfl

@[simp] theorem removeDeadLetter_inflight (tables : Tables) (id : ℕ) :
    (tables.removeDeadLetter id).inflight = tables.inflight := rfl

end Tables

end HardenedClient
