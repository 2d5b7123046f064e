import HardenedClient.Client.Arrivals
import HardenedClient.Client.Ledger

/-!
# Rows hold requests of their own key

A row is recovered under the key it is stored by, which is the key of the request
its payload decodes to, when the requests that are submitted have string-keyed
JSON parameters and body. A replayed request has them, since it was decoded.
-/

namespace HardenedClient

open Foundation

variable {env : Env} {state next : State} {label : Label}

/-- A submitted request has string-keyed JSON parameters and body. -/
def JsonRequest (label : Label) : Prop :=
  ∀ request, label = .request request → request.isJson = true

/-- Every commit keeps rows consistent, when the requests being persisted are. -/
theorem Commits.consistent
    {tables : Tables}
    {history : List Event}
    (commits : Commits state tables history)
    (consistent : state.tables.Consistent)
    (callers : ∀ id replayed request future,
      state.tasks id = some (.caller replayed (.upserting request future)) →
        request.payload.request.key = request.key) :
    tables.Consistent := by
  intro row present
  cases commits with
  | none | pushed | removed | purged => exact consistent row present
  | deleted => exact consistent row (KeyedTable.mem_erase_rows.mp present).1
  | incremented =>
      obtain ⟨old, oldIn, sameKey, samePayload⟩ := Tables.mem_incrementRetry present
      rw [← sameKey, ← samePayload]
      exact consistent old oldIn
  | upserted current =>
      rcases Tables.mem_upsertInflight present with
        ⟨isKey, isPayload⟩ | ⟨old, oldIn, sameKey, samePayload⟩
      · rw [isKey, isPayload]
        exact callers _ _ _ _ current
      · rw [← sameKey, ← samePayload]
        exact consistent old oldIn

/-- The recovery loop works on rows of the tables. -/
theorem Stepped.starters_own_key
    (stepped : Stepped env state label next)
    (tidy : state.Tidy)
    (consistent : state.tables.Consistent)
    (starters : ∀ id point, state.tasks id = some (.starter point) →
      ∀ row ∈ point.rows, row.payload.request.key = row.idempotencyKey) :
    ∀ id point, next.tasks id = some (.starter point) →
      ∀ row ∈ point.rows, row.payload.request.key = row.idempotencyKey := by
  intro id point current row present
  rcases stepped.starter_cases tidy current with
    ⟨before, _⟩ | ⟨_, fresh⟩ | ⟨_, before, _, started, lists⟩ | ⟨_, rfl⟩
  · exact starters id point before row present
  · rcases fresh with rfl | rfl <;> cases present
  · rcases lists row present with known | stored
    · exact starters id before started row known
    · exact consistent row stored
  · cases present

/-- A request handed to `_submit` has string-keyed JSON parameters and body: the
call checks it, and a replay has decoded them. -/
theorem isJson_of_submitted
    {request : Request}
    (json : JsonRequest label)
    (submits : state.submitted? label = some request) :
    request.isJson = true := by
  unfold State.submitted? at submits
  split at submits
  · split_ifs at submits
    have own := json _ rfl
    rw [← Option.some.inj submits]
    exact Request.isJson_accepted own
  · split at submits
    · split_ifs at submits
      rw [← Option.some.inj submits]
      exact Request.isJson_accepted (isJson_fromStorage _)
    · cases submits
  · cases submits

namespace State

/-- Rows, requests about to be persisted and rows about to be recovered hold
requests of their own key. -/
structure Truthful (state : State) : Prop where
  tidy : state.Tidy
  consistent : state.tables.Consistent
  callers : ∀ id replayed request future,
    state.tasks id = some (.caller replayed (.upserting request future)) →
      request.payload.request.key = request.key
  starters : ∀ id point, state.tasks id = some (.starter point) →
    ∀ row ∈ point.rows, row.payload.request.key = row.idempotencyKey

theorem Truthful.boot
    {tables : Tables}
    (now : ℚ)
    (history : List Event)
    (consistent : tables.Consistent) :
    (boot tables now history).Truthful where
  tidy := tidy_boot tables now history
  consistent := consistent
  callers := fun _ _ _ _ current => by cases current
  starters := fun _ _ current => by cases current

theorem Truthful.callers_step
    (truthful : state.Truthful)
    (json : JsonRequest label)
    (stepped : Stepped env state label next) :
    ∀ id replayed request future,
      next.tasks id = some (.caller replayed (.upserting request future)) →
        request.payload.request.key = request.key := by
  intro id replayed request future current
  have entered : Enters env state label (.upserting request future) →
      request.payload.request.key = request.key := by
    intro enters
    obtain ⟨submitted, submits, packed⟩ := enters.submits request future rfl
    apply request.key_payload_request
    rw [Request.request_of_durable? packed]
    exact isJson_of_submitted json submits
  generalize isPoint : CallerPoint.upserting request future = point at current entered
  cases stepped.awaits truthful.tidy current with
  | stayed before =>
      rw [← isPoint] at before
      exact truthful.callers id replayed request future before
  | requested enters | moved _ enters => exact entered enters
  | replays | upserted | removed | cancelled => cases isPoint

theorem Truthful.step
    (truthful : state.Truthful)
    (json : JsonRequest label)
    (moved : HardenedClient.step env label state = some next) :
    next.Truthful := by
  have stepped := step_stepped moved
  exact {
    tidy := stepped.tidy truthful.tidy
    consistent := stepped.commits.consistent truthful.consistent truthful.callers
    callers := truthful.callers_step json stepped
    starters := stepped.starters_own_key truthful.tidy truthful.consistent truthful.starters }

/-- The recovery loop turns to rows under their own key. -/
theorem Truthful.recoversOwnKey
    {row : InflightRow}
    (truthful : state.Truthful)
    (isRow : state.recovered? label = some row) :
    row.payload.request.key = row.idempotencyKey := by
  unfold State.recovered? at isRow
  split at isRow <;> try cases isRow
  split at isRow <;> cases isRow
  next current => exact truthful.starters _ _ current row List.mem_cons_self

end State

end HardenedClient
