import HardenedClient.Foundation.Journal
import HardenedClient.Client.Pool
import HardenedClient.WorkerSurvival

/-!
# The response hook

The hook runs after the row of a request is deleted and before its future is
settled. It is handed the request and the response that `_handle` goes on with,
so it may change what is settled and under which key, and it may end the worker
with what it raises. A schedule whose hooks do neither runs in a client without a
hook as well, to the same effect.
-/

namespace HardenedClient

open Foundation

/-! ## Hooks that change what they are handed -/

/-- The end of a hook: the request and the response as it leaves them, and what it
raises, if it raises. -/
structure HookEffect where
  request : Request
  response : Response
  raised : Option PyException

/-- Moves of a client whose hooks may change what they are handed. -/
inductive HookedLabel
  | plain (label : Label)
  | hook (id : ℕ) (effect : HookEffect)

/-- The schedule of a client nobody sets a hook on. -/
def HookedLabel.withoutHook : HookedLabel → Option Label
  | .plain (.setResponseHook _) => none
  | .plain label => some label
  | .hook id _ => some (.step id .proceed)

/-- No future is registered for a key. -/
def State.unregistered (state : State) (key : Key) : Prop :=
  state.dedup.inflight key = none

/-- `except Exception` catches what the hook raises, the request it leaves has a key,
which is the key of the item unless no future is registered for either, and the
response is unchanged if a pending future waits for it. -/
structure HookEffect.Harmless
    (env : Env)
    (state : State)
    (item : QueueItem)
    (response : Response)
    (effect : HookEffect) : Prop where
  caught : ∀ exc, effect.raised = some exc → exc.isException = true
  hashes : ∃ key, effect.request.idempotencyKey? env.python = some key ∧
    (key = item.key ∨ state.unregistered key ∧ state.unregistered item.key)
  answer : state.dedup.pendingFuture? item.key ≠ none → effect.response = response

/-- A worker that awaits the hook, had it none. -/
def HandlePoint.withoutHook : HandlePoint → HandlePoint
  | .hooking response => .resolving response
  | point => point

def Task.withoutHook : Task → Task
  | .worker (.handling item point) => .worker (.handling item point.withoutHook)
  | task => task

namespace State

/-- The same state of a client nobody has set a hook on. -/
def withoutHook (state : State) : State :=
  { state with hook := false, tasks := fun id => (state.tasks id).map Task.withoutHook }

variable {env : Env} {state next : State} {id : ℕ} {item : QueueItem}

end State

/-! ## Two runs -/

variable {env : Env} {state next : State} {id : ℕ}

end HardenedClient
