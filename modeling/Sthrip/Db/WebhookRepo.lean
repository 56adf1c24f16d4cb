import Sthrip.Db.Models

set_option autoImplicit false

/-! # Webhook events

The rows of `webhook_events` and `create_event` of `sthrip/db/webhook_repo.py`. A row is the request to
tell an agent that something has happened; a worker sends it later. The random identifier in the body of an
event is left out.
-/

namespace Sthrip

inductive WebhookStatus where
  | PENDING | DELIVERED | FAILED | RETRYING
  deriving DecidableEq, Repr

/-- `P` is what the body of an event tells. -/
structure WebhookEvent (P : Type) where
  agent_id : Id
  event_type : String
  timestamp : Time
  payload : P
  status : WebhookStatus := .PENDING
  attempt_count : ℕ := 0
  max_attempts : ℕ := 5
  last_response_code : Option ℕ := none
  last_error : Option String := none
  next_attempt_at : Option Time := none
  delivered_at : Option Time := none

/-- The row of `create_event`, with the body of `_build_event_payload`. -/
def newEvent {P : Type} (timestamp now : Time) (agent_id : Id) (event_type : String) (payload : P) :
    WebhookEvent P :=
  { agent_id, event_type, timestamp, payload, next_attempt_at := some now }

end Sthrip
