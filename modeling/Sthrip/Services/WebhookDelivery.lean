import Mathlib.Logic.Function.Basic
import Sthrip.Db.ChannelRepo
import Sthrip.Db.WebhookRepo
import Sthrip.Python.Texts

set_option autoImplicit false

/-! # Delivery of webhooks

`process_event` of `sthrip/services/webhook_service.py`, with what it calls of `sthrip/db/webhook_repo.py`
and `sthrip/db/webhook_endpoint_repo.py`. No session is open while the requests are sent, so a call is two
steps: it reads the event and the endpoints, and it writes what has come of the requests. Other sessions may
change the endpoints and the agents at any time. There is one worker: it makes calls for several events at
once, but waits for a call before it makes another for the same event.

The payload of an event is opaque. `last_response_body`, which repeats the response code, is left out.
-/

namespace Sthrip.Fanout

variable {P : Type}

/-! ## The tables -/

structure WebhookEndpoint where
  id : Id
  agent_id : Id
  url_encrypted : String
  secret_encrypted : String
  event_filters : Option (List String) := none
  is_active : Bool := true
  failure_count : ℕ := 0
  disabled_at : Option Time := none
  deriving DecidableEq

/-- Waiting to be sent. -/
def isWaiting (status : WebhookStatus) : Bool := status = .PENDING ∨ status = .RETRYING

/-- The filter of `get_pending_events`. -/
def isPending (now : Time) (event : WebhookEvent P) : Bool :=
  isWaiting event.status ∧ event.next_attempt_at.any (fun t => t ≤ now) ∧
    event.attempt_count < event.max_attempts

def markDelivered (now : Time) (response_code : ℕ) (event : WebhookEvent P) : WebhookEvent P :=
  { event with
    status := .DELIVERED
    last_response_code := some response_code
    delivered_at := some now }

def delays : List ℤ := [60, 300, 900, 1800, 3600]

def scheduleRetry (now : Time) (error : String) (event : WebhookEvent P) : WebhookEvent P :=
  let attempt := event.attempt_count + 1
  let delay := delays.getD (min (attempt - 1) (delays.length - 1)) 0
  { event with
    status := .RETRYING
    attempt_count := attempt
    last_error := if error = "" then none else some (String.ofList (error.toList.take 1000))
    next_attempt_at := some (now + seconds delay) }

/-- `get_url`. `decrypt` is nothing when `decrypt_value` raises. -/
def getUrl (decrypt : String → Option String) (endpoint : WebhookEndpoint) : Option String :=
  if endpoint.url_encrypted = "" then none else decrypt endpoint.url_encrypted

/-! ## The state -/

structure WebhookResult where
  success : Bool
  response_code : Option ℕ := none
  response_body : Option String := none
  error : Option String := none

structure Target where
  endpoint_id : Id
  url : String
  secret : String
  deriving DecidableEq

/-- A call whose requests are under way. Nothing reads `matching`. -/
structure Delivery (P : Type) where
  event_id : Id
  event_type : String
  event_payload : P
  delivery_targets : List Target
  matching : List Id := []

/-- What is noted of a run. Nothing reads it. -/
inductive Entry
  /-- The event is sent to these endpoints; `waiting` tells whether it was to be sent at all. -/
  | sent (event_id : Id) (waiting : Bool) (endpoint_ids : List Id)
  /-- These endpoints have acknowledged the event. -/
  | acknowledged (event_id : Id) (endpoint_ids : List Id)
  /-- The status has become `DELIVERED` in a call for which these endpoints were active, readable and
  matching. -/
  | delivered (event_id : Id) (matching : List Id)
  deriving DecidableEq

structure World (P : Type) where
  agents : List Id
  endpoints : List WebhookEndpoint
  events : Id → Option (WebhookEvent P)
  inFlight : List (Delivery P) := []
  /-- The newest entry first. -/
  log : List Entry := []

namespace World

def status (w : World P) (event_id : Id) : Option WebhookStatus := (w.events event_id).map (·.status)

def waiting (w : World P) (event_id : Id) : Bool := (w.status event_id).any isWaiting

/-- An `UPDATE` of the row of an event. -/
def updateEvent (w : World P) (event_id : Id) (set : WebhookEvent P → WebhookEvent P) : World P :=
  { w with events := Function.update w.events event_id ((w.events event_id).map set) }

end World

/-! ## `process_event` -/

/-- `_matches_event_filter` -/
def matchesEventFilter (event_type : String) (event_filters : Option (List String)) : Bool :=
  let filters := event_filters.getD []
  if filters = [] then true else filters.any fun pattern => Python.fnmatch event_type pattern

/-- `_MAX_ENDPOINT_FAILURES` -/
def maxEndpointFailures : ℕ := 10

/-- A turn of the loop over the endpoints. -/
def consider (decrypt : String → Option String) (event_type : String) (now : Time) (ep : WebhookEndpoint) :
    WebhookEndpoint × Option Target :=
  if ep.is_active = false then (ep, none)
  else if ep.failure_count ≥ maxEndpointFailures then (ep, none)
  else if matchesEventFilter event_type ep.event_filters = false then (ep, none)
  else
    let ep_url := (getUrl decrypt ep).getD ""
    if ep_url = "" then ({ ep with is_active := false, disabled_at := some now }, none)
    else
      match decrypt ep.secret_encrypted with
      | none => (ep, none)
      | some ep_secret => (ep, some { endpoint_id := ep.id, url := ep_url, secret := ep_secret })

/-- What a call does with the endpoint that has answered. -/
def updateCounter (now : Time) (success : Bool) (ep : WebhookEndpoint) : WebhookEndpoint :=
  if success then { ep with failure_count := 0 }
  else
    let failure_count := ep.failure_count + 1
    if failure_count ≥ maxEndpointFailures then
      { ep with failure_count, is_active := false, disabled_at := some now }
    else { ep with failure_count }

namespace World

variable (decrypt : String → Option String)

/-- Phase 1: the result of a call that ends with it, or the requests to be sent. -/
def phase1 (w : World P) (event_id : Id) (now : Time) : World P × (WebhookResult ⊕ Delivery P) :=
  match w.events event_id with
  | none => (w, .inl { success := false, error := some "Event not found" })
  | some event =>
      if event.agent_id ∉ w.agents then
        (w.updateEvent event_id (markDelivered now 0), .inl { success := true })
      else
        let considered := w.endpoints.map fun ep =>
          if ep.agent_id = event.agent_id then consider decrypt event.event_type now ep else (ep, none)
        let w := { w with endpoints := considered.map Prod.fst }
        let delivery_targets := considered.filterMap Prod.snd
        if delivery_targets = [] then
          (w.updateEvent event_id (markDelivered now 0), .inl { success := true })
        else
          (w, .inr
            { event_id, event_type := event.event_type, event_payload := event.payload, delivery_targets })

/-- Phase 3. The outcome of a request is nothing when `_deliver_one` has raised. -/
def phase3 (w : World P) (d : Delivery P) (outcomes : Id → Option WebhookResult) (now : Time) :
    World P × WebhookResult :=
  let delivery_outcomes := d.delivery_targets.map fun target =>
    (target.endpoint_id, outcomes target.endpoint_id)
  let any_success := delivery_outcomes.any fun (_, result) => result.any (·.success)
  match w.events d.event_id with
  | none => (w, { success := any_success })
  | some current_event =>
      if isWaiting current_event.status = false then (w, { success := any_success })
      else
        let errors := delivery_outcomes.filterMap fun (_, result) => result.bind (·.error)
        let first_error := (errors.find? fun error => error ≠ "").getD "All endpoints failed"
        let w :=
          if any_success then w.updateEvent d.event_id (markDelivered now 200)
          else w.updateEvent d.event_id (scheduleRetry now first_error)
        let endpoint_updates := delivery_outcomes.filterMap fun (endpoint_id, result) =>
          result.map fun result => (endpoint_id, result.success)
        let endpoints := endpoint_updates.foldl (fun endpoints (endpoint_id, success) =>
          endpoints.map fun ep =>
            if ep.id = endpoint_id ∧ ep.agent_id = current_event.agent_id then updateCounter now success ep
            else ep) w.endpoints
        ({ w with endpoints }, { success := any_success })

end World

/-! ## Runs -/

inductive Step
  /-- The rows of the endpoints are these now. -/
  | endpoints (rows : List WebhookEndpoint)
  | agents (ids : List Id)
  /-- The row of an event is deleted. -/
  | remove (event_id : Id)
  /-- A call starts and sends its requests. -/
  | send (event_id : Id) (now : Time)
  /-- The requests have been answered, and the call ends. -/
  | finish (event_id : Id) (outcomes : Id → Option WebhookResult) (now : Time)

/-- An active endpoint with readable columns whose filter the type of the event matches. -/
def Reachable (decrypt : String → Option String) (event_type : String) (ep : WebhookEndpoint) : Prop :=
  (ep.is_active = true ∧ ep.failure_count < maxEndpointFailures) ∧
    ((getUrl decrypt ep).getD "" ≠ "" ∧ (decrypt ep.secret_encrypted).isSome) ∧
    matchesEventFilter event_type ep.event_filters = true

instance (decrypt : String → Option String) (event_type : String) (ep : WebhookEndpoint) :
    Decidable (Reachable decrypt event_type ep) :=
  inferInstanceAs (Decidable (_ ∧ _))

namespace World

variable (decrypt : String → Option String)

/-- The endpoints that are active, readable and matching. An agent who is gone has none. -/
def matching (w : World P) (event_id : Id) : List Id :=
  match w.events event_id with
  | none => []
  | some event =>
      if event.agent_id ∉ w.agents then []
      else (w.endpoints.filter fun ep =>
        ep.agent_id = event.agent_id ∧ Reachable decrypt event.event_type ep).map (·.id)

/-- `after` with a note, if the status has become `DELIVERED`. -/
def noted (before after : World P) (event_id : Id) (matching : List Id) : World P :=
  if after.status event_id = some .DELIVERED ∧ before.status event_id ≠ some .DELIVERED then
    { after with log := .delivered event_id matching :: after.log }
  else after

def send (w : World P) (event_id : Id) (now : Time) : World P :=
  let matching := w.matching decrypt event_id
  match w.phase1 decrypt event_id now with
  | (w', .inl _) => noted w w' event_id matching
  | (w', .inr d) =>
      let endpoint_ids := d.delivery_targets.map Target.endpoint_id
      { w' with
        inFlight := { d with matching } :: w'.inFlight
        log := .sent event_id (w.waiting event_id) endpoint_ids :: w'.log }

/-- The endpoints that acknowledge. -/
def acknowledge (d : Delivery P) (outcomes : Id → Option WebhookResult) : List Id :=
  (d.delivery_targets.map Target.endpoint_id).filter fun id => (outcomes id).any (·.success)

def finish (w : World P) (event_id : Id) (outcomes : Id → Option WebhookResult) (now : Time) : World P :=
  match w.inFlight.find? fun d => d.event_id = event_id with
  | none => w
  | some d =>
      let w := { w with
        inFlight := w.inFlight.filter fun d => d.event_id ≠ event_id
        log := .acknowledged event_id (acknowledge d outcomes) :: w.log }
      noted w (w.phase3 d outcomes now).1 event_id d.matching

/-- One step. What is not possible does nothing. -/
def step (w : World P) : Step → World P
  | .endpoints rows => { w with endpoints := rows }
  | .agents ids => { w with agents := ids }
  | .remove event_id => { w with events := Function.update w.events event_id none }
  | .send event_id now =>
      if event_id ∈ w.inFlight.map Delivery.event_id then w else w.send decrypt event_id now
  | .finish event_id outcomes now => w.finish event_id outcomes now

def run (w : World P) (steps : List Step) : World P := steps.foldl (step decrypt) w

end World

end Sthrip.Fanout
