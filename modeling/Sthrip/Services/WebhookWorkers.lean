import Sthrip.Services.WebhookDelivery

set_option autoImplicit false

/-! # Workers that deliver webhooks

Any number of workers run `process_pending_events` of `sthrip/services/webhook_service.py`, and anyone may
call `process_event`. The sessions of different calls come in any order, and endpoints, agents and events
change meanwhile. The third phase of a call reads the row of the event without a lock, so that another
session may commit before it writes: a step is what a session does between two such moments.

The fields `inFlight` and `log` of `World`, which are about a single worker, are not used here.
-/

namespace Sthrip.Fanout

variable {P : Type}

/-! ## The workers -/

/-- A call whose requests are under way. -/
structure Attempt (P : Type) where
  number : ℕ
  delivery : Delivery P
  /-- What the endpoints have answered, and the row that the third phase has read. -/
  read : Option (WebhookEvent P × (Id → Option WebhookResult)) := none

/-- What the workers have done. Nothing of the program reads it. -/
inductive Note
  | sent (event_id : Id) (number : ℕ)
  /-- An attempt has failed. -/
  | failed (event_id : Id)
  /-- The status has become `DELIVERED`. -/
  | delivered (event_id : Id)
  deriving DecidableEq

def Note.event_id : Note → Id
  | .sent event_id _ => event_id
  | .failed event_id => event_id
  | .delivered event_id => event_id

namespace World

/-- The attempt that is made next. -/
def number (w : World P) (event_id : Id) : ℕ := ((w.events event_id).map (·.attempt_count)).getD 0 + 1

end World

structure Workers (P : Type) where
  world : World P
  /-- The calls of `process_event` that have not started yet. -/
  queue : List Id := []
  attempts : List (Attempt P) := []
  /-- The newest note first. -/
  journal : List Note := []

inductive WorkerStep (P : Type)
  /-- The rows of the endpoints are these now. -/
  | endpoints (rows : List WebhookEndpoint)
  | agents (ids : List Id)
  /-- `create_event` -/
  | create (event_id : Id) (timestamp now : Time) (agent_id : Id) (event_type : String) (payload : P)
  /-- `process_pending_events` looks at these rows, which come first and are not locked. -/
  | pending (event_ids : List Id) (now : Time)
  /-- `process_event` is called directly. -/
  | call (event_id : Id)
  /-- A call reads the event and sends its requests. -/
  | start (event_id : Id) (now : Time)
  /-- The requests of a call have been answered, and the third phase reads the event. -/
  | answer (k : ℕ) (outcomes : Id → Option WebhookResult)
  /-- The third phase writes, and the call ends. -/
  | settle (k : ℕ) (now : Time)

namespace Workers

variable (decrypt : String → Option String)

/-- A session commits. -/
def write (s : Workers P) (event_id : Id) (world : World P) : Workers P :=
  if world.status event_id = some .DELIVERED ∧ s.world.status event_id ≠ some .DELIVERED then
    { s with world, journal := .delivered event_id :: s.journal }
  else { s with world }

def start (s : Workers P) (event_id : Id) (now : Time) : Workers P :=
  match s.world.phase1 decrypt event_id now with
  | (world, .inl _) => s.write event_id world
  | (world, .inr delivery) =>
      let number := s.world.number event_id
      { s with
        world
        attempts := s.attempts ++ [{ number, delivery }]
        journal := .sent event_id number :: s.journal }

/-- A call ends. -/
def leave (s : Workers P) (k : ℕ) (event_id : Id) (success : Bool) : Workers P :=
  { s with
    attempts := s.attempts.eraseIdx k
    journal := if success then s.journal else .failed event_id :: s.journal }

def answer (s : Workers P) (k : ℕ) (outcomes : Id → Option WebhookResult) : Workers P :=
  match s.attempts[k]? with
  | none => s
  | some a =>
      if a.read.isSome then s
      else
        let event_id := a.delivery.event_id
        match (s.world.events event_id).filter fun row => isWaiting row.status with
        | none => s.leave k event_id (World.acknowledge a.delivery outcomes ≠ [])
        | some row => { s with attempts := s.attempts.set k { a with read := some (row, outcomes) } }

/-- The columns that `mark_delivered` and `schedule_retry` set. -/
def columns (success : Bool) (written current : WebhookEvent P) : WebhookEvent P :=
  if success then
    { current with
      status := written.status
      last_response_code := written.last_response_code
      delivered_at := written.delivered_at }
  else
    { current with
      status := written.status
      attempt_count := written.attempt_count
      last_error := written.last_error
      next_attempt_at := written.next_attempt_at }

def settle (s : Workers P) (k : ℕ) (now : Time) : Workers P :=
  match s.attempts[k]? with
  | none => s
  | some a =>
      match a.read with
      | none => s
      | some (row, outcomes) =>
          let event_id := a.delivery.event_id
          -- what is written is computed from the row that has been read
          let before := { s.world with events := Function.update s.world.events event_id (some row) }
          let (world, result) := World.phase3 before a.delivery outcomes now
          let set (written : WebhookEvent P) :=
            (s.world.events event_id).map (columns result.success written)
          let events := Function.update s.world.events event_id ((world.events event_id).bind set)
          (s.leave k event_id result.success).write event_id { world with events }

/-- One step. What is not possible does nothing. -/
def step (s : Workers P) : WorkerStep P → Workers P
  | .endpoints rows => { s with world := { s.world with endpoints := rows } }
  | .agents ids => { s with world := { s.world with agents := ids } }
  | .create event_id timestamp now agent_id event_type payload =>
      if (s.world.events event_id).isSome then s
      else
        let event := newEvent timestamp now agent_id event_type payload
        { s with world := { s.world with events := Function.update s.world.events event_id (some event) } }
  | .pending event_ids now =>
      { s with queue := s.queue ++ event_ids.filter fun e => (s.world.events e).any (isPending now) }
  | .call event_id => { s with queue := s.queue ++ [event_id] }
  | .start event_id now =>
      if event_id ∈ s.queue then start decrypt { s with queue := s.queue.erase event_id } event_id now
      else s
  | .answer k outcomes => s.answer k outcomes
  | .settle k now => s.settle k now

def run (s : Workers P) (steps : List (WorkerStep P)) : Workers P := steps.foldl (step decrypt) s

end Workers

end Sthrip.Fanout
