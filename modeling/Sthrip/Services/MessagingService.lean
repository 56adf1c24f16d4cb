import Mathlib.Data.List.Sort
import Sthrip.Db.Models

set_option autoImplicit false

/-! # Relayed messages

`sthrip/services/messaging_service.py`, each call in a session of its own, with what a session at READ
COMMITTED sees of the others: the rows that are committed. What a session writes is seen when it commits.
Until then an update of the same row by another session waits, and is made in the order of the commits.

The envelope of the participants is left out, and so are the sessions that raise before they have written
anything.
-/

namespace Sthrip.Messaging

def maxMessageSizeBytes : ℕ := 64 * 1024
def maxInboxPending : ℕ := 100
def messageTtlHours : ℤ := 24

structure MessageRelay where
  id : Id
  from_agent_id : Id
  to_agent_id : Id
  payment_id : Option String := none
  ciphertext : String
  nonce : String
  sender_public_key : String
  size_bytes : ℕ
  delivered_at : Option Time := none
  expires_at : Time
  created_at : Time
  deriving DecidableEq

/-- The arguments of `relay_message`. -/
structure RelayRequest where
  from_agent_id : Id
  to_agent_id : Id
  ciphertext : String
  nonce : String
  sender_public_key : String
  payment_id : Option String := none

inductive MessageError
  | MessageSizeError (message : String)
  | RecipientNotFoundError (message : String)
  | InboxFullError (message : String)

/-- The filter of both methods: undelivered and not expired. -/
def isPending (agent_id : Id) (now : Time) (m : MessageRelay) : Bool :=
  m.to_agent_id = agent_id ∧ m.delivered_at = none ∧ now < m.expires_at

def pendingCount (relays : List MessageRelay) (agent_id : Id) (now : Time) : ℕ :=
  relays.countP (isPending agent_id now)

/-- `relay_message`, over the rows that its session sees: the row that it adds. `b64decode` is nothing when
`base64.b64decode` raises; the id and `created_at` are the defaults of their columns. -/
def relayMessage (b64decode : String → Option (List UInt8)) (active : Id → Bool)
    (relays : List MessageRelay) (id : Id) (created_at now : Time) (r : RelayRequest) :
    Except MessageError MessageRelay :=
  match b64decode r.ciphertext with
  | none => .error (.MessageSizeError "Invalid base64 ciphertext")
  | some raw_ciphertext =>
      let size_bytes := raw_ciphertext.length
      if size_bytes > maxMessageSizeBytes then
        .error (.MessageSizeError
          s!"Message size {size_bytes} bytes exceeds limit of {maxMessageSizeBytes} bytes (64 KB)")
      else if b64decode r.nonce = none then .error (.MessageSizeError "Invalid base64 nonce")
      else if b64decode r.sender_public_key = none then
        .error (.MessageSizeError "Invalid base64 sender_public_key")
      else if active r.to_agent_id = false then
        .error (.RecipientNotFoundError "Recipient agent not found or inactive")
      else if pendingCount relays r.to_agent_id now ≥ maxInboxPending then
        .error (.InboxFullError s!"Recipient inbox is full ({maxInboxPending} pending messages)")
      else .ok
        { id, from_agent_id := r.from_agent_id, to_agent_id := r.to_agent_id, payment_id := r.payment_id
          ciphertext := r.ciphertext, nonce := r.nonce, sender_public_key := r.sender_public_key
          size_bytes, expires_at := now + hours messageTtlHours, created_at }

/-- The query of `get_inbox`. -/
def inboxMessages (relays : List MessageRelay) (agent_id : Id) (now : Time) : List MessageRelay :=
  (relays.filter (isPending agent_id now)).insertionSort fun a b => a.created_at ≤ b.created_at

/-- What `get_inbox` writes. -/
def markDelivered (ids : List Id) (now : Time) (m : MessageRelay) : MessageRelay :=
  if m.id ∈ ids then { m with delivered_at := some now } else m

/-! ## Sessions -/

/-- A call of `get_inbox`, with what it has read and returns. -/
structure Inbox where
  agent_id : Id
  now : Time
  messages : List MessageRelay
  deriving DecidableEq

def Inbox.ids (c : Inbox) : List Id := c.messages.map MessageRelay.id

/-- What a session has written and not yet committed. -/
inductive Written
  | relay (m : MessageRelay)
  | inbox (c : Inbox)

structure World where
  time : Time
  active : Id → Bool
  /-- The committed rows. -/
  relays : List MessageRelay
  sessions : ℕ → Option Written := fun _ => none
  /-- What committed calls of `get_inbox` have returned. Nothing reads it. -/
  returned : List Inbox := []

inductive Step
  | active (active : Id → Bool)
  | relay (s : ℕ) (id : Id) (created_at : Time) (r : RelayRequest)
  | inbox (s : ℕ) (agent_id : Id)
  | commit (s : ℕ)
  | rollback (s : ℕ)

namespace World

variable (b64decode : String → Option (List UInt8))

def setSession (w : World) (s : ℕ) (written : Option Written) : World :=
  { w with sessions := Function.update w.sessions s written }

/-- A row is not committed when its primary key is there already. -/
def commit (w : World) (s : ℕ) : World :=
  match w.sessions s with
  | none => w
  | some (.relay m) =>
      if m.id ∈ w.relays.map MessageRelay.id then w.setSession s none
      else { w.setSession s none with relays := w.relays ++ [m] }
  | some (.inbox c) =>
      { w.setSession s none with
        relays := w.relays.map (markDelivered c.ids c.now)
        returned := c :: w.returned }

/-- A step at the time of the state. A session that is busy starts no call. -/
def act (w : World) : Step → World
  | .active active => { w with active }
  | .relay s id created_at r =>
      if (w.sessions s).isSome then w
      else
        match relayMessage b64decode w.active w.relays id created_at w.time r with
        | .error _ => w
        | .ok m => w.setSession s (some (.relay m))
  | .inbox s agent_id =>
      if (w.sessions s).isSome then w
      else w.setSession s (some (.inbox ⟨agent_id, w.time, inboxMessages w.relays agent_id w.time⟩))
  | .commit s => w.commit s
  | .rollback s => w.setSession s none

/-- A step at a time; times do not decrease. -/
def step (w : World) (e : Time × Step) : World :=
  if e.1 < w.time then w else act b64decode { w with time := e.1 } e.2

def run (w : World) (es : List (Time × Step)) : World := es.foldl (step b64decode) w

end World

end Sthrip.Messaging
