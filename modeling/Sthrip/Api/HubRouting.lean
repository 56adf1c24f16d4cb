import Sthrip.Api.Withdraw
import Sthrip.Services.SpendingPolicyService

set_option autoImplicit false

/-! # Hub-routed payments

The handler `send_hub_routed_payment` of `api/routers/payments.py`, for what it does with the spending
policy of the agent. What comes before and after is a parameter each: `try_reserve`, with its cached
response, and everything from the lookup of the recipient to the response.
-/

namespace Sthrip

open SpendingPolicyService

/-- What the handler raises. -/
inductive HubRoutingError (E : Type) where
  /-- `HTTPException(400)` with `spending_policy_violation` -/
  | spendingPolicy (field message : String)
  | raised (e : E)

variable {R E : Type}

/-- `x_sthrip_session or "default"` -/
def hubSessionId (x_sthrip_session : Option String) : String :=
  match x_sthrip_session with
  | some session => if session = "" then "default" else session
  | none => "default"

/-- `send_hub_routed_payment`; `reserve` is `ok none` when there is no idempotency key. -/
def sendHubRoutedPayment (texts : NumberTexts) (redis : Bool) (reserve : Except E (Option R))
    (spending_policy : Option SpendingPolicy) (amount : ℚ) (to_agent_name : String)
    (x_sthrip_session : Option String) (drawn now : ℚ) (later : Except E R) (db : SpendingDb) :
    Except (HubRoutingError E) R × SpendingDb :=
  let proceed (db : SpendingDb) : Except (HubRoutingError E) R × SpendingDb :=
    match later with
    | .ok response => (.ok response, db)
    | .error e => (.error (.raised e), db)
  match reserve with
  | .error e => (.error (.raised e), db)
  | .ok (some cached) => (.ok cached, db)
  | .ok none =>
      match spending_policy with
      | none => proceed db
      | some policy =>
          match validate texts redis policy amount to_agent_name (hubSessionId x_sthrip_session) false
            none drawn now db with
          | .ok _ db => proceed db
          | .error pv db => (.error (.spendingPolicy pv.field pv.message), db)

/-! ## Requests with one idempotency key -/

/-- A response, with the number of the request that has produced it. -/
structure Produced (R : Type) where
  producer : ℕ
  body : R
  deriving DecidableEq

/-- What requests share. A cache is Redis, or the local map of one process. -/
structure HubState (R : Type) where
  slot : ℕ → Option (CacheEntry (Produced R)) := fun _ => none
  row : Option (IdempotencyKey (Produced R)) := none
  /-- The requests whose payment has committed. Nothing reads it. -/
  committed : List ℕ := []

/-- Where a request stands. -/
inductive HubPhase (R : Type) where
  /-- Before `SET NX`, or the look into the local map. -/
  | reserve
  /-- `SET NX` failed: before `GET`. -/
  | get
  /-- `GET` found nothing: before the second `SET NX`. -/
  | retry
  /-- The request has set the sentinel: before the look at the database. -/
  | checkDb
  /-- A stored response has been found: before the end of the session. -/
  | replay (r : Produced R)
  /-- Before everything from the spending policy to the response. -/
  | route
  /-- Before `store_response` writes the row of the key. -/
  | store
  /-- Before it writes the response to the cache. Has its `upsert` found a row? -/
  | cache (found : Bool)
  /-- Before the commit of the session. -/
  | commit (found : Bool)
  /-- Committed: before the webhook and the log. -/
  | finish
  /-- An exception was raised: before `store.release`. -/
  | releasing
  /-- Has the answer come from the store? -/
  | answered (stored : Bool) (r : Produced R)
  /-- The route of an earlier payment has been returned. -/
  | duplicate
  | failed
  deriving DecidableEq

/-- How a step goes. -/
inductive HubOutcome where
  | ok
  | raises
  /-- An operation of Redis fails, which is logged and not raised. -/
  | cacheFails
  /-- The dispatcher finds the route of an earlier payment. -/
  | duplicate
  deriving DecidableEq

structure HubRequest (R : Type) where
  request_hash : String
  response : R
  use_redis : Bool := true
  /-- The cache that the request's process asks. -/
  cache : ℕ := 0

namespace HubRequest

open IdempotencyStore

variable {R : Type}

def setSlot (req : HubRequest R) (s : HubState R) (entry : Option (CacheEntry (Produced R))) :
    HubState R := { s with slot := Function.update s.slot req.cache entry }

/-- A response is written to the cache. The local map does not fail. -/
def write (req : HubRequest R) (out : HubOutcome) (s : HubState R) (r : Produced R) : HubState R :=
  if req.use_redis ∧ out = .cacheFails then s else req.setSlot s (some (.response r))

/-- The step of request `i`. -/
def step (req : HubRequest R) (i : ℕ) (out : HubOutcome) :
    HubPhase R → HubState R → HubPhase R × HubState R
  | .reserve, s =>
      if out = .raises then (.releasing, s)
      else
        match s.slot req.cache with
        | none => (.checkDb, req.setSlot s (some .processing))
        | some entry =>
            if req.use_redis then (.get, s)
            else
              match entry with
              | .processing => (.releasing, s)
              | .response r => (.replay r, s)
  | .get, s =>
      if out = .raises then (.releasing, s)
      else
        match s.slot req.cache with
        | some .processing => (.releasing, s)
        | some (.response r) => (.replay r, s)
        | none => (.retry, s)
  | .retry, s =>
      if out = .raises then (.releasing, s)
      else
        match s.slot req.cache with
        | none => (.checkDb, req.setSlot s (some .processing))
        | some _ => (.releasing, s)
  | .checkDb, s =>
      if out = .raises then (.releasing, s)
      else
        match IdempotencyStore.checkDb s.row (some req.request_hash) with
        | .reserved => (.route, s)
        | .cached r => (.replay r, req.write out s r)
        | .conflict => (.releasing, s)
        | .keyReuse => (.releasing, s)
  | .replay r, s => if out = .raises then (.releasing, s) else (.answered true r, s)
  | .route, s =>
      if out = .raises then (.releasing, s)
      else if out = .duplicate then (.duplicate, s)
      else (.store, s)
  | .store, s => if out = .raises then (.releasing, s) else (.cache s.row.isSome, s)
  | .cache found, s => (.commit found, req.write out s ⟨i, req.response⟩)
  | .commit found, s =>
      if out = .raises then (.releasing, s)
      else
        let row : IdempotencyKey (Produced R) :=
          { request_hash := req.request_hash, response_status := 200, response_body := ⟨i, req.response⟩ }
        (.finish, { s with row := WithdrawRequest.upsert found s.row (some row)
                           committed := i :: s.committed })
  | .finish, s => if out = .raises then (.releasing, s) else (.answered false ⟨i, req.response⟩, s)
  | .releasing, s =>
      (.failed, if req.use_redis ∧ out ≠ .ok then s else req.setSlot s (release (s.slot req.cache)))
  | .answered stored r, s => (.answered stored r, s)
  | .duplicate, s => (.duplicate, s)
  | .failed, s => (.failed, s)

end HubRequest

/-- Where each of the requests stands, and what they share. -/
structure HubConfig (R : Type) where
  phase : ℕ → HubPhase R := fun _ => .reserve
  state : HubState R := {}

namespace HubConfig

variable {R : Type}

/-- Request `i` makes a step. -/
def step (reqs : ℕ → HubRequest R) (c : HubConfig R) (i : ℕ) (out : HubOutcome) : HubConfig R where
  phase := Function.update c.phase i ((reqs i).step i out (c.phase i) c.state).1
  state := ((reqs i).step i out (c.phase i) c.state).2

/-- The entry of a cache expires. -/
def expire (c : HubConfig R) (k : ℕ) : HubConfig R :=
  { c with state := { c.state with slot := Function.update c.state.slot k none } }

/-- The configurations that interleavings lead to whose steps meet `Ok`. -/
inductive Reaches (reqs : ℕ → HubRequest R) (Ok : HubConfig R → ℕ → HubOutcome → Prop) :
    HubConfig R → Prop where
  | refl : Reaches reqs Ok {}
  | step {c : HubConfig R} (i : ℕ) (out : HubOutcome) : Reaches reqs Ok c → Ok c i out →
      Reaches reqs Ok (c.step reqs i out)
  | expire {c : HubConfig R} (k : ℕ) : Reaches reqs Ok c → Reaches reqs Ok (c.expire k)

end HubConfig

end Sthrip
