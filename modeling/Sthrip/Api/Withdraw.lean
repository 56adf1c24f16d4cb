import Sthrip.Services.IdempotencyStore
import Mathlib.Logic.Function.Basic

set_option autoImplicit false

/-! # A withdrawal with an idempotency key

The handler `withdraw_balance` of `api/routers/balance.py`, for requests of one agent with one key,
as the steps at which it touches what requests share: the cache, the row of the key, and the balance.
The session of `_deduct_and_create_pending` debits, writes the in-progress response to the row and
to the cache, and then commits. Any step may raise, and then the handler runs `store.release`; a
write to Redis may also fail without raising. No time passes: no entry of a cache expires.
-/

namespace Sthrip

variable {R : Type}

/-- What requests share. A cache is Redis, or the local map of one process. -/
structure WithdrawState (R : Type) where
  slot : ℕ → Option (CacheEntry R) := fun _ => none
  row : Option (IdempotencyKey R) := none
  /-- The debits that are committed, each with its withdrawal. -/
  debits : ℕ := 0

/-- Where a request stands. -/
inductive WithdrawPhase (R : Type) where
  /-- Before `SET NX`, or the look into the local map. -/
  | reserve
  /-- `SET NX` failed: before `GET`. -/
  | get
  /-- `GET` found nothing: before the second `SET NX`. -/
  | retry
  /-- The request has set the sentinel: before the look at the database. -/
  | checkDb
  /-- Reserved: before the session of `_deduct_and_create_pending`. -/
  | deduct
  /-- Before the commit of that session. Has its `upsert` found a row? -/
  | deducted (found : Bool)
  /-- Debited: before the withdrawal is carried out. -/
  | process
  /-- Before the final response is stored. -/
  | storing
  /-- Before the commit of the final response. -/
  | stored
  /-- An exception was raised: before `store.release`. Has the request set the sentinel? -/
  | releasing (reserved : Bool)
  | answered (r : R)
  | failed
  deriving DecidableEq

/-- How a step goes. -/
inductive StepOutcome where
  | ok
  | raises
  /-- A write to Redis fails, which is logged and not raised. -/
  | cacheFails
  deriving DecidableEq

structure WithdrawRequest (R : Type) where
  request_hash : String
  in_progress : R
  response : R
  use_redis : Bool := true
  /-- The cache that the request's process asks. -/
  cache : ℕ := 0

namespace WithdrawRequest

open IdempotencyStore

def setSlot (req : WithdrawRequest R) (s : WithdrawState R) (entry : Option (CacheEntry R)) :
    WithdrawState R := { s with slot := Function.update s.slot req.cache entry }

/-- A response is written to the cache. The local map does not fail. -/
def write (req : WithdrawRequest R) (out : StepOutcome) (s : WithdrawState R) (r : R) :
    WithdrawState R :=
  if req.use_redis ∧ out = .cacheFails then s else req.setSlot s (some (.response r))

/-- The row that `store_response` writes. -/
def newRow (req : WithdrawRequest R) (response_status : ℕ) (response_body : R) :
    IdempotencyKey R := { request_hash := req.request_hash, response_status, response_body }

/-- The row after the commit of an `upsert`. Without a row `upsert` inserts one, and gives way when
another request has inserted one meanwhile. -/
def upsert (found : Bool) (row new : Option (IdempotencyKey R)) : Option (IdempotencyKey R) :=
  if found then new else row.or new

theorem upsert_ne_none (found : Bool) (row : Option (IdempotencyKey R)) (new : IdempotencyKey R) :
    upsert found row (some new) ≠ none := by
  unfold upsert
  split
  · exact Option.some_ne_none _
  · cases row with
    | none => exact Option.some_ne_none _
    | some existing => exact Option.some_ne_none _

/-- The step of a request. -/
def step (req : WithdrawRequest R) (out : StepOutcome) :
    WithdrawPhase R → WithdrawState R → WithdrawPhase R × WithdrawState R
  | .reserve, s =>
      if out = .raises then (.releasing false, s)
      else
        match s.slot req.cache with
        | none => (.checkDb, req.setSlot s (some .processing))
        | some entry =>
            if req.use_redis then (.get, s)
            else
              match entry with
              | .processing => (.releasing false, s)
              | .response r => (.answered r, s)
  | .get, s =>
      if out = .raises then (.releasing false, s)
      else
        match s.slot req.cache with
        | some .processing => (.releasing false, s)
        | some (.response r) => (.answered r, s)
        | none => (.retry, s)
  | .retry, s =>
      if out = .raises then (.releasing false, s)
      else
        match s.slot req.cache with
        | none => (.checkDb, req.setSlot s (some .processing))
        | some _ => (.releasing false, s)
  | .checkDb, s =>
      if out = .raises then (.releasing true, s)
      else
        match IdempotencyStore.checkDb s.row (some req.request_hash) with
        | .reserved => (.deduct, s)
        | .cached r => (.answered r, req.write out s r)
        | .conflict => (.releasing true, s)
        | .keyReuse => (.releasing true, s)
  | .deduct, s =>
      if out = .raises then (.releasing true, s)
      else (.deducted s.row.isSome, req.write out s req.in_progress)
  | .deducted found, s =>
      if out = .raises then (.releasing true, s)
      else
        (.process, { s with row := upsert found s.row (some (req.newRow 202 req.in_progress))
                            debits := s.debits + 1 })
  | .process, s => if out = .raises then (.releasing true, s) else (.storing, s)
  | .storing, s =>
      if out = .raises then (.releasing true, s) else (.stored, req.write out s req.response)
  | .stored, s =>
      if out = .raises then (.releasing true, s)
      else (.answered req.response, { s with row := some (req.newRow 200 req.response) })
  | .releasing _, s =>
      (.failed, if req.use_redis ∧ out ≠ .ok then s else req.setSlot s (release (s.slot req.cache)))
  | .answered r, s => (.answered r, s)
  | .failed, s => (.failed, s)

end WithdrawRequest

/-- Where each of the requests stands, and what they share. -/
structure WithdrawConfig (R : Type) where
  phase : ℕ → WithdrawPhase R := fun _ => .reserve
  state : WithdrawState R := {}

namespace WithdrawConfig

/-- Request `i` makes a step. -/
def step (reqs : ℕ → WithdrawRequest R) (c : WithdrawConfig R) (i : ℕ) (out : StepOutcome) :
    WithdrawConfig R where
  phase := Function.update c.phase i ((reqs i).step out (c.phase i) c.state).1
  state := ((reqs i).step out (c.phase i) c.state).2

/-- The configurations that interleavings lead to whose steps meet `Ok`. -/
inductive Reaches (reqs : ℕ → WithdrawRequest R) (Ok : WithdrawConfig R → ℕ → Prop) :
    WithdrawConfig R → Prop where
  | refl : Reaches reqs Ok {}
  | step {c : WithdrawConfig R} (i : ℕ) (out : StepOutcome) : Reaches reqs Ok c → Ok c i →
      Reaches reqs Ok (c.step reqs i out)

/-- Let requests make steps, none of which goes wrong. -/
def steps (reqs : ℕ → WithdrawRequest R) (schedule : List ℕ) : WithdrawConfig R :=
  schedule.foldl (fun c i => c.step reqs i .ok) {}

theorem reaches_steps {reqs : ℕ → WithdrawRequest R} (schedule : List ℕ) :
    Reaches reqs (fun _ _ => True) (steps reqs schedule) := by
  have hfold : ∀ c, Reaches reqs (fun _ _ => True) c →
      Reaches reqs (fun _ _ => True) (schedule.foldl (fun c i => c.step reqs i .ok) c) := by
    induction schedule with
    | nil => exact fun c hc => hc
    | cons i l ih => exact fun c hc => ih _ (hc.step i .ok trivial)
  exact hfold {} .refl

end WithdrawConfig

end Sthrip
