import Sthrip.Db.Models
import Mathlib.Logic.Function.Basic

set_option autoImplicit false

/-! # Swaps

`SwapService` of `sthrip/services/swap_service.py` over `SwapRepository` of `sthrip/db/swap_repo.py`,
for orders that exist. The calls run one after the other. A poll runs in one session, which it
commits after each order that it completes or expires, and goes on when an order raises; its row
locks, which skip the orders of another poll, are left out. Amounts are exact decimals, also in their
columns. The journal of credits says what the balances were credited for.
-/

namespace Sthrip

open Txn

inductive SwapStatus where
  | CREATED | LOCKED | COMPLETED | REFUNDED | EXPIRED
  deriving DecidableEq, Repr

def SwapStatus.value : SwapStatus → String
  | CREATED => "created"
  | LOCKED => "locked"
  | COMPLETED => "completed"
  | REFUNDED => "refunded"
  | EXPIRED => "expired"

structure SwapOrder where
  from_agent_id : Id
  to_amount : ℚ
  state : SwapStatus := .CREATED
  htlc_hash : String
  htlc_secret : Option String := none
  btc_tx_hash : Option String := none
  lock_expiry : Time
  external_order_id : Option String := none
  provider_name : Option String := none
  deriving DecidableEq

structure SwapCredit where
  swap_id : Id
  agent_id : Id
  amount : ℚ
  deriving DecidableEq

structure SwapTables where
  orders : Id → Option SwapOrder := fun _ => none
  credits : List SwapCredit := []

/-- `BalanceRepository.credit`, of the output of an order. -/
def SwapTables.credit (t : SwapTables) (swap_id agent_id : Id) (amount : ℚ) : SwapTables :=
  { t with credits := t.credits ++ [⟨swap_id, agent_id, amount⟩] }

namespace SwapRepository

/-- An `UPDATE` of the order with the id, guarded by its state; the answer is whether a row matched. -/
def transition (guard : SwapStatus → Bool) (set : SwapOrder → SwapOrder) (swap_id : Id)
    (t : SwapTables) : Bool × SwapTables :=
  match t.orders swap_id with
  | none => (false, t)
  | some order =>
      if guard order.state then
        (true, { t with orders := Function.update t.orders swap_id (some (set order)) })
      else (false, t)

/-- `CREATED → LOCKED` -/
def lock (swap_id : Id) (btc_tx_hash : String) : SwapTables → Bool × SwapTables :=
  transition (· = .CREATED) (fun order =>
    { order with state := .LOCKED, btc_tx_hash := some btc_tx_hash }) swap_id

/-- `LOCKED → COMPLETED` -/
def complete (swap_id : Id) (htlc_secret : String) : SwapTables → Bool × SwapTables :=
  transition (· = .LOCKED) (fun order =>
    { order with state := .COMPLETED, htlc_secret := some htlc_secret }) swap_id

/-- `LOCKED → REFUNDED` -/
def refund (swap_id : Id) : SwapTables → Bool × SwapTables :=
  transition (· = .LOCKED) (fun order => { order with state := .REFUNDED }) swap_id

/-- `CREATED → EXPIRED` and `LOCKED → EXPIRED` -/
def expire (swap_id : Id) : SwapTables → Bool × SwapTables :=
  transition (fun state => state = .CREATED ∨ state = .LOCKED)
    (fun order => { order with state := .EXPIRED }) swap_id

/-- `CREATED → COMPLETED` -/
def completeFromExternal (swap_id : Id) (to_amount : ℚ) : SwapTables → Bool × SwapTables :=
  transition (· = .CREATED) (fun order => { order with state := .COMPLETED, to_amount }) swap_id

/-- The filter of `bulk_expire_stale`. -/
def isOverdue (now : Time) (order : SwapOrder) : Bool :=
  (order.state = .CREATED ∨ order.state = .LOCKED) ∧ order.lock_expiry ≤ now

def bulkExpireStale (now : Time) (t : SwapTables) : SwapTables :=
  { t with
    orders := fun id => (t.orders id).map fun order =>
      if isOverdue now order then { order with state := .EXPIRED } else order }

/-- The filter of `get_pending_external`. -/
def isPendingExternal (order : SwapOrder) : Bool :=
  order.state = .CREATED ∧ order.external_order_id.isSome

end SwapRepository

/-! ## Providers -/

/-- The statuses of `exchange_providers.py`. -/
inductive ProviderStatus where
  | waiting | confirming | exchanging | sending | finished | failed | expired
  deriving DecidableEq, Repr

/-- How one order fares in a poll. -/
structure PollReply where
  /-- `get_order_status` answers. -/
  reachable : Bool := true
  /-- The amount in the answer, when there is one. -/
  to_amount : Option ℚ := none
  /-- The balance cannot be credited. -/
  credit_raises : Bool := false

/-- The session of a poll: what is committed, and what it sees. -/
structure PollSession where
  committed : SwapTables
  working : SwapTables

def PollSession.commit (working : SwapTables) : PollSession := ⟨working, working⟩

namespace SwapService

/-- `claim_swap`. `digest` is the SHA-256 of the bytes of a hexadecimal string, `none` when the string
is not hexadecimal. -/
def claimSwap (digest : String → Option String) (order_id agent_id : Id) (htlc_secret : String)
    (t : SwapTables) : Except Exn SwapTables :=
  match t.orders order_id with
  | none => .error (.LookupError "Swap order %s not found" [.int order_id])
  | some order =>
      if order.from_agent_id ≠ agent_id then
        .error (.PermissionError "You do not own this swap order")
      else
        match digest htlc_secret with
        | none => .error (.ValueError "Invalid HTLC secret: must be 64 hex characters")
        | some computed_hash =>
            if computed_hash ≠ order.htlc_hash then
              .error (.ValueError "Invalid HTLC secret for order %s" [.int order_id])
            else if (SwapRepository.complete order_id htlc_secret t).1 then
              .ok ((SwapRepository.complete order_id htlc_secret t).2.credit order_id agent_id
                order.to_amount)
            else
              .error (.ValueError "Cannot claim swap in state '%s'. Order must be LOCKED."
                [.str order.state.value])

/-- The providers that `poll_external_orders` knows. -/
def knownProvider (order : SwapOrder) : Bool :=
  order.provider_name = some "changenow" ∨ order.provider_name = some "sideshift"

/-- The body of the loop of `poll_external_orders`. -/
def pollOne (status : ProviderStatus) (reply : PollReply) (swap_id : Id) (s : PollSession) :
    PollSession :=
  match s.working.orders swap_id with
  | none => s
  | some order =>
      if knownProvider order ∧ reply.reachable then
        match status with
        | .finished =>
            let to_amount := reply.to_amount.getD order.to_amount
            let updated := SwapRepository.completeFromExternal swap_id to_amount s.working
            if updated.1 then
              -- the exception is logged, and the session goes on with the order completed
              if reply.credit_raises then { s with working := updated.2 }
              else .commit (updated.2.credit swap_id order.from_agent_id to_amount)
            else s
        | .failed | .expired =>
            let updated := SwapRepository.expire swap_id s.working
            if updated.1 then .commit updated.2 else s
        | _ => s
      else s

/-- The orders that a poll lists, of all orders in the order of the query. -/
def pendingExternal (ids : List Id) (t : SwapTables) : List Id :=
  ids.filter fun id => (t.orders id).any SwapRepository.isPendingExternal

/-- `poll_external_orders`, in a session that its caller commits, or not. -/
def pollExternalOrders (provider : Id → ProviderStatus) (ids : List Id) (replies : Id → PollReply)
    (commits : Bool) (t : SwapTables) : SwapTables :=
  let s := (pendingExternal ids t).foldl (fun s id => pollOne (provider id) (replies id) id s) ⟨t, t⟩
  if commits then s.working else s.committed

def expireStale (now : Time) (t : SwapTables) : SwapTables := SwapRepository.bulkExpireStale now t

end SwapService

end Sthrip
