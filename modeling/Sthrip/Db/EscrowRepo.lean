import Sthrip.Db.AgentRepo
import Sthrip.Db.BalanceRepo
import Mathlib.Data.List.Sort

set_option autoImplicit false

/-! # Escrow deals and milestones

`EscrowRepository` and `MilestoneRepository` of `sthrip/db/escrow_repo.py` and
`sthrip/db/milestone_repo.py`. A transition is an `UPDATE` guarded by the status it leaves; its
answer says whether the row was still in that status. The encrypted envelope columns and the
feature flag that reads them back are left out.
-/

namespace Sthrip

open Txn Prog

namespace EscrowRepository

variable (col : Columns)

/-- `deal_id` is the fresh identifier of the row. -/
def create (deal_id buyer_id seller_id : Id) (amount : ℚ) (description : String)
    (accept_timeout_hours delivery_timeout_hours review_timeout_hours : ℤ) (fee_percent : ℚ) :
    Program EscrowDeal := do
  let now ← now
  let accept_deadline := now + hours accept_timeout_hours
  let deal : EscrowDeal :=
    { buyer_id, seller_id, amount := col 12 amount, description, accept_timeout_hours
      delivery_timeout_hours, review_timeout_hours, fee_percent := col 4 fee_percent
      status := .CREATED, accept_deadline := some accept_deadline
      expires_at := some accept_deadline }
  let inserted ← Prog.create (Key.deal deal_id) deal
  raiseIf (inserted = false) .IntegrityError
  return deal

def getById (deal_id : Id) : Program (Option EscrowDeal) := select (S := schema) (Key.deal deal_id)

def getByIdForUpdate (deal_id : Id) : Program (Option EscrowDeal) :=
  selectForUpdate (S := schema) (Key.deal deal_id)

/-- `CREATED → ACCEPTED` -/
def accept (deal_id : Id) (delivery_timeout_hours : ℤ) : Program Bool := do
  let now ← now
  let delivery_deadline := now + hours delivery_timeout_hours
  update (Key.deal deal_id) (fun deal => deal.status = .CREATED) fun deal =>
    { deal with
      status := .ACCEPTED, accepted_at := some now
      delivery_deadline := some delivery_deadline, expires_at := some delivery_deadline }

/-- `ACCEPTED → DELIVERED` -/
def deliver (deal_id : Id) (review_timeout_hours : ℤ) : Program Bool := do
  let now ← now
  let review_deadline := now + hours review_timeout_hours
  update (Key.deal deal_id) (fun deal => deal.status = .ACCEPTED) fun deal =>
    { deal with
      status := .DELIVERED, delivered_at := some now
      review_deadline := some review_deadline, expires_at := some review_deadline }

/-- `DELIVERED → COMPLETED` -/
def release (deal_id : Id) (release_amount fee_amount : ℚ) : Program Bool := do
  let now ← now
  update (Key.deal deal_id) (fun deal => deal.status = .DELIVERED) fun deal =>
    { deal with
      status := .COMPLETED, release_amount := some (col 12 release_amount)
      fee_amount := col 12 fee_amount, completed_at := some now }

/-- `CREATED → CANCELLED` -/
def cancel (deal_id : Id) : Program Bool := do
  let now ← now
  update (Key.deal deal_id) (fun deal => deal.status = .CREATED) fun deal =>
    { deal with status := .CANCELLED, cancelled_at := some now }

/-- `CREATED/ACCEPTED → EXPIRED` -/
def expire (deal_id : Id) : Program Bool := do
  let now ← now
  update (Key.deal deal_id) (fun deal => deal.status ∈ [.CREATED, .ACCEPTED]) fun deal =>
    { deal with status := .EXPIRED, completed_at := some now }

def pastDeadline (now : Time) : (k : Key) → Row k → Bool
  | .deal _, deal =>
      deal.status ∈ [.CREATED, .ACCEPTED, .DELIVERED] ∧ ∃ t ∈ deal.expires_at, t ≤ now
  | _, _ => false

def getPendingExpiry : Program (List Id) := do
  let now ← now
  let rows ← query (pastDeadline now)
  return rows.filterMap fun
    | ⟨Key.deal id, _⟩ => some id
    | _ => none

end EscrowRepository

/-- One entry of `milestones_data`. -/
structure MilestoneData where
  description : String
  amount : ℚ
  delivery_timeout_hours : ℤ
  review_timeout_hours : ℤ

namespace MilestoneRepository

variable (col : Columns)

/-- The row of one entry; the table's constraints bound its sequence and its amount. -/
def createMilestone (escrow_id : Id) (m : MilestoneData) (idx : ℕ) : Program Unit := do
  raiseIf (¬(1 ≤ idx ∧ idx ≤ 10)) .IntegrityError
  raiseIf (¬0 < col 12 m.amount) .IntegrityError
  let inserted ← Prog.create (Key.milestone escrow_id idx)
    { description := m.description, amount := col 12 m.amount
      delivery_timeout_hours := m.delivery_timeout_hours
      review_timeout_hours := m.review_timeout_hours, status := .PENDING }
  raiseIf (inserted = false) .IntegrityError

def createMilestones (escrow_id : Id) (milestones_data : List MilestoneData) : Program Unit :=
  forEach (milestones_data.zipIdx 1) fun (m, idx) => createMilestone col escrow_id m idx

def getByEscrowAndSequence (escrow_id : Id) (sequence : ℕ) : Program (Option EscrowMilestone) :=
  select (S := schema) (Key.milestone escrow_id sequence)

def getByEscrowAndSequenceForUpdate (escrow_id : Id) (sequence : ℕ) :
    Program (Option EscrowMilestone) :=
  selectForUpdate (S := schema) (Key.milestone escrow_id sequence)

def ofEscrow (escrow_id : Id) : (k : Key) → Row k → Bool
  | .milestone escrow _, _ => escrow = escrow_id
  | _, _ => false

/-- The sequence and the row of a milestone of the deal. -/
def numbered (escrow_id : Id) : (Σ k : Key, Row k) → Option (ℕ × EscrowMilestone)
  | ⟨.milestone escrow sequence, ms⟩ => if escrow = escrow_id then some (sequence, ms) else none
  | _ => none

def getByEscrow (escrow_id : Id) : Program (List (ℕ × EscrowMilestone)) := do
  let rows ← query (ofEscrow escrow_id)
  return (rows.filterMap (numbered escrow_id)).insertionSort fun m m' => m.1 ≤ m'.1

/-- `PENDING → ACTIVE` -/
def activate (escrow_id : Id) (sequence : ℕ) (delivery_timeout_hours : ℤ) : Program Bool := do
  let now ← now
  let delivery_deadline := now + hours delivery_timeout_hours
  update (Key.milestone escrow_id sequence) (fun ms => ms.status = .PENDING) fun ms =>
    { ms with
      status := .ACTIVE, activated_at := some now
      delivery_deadline := some delivery_deadline, expires_at := some delivery_deadline }

/-- `ACTIVE → DELIVERED` -/
def deliver (escrow_id : Id) (sequence : ℕ) (review_timeout_hours : ℤ) : Program Bool := do
  let now ← now
  let review_deadline := now + hours review_timeout_hours
  update (Key.milestone escrow_id sequence) (fun ms => ms.status = .ACTIVE) fun ms =>
    { ms with
      status := .DELIVERED, delivered_at := some now
      review_deadline := some review_deadline, expires_at := some review_deadline }

/-- `DELIVERED → COMPLETED` -/
def release (escrow_id : Id) (sequence : ℕ) (release_amount fee_amount : ℚ) : Program Bool := do
  let now ← now
  update (Key.milestone escrow_id sequence) (fun ms => ms.status = .DELIVERED) fun ms =>
    { ms with
      status := .COMPLETED, release_amount := some (col 12 release_amount)
      fee_amount := col 12 fee_amount, completed_at := some now }

/-- `ACTIVE → EXPIRED` -/
def expire (escrow_id : Id) (sequence : ℕ) : Program Bool := do
  let now ← now
  update (Key.milestone escrow_id sequence) (fun ms => ms.status = .ACTIVE) fun ms =>
    { ms with status := .EXPIRED, expires_at := some now }

def pendingOf (escrow_id : Id) : (k : Key) → Row k → Bool
  | .milestone escrow _, ms => escrow = escrow_id ∧ ms.status = .PENDING
  | _, _ => false

/-- Cancel every `PENDING` milestone of the deal. -/
def cancelPending (escrow_id : Id) : Program Unit := do
  let now ← now
  let keys ← scan (pendingOf escrow_id)
  forEach keys fun
    | Key.milestone escrow_id sequence => do
        let _ ← update (Key.milestone escrow_id sequence) (fun ms => ms.status = .PENDING)
          fun ms => { ms with status := .CANCELLED, cancelled_at := some now }
    | _ => return

def pastDeadline (now : Time) : (k : Key) → Row k → Bool
  | .milestone _ _, ms => (∃ t ∈ ms.expires_at, t ≤ now) ∧ ms.status ∈ [.ACTIVE, .DELIVERED]
  | _, _ => false

def getPendingMilestoneExpiry : Program (List (Id × ℕ)) := do
  let now ← now
  let rows ← query (pastDeadline now)
  return rows.filterMap fun
    | ⟨Key.milestone escrow_id sequence, _⟩ => some (escrow_id, sequence)
    | _ => none

end MilestoneRepository

end Sthrip
