import Sthrip.Db.Models

set_option autoImplicit false

/-! # Pending withdrawals -/

/-! ## The journal of withdrawals

`PendingWithdrawalRepository` of `sthrip/db/pending_withdrawal_repo.py`. A mark is an `UPDATE` by the
id alone, whatever the status of the row.
-/

namespace Sthrip

open Txn Prog

/-- `timedelta(minutes=m)`. -/
def minutes (m : ℤ) : Time := m * 60000000

namespace PendingWithdrawalRepository

variable (col : Columns)

/-- `pw_id` is the fresh identifier of the row. -/
def create (pw_id agent_id : Id) (amount : ℚ) (address : String) : Program Unit := do
  let created_at ← now
  let inserted ← Prog.create (Key.pendingWithdrawal pw_id)
    { agent_id, amount := col 12 amount, address, created_at := some created_at }
  raiseIf (inserted = false) .IntegrityError

/-- The rows that `get_stale_pending` selects. -/
def isStale (cutoff : Time) : (k : Key) → Row k → Bool
  | .pendingWithdrawal _, pw => pw.status = .PENDING ∧ pw.created_at.any (· < cutoff)
  | _, _ => false

/-- A pending withdrawal with its identifier. -/
def asWithdrawal : (Σ k : Key, Row k) → Option (Id × PendingWithdrawal)
  | ⟨.pendingWithdrawal id, pw⟩ => some (id, pw)
  | _ => none

theorem asWithdrawal_eq_some (x : Σ k : Key, Row k) (a : Id × PendingWithdrawal) :
    asWithdrawal x = some a ↔ x = ⟨Key.pendingWithdrawal a.1, a.2⟩ := by
  obtain ⟨k, r⟩ := x
  constructor
  · intro ha
    cases k with
    | pendingWithdrawal q =>
        obtain rfl := Option.some.inj ha
        rfl
    | _ => cases ha
  · rintro ⟨⟩
    rfl

def getStalePending (max_age_minutes : ℤ) : Program (List (Id × PendingWithdrawal)) := do
  let now ← now
  let rows ← query (isStale (now - minutes max_age_minutes))
  return rows.filterMap asWithdrawal

/-- What `mark_completed` sets. -/
def completed (tx_hash : String) (now : Time) (pw : PendingWithdrawal) : PendingWithdrawal :=
  { pw with status := .COMPLETED, tx_hash := some tx_hash, completed_at := some now }

def markCompleted (pw_id : Id) (tx_hash : String) : Program Unit := do
  let now ← now
  let matched ← update (S := schema) (Key.pendingWithdrawal pw_id) (fun _ => true)
    (completed tx_hash now)
  raiseIf (matched = false)
    (.RuntimeError "mark_completed: expected 1 row, got %s for pw_id=%s" [.int 0, .int pw_id])

def markNeedsReview (pw_id : Id) (reason : String) : Program Unit := do
  let matched ← update (S := schema) (Key.pendingWithdrawal pw_id) (fun _ => true) fun pw =>
    { pw with status := .NEEDS_REVIEW, error := some reason }
  raiseIf (matched = false)
    (.RuntimeError "mark_needs_review: expected 1 row, got %s for pw_id=%s" [.int 0, .int pw_id])

end PendingWithdrawalRepository

end Sthrip

/-! ## Recovery of withdrawals

`sthrip/services/withdrawal_recovery.py`: the sweep at the start of the server and every few minutes
afterwards. It lists the withdrawals that have been pending for long, asks the wallet for its
outgoing transfers, and marks each listed withdrawal by what it finds there. The list is not locked
meanwhile. Log messages are left out.
-/

namespace Sthrip

open Txn Prog

/-- An outgoing transfer, as `get_outgoing_transfers` lists it. -/
structure OutgoingTransfer where
  tx_hash : String
  amount : ℚ
  address : String
  timestamp : Option Time := none
  deriving DecidableEq

/-- The wallet of a sweep. -/
inductive RecoveryWallet where
  /-- `wallet_service` is `None`. -/
  | absent
  /-- The wallet does not answer. -/
  | unreachable
  | lists (outgoing : List OutgoingTransfer)

/-- Is the transfer the one of the withdrawal, as far as one can tell? -/
def isMatch (pw : PendingWithdrawal) (max_timestamp_delta_minutes : ℤ) (tx : OutgoingTransfer) :
    Bool :=
  if tx.address ≠ pw.address then false
  else if 1 / 1000000000000 ≤ |tx.amount - pw.amount| then false
  else
    match tx.timestamp, pw.created_at with
    | some tx_timestamp, some created_at =>
        |tx_timestamp - created_at| ≤ minutes max_timestamp_delta_minutes
    | _, _ => true

/-- `_find_matching_transfer`. -/
def findMatchingTransfer (pw : PendingWithdrawal) (outgoing : List OutgoingTransfer) :
    Option OutgoingTransfer :=
  outgoing.find? (isMatch pw 30)

/-- The body of the loop of a sweep. -/
def recoverOne (outgoing : List OutgoingTransfer) (pw : Id × PendingWithdrawal) : Program Bool :=
  match findMatchingTransfer pw.2 outgoing with
  | some tx_match => do
      PendingWithdrawalRepository.markCompleted pw.1 tx_match.tx_hash
      return true
  | none => do
      -- it may have been sent all the same: nothing is credited back
      PendingWithdrawalRepository.markNeedsReview pw.1 "No matching on-chain tx after max_age_minutes"
      return true

/-- `recover_pending_withdrawals`; the answer is the number of recovered rows. -/
def recoverPendingWithdrawals (wallet_service : RecoveryWallet) (max_age_minutes : ℤ) :
    Program ℕ := do
  let stale ← PendingWithdrawalRepository.getStalePending max_age_minutes
  match wallet_service with
  | .absent => tally stale (recoverOne [])
  | .unreachable => return 0
  | .lists outgoing => tally stale (recoverOne outgoing)

end Sthrip
