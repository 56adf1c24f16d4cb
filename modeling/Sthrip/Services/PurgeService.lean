import Sthrip.Services.AuditLogger
import Sthrip.Services.EscrowService

set_option autoImplicit false

/-! # The purge service -/

/-! ## Purging the audit log

`purge_audit_log` of `sthrip/services/purge_service.py`: rows older than the retention period are
deleted, and a marker without HMACs takes their place.
-/

namespace Sthrip.Audit

def CHAIN_RESET_ACTION : String := "chain_reset"

inductive PurgeError
  | ValueError (message : String)
  | OverflowError
  | IntegrityError

/-- `_cutoff`: a date before the year 1 cannot be written. -/
def cutoff (retention_days : ℤ) (now : DateTime) : Except PurgeError DateTime :=
  if retention_days < 1 then
    .error (.ValueError s!"retention_days must be >= 1 (got {retention_days})")
  else
    let span := retention_days.toNat * 86400000000
    if now < span then .error .OverflowError else .ok (now - span)

/-- The marker that stands for the deleted rows. -/
def resetRow (reset_id : UUID) (base_now : DateTime) : AuditLog where
  id := reset_id
  agent_id := none
  action := CHAIN_RESET_ACTION
  resource_type := none
  resource_id := none
  ip_hmac := none
  ip_salt_id := none
  request_method := none
  request_path := none
  request_body := none
  success := true
  error_message := none
  created_at := base_now
  prev_hmac := none
  entry_hmac := none

structure Purged where
  deleted : ℕ
  reset_row_id : Option UUID

/-- `purge_audit_log`, with the table it leaves. -/
def purgeAuditLog (retention_days : ℤ) (now : DateTime) (reset_id : UUID) (rows : List AuditLog) :
    Except PurgeError (Purged × List AuditLog) := do
  let cut ← cutoff retention_days now
  let candidates := rows.filter (·.created_at < cut)
  if candidates.length = 0 then
    pure ({ deleted := 0, reset_row_id := none }, rows)
  else
    match insertRow (resetRow reset_id now) (rows.filter fun r => !(r.created_at < cut)) with
    | none => throw .IntegrityError
    | some rows => pure ({ deleted := candidates.length, reset_row_id := some reset_id }, rows)

end Sthrip.Audit

/-! ## Purging deals

`purge_escrow_deals` and `purge_escrow_milestones` of `sthrip/services/purge_service.py`, and the
methods of `EscrowService` that meet them, for the rows of one deal: sessions that run one after
another, each of which commits or leaves nothing behind. The other phases of a purge do not touch
these rows. Of the other tables there is what a session adds: credits, fees and trust.
-/

namespace Sthrip

open Txn

/-- `timedelta(days=d)`. -/
def days (d : ℤ) : Time := d * 86400000000

/-- The rows of one deal, and what its sessions have added elsewhere. -/
structure DealTables where
  deal : Option EscrowDeal
  created_at : Time
  milestones : List (ℕ × EscrowMilestone)
  credits : List (Id × Token × ℚ) := []
  fees : List ℚ := []
  trust : List (Id × ℤ) := []
  deriving DecidableEq

namespace DealTables

variable (t : DealTables)

def milestone (sequence : ℕ) : Option EscrowMilestone :=
  (t.milestones.find? fun m => m.1 = sequence).map Prod.snd

def setMilestone (sequence : ℕ) (set : EscrowMilestone → EscrowMilestone) : DealTables :=
  { t with milestones := t.milestones.map fun m => if m.1 = sequence then (m.1, set m.2) else m }

/-- `credit`, for a positive amount. -/
def credit (agent_id : Id) (token : Token) (amount : ℚ) : DealTables :=
  if 0 < amount then { t with credits := t.credits ++ [(agent_id, token, amount)] } else t

/-- `_record_fee` -/
def recordFee (fee_amount : ℚ) : DealTables :=
  if 0 < fee_amount then { t with fees := t.fees ++ [fee_amount] } else t

def adjustTrust (changes : List (Id × ℤ)) : DealTables := { t with trust := t.trust ++ changes }

/-- `cancel_pending` -/
def cancelPending (now : Time) : DealTables :=
  { t with milestones := t.milestones.map fun m =>
      if m.2.status = .PENDING then
        (m.1, { m.2 with status := .CANCELLED, cancelled_at := some now })
      else m }

/-- The milestone is activated, if it is pending. -/
def activate (now : Time) (sequence : ℕ) : DealTables :=
  t.setMilestone sequence fun ms =>
    if ms.status = .PENDING then
      { ms with
        status := .ACTIVE, activated_at := some now
        delivery_deadline := some (now + hours ms.delivery_timeout_hours)
        expires_at := some (now + hours ms.delivery_timeout_hours) }
    else ms

/-- `release` of a milestone. -/
def releaseRow (now : Time) (sequence : ℕ) (release_amount fee_amount : ℚ) : DealTables :=
  t.setMilestone sequence fun ms =>
    { ms with
      status := .COMPLETED, release_amount := some (numeric 12 release_amount)
      fee_amount := numeric 12 fee_amount, completed_at := some now }

end DealTables

/-- What `_apply_completion_trust` changes. -/
def completionTrust (buyer_id seller_id : Id) (release_amount escrow_amount : ℚ) :
    List (Id × ℤ) :=
  if escrow_amount ≤ 0 then []
  else if release_amount = escrow_amount then [(seller_id, 1), (buyer_id, 1)]
  else if release_amount = 0 then [(seller_id, -2)]
  else if release_amount / escrow_amount > 1 / 2 then [(seller_id, 1)]
  else [(seller_id, -1)]

namespace DealService

/-! ## Acceptance and cancellation -/

def acceptEscrow (seller_id : Id) (is_active : Bool) (now : Time) (t : DealTables) :
    Except Exn (EscrowDeal × DealTables) :=
  match t.deal with
  | none => .error (.LookupError "Escrow not found")
  | some deal =>
      if deal.seller_id ≠ seller_id then
        .error (.PermissionError "Only the seller can accept this escrow")
      else if deal.status ≠ .CREATED then
        .error (.ValueError "Cannot accept escrow in '%s' state" [.str deal.status.value])
      else if deal.accept_deadline.any (· < now) then
        .error (.ValueError "Accept deadline has passed")
      else if is_active = false then
        .error (.ValueError "Seller agent has been deactivated")
      else
        let deadline := now + hours deal.delivery_timeout_hours
        let deal' : EscrowDeal :=
          { deal with
            status := .ACCEPTED, accepted_at := some now, delivery_deadline := some deadline
            expires_at := some deadline }
        let t' := { t with deal := some deal' }
        .ok (deal', if deal.is_multi_milestone then t'.activate now 1 else t')

def cancelEscrow (buyer_id : Id) (now : Time) (t : DealTables) :
    Except Exn (EscrowDeal × DealTables) :=
  match t.deal with
  | none => .error (.LookupError "Escrow not found")
  | some deal =>
      if deal.buyer_id ≠ buyer_id then
        .error (.PermissionError "Only the buyer can cancel this escrow")
      else if deal.status ≠ .CREATED then
        .error (.ValueError "Cannot cancel escrow in '%s' state" [.str deal.status.value])
      else
        let deal' : EscrowDeal := { deal with status := .CANCELLED, cancelled_at := some now }
        .ok (deal', { t with deal := some deal' }.credit deal.buyer_id deal.token deal.amount)

/-! ## Milestones -/

def deliverMilestone (milestone_seq : ℕ) (seller_id : Id) (now : Time) (t : DealTables) :
    Except Exn (EscrowMilestone × DealTables) :=
  match t.deal with
  | none => .error (.LookupError "Escrow not found")
  | some deal =>
      if deal.is_multi_milestone = false then
        .error (.ValueError "This escrow does not have milestones")
      else if deal.seller_id ≠ seller_id then
        .error (.PermissionError "Only the seller can deliver milestones")
      else if deal.status ≠ .ACCEPTED then
        .error (.ValueError "Cannot deliver milestone: deal is in '%s' state"
          [.str deal.status.value])
      else
        match t.milestone milestone_seq with
        | none => .error (.LookupError "Milestone #%s not found" [.int milestone_seq])
        | some ms =>
            if ms.status ≠ .ACTIVE then
              .error (.ValueError "Cannot deliver milestone in '%s' state (must be 'active')"
                [.str ms.status.value])
            else
              let deadline := now + hours ms.review_timeout_hours
              let ms' : EscrowMilestone :=
                { ms with
                  status := .DELIVERED, delivered_at := some now
                  review_deadline := some deadline, expires_at := some deadline }
              .ok (ms', t.setMilestone milestone_seq fun _ => ms')

/-- The end of a milestone: the deal is completed with its last milestone, and otherwise the next
milestone is activated. The milestones that are completed are counted in the table. -/
def advance (deal : EscrowDeal) (milestone_seq : ℕ) (new_released new_fees : ℚ) (now : Time)
    (t : DealTables) : DealTables :=
  let completed_count := t.milestones.countP fun m =>
    m.2.status = .COMPLETED ∨ m.1 = milestone_seq
  if deal.milestone_count ≤ completed_count then
    let deal' : EscrowDeal :=
      { deal with
        status := .COMPLETED, total_released := numeric 12 new_released
        total_fees := numeric 12 new_fees, release_amount := some (numeric 12 new_released)
        fee_amount := numeric 12 new_fees, completed_at := some now }
    ({ t with deal := some deal' }.adjustTrust
      (completionTrust deal.buyer_id deal.seller_id new_released deal.amount)).cancelPending now
  else
    let deal' : EscrowDeal :=
      { deal with
        total_released := numeric 12 new_released, total_fees := numeric 12 new_fees
        current_milestone := milestone_seq + 1 }
    { t with deal := some deal' }.activate now (milestone_seq + 1)

/-- What a milestone pays out, up to the end of the milestone. -/
def payMilestone (deal : EscrowDeal) (milestone_seq : ℕ) (amount release_amount : ℚ) (now : Time)
    (t : DealTables) : DealTables :=
  let fee_amount := release_amount * deal.feeRate
  advance deal milestone_seq (deal.total_released + release_amount) (deal.total_fees + fee_amount)
    now ((((t.credit deal.seller_id deal.token (release_amount - fee_amount)).credit
      deal.buyer_id deal.token (amount - release_amount)).recordFee fee_amount).releaseRow now
        milestone_seq release_amount fee_amount)

def releaseMilestone (milestone_seq : ℕ) (buyer_id : Id) (release_amount : ℚ) (now : Time)
    (t : DealTables) : Except Exn (MilestoneRelease × DealTables) :=
  match t.deal with
  | none => .error (.LookupError "Escrow not found")
  | some deal =>
      if deal.is_multi_milestone = false then
        .error (.ValueError "This escrow does not have milestones")
      else if deal.buyer_id ≠ buyer_id then
        .error (.PermissionError "Only the buyer can release milestones")
      else if deal.status ≠ .ACCEPTED then
        .error (.ValueError "Cannot release milestone: deal is in '%s' state"
          [.str deal.status.value])
      else
        match t.milestone milestone_seq with
        | none => .error (.LookupError "Milestone #%s not found" [.int milestone_seq])
        | some ms =>
            if ms.status ≠ .DELIVERED then
              .error (.ValueError "Cannot release milestone in '%s' state (must be 'delivered')"
                [.str ms.status.value])
            else if release_amount < 0 ∨ ms.amount < release_amount then
              .error (.ValueError "Release amount must be between 0 and %s" [.dec ms.amount])
            else
              let t' := payMilestone deal milestone_seq ms.amount release_amount now t
              let deal_fresh := t'.deal.getD deal
              let fee_amount := release_amount * deal.feeRate
              .ok ({ milestone_sequence := milestone_seq
                     released_to_seller := release_amount
                     fee := fee_amount
                     seller_received := release_amount - fee_amount
                     deal_status := deal_fresh.status
                     deal_total_released := deal_fresh.total_released
                     deal_total_fees := deal_fresh.total_fees }, t')

/-! ## Expiry -/

/-- `_resolve_single`, for a deal that `get_pending_expiry` selects. -/
def resolveSingle (now : Time) (t : DealTables) : Bool × DealTables :=
  match t.deal with
  | none => (false, t)
  | some deal =>
      if deal.expires_at.any (· ≤ now) = false then (false, t)
      else
        let expired : EscrowDeal := { deal with status := .EXPIRED, completed_at := some now }
        let t' := { t with deal := some expired }.credit deal.buyer_id deal.token deal.amount
        match deal.status with
        | .CREATED => (true, t')
        | .ACCEPTED => (true, t'.adjustTrust [(deal.seller_id, -3)])
        | .DELIVERED =>
            let fee_amount := deal.amount * deal.feeRate
            let released : EscrowDeal :=
              { deal with
                status := .COMPLETED, release_amount := some (numeric 12 deal.amount)
                fee_amount := numeric 12 fee_amount, completed_at := some now }
            (true, (({ t with deal := some released }.credit deal.seller_id deal.token
              (deal.amount - fee_amount)).recordFee fee_amount).adjustTrust
                (completionTrust deal.buyer_id deal.seller_id deal.amount deal.amount))
        | _ => (false, t)

/-- `_expire_active_milestone`: the rest of the deal goes back to the buyer. -/
def expireActiveMilestone (deal : EscrowDeal) (sequence : ℕ) (now : Time) (t : DealTables) :
    DealTables :=
  let status : EscrowStatus := if sequence = 1 then .EXPIRED else .PARTIALLY_COMPLETED
  let t' := (t.setMilestone sequence fun ms =>
    { ms with status := .EXPIRED, expires_at := some now }).cancelPending now
  ({ t'.credit deal.buyer_id deal.token (deal.amount - deal.total_released - deal.total_fees) with
    deal := some { deal with status, completed_at := some now } }).adjustTrust
      [(deal.seller_id, -3)]

/-- `_resolve_milestone_expiry` -/
def resolveMilestoneExpiry (now : Time) (t : DealTables) (sequence : ℕ) : Bool × DealTables :=
  match t.deal with
  | none => (false, t)
  | some deal =>
      if deal.status ≠ .ACCEPTED then (false, t)
      else
        match t.milestone sequence with
        | none => (false, t)
        | some ms =>
            match ms.status with
            | .ACTIVE => (true, expireActiveMilestone deal sequence now t)
            | .DELIVERED => (true, payMilestone deal sequence ms.amount ms.amount now t)
            | _ => (false, t)

/-- The milestones that `get_pending_milestone_expiry` selects. -/
def pendingMilestones (now : Time) (t : DealTables) : List ℕ :=
  (t.milestones.filter fun m => m.2.expires_at.any (· ≤ now) ∧
    (m.2.status = .ACTIVE ∨ m.2.status = .DELIVERED)).map Prod.fst

/-- One turn of the loop over milestones. -/
def resolveNext (now : Time) (r : ℕ × DealTables) (sequence : ℕ) : ℕ × DealTables :=
  ((resolveMilestoneExpiry now r.2 sequence).1.toNat + r.1,
    (resolveMilestoneExpiry now r.2 sequence).2)

/-- `resolve_expired`, as far as the deal goes; the database lists the milestones in some order. -/
def resolveExpired (now : Time) (arrange : List ℕ → List ℕ) (t : DealTables) : ℕ × DealTables :=
  let single := resolveSingle now t
  (arrange (pendingMilestones now single.2)).foldl (resolveNext now)
    (single.1.toNat, single.2)

/-! ## Purges -/

/-- `ESCROW_TERMINAL_STATUSES` -/
def ESCROW_TERMINAL_STATUSES : List EscrowStatus := [.COMPLETED, .CANCELLED, .EXPIRED]

/-- `MILESTONE_TERMINAL_STATUSES` -/
def MILESTONE_TERMINAL_STATUSES : List MilestoneStatus := [.COMPLETED, .CANCELLED, .EXPIRED]

/-- `_cutoff`, for a retention of at least one day. -/
def cutoff (retention_days : ℤ) (now : Time) : Time := now - days retention_days

/-- Does `purge_escrow_deals` delete the deal? -/
def dealPurged (cutoff created_at : Time) (deal : EscrowDeal) : Bool :=
  created_at < cutoff ∧ deal.status ∈ ESCROW_TERMINAL_STATUSES

/-- Does `purge_escrow_milestones` delete the milestone? -/
def milestonePurged (cutoff : Time) (ms : EscrowMilestone) : Bool :=
  ms.activated_at.any (· < cutoff) ∧ ms.status ∈ MILESTONE_TERMINAL_STATUSES

/-- The milestones go with their deal. -/
def purgeEscrowDeals (cutoff : Time) (t : DealTables) : DealTables :=
  if t.deal.any (dealPurged cutoff t.created_at) then { t with deal := none, milestones := [] }
  else t

def purgeEscrowMilestones (cutoff : Time) (t : DealTables) : DealTables :=
  { t with milestones := t.milestones.filter fun m => !milestonePurged cutoff m.2 }

/-- `run_full_purge`; a retention of less than a day is refused. -/
def runFullPurge (retention_days : ℤ) (now : Time) (t : DealTables) : DealTables :=
  if retention_days < 1 then t
  else purgeEscrowMilestones (cutoff retention_days now)
    (purgeEscrowDeals (cutoff retention_days now) t)

end DealService

end Sthrip
