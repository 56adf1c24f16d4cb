import Sthrip.Db.EscrowRepo

set_option autoImplicit false

/-! # The escrow service

`EscrowService` of `sthrip/services/escrow_service.py`: funds are taken from the buyer's balance
when a deal is created and leave the deal through a release, a cancellation or an expiry. A deal
has one release, or is split into milestones that are released one after another.

Audit entries and webhooks are left out. What a method returns as a dictionary is the row it is
made from. Each method runs in a session its caller opens.
-/

namespace Sthrip

open Txn Prog

def defaultFeePercent : ℚ := 1 / 100

/-- `_compute_fee_percent` -/
def computeFeePercent : ℚ := defaultFeePercent

/-- The rate of a deal: `deal.fee_percent`, if it is not zero. -/
def EscrowDeal.feeRate (deal : EscrowDeal) : ℚ :=
  if deal.fee_percent = 0 then defaultFeePercent else deal.fee_percent

theorem EscrowDeal.feeRate_bounds {deal : EscrowDeal} (h₀ : 0 ≤ deal.fee_percent)
    (h₁ : deal.fee_percent ≤ 1) : 0 ≤ deal.feeRate ∧ deal.feeRate ≤ 1 := by
  unfold feeRate defaultFeePercent
  split
  · norm_num
  · exact ⟨h₀, h₁⟩

/-- `_refetch_as_dict` -/
def refetchAsDict (deal_id : Id) : Program EscrowDeal := do
  let deal ← EscrowRepository.getById deal_id
  orRaise (.RuntimeError "Escrow %s vanished after state transition" [.int deal_id]) deal

/-- `_adjust_trust` -/
def adjustTrust (agent_id : Id) (delta : ℤ) : Program Unit :=
  onlyIf (delta ≠ 0) do
    let now ← now
    update (Key.reputation agent_id) (fun _ => true) fun row =>
      { row with
        trust_score :=
          if row.trust_score + delta < 0 then 0
          else if row.trust_score + delta > 100 then 100
          else row.trust_score + delta
        calculated_at := some now }

/-- `_apply_completion_trust` -/
def applyCompletionTrust (buyer_id seller_id : Id) (release_amount escrow_amount : ℚ) :
    Program Unit :=
  if escrow_amount ≤ 0 then return
  else if release_amount = escrow_amount then do
    adjustTrust seller_id 1
    adjustTrust buyer_id 1
  else if release_amount = 0 then
    adjustTrust seller_id (-2)
  else if release_amount / escrow_amount > 1 / 2 then
    adjustTrust seller_id 1
  else
    adjustTrust seller_id (-1)

/-- `_record_fee` -/
def recordFee (col : Columns) (deal_id : Id) (token : Token) (fee_amount : ℚ) :
    Program Unit :=
  onlyIf (0 < fee_amount) (insert (Entry.fee
    { source_type := "escrow", source_id := some deal_id, amount := col 12 fee_amount, token
      status := .PENDING }))

/-- Activate the milestone, if there is one and it is `PENDING`. -/
def activateNext (escrow_id : Id) (sequence : ℕ) : Program Unit := do
  let ms ← MilestoneRepository.getByEscrowAndSequence escrow_id sequence
  match ms with
  | none => return
  | some ms =>
      onlyIf (ms.status = .PENDING)
        (MilestoneRepository.activate escrow_id sequence ms.delivery_timeout_hours)

/-- What `release_milestone` returns. -/
structure MilestoneRelease where
  milestone_sequence : ℕ
  released_to_seller : ℚ
  fee : ℚ
  seller_received : ℚ
  deal_status : EscrowStatus
  deal_total_released : ℚ
  deal_total_fees : ℚ

namespace EscrowService

variable (col : Columns)

/-! ## Deals -/

/-- `deal_id` is the fresh identifier of the row. -/
def createEscrow (deal_id buyer_id seller_id : Id) (amount : ℚ) (description : String)
    (accept_timeout_hours delivery_timeout_hours review_timeout_hours : ℤ)
    (milestones : Option (List MilestoneData)) : Program EscrowDeal := do
  raiseIf (buyer_id = seller_id) (.ValueError "Buyer and seller must be different agents")
  raiseIf (amount ≤ 0) (.ValueError "Amount must be positive")
  let milestone_total := ((milestones.getD []).map (·.amount)).sum
  raiseIf (milestones.isSome ∧ milestone_total ≠ amount)
    (.ValueError "Sum of milestone amounts (%s) must equal deal amount (%s)"
      [.dec milestone_total, .dec amount])
  let seller ← AgentRepository.getById seller_id
  let seller ← orRaise (.LookupError "Seller not found") seller
  raiseIf (seller.is_active = false) (.ValueError "Seller is not active")
  let _ ← BalanceRepository.deduct col buyer_id amount .XMR (.escrow deal_id)
  let fee_percent := computeFeePercent
  let deal ← EscrowRepository.create col deal_id buyer_id seller_id amount description
    accept_timeout_hours delivery_timeout_hours review_timeout_hours fee_percent
  match milestones with
  | none => return deal
  | some milestones =>
      let setup (deal : EscrowDeal) : EscrowDeal :=
        { deal with
          is_multi_milestone := true, milestone_count := milestones.length
          current_milestone := 1, total_released := 0, total_fees := 0 }
      assign (Key.deal deal_id) setup
      MilestoneRepository.createMilestones col deal_id milestones
      return setup deal

def acceptEscrow (escrow_id seller_id : Id) : Program EscrowDeal := do
  let deal ← EscrowRepository.getByIdForUpdate escrow_id
  let deal ← orRaise (.LookupError "Escrow not found") deal
  raiseIf (deal.seller_id ≠ seller_id)
    (.PermissionError "Only the seller can accept this escrow")
  raiseIf (deal.status ≠ .CREATED)
    (.ValueError "Cannot accept escrow in '%s' state" [.str deal.status.value])
  let now ← now
  raiseIf (∃ t ∈ deal.accept_deadline, t < now) (.ValueError "Accept deadline has passed")
  let seller ← AgentRepository.getById seller_id
  raiseIf (∃ s ∈ seller, s.is_active = false) (.ValueError "Seller agent has been deactivated")
  let _ ← EscrowRepository.accept escrow_id deal.delivery_timeout_hours
  onlyIf deal.is_multi_milestone (activateNext escrow_id 1)
  refetchAsDict escrow_id

def deliverEscrow (escrow_id seller_id : Id) : Program EscrowDeal := do
  let deal ← EscrowRepository.getByIdForUpdate escrow_id
  let deal ← orRaise (.LookupError "Escrow not found") deal
  raiseIf deal.is_multi_milestone
    (.ValueError "Use /milestones/\x7bn\x7d/deliver for multi-milestone escrows")
  raiseIf (deal.seller_id ≠ seller_id) (.PermissionError "Only the seller can mark delivery")
  raiseIf (deal.status ≠ .ACCEPTED)
    (.ValueError "Cannot deliver escrow in '%s' state" [.str deal.status.value])
  let _ ← EscrowRepository.deliver escrow_id deal.review_timeout_hours
  refetchAsDict escrow_id

def releaseEscrow (escrow_id buyer_id : Id) (release_amount : ℚ) : Program EscrowDeal := do
  let deal ← EscrowRepository.getByIdForUpdate escrow_id
  let deal ← orRaise (.LookupError "Escrow not found") deal
  raiseIf deal.is_multi_milestone
    (.ValueError "Use /milestones/\x7bn\x7d/release for multi-milestone escrows")
  raiseIf (deal.buyer_id ≠ buyer_id) (.PermissionError "Only the buyer can release escrow")
  raiseIf (deal.status ≠ .DELIVERED)
    (.ValueError "Cannot release escrow in '%s' state" [.str deal.status.value])
  raiseIf (release_amount < 0 ∨ deal.amount < release_amount)
    (.ValueError "Release amount must be between 0 and %s" [.dec deal.amount])
  let fee_amount := release_amount * deal.feeRate
  let seller_receives := release_amount - fee_amount
  let refund_amount := deal.amount - release_amount
  onlyIf (0 < seller_receives)
    (BalanceRepository.credit col deal.seller_id seller_receives deal.token (.escrow escrow_id))
  onlyIf (0 < refund_amount)
    (BalanceRepository.credit col deal.buyer_id refund_amount deal.token (.escrow escrow_id))
  recordFee col escrow_id deal.token fee_amount
  let _ ← EscrowRepository.release col escrow_id release_amount fee_amount
  applyCompletionTrust deal.buyer_id deal.seller_id release_amount deal.amount
  refetchAsDict escrow_id

def cancelEscrow (escrow_id buyer_id : Id) : Program EscrowDeal := do
  let deal ← EscrowRepository.getByIdForUpdate escrow_id
  let deal ← orRaise (.LookupError "Escrow not found") deal
  raiseIf (deal.buyer_id ≠ buyer_id) (.PermissionError "Only the buyer can cancel this escrow")
  raiseIf (deal.status ≠ .CREATED)
    (.ValueError "Cannot cancel escrow in '%s' state" [.str deal.status.value])
  let _ ← BalanceRepository.credit col deal.buyer_id deal.amount deal.token (.escrow escrow_id)
  let _ ← EscrowRepository.cancel escrow_id
  refetchAsDict escrow_id

/-! ## Milestones -/

def deliverMilestone (escrow_id : Id) (milestone_seq : ℕ) (seller_id : Id) :
    Program EscrowMilestone := do
  let deal ← EscrowRepository.getByIdForUpdate escrow_id
  let deal ← orRaise (.LookupError "Escrow not found") deal
  raiseIf (deal.is_multi_milestone = false)
    (.ValueError "This escrow does not have milestones")
  raiseIf (deal.seller_id ≠ seller_id)
    (.PermissionError "Only the seller can deliver milestones")
  raiseIf (deal.status ≠ .ACCEPTED)
    (.ValueError "Cannot deliver milestone: deal is in '%s' state" [.str deal.status.value])
  let ms ← MilestoneRepository.getByEscrowAndSequenceForUpdate escrow_id milestone_seq
  let ms ← orRaise (.LookupError "Milestone #%s not found" [.int milestone_seq]) ms
  raiseIf (ms.status ≠ .ACTIVE)
    (.ValueError "Cannot deliver milestone in '%s' state (must be 'active')"
      [.str ms.status.value])
  let rows ← MilestoneRepository.deliver escrow_id milestone_seq ms.review_timeout_hours
  raiseIf (rows = false)
    (.ValueError "Milestone state transition failed (concurrent update)")
  let ms_fresh ← MilestoneRepository.getByEscrowAndSequence escrow_id milestone_seq
  orRaise (.AttributeError "'NoneType' object has no attribute 'status'") ms_fresh

/-- The end of a milestone: the deal is completed with its last milestone, and otherwise the
next milestone is activated. `release_milestone` and `_auto_release_milestone` both end so. -/
def advance (escrow_id : Id) (deal : EscrowDeal) (milestone_seq : ℕ)
    (new_released new_fees : ℚ) : Program Unit := do
  let all_milestones ← MilestoneRepository.getByEscrow escrow_id
  let completed_count := all_milestones.countP fun m =>
    m.2.status = .COMPLETED ∨ m.1 = milestone_seq
  if deal.milestone_count ≤ completed_count then
    let now ← now
    let _ ← update (Key.deal escrow_id) (fun _ => true) fun deal =>
      { deal with
        status := .COMPLETED, total_released := col 12 new_released
        total_fees := col 12 new_fees, release_amount := some (col 12 new_released)
        fee_amount := col 12 new_fees, completed_at := some now }
    applyCompletionTrust deal.buyer_id deal.seller_id new_released deal.amount
    MilestoneRepository.cancelPending escrow_id
  else
    let next_seq := milestone_seq + 1
    let _ ← update (Key.deal escrow_id) (fun _ => true) fun deal =>
      { deal with
        total_released := col 12 new_released, total_fees := col 12 new_fees
        current_milestone := next_seq }
    activateNext escrow_id next_seq

def releaseMilestone (escrow_id : Id) (milestone_seq : ℕ) (buyer_id : Id) (release_amount : ℚ) :
    Program MilestoneRelease := do
  let deal ← EscrowRepository.getByIdForUpdate escrow_id
  let deal ← orRaise (.LookupError "Escrow not found") deal
  raiseIf (deal.is_multi_milestone = false)
    (.ValueError "This escrow does not have milestones")
  raiseIf (deal.buyer_id ≠ buyer_id)
    (.PermissionError "Only the buyer can release milestones")
  raiseIf (deal.status ≠ .ACCEPTED)
    (.ValueError "Cannot release milestone: deal is in '%s' state" [.str deal.status.value])
  let ms ← MilestoneRepository.getByEscrowAndSequenceForUpdate escrow_id milestone_seq
  let ms ← orRaise (.LookupError "Milestone #%s not found" [.int milestone_seq]) ms
  raiseIf (ms.status ≠ .DELIVERED)
    (.ValueError "Cannot release milestone in '%s' state (must be 'delivered')"
      [.str ms.status.value])
  raiseIf (release_amount < 0 ∨ ms.amount < release_amount)
    (.ValueError "Release amount must be between 0 and %s" [.dec ms.amount])
  let fee_amount := release_amount * deal.feeRate
  let seller_receives := release_amount - fee_amount
  let refund_amount := ms.amount - release_amount
  onlyIf (0 < seller_receives)
    (BalanceRepository.credit col deal.seller_id seller_receives deal.token (.escrow escrow_id))
  onlyIf (0 < refund_amount)
    (BalanceRepository.credit col deal.buyer_id refund_amount deal.token (.escrow escrow_id))
  recordFee col escrow_id deal.token fee_amount
  let rows ← MilestoneRepository.release col escrow_id milestone_seq release_amount fee_amount
  raiseIf (rows = false)
    (.ValueError "Milestone state transition failed (concurrent update)")
  advance col escrow_id deal milestone_seq (deal.total_released + release_amount)
    (deal.total_fees + fee_amount)
  let deal_fresh ← EscrowRepository.getById escrow_id
  let deal_fresh ← orRaise (.AttributeError "'NoneType' object has no attribute 'status'")
    deal_fresh
  return {
    milestone_sequence := milestone_seq
    released_to_seller := release_amount
    fee := fee_amount
    seller_received := seller_receives
    deal_status := deal_fresh.status
    deal_total_released := deal_fresh.total_released
    deal_total_fees := deal_fresh.total_fees }

/-! ## Expiry -/

/-- `_expire_not_accepted`: refund the buyer. -/
def expireNotAccepted (deal_id : Id) (deal : EscrowDeal) : Program Bool := do
  let rows ← EscrowRepository.expire deal_id
  if rows = false then return false
  let _ ← BalanceRepository.credit col deal.buyer_id deal.amount deal.token (.escrow deal_id)
  let _ ← refetchAsDict deal_id
  return true

/-- `_expire_not_delivered`: refund the buyer, and the seller loses trust. -/
def expireNotDelivered (deal_id : Id) (deal : EscrowDeal) : Program Bool := do
  let rows ← EscrowRepository.expire deal_id
  if rows = false then return false
  let _ ← BalanceRepository.credit col deal.buyer_id deal.amount deal.token (.escrow deal_id)
  adjustTrust deal.seller_id (-3)
  let _ ← refetchAsDict deal_id
  return true

/-- `_auto_release_full`: everything goes to the seller. -/
def autoReleaseFull (deal_id : Id) (deal : EscrowDeal) : Program Bool := do
  let fee_amount := deal.amount * deal.feeRate
  let seller_receives := deal.amount - fee_amount
  let rows ← EscrowRepository.release col deal_id deal.amount fee_amount
  if rows = false then return false
  onlyIf (0 < seller_receives)
    (BalanceRepository.credit col deal.seller_id seller_receives deal.token (.escrow deal_id))
  recordFee col deal_id deal.token fee_amount
  applyCompletionTrust deal.buyer_id deal.seller_id deal.amount deal.amount
  let _ ← refetchAsDict deal_id
  return true

/-- `_resolve_single` -/
def resolveSingle (deal_id : Id) : Program Bool := do
  let locked ← EscrowRepository.getByIdForUpdate deal_id
  match locked with
  | none => return false
  | some locked =>
      match locked.status with
      | .CREATED => expireNotAccepted col deal_id locked
      | .ACCEPTED => expireNotDelivered col deal_id locked
      | .DELIVERED => autoReleaseFull col deal_id locked
      | _ => return false

/-- `_expire_active_milestone`: the rest of the deal goes back to the buyer. -/
def expireActiveMilestone (deal_id : Id) (deal : EscrowDeal) (sequence : ℕ) : Program Bool := do
  let rows ← MilestoneRepository.expire deal_id sequence
  if rows = false then return false
  MilestoneRepository.cancelPending deal_id
  let remaining := deal.amount - deal.total_released - deal.total_fees
  onlyIf (0 < remaining)
    (BalanceRepository.credit col deal.buyer_id remaining deal.token (.escrow deal_id))
  let end_status := if sequence = 1 then EscrowStatus.EXPIRED else .PARTIALLY_COMPLETED
  let now ← now
  let _ ← update (Key.deal deal_id) (fun _ => true) fun deal =>
    { deal with status := end_status, completed_at := some now }
  adjustTrust deal.seller_id (-3)
  let _ ← refetchAsDict deal_id
  return true

/-- `_auto_release_milestone`: the milestone goes to the seller. -/
def autoReleaseMilestone (deal_id : Id) (deal : EscrowDeal) (sequence : ℕ)
    (ms : EscrowMilestone) : Program Bool := do
  let fee_amount := ms.amount * deal.feeRate
  let seller_receives := ms.amount - fee_amount
  let rows ← MilestoneRepository.release col deal_id sequence ms.amount fee_amount
  if rows = false then return false
  onlyIf (0 < seller_receives)
    (BalanceRepository.credit col deal.seller_id seller_receives deal.token (.escrow deal_id))
  recordFee col deal_id deal.token fee_amount
  advance col deal_id deal sequence (deal.total_released + ms.amount)
    (deal.total_fees + fee_amount)
  let _ ← refetchAsDict deal_id
  return true

/-- `_resolve_milestone_expiry` -/
def resolveMilestoneExpiry (escrow_id : Id) (sequence : ℕ) : Program Bool := do
  let deal ← EscrowRepository.getByIdForUpdate escrow_id
  match deal with
  | none => return false
  | some deal =>
      if deal.status ≠ .ACCEPTED then return false
      let locked_ms ← MilestoneRepository.getByEscrowAndSequenceForUpdate escrow_id sequence
      match locked_ms with
      | none => return false
      | some locked_ms =>
          match locked_ms.status with
          | .ACTIVE => expireActiveMilestone col escrow_id deal sequence
          | .DELIVERED => autoReleaseMilestone col escrow_id deal sequence locked_ms
          | _ => return false

/-- One sweep. A deal or a milestone that raises is logged and skipped. -/
def resolveExpired : Program ℕ := do
  let deals ← EscrowRepository.getPendingExpiry
  let resolved ← tally deals fun deal_id =>
    tryCatch (resolveSingle col deal_id) fun _ => return false
  let milestones ← MilestoneRepository.getPendingMilestoneExpiry
  let resolved_milestones ← tally milestones fun (escrow_id, sequence) =>
    tryCatch (resolveMilestoneExpiry col escrow_id sequence) fun _ => return false
  return resolved + resolved_milestones

end EscrowService

end Sthrip
