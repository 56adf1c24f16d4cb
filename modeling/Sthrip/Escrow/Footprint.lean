import Sthrip.Services.EscrowService
import Sthrip.Txn.Footprint

set_option autoImplicit false

/-! # The statements of the escrow service

What the methods of `EscrowService` can do to the tables, read off their text: each method runs only
statements that satisfy a condition, when the condition allows the few kinds of statements below
(`EscrowService.Allows`). The proofs about interleaved sessions use this for the methods that do not
touch the rows they speak of.
-/

namespace Sthrip

open Txn Prog

/-- The updates of a deal, other than its expiry. -/
inductive DealUpdate : (EscrowDeal → Bool) → (EscrowDeal → EscrowDeal) → Prop where
  | accept (now delivery_deadline : Time) : DealUpdate (fun deal => deal.status = .CREATED)
      fun deal => { deal with
        status := .ACCEPTED, accepted_at := some now
        delivery_deadline := some delivery_deadline, expires_at := some delivery_deadline }
  | deliver (now review_deadline : Time) : DealUpdate (fun deal => deal.status = .ACCEPTED)
      fun deal => { deal with
        status := .DELIVERED, delivered_at := some now
        review_deadline := some review_deadline, expires_at := some review_deadline }
  | release (now : Time) (release_amount fee_amount : ℚ) :
      DealUpdate (fun deal => deal.status = .DELIVERED) fun deal => { deal with
        status := .COMPLETED, release_amount := some release_amount
        fee_amount := fee_amount, completed_at := some now }
  | cancel (now : Time) : DealUpdate (fun deal => deal.status = .CREATED)
      fun deal => { deal with status := .CANCELLED, cancelled_at := some now }
  | complete (now : Time) (released fees : ℚ) : DealUpdate (fun _ => true) fun deal => { deal with
      status := .COMPLETED, total_released := released
      total_fees := fees, release_amount := some released
      fee_amount := fees, completed_at := some now }
  | next (released fees : ℚ) (sequence : ℕ) : DealUpdate (fun _ => true) fun deal => { deal with
      total_released := released, total_fees := fees, current_milestone := sequence }
  | close (now : Time) {status : EscrowStatus} :
      status = .EXPIRED ∨ status = .PARTIALLY_COMPLETED →
      DealUpdate (fun _ => true) fun deal => { deal with status := status, completed_at := some now }

/-- The updates of a milestone. -/
inductive MilestoneUpdate : (EscrowMilestone → Bool) → (EscrowMilestone → EscrowMilestone) → Prop where
  | activate (now delivery_deadline : Time) : MilestoneUpdate (fun ms => ms.status = .PENDING)
      fun ms => { ms with
        status := .ACTIVE, activated_at := some now
        delivery_deadline := some delivery_deadline, expires_at := some delivery_deadline }
  | deliver (now review_deadline : Time) : MilestoneUpdate (fun ms => ms.status = .ACTIVE)
      fun ms => { ms with
        status := .DELIVERED, delivered_at := some now
        review_deadline := some review_deadline, expires_at := some review_deadline }
  | release (now : Time) (release_amount fee_amount : ℚ) :
      MilestoneUpdate (fun ms => ms.status = .DELIVERED) fun ms => { ms with
        status := .COMPLETED, release_amount := some release_amount
        fee_amount := fee_amount, completed_at := some now }
  | expire (now : Time) : MilestoneUpdate (fun ms => ms.status = .ACTIVE)
      fun ms => { ms with status := .EXPIRED, expires_at := some now }
  | cancel (now : Time) : MilestoneUpdate (fun ms => ms.status = .PENDING)
      fun ms => { ms with status := .CANCELLED, cancelled_at := some now }

/-- The update of `EscrowRepository.expire`. -/
def expireUpdate (deal_id : Id) (now : Time) : Stmt schema :=
  .update (Key.deal deal_id) (fun deal => deal.status ∈ [.CREATED, .ACCEPTED])
    fun deal => { deal with status := .EXPIRED, completed_at := some now }

namespace EscrowService

variable {ok : Stmt schema → Prop} {col : Columns} {e : Id}

/-- The statements of the methods for the deal `e`, other than those of an expiry, satisfy `ok`. -/
structure Allows (ok : Stmt schema → Prop) (e : Id) : Prop where
  now : ok .now
  select : ∀ k, ok (.select k)
  scan : ∀ p, ok (.scan p)
  lock : ok (.selectForUpdate (Key.deal e))
  update : ∀ guard set, DealUpdate guard set → ok (.update (Key.deal e) guard set)
  lockMilestone : ∀ e' j, ok (.selectForUpdate (Key.milestone e' j))
  updateMilestone : ∀ e' j guard set, MilestoneUpdate guard set →
    ok (.update (Key.milestone e' j) guard set)
  balance : ∀ agent_id token, BalanceRepository.Allows ok agent_id token
  posting : ∀ p : Posting, p.ref = .escrow e → ok (.insert (.posting p))
  fee : ∀ f : FeeCollection, f.source_id = some e → ok (.insert (.fee f))
  reputation : ∀ agent_id guard set, ok (.update (Key.reputation agent_id) guard set)

/-- Those of them that touch neither balances nor fees satisfy `ok`. -/
structure Quiet (ok : Stmt schema → Prop) (e : Id) : Prop where
  now : ok .now
  select : ∀ k, ok (.select k)
  scan : ∀ p, ok (.scan p)
  update : ∀ guard set, DealUpdate guard set → ok (.update (Key.deal e) guard set)
  updateMilestone : ∀ e' j guard set, MilestoneUpdate guard set →
    ok (.update (Key.milestone e' j) guard set)
  reputation : ∀ agent_id guard set, ok (.update (Key.reputation agent_id) guard set)

theorem Allows.quiet (h : Allows ok e) : Quiet ok e :=
  ⟨h.now, h.select, h.scan, h.update, h.updateMilestone, h.reputation⟩

section

variable (h : Quiet ok e)
include h

theorem refetch_only : (refetchAsDict e).only ok :=
  only_bind (only_stmt (h.select _)) fun _ => only_orRaise

theorem adjustTrust_only (agent_id : Id) (delta : ℤ) : (adjustTrust agent_id delta).only ok :=
  only_onlyIf (only_bind (only_stmt h.now) fun _ =>
    only_bind (only_stmt (h.reputation ..)) fun _ => trivial)

theorem applyCompletionTrust_only (buyer_id seller_id : Id) (release_amount amount : ℚ) :
    (applyCompletionTrust buyer_id seller_id release_amount amount).only ok := by
  unfold applyCompletionTrust
  split
  · trivial
  · split
    · exact only_bind (adjustTrust_only h ..) fun _ => adjustTrust_only h ..
    · split
      · exact adjustTrust_only h ..
      · split
        · exact adjustTrust_only h ..
        · exact adjustTrust_only h ..

theorem activateNext_only (sequence : ℕ) : (activateNext e sequence).only ok := by
  refine only_bind (only_stmt (h.select _)) fun ms => ?_
  cases ms with
  | none => trivial
  | some ms =>
      refine only_onlyIf (only_bind (only_stmt h.now) fun now => ?_)
      exact only_bind (only_stmt (h.updateMilestone _ _ _ _ (.activate now _))) fun _ => trivial

theorem releaseDeal_only (release_amount fee_amount : ℚ) :
    (EscrowRepository.release col e release_amount fee_amount).only ok :=
  only_bind (only_stmt h.now) fun now => only_stmt (h.update _ _ (.release now ..))

theorem releaseRow_only (sequence : ℕ) (release_amount fee_amount : ℚ) :
    (MilestoneRepository.release col e sequence release_amount fee_amount).only ok :=
  only_bind (only_stmt h.now) fun now => only_stmt (h.updateMilestone _ _ _ _ (.release now ..))

theorem cancelPending_only : (MilestoneRepository.cancelPending e).only ok := by
  refine only_bind (only_stmt h.now) fun now => only_bind (only_stmt (h.scan _)) fun keys => ?_
  refine only_forEach keys fun k => ?_
  split
  · exact only_bind (only_stmt (h.updateMilestone _ _ _ _ (.cancel now))) fun _ => trivial
  · trivial

theorem advance_only (deal : EscrowDeal) (milestone_seq : ℕ) (new_released new_fees : ℚ) :
    (advance col e deal milestone_seq new_released new_fees).only ok := by
  refine only_bind (only_bind (only_query (h.scan _) h.select) fun _ => trivial) fun ms => ?_
  dsimp only
  split
  · refine only_bind (only_stmt h.now) fun now => ?_
    refine only_bind (only_stmt (h.update _ _ (.complete now ..))) fun _ => ?_
    exact only_bind (applyCompletionTrust_only h ..) fun _ => cancelPending_only h
  · exact only_bind (only_stmt (h.update _ _ (.next ..))) fun _ => activateNext_only h _

end

section

variable (h : Allows ok e)
include h

theorem recordFee_only (token : Token) (fee_amount : ℚ) :
    (recordFee col e token fee_amount).only ok :=
  only_onlyIf (only_stmt (h.fee _ rfl))

theorem creditEscrow_only (agent_id : Id) (amount : ℚ) (token : Token) :
    (BalanceRepository.credit col agent_id amount token (.escrow e)).only ok :=
  BalanceRepository.credit_only (h.balance ..) (h.posting _ rfl)

theorem acceptEscrow_only (seller_id : Id) : (acceptEscrow e seller_id).only ok := by
  refine only_bind (only_stmt h.lock) fun deal => only_bind only_orRaise fun deal => ?_
  refine only_bind only_raiseIf fun _ => only_bind only_raiseIf fun _ => ?_
  refine only_bind (only_stmt h.now) fun now => only_bind only_raiseIf fun _ => ?_
  refine only_bind (only_stmt (h.select _)) fun seller => only_bind only_raiseIf fun _ => ?_
  refine only_bind (only_bind (only_stmt h.now) fun t => only_stmt (h.update _ _ (.accept t _)))
    fun _ => ?_
  exact only_bind (only_onlyIf (activateNext_only h.quiet 1)) fun _ => refetch_only h.quiet

theorem deliverEscrow_only (seller_id : Id) : (deliverEscrow e seller_id).only ok := by
  refine only_bind (only_stmt h.lock) fun deal => only_bind only_orRaise fun deal => ?_
  refine only_bind only_raiseIf fun _ => only_bind only_raiseIf fun _ => ?_
  refine only_bind only_raiseIf fun _ => ?_
  refine only_bind (only_bind (only_stmt h.now) fun t => only_stmt (h.update _ _ (.deliver t _)))
    fun _ => refetch_only h.quiet

theorem releaseEscrow_only (buyer_id : Id) (release_amount : ℚ) :
    (releaseEscrow col e buyer_id release_amount).only ok := by
  refine only_bind (only_stmt h.lock) fun deal => only_bind only_orRaise fun deal => ?_
  refine only_bind only_raiseIf fun _ => only_bind only_raiseIf fun _ => ?_
  refine only_bind only_raiseIf fun _ => only_bind only_raiseIf fun _ => ?_
  refine only_bind (only_onlyIf (creditEscrow_only h ..)) fun _ => ?_
  refine only_bind (only_onlyIf (creditEscrow_only h ..)) fun _ => ?_
  refine only_bind (recordFee_only h ..) fun _ => only_bind (releaseDeal_only h.quiet ..) fun _ => ?_
  exact only_bind (applyCompletionTrust_only h.quiet ..) fun _ => refetch_only h.quiet

theorem cancelEscrow_only (buyer_id : Id) : (cancelEscrow col e buyer_id).only ok := by
  refine only_bind (only_stmt h.lock) fun deal => only_bind only_orRaise fun deal => ?_
  refine only_bind only_raiseIf fun _ => only_bind only_raiseIf fun _ => ?_
  refine only_bind (creditEscrow_only h ..) fun _ => ?_
  refine only_bind (only_bind (only_stmt h.now) fun t => only_stmt (h.update _ _ (.cancel t)))
    fun _ => refetch_only h.quiet

/-! ## Milestones -/

theorem deliverMilestone_only (milestone_seq : ℕ) (seller_id : Id) :
    (deliverMilestone e milestone_seq seller_id).only ok := by
  refine only_bind (only_stmt h.lock) fun deal => only_bind only_orRaise fun deal => ?_
  refine only_bind only_raiseIf fun _ => only_bind only_raiseIf fun _ => ?_
  refine only_bind only_raiseIf fun _ => only_bind (only_stmt (h.lockMilestone ..)) fun ms => ?_
  refine only_bind only_orRaise fun ms => only_bind only_raiseIf fun _ => ?_
  refine only_bind
    (only_bind (only_stmt h.now) fun t => only_stmt (h.updateMilestone _ _ _ _ (.deliver t _)))
    fun rows => only_bind only_raiseIf fun _ => ?_
  exact only_bind (only_stmt (h.select _)) fun ms => only_orRaise

theorem releaseMilestone_only (milestone_seq : ℕ) (buyer_id : Id) (release_amount : ℚ) :
    (releaseMilestone col e milestone_seq buyer_id release_amount).only ok := by
  refine only_bind (only_stmt h.lock) fun deal => only_bind only_orRaise fun deal => ?_
  refine only_bind only_raiseIf fun _ => only_bind only_raiseIf fun _ => ?_
  refine only_bind only_raiseIf fun _ => only_bind (only_stmt (h.lockMilestone ..)) fun ms => ?_
  refine only_bind only_orRaise fun ms => only_bind only_raiseIf fun _ => ?_
  refine only_bind only_raiseIf fun _ => ?_
  refine only_bind (only_onlyIf (creditEscrow_only h ..)) fun _ => ?_
  refine only_bind (only_onlyIf (creditEscrow_only h ..)) fun _ => ?_
  refine only_bind (recordFee_only h ..) fun _ => ?_
  refine only_bind (releaseRow_only h.quiet ..) fun rows => only_bind only_raiseIf fun _ => ?_
  refine only_bind (advance_only h.quiet ..) fun _ => only_bind (only_stmt (h.select _)) fun deal => ?_
  exact only_bind only_orRaise fun deal => trivial

theorem autoReleaseFull_only (deal : EscrowDeal) : (autoReleaseFull col e deal).only ok := by
  refine only_bind (releaseDeal_only h.quiet ..) fun rows => ?_
  split
  · trivial
  · refine only_bind (only_onlyIf (creditEscrow_only h ..)) fun _ => ?_
    refine only_bind (recordFee_only h ..) fun _ => ?_
    refine only_bind (applyCompletionTrust_only h.quiet ..) fun _ => ?_
    exact only_bind (refetch_only h.quiet) fun _ => trivial

theorem expireActiveMilestone_only (deal : EscrowDeal) (sequence : ℕ) :
    (expireActiveMilestone col e deal sequence).only ok := by
  refine only_bind (only_bind (only_stmt h.now) fun t => only_stmt (h.updateMilestone _ _ _ _ (.expire t)))
    fun rows => ?_
  split
  · trivial
  · refine only_bind (cancelPending_only h.quiet) fun _ => ?_
    refine only_bind (only_onlyIf (creditEscrow_only h ..)) fun _ => ?_
    refine only_bind (only_stmt h.now) fun now => ?_
    have hend : (if sequence = 1 then EscrowStatus.EXPIRED else .PARTIALLY_COMPLETED) = .EXPIRED ∨
        (if sequence = 1 then EscrowStatus.EXPIRED else .PARTIALLY_COMPLETED)
          = .PARTIALLY_COMPLETED := by
      split
      · exact .inl rfl
      · exact .inr rfl
    refine only_bind (only_stmt (h.update _ _ (.close now hend))) fun _ => ?_
    refine only_bind (adjustTrust_only h.quiet ..) fun _ => ?_
    exact only_bind (refetch_only h.quiet) fun _ => trivial

theorem autoReleaseMilestone_only (deal : EscrowDeal) (sequence : ℕ) (ms : EscrowMilestone) :
    (autoReleaseMilestone col e deal sequence ms).only ok := by
  refine only_bind (releaseRow_only h.quiet ..) fun rows => ?_
  split
  · trivial
  · refine only_bind (only_onlyIf (creditEscrow_only h ..)) fun _ => ?_
    refine only_bind (recordFee_only h ..) fun _ => only_bind (advance_only h.quiet ..) fun _ => ?_
    exact only_bind (refetch_only h.quiet) fun _ => trivial

theorem resolveMilestoneExpiry_only (sequence : ℕ) :
    (resolveMilestoneExpiry col e sequence).only ok := by
  refine only_bind (only_stmt h.lock) fun deal => ?_
  cases deal with
  | none => trivial
  | some deal =>
      dsimp only
      split
      · trivial
      · refine only_bind (only_stmt (h.lockMilestone ..)) fun ms => ?_
        cases ms with
        | none => trivial
        | some ms =>
            dsimp only
            split
            · exact expireActiveMilestone_only h ..
            · exact autoReleaseMilestone_only h ..
            · trivial

variable (hexpire : ∀ now, ok (expireUpdate e now))
include hexpire

/-! ## Expiry -/

theorem expireNotAccepted_only (deal : EscrowDeal) : (expireNotAccepted col e deal).only ok := by
  refine only_bind (only_bind (only_stmt h.now) fun t => only_stmt (hexpire t)) fun rows => ?_
  split
  · trivial
  · refine only_bind (creditEscrow_only h ..) fun _ => ?_
    exact only_bind (refetch_only h.quiet) fun _ => trivial

theorem expireNotDelivered_only (deal : EscrowDeal) : (expireNotDelivered col e deal).only ok := by
  refine only_bind (only_bind (only_stmt h.now) fun t => only_stmt (hexpire t)) fun rows => ?_
  split
  · trivial
  · refine only_bind (creditEscrow_only h ..) fun _ => only_bind (adjustTrust_only h.quiet ..) fun _ => ?_
    exact only_bind (refetch_only h.quiet) fun _ => trivial

theorem resolveSingle_only : (resolveSingle col e).only ok := by
  refine only_bind (only_stmt h.lock) fun deal => ?_
  cases deal with
  | none => trivial
  | some deal =>
      dsimp only
      split
      · exact expireNotAccepted_only h hexpire deal
      · exact expireNotDelivered_only h hexpire deal
      · exact autoReleaseFull_only h deal
      · trivial

end

/-- A sweep goes through deals of any buyer. -/
theorem resolveExpired_only (h : ∀ e, Allows ok e) (hexpire : ∀ e now, ok (expireUpdate e now))
    (h₀ : Id) : (resolveExpired col).only ok := by
  refine only_bind (only_bind (only_stmt (h h₀).now) fun t => ?_) fun deals => ?_
  · exact only_bind (only_query ((h h₀).scan _) (h h₀).select) fun _ => trivial
  refine only_bind (only_tally deals fun e => ?_) fun n => ?_
  · exact only_tryCatch (resolveSingle_only (h e) (hexpire e)) fun _ => trivial
  refine only_bind (only_bind (only_stmt (h h₀).now) fun t => ?_) fun milestones => ?_
  · exact only_bind (only_query ((h h₀).scan _) (h h₀).select) fun _ => trivial
  refine only_bind (only_tally milestones fun e => ?_) fun n => trivial
  exact only_tryCatch (resolveMilestoneExpiry_only (h e.1) e.2) fun _ => trivial

end EscrowService

end Sthrip
