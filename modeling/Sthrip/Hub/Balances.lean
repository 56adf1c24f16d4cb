import Sthrip.Hub.LifeCycle
import Sthrip.Services.DepositMonitor
import Sthrip.Txn.Preserves
import Sthrip.Api.Withdrawal

set_option autoImplicit false

/-! # No balance is ever negative

A session locks the balance that it writes, but computes the new value from an object that may be older
than the row, so that the update of another session can be lost. Even so nothing negative is written: an
amount is only taken off an object that covers it, and what is put on a balance is not negative. It is read
off the agreements, with fees taken off, so that their amounts are part of the invariant (`NonNeg`).
-/

namespace Sthrip

open Txn Prog

/-- The program leaves nothing negative. -/
abbrev KeepsNonNeg {α : Type} (p : Program α) : Prop := p.preserves NonNeg fun _ => True

/-- Its statements leave nothing negative, whatever they are given. -/
abbrev Harmless {α : Type} (p : Program α) : Prop := p.only (Stmt.keeps NonNeg)

section

variable {α β : Type} {p : Program α} {f : α → Program β} {Q : β → Prop}

theorem harmless_of_aside (h : p.only Aside) : Harmless p := only_mono h fun _ hs => hs.2

theorem harmless_after (h : p.only Aside) (hf : ∀ a, Harmless (f a)) : Harmless (p.bind f) :=
  only_bind (harmless_of_aside h) hf

theorem nonneg_after (h : p.only Aside) (hf : ∀ a, (f a).preserves NonNeg Q) :
    (p.bind f).preserves NonNeg Q := preserves_pass (harmless_of_aside h) hf

end

section

variable {col : Columns} {floats : Floats} {parse : Constructors}
  (hcol : ∀ s x, 0 ≤ x → 0 ≤ col s x)

/-! ## Balances -/

theorem newBalance_nonneg (agent_id : Id) (token : Token) :
    (Stmt.create (S := schema) (Key.balance agent_id token) ({} : AgentBalance)).keeps NonNeg :=
  le_refl (0 : ℚ)

theorem getForUpdate_nonneg (agent_id : Id) (token : Token) :
    (BalanceRepository.getForUpdate agent_id token).preserves NonNeg fun balance =>
      0 ≤ balance.available := by
  refine preserves_lock fun balance hbalance => ?_
  cases balance with
  | some balance => exact hbalance balance rfl
  | none =>
      refine ⟨newBalance_nonneg agent_id token, fun (inserted : Bool) _ => ?_⟩
      cases inserted with
      | true => exact le_refl (0 : ℚ)
      | false => exact preserves_lock fun row hrow => preserves_orRaise hrow

theorem save_harmless {set : AgentBalance → AgentBalance} (hset : ∀ row, 0 ≤ (set row).available)
    (agent_id : Id) (token : Token) (amount : ℚ) (ref : Ref) :
    Harmless (BalanceRepository.save agent_id token set amount ref) :=
  only_bind (only_stmt fun row _ => hset row) fun _ => only_stmt trivial

section

include hcol

/-- The object covers the amount, so that the row does not become negative. -/
theorem deduct_nonneg (agent_id : Id) (amount : ℚ) (token : Token) (ref : Ref) :
    KeepsNonNeg (BalanceRepository.deduct col agent_id amount token ref) := by
  refine preserves_seq (getForUpdate_nonneg ..) fun balance _ => preserves_raiseIf fun hcovered => ?_
  have hleft : 0 ≤ col 12 (balance.available - amount) :=
    hcol _ _ (sub_nonneg.mpr (not_lt.mp hcovered))
  exact preserves_pass (save_harmless (fun _ => hleft) ..) fun _ => trivial

theorem credit_nonneg {amount : ℚ} (h : 0 ≤ amount) (agent_id : Id) (token : Token) (ref : Ref) :
    KeepsNonNeg (BalanceRepository.credit col agent_id amount token ref) := by
  refine preserves_seq (getForUpdate_nonneg ..) fun balance hbalance => ?_
  have hmore : 0 ≤ col 12 (balance.available + amount) := hcol _ _ (add_nonneg hbalance h)
  exact preserves_pass (save_harmless (fun _ => hmore) ..) fun _ => trivial

/-- Nothing is credited unless it is positive. -/
theorem creditPos_nonneg (agent_id : Id) (amount : ℚ) (token : Token) (ref : Ref) :
    KeepsNonNeg (onlyIf (0 < amount) (BalanceRepository.credit col agent_id amount token ref)) :=
  preserves_onlyIf fun h => credit_nonneg hcol h.le ..

end

/-! ## Deals -/

theorem quiet_nonneg (e : Id) : EscrowService.Quiet (Stmt.keeps NonNeg) e where
  now := trivial
  select _ := trivial
  scan _ := trivial
  update _ _ hupdate deal hdeal _ := by
    have hsame := sameTerms_of_dealUpdate hupdate e deal
    exact le_of_le_of_eq hdeal hsame.2.2.1.symm
  updateMilestone _ _ _ _ _ _ _ _ := trivial
  reputation _ _ _ _ _ _ := trivial

theorem recordFee_harmless (e : Id) (token : Token) (fee_amount : ℚ) :
    Harmless (recordFee col e token fee_amount) :=
  only_onlyIf (only_stmt trivial)

theorem acceptEscrow_harmless (e seller_id : Id) : Harmless (EscrowService.acceptEscrow e seller_id) := by
  refine only_bind (only_stmt trivial) fun deal => only_bind only_orRaise fun deal => ?_
  refine only_bind only_raiseIf fun _ => only_bind only_raiseIf fun _ => ?_
  refine only_bind (only_stmt trivial) fun now => only_bind only_raiseIf fun _ => ?_
  refine only_bind (only_stmt trivial) fun seller => only_bind only_raiseIf fun _ => ?_
  refine only_bind (only_bind (only_stmt trivial) fun t => ?_) fun _ => ?_
  · exact only_stmt ((quiet_nonneg e).update _ _ (.accept t _))
  refine only_bind (only_onlyIf (EscrowService.activateNext_only (quiet_nonneg e) 1)) fun _ => ?_
  exact EscrowService.refetch_only (quiet_nonneg e)

theorem deliverEscrow_harmless (e seller_id : Id) :
    Harmless (EscrowService.deliverEscrow e seller_id) := by
  refine only_bind (only_stmt trivial) fun deal => only_bind only_orRaise fun deal => ?_
  refine only_bind only_raiseIf fun _ => only_bind only_raiseIf fun _ => ?_
  refine only_bind only_raiseIf fun _ => ?_
  refine only_bind (only_bind (only_stmt trivial) fun t => ?_) fun _ =>
    EscrowService.refetch_only (quiet_nonneg e)
  exact only_stmt ((quiet_nonneg e).update _ _ (.deliver t _))

theorem deliverMilestone_harmless (e : Id) (milestone_seq : ℕ) (seller_id : Id) :
    Harmless (EscrowService.deliverMilestone e milestone_seq seller_id) := by
  refine only_bind (only_stmt trivial) fun deal => only_bind only_orRaise fun deal => ?_
  refine only_bind only_raiseIf fun _ => only_bind only_raiseIf fun _ => ?_
  refine only_bind only_raiseIf fun _ => only_bind (only_stmt trivial) fun ms => ?_
  refine only_bind only_orRaise fun ms => only_bind only_raiseIf fun _ => ?_
  refine only_bind (only_bind (only_stmt trivial) fun t => only_stmt fun _ _ _ => trivial)
    fun rows => only_bind only_raiseIf fun _ => ?_
  exact only_bind (only_stmt trivial) fun ms => only_orRaise

theorem expireDeal_harmless (e : Id) : Harmless (EscrowRepository.expire e) :=
  only_bind (only_stmt trivial) fun _ => only_stmt fun _ hdeal _ => hdeal

section

include hcol

theorem createEscrow_nonneg (deal_id buyer_id seller_id : Id) (amount : ℚ) (description : String)
    (a b c : ℤ) (milestones : Option (List MilestoneData)) :
    KeepsNonNeg (EscrowService.createEscrow col deal_id buyer_id seller_id amount description a b c
      milestones) := by
  refine preserves_pass only_raiseIf fun _ => preserves_raiseIf fun hpos => ?_
  refine preserves_pass only_raiseIf fun _ => preserves_pass (only_stmt trivial) fun _ => ?_
  refine preserves_pass only_orRaise fun _ => preserves_pass only_raiseIf fun _ => ?_
  have hamount : ∀ s, 0 ≤ col s amount := fun s => hcol s amount (not_le.mp hpos).le
  refine preserves_then (deduct_nonneg hcol ..) fun _ => preserves_of_only (only_bind ?_ fun deal => ?_)
  · exact only_bind (only_stmt trivial) fun _ => only_bind (only_stmt (hamount _)) fun _ =>
      only_bind only_raiseIf fun _ => trivial
  · cases milestones with
    | none => trivial
    | some milestones =>
        refine only_bind (only_stmt fun _ hdeal => hdeal) fun _ => only_bind ?_ fun _ => trivial
        refine only_forEach _ fun m => only_bind only_raiseIf fun _ => ?_
        refine only_bind only_raiseIf fun _ => ?_
        exact only_bind (only_stmt trivial) fun _ => only_raiseIf

theorem releaseEscrow_nonneg (e buyer_id : Id) (release_amount : ℚ) :
    KeepsNonNeg (EscrowService.releaseEscrow col e buyer_id release_amount) := by
  refine preserves_pass (only_stmt trivial) fun _ => preserves_pass only_orRaise fun deal => ?_
  refine preserves_pass only_raiseIf fun _ => preserves_pass only_raiseIf fun _ => ?_
  refine preserves_pass only_raiseIf fun _ => preserves_pass only_raiseIf fun _ => ?_
  refine preserves_then (creditPos_nonneg hcol ..) fun _ => ?_
  refine preserves_then (creditPos_nonneg hcol ..) fun _ => preserves_of_only ?_
  refine only_bind (recordFee_harmless ..) fun _ => ?_
  refine only_bind (EscrowService.releaseDeal_only (quiet_nonneg e) ..) fun _ => ?_
  refine only_bind (EscrowService.applyCompletionTrust_only (quiet_nonneg e) ..) fun _ => ?_
  exact EscrowService.refetch_only (quiet_nonneg e)

theorem cancelEscrow_nonneg (e buyer_id : Id) :
    KeepsNonNeg (EscrowService.cancelEscrow col e buyer_id) := by
  refine preserves_fetch fun deal hdeal => ?_
  refine preserves_pass only_raiseIf fun _ => preserves_pass only_raiseIf fun _ => ?_
  -- an object's amount is not negative, however old it is
  refine preserves_then (credit_nonneg hcol hdeal ..) fun _ => preserves_of_only ?_
  refine only_bind (only_bind (only_stmt trivial) fun t => ?_) fun _ =>
    EscrowService.refetch_only (quiet_nonneg e)
  exact only_stmt ((quiet_nonneg e).update _ _ (.cancel t))

theorem releaseMilestone_nonneg (e : Id) (milestone_seq : ℕ) (buyer_id : Id) (release_amount : ℚ) :
    KeepsNonNeg (EscrowService.releaseMilestone col e milestone_seq buyer_id release_amount) := by
  refine preserves_pass (only_stmt trivial) fun _ => preserves_pass only_orRaise fun deal => ?_
  refine preserves_pass only_raiseIf fun _ => preserves_pass only_raiseIf fun _ => ?_
  refine preserves_pass only_raiseIf fun _ => preserves_pass (only_stmt trivial) fun _ => ?_
  refine preserves_pass only_orRaise fun ms => preserves_pass only_raiseIf fun _ => ?_
  refine preserves_pass only_raiseIf fun _ => ?_
  refine preserves_then (creditPos_nonneg hcol ..) fun _ => ?_
  refine preserves_then (creditPos_nonneg hcol ..) fun _ => preserves_of_only ?_
  refine only_bind (recordFee_harmless ..) fun _ => ?_
  refine only_bind (EscrowService.releaseRow_only (quiet_nonneg e) ..) fun _ => ?_
  refine only_bind only_raiseIf fun _ => ?_
  refine only_bind (EscrowService.advance_only (quiet_nonneg e) ..) fun _ => ?_
  exact only_bind (only_stmt trivial) fun _ => only_bind only_orRaise fun _ => trivial

/-! ### Expiry -/

theorem expireNotAccepted_nonneg {e : Id} {deal : EscrowDeal} (hdeal : 0 ≤ deal.amount) :
    KeepsNonNeg (EscrowService.expireNotAccepted col e deal) := by
  refine preserves_pass (expireDeal_harmless e) fun rows => ?_
  split
  · trivial
  · refine preserves_then (credit_nonneg hcol hdeal ..) fun _ => ?_
    exact preserves_pass (EscrowService.refetch_only (quiet_nonneg e)) fun _ => trivial

theorem expireNotDelivered_nonneg {e : Id} {deal : EscrowDeal} (hdeal : 0 ≤ deal.amount) :
    KeepsNonNeg (EscrowService.expireNotDelivered col e deal) := by
  refine preserves_pass (expireDeal_harmless e) fun rows => ?_
  split
  · trivial
  · refine preserves_then (credit_nonneg hcol hdeal ..) fun _ => ?_
    refine preserves_pass (EscrowService.adjustTrust_only (quiet_nonneg e) ..) fun _ => ?_
    exact preserves_pass (EscrowService.refetch_only (quiet_nonneg e)) fun _ => trivial

theorem autoReleaseFull_nonneg (e : Id) (deal : EscrowDeal) :
    KeepsNonNeg (EscrowService.autoReleaseFull col e deal) := by
  refine preserves_pass (EscrowService.releaseDeal_only (quiet_nonneg e) ..) fun rows => ?_
  split
  · trivial
  · refine preserves_then (creditPos_nonneg hcol ..) fun _ => preserves_of_only ?_
    refine only_bind (recordFee_harmless ..) fun _ => ?_
    refine only_bind (EscrowService.applyCompletionTrust_only (quiet_nonneg e) ..) fun _ => ?_
    exact only_bind (EscrowService.refetch_only (quiet_nonneg e)) fun _ => trivial

theorem resolveSingle_nonneg (e : Id) : KeepsNonNeg (EscrowService.resolveSingle col e) := by
  refine preserves_lock fun deal hdeal => ?_
  cases deal with
  | none => trivial
  | some deal =>
      dsimp only
      split
      · exact expireNotAccepted_nonneg hcol (hdeal deal rfl)
      · exact expireNotDelivered_nonneg hcol (hdeal deal rfl)
      · exact autoReleaseFull_nonneg hcol e deal
      · trivial

theorem expireActiveMilestone_nonneg (e : Id) (deal : EscrowDeal) (sequence : ℕ) :
    KeepsNonNeg (EscrowService.expireActiveMilestone col e deal sequence) := by
  refine preserves_pass (only_bind (only_stmt trivial) fun _ => only_stmt fun _ _ _ => trivial)
    fun rows => ?_
  split
  · trivial
  · refine preserves_pass (EscrowService.cancelPending_only (quiet_nonneg e)) fun _ => ?_
    -- what remains of the deal is paid only if it is positive
    refine preserves_then (creditPos_nonneg hcol ..) fun _ => preserves_of_only ?_
    refine only_bind (only_stmt trivial) fun _ => only_bind (only_stmt fun _ hdeal _ => hdeal) fun _ => ?_
    refine only_bind (EscrowService.adjustTrust_only (quiet_nonneg e) ..) fun _ => ?_
    exact only_bind (EscrowService.refetch_only (quiet_nonneg e)) fun _ => trivial

theorem autoReleaseMilestone_nonneg (e : Id) (deal : EscrowDeal) (sequence : ℕ)
    (ms : EscrowMilestone) :
    KeepsNonNeg (EscrowService.autoReleaseMilestone col e deal sequence ms) := by
  refine preserves_pass (EscrowService.releaseRow_only (quiet_nonneg e) ..) fun rows => ?_
  split
  · trivial
  · refine preserves_then (creditPos_nonneg hcol ..) fun _ => preserves_of_only ?_
    refine only_bind (recordFee_harmless ..) fun _ => ?_
    refine only_bind (EscrowService.advance_only (quiet_nonneg e) ..) fun _ => ?_
    exact only_bind (EscrowService.refetch_only (quiet_nonneg e)) fun _ => trivial

theorem resolveMilestoneExpiry_nonneg (e : Id) (sequence : ℕ) :
    KeepsNonNeg (EscrowService.resolveMilestoneExpiry col e sequence) := by
  refine preserves_pass (only_stmt trivial) fun deal => ?_
  cases deal with
  | none => trivial
  | some deal =>
      dsimp only
      split
      · trivial
      · refine preserves_pass (only_stmt trivial) fun ms => ?_
        cases ms with
        | none => trivial
        | some ms =>
            dsimp only
            split
            · exact expireActiveMilestone_nonneg hcol ..
            · exact autoReleaseMilestone_nonneg hcol ..
            · trivial

/-- One sweep; what a deal raises is caught. -/
theorem resolveExpired_nonneg : KeepsNonNeg (EscrowService.resolveExpired col) := by
  refine nonneg_after (listed_aside ..) fun deals => ?_
  refine preserves_then (preserves_tally deals fun e _ => ?_) fun n => ?_
  · exact preserves_tryCatch (resolveSingle_nonneg hcol e) fun _ => trivial
  refine nonneg_after (listed_aside ..) fun milestones => ?_
  refine preserves_then (preserves_tally milestones fun m _ => ?_) fun _ => trivial
  exact preserves_tryCatch (resolveMilestoneExpiry_nonneg hcol ..) fun _ => trivial

theorem StageCall.body_nonneg (call : StageCall) : KeepsNonNeg (call.body col) := by
  cases call with
  | deal call =>
      cases call with
      | acceptEscrow => exact preserves_pass (acceptEscrow_harmless ..) fun _ => trivial
      | deliverEscrow => exact preserves_pass (deliverEscrow_harmless ..) fun _ => trivial
      | releaseEscrow => exact preserves_then (releaseEscrow_nonneg hcol ..) fun _ => trivial
      | cancelEscrow => exact preserves_then (cancelEscrow_nonneg hcol ..) fun _ => trivial
      | resolveExpired => exact preserves_then (resolveExpired_nonneg hcol) fun _ => trivial
  | deliverMilestone => exact preserves_pass (deliverMilestone_harmless ..) fun _ => trivial
  | releaseMilestone => exact preserves_then (releaseMilestone_nonneg hcol ..) fun _ => trivial

end

/-! ## Contracts and channels -/

section

include hcol

theorem SlaCall.body_nonneg (call : SlaCall) : KeepsNonNeg (call.body col) := by
  cases call with
  | createContract =>
      refine preserves_then (preserves_pass only_raiseIf fun _ => ?_) fun _ => trivial
      refine nonneg_after (getAvailable_aside ..) fun _ => preserves_pass only_raiseIf fun _ => ?_
      refine preserves_then (createEscrow_nonneg hcol ..) fun _ => preserves_of_only ?_
      exact only_bind (only_stmt trivial) fun _ => only_bind only_raiseIf fun _ => trivial
  | acceptContract => exact nonneg_after (acceptContract_aside ..) fun _ => trivial
  | deliverContract => exact nonneg_after (deliverContract_aside ..) fun _ => trivial
  | verifyContract => exact nonneg_after (verifyContract_aside ..) fun _ => trivial
  | disputeContract => exact nonneg_after (disputeContract_aside ..) fun _ => trivial
  | enforceSla => exact nonneg_after enforceSla_aside fun _ => trivial
  | escrow call => exact call.body_nonneg hcol

theorem ChannelCall.body_nonneg (call : ChannelCall) : KeepsNonNeg (call.body col) := by
  cases call with
  | openChannel =>
      refine preserves_then (preserves_pass only_raiseIf fun _ => preserves_pass only_raiseIf fun _ => ?_)
        fun _ => trivial
      refine preserves_then (preserves_onlyIf fun _ => deduct_nonneg hcol ..) fun _ => ?_
      refine preserves_then (preserves_onlyIf fun _ => deduct_nonneg hcol ..) fun _ => ?_
      refine preserves_of_only (only_bind (only_stmt trivial) fun _ => ?_)
      exact only_bind only_raiseIf fun _ => trivial
  | submitUpdate => exact nonneg_after (submitUpdate_aside ..) fun _ => trivial
  | settle => exact nonneg_after (settle_aside ..) fun _ => trivial
  | close =>
      -- a balance of the channel may be negative, and is not paid then
      refine preserves_then (nonneg_after (getAsParticipant_aside ..) fun _ => ?_) fun _ => trivial
      refine nonneg_after (settleIfDue_aside ..) fun _ => preserves_pass only_raiseIf fun _ => ?_
      refine preserves_then (creditPos_nonneg hcol ..) fun _ => ?_
      refine preserves_then (creditPos_nonneg hcol ..) fun _ => ?_
      refine nonneg_after (finalizeClose_aside _) fun _ => ?_
      refine preserves_of_only (only_bind only_raiseIf fun _ => only_bind (only_stmt trivial) fun _ => ?_)
      exact harmless_of_aside (refetchChannel_aside _)
  | dispute => exact nonneg_after (dispute_aside ..) fun _ => trivial
  | autoSettleExpired => exact nonneg_after autoSettleExpired_aside fun _ => trivial

theorem ChannelCall.runAudited_nonneg (call : ChannelCall) : KeepsNonNeg (call.runAudited col) := by
  refine preserves_withSession (preserves_then (call.body_nonneg hcol) fun _ => preserves_of_only ?_)
  cases call with
  | close => exact only_bind (only_stmt trivial) fun _ => only_raiseIf
  | _ => trivial

end

/-! ## Conditional payments -/

/-- Nothing that is locked is negative. -/
theorem conditionals_nonneg {rows : List (Σ k : Key, Row k)} (h : ∀ row ∈ rows, NonNeg row.1 row.2) :
    ∀ p ∈ rows.filterMap ConditionalPaymentRepository.asConditional, 0 ≤ p.2.locked_amount := by
  intro p hp
  obtain ⟨⟨k, row⟩, hmem, hrow⟩ := List.mem_filterMap.mp hp
  cases k with
  | conditional id =>
      obtain rfl := Option.some.inj hrow
      exact h _ hmem
  | _ => cases hrow

section

include hcol

theorem executeConditional_nonneg (payment_id : Id) :
    KeepsNonNeg (ConditionalPaymentService.executePayment col payment_id) := by
  refine preserves_fetch fun payment hpayment => ?_
  refine preserves_then (credit_nonneg hcol hpayment ..) fun _ => preserves_of_only ?_
  refine only_bind ?_ fun _ => ?_
  · exact only_bind (only_stmt trivial) fun now => only_stmt fun _ h _ => h
  · exact only_bind only_raiseIf fun _ => harmless_of_aside (refetchPayment_aside ..)

theorem evaluateConditions_nonneg :
    KeepsNonNeg (ConditionalPaymentService.evaluateConditions col parse) := by
  refine nonneg_after (query_aside _) fun _ => preserves_pass (only_stmt trivial) fun now => ?_
  refine preserves_tally _ fun payment _ => nonneg_after (conditionMet_aside ..) fun met => ?_
  split
  -- the amount is read again when the payment is locked
  · refine nonneg_after (trigger_aside _) fun triggered => ?_
    split
    · exact preserves_then (executeConditional_nonneg hcol _) fun _ => trivial
    · trivial
  · trivial

theorem expireConditionals_nonneg : KeepsNonNeg (ConditionalPaymentService.expireStale col) := by
  refine preserves_seq (preserves_pass (only_stmt trivial) fun _ => ?_)
    fun payments (hpayments : ∀ p ∈ payments, 0 ≤ p.2.locked_amount) => ?_
  · exact preserves_seq preserves_query fun rows hrows => conditionals_nonneg hrows
  -- each payment of the list is credited, whatever has become of it since
  · refine preserves_tally _ fun payment hmem => ?_
    refine preserves_then (credit_nonneg hcol (hpayments _ hmem) ..) fun _ => ?_
    exact preserves_of_only (only_stmt fun _ h _ => h)

/-- The request schema asks for an amount that is not negative. -/
def ConditionalCall.Valid : ConditionalCall → Prop
  | .createConditional _ _ _ amount .. => 0 ≤ amount
  | _ => True

theorem ConditionalCall.body_nonneg {call : ConditionalCall} (hvalid : call.Valid) :
    KeepsNonNeg (call.body col parse) := by
  cases call with
  | createConditional =>
      refine preserves_then (preserves_pass only_raiseIf fun _ => preserves_pass only_raiseIf fun _ => ?_)
        fun _ => trivial
      refine preserves_pass (only_forEach _ fun _ => only_raiseIf) fun _ => ?_
      refine preserves_then (deduct_nonneg hcol ..) fun _ => preserves_of_only ?_
      refine only_bind (only_stmt trivial) fun _ => only_bind (only_stmt ?_) fun _ => ?_
      · exact hcol _ _ hvalid
      · exact only_bind only_raiseIf fun _ => trivial
  | evaluateConditions => exact preserves_then (evaluateConditions_nonneg hcol) fun _ => trivial
  | triggerWebhook =>
      refine preserves_then (preserves_pass (only_stmt trivial) fun _ => ?_) fun _ => trivial
      refine preserves_pass only_orRaise fun _ => preserves_pass only_raiseIf fun _ => ?_
      refine preserves_pass only_raiseIf fun _ => nonneg_after (trigger_aside _) fun _ => ?_
      exact preserves_pass only_raiseIf fun _ => executeConditional_nonneg hcol _
  | cancel =>
      refine preserves_then (preserves_fetch fun payment hpayment => ?_) fun _ => trivial
      refine preserves_pass only_raiseIf fun _ => preserves_pass only_raiseIf fun _ => ?_
      refine preserves_then (credit_nonneg hcol hpayment ..) fun _ => preserves_of_only ?_
      refine only_bind (only_stmt fun _ h _ => h) fun _ => ?_
      exact only_bind only_raiseIf fun _ => harmless_of_aside (refetchPayment_aside ..)
  | expireStale => exact preserves_then (expireConditionals_nonneg hcol) fun _ => trivial
  | loop =>
      refine preserves_then (evaluateConditions_nonneg hcol) fun _ => ?_
      exact preserves_then (expireConditionals_nonneg hcol) fun _ => trivial

end

/-! ## Payments to several recipients -/

/-- What a recipient is to get is not negative. -/
theorem getRecipients_nonneg (payment_id : Id) :
    (MultiPartyRepository.getRecipients payment_id).preserves NonNeg fun rows =>
      ∀ r ∈ rows, 0 ≤ r.2.amount := by
  refine preserves_seq preserves_query fun rows hrows r hr => ?_
  obtain ⟨⟨k, row⟩, hmem, hrow⟩ := List.mem_filterMap.mp hr
  cases k with
  | recipient p a =>
      simp only [MultiPartyRepository.addressed] at hrow
      split at hrow
      · obtain rfl := Option.some.inj hrow
        exact hrows _ hmem
      · cases hrow
  | _ => cases hrow

/-- The amounts are those of the request. -/
theorem resolve_nonneg {recipients : List RecipientData} (h : ∀ r ∈ recipients, 0 ≤ r.amount) :
    (MultiPartyService.resolve recipients).preserves NonNeg fun resolved => ∀ r ∈ resolved, 0 ≤ r.2 := by
  induction recipients with
  | nil =>
      intro r hr
      cases hr
  | cons data recipients ih =>
      refine preserves_pass (harmless_after (query_aside _) fun _ => trivial) fun _ => ?_
      refine preserves_pass only_orRaise fun _ => preserves_pass only_raiseIf fun _ => ?_
      have hrest := ih fun r hr => h r (List.mem_cons_of_mem data hr)
      refine preserves_seq hrest fun resolved hresolved => ?_
      intro r hr
      rcases List.mem_cons.mp hr with rfl | hr
      · exact h data List.mem_cons_self
      · exact hresolved r hr

theorem findPending_nonneg (payment_id agent_id : Id) :
    (MultiPartyService.findPending payment_id agent_id).preserves NonNeg fun found =>
      0 ≤ found.1.total_amount ∧ 0 ≤ found.2.amount := by
  refine preserves_fetch fun payment hpayment => preserves_pass only_raiseIf fun _ => ?_
  refine preserves_seq (getRecipients_nonneg _) fun rows hrows => ?_
  refine preserves_seq (preserves_orRaise (Q := fun r => 0 ≤ r.amount) fun r hr => ?_) fun r hr =>
    ⟨hpayment, hr⟩
  obtain ⟨found, hfound, rfl⟩ := Option.map_eq_some_iff.mp hr
  exact hrows _ (List.mem_of_find?_eq_some hfound)

section

include hcol

theorem accept_nonneg (agent_id payment_id : Id) :
    KeepsNonNeg (MultiPartyService.accept col agent_id payment_id) := by
  refine preserves_seq (findPending_nonneg ..) fun found hfound => ?_
  dsimp only
  split
  · trivial
  refine nonneg_after (acceptRecipient_aside ..) fun _ => ?_
  split
  · trivial
  split
  -- the last to accept pays everyone, by the rows as they are then
  · refine preserves_pass (only_stmt trivial) fun _ =>
      preserves_seq (getRecipients_nonneg _) fun rows hrows => ?_
    split
    · refine preserves_then (preserves_forEach _ fun r hr => ?_) fun _ => ?_
      · exact preserves_then (credit_nonneg hcol (hrows r hr) ..) fun _ => trivial
      · exact nonneg_after (leavePending_aside _ (by decide)) fun _ => trivial
    · trivial
  · refine preserves_then (credit_nonneg hcol hfound.2 ..) fun _ => ?_
    exact nonneg_after (completeIfResponded_aside _) fun _ => trivial

theorem reject_nonneg (agent_id payment_id : Id) :
    KeepsNonNeg (MultiPartyService.reject col agent_id payment_id) := by
  refine preserves_seq (findPending_nonneg ..) fun found hfound => ?_
  refine nonneg_after (rejectRecipient_aside ..) fun _ => preserves_pass only_raiseIf fun _ => ?_
  split
  · refine preserves_then (credit_nonneg hcol hfound.1 ..) fun _ => ?_
    exact nonneg_after (leavePending_aside _ (by decide)) fun _ => trivial
  · refine preserves_then (credit_nonneg hcol hfound.2 ..) fun _ => ?_
    exact nonneg_after (completeIfResponded_aside _) fun _ => trivial

theorem expireOne_nonneg (payment_id : Id) {payment : MultiPartyPayment}
    (hpayment : 0 ≤ payment.total_amount) :
    KeepsNonNeg (MultiPartyService.expireOne col payment_id payment) := by
  have hexpire : KeepsNonNeg ((MultiPartyRepository.expire payment_id).bind fun _ => Prog.ret ()) :=
    nonneg_after (leavePending_aside _ (by decide)) fun _ => trivial
  unfold MultiPartyService.expireOne
  split
  · exact preserves_then (credit_nonneg hcol hpayment ..) fun _ => hexpire
  · refine preserves_seq (getRecipients_nonneg _) fun rows hrows => ?_
    refine preserves_then (preserves_forEach _ fun r hr => ?_) fun _ => hexpire
    exact preserves_onlyIf fun _ => credit_nonneg hcol (hrows r hr) ..

theorem MultiPartyCall.body_nonneg (call : MultiPartyCall) : KeepsNonNeg (call.body col) := by
  cases call with
  | createMultiParty payment_id sender_id recipients currency require_all_accept accept_hours =>
      refine preserves_then (preserves_pass only_raiseIf fun _ => preserves_pass only_raiseIf fun _ => ?_)
        fun _ => trivial
      refine preserves_raiseIf fun hpos => ?_
      have hamounts : ∀ r ∈ recipients, 0 ≤ r.amount := fun r hr =>
        (not_le.mp fun hle => hpos ⟨r, hr, hle⟩).le
      refine preserves_seq (resolve_nonneg hamounts) fun resolved hresolved => ?_
      refine preserves_pass only_raiseIf fun _ => preserves_then (deduct_nonneg hcol ..) fun _ => ?_
      have htotal : 0 ≤ (resolved.map (·.2)).sum :=
        List.sum_nonneg (by simpa using fun _ a ha => hresolved _ ha)
      refine preserves_pass (only_stmt trivial) fun _ => preserves_then ?_ fun _ => ?_
      · refine preserves_pass (only_stmt (hcol _ _ htotal)) fun _ => ?_
        refine preserves_pass only_raiseIf fun _ => ?_
        refine preserves_then (preserves_forEach _ fun r hr => ?_) fun _ => trivial
        exact preserves_of_only (only_bind (only_stmt (hcol _ _ (hresolved r hr))) fun _ => only_raiseIf)
      · exact preserves_seq (getRecipients_nonneg _) fun _ _ => trivial
  | accept => exact preserves_then (accept_nonneg hcol ..) fun _ => trivial
  | reject => exact preserves_then (reject_nonneg hcol ..) fun _ => trivial
  | expireStale =>
      refine preserves_then (preserves_seq (preserves_pass (only_stmt trivial) fun _ => ?_)
        fun payments (hpayments : ∀ p ∈ payments, 0 ≤ p.2.total_amount) => ?_) fun _ => trivial
      · refine preserves_seq preserves_query fun rows hrows p hp => ?_
        obtain ⟨⟨k, row⟩, hmem, hrow⟩ := List.mem_filterMap.mp hp
        cases k with
        | multiParty id =>
            obtain rfl := Option.some.inj hrow
            exact hrows _ hmem
        | _ => cases hrow
      · refine preserves_then (preserves_forEach _ fun p hp => ?_) fun _ => trivial
        exact expireOne_nonneg hcol p.1 (hpayments p hp)

end

/-! ## Loans -/

/-- No offer asks for a negative interest. -/
theorem listActiveOffers_nonneg (currency : Token) (min_amount : ℚ) (max_duration_secs : ℤ) :
    (LoanRepository.listActiveOffers currency min_amount max_duration_secs).preserves NonNeg
      fun offers => ∀ o ∈ offers, 0 ≤ o.interest_rate_bps := by
  refine preserves_pass (only_stmt trivial) fun now => preserves_seq preserves_query fun rows hrows => ?_
  intro o ho
  have hmem := List.mem_of_mem_take ho
  rw [List.mem_mergeSort] at hmem
  obtain ⟨⟨k, row⟩, hfound, hrow⟩ := List.mem_filterMap.mp hmem
  cases k with
  | offer id =>
      obtain rfl := Option.some.inj hrow
      exact hrows _ hfound
  | _ => cases hrow

/-- A hundredth of the interest is less than what is paid back. -/
theorem lenderPayout_nonneg {principal repayment : ℚ} (hprincipal : 0 ≤ principal)
    (hrepayment : 0 ≤ repayment) :
    0 ≤ repayment - (repayment - principal) * platformFeeRate := by
  unfold platformFeeRate
  linarith

section

include hcol

theorem requestLoan_nonneg {amount : ℚ} (hamount : 0 ≤ amount) (loan_id borrower_id : Id)
    (currency : Token) (duration_secs : ℤ) (collateral_amount : ℚ) :
    KeepsNonNeg (CreditService.requestLoan col floats loan_id borrower_id amount currency duration_secs
      collateral_amount) := by
  refine nonneg_after (calculateCreditScore_aside _) fun score => ?_
  refine preserves_seq (listActiveOffers_nonneg ..) fun offers hoffers => ?_
  refine preserves_seq (preserves_orRaise (Q := fun o => 0 ≤ o.interest_rate_bps) fun o ho => ?_)
    fun offer hoffer => ?_
  · exact hoffers o (List.mem_of_mem_filter (List.mem_of_mem_head? ho))
  refine preserves_then (preserves_onlyIf fun _ => deduct_nonneg hcol ..) fun _ => preserves_of_only ?_
  -- what is paid back is at least the principal
  have hrate : (0 : ℚ) ≤ 1 + offer.interest_rate_bps / 10000 := by
    have hbps : (0 : ℚ) ≤ offer.interest_rate_bps := by exact_mod_cast hoffer
    positivity
  refine only_bind (only_stmt trivial) fun _ => only_bind (only_stmt ?_) fun _ => ?_
  · exact ⟨hcol _ _ hamount, hcol _ _ (mul_nonneg hamount hrate)⟩
  · exact only_bind only_raiseIf fun _ => trivial

theorem fundLoan_nonneg (lender_id loan_id : Id) :
    KeepsNonNeg (CreditService.fundLoan col lender_id loan_id) := by
  refine preserves_fetch fun loan hloan => ?_
  refine preserves_pass only_raiseIf fun _ => preserves_pass only_raiseIf fun _ => ?_
  refine preserves_then (deduct_nonneg hcol ..) fun _ => ?_
  refine preserves_then (credit_nonneg hcol hloan.1 ..) fun _ => preserves_of_only ?_
  refine only_bind (only_bind (only_stmt trivial) fun _ => only_stmt fun _ h _ => h) fun _ => ?_
  refine only_bind only_raiseIf fun _ => ?_
  exact harmless_after (assignScore_aside ..) fun _ => harmless_of_aside (refetchLoan_aside _)

theorem repayLoan_nonneg (borrower_id loan_id : Id) :
    KeepsNonNeg (CreditService.repayLoan col floats borrower_id loan_id) := by
  refine preserves_fetch fun loan hloan => ?_
  refine preserves_pass only_raiseIf fun _ => preserves_pass only_raiseIf fun _ => ?_
  refine preserves_then (deduct_nonneg hcol ..) fun _ => ?_
  refine preserves_then (credit_nonneg hcol (lenderPayout_nonneg hloan.1 hloan.2) ..) fun _ => ?_
  refine preserves_then (creditPos_nonneg hcol ..) fun _ => preserves_of_only ?_
  refine only_bind (only_stmt trivial) fun _ => only_bind only_orRaise fun _ => ?_
  refine only_bind (only_stmt fun _ h => h) fun _ => ?_
  refine only_bind (only_bind (only_stmt trivial) fun _ => only_stmt fun _ h _ => h) fun _ => ?_
  refine only_bind only_raiseIf fun _ => only_bind (only_stmt trivial) fun _ => ?_
  refine harmless_after (assignScore_aside ..) fun _ => ?_
  exact harmless_after (calculateCreditScore_aside _) fun _ => harmless_of_aside (refetchLoan_aside _)

theorem defaultOne_nonneg (loan_id : Id) (loan : AgentLoan) :
    KeepsNonNeg (CreditService.defaultOne col loan_id loan) := by
  refine preserves_pass (only_bind (only_stmt trivial) fun _ => only_stmt fun _ h _ => h) fun rows => ?_
  split
  · trivial
  refine preserves_then (creditPos_nonneg hcol ..) fun _ => preserves_of_only ?_
  refine only_bind (only_stmt trivial) fun _ => ?_
  refine harmless_after (assignScore_aside ..) fun _ => ?_
  exact harmless_after (refetchLoan_aside _) fun _ => trivial

/-- The request schema asks for an amount that is not negative. -/
def LoanCall.Valid : LoanCall → Prop
  | .requestLoan _ _ amount .. => 0 ≤ amount
  | _ => True

theorem LoanCall.body_nonneg {call : LoanCall} (hvalid : call.Valid) :
    KeepsNonNeg (call.body col floats) := by
  cases call with
  | requestLoan => exact preserves_then (requestLoan_nonneg hcol hvalid ..) fun _ => trivial
  | fundLoan => exact preserves_then (fundLoan_nonneg hcol ..) fun _ => trivial
  | repayLoan => exact preserves_then (repayLoan_nonneg hcol ..) fun _ => trivial
  | detectDefaults =>
      refine preserves_then (nonneg_after overdueLoans_aside fun overdue => ?_) fun _ => trivial
      exact preserves_tally _ fun loan _ => defaultOne_nonneg hcol ..

end

/-! ## Subscriptions and split payments -/

/-- The payments that are due and locked have positive amounts. -/
theorem lockDue_pos (now : Time) (ks : List Key) :
    (SubscriptionRepository.lockDue now ks).preserves NonNeg fun due => ∀ p ∈ due, 0 < p.2.amount := by
  induction ks with
  | nil =>
      intro p hp
      cases hp
  | cons k ks ih =>
      cases k with
      | recurring id =>
          refine preserves_pass (only_stmt trivial) fun skip => ?_
          split
          · exact ih
          · refine preserves_lock fun row hrow => preserves_seq ih fun rows hrows p hp => ?_
            rcases List.mem_append.mp hp with hp | hp
            · simp only [Option.mem_toList, Option.map_eq_some_iff,
                Option.filter_eq_some_iff] at hp
              obtain ⟨payment, ⟨hsome, -⟩, rfl⟩ := hp
              exact hrow payment hsome
            · exact hrows p hp
      | _ => exact ih

/-- The constraint of the table stops an amount that would be zero. -/
theorem updateRecurring_nonneg (payment_id : Id) (amount : Option ℚ)
    (interval : Option RecurringInterval) :
    KeepsNonNeg (SubscriptionRepository.update col payment_id amount interval) := by
  unfold SubscriptionRepository.update
  split
  · trivial
  refine preserves_raiseIf fun hamount => preserves_of_only (only_stmt fun payment hpayment _ => ?_)
  cases amount with
  | none => exact hpayment
  | some a => exact not_le.mp fun hle => hamount ⟨a, rfl, hle⟩

section

include hcol

theorem executeRecurring_nonneg (payment_id : Id) {payment : RecurringPayment}
    (hpayment : 0 < payment.amount) :
    KeepsNonNeg (SubscriptionService.executePayment col payment_id payment) := by
  unfold SubscriptionService.executePayment
  dsimp only
  split
  · trivial
  refine nonneg_after (getAvailable_aside ..) fun _ => ?_
  split
  · trivial
  refine preserves_then (deduct_nonneg hcol ..) fun _ => ?_
  refine preserves_then (credit_nonneg hcol (fee_le hpayment) ..) fun _ => preserves_of_only ?_
  refine only_bind (only_stmt trivial) fun _ => harmless_after (recordPayment_aside ..) fun _ => ?_
  refine only_bind (only_stmt trivial) fun _ => ?_
  exact only_bind (only_onlyIf (harmless_of_aside (cancelRecurring_aside _))) fun _ => trivial

theorem SubscriptionCall.run_nonneg (call : SubscriptionCall) : KeepsNonNeg (call.run col) := by
  refine preserves_withSession ?_
  cases call with
  | createSubscription =>
      refine preserves_then (preserves_pass only_raiseIf fun _ => preserves_pass only_raiseIf fun _ => ?_)
        fun _ => trivial
      refine preserves_pass (only_stmt trivial) fun _ => preserves_then (preserves_raiseIf fun hpos => ?_)
        fun _ => trivial
      exact preserves_of_only (only_bind (only_stmt (not_le.mp hpos)) fun _ =>
        only_bind only_raiseIf fun _ => trivial)
  | updateSubscription =>
      refine preserves_then (preserves_pass (only_stmt trivial) fun _ => ?_) fun _ => trivial
      refine preserves_pass only_orRaise fun _ => preserves_pass only_raiseIf fun _ => ?_
      refine preserves_then (updateRecurring_nonneg ..) fun _ => preserves_of_only ?_
      exact only_bind (only_bind (only_stmt trivial) fun _ => only_orRaise) fun _ => trivial
  | cancelSubscription =>
      refine preserves_of_only (only_bind (only_bind (only_stmt trivial) fun _ => ?_) fun _ => trivial)
      refine only_bind only_orRaise fun _ => only_bind only_raiseIf fun _ => ?_
      refine harmless_after (cancelRecurring_aside _) fun _ => ?_
      exact only_bind (only_bind (only_stmt trivial) fun _ => only_orRaise) fun _ => trivial
  | executeDuePayments =>
      refine preserves_then (preserves_seq ?_ fun due
        (hdue : ∀ p ∈ due, 0 < p.2.amount) => preserves_tally due fun p hp => ?_) fun _ => trivial
      · refine preserves_pass (only_stmt trivial) fun now => ?_
        refine preserves_pass (only_stmt trivial) fun ks => ?_
        exact preserves_pass (only_stmt trivial) fun _ => lockDue_pos now ks
      · exact executeRecurring_nonneg hcol p.1 (hdue p hp)

theorem payOne_nonneg (agent_id : Id) (currency : Token) (memo : Option String)
    (entry : Id × SplitRecipient) :
    KeepsNonNeg (SplitPaymentService.payOne col agent_id currency memo entry) := by
  refine preserves_then (credit_nonneg hcol entry.2.amount_pos.le ..) fun _ => preserves_of_only ?_
  refine only_bind (only_stmt (hcol _ _ entry.2.amount_pos.le)) fun _ => ?_
  exact only_bind only_raiseIf fun _ => only_bind (only_stmt trivial) fun _ => only_raiseIf

theorem SpendingCall.run_nonneg (call : SpendingCall) : KeepsNonNeg (call.run col) := by
  cases call with
  | channel call => exact call.runAudited_nonneg hcol
  | paySplit agent_id recipients currency memo =>
      refine preserves_withSession (preserves_pass only_raiseIf fun _ => ?_)
      refine nonneg_after (resolveSplit_aside ..) fun resolved => ?_
      refine preserves_then (deduct_nonneg hcol ..) fun _ => ?_
      exact preserves_forEach _ fun entry _ => payOne_nonneg hcol agent_id currency memo entry
  | executeDuePayments => exact SubscriptionCall.run_nonneg hcol .executeDuePayments

end

/-! ## Transfers -/

theorem mayFail_harmless (e : Exn) : Harmless (mayFail e) :=
  only_bind (only_stmt trivial) fun _ => only_raiseIf

theorem recordTransaction_harmless (agent_id : Id) : Harmless (recordTransaction agent_id) := by
  refine only_bind (only_stmt trivial) fun _ => only_bind (only_stmt trivial) fun _ => ?_
  exact only_onlyIf (only_stmt fun _ _ _ => trivial)

theorem toXmr_nonneg {piconero : ℤ} (h : 0 ≤ piconero) : 0 ≤ toXmr piconero :=
  div_nonneg (by exact_mod_cast h) (by positivity)

section

include hcol

theorem debitSender_nonneg (agent_id : Id) (total_xmr amount_xmr fee_xmr : ℚ) (token : Token) :
    KeepsNonNeg
      (TransactionRepository.debitSender col agent_id total_xmr amount_xmr fee_xmr token) := by
  refine preserves_seq (getForUpdate_nonneg ..) fun balance _ => preserves_raiseIf fun hcovered => ?_
  have hleft : 0 ≤ col 12 (balance.available - total_xmr) :=
    hcol _ _ (sub_nonneg.mpr (not_lt.mp hcovered))
  exact preserves_of_only (save_harmless (fun _ => hleft) ..)

theorem transferWithCommission_nonneg {amount_piconero : ℤ} (hamount : 0 ≤ amount_piconero)
    (tx_hash network : String) (from_agent_id to_agent_id : Id) (token : Token)
    (payment_type : PaymentType) (status : TransactionStatus) (memo : Option String)
    (tier : AgentTier) :
    KeepsNonNeg (TransactionRepository.transferWithCommission col tx_hash network from_agent_id
      to_agent_id amount_piconero token payment_type status memo tier) := by
  unfold TransactionRepository.transferWithCommission
  split
  · trivial
  refine preserves_then (debitSender_nonneg hcol ..) fun _ => ?_
  refine preserves_then (credit_nonneg hcol (toXmr_nonneg hamount) ..) fun _ => preserves_of_only ?_
  refine only_bind (mayFail_harmless _) fun _ => ?_
  refine only_bind (only_stmt (hcol _ _ (toXmr_nonneg hamount))) fun _ => ?_
  refine only_bind only_raiseIf fun _ => ?_
  refine only_bind (mayFail_harmless _) fun _ => only_bind (only_stmt trivial) fun _ => ?_
  refine only_bind (only_stmt trivial) fun _ => only_bind (mayFail_harmless _) fun _ => ?_
  exact only_bind (recordTransaction_harmless _) fun _ => trivial

theorem createWithCommission_nonneg (tx_hash network : String) (from_agent_id to_agent_id : Id)
    (amount_piconero : ℤ) (token : Token) (payment_type : PaymentType) (status : TransactionStatus)
    (memo idempotency_key : Option String) (tier : AgentTier) :
    KeepsNonNeg (TransactionRepository.createWithCommission col tx_hash network from_agent_id
      to_agent_id amount_piconero token payment_type status memo idempotency_key tier) := by
  refine preserves_raiseIf fun hamount => preserves_pass ?_ fun existing => ?_
  · unfold TransactionRepository.findExisting
    split
    · exact only_stmt trivial
    · trivial
  cases existing with
  | some existing => trivial
  | none => exact transferWithCommission_nonneg hcol (not_lt.mp hamount) ..

end

/-! ## Withdrawals -/

theorem markNeedsReview_harmless (pw_id : Id) (reason : String) :
    Harmless (PendingWithdrawalRepository.markNeedsReview pw_id reason) :=
  only_bind (only_stmt fun _ _ _ => trivial) fun _ => only_raiseIf

theorem markCompleted_harmless (pw_id : Id) (tx_hash : String) :
    Harmless (PendingWithdrawalRepository.markCompleted pw_id tx_hash) :=
  only_bind (only_stmt trivial) fun _ => only_bind (only_stmt fun _ _ _ => trivial) fun _ => only_raiseIf

theorem recoverOne_harmless (outgoing : List OutgoingTransfer) (pw : Id × PendingWithdrawal) :
    Harmless (recoverOne outgoing pw) := by
  unfold recoverOne
  split
  · exact only_bind (markCompleted_harmless ..) fun _ => trivial
  · exact only_bind (markNeedsReview_harmless ..) fun _ => trivial

section

include hcol

theorem withdraw_nonneg (agent_id : Id) (amount : ℚ) (token : Token) (ref : Ref) :
    KeepsNonNeg (BalanceRepository.withdraw col agent_id amount token ref) := by
  refine preserves_seq (getForUpdate_nonneg ..) fun balance _ => preserves_raiseIf fun hcovered => ?_
  have hleft : 0 ≤ col 12 (balance.available - amount) :=
    hcol _ _ (sub_nonneg.mpr (not_lt.mp hcovered))
  exact preserves_pass (save_harmless (fun _ => hleft) ..) fun _ => trivial

theorem withdrawBalance_nonneg {w : WithdrawalCall} (hamount : 0 ≤ w.amount)
    (outcome : Option RpcOutcome) : KeepsNonNeg (w.withdrawBalance col outcome) := by
  refine preserves_then (preserves_withSession ?_) fun _ => ?_
  · refine nonneg_after (getOrCreate_aside ..) fun _ => preserves_pass only_raiseIf fun _ => ?_
    refine preserves_then (preserves_tryCatch (withdraw_nonneg hcol ..) fun e => ?_) fun _ => ?_
    · split
      · trivial
      · trivial
    · refine preserves_of_only (only_bind (only_stmt trivial) fun _ => ?_)
      exact only_bind (only_stmt trivial) fun _ => only_raiseIf
  -- no outcome of the wallet puts anything back
  cases outcome with
  | none =>
      refine preserves_withSession (preserves_of_only (only_bind (markCompleted_harmless ..) fun _ => ?_))
      exact harmless_after (getOrCreate_aside ..) fun _ => trivial
  | some outcome =>
      cases outcome with
      | timeout =>
          refine preserves_then (preserves_withSession ?_) fun _ => trivial
          exact preserves_of_only (markNeedsReview_harmless ..)
      | error type_name =>
          refine preserves_then (preserves_withSession ?_) fun _ => trivial
          exact preserves_of_only (markNeedsReview_harmless ..)
      | sent tx_hash fee =>
          refine preserves_withSession (preserves_of_only ?_)
          refine only_bind (markCompleted_harmless ..) fun _ => ?_
          refine only_bind (only_bind (only_stmt (hcol _ _ hamount)) fun _ => only_raiseIf) fun _ => ?_
          exact harmless_after (getOrCreate_aside ..) fun _ => trivial

end

/-! ## Deposits -/

/-- What is pending is not available. -/
theorem pending_nonneg (agent_id : Id) (amount : ℚ) (token : Token) :
    KeepsNonNeg (BalanceRepository.addPending col agent_id amount token) ∧
      KeepsNonNeg (BalanceRepository.clearPendingOnConfirm col agent_id amount token) :=
  ⟨preserves_seq (getForUpdate_nonneg ..) fun _ _ =>
      preserves_pass (only_stmt fun _ h => h) fun _ => trivial,
    preserves_seq (getForUpdate_nonneg ..) fun _ _ =>
      preserves_pass (only_stmt fun _ h => h) fun _ => trivial⟩

/-- The wallet counts what comes in. -/
theorem incoming_nonneg (w : WalletView) (min_height : ℕ) :
    ∀ transfer ∈ WalletService.getIncomingTransfers w min_height, 0 ≤ transfer.amount := by
  intro transfer hmem
  obtain ⟨tx, -, htx⟩ := List.mem_filterMap.mp hmem
  have hamount : 0 ≤ Hub.piconeroToXmr tx.amount := by
    unfold Hub.piconeroToXmr
    positivity
  simp only [WalletService.listed] at htx
  split at htx
  · cases htx
  split at htx
  · cases htx
  split at htx
  · cases htx
  split at htx
  · cases htx
  · obtain rfl := Option.some.inj htx
    exact hamount

section

include hcol

theorem deposit_nonneg {amount : ℚ} (h : 0 ≤ amount) (agent_id : Id) (token : Token) (ref : Ref) :
    KeepsNonNeg (BalanceRepository.deposit col agent_id amount token ref) := by
  refine preserves_seq (getForUpdate_nonneg ..) fun balance hbalance => ?_
  have hmore : 0 ≤ col 12 (balance.available + amount) := hcol _ _ (add_nonneg hbalance h)
  exact preserves_pass (save_harmless (fun _ => hmore) ..) fun _ => trivial

theorem processTransfer_nonneg (m : DepositMonitor) (owner : String → Option Id) {transfer : Transfer}
    (hamount : 0 ≤ transfer.amount) : KeepsNonNeg (m.processTransfer col owner transfer) := by
  unfold DepositMonitor.processTransfer
  split
  · trivial
  refine preserves_select fun existing_tx hexisting => ?_
  cases existing_tx with
  | none =>
      refine preserves_pass (only_bind (only_stmt (hcol _ _ hamount)) fun _ => only_raiseIf) fun _ => ?_
      split
      · exact preserves_then (deposit_nonneg hcol hamount ..) fun _ => trivial
      · exact preserves_then (pending_nonneg ..).1 fun _ => trivial
  | some existing_tx =>
      -- the amount is that of the row
      refine preserves_pass (only_stmt trivial) fun _ => ?_
      refine preserves_pass (only_onlyIf (only_stmt fun _ h => h)) fun _ => ?_
      split
      · refine preserves_then (deposit_nonneg hcol (hexisting _ rfl) ..) fun _ => ?_
        exact preserves_then (pending_nonneg ..).2 fun _ => trivial
      · trivial

theorem pollOnce_nonneg (m : DepositMonitor) (owner : String → Option Id) (w : WalletView)
    (last_height : ℕ) : KeepsNonNeg (m.pollOnce col owner w last_height) := by
  refine preserves_then (preserves_tryCatch ?_ fun _ => trivial) fun height => ?_
  · unfold DepositMonitor.doPollWithSession
    dsimp only
    split
    · trivial
    refine preserves_then (preserves_withSession ?_) fun _ => trivial
    refine preserves_then (preserves_tally _ fun transfer hmem => ?_) fun _ => ?_
    · exact processTransfer_nonneg hcol m owner (incoming_nonneg w last_height transfer hmem)
    · refine preserves_of_only (only_bind (only_onlyIf ?_) fun _ => trivial)
      exact SystemStateRepository.set_only trivial (fun _ _ _ _ _ => trivial) trivial
  · exact preserves_tryCatch (preserves_withSession trivial) fun _ => trivial

theorem polls_nonneg (m : DepositMonitor) (owner : String → Option Id) (views : List WalletView)
    (last_height : ℕ) : KeepsNonNeg (m.polls col owner views last_height) := by
  induction views generalizing last_height with
  | nil => trivial
  | cons w views ih => exact preserves_then (pollOnce_nonneg hcol m owner w last_height) fun h => ih h

end

/-! ## Runs -/

/-- The calls that move money: those of the services, transfers, withdrawals with what the wallet makes of
them, their recovery, and the monitor of the deposits with what it sees. -/
inductive MoneyCall where
  | service (call : HubCall)
  | transfer (tx_hash network : String) (from_agent_id to_agent_id : Id) (amount_piconero : ℤ)
      (token : Token) (payment_type : PaymentType) (status : TransactionStatus)
      (memo idempotency_key : Option String) (tier : AgentTier)
  | withdrawal (thread : WithdrawalThread)
  | deposits (m : DepositMonitor) (owner : String → Option Id) (views : List WalletView)
      (last_height : ℕ)

def MoneyCall.run (col : Columns) (floats : Floats) (parse : Constructors) : MoneyCall → Program Unit
  | service call => call.run col floats parse
  | transfer tx_hash network from_agent_id to_agent_id amount_piconero token payment_type status memo
      idempotency_key tier => withSession do
      let _ ← TransactionRepository.createWithCommission col tx_hash network from_agent_id to_agent_id
        amount_piconero token payment_type status memo idempotency_key tier
  | withdrawal thread => thread.run col
  | deposits m owner views last_height => m.polls col owner views last_height

/-- What the request schemas ask for where the code behind them does not. -/
def MoneyCall.Valid : MoneyCall → Prop
  | service (.conditional call) => call.Valid
  | service (.loan call) => call.Valid
  | withdrawal (.request w _) => 0 ≤ w.amount
  | _ => True

/-- Any number of calls, side by side, with statements in any order; any of them may die. -/
abbrev MoneyRun (col : Columns) (floats : Floats) (parse : Constructors) (st : Store schema)
    (calls : ℕ → MoneyCall) : Config schema Unit → Prop :=
  Config.Reaches (fun _ _ _ _ => True) (Config.start st fun i => (calls i).run col floats parse)

section

include hcol

theorem HubCall.run_nonneg {call : HubCall} (hvalid : (MoneyCall.service call).Valid) :
    KeepsNonNeg (call.run col floats parse) := by
  cases call with
  | createEscrow =>
      exact preserves_withSession (preserves_then (createEscrow_nonneg hcol ..) fun _ => trivial)
  | contract call => exact preserves_withSession (call.body_nonneg hcol)
  | spending call => exact call.run_nonneg hcol
  | conditional call => exact preserves_withSession (ConditionalCall.body_nonneg hcol hvalid)
  | multiParty call => exact preserves_withSession (call.body_nonneg hcol)
  | loan call => exact preserves_withSession (LoanCall.body_nonneg hcol hvalid)
  | subscription call => exact call.run_nonneg hcol

theorem WithdrawalThread.run_nonneg {thread : WithdrawalThread}
    (hvalid : (MoneyCall.withdrawal thread).Valid) : KeepsNonNeg (thread.run col) := by
  cases thread with
  | request w outcome => exact withdrawBalance_nonneg hcol hvalid outcome
  | sweep wallet_service max_age_minutes =>
      refine preserves_withSession (preserves_of_only (only_bind ?_ fun _ => trivial))
      refine harmless_after (listed_aside ..) fun stale => ?_
      cases wallet_service with
      | absent => exact only_tally stale (recoverOne_harmless [])
      | unreachable => trivial
      | lists outgoing => exact only_tally stale (recoverOne_harmless outgoing)

theorem MoneyCall.run_nonneg {call : MoneyCall} (hvalid : call.Valid) :
    KeepsNonNeg (call.run col floats parse) := by
  cases call with
  | service call => exact HubCall.run_nonneg hcol hvalid
  | transfer =>
      exact preserves_withSession (preserves_then (createWithCommission_nonneg hcol ..) fun _ => trivial)
  | withdrawal thread => exact WithdrawalThread.run_nonneg hcol hvalid
  | deposits m owner views last_height => exact polls_nonneg hcol m owner views last_height

/-- **No balance is ever negative**, nor what is locked or owed, when none is at the start: neither
committed nor in an object that a session holds, in whatever order the statements run. -/
theorem balances_nonneg {st : Store schema} (hst : st.db.Kept NonNeg) {calls : ℕ → MoneyCall}
    (hvalid : ∀ i, (calls i).Valid) {c : Config schema Unit}
    (h : MoneyRun col floats parse st calls c) :
    c.store.db.Kept NonNeg ∧ ∀ i, (c.sess i).Kept NonNeg := by
  have hpreserved := Config.preserved hst (fun i => MoneyCall.run_nonneg hcol (hvalid i)) h
  exact ⟨hpreserved.db, hpreserved.sess⟩

end

end

/-- The columns of the database do not make an amount negative. -/
theorem rounding_nonneg (s : ℕ) (x : ℚ) (h : 0 ≤ x) : 0 ≤ Columns.rounding s x := numeric_nonneg s h

theorem lockedFive_nonneg : lockedFive.db.Kept NonNeg := by
  intro k r hr
  cases k with
  | balance id token =>
      simp only [lockedFive] at hr
      split at hr
      · obtain rfl := Option.some.inj hr
        exact le_refl (0 : ℚ)
      · cases hr
  | conditional id =>
      simp only [lockedFive] at hr
      split at hr
      · obtain rfl := Option.some.inj hr
        exact (by norm_num : (0 : ℚ) ≤ 5)
      · cases hr
  | _ => cases hr

/-- The sweep has refunded the payment. -/
theorem balances_nonneg_swept : ∃ (c : Config schema Unit) (r : ConditionalPayment),
    c.store.db.Kept NonNeg ∧ c.store.db.rows (Key.conditional 1) = some r ∧ r.state = .EXPIRED := by
  obtain ⟨c, -, r, hreach, -, hr⟩ := exists_swept
  have hrun : MoneyRun .rounding ⟨fun _ _ => 0, fun _ => 0, fun _ _ => 0⟩ readsNothing lockedFive
      (fun i => .service (sweepThenTrigger i)) c := hreach
  have hvalid : ∀ i, (MoneyCall.service (sweepThenTrigger i)).Valid := by
    intro i
    cases i with
    | zero => trivial
    | succ i => trivial
  exact ⟨c, r, (balances_nonneg rounding_nonneg lockedFive_nonneg hvalid hrun).1, hr⟩

end Sthrip
