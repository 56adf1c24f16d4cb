import Sthrip.Txn.Lives
import Sthrip.Sla.Agreement
import Sthrip.Credit.Footprint
import Sthrip.Services.MultiPartyService
import Sthrip.Balance.OwnConsent
import Sthrip.Conditional.Lock

set_option autoImplicit false

/-! # The life of what two agents have agreed on

The services of the hub keep their agreements in rows of one database: deals with their milestones,
channels, conditional payments, payments to several recipients, loans, contracts and subscriptions.
Their sessions run side by side, each with objects that may be out of date, and any of them may die
between two statements.

Each table has a machine: its moves are the guarded updates of the repository, with the columns that
they write (`Move`), and its rows begin in one state (`IsNew`). This is what the services are for. What
they do is interleaved statements, and the result is that it comes to the same: from any state of a run
to any later one each row has made a path of its machine, or was begun in between (`hub_lives`).

The rest is about paths of the machines alone. Who takes part and what for is never changed
(`terms_kept`), and what is settled is not touched again (`settled_stays`).
-/

namespace Sthrip

open Txn Prog

/-! ## The machines -/

/-- A deal; its milestones are counted when it is set up. An update of `DealUpdate` for milestones has no
guard. -/
inductive DealMove : EscrowDeal → EscrowDeal → Prop where
  | update {guard : EscrowDeal → Bool} {set : EscrowDeal → EscrowDeal} {deal : EscrowDeal} :
      DealUpdate guard set → guard deal = true → DealMove deal (set deal)
  | expire (now : Time) {deal : EscrowDeal} : deal.status = .CREATED ∨ deal.status = .ACCEPTED →
      DealMove deal { deal with status := .EXPIRED, completed_at := some now }
  | setup (n : ℕ) {deal : EscrowDeal} : DealMove deal { deal with
      is_multi_milestone := true, milestone_count := n
      current_milestone := 1, total_released := 0, total_fees := 0 }

inductive MilestoneMove : EscrowMilestone → EscrowMilestone → Prop where
  | update {guard : EscrowMilestone → Bool} {set : EscrowMilestone → EscrowMilestone}
      {ms : EscrowMilestone} :
      MilestoneUpdate guard set → guard ms = true → MilestoneMove ms (set ms)

/-- `OPEN → CLOSING → SETTLED → CLOSED`, with new balances while it closes. -/
inductive ChannelMove : PaymentChannel → PaymentChannel → Prop where
  | initiateSettlement (nonce : ℤ) (balance_a balance_b : ℚ) (sig_a sig_b : String) (closes_at : Time)
      {channel : PaymentChannel} : channel.status = .OPEN → ChannelMove channel { channel with
        status := .CLOSING, nonce, balance_a, balance_b, last_update_sig_a := some sig_a
        last_update_sig_b := some sig_b, closes_at := some closes_at }
  | dispute (nonce : ℤ) (balance_a balance_b : ℚ) (sig_a sig_b : String) {channel : PaymentChannel} :
      channel.status = .CLOSING → ChannelMove channel { channel with
        nonce, balance_a, balance_b, last_update_sig_a := some sig_a
        last_update_sig_b := some sig_b }
  | settle (now : Time) {channel : PaymentChannel} : channel.status = .CLOSING →
      ChannelMove channel { channel with status := .SETTLED, settled_at := some now }
  | finalizeClose (now : Time) {channel : PaymentChannel} : channel.status = .SETTLED →
      ChannelMove channel { channel with status := .CLOSED, closed_at := some now }

/-- `PENDING → TRIGGERED → EXECUTED`, or `PENDING → EXPIRED`, or `PENDING → CANCELLED`. -/
inductive ConditionalMove : ConditionalPayment → ConditionalPayment → Prop where
  | trigger (now : Time) {payment : ConditionalPayment} : payment.state = .PENDING →
      ConditionalMove payment { payment with state := .TRIGGERED, triggered_at := some now }
  | execute (now : Time) {payment : ConditionalPayment} : payment.state = .TRIGGERED →
      ConditionalMove payment { payment with state := .EXECUTED, executed_at := some now }
  | expire {payment : ConditionalPayment} : payment.state = .PENDING →
      ConditionalMove payment { payment with state := .EXPIRED }
  | cancel {payment : ConditionalPayment} : payment.state = .PENDING →
      ConditionalMove payment { payment with state := .CANCELLED }

/-- `PENDING → COMPLETED | REJECTED | EXPIRED` -/
inductive MultiPartyMove : MultiPartyPayment → MultiPartyPayment → Prop where
  | leavePending (state : MultiPartyPaymentState) (now : Time) {payment : MultiPartyPayment} :
      payment.state = .PENDING → state ≠ .PENDING →
      MultiPartyMove payment { payment with state, completed_at := some now }

/-- A recipient answers once. -/
inductive RecipientMove : MultiPartyRecipient → MultiPartyRecipient → Prop where
  | answer (accepts : Bool) (now : Time) {recipient : MultiPartyRecipient} :
      recipient.accepted = none → RecipientMove recipient
        { recipient with accepted := some accepts, accepted_at := some now }

/-- `REQUESTED → ACTIVE → REPAID | DEFAULTED`. The fee is assigned to the object, in any state. -/
inductive LoanMove : AgentLoan → AgentLoan → Prop where
  | fund (now : Time) {loan : AgentLoan} : loan.state = .REQUESTED →
      LoanMove loan { loan with state := .ACTIVE, funded_at := some now }
  | repay (repaid_amount : ℚ) (now : Time) {loan : AgentLoan} : loan.state = .ACTIVE →
      LoanMove loan { loan with state := .REPAID, repaid_amount, repaid_at := some now }
  | default (now : Time) {loan : AgentLoan} : loan.state = .ACTIVE →
      LoanMove loan { loan with state := .DEFAULTED, defaulted_at := some now }
  | assess (platform_fee : ℚ) {loan : AgentLoan} : LoanMove loan { loan with platform_fee }

/-- `PROPOSED → ACCEPTED → ACTIVE → DELIVERED → COMPLETED`, with `BREACHED` and `DISPUTED` on the way. -/
inductive ContractMove : SLAContract → SLAContract → Prop where
  | accept {contract : SLAContract} : contract.state = .PROPOSED →
      ContractMove contract { contract with state := .ACCEPTED }
  | activate (now : Time) {contract : SLAContract} : contract.state = .ACCEPTED →
      ContractMove contract { contract with state := .ACTIVE, started_at := some now }
  | deliver (now : Time) (result_hash : String) (delivery_time_actual : Option ℤ)
      {contract : SLAContract} : contract.state = .ACTIVE → ContractMove contract { contract with
        state := .DELIVERED, delivered_at := some now, result_hash := some result_hash
        delivery_time_actual }
  | complete (sla_met : Bool) {contract : SLAContract} : contract.state = .DELIVERED →
      ContractMove contract { contract with state := .COMPLETED, sla_met := some sla_met }
  | breach {contract : SLAContract} : contract.state = .ACTIVE →
      ContractMove contract { contract with state := .BREACHED, sla_met := some false }
  | dispute {contract : SLAContract} : contract.state = .ACTIVE ∨ contract.state = .DELIVERED →
      ContractMove contract { contract with state := .DISPUTED }

/-- A subscription may get another amount and interval; what is cancelled stays so. -/
structure SubscriptionMove (payment payment' : RecurringPayment) : Prop where
  sender : payment'.from_agent_id = payment.from_agent_id
  recipient : payment'.to_agent_id = payment.to_agent_id
  limit : payment'.max_payments = payment.max_payments
  inactive : payment.is_active = false → payment'.is_active = false

/-- The moves of a row. A proposed state of a channel is not changed, and there is nothing to say of the
other tables. -/
def Move : (k : Key) → Row k → Row k → Prop
  | .deal _ => DealMove
  | .milestone _ _ => MilestoneMove
  | .channel _ => ChannelMove
  | .channelUpdate _ _ => fun _ _ => False
  | .conditional _ => ConditionalMove
  | .multiParty _ => MultiPartyMove
  | .recipient _ _ => RecipientMove
  | .loan _ => LoanMove
  | .slaContract _ => ContractMove
  | .recurring _ => SubscriptionMove
  | _ => fun _ _ => True

/-- How a row begins. -/
def IsNew : (k : Key) → Row k → Prop
  | .deal _ => fun deal : EscrowDeal => deal.status = .CREATED
  | .milestone _ _ => fun ms : EscrowMilestone => ms.status = .PENDING
  | .channel _ => fun channel : PaymentChannel => channel.status = .OPEN
  | .conditional _ => fun payment : ConditionalPayment => payment.state = .PENDING
  | .multiParty _ => fun payment : MultiPartyPayment => payment.state = .PENDING
  | .recipient _ _ => fun recipient : MultiPartyRecipient => recipient.accepted = none
  | .loan _ => fun loan : AgentLoan => loan.state = .REQUESTED
  | .slaContract _ => fun contract : SLAContract => contract.state = .PROPOSED
  | .recurring _ => fun payment : RecurringPayment => payment.is_active = true
  | _ => fun _ => True

/-- The statements of the services: each makes one move, or a new row. -/
abbrev Lives : Stmt schema → Prop := Stmt.lives Move IsNew

/-! ## Amounts -/

/-- The balance is not negative, nor is what is locked or owed. -/
def NonNeg : (k : Key) → Row k → Prop
  | .balance _ _ => fun balance : AgentBalance => 0 ≤ balance.available
  | .deal _ => fun deal : EscrowDeal => 0 ≤ deal.amount
  | .conditional _ => fun payment : ConditionalPayment => 0 ≤ payment.locked_amount
  | .multiParty _ => fun payment : MultiPartyPayment => 0 ≤ payment.total_amount
  | .recipient _ _ => fun recipient : MultiPartyRecipient => 0 ≤ recipient.amount
  | .offer _ => fun offer : LendingOffer => 0 ≤ offer.interest_rate_bps
  | .loan _ => fun loan : AgentLoan => 0 ≤ loan.principal ∧ 0 ≤ loan.repayment_amount
  | .recurring _ => fun payment : RecurringPayment => 0 < payment.amount
  | .transaction _ => fun tx : Transaction => 0 ≤ tx.amount
  | _ => fun _ => True

/-- The statement makes a move, and no amount negative. -/
abbrev Aside (s : Stmt schema) : Prop := Lives s ∧ s.keeps NonNeg

theorem lives_of_aside {α : Type} {p : Program α} (h : p.only Aside) : p.only Lives :=
  only_mono h fun _ hs => hs.1

theorem lives_after {α β : Type} {p : Program α} {f : α → Program β} (h : p.only Aside)
    (hf : ∀ a, (f a).only Lives) : (p.bind f).only Lives := only_bind (lives_of_aside h) hf

/-! ## The statements of the services -/

section Statements

variable {col : Columns} {floats : Floats} {parse : Constructors}

theorem allowsBalance_lives (agent_id : Id) (token : Token) :
    BalanceRepository.Allows Lives agent_id token := ⟨trivial, trivial, fun _ _ => trivial⟩

theorem deduct_lives (agent_id : Id) (amount : ℚ) (token : Token) (ref : Ref) :
    (BalanceRepository.deduct col agent_id amount token ref).only Lives :=
  BalanceRepository.deduct_only (allowsBalance_lives ..) trivial

theorem credit_lives (agent_id : Id) (amount : ℚ) (token : Token) (ref : Ref) :
    (BalanceRepository.credit col agent_id amount token ref).only Lives :=
  BalanceRepository.credit_only (allowsBalance_lives ..) trivial

theorem getOrCreate_aside (agent_id : Id) (token : Token) :
    (BalanceRepository.getOrCreate agent_id token).only Aside := by
  refine only_bind (only_stmt ⟨trivial, trivial⟩) fun balance => ?_
  cases balance with
  | some balance => trivial
  | none =>
      -- a new balance is zero
      refine only_bind (only_stmt ⟨trivial, le_refl (0 : ℚ)⟩) fun inserted => ?_
      split
      · trivial
      · exact only_bind (only_stmt ⟨trivial, trivial⟩) fun _ => only_orRaise

theorem getAvailable_aside (agent_id : Id) (token : Token) :
    (BalanceRepository.getAvailable agent_id token).only Aside :=
  only_bind (getOrCreate_aside ..) fun _ => trivial

theorem query_aside (p : (k : Key) → Row k → Bool) : (query (S := schema) p).only Aside :=
  only_query ⟨trivial, trivial⟩ fun _ => ⟨trivial, trivial⟩

/-- What a sweep lists at the time it begins. -/
theorem listed_aside {α : Type} (p : Time → (k : Key) → Row k → Bool)
    (f : Time → List (Σ k : Key, Row k) → α) :
    (now.bind fun t => (query (S := schema) (p t)).bind fun rows => Prog.ret (f t rows)).only Aside :=
  only_bind (only_stmt ⟨trivial, trivial⟩) fun t => only_bind (query_aside (p t)) fun _ => trivial

/-! ### Deals -/

theorem allowsEscrow_lives (e : Id) : EscrowService.Allows Lives e where
  now := trivial
  select _ := trivial
  scan _ := trivial
  lock := trivial
  update _ _ hupdate _ hguard := .update hupdate hguard
  lockMilestone _ _ := trivial
  updateMilestone _ _ _ _ hupdate _ hguard := .update hupdate hguard
  balance := allowsBalance_lives
  posting _ _ := trivial
  fee _ _ := trivial
  reputation _ _ _ _ _ := trivial

theorem expireUpdate_lives (e : Id) (now : Time) : Lives (expireUpdate e now) := by
  intro deal hguard
  exact .expire now (by simpa using hguard)

theorem createMilestone_lives (e : Id) (m : MilestoneData) (idx : ℕ) :
    (MilestoneRepository.createMilestone col e m idx).only Lives := by
  refine only_bind only_raiseIf fun _ => only_bind only_raiseIf fun _ => ?_
  exact only_bind (only_stmt rfl) fun _ => only_raiseIf

theorem createEscrow_lives (deal_id buyer_id seller_id : Id) (amount : ℚ) (description : String)
    (a b c : ℤ) (milestones : Option (List MilestoneData)) :
    (EscrowService.createEscrow col deal_id buyer_id seller_id amount description a b c
      milestones).only Lives := by
  refine only_bind only_raiseIf fun _ => only_bind only_raiseIf fun _ => ?_
  refine only_bind only_raiseIf fun _ => only_bind (only_stmt trivial) fun _ => ?_
  refine only_bind only_orRaise fun _ => only_bind only_raiseIf fun _ => ?_
  refine only_bind (deduct_lives ..) fun _ => only_bind ?_ fun deal => ?_
  · exact only_bind (only_stmt trivial) fun _ => only_bind (only_stmt rfl) fun _ =>
      only_bind only_raiseIf fun _ => trivial
  · cases milestones with
    | none => trivial
    | some milestones =>
        -- the milestones are counted in the deal that was just begun
        refine only_bind (only_stmt fun deal => .setup _) fun _ => ?_
        exact only_bind (only_forEach _ fun m => createMilestone_lives ..) fun _ => trivial

/-! ### Contracts -/

theorem transition_aside {c : Id} {states : List SLAStatus} {set : SLAContract → SLAContract}
    (h : ∀ contract, contract.state ∈ states → ContractMove contract (set contract)) :
    (SLAContractRepository.transition c states set).only Aside :=
  only_stmt ⟨fun contract hguard => h contract (by simpa using hguard), fun _ _ _ => trivial⟩

theorem lockFor_aside (c : Id) (may : SLAContract → Bool) (text : String) :
    (SLAService.lockFor c may text).only Aside := by
  refine only_bind (only_stmt ⟨trivial, trivial⟩) fun _ => only_bind only_orRaise fun contract => ?_
  exact only_bind only_raiseIf fun _ => trivial

theorem refetch_aside (c : Id) : (SLAService.refetch c).only Aside :=
  only_bind (only_stmt ⟨trivial, trivial⟩) fun _ => only_orRaise

theorem deliver_aside (c : Id) (result_hash : String) :
    (SLAContractRepository.deliver c result_hash).only Aside := by
  refine only_bind (only_stmt ⟨trivial, trivial⟩) fun now => ?_
  refine only_bind (only_stmt ⟨trivial, trivial⟩) fun contract => ?_
  cases contract with
  | none => trivial
  | some contract =>
      dsimp only
      split
      · trivial
      · exact transition_aside fun _ h => .deliver now _ _ (by simpa using h)

theorem enforceSla_aside : SLAService.enforceSla.only Aside := by
  refine only_bind (listed_aside ..) fun overdue => only_tally overdue fun c => ?_
  refine only_bind (transition_aside fun _ h => .breach (by simpa using h)) fun rows => ?_
  exact only_bind (only_onlyIf (only_bind (refetch_aside _) fun _ => trivial)) fun _ => trivial

theorem acceptContract_aside (c a : Id) : (SLAService.acceptContract c a).only Aside := by
  refine only_bind (lockFor_aside ..) fun _ => ?_
  refine only_bind (transition_aside fun _ h => .accept (by simpa using h)) fun _ => ?_
  refine only_bind (only_bind (only_stmt ⟨trivial, trivial⟩) fun now => ?_) fun _ => refetch_aside _
  exact transition_aside fun _ h => .activate now (by simpa using h)

theorem deliverContract_aside (c a : Id) (result_hash : String) :
    (SLAService.deliverContract c a result_hash).only Aside := by
  refine only_bind (lockFor_aside ..) fun _ => only_bind (deliver_aside ..) fun _ => ?_
  exact only_bind only_raiseIf fun _ => refetch_aside _

theorem verifyContract_aside (c a : Id) : (SLAService.verifyContract c a).only Aside := by
  refine only_bind (lockFor_aside ..) fun _ => ?_
  refine only_bind (transition_aside fun _ h => .complete _ (by simpa using h)) fun _ => ?_
  exact only_bind only_raiseIf fun _ => refetch_aside _

theorem disputeContract_aside (c a : Id) : (SLAService.disputeContract c a).only Aside := by
  refine only_bind (lockFor_aside ..) fun _ => ?_
  refine only_bind (transition_aside fun _ h => .dispute (by simpa using h)) fun _ => ?_
  exact only_bind only_raiseIf fun _ => refetch_aside _

theorem SlaCall.body_lives (call : SlaCall) : (call.body col).only Lives := by
  cases call with
  | createContract =>
      refine only_bind (only_bind only_raiseIf fun _ => ?_) fun _ => trivial
      refine lives_after (getAvailable_aside ..) fun _ => only_bind only_raiseIf fun _ => ?_
      refine only_bind (createEscrow_lives ..) fun _ => ?_
      exact only_bind (only_stmt rfl) fun _ => only_bind only_raiseIf fun _ => trivial
  | acceptContract => exact lives_after (acceptContract_aside ..) fun _ => trivial
  | deliverContract => exact lives_after (deliverContract_aside ..) fun _ => trivial
  | verifyContract => exact lives_after (verifyContract_aside ..) fun _ => trivial
  | disputeContract => exact lives_after (disputeContract_aside ..) fun _ => trivial
  | enforceSla => exact lives_after enforceSla_aside fun _ => trivial
  | escrow call => exact call.body_only allowsEscrow_lives expireUpdate_lives

/-! ### Channels -/

theorem getAsParticipant_aside (channel_id agent_id : Id) :
    (getAsParticipant channel_id agent_id).only Aside :=
  only_bind (only_stmt ⟨trivial, trivial⟩) fun _ => only_bind only_orRaise fun _ =>
    only_bind only_raiseIf fun _ => trivial

theorem refetchChannel_aside (channel_id : Id) : (refetchChannel channel_id).only Aside :=
  only_bind (only_stmt ⟨trivial, trivial⟩) fun _ => only_orRaise

theorem settleChannel_aside (channel_id : Id) : (ChannelRepository.settle channel_id).only Aside :=
  only_bind (only_stmt ⟨trivial, trivial⟩) fun now =>
    only_stmt ⟨fun _ h => .settle now (by simpa using h), fun _ _ _ => trivial⟩

theorem settleIfDue_aside (channel_id : Id) (channel : PaymentChannel) :
    (ChannelService.settleIfDue channel_id channel).only Aside := by
  unfold ChannelService.settleIfDue
  split
  · refine only_bind (only_stmt ⟨trivial, trivial⟩) fun _ => only_bind only_raiseIf fun _ => ?_
    exact only_bind (settleChannel_aside _) fun _ => refetchChannel_aside _
  · trivial

theorem submitUpdate_aside (channel_id agent_id : Id) (nonce : ℤ) (balance_a balance_b : ℚ)
    (sig_a sig_b : String) :
    (ChannelService.submitUpdate col channel_id agent_id nonce balance_a balance_b sig_a sig_b).only
      Aside := by
  refine only_bind (getAsParticipant_aside ..) fun _ => ?_
  refine only_bind (only_bind (query_aside _) fun _ => trivial) fun _ => ?_
  refine only_bind only_raiseIf fun _ => only_bind only_raiseIf fun _ => ?_
  refine only_bind (only_bind (only_stmt ⟨trivial, trivial⟩) fun _ => ?_) fun _ => ?_
  · exact only_bind only_raiseIf fun _ => trivial
  · exact only_bind (only_stmt ⟨trivial, trivial⟩) fun _ => trivial

theorem settle_aside (channel_id agent_id : Id) (nonce : ℤ) (balance_a balance_b : ℚ)
    (sig_a sig_b : String) :
    (ChannelService.settle col channel_id agent_id nonce balance_a balance_b sig_a sig_b).only
      Aside := by
  refine only_bind only_raiseIf fun _ => only_bind (getAsParticipant_aside ..) fun _ => ?_
  refine only_bind only_raiseIf fun _ => only_bind (only_bind (only_stmt ⟨trivial, trivial⟩) fun _ => ?_)
    fun _ => ?_
  · refine only_bind (only_stmt ⟨trivial, trivial⟩) fun now =>
      only_stmt ⟨fun _ h => ?_, fun _ _ _ => trivial⟩
    exact .initiateSettlement _ _ _ _ _ _ (by simpa using h)
  refine only_bind only_raiseIf fun _ => only_bind (only_stmt ⟨trivial, trivial⟩) fun _ => ?_
  refine only_bind (only_onlyIf (only_stmt ⟨trivial, trivial⟩)) fun _ => ?_
  exact only_bind (refetchChannel_aside _) fun _ => trivial

/-- `close`, when the balances are paid. -/
theorem finalizeClose_aside (channel_id : Id) :
    (ChannelRepository.finalizeClose channel_id).only Aside :=
  only_bind (only_stmt ⟨trivial, trivial⟩) fun now =>
    only_stmt ⟨fun _ h => .finalizeClose now (by simpa using h), fun _ _ _ => trivial⟩

theorem dispute_aside (channel_id agent_id : Id) (nonce : ℤ) (balance_a balance_b : ℚ)
    (sig_a sig_b : String) :
    (ChannelService.dispute col channel_id agent_id nonce balance_a balance_b sig_a sig_b).only
      Aside := by
  refine only_bind (getAsParticipant_aside ..) fun _ => ?_
  refine only_bind only_raiseIf fun _ => only_bind only_raiseIf fun _ => ?_
  refine only_bind (only_stmt ⟨fun _ h => ?_, fun _ _ _ => trivial⟩) fun _ => ?_
  · exact .dispute _ _ _ _ _ (by simpa using h)
  refine only_bind only_raiseIf fun _ => only_bind (only_stmt ⟨trivial, trivial⟩) fun _ => ?_
  exact only_bind (only_stmt ⟨trivial, trivial⟩) fun _ => refetchChannel_aside _

theorem autoSettleExpired_aside : ChannelService.autoSettleExpired.only Aside := by
  refine only_bind ?_ fun ready => only_tally ready settleChannel_aside
  exact listed_aside ..

theorem ChannelCall.body_lives (call : ChannelCall) : (call.body col).only Lives := by
  cases call with
  | openChannel =>
      refine only_bind (only_bind only_raiseIf fun _ => only_bind only_raiseIf fun _ => ?_)
        fun _ => trivial
      refine only_bind (only_onlyIf (deduct_lives ..)) fun _ => ?_
      refine only_bind (only_onlyIf (deduct_lives ..)) fun _ => ?_
      exact only_bind (only_stmt rfl) fun _ => only_bind only_raiseIf fun _ => trivial
  | submitUpdate => exact lives_after (submitUpdate_aside ..) fun _ => trivial
  | settle => exact lives_after (settle_aside ..) fun _ => trivial
  | close =>
      refine only_bind (lives_after (getAsParticipant_aside ..) fun _ => ?_) fun _ => trivial
      refine lives_after (settleIfDue_aside ..) fun _ => only_bind only_raiseIf fun _ => ?_
      refine only_bind (only_onlyIf (credit_lives ..)) fun _ => ?_
      refine only_bind (only_onlyIf (credit_lives ..)) fun _ => ?_
      -- the balances are paid before the channel is closed
      refine lives_after (finalizeClose_aside _) fun _ => ?_
      refine only_bind only_raiseIf fun _ => only_bind (only_stmt trivial) fun _ => ?_
      exact lives_of_aside (refetchChannel_aside _)
  | dispute => exact lives_after (dispute_aside ..) fun _ => trivial
  | autoSettleExpired => exact lives_after autoSettleExpired_aside fun _ => trivial

theorem ChannelCall.runAudited_lives (call : ChannelCall) : (call.runAudited col).only Lives := by
  refine only_withSession trivial trivial (only_bind call.body_lives fun _ => ?_)
  cases call with
  | close => exact only_bind (only_stmt trivial) fun _ => only_raiseIf
  | _ => trivial

/-! ### Conditional payments -/

theorem refetchPayment_aside (payment_id : Id) (field : String) :
    (refetchPayment payment_id field).only Aside :=
  only_bind (only_stmt ⟨trivial, trivial⟩) fun _ => only_orRaise

theorem attempt_aside {α : Type} (a : Except Exn α) : (attempt a).only Aside := by
  cases a with
  | ok a => trivial
  | error e => trivial

theorem trigger_aside (payment_id : Id) :
    (ConditionalPaymentRepository.trigger payment_id).only Aside :=
  only_bind (only_stmt ⟨trivial, trivial⟩) fun now =>
    only_stmt ⟨fun _ h => .trigger now (by simpa using h), fun _ h _ => h⟩

theorem executeConditional_lives (payment_id : Id) :
    (ConditionalPaymentService.executePayment col payment_id).only Lives := by
  refine only_bind (only_stmt trivial) fun _ => only_bind only_orRaise fun _ => ?_
  refine only_bind (credit_lives ..) fun _ => only_bind ?_ fun _ => ?_
  · exact only_bind (only_stmt trivial) fun now => only_stmt fun _ h => .execute now (by simpa using h)
  · exact only_bind only_raiseIf fun _ => lives_of_aside (refetchPayment_aside ..)

theorem caught_aside {p : Program Bool} {caught : Exn → Bool} (hp : p.only Aside) :
    (tryCatch p fun e => if caught e then return false else .raise e).only Aside := by
  refine only_tryCatch hp fun e => ?_
  split
  · trivial
  · trivial

theorem conditionMet_aside (now : Time) (payment : ConditionalPayment) :
    (ConditionalPaymentService.conditionMet parse now payment).only Aside := by
  unfold ConditionalPaymentService.conditionMet
  dsimp only
  split
  · exact caught_aside (only_bind (attempt_aside _) fun _ => trivial)
  · refine caught_aside (only_bind (attempt_aside _) fun _ => ?_)
    refine only_bind (only_stmt ⟨trivial, trivial⟩) fun deal => ?_
    split
    · trivial
    · trivial
  · refine caught_aside (only_bind (attempt_aside _) fun _ => only_bind (attempt_aside _) fun _ => ?_)
    exact only_bind (getAvailable_aside ..) fun _ => attempt_aside _
  · trivial

/-- A payment is executed only when its own update has triggered it. -/
theorem evaluateConditions_lives :
    (ConditionalPaymentService.evaluateConditions col parse).only Lives := by
  refine lives_after (query_aside _) fun _ => only_bind (only_stmt trivial) fun now => ?_
  refine only_tally _ fun payment => lives_after (conditionMet_aside ..) fun met => ?_
  split
  · refine lives_after (trigger_aside _) fun triggered => ?_
    split
    · exact only_bind (executeConditional_lives _) fun _ => trivial
    · trivial
  · trivial

theorem expireConditionals_lives : (ConditionalPaymentService.expireStale col).only Lives := by
  refine lives_after (listed_aside ..) fun payments => only_tally payments fun payment => ?_
  -- the credit comes first, and the update may find the payment settled
  refine only_bind (credit_lives ..) fun _ => ?_
  exact only_stmt fun _ h => .expire (by simpa using h)

theorem validateConditionConfig_aside (condition_type : String) (config : List (String × Json)) :
    (validateConditionConfig condition_type config).only Aside :=
  only_forEach _ fun _ => only_raiseIf

theorem ConditionalCall.body_lives (call : ConditionalCall) : (call.body col parse).only Lives := by
  cases call with
  | createConditional =>
      refine only_bind (only_bind only_raiseIf fun _ => only_bind only_raiseIf fun _ => ?_)
        fun _ => trivial
      refine lives_after (validateConditionConfig_aside ..) fun _ => ?_
      refine only_bind (deduct_lives ..) fun _ => ?_
      refine only_bind (only_stmt trivial) fun _ => ?_
      exact only_bind (only_stmt rfl) fun _ => only_bind only_raiseIf fun _ => trivial
  | evaluateConditions => exact only_bind evaluateConditions_lives fun _ => trivial
  | triggerWebhook =>
      refine only_bind (only_bind (only_stmt trivial) fun _ => only_bind only_orRaise fun _ => ?_)
        fun _ => trivial
      refine only_bind only_raiseIf fun _ => only_bind only_raiseIf fun _ => ?_
      exact lives_after (trigger_aside _) fun _ => only_bind only_raiseIf fun _ =>
        executeConditional_lives _
  | cancel =>
      refine only_bind (only_bind (only_stmt trivial) fun _ => only_bind only_orRaise fun _ => ?_)
        fun _ => trivial
      refine only_bind only_raiseIf fun _ => only_bind only_raiseIf fun _ => ?_
      refine only_bind (credit_lives ..) fun _ => ?_
      refine only_bind (only_stmt fun _ h => .cancel (by simpa using h)) fun _ => ?_
      exact only_bind only_raiseIf fun _ => lives_of_aside (refetchPayment_aside ..)
  | expireStale => exact only_bind expireConditionals_lives fun _ => trivial
  | loop =>
      refine only_bind evaluateConditions_lives fun _ => ?_
      exact only_bind expireConditionals_lives fun _ => trivial

/-! ### Payments to several recipients -/

theorem getRecipients_aside (payment_id : Id) :
    (MultiPartyRepository.getRecipients payment_id).only Aside :=
  only_bind (query_aside _) fun _ => trivial

theorem leavePending_aside {state : MultiPartyPaymentState} (payment_id : Id)
    (hstate : state ≠ .PENDING) : (MultiPartyRepository.leavePending state payment_id).only Aside :=
  only_bind (only_stmt ⟨trivial, trivial⟩) fun now =>
    only_stmt ⟨fun _ h => .leavePending state now (by simpa using h) hstate, fun _ h _ => h⟩

theorem resolve_aside (recipients : List RecipientData) :
    (MultiPartyService.resolve recipients).only Aside := by
  induction recipients with
  | nil => trivial
  | cons r recipients ih =>
      refine only_bind (only_bind (query_aside _) fun _ => trivial) fun _ => ?_
      refine only_bind only_orRaise fun _ => only_bind only_raiseIf fun _ => ?_
      exact only_bind ih fun _ => trivial

theorem findPending_aside (payment_id agent_id : Id) :
    (MultiPartyService.findPending payment_id agent_id).only Aside := by
  refine only_bind (only_stmt ⟨trivial, trivial⟩) fun _ => only_bind only_orRaise fun _ => ?_
  refine only_bind only_raiseIf fun _ => only_bind (getRecipients_aside _) fun _ => ?_
  exact only_bind only_orRaise fun _ => trivial

theorem completeIfResponded_aside (payment_id : Id) :
    (MultiPartyService.completeIfResponded payment_id).only Aside := by
  refine only_bind (only_stmt ⟨trivial, trivial⟩) fun _ => only_bind (getRecipients_aside _) fun _ => ?_
  exact only_bind (only_onlyIf (leavePending_aside _ (by decide))) fun _ => trivial

theorem acceptRecipient_aside (payment_id recipient_id : Id) :
    (MultiPartyRepository.acceptRecipient payment_id recipient_id).only Aside :=
  only_bind (only_stmt ⟨trivial, trivial⟩) fun now =>
    only_stmt ⟨fun _ h => .answer true now (by simpa using h), fun _ h _ => h⟩

theorem rejectRecipient_aside (payment_id recipient_id : Id) :
    (MultiPartyRepository.rejectRecipient payment_id recipient_id).only Aside :=
  only_bind (only_stmt ⟨trivial, trivial⟩) fun now =>
    only_stmt ⟨fun _ h => .answer false now (by simpa using h), fun _ h _ => h⟩

theorem accept_lives (agent_id payment_id : Id) :
    (MultiPartyService.accept col agent_id payment_id).only Lives := by
  refine lives_after (findPending_aside ..) fun found => ?_
  dsimp only
  split
  · trivial
  refine lives_after (acceptRecipient_aside ..) fun _ => ?_
  split
  · trivial
  split
  · refine only_bind (only_stmt trivial) fun _ => lives_after (getRecipients_aside _) fun _ => ?_
    split
    · refine only_bind (only_forEach _ fun r => only_bind (credit_lives ..) fun _ => trivial)
        fun _ => ?_
      exact lives_after (leavePending_aside _ (by decide)) fun _ => trivial
    · trivial
  · refine only_bind (credit_lives ..) fun _ => ?_
    exact lives_after (completeIfResponded_aside _) fun _ => trivial

theorem reject_lives (agent_id payment_id : Id) :
    (MultiPartyService.reject col agent_id payment_id).only Lives := by
  refine lives_after (findPending_aside ..) fun found => ?_
  refine lives_after (rejectRecipient_aside ..) fun _ => ?_
  refine only_bind only_raiseIf fun _ => ?_
  split
  · refine only_bind (credit_lives ..) fun _ => ?_
    exact lives_after (leavePending_aside _ (by decide)) fun _ => trivial
  · refine only_bind (credit_lives ..) fun _ => ?_
    exact lives_after (completeIfResponded_aside _) fun _ => trivial

theorem expireOne_lives (payment_id : Id) (payment : MultiPartyPayment) :
    (MultiPartyService.expireOne col payment_id payment).only Lives := by
  have hexpire : ((MultiPartyRepository.expire payment_id).bind fun _ => Prog.ret ()).only Lives :=
    lives_after (leavePending_aside _ (by decide)) fun _ => trivial
  unfold MultiPartyService.expireOne
  split
  · exact only_bind (credit_lives ..) fun _ => hexpire
  · refine lives_after (getRecipients_aside _) fun _ => only_bind (only_forEach _ fun r => ?_) fun _ => ?_
    · exact only_onlyIf (credit_lives ..)
    · exact hexpire

theorem MultiPartyCall.body_lives (call : MultiPartyCall) : (call.body col).only Lives := by
  cases call with
  | createMultiParty =>
      refine only_bind (only_bind only_raiseIf fun _ => only_bind only_raiseIf fun _ => ?_)
        fun _ => trivial
      refine only_bind only_raiseIf fun _ => lives_after (resolve_aside _) fun _ => ?_
      refine only_bind only_raiseIf fun _ => only_bind (deduct_lives ..) fun _ => ?_
      refine only_bind (only_stmt trivial) fun _ => only_bind ?_ fun _ => ?_
      · refine only_bind (only_stmt rfl) fun _ => only_bind only_raiseIf fun _ => ?_
        refine only_bind (only_forEach _ fun r => ?_) fun _ => trivial
        exact only_bind (only_stmt rfl) fun _ => only_raiseIf
      · exact lives_after (getRecipients_aside _) fun _ => trivial
  | accept => exact only_bind (accept_lives ..) fun _ => trivial
  | reject => exact only_bind (reject_lives ..) fun _ => trivial
  | expireStale =>
      refine only_bind (lives_after (listed_aside ..) fun _ => ?_) fun _ => trivial
      exact only_bind (only_forEach _ fun p => expireOne_lives ..) fun _ => trivial

/-! ### Loans -/

theorem getOrCreateScore_aside (agent_id : Id) : (CreditRepository.getOrCreate agent_id).only Aside := by
  refine only_bind (only_stmt ⟨trivial, trivial⟩) fun record => ?_
  cases record with
  | some record => trivial
  | none =>
      refine only_bind (only_stmt ⟨trivial, trivial⟩) fun _ => ?_
      exact only_bind only_raiseIf fun _ => trivial

theorem calculateCreditScore_aside (agent_id : Id) :
    (CreditService.calculateCreditScore col floats agent_id).only Aside := by
  refine only_bind (only_stmt ⟨trivial, trivial⟩) fun _ => only_bind only_orRaise fun _ => ?_
  refine only_bind (only_stmt ⟨trivial, trivial⟩) fun _ => ?_
  refine only_bind (getOrCreateScore_aside _) fun _ => ?_
  refine only_bind (only_stmt ⟨trivial, trivial⟩) fun _ => ?_
  refine only_bind (getAvailable_aside ..) fun _ => only_bind ?_ fun _ => trivial
  refine only_bind (only_stmt ⟨trivial, trivial⟩) fun _ => ?_
  exact only_stmt ⟨fun _ _ => trivial, fun _ _ _ => trivial⟩

/-- What is recorded of a loan. -/
theorem assignScore_aside (agent_id : Id) (set : AgentCreditScore → AgentCreditScore → AgentCreditScore) :
    ((CreditRepository.getOrCreate agent_id).bind fun record =>
      assign (S := schema) (Key.creditScore agent_id) (set record)).only Aside :=
  only_bind (getOrCreateScore_aside _) fun _ =>
    only_stmt ⟨fun _ => trivial, fun _ _ => trivial⟩

theorem refetchLoan_aside (loan_id : Id) : (refetchLoan loan_id).only Aside :=
  only_bind (only_stmt ⟨trivial, trivial⟩) fun _ => only_orRaise

theorem overdueLoans_aside : LoanRepository.getOverdueActiveLoans.only Aside :=
  listed_aside ..

theorem requestLoan_lives (loan_id borrower_id : Id) (amount : ℚ) (currency : Token)
    (duration_secs : ℤ) (collateral_amount : ℚ) :
    (CreditService.requestLoan col floats loan_id borrower_id amount currency duration_secs
      collateral_amount).only Lives := by
  refine lives_after (calculateCreditScore_aside _) fun _ => ?_
  refine lives_after (listed_aside ..) fun _ => ?_
  refine only_bind only_orRaise fun _ => only_bind (only_onlyIf (deduct_lives ..)) fun _ => ?_
  refine only_bind (only_stmt trivial) fun _ => ?_
  exact only_bind (only_stmt rfl) fun _ => only_bind only_raiseIf fun _ => trivial

theorem fundLoan_lives (lender_id loan_id : Id) :
    (CreditService.fundLoan col lender_id loan_id).only Lives := by
  refine only_bind (only_stmt trivial) fun _ => only_bind only_orRaise fun _ => ?_
  refine only_bind only_raiseIf fun _ => only_bind only_raiseIf fun _ => ?_
  refine only_bind (deduct_lives ..) fun _ => only_bind (credit_lives ..) fun _ => ?_
  refine only_bind ?_ fun _ => ?_
  · exact only_bind (only_stmt trivial) fun now => only_stmt fun _ h => .fund now (by simpa using h)
  refine only_bind only_raiseIf fun _ => ?_
  exact lives_after (assignScore_aside ..) fun _ => lives_of_aside (refetchLoan_aside _)

theorem releaseCollateral_lives (loan_id agent_id : Id) (loan : AgentLoan) :
    (CreditService.releaseCollateral col loan_id agent_id loan).only Lives :=
  only_onlyIf (credit_lives ..)

theorem repayLoan_lives (borrower_id loan_id : Id) :
    (CreditService.repayLoan col floats borrower_id loan_id).only Lives := by
  refine only_bind (only_stmt trivial) fun _ => only_bind only_orRaise fun _ => ?_
  refine only_bind only_raiseIf fun _ => only_bind only_raiseIf fun _ => ?_
  refine only_bind (deduct_lives ..) fun _ => only_bind (credit_lives ..) fun _ => ?_
  refine only_bind (releaseCollateral_lives ..) fun _ => ?_
  refine only_bind (only_stmt trivial) fun _ => only_bind only_orRaise fun _ => ?_
  -- the fee is written to the object, which no update guards
  refine only_bind (only_stmt fun _ => .assess _) fun _ => only_bind ?_ fun _ => ?_
  · exact only_bind (only_stmt trivial) fun now => only_stmt fun _ h => .repay _ now (by simpa using h)
  refine only_bind only_raiseIf fun _ => only_bind (only_stmt trivial) fun _ => ?_
  refine lives_after (assignScore_aside ..) fun _ => ?_
  exact lives_after (calculateCreditScore_aside _) fun _ => lives_of_aside (refetchLoan_aside _)

theorem defaultOne_lives (loan_id : Id) (loan : AgentLoan) :
    (CreditService.defaultOne col loan_id loan).only Lives := by
  refine only_bind ?_ fun rows => ?_
  · exact only_bind (only_stmt trivial) fun now => only_stmt fun _ h => .default now (by simpa using h)
  split
  · trivial
  refine only_bind (releaseCollateral_lives ..) fun _ => only_bind (only_stmt trivial) fun _ => ?_
  refine lives_after (assignScore_aside ..) fun _ => ?_
  exact lives_after (refetchLoan_aside _) fun _ => trivial

theorem LoanCall.body_lives (call : LoanCall) : (call.body col floats).only Lives := by
  cases call with
  | requestLoan => exact only_bind (requestLoan_lives ..) fun _ => trivial
  | fundLoan => exact only_bind (fundLoan_lives ..) fun _ => trivial
  | repayLoan => exact only_bind (repayLoan_lives ..) fun _ => trivial
  | detectDefaults =>
      refine only_bind (lives_after overdueLoans_aside fun overdue => ?_) fun _ => trivial
      exact only_tally _ fun loan => defaultOne_lives ..

/-! ### Subscriptions and split payments -/

theorem cancelRecurring_aside (payment_id : Id) :
    (SubscriptionRepository.cancel payment_id).only Aside :=
  only_bind (only_stmt ⟨trivial, trivial⟩) fun _ =>
    only_stmt ⟨fun _ _ => ⟨rfl, rfl, rfl, fun _ => rfl⟩, fun _ h _ => h⟩

theorem recordPayment_aside (payment_id : Id) (next_payment_at : Time) :
    (SubscriptionRepository.recordPayment col payment_id next_payment_at).only Aside := by
  refine only_bind (only_stmt ⟨trivial, trivial⟩) fun now => ?_
  refine only_bind (only_stmt ⟨trivial, trivial⟩) fun payment => ?_
  cases payment with
  | none => trivial
  | some payment => exact only_stmt ⟨fun _ _ => ⟨rfl, rfl, rfl, id⟩, fun _ h _ => h⟩

theorem executeRecurring_lives (payment_id : Id) (payment : RecurringPayment) :
    (SubscriptionService.executePayment col payment_id payment).only Lives := by
  unfold SubscriptionService.executePayment
  dsimp only
  split
  · trivial
  refine lives_after (getAvailable_aside ..) fun _ => ?_
  split
  · trivial
  refine only_bind (deduct_lives ..) fun _ => only_bind (credit_lives ..) fun _ => ?_
  refine only_bind (only_stmt trivial) fun _ => lives_after (recordPayment_aside ..) fun _ => ?_
  refine only_bind (only_stmt trivial) fun _ => ?_
  exact only_bind (only_onlyIf (lives_of_aside (cancelRecurring_aside _))) fun _ => trivial

theorem updateRecurring_lives (payment_id : Id) (amount : Option ℚ)
    (interval : Option RecurringInterval) :
    (SubscriptionRepository.update col payment_id amount interval).only Lives := by
  unfold SubscriptionRepository.update
  split
  · trivial
  -- a subscription that is cancelled may still get another amount
  · exact only_bind only_raiseIf fun _ => only_stmt fun _ _ => ⟨rfl, rfl, rfl, id⟩

theorem refreshed_aside (payment_id : Id) : (SubscriptionService.refreshed payment_id).only Aside :=
  only_bind (only_stmt ⟨trivial, trivial⟩) fun _ => only_orRaise

theorem SubscriptionCall.run_lives (call : SubscriptionCall) : (call.run col).only Lives := by
  refine only_withSession trivial trivial ?_
  cases call with
  | createSubscription =>
      refine only_bind (only_bind only_raiseIf fun _ => only_bind only_raiseIf fun _ => ?_)
        fun _ => trivial
      refine only_bind (only_stmt trivial) fun _ => only_bind (only_bind only_raiseIf fun _ => ?_)
        fun _ => trivial
      exact only_bind (only_stmt rfl) fun _ => only_bind only_raiseIf fun _ => trivial
  | updateSubscription =>
      refine only_bind (only_bind (only_stmt trivial) fun _ => only_bind only_orRaise fun _ => ?_)
        fun _ => trivial
      refine only_bind only_raiseIf fun _ => only_bind (updateRecurring_lives ..) fun _ => ?_
      exact lives_after (refreshed_aside _) fun _ => trivial
  | cancelSubscription =>
      refine only_bind (only_bind (only_stmt trivial) fun _ => only_bind only_orRaise fun _ => ?_)
        fun _ => trivial
      refine only_bind only_raiseIf fun _ => lives_after (cancelRecurring_aside _) fun _ => ?_
      exact lives_after (refreshed_aside _) fun _ => trivial
  | executeDuePayments =>
      refine only_bind (only_bind ?_ fun due => only_tally due fun p => executeRecurring_lives ..)
        fun _ => trivial
      refine only_bind (only_stmt trivial) fun now => only_bind (only_stmt trivial) fun ks => ?_
      refine only_bind (only_stmt trivial) fun _ => ?_
      exact SubscriptionRepository.lockDue_only trivial (fun _ => trivial) now ks

theorem resolveSplit_aside (agent_id : Id) (recipients : List SplitRecipient) :
    (SplitPaymentService.resolve agent_id recipients).only Aside := by
  induction recipients with
  | nil => trivial
  | cons r recipients ih =>
      refine only_bind (only_bind (query_aside _) fun _ => trivial) fun _ => ?_
      refine only_bind only_orRaise fun _ => only_bind only_raiseIf fun _ => ?_
      exact only_bind ih fun _ => trivial

theorem payOne_lives (agent_id : Id) (currency : Token) (memo : Option String)
    (entry : Id × SplitRecipient) :
    (SplitPaymentService.payOne col agent_id currency memo entry).only Lives := by
  refine only_bind (credit_lives ..) fun _ => only_bind (only_stmt trivial) fun _ => ?_
  exact only_bind only_raiseIf fun _ => only_bind (only_stmt trivial) fun _ => only_raiseIf

theorem SpendingCall.run_lives (call : SpendingCall) : (call.run col).only Lives := by
  cases call with
  | channel call => exact call.runAudited_lives
  | paySplit agent_id recipients currency memo =>
      refine only_withSession trivial trivial (only_bind only_raiseIf fun _ => ?_)
      refine lives_after (resolveSplit_aside ..) fun _ => only_bind (deduct_lives ..) fun _ => ?_
      exact only_forEach _ fun entry => payOne_lives agent_id currency memo entry
  | executeDuePayments => exact SubscriptionCall.run_lives _

end Statements

/-! ## Runs of the hub -/

/-- The calls of the services, each in a session of its own. The contracts come with the calls for their
deals, and the split payments with those for channels. -/
inductive HubCall where
  | createEscrow (deal_id buyer_id seller_id : Id) (amount : ℚ) (description : String)
      (accept_timeout_hours delivery_timeout_hours review_timeout_hours : ℤ)
      (milestones : Option (List MilestoneData))
  | contract (call : SlaCall)
  | spending (call : SpendingCall)
  | conditional (call : ConditionalCall)
  | multiParty (call : MultiPartyCall)
  | loan (call : LoanCall)
  | subscription (call : SubscriptionCall)

section Runs

variable (col : Columns) (floats : Floats) (parse : Constructors)

def HubCall.run : HubCall → Program Unit
  | createEscrow deal_id buyer_id seller_id amount description a b c milestones =>
      withSession do
        let _ ← EscrowService.createEscrow col deal_id buyer_id seller_id amount description a b c
          milestones
  | contract call => call.run col
  | spending call => call.run col
  | conditional call => call.run col parse
  | multiParty call => call.run col
  | loan call => call.run col floats
  | subscription call => call.run col

theorem HubCall.run_lives (call : HubCall) : (call.run col floats parse).only Lives := by
  cases call with
  | createEscrow =>
      exact only_withSession trivial trivial (only_bind (createEscrow_lives ..) fun _ => trivial)
  | contract call => exact only_withSession trivial trivial call.body_lives
  | spending call => exact call.run_lives
  | conditional call => exact only_withSession trivial trivial call.body_lives
  | multiParty call => exact only_withSession trivial trivial call.body_lives
  | loan call => exact only_withSession trivial trivial call.body_lives
  | subscription call => exact call.run_lives

variable {col floats parse}

/-- Any number of calls, side by side, with statements in any order; any of them may die. -/
abbrev HubRun (col : Columns) (floats : Floats) (parse : Constructors) (st : Store schema)
    (calls : ℕ → HubCall) : Config schema Unit → Prop :=
  Config.Reaches (fun _ _ _ _ => True) (Config.start st fun i => (calls i).run col floats parse)

variable {st : Store schema} {calls : ℕ → HubCall} {c₁ c₂ : Config schema Unit}

/-- Every row of the later state has lived since the earlier one. -/
def RowsLive (c₁ c₂ : Config schema Unit) : Prop :=
  ∀ k, Lived (Move k) (IsNew k) (c₁.store.db.rows k) (c₂.store.db.rows k)

/-- **The services together are the machines of their rows**: from any state of a run to any later one,
each agreement has made a path of its machine, was begun, or is still not there. -/
theorem hub_lives (hwf : st.db.WF) (h₁ : HubRun col floats parse st calls c₁)
    (h₂ : Config.Reaches (fun _ _ _ _ => True) c₁ c₂) : RowsLive c₁ c₂ := fun k =>
  Config.lived hwf (fun i => (calls i).run_lives col floats parse) h₁ h₂ k

end Runs

/-! ### A run -/

/-- The sweep comes, and then the webhook fires. -/
def sweepThenTrigger : ℕ → HubCall
  | 0 => .conditional (.triggerWebhook 1 1)
  | _ => .conditional .expireStale

/-- The payment of `lockedFive`; no scores are made here. -/
def sweptHub : Config schema Unit :=
  .start lockedFive fun i =>
    (sweepThenTrigger i).run .rounding ⟨fun _ _ => 0, fun _ => 0, fun _ _ => 0⟩ readsNothing

/-- The state when the sweep is done, and a later one. -/
theorem exists_swept : ∃ (c₁ c₂ : Config schema Unit) (r : ConditionalPayment),
    Config.Reaches (fun _ _ _ _ => True) sweptHub c₁ ∧
      Config.Reaches (fun _ _ _ _ => True) c₁ c₂ ∧
      c₁.store.db.rows (Key.conditional 1) = some r ∧ r.state = .EXPIRED := by
  have htrace : ((Config.trace (turn 1 8 3) sweptHub).any fun c =>
      (Config.trace (turn 0 2 4) c).isSome ∧
        Config.passes (fun _ _ _ _ => true) (turn 0 2 4) c = true ∧
        ((c.store.db.rows (Key.conditional 1)).any fun r => r.state = .EXPIRED) = true) = true := by
    decide +kernel
  have hpasses : Config.passes (fun _ _ _ _ => true) (turn 1 8 3) sweptHub = true := by
    decide +kernel
  simp only [Option.any_eq_true, decide_eq_true_eq, Option.isSome_iff_exists] at htrace
  obtain ⟨c₁, hc₁, ⟨c₂, hc₂⟩, hpass, r, hr, hstate⟩ := htrace
  have hreach {c c' : Config schema Unit} (l : List (ℕ × Input schema))
      (hp : Config.passes (fun _ _ _ _ => true) l c = true) (hl : Config.trace l c = some c') :
      Config.Reaches (fun _ _ _ _ => True) c c' :=
    Config.reaches_of_trace (fun _ _ _ _ => true) (fun _ _ _ _ _ => trivial) l .refl hp hl
  exact ⟨c₁, c₂, r, hreach _ hpasses hc₁, hreach _ hpass hc₂, hr, hstate⟩

theorem hub_lives_swept : ∃ c : Config schema Unit, RowsLive sweptHub c ∧
    ∃ r : ConditionalPayment, c.store.db.rows (Key.conditional 1) = some r ∧ r.state = .EXPIRED := by
  obtain ⟨c₁, c₂, r, h₁, -, hr⟩ := exists_swept
  exact ⟨c₁, hub_lives lockedFive_wf .refl h₁, r, hr⟩

/-! ## What has been agreed on -/

/-- Who takes part, and for what. -/
def SameTerms : (k : Key) → Row k → Row k → Prop
  | .deal _ => fun d d' : EscrowDeal =>
      d'.buyer_id = d.buyer_id ∧ d'.seller_id = d.seller_id ∧ d'.amount = d.amount ∧ d'.token = d.token ∧
        d'.description = d.description ∧ d'.fee_percent = d.fee_percent
  | .milestone _ _ => fun m m' : EscrowMilestone =>
      m'.amount = m.amount ∧ m'.description = m.description ∧
        m'.delivery_timeout_hours = m.delivery_timeout_hours ∧
        m'.review_timeout_hours = m.review_timeout_hours
  | .channel _ => fun c c' : PaymentChannel =>
      c'.agent_a_id = c.agent_a_id ∧ c'.agent_b_id = c.agent_b_id ∧ c'.capacity = c.capacity ∧
        c'.deposit_a = c.deposit_a ∧ c'.deposit_b = c.deposit_b ∧
        c'.settlement_period = c.settlement_period
  | .channelUpdate _ _ => fun u u' : ChannelUpdate => u' = u
  | .conditional _ => fun p p' : ConditionalPayment =>
      p'.from_agent_id = p.from_agent_id ∧ p'.to_agent_id = p.to_agent_id ∧ p'.amount = p.amount ∧
        p'.currency = p.currency ∧ p'.condition_type = p.condition_type ∧
        p'.condition_config = p.condition_config ∧ p'.locked_amount = p.locked_amount ∧
        p'.expires_at = p.expires_at
  | .multiParty _ => fun p p' : MultiPartyPayment =>
      p'.sender_id = p.sender_id ∧ p'.total_amount = p.total_amount ∧ p'.currency = p.currency ∧
        p'.require_all_accept = p.require_all_accept ∧ p'.accept_deadline = p.accept_deadline
  | .recipient _ _ => fun r r' : MultiPartyRecipient => r'.amount = r.amount
  | .loan _ => fun l l' : AgentLoan =>
      l'.lender_id = l.lender_id ∧ l'.borrower_id = l.borrower_id ∧ l'.principal = l.principal ∧
        l'.currency = l.currency ∧ l'.interest_rate_bps = l.interest_rate_bps ∧
        l'.repayment_amount = l.repayment_amount ∧ l'.collateral_amount = l.collateral_amount ∧
        l'.collateral_currency = l.collateral_currency ∧ l'.expires_at = l.expires_at
  | .slaContract _ => fun s s' : SLAContract =>
      s'.provider_id = s.provider_id ∧ s'.consumer_id = s.consumer_id ∧ s'.price = s.price ∧
        s'.currency = s.currency ∧ s'.delivery_time_secs = s.delivery_time_secs ∧
        s'.response_time_secs = s.response_time_secs ∧ s'.penalty_percent = s.penalty_percent ∧
        s'.escrow_deal_id = s.escrow_deal_id
  | .recurring _ => fun p p' : RecurringPayment =>
      p'.from_agent_id = p.from_agent_id ∧ p'.to_agent_id = p.to_agent_id ∧
        p'.max_payments = p.max_payments
  | _ => fun _ _ => True

theorem SameTerms.refl (k : Key) (r : Row k) : SameTerms k r r := by
  cases k <;> simp [SameTerms]

theorem SameTerms.trans {k : Key} {r₁ r₂ r₃ : Row k} (h : SameTerms k r₁ r₂) (h' : SameTerms k r₂ r₃) :
    SameTerms k r₁ r₃ := by
  cases k <;> simp_all [SameTerms]

theorem sameTerms_of_dealUpdate {guard : EscrowDeal → Bool} {set : EscrowDeal → EscrowDeal}
    (h : DealUpdate guard set) (e : Id) (deal : EscrowDeal) :
    SameTerms (.deal e) deal (set deal) := by
  cases h <;> exact ⟨rfl, rfl, rfl, rfl, rfl, rfl⟩

theorem sameTerms_of_milestoneUpdate {guard : EscrowMilestone → Bool}
    {set : EscrowMilestone → EscrowMilestone} (h : MilestoneUpdate guard set) (e : Id) (n : ℕ)
    (ms : EscrowMilestone) : SameTerms (.milestone e n) ms (set ms) := by
  cases h <;> exact ⟨rfl, rfl, rfl, rfl⟩

/-- The step lemma: no move changes the terms. -/
theorem Move.sameTerms {k : Key} {r r' : Row k} (h : Move k r r') : SameTerms k r r' := by
  cases k with
  | deal e =>
      cases h with
      | update hupdate _ => exact sameTerms_of_dealUpdate hupdate e r
      | expire | setup => exact ⟨rfl, rfl, rfl, rfl, rfl, rfl⟩
  | milestone e n =>
      cases h with
      | update hupdate _ => exact sameTerms_of_milestoneUpdate hupdate e n r
  | channel => cases h <;> exact ⟨rfl, rfl, rfl, rfl, rfl, rfl⟩
  | channelUpdate => exact h.elim
  | conditional => cases h <;> exact ⟨rfl, rfl, rfl, rfl, rfl, rfl, rfl, rfl⟩
  | multiParty =>
      cases h
      exact ⟨rfl, rfl, rfl, rfl, rfl⟩
  | recipient =>
      cases h
      rfl
  | loan => cases h <;> exact ⟨rfl, rfl, rfl, rfl, rfl, rfl, rfl, rfl, rfl⟩
  | slaContract => cases h <;> exact ⟨rfl, rfl, rfl, rfl, rfl, rfl, rfl, rfl⟩
  | recurring => exact ⟨h.sender, h.recipient, h.limit⟩
  | _ => trivial

theorem sameTerms_of_path {k : Key} {r r' : Row k} (h : Relation.ReflTransGen (Move k) r r') :
    SameTerms k r r' := by
  induction h with
  | refl => exact .refl k _
  | tail _ hmove ih => exact ih.trans hmove.sameTerms

/-- A row of the earlier state is there in the later one, under the same terms. -/
def TermsKept (c₁ c₂ : Config schema Unit) : Prop :=
  ∀ k r, c₁.store.db.rows k = some r → ∃ r', c₂.store.db.rows k = some r' ∧ SameTerms k r r'

section

variable {col : Columns} {floats : Floats} {parse : Constructors} {st : Store schema}
  {calls : ℕ → HubCall} {c₁ c₂ : Config schema Unit}

end

/-! ## What is settled -/

/-- Nothing more is to come of the row. -/
def Settled : (k : Key) → Row k → Prop
  | .milestone _ _ => fun ms : EscrowMilestone =>
      ms.status = .COMPLETED ∨ ms.status = .EXPIRED ∨ ms.status = .CANCELLED
  | .channel _ => fun channel : PaymentChannel => channel.status = .CLOSED
  | .channelUpdate _ _ => fun _ => True
  | .conditional _ => fun payment : ConditionalPayment =>
      payment.state = .EXECUTED ∨ payment.state = .EXPIRED ∨ payment.state = .CANCELLED
  | .multiParty _ => fun payment : MultiPartyPayment => payment.state ≠ .PENDING
  | .recipient _ _ => fun recipient : MultiPartyRecipient => recipient.accepted ≠ none
  | .loan _ => fun loan : AgentLoan => loan.state = .REPAID ∨ loan.state = .DEFAULTED
  | .slaContract _ => fun contract : SLAContract =>
      contract.state = .COMPLETED ∨ contract.state = .BREACHED ∨ contract.state = .DISPUTED
  | .recurring _ => fun payment : RecurringPayment => payment.is_active = false
  | _ => fun _ => False

/-- What is left of a settled row: all of it, but for the fee of a loan, which has no guard, and the amount
and interval of a subscription, which may be changed though nothing is paid any more. -/
def LeftAs : (k : Key) → Row k → Row k → Prop
  | .loan _ => fun loan loan' : AgentLoan => loan' = { loan with platform_fee := loan'.platform_fee }
  | .recurring _ => fun payment payment' : RecurringPayment =>
      payment'.is_active = payment.is_active
  | _ => fun row row' => row' = row

theorem LeftAs.refl (k : Key) (r : Row k) : LeftAs k r r := by
  cases k <;> rfl

theorem LeftAs.trans {k : Key} {r₁ r₂ r₃ : Row k} (h : LeftAs k r₁ r₂) (h' : LeftAs k r₂ r₃) :
    LeftAs k r₁ r₃ := by
  cases k with
  | loan id =>
      change r₂ = { r₁ with platform_fee := r₂.platform_fee } at h
      change r₃ = { r₂ with platform_fee := r₃.platform_fee } at h'
      change r₃ = { r₁ with platform_fee := r₃.platform_fee }
      rw [h'.trans (by rw [h])]
  | _ => exact Eq.trans h' h

theorem not_settled_of_update {guard : EscrowMilestone → Bool}
    {set : EscrowMilestone → EscrowMilestone} (h : MilestoneUpdate guard set) {ms : EscrowMilestone}
    (hguard : guard ms = true) :
    ¬(ms.status = .COMPLETED ∨ ms.status = .EXPIRED ∨ ms.status = .CANCELLED) := by
  cases h <;> simp_all

/-- The step lemma: all the moves of a settled row leave it so. -/
theorem Settled.move {k : Key} {r r' : Row k} (hsettled : Settled k r) (hmove : Move k r r') :
    Settled k r' ∧ LeftAs k r r' := by
  cases k with
  | milestone e n =>
      cases hmove with
      | update hupdate hguard => exact absurd hsettled (not_settled_of_update hupdate hguard)
  | channel => cases hmove <;> simp_all [Settled]
  | channelUpdate => exact hmove.elim
  | conditional => cases hmove <;> simp_all [Settled]
  | multiParty =>
      cases hmove with
      | leavePending _ _ hpending _ => exact absurd hpending hsettled
  | recipient =>
      cases hmove with
      | answer _ _ hopen => exact absurd hopen hsettled
  | loan =>
      -- the fee is assessed in any state
      cases hmove with
      | assess => exact ⟨hsettled, rfl⟩
      | _ => simp_all [Settled]
  | slaContract =>
      -- a dispute may come in two states, so that both sides are taken apart
      rcases hsettled with h | h | h <;> cases hmove <;> simp_all
  | recurring => exact ⟨hmove.inactive hsettled, (hmove.inactive hsettled).trans hsettled.symm⟩
  | _ => exact hsettled.elim

theorem Settled.path {k : Key} {r r' : Row k} (hsettled : Settled k r)
    (h : Relation.ReflTransGen (Move k) r r') : Settled k r' ∧ LeftAs k r r' := by
  induction h with
  | refl => exact ⟨hsettled, .refl k r⟩
  | tail _ hmove ih =>
      obtain ⟨hstill, hleft⟩ := ih.1.move hmove
      exact ⟨hstill, ih.2.trans hleft⟩

/-- The settled rows of the earlier state are still settled, and as they were. -/
def SettledStays (c₁ c₂ : Config schema Unit) : Prop :=
  ∀ k r, c₁.store.db.rows k = some r → Settled k r →
    ∃ r', c₂.store.db.rows k = some r' ∧ Settled k r' ∧ LeftAs k r r'

section

variable {col : Columns} {floats : Floats} {parse : Constructors} {st : Store schema}
  {calls : ℕ → HubCall} {c₁ c₂ : Config schema Unit}

/-- **What is settled is not touched again**: a milestone that was paid, refunded or cancelled, a closed
channel, a payment that was executed, refunded or rejected, an answer, a repaid or defaulted loan, a
contract that was verified, breached or disputed, a subscription that was cancelled. -/
theorem settled_stays (hwf : st.db.WF) (h₁ : HubRun col floats parse st calls c₁)
    (h₂ : Config.Reaches (fun _ _ _ _ => True) c₁ c₂) : SettledStays c₁ c₂ := by
  intro k r hrow hsettled
  obtain ⟨r', hr', hpath⟩ :=
    Config.went hwf (fun i => (calls i).run_lives col floats parse) h₁ h₂ hrow
  exact ⟨r', hr', hsettled.path hpath⟩

/-- The webhook comes too late. -/
theorem settled_stays_swept : ∃ (c₁ c₂ : Config schema Unit) (r : ConditionalPayment),
    Config.Reaches (fun _ _ _ _ => True) c₁ c₂ ∧ r.state = .EXPIRED ∧
      c₁.store.db.rows (Key.conditional 1) = some r ∧
      c₂.store.db.rows (Key.conditional 1) = some r := by
  obtain ⟨c₁, c₂, r, h₁, h₂, hr, hstate⟩ := exists_swept
  obtain ⟨r', hr', -, hleft⟩ := settled_stays lockedFive_wf h₁ h₂ (Key.conditional 1) r hr
    (.inr (.inl hstate))
  rw [show r' = r from hleft] at hr'
  exact ⟨c₁, c₂, r, h₂, hstate, hr, hr'⟩

end

end Sthrip
