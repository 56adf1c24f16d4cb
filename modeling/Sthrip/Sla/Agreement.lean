import Sthrip.Escrow.Conservation
import Sthrip.Escrow.Deadline
import Sthrip.Services.SlaService
import Sthrip.Txn.Apart

set_option autoImplicit false

/-! # The outcome of a contract and the outcome of its escrow

A contract and the deal it was created with are two state machines, and neither looks at the other.
The outcomes agree in the runs in which no session commits one outcome while the opposite one is
committed already. Without this condition a consumer who has verified the delivery can still cancel
the deal.
-/

namespace Sthrip

open Txn Prog

/-- The sessions: those of contracts, and those of deals and their milestones. -/
inductive SlaCall where
  | createContract (contract_id deal_id consumer_id provider_id : Id)
      (service_description : String) (deliverables : List String)
      (response_time_secs delivery_time_secs : ℤ) (price : ℚ) (currency : Token)
      (penalty_percent : ℤ) (template_id : Option Id)
  | acceptContract (contract_id provider_id : Id)
  | deliverContract (contract_id provider_id : Id) (result_hash : String)
  | verifyContract (contract_id consumer_id : Id)
  | disputeContract (contract_id agent_id : Id)
  | enforceSla
  | escrow (call : StageCall)

namespace SlaCall

def body (col : Columns) : SlaCall → Program Unit
  | createContract c d consumer provider description deliverables response delivery price currency
      penalty template => do
      let _ ← SLAService.createContract col c d consumer provider description deliverables
        response delivery price currency penalty template
  | acceptContract c a => do let _ ← SLAService.acceptContract c a
  | deliverContract c a hash => do let _ ← SLAService.deliverContract c a hash
  | verifyContract c a => do let _ ← SLAService.verifyContract c a
  | disputeContract c a => do let _ ← SLAService.disputeContract c a
  | enforceSla => do let _ ← SLAService.enforceSla
  | escrow call => call.body col

def run (col : Columns) (call : SlaCall) : Program Unit := withSession (call.body col)

end SlaCall

/-! ## The outcomes -/

namespace EscrowDeal

/-- The buyer has got the money back. -/
def Refunded (deal : EscrowDeal) : Prop := deal.status = .CANCELLED ∨ deal.status = .EXPIRED

/-- The seller has got all of it. -/
def ReleasedInFull (deal : EscrowDeal) : Prop :=
  deal.status = .COMPLETED ∧ deal.release_amount = some deal.amount

end EscrowDeal

/-- The row is the contract in the state, linked to the deal `d`. -/
def ContractIn (id d : Id) (state : SLAStatus) : (k : Key) → Row k → Prop
  | .slaContract id', contract =>
      id' = id ∧ contract.escrow_deal_id = some d ∧ contract.state = state
  | _, _ => False

/-- The row is the deal `d`, and it satisfies `P`. -/
def DealIn (d : Id) (P : EscrowDeal → Prop) : (k : Key) → Row k → Prop
  | .deal d', deal => d' = d ∧ P deal
  | _, _ => False

/-- No session completes the contract when its deal is refunded, or refunds the deal when the
contract is completed; and none breaches the contract when its deal is released in full, or releases
the deal in full when the contract is breached. -/
def KeepsAgreed (id : Id) (st : Store schema) (σ : Session schema) (s : Stmt schema)
    (_ : Input schema) : Prop :=
  ∀ d, s.KeepsApart (ContractIn id d .COMPLETED) (DealIn d EscrowDeal.Refunded) st σ ∧
    s.KeepsApart (ContractIn id d .BREACHED) (DealIn d EscrowDeal.ReleasedInFull) st σ

/-! ## Each session moves one of the two -/

/-- The statement leaves contracts alone. -/
def NoContract : Stmt schema → Prop
  | .update (Key.slaContract _) _ _ => False
  | .assign (Key.slaContract _) _ => False
  | .create (Key.slaContract _) _ => False
  | _ => True

/-- The statement leaves deals alone, but for new ones. -/
def NoDeal : Stmt schema → Prop
  | .update (Key.deal _) _ _ => False
  | .assign (Key.deal _) _ => False
  | .create (Key.deal _) deal => deal.status = .CREATED
  | _ => True

theorem NoContract.avoids {s : Stmt schema} (h : NoContract s) (id d : Id) (state : SLAStatus) :
    s.Avoids (ContractIn id d state) := by
  cases s with
  | update k guard set =>
      intro r _ hno
      cases k with
      | slaContract id' => exact h.elim
      | _ => exact hno
  | assign k set =>
      intro r hno
      cases k with
      | slaContract id' => exact h.elim
      | _ => exact hno
  | create k row =>
      cases k with
      | slaContract id' => exact h.elim
      | _ => exact not_false
  | _ => trivial

theorem NoDeal.avoids {s : Stmt schema} (h : NoDeal s) (d : Id) {P : EscrowDeal → Prop}
    (hP : ∀ deal : EscrowDeal, deal.status = .CREATED → ¬P deal) : s.Avoids (DealIn d P) := by
  cases s with
  | update k guard set =>
      intro r _ hno
      cases k with
      | deal d' => exact h.elim
      | _ => exact hno
  | assign k set =>
      intro r hno
      cases k with
      | deal d' => exact h.elim
      | _ => exact hno
  | create k row =>
      cases k with
      | deal d' => exact fun hd => hP row h hd.2
      | _ => exact not_false
  | _ => trivial

theorem refunded_of_created (deal : EscrowDeal) (h : deal.status = .CREATED) :
    ¬deal.Refunded := by
  unfold EscrowDeal.Refunded
  rw [h]
  decide

theorem releasedInFull_of_created (deal : EscrowDeal) (h : deal.status = .CREATED) :
    ¬deal.ReleasedInFull := by
  rintro ⟨hstatus, -⟩
  rw [h] at hstatus
  cases hstatus

theorem allows_noContract (e : Id) : EscrowService.Allows NoContract e where
  now := trivial
  select _ := trivial
  scan _ := trivial
  lock := trivial
  update _ _ _ := trivial
  lockMilestone _ _ := trivial
  updateMilestone _ _ _ _ _ := trivial
  balance _ _ := ⟨trivial, trivial, fun _ => trivial⟩
  posting _ _ := trivial
  fee _ _ := trivial
  reputation _ _ _ := trivial

section NoDeal

variable {col : Columns}

theorem lockFor_noDeal (contract_id : Id) (may : SLAContract → Bool) (text : String) :
    (SLAService.lockFor contract_id may text).only NoDeal := by
  refine only_bind (only_stmt trivial) fun _ => only_bind only_orRaise fun contract => ?_
  exact only_bind only_raiseIf fun _ => trivial

theorem refetch_noDeal (contract_id : Id) : (SLAService.refetch contract_id).only NoDeal :=
  only_bind (only_stmt trivial) fun _ => only_orRaise

theorem allowsBalance_noDeal (agent_id : Id) (token : Token) :
    BalanceRepository.Allows NoDeal agent_id token := ⟨trivial, trivial, fun _ => trivial⟩

theorem getAvailable_noDeal (agent_id : Id) (token : Token) :
    (BalanceRepository.getAvailable agent_id token).only NoDeal :=
  BalanceRepository.getAvailable_only (allowsBalance_noDeal ..) trivial

theorem createEscrow_noDeal (deal_id buyer_id seller_id : Id) (amount : ℚ) (description : String)
    (a b c : ℤ) : (EscrowService.createEscrow col deal_id buyer_id seller_id amount description
      a b c none).only NoDeal := by
  refine only_bind only_raiseIf fun _ => only_bind only_raiseIf fun _ => ?_
  refine only_bind only_raiseIf fun _ => only_bind (only_stmt trivial) fun _ => ?_
  refine only_bind only_orRaise fun _ => only_bind only_raiseIf fun _ => ?_
  refine only_bind (BalanceRepository.deduct_only (allowsBalance_noDeal ..) trivial) fun _ => ?_
  refine only_bind ?_ fun _ => trivial
  refine only_bind (only_stmt trivial) fun _ => only_bind (only_stmt rfl) fun _ => ?_
  exact only_bind only_raiseIf fun _ => trivial

theorem createContract_noDeal (contract_id deal_id consumer_id provider_id : Id)
    (service_description : String) (deliverables : List String)
    (response_time_secs delivery_time_secs : ℤ) (price : ℚ) (currency : Token)
    (penalty_percent : ℤ) (template_id : Option Id) :
    (SLAService.createContract col contract_id deal_id consumer_id provider_id service_description
      deliverables response_time_secs delivery_time_secs price currency penalty_percent
      template_id).only NoDeal := by
  refine only_bind only_raiseIf fun _ => only_bind (getAvailable_noDeal ..) fun _ => ?_
  refine only_bind only_raiseIf fun _ => only_bind (createEscrow_noDeal ..) fun _ => ?_
  refine only_bind (only_stmt trivial) fun _ => only_bind only_raiseIf fun _ => trivial

theorem deliver_noDeal (contract_id : Id) (result_hash : String) :
    (SLAContractRepository.deliver contract_id result_hash).only NoDeal := by
  refine only_bind (only_stmt trivial) fun _ => only_bind (only_stmt trivial) fun contract => ?_
  cases contract with
  | none => trivial
  | some contract =>
      dsimp only
      split
      · trivial
      · exact only_stmt trivial

theorem enforceSla_noDeal : SLAService.enforceSla.only NoDeal := by
  have hlist : SLAContractRepository.getActivePastDeadline.only NoDeal :=
    only_bind (only_stmt trivial) fun _ => only_bind (only_query trivial fun _ => trivial)
      fun _ => trivial
  -- a breach only marks the contract: the deal is not refunded
  refine only_bind hlist fun overdue => only_tally overdue fun contract => ?_
  refine only_bind (only_stmt trivial) fun _ => only_bind (only_onlyIf ?_) fun _ => trivial
  exact only_bind (refetch_noDeal _) fun _ => trivial

/-- A session about a contract leaves deals alone. -/
theorem SlaCall.body_noDeal (call : SlaCall) (h : ∀ e, call ≠ escrow e) :
    (call.body col).only NoDeal := by
  cases call with
  | createContract => exact only_bind (createContract_noDeal ..) fun _ => trivial
  | acceptContract c a =>
      refine only_bind (only_bind (lockFor_noDeal ..) fun _ => ?_) fun _ => trivial
      refine only_bind (only_stmt trivial) fun _ => only_bind ?_ fun _ => refetch_noDeal c
      exact only_bind (only_stmt trivial) fun _ => only_stmt trivial
  | deliverContract c a hash =>
      refine only_bind (only_bind (lockFor_noDeal ..) fun _ => ?_) fun _ => trivial
      refine only_bind (deliver_noDeal c hash) fun _ => only_bind only_raiseIf fun _ => ?_
      exact refetch_noDeal c
  | verifyContract c a =>
      refine only_bind (only_bind (lockFor_noDeal ..) fun _ => ?_) fun _ => trivial
      refine only_bind (only_stmt trivial) fun _ => only_bind only_raiseIf fun _ => ?_
      exact refetch_noDeal c
  | disputeContract c a =>
      refine only_bind (only_bind (lockFor_noDeal ..) fun _ => ?_) fun _ => trivial
      refine only_bind (only_stmt trivial) fun _ => only_bind only_raiseIf fun _ => ?_
      exact refetch_noDeal c
  | enforceSla => exact only_bind enforceSla_noDeal fun _ => trivial
  | escrow e => exact absurd rfl (h e)

/-- A session moves contracts or deals, not both. -/
theorem SlaCall.run_oneSided (call : SlaCall) :
    (call.run col).only NoContract ∨ (call.run col).only NoDeal := by
  by_cases h : ∃ e, call = escrow e
  -- the escrow service knows nothing of contracts
  · obtain ⟨e, rfl⟩ := h
    have hbody : (e.body col).only NoContract :=
      e.body_only allows_noContract fun _ _ => trivial
    exact Or.inl (only_withSession trivial trivial hbody)
  · have hbody : (call.body col).only NoDeal :=
      call.body_noDeal fun e he => h ⟨e, he⟩
    exact Or.inr (only_withSession trivial trivial hbody)

end NoDeal

/-! ## All interleavings -/

/-- **The outcomes agree.** Take a contract that is not there at the start. In every run in which no
session commits an outcome of the contract or its deal while the opposite one of the other is
committed: the contract is not completed with the deal cancelled or expired, and not breached with
the deal released in full. -/
theorem sla_outcomes_agree {st : Store schema} (calls : ℕ → SlaCall) {c : Config schema Unit}
    {id d : Id} {contract : SLAContract} {deal : EscrowDeal} (hwf : st.db.WF)
    (hnew : st.db.rows (Key.slaContract id) = none)
    (hc : Config.Reaches (KeepsAgreed id) (.start st fun i => (calls i).run .rounding) c)
    (hrow : c.store.db.rows (Key.slaContract id) = some contract)
    (hlink : contract.escrow_deal_id = some d)
    (hdeal : c.store.db.rows (Key.deal d) = some deal) :
    ¬(contract.state = .COMPLETED ∧ (deal.status = .CANCELLED ∨ deal.status = .EXPIRED)) ∧
      ¬(contract.state = .BREACHED ∧
        deal.status = .COMPLETED ∧ deal.release_amount = some deal.amount) := by
  -- the contract is not there at the start, so it has no outcome
  have hnone : ∀ state, ¬st.db.Has (ContractIn id d state) := by
    rintro state ⟨k, r, hr, hin⟩
    cases k with
    | slaContract id' =>
        obtain ⟨rfl, -⟩ := hin
        rw [hnew] at hr
        cases hr
    | _ => exact hin.elim
  have hcontract : ∀ state, contract.state = state →
      c.store.db.Has (ContractIn id d state) :=
    fun state h => ⟨Key.slaContract id, contract, hrow, rfl, hlink, h⟩
  have hhas : ∀ P : EscrowDeal → Prop, P deal → c.store.db.Has (DealIn d P) :=
    fun P h => ⟨Key.deal d, deal, hdeal, rfl, h⟩
  -- the run lemma, for an outcome of the contract and one of the deal
  have hapart : ∀ (state : SLAStatus) (P : EscrowDeal → Prop),
      (∀ deal : EscrowDeal, deal.status = .CREATED → ¬P deal) →
      (∀ st σ s x, KeepsAgreed id st σ s x →
        s.KeepsApart (ContractIn id d state) (DealIn d P) st σ) →
      ¬(c.store.db.Has (ContractIn id d state) ∧ c.store.db.Has (DealIn d P)) := by
    intro state P hP hok
    have hstart : (Config.start st fun i => (calls i).run .rounding).Apart
        (ContractIn id d state) (DealIn d P) := by
      refine Config.start_apart hwf (fun h => hnone state h.1) fun i => ?_
      have hside : ((calls i).run .rounding).only NoContract ∨
          ((calls i).run .rounding).only NoDeal := (calls i).run_oneSided
      rcases hside with h | h
      · exact Or.inl (only_mono h fun s hs => hs.avoids id d state)
      · exact Or.inr (only_mono h fun s hs => hs.avoids d hP)
    exact (hc.apart hstart hok).rows
  constructor
  -- completed, and refunded
  · rintro ⟨hstate, hrefund⟩
    exact hapart .COMPLETED EscrowDeal.Refunded refunded_of_created
      (fun _ _ _ _ h => (h d).1) ⟨hcontract _ hstate, hhas _ hrefund⟩
  -- breached, and released in full
  · rintro ⟨hstate, hfull⟩
    exact hapart .BREACHED EscrowDeal.ReleasedInFull releasedInFull_of_created
      (fun _ _ _ _ h => (h d).2) ⟨hcontract _ hstate, hhas _ hfull⟩

/-! ### A contract that is paid for, and one that is not -/

/-- Agent 1 orders something of agent 2 for one unit, to be delivered within an hour. -/
def orderOfOne : SlaCall := .createContract 1 1 1 2 "" [] 3600 3600 1 .XMR 10 none

/-- The order is delivered, verified and paid for. -/
def verifiedAndReleased : ℕ → SlaCall
  | 0 => orderOfOne
  | 1 => .acceptContract 1 2
  | 2 => .escrow (.deal (.acceptEscrow 1 2))
  | 3 => .deliverContract 1 2 "sha256"
  | 4 => .escrow (.deal (.deliverEscrow 1 2))
  | 5 => .verifyContract 1 1
  | _ => .escrow (.deal (.releaseEscrow 1 1 1))

/-- The order is delivered and verified, and then the buyer cancels the deal. -/
def verifiedAndCancelled : ℕ → SlaCall
  | 0 => orderOfOne
  | 1 => .acceptContract 1 2
  | 2 => .deliverContract 1 2 "sha256"
  | 3 => .verifyContract 1 1
  | _ => .escrow (.deal (.cancelEscrow 1 1))

/-- The sessions run to their ends one after another. -/
def releasedInTurn : List (ℕ × Input schema) :=
  turn 0 9 0 ++ turn 1 6 0 ++ turn 2 7 0 ++ turn 3 6 0 ++ turn 4 5 0 ++ turn 5 4 0 ++ turn 6 14 0

def cancelledInTurn : List (ℕ × Input schema) :=
  turn 0 9 0 ++ turn 1 6 0 ++ turn 2 6 0 ++ turn 3 4 0 ++ turn 4 8 0

/-- Is the contract of the first rows not in the state, or its deal in the second rows not in `P`? -/
def agreesAt (id : Id) (state : SLAStatus) (P : EscrowDeal → Bool)
    (rows rows' : (k : Key) → Option (Row k)) : Bool :=
  (rows (Key.slaContract id)).all fun contract => contract.escrow_deal_id.all fun d =>
    (rows' (Key.deal d)).all fun deal => ¬(contract.state = state ∧ P deal = true)

/-- The test of `KeepsAgreed`. -/
def agreesAtCommit (id : Id) (st : Store schema) (σ : Session schema) :
    Stmt schema → Input schema → Bool
  | .commit, _ =>
      let refunded (deal : EscrowDeal) : Bool := deal.status = .CANCELLED ∨ deal.status = .EXPIRED
      let full (deal : EscrowDeal) : Bool :=
        deal.status = .COMPLETED ∧ deal.release_amount = some deal.amount
      agreesAt id .COMPLETED refunded (σ.view st.db) st.db.rows &&
        agreesAt id .COMPLETED refunded st.db.rows (σ.view st.db) &&
        (agreesAt id .BREACHED full (σ.view st.db) st.db.rows &&
          agreesAt id .BREACHED full st.db.rows (σ.view st.db))
  | _, _ => true

theorem not_dealIn_of_agreesAt {id d : Id} {state : SLAStatus} {test : EscrowDeal → Bool}
    {P : EscrowDeal → Prop} (hP : ∀ deal, P deal → test deal = true)
    {rows rows' : (k : Key) → Option (Row k)} (h : agreesAt id state test rows rows' = true)
    {k k' : Key} {r : Row k} {r' : Row k'} (hr : rows k = some r) (hin : ContractIn id d state k r)
    (hr' : rows' k' = some r') : ¬DealIn d P k' r' := by
  intro hin'
  cases k with
  | slaContract id' =>
      cases k' with
      | deal d' =>
          obtain ⟨rfl, hlink, hstate⟩ := hin
          obtain ⟨rfl, hdeal⟩ := hin'
          rw [agreesAt, hr, Option.all_some, hlink, Option.all_some, hr', Option.all_some,
            decide_eq_true_eq] at h
          exact h ⟨hstate, hP _ hdeal⟩
      | _ => exact hin'.elim
  | _ => exact hin.elim

theorem keepsApart_of_test {id d : Id} {state : SLAStatus} {test : EscrowDeal → Bool}
    {P : EscrowDeal → Prop} (hP : ∀ deal, P deal → test deal = true) {st : Store schema}
    {σ : Session schema} (h : agreesAt id state test (σ.view st.db) st.db.rows = true)
    (h' : agreesAt id state test st.db.rows (σ.view st.db) = true) :
    (Stmt.commit : Stmt schema).KeepsApart (ContractIn id d state) (DealIn d P) st σ := by
  constructor
  · rintro ⟨k, hd, r, hk, hown, hin, -⟩ ⟨k', r', hr', hin'⟩
    have hview : σ.view st.db k = some r := by rw [Session.view_of_held hk, hown]
    exact not_dealIn_of_agreesAt hP h hview hin hr' hin'
  · rintro ⟨k', hd, r', hk', hown, hin', -⟩ ⟨k, r, hr, hin⟩
    have hview : σ.view st.db k' = some r' := by rw [Session.view_of_held hk', hown]
    exact not_dealIn_of_agreesAt hP h' hr hin hview hin'

theorem keepsAgreed_of_test (id : Id) (st : Store schema) (σ : Session schema) (s : Stmt schema)
    (x : Input schema) (h : agreesAtCommit id st σ s x = true) : KeepsAgreed id st σ s x := by
  intro d
  cases s with
  | commit =>
      simp only [agreesAtCommit, Bool.and_eq_true] at h
      obtain ⟨⟨hview, hrows⟩, hview', hrows'⟩ := h
      constructor
      · exact keepsApart_of_test (fun _ hdeal => by simpa [EscrowDeal.Refunded] using hdeal)
          hview hrows
      · exact keepsApart_of_test (fun _ hdeal => by simpa [EscrowDeal.ReleasedInFull] using hdeal)
          hview' hrows'
  | _ => exact ⟨trivial, trivial⟩

/-- The state of the contract and the status of the deal at the end of a schedule. -/
def contractEnds (calls : ℕ → SlaCall) (l : List (ℕ × Input schema)) (state : SLAStatus)
    (status : EscrowStatus) : Bool :=
  (Config.trace l (.start twoAgents fun i => (calls i).run .rounding)).any fun c =>
    (c.store.db.rows (Key.slaContract 1)).any (fun contract =>
      contract.escrow_deal_id = some 1 ∧ contract.state = state) &&
    (c.store.db.rows (Key.deal 1)).any fun deal => deal.status = status

theorem exists_of_contractEnds {calls : ℕ → SlaCall} {l : List (ℕ × Input schema)} {state : SLAStatus}
    {status : EscrowStatus} (h : contractEnds calls l state status = true) :
    ∃ c, Config.trace l (.start twoAgents fun i => (calls i).run .rounding) = some c ∧
      (∃ contract, c.store.db.rows (Key.slaContract 1) = some contract ∧
        contract.escrow_deal_id = some 1 ∧ contract.state = state) ∧
      ∃ deal, c.store.db.rows (Key.deal 1) = some deal ∧ deal.status = status := by
  simpa only [contractEnds, Option.any_eq_true, Bool.and_eq_true, decide_eq_true_eq] using h

/-- The contract is completed, and the deal is not refunded. -/
theorem sla_outcomes_agree_released : ∃ (c : Config schema Unit) (contract : SLAContract)
    (deal : EscrowDeal), c.store.db.rows (Key.slaContract 1) = some contract ∧
      c.store.db.rows (Key.deal 1) = some deal ∧ contract.state = .COMPLETED ∧
      ¬(contract.state = .COMPLETED ∧ (deal.status = .CANCELLED ∨ deal.status = .EXPIRED)) := by
  obtain ⟨c, hc, ⟨contract, hrow, hlink, hstate⟩, deal, hdeal, -⟩ := exists_of_contractEnds
    (by decide +kernel : contractEnds verifiedAndReleased releasedInTurn .COMPLETED .COMPLETED = true)
  have hreach := Config.reaches_of_trace (agreesAtCommit 1) (keepsAgreed_of_test 1) releasedInTurn
    .refl (by decide +kernel) hc
  exact ⟨c, contract, deal, hrow, hdeal, hstate,
    (sla_outcomes_agree verifiedAndReleased twoAgents_wf rfl hreach hrow hlink hdeal).1⟩

/-- The consumer verifies the delivery, and gets the money back all the same. -/
theorem sla_verified_and_refunded : ¬∀ (st : Store schema) (calls : ℕ → SlaCall)
    (c : Config schema Unit) (id d : Id) (contract : SLAContract) (deal : EscrowDeal), st.db.WF →
    st.db.rows (Key.slaContract id) = none →
    Config.Reaches (fun _ _ _ _ => True) (.start st fun i => (calls i).run .rounding) c →
    c.store.db.rows (Key.slaContract id) = some contract → contract.escrow_deal_id = some d →
    c.store.db.rows (Key.deal d) = some deal →
    ¬(contract.state = .COMPLETED ∧ (deal.status = .CANCELLED ∨ deal.status = .EXPIRED)) ∧
      ¬(contract.state = .BREACHED ∧
        deal.status = .COMPLETED ∧ deal.release_amount = some deal.amount) := by
  intro h
  obtain ⟨c, hc, ⟨contract, hrow, hlink, hstate⟩, deal, hdeal, hstatus⟩ := exists_of_contractEnds
    (by decide +kernel : contractEnds verifiedAndCancelled cancelledInTurn .COMPLETED .CANCELLED = true)
  have hreach := Config.reaches_of_trace (fun _ _ _ _ => true) (fun _ _ _ _ _ => trivial)
    cancelledInTurn .refl (by decide +kernel) hc
  exact (h twoAgents verifiedAndCancelled c 1 1 contract deal twoAgents_wf rfl hreach hrow hlink
    hdeal).1 ⟨hstate, Or.inl hstatus⟩

end Sthrip
