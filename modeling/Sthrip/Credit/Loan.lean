import Sthrip.Credit.Footprint
import Sthrip.Txn.Record

set_option autoImplicit false

/-! # The money of a loan

Sessions that request, fund, repay and sweep loans, interleaved in every way READ COMMITTED allows.
The principal moves when the loan is funded, the repayment and the collateral when it is repaid,
and the collateral alone when it defaults. Every state of a loan has exactly the postings of the
transitions that lead to it (`Accounted`): funding and repaying lock the loan first, and the sweep
moves the collateral only after its guarded update has matched.

One thing does not add up. The lender receives the repayment less the platform fee, computed to the
last digit; the column in which the fee is recorded keeps eight digits.
-/

namespace Sthrip

open Txn Prog

/-! ## Postings -/

namespace AgentLoan

/-- What a loan was created with, as far as the money goes. -/
def terms (r : AgentLoan) : Id × Id × ℚ × Token × ℚ × ℚ × Option Token :=
  (r.lender_id, r.borrower_id, r.principal, r.currency, r.repayment_amount, r.collateral_amount,
    r.collateral_currency)

/-- One per cent of the interest. -/
def fee (r : AgentLoan) : ℚ := (r.repayment_amount - r.principal) * platformFeeRate

/-- The token of the collateral. -/
def collateralToken (r : AgentLoan) : Token := r.collateral_currency.getD r.currency

/-- The postings of the funding. -/
def funding (r : AgentLoan) (loan_id : Id) : List Posting :=
  [⟨r.lender_id, r.currency, -r.principal, .loan loan_id .principal⟩,
    ⟨r.borrower_id, r.currency, r.principal, .loan loan_id .principal⟩]

/-- The postings of the repayment. -/
def repayment (r : AgentLoan) (loan_id : Id) : List Posting :=
  [⟨r.borrower_id, r.currency, -r.repayment_amount, .loan loan_id .repayment⟩,
    ⟨r.lender_id, r.currency, r.repayment_amount - r.fee, .loan loan_id .repayment⟩]

/-- The posting of the collateral, if there is one. -/
def release (r : AgentLoan) (loan_id agent_id : Id) : List Posting :=
  if 0 < r.collateral_amount then
    [⟨agent_id, r.collateralToken, r.collateral_amount, .loan loan_id .collateral⟩]
  else []

/-- A state of the loan and the postings for it fit together. -/
def Accounted (col : Columns) (r : AgentLoan) (loan_id : Id) (ps : List Posting) : Prop :=
  match r.state with
  | .REQUESTED => ps = []
  | .ACTIVE => ps = r.funding loan_id
  | .REPAID => r.platform_fee = col 8 r.fee ∧
      ps = r.funding loan_id ++ (r.repayment loan_id ++ r.release loan_id r.borrower_id)
  | .DEFAULTED => ps = r.funding loan_id ++ r.release loan_id r.lender_id
  | .LIQUIDATED => False
  | .CANCELLED => False

/-- A transition from `r` to `r'` with the postings `ps`. -/
def Moves (col : Columns) (loan_id : Id) (r r' : AgentLoan) (ps : List Posting) : Prop :=
  (r.state = .REQUESTED ∧ r'.state = .ACTIVE ∧ ps = r'.funding loan_id) ∨
  (r.state = .ACTIVE ∧ r'.state = .REPAID ∧ r'.platform_fee = col 8 r'.fee ∧
    ps = r'.repayment loan_id ++ r'.release loan_id r'.borrower_id) ∨
  (r.state = .ACTIVE ∧ r'.state = .DEFAULTED ∧ ps = r'.release loan_id r'.lender_id)

variable {r r' : AgentLoan} {col : Columns} {loan_id : Id} {ps ps' : List Posting}

theorem funding_of_terms (h : r.terms = r'.terms) : r.funding loan_id = r'.funding loan_id := by
  simp only [terms, Prod.mk.injEq] at h
  simp only [funding, h]

theorem release_of_terms (h : r.terms = r'.terms) (agent_id : Id) :
    r.release loan_id agent_id = r'.release loan_id agent_id := by
  simp only [terms, Prod.mk.injEq] at h
  simp only [release, collateralToken, h]

theorem lender_of_terms (h : r.terms = r'.terms) : r.lender_id = r'.lender_id :=
  congrArg (fun t => t.1) h

/-- What a transition adds is what its new state should have. -/
theorem Moves.accounted (h : Moves col loan_id r r' ps') (hterms : r.terms = r'.terms)
    (hacc : r.Accounted col loan_id ps) : r'.Accounted col loan_id (ps ++ ps') := by
  have hfunding : r.funding loan_id = r'.funding loan_id := funding_of_terms hterms
  rcases h with ⟨hs, hs', hps⟩ | ⟨hs, hs', hfee, hps⟩ | ⟨hs, hs', hps⟩
  · rw [Accounted, hs] at hacc
    rw [Accounted, hs', hacc, hps, List.nil_append]
  · rw [Accounted, hs] at hacc
    rw [Accounted, hs', hacc, hps, hfunding]
    exact ⟨hfee, rfl⟩
  · rw [Accounted, hs] at hacc
    rw [Accounted, hs', hacc, hps, hfunding]

end AgentLoan

/-- What a journal entry moved for a loan. -/
def Entry.loanPosting (loan_id : Id) : Entry → Option Posting
  | .posting p =>
      match p.ref with
      | .loan id _ => if id = loan_id then some p else none
      | _ => none
  | _ => none

/-- The postings of a part of a loan. -/
def loanPostings (db : DB schema) (loan_id : Id) (part : LoanPart) : List Posting :=
  (db.log.filterMap (Entry.loanPosting loan_id)).filter fun p => p.ref = .loan loan_id part

/-! ## The invariant -/

section Sessions

variable {id : Id} {col : Columns} {floats : Floats} {r₀ r r' : AgentLoan} {i : ℕ}
  {σ : Session schema}

abbrev LoanRecord (id : Id) := Record schema (Key.loan id) Posting
abbrev LoanDraft (id : Id) := Draft schema (Key.loan id) Posting

/-- The loan is there with the terms of `r₀`, and its state fits its postings. -/
def LoanAccounted (col : Columns) (r₀ : AgentLoan) (E : LoanRecord id) : Prop :=
  ∃ r, E.row = some r ∧ r.terms = r₀.terms ∧ r.Accounted col id E.entries

abbrev loanProtocol (id : Id) (col : Columns) (r₀ : AgentLoan) : Protocol schema Unit :=
  .ofRecord (Key.loan id) (Entry.loanPosting id) (LoanAccounted col r₀) fun _ _ _ _ => True

abbrev loanDraft (id : Id) (σ : Session schema) : LoanDraft id :=
  σ.draft (Key.loan id) (Entry.loanPosting id)

abbrev OnTerms (r₀ r : AgentLoan) : Prop := r.terms = r₀.terms

theorem LoanAccounted.onTerms {E : LoanRecord id} (h : LoanAccounted col r₀ E) (r : AgentLoan)
    (hr : E.row = some r) : OnTerms r₀ r := by
  obtain ⟨r', hr', hterms, -⟩ := h
  obtain rfl := Option.some.inj (hr.symm.trans hr')
  exact hterms

/-- A transition of the loan in the session. -/
def LoanMoved (col : Columns) (r₀ : AgentLoan) (D : LoanDraft id) : Prop :=
  ∃ r r', D.held = some ⟨some r, some r'⟩ ∧ r'.terms = r₀.terms ∧
    AgentLoan.Moves col id r r' D.entries

/-- What a session does to the loan in the end. -/
structure LoanDone (col : Columns) (r₀ : AgentLoan) (D : LoanDraft id) : Prop where
  good : D.Good (OnTerms r₀)
  outcome : D.Fresh ∨ LoanMoved col r₀ D

theorem LoanMoved.ready {D : LoanDraft id} (h : LoanMoved col r₀ D) :
    D.Ready (LoanAccounted col r₀) := by
  intro E hs
  obtain ⟨r, r', hheld, hterms', hmoves⟩ := h
  obtain ⟨r₁, hrow, hterms, hacc⟩ := hs.fits
  obtain rfl : r₁ = r := Option.some.inj (hrow.symm.trans (hs.agrees _ hheld))
  have hview : D.view E = some r' := by rw [Draft.view, hheld]
  exact ⟨r', hview, hterms', hmoves.accounted (hterms.trans hterms'.symm) hacc⟩

theorem LoanDone.ready {D : LoanDraft id} (h : LoanDone col r₀ D) :
    D.Ready (LoanAccounted col r₀) :=
  h.outcome.elim (fun hf => hf.ready) fun hm => hm.ready

theorem LoanDone.later {D D' : LoanDraft id} (h : LoanDone col r₀ D)
    (hl : D.Later (LoanAccounted col r₀) D') : LoanDone col r₀ D' := by
  refine ⟨h.good.later (fun _ => LoanAccounted.onTerms) hl, h.outcome.imp (fun hf => hl.fresh hf) ?_⟩
  rintro ⟨r, r', hheld, hrest⟩
  exact ⟨r, r', hl.held.trans hheld, by rwa [hl.entries]⟩

theorem loanDone_blank : LoanDone col r₀ (.blank : LoanDraft id) :=
  ⟨Draft.good_blank, .inl Draft.fresh_blank⟩

/-! ## Programs that leave the loan alone -/

/-- The statement is not about the loan `id`. -/
abbrev OffLoan (id : Id) : Stmt schema → Prop :=
  Stmt.off (· = Key.loan id) (Entry.loanPosting id)

section Others

variable {q : Id}

theorem allows_loanBalance (agent_id : Id) (token : Token) :
    BalanceRepository.Allows (OffLoan id) agent_id token :=
  have hoff : Key.balance agent_id token ≠ Key.loan id := by simp
  ⟨hoff, hoff, fun _ => hoff⟩

theorem loan_ne (hq : q ≠ id) : Key.loan q ≠ Key.loan id := fun h => hq (Key.loan.inj h)

theorem allowsScores_offLoan : CreditService.AllowsScores (OffLoan id) where
  now := trivial
  select _ := trivial
  scan _ := trivial
  createScore _ _ h := Key.noConfusion h
  assignScore _ _ h := Key.noConfusion h
  updateScore _ _ _ h := Key.noConfusion h
  balance := allows_loanBalance
  collateral p h := by
    obtain ⟨_, _, _, _⟩ := p
    subst h
    rfl

theorem allows_offLoan (hq : q ≠ id) : CreditService.Allows (OffLoan id) q where
  scores := allowsScores_offLoan
  lock := loan_ne hq
  create _ := loan_ne hq
  transition _ _ _ := loan_ne hq
  assign _ _ := loan_ne hq
  posting p part h := by
    obtain ⟨_, _, _, _⟩ := p
    subst h
    exact if_neg hq

end Others

/-! ## Statements -/

section Statements

variable {D : LoanDraft id}

/-- The end of a method's session. -/
abbrev Moved (id : Id) (col : Columns) (r₀ : AgentLoan) {α : Type} :
    α → Session schema → Unit → Prop :=
  fun _ σ _ => LoanDone col r₀ (loanDraft id σ)

theorem loanDraft_of_frame {σ' : Session schema} {l : List Entry}
    (fr : BalanceRepository.Frame σ σ' l) :
    loanDraft id σ' = (loanDraft id σ).post (l.filterMap (Entry.loanPosting id)) :=
  draft_append (fr.held _ (by simp)) (fr.loaded _ (by simp)) fr.inserted

theorem creditLoan_safe {agent_id : Id} {amount : ℚ} {token : Token} {part : LoanPart}
    {Q : AgentBalance → Session schema → Unit → Prop}
    (h : ∀ b σ', loanDraft id σ' = (loanDraft id σ).post [⟨agent_id, token, amount, .loan id part⟩] →
      Q b σ' ()) :
    (BalanceRepository.credit col agent_id amount token (.loan id part)).safe
      (loanProtocol id col r₀) i Q Raised σ () := by
  refine BalanceRepository.credit_frame (fun b σ' fr => h b σ' ?_) fun _ _ => trivial
  rw [loanDraft_of_frame fr]
  simp [Entry.loanPosting]

theorem deductLoan_safe {agent_id : Id} {amount : ℚ} {token : Token} {part : LoanPart}
    {Q : AgentBalance → Session schema → Unit → Prop}
    (h : ∀ b σ', loanDraft id σ' = (loanDraft id σ).post [⟨agent_id, token, -amount, .loan id part⟩] →
      Q b σ' ()) :
    (BalanceRepository.deduct col agent_id amount token (.loan id part)).safe
      (loanProtocol id col r₀) i Q Raised σ () := by
  refine BalanceRepository.deduct_frame (fun b σ' fr => h b σ' ?_) fun _ _ => trivial
  rw [loanDraft_of_frame fr]
  simp [Entry.loanPosting]

theorem releaseCollateral_safe {agent_id : Id} {loan : AgentLoan}
    {Q : Unit → Session schema → Unit → Prop}
    (h : ∀ σ', loanDraft id σ' = (loanDraft id σ).post (loan.release id agent_id) → Q () σ' ()) :
    (CreditService.releaseCollateral col id agent_id loan).safe (loanProtocol id col r₀) i Q Raised
      σ () := by
  refine safe_onlyIf (fun hpos => creditLoan_safe fun _ σ' h' => h σ' ?_) fun hpos => h σ ?_
  · rw [h', AgentLoan.release, if_pos hpos]
    rfl
  · rw [AgentLoan.release, if_neg hpos]
    show _ = Draft.mk _ _ (_ ++ [])
    rw [List.append_nil]

/-- The rest of a method, which has nothing to do with the loan. -/
theorem finish_safe {α : Type} {p : Program α} (hp : p.only (OffLoan id))
    (hdone : LoanDone col r₀ (loanDraft id σ)) :
    p.safe (loanProtocol id col r₀) i (Moved id col r₀) Raised σ () :=
  safe_apart hp rfl (fun _ _ hl => hdone.later hl) fun _ _ => trivial

theorem transitionLoan_safe {state : LoanStatus} {set : AgentLoan → AgentLoan}
    {Q : Bool → Session schema → Unit → Prop} (hset : ∀ r, (set r).terms = r.terms)
    (hgood : (loanDraft id σ).Good (OnTerms r₀))
    (hit : ∀ (E : LoanRecord id) r σ', (loanDraft id σ).Sees (LoanAccounted col r₀) E →
      (loanDraft id σ).view E = some r → r.state = state → OnTerms r₀ (set r) →
      (loanDraft id σ').Good (OnTerms r₀) →
      (loanDraft id σ').held = some ⟨E.row, some (set r)⟩ →
      (loanDraft id σ').entries = (loanDraft id σ).entries → Q true σ' ())
    (miss : ∀ σ', (loanDraft id σ').Good (OnTerms r₀) →
      (loanDraft id σ').held = (loanDraft id σ).held →
      (loanDraft id σ').entries = (loanDraft id σ).entries → Q false σ' ()) :
    (LoanRepository.transition state set id).safe (loanProtocol id col r₀) i Q Raised σ () := by
  refine safe_recordTransition (fun _ => LoanAccounted.onTerms) (fun r hr => (hset r).trans hr) rfl
    hgood (fun E r σ' hs hv hg hgood' hheld hentries => ?_)
    fun st E x σ' _ _ _ _ => miss σ'
  exact hit E r σ' hs hv (of_decide_eq_true hg)
    ((hset r).trans (hgood.view (fun _ => LoanAccounted.onTerms) hs hv)) hgood' hheld hentries

/-- A session that holds the loan sees its own version of it. -/
theorem eq_of_held {E : LoanRecord id} {own r₁ : AgentLoan}
    (hheld : D.held = some ⟨some r, some own⟩) (hs : D.Sees (LoanAccounted col r₀) E)
    (hv : D.view E = some r₁) : r₁ = own ∧ E.row = some r := by
  rw [Draft.view, hheld] at hv
  exact ⟨(Option.some.inj hv).symm, hs.agrees _ hheld⟩

/-! ### Methods -/

theorem fundLoan_safe (lender_id : Id) :
    (CreditService.fundLoan col lender_id id).safe (loanProtocol id col r₀) i (Moved id col r₀)
      Raised Session.start () := by
  refine safe_bind (safe_recordLockFirst (fun _ => LoanAccounted.onTerms) rfl
    (fun _ _ _ _ _ => trivial) fun r σ₁ hterms hgood₁ hheld₁ hentries₁ => ?_)
  refine safe_bind (safe_bind (safe_raiseIf (fun _ => trivial) fun hs => ?_))
  refine safe_bind (safe_raiseIf (fun _ => trivial) fun hlender => ?_)
  obtain rfl : r.lender_id = lender_id := not_not.mp hlender
  refine safe_bind (deductLoan_safe fun _ σ₂ h₂ => safe_bind (creditLoan_safe fun _ σ₃ h₃ => ?_))
  rw [h₂] at h₃
  have hgood₃ : (loanDraft id σ₃).Good (OnTerms r₀) := h₃ ▸ (hgood₁.post _).post _
  have hheld₃ : (loanDraft id σ₃).held = some ⟨some r, some r⟩ := by rw [h₃]; exact hheld₁
  have hentries₃ : (loanDraft id σ₃).entries = r.funding id := by
    rw [h₃, Draft.post, Draft.post, hentries₁]
    rfl
  refine safe_bind (safe_bind (safe_now fun t => transitionLoan_safe (fun _ => rfl) hgood₃
    (fun E r' σ₄ hs' hv _ hterms' hgood₄ hheld₄ hentries₄ => ?_)
    fun _ _ _ _ => safe_bind (safe_raiseIf (fun _ => trivial) fun hf => absurd rfl hf)))
  refine safe_bind (safe_raiseIf (fun _ => trivial) fun _ => ?_)
  obtain ⟨rfl, hrow⟩ := eq_of_held hheld₃ hs' hv
  rw [hrow] at hheld₄
  refine finish_safe (only_bind (CreditService.recordLoanTaken_only allowsScores_offLoan ..)
    fun _ => CreditService.refetchLoan_only allowsScores_offLoan id)
    ⟨hgood₄, .inr ⟨r', _, hheld₄, hterms', .inl ?_⟩⟩
  exact ⟨not_not.mp hs, rfl, hentries₄.trans hentries₃⟩

theorem repayLoan_safe (borrower_id : Id) :
    (CreditService.repayLoan col floats borrower_id id).safe (loanProtocol id col r₀) i
      (Moved id col r₀) Raised Session.start () := by
  refine safe_bind (safe_recordLockFirst (fun _ => LoanAccounted.onTerms) rfl
    (fun _ _ _ _ _ => trivial) fun r σ₁ hterms hgood₁ hheld₁ hentries₁ => ?_)
  refine safe_bind (safe_bind (safe_raiseIf (fun _ => trivial) fun hs => ?_))
  refine safe_bind (safe_raiseIf (fun _ => trivial) fun hborrower => ?_)
  obtain rfl : r.borrower_id = borrower_id := not_not.mp hborrower
  refine safe_bind (deductLoan_safe fun _ σ₂ h₂ => safe_bind (creditLoan_safe fun _ σ₃ h₃ => ?_))
  refine safe_bind (releaseCollateral_safe fun σ₄ h₄ => ?_)
  rw [h₃, h₂] at h₄
  have hgood₄ : (loanDraft id σ₄).Good (OnTerms r₀) := h₄ ▸ ((hgood₁.post _).post _).post _
  have hheld₄ : (loanDraft id σ₄).held = some ⟨some r, some r⟩ := by rw [h₄]; exact hheld₁
  have hentries₄ : (loanDraft id σ₄).entries = r.repayment id ++ r.release id r.borrower_id := by
    simp only [h₄, Draft.post, hentries₁]
    rfl
  -- the object of the loan, and the fee written to it
  refine safe_bind (safe_recordSelect rfl fun st E σ₅ _ hs₄ hl => ?_)
  have hgood₅ : (loanDraft id σ₅).Good (OnTerms r₀) :=
    hgood₄.later (fun _ => LoanAccounted.onTerms) hl
  have hheld₅ : (loanDraft id σ₅).held = some ⟨some r, some r⟩ := hl.held.trans hheld₄
  refine safe_bind (safe_orRaise (fun _ => trivial) fun _ _ => ?_)
  refine safe_bind (safe_recordAssign rfl (fun _ E₅ _ σ₆ r₁ _ hs₅ _ hv₅ h₆ => ?_)
    fun _ E₅ _ _ _ _ hv₅ => ?_)
  swap
  · exact absurd hv₅ (by rw [Draft.view, hheld₅]; simp)
  obtain ⟨rfl, hrow₅⟩ := eq_of_held hheld₅ hs₅ hv₅
  have hgood₆ : (loanDraft id σ₆).Good (OnTerms r₀) := by
    show (σ₆.draft _ _).Good _
    rw [h₆]
    exact hgood₅.write _ hterms fun o ho => ho
  have hheld₆ : (loanDraft id σ₆).held
      = some ⟨some r₁, some { r₁ with platform_fee := col 8 r₁.fee }⟩ := by
    refine (congrArg Draft.held h₆ :).trans ?_
    rw [← hrow₅, ← hs₅.base]
    rfl
  have hentries₆ : (loanDraft id σ₆).entries = r₁.repayment id ++ r₁.release id r₁.borrower_id :=
    ((congrArg Draft.entries h₆ :).trans hl.entries).trans hentries₄
  refine safe_bind (safe_bind (safe_now fun t => transitionLoan_safe (fun _ => rfl) hgood₆
    (fun E₆ r₂ σ₇ hs₆ hv₆ _ hterms₇ hgood₇ hheld₇ hentries₇ => ?_)
    fun _ _ _ _ => safe_bind (safe_raiseIf (fun _ => trivial) fun hf => absurd rfl hf)))
  refine safe_bind (safe_raiseIf (fun _ => trivial) fun _ => safe_bind (safe_now fun now => ?_))
  obtain ⟨rfl, hrow₆⟩ := eq_of_held hheld₆ hs₆ hv₆
  rw [hrow₆] at hheld₇
  refine finish_safe (only_bind (CreditService.recordLoanRepaid_only allowsScores_offLoan ..)
    fun _ => only_bind (CreditService.calculateCreditScore_only allowsScores_offLoan _)
      fun _ => CreditService.refetchLoan_only allowsScores_offLoan id)
    ⟨hgood₇, .inr ⟨r₁, _, hheld₇, hterms₇, .inr (.inl ?_)⟩⟩
  exact ⟨not_not.mp hs, rfl, rfl, hentries₇.trans hentries₆⟩

/-- The sweep of the loan, by a session that has done nothing about it. -/
theorem defaultOne_safe {o : AgentLoan} (hterms : OnTerms r₀ o)
    (hgood : (loanDraft id σ).Good (OnTerms r₀)) (hfresh : (loanDraft id σ).Fresh) :
    (CreditService.defaultOne col id o).safe (loanProtocol id col r₀) i (Moved id col r₀) Raised σ
      () := by
  refine safe_bind (safe_bind (safe_now fun t => transitionLoan_safe (fun _ => rfl) hgood
    (fun E r σ₁ hs hv hactive hterms₁ hgood₁ hheld₁ hentries₁ => ?_)
    fun σ₁ hgood₁ hheld₁ hentries₁ => ?_))
  · rw [if_neg (by simp)]
    rw [← hfresh.view hs, hv] at hheld₁
    refine safe_bind (releaseCollateral_safe fun σ₂ h₂ => safe_bind (safe_now fun now => ?_))
    have hgood₂ : (loanDraft id σ₂).Good (OnTerms r₀) := h₂ ▸ hgood₁.post _
    have hheld₂ := (congrArg Draft.held h₂).trans hheld₁
    refine finish_safe (only_bind (CreditService.recordLoanDefaulted_only allowsScores_offLoan ..)
      fun _ => only_bind (CreditService.refetchLoan_only allowsScores_offLoan id) fun _ => trivial)
      ⟨hgood₂, .inr ⟨r, _, hheld₂, hterms₁, .inr (.inr ⟨hactive, rfl, ?_⟩)⟩⟩
    rw [h₂, Draft.post, hentries₁, hfresh.entries, List.nil_append,
      ← AgentLoan.release_of_terms (hterms₁.trans hterms.symm),
      ← AgentLoan.lender_of_terms (hterms₁.trans hterms.symm)]
  · rw [if_pos rfl]
    exact ⟨hgood₁, .inl ⟨hentries₁.trans hfresh.entries,
      fun hd hh => hfresh.held hd (hheld₁.symm.trans hh)⟩⟩

theorem detectDefaults_safe :
    (CreditService.detectDefaults col).safe (loanProtocol id col r₀) i (Moved id col r₀) Raised
      Session.start () := by
  have hobj := LoanRepository.asLoan_eq_some
  refine safe_bind (safe_bind (safe_now fun t => safe_bind (safe_recordQuery rfl
    fun rows σ₁ h₁ hnodup hseen => ?_)))
  have hdone₁ : LoanDone col r₀ (loanDraft id σ₁) := loanDone_blank.later h₁
  refine safe_sweep Prod.fst id ?_ rfl (fun _ _ h hl => h.later hl)
    (fun a ha => CreditService.defaultOne_only (allows_offLoan ha) a.2) (fun a ha hme σ₂ h₂ => ?_) hdone₁
    fun _ _ => trivial
  · exact nodup_filterMap_rows (S := schema) hobj (fun a b hab => by rw [hab]) hnodup
  · obtain ⟨q, o⟩ := a
    obtain rfl : q = id := hme
    rw [mem_filterMap_rows (S := schema) hobj] at ha
    have ho : OnTerms r₀ o :=
      Draft.good_blank.seen (fun _ => LoanAccounted.onTerms) (hseen o ha).1
    exact defaultOne_safe ho (hdone₁.later h₂).good ((h₁.trans h₂).fresh Draft.fresh_blank)

/-- A loan is created once. The loan `id` is there already. -/
theorem requestLoan_safe (q borrower_id : Id) (amount : ℚ) (currency : Token) (duration_secs : ℤ)
    (collateral_amount : ℚ) :
    (CreditService.requestLoan col floats q borrower_id amount currency duration_secs
      collateral_amount).safe (loanProtocol id col r₀) i (Moved id col r₀) Raised Session.start
      () := by
  by_cases hq : q = id
  · subst hq
    refine safe_bind (safe_apart
      (CreditService.calculateCreditScore_only allowsScores_offLoan borrower_id) rfl
      (fun score σ₁ h₁ => ?_) fun _ _ => trivial)
    refine safe_bind (safe_apart (CreditService.listActiveOffers_only allowsScores_offLoan ..) rfl
      (fun offers σ₂ h₂ => ?_) fun _ _ => trivial)
    refine safe_bind (safe_orRaise (fun _ => trivial) fun best_offer _ => ?_)
    refine safe_bind (safe_apart
      (only_onlyIf (CreditService.deductCollateral_only allowsScores_offLoan ..)) rfl
      (fun _ σ₃ h₃ => ?_) fun _ _ => trivial)
    refine safe_bind (safe_now fun t => safe_bind (safe_create (fun st γ hs hv => ?_)
      fun _ _ _ _ _ => safe_bind (safe_raiseIf (fun _ => trivial) fun hf => absurd rfl hf)))
    have hinv : LoanAccounted col r₀ (st.db.record (Key.loan q) (Entry.loanPosting q)) := hs.inv
    obtain ⟨r, hr, -⟩ := hinv
    have hheld : σ₃.held (Key.loan q) = none := ((h₁.trans h₂).trans h₃).held
    rw [Session.view_of_not_held hheld] at hv
    exact absurd (hv.symm.trans hr) (by simp)
  · exact finish_safe (CreditService.requestLoan_only (allows_offLoan hq) ..) loanDone_blank

theorem LoanCall.run_safe (call : LoanCall) :
    (call.run col floats).safe (loanProtocol id col r₀) i (fun _ _ _ => True) (fun _ _ _ => True)
      Session.start () := by
  have body : (call.body col floats).safe (loanProtocol id col r₀) i (Moved id col r₀) Raised
      Session.start () := by
    cases call with
    | requestLoan q borrower_id amount currency duration_secs collateral_amount =>
        exact safe_bind (requestLoan_safe _ _ _ _ _ _)
    | fundLoan lender_id q =>
        by_cases hq : q = id
        · subst hq
          exact safe_bind (fundLoan_safe lender_id)
        · exact finish_safe (only_bind (CreditService.fundLoan_only (allows_offLoan hq) lender_id)
            fun _ => trivial) loanDone_blank
    | repayLoan borrower_id q =>
        by_cases hq : q = id
        · subst hq
          exact safe_bind (repayLoan_safe borrower_id)
        · exact finish_safe (only_bind (CreditService.repayLoan_only (allows_offLoan hq) borrower_id)
            fun _ => trivial) loanDone_blank
    | detectDefaults => exact safe_bind detectDefaults_safe
  exact safe_withSession (safe_mono body (fun _ _ _ h => ⟨record_commits h.ready, trivial⟩)
    fun _ _ _ _ => trivial)

end Statements

end Sessions

/-! ## All interleavings -/

theorem loanPostings_eq {db : DB schema} {loan_id : Id} {part : LoanPart} {ps : List Posting}
    (h : (db.record (Key.loan loan_id) (Entry.loanPosting loan_id)).entries = ps) :
    loanPostings db loan_id part = ps.filter fun p => p.ref = .loan loan_id part :=
  congrArg (List.filter _) h

/-- The parts of a loan are all there is. -/
theorem loanPostings_nil {db : DB schema} {loan_id : Id}
    (h : ∀ part, loanPostings db loan_id part = []) :
    db.log.filterMap (Entry.loanPosting loan_id) = [] := by
  rw [List.eq_nil_iff_forall_not_mem]
  intro p hp
  have hpart : ∃ part, p.ref = .loan loan_id part := by
    obtain ⟨e, -, he⟩ := List.mem_filterMap.mp hp
    unfold Entry.loanPosting at he
    split at he
    · split at he
      · next q id' part href =>
          split at he
          · next hid =>
              obtain rfl := Option.some.inj he
              exact ⟨part, hid ▸ href⟩
          · cases he
      · cases he
    · cases he
  obtain ⟨part, hpart⟩ := hpart
  have hmem : p ∈ loanPostings db loan_id part := List.mem_filter.mpr ⟨hp, by simp [hpart]⟩
  rw [h part] at hmem
  cases hmem

/-- Agent 2 has requested a thousandth from agent 1, at five basis points. -/
def smallLoan : Store schema where
  db :=
    { rows := fun
        | .agent id => if id = 2 then some {} else none
        | .balance id token =>
            if token = .XMR ∧ (id = 1 ∨ id = 2) then some { available := 1 } else none
        | .loan id =>
            if id = 1 then some
              { lender_id := 1, borrower_id := 2, principal := 1 / 1000, interest_rate_bps := 5
                duration_secs := 3600, repayment_amount := 2001 / 2000000, expires_at := hours 1 }
            else none
        | _ => none
      keys := [.agent 2, .balance 1 .XMR, .balance 2 .XMR, .loan 1]
      log := [] }
  ext := default

theorem smallLoan_wf : smallLoan.db.WF := by
  refine ⟨by decide, fun k => ?_⟩
  cases k with
  | agent id => by_cases h : id = 2 <;> simp [smallLoan, h]
  | balance id token =>
      by_cases h : token = .XMR ∧ (id = 1 ∨ id = 2)
      · obtain ⟨rfl, rfl | rfl⟩ := h <;> simp [smallLoan]
      · simp only [smallLoan, h, if_false, Option.isSome_none, Bool.false_eq_true, iff_false]
        simp only [List.mem_cons, reduceCtorEq, Key.balance.injEq, List.not_mem_nil, or_false,
          false_or]
        grind
  | loan id => by_cases h : id = 1 <;> simp [smallLoan, h]
  | _ => simp [smallLoan]

/-- The loan is funded, and repaid. -/
def fundAndRepay : ℕ → LoanCall
  | 0 => .fundLoan 1 1
  | _ => .repayLoan 2 1

/-- The floats do not matter here. -/
def zeroFloats : Floats := ⟨fun _ _ => 0, fun _ => 0, fun _ _ => 0⟩

/-- The schedule: thread 0 runs to its end, then thread 1. -/
def fundThenRepay : List (ℕ × Input schema) := turn 0 14 0 ++ turn 1 23 0

/-- The test that the schedule records the given fee, and that the lender receives `credit`. -/
def repaysWith (col : Columns) (fee credit : ℚ) : Bool :=
  (Config.trace fundThenRepay (.start smallLoan fun i => (fundAndRepay i).run col zeroFloats)).any
    fun c => ((c.store.db.rows (Key.loan 1)).any fun r => r.state = .REPAID ∧ r.lender_id = 1 ∧
        r.borrower_id = 2 ∧ r.currency = .XMR ∧ r.platform_fee = fee ∧
        r.fee = 1 / 200000000) ∧
      loanPostings c.store.db 1 .repayment =
        [⟨2, .XMR, -(2001 / 2000000), .loan 1 .repayment⟩, ⟨1, .XMR, credit, .loan 1 .repayment⟩]

theorem exists_of_repaysWith {col : Columns} {fee credit : ℚ} (h : repaysWith col fee credit = true) :
    ∃ (c : Config schema Unit) (r : AgentLoan),
      Config.trace fundThenRepay
        (.start smallLoan fun i => (fundAndRepay i).run col zeroFloats) = some c ∧
      c.store.db.rows (Key.loan 1) = some r ∧ r.state = .REPAID ∧ r.lender_id = 1 ∧
      r.borrower_id = 2 ∧ r.currency = .XMR ∧ r.platform_fee = fee ∧ r.fee = 1 / 200000000 ∧
      loanPostings c.store.db 1 .repayment =
        [⟨2, .XMR, -(2001 / 2000000), .loan 1 .repayment⟩,
          ⟨1, .XMR, credit, .loan 1 .repayment⟩] := by
  simp only [repaysWith, Option.any_eq_true, decide_eq_true_eq] at h
  obtain ⟨c, hc, ⟨r, hr, hs, hl, hb, hcur, hp, hf⟩, hps⟩ := h
  exact ⟨c, r, hc, hr, hs, hl, hb, hcur, hp, hf, hps⟩

end Sthrip
