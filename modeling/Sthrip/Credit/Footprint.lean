import Sthrip.Services.CreditService
import Sthrip.Txn.Footprint

set_option autoImplicit false

/-! # The statements of the credit service

What the methods of `CreditService` can do to the tables, read off their text: each method runs only
statements that satisfy a condition, when the condition allows the few kinds of statements below.
-/

namespace Sthrip

open Txn Prog

namespace CreditService

variable {ok : Stmt schema → Prop} {col : Columns} {floats : Floats} {q : Id}

/-- The statements about scores, offers and balances satisfy `ok`. -/
structure AllowsScores (ok : Stmt schema → Prop) : Prop where
  now : ok .now
  select : ∀ k, ok (.select k)
  scan : ∀ p, ok (.scan p)
  createScore : ∀ agent_id row, ok (.create (Key.creditScore agent_id) row)
  assignScore : ∀ agent_id set, ok (.assign (Key.creditScore agent_id) set)
  updateScore : ∀ agent_id guard set, ok (.update (Key.creditScore agent_id) guard set)
  balance : ∀ agent_id token, BalanceRepository.Allows ok agent_id token
  collateral : ∀ p : Posting, p.ref = .other → ok (.insert (.posting p))

/-- The statements about the loan `q` satisfy `ok`: a transition leaves an open state, and a write
through the object keeps the state. -/
structure Allows (ok : Stmt schema → Prop) (q : Id) : Prop where
  scores : AllowsScores ok
  lock : ok (.selectForUpdate (Key.loan q))
  create : ∀ row, ok (.create (Key.loan q) row)
  transition : ∀ (state : LoanStatus) (set : AgentLoan → AgentLoan),
    state = .REQUESTED ∨ state = .ACTIVE →
    ok (.update (Key.loan q) (fun row : AgentLoan => row.state = state) set)
  assign : ∀ set : AgentLoan → AgentLoan, (∀ row, (set row).state = row.state) →
    ok (.assign (Key.loan q) set)
  posting : ∀ (p : Posting) (part : LoanPart), p.ref = .loan q part → ok (.insert (.posting p))

section Scores

variable (h : AllowsScores ok)
include h

theorem getOrCreateScore_only (agent_id : Id) :
    (CreditRepository.getOrCreate agent_id).only ok := by
  refine only_bind (only_stmt (h.select _)) fun record => ?_
  cases record with
  | some record => trivial
  | none =>
      exact only_bind (only_stmt (h.createScore ..)) fun _ => only_bind only_raiseIf fun _ => trivial

theorem recordLoanTaken_only (agent_id : Id) (principal : ℚ) :
    (CreditRepository.recordLoanTaken col agent_id principal).only ok :=
  only_bind (getOrCreateScore_only h agent_id) fun _ => only_stmt (h.assignScore ..)

theorem recordLoanRepaid_only (average : ℤ → ℤ → ℤ) (agent_id : Id) (repayment_time_secs : ℤ) :
    (CreditRepository.recordLoanRepaid average agent_id repayment_time_secs).only ok :=
  only_bind (getOrCreateScore_only h agent_id) fun _ => only_stmt (h.assignScore ..)

theorem recordLoanDefaulted_only (agent_id : Id) (default_duration_secs : ℤ) :
    (CreditRepository.recordLoanDefaulted agent_id default_duration_secs).only ok :=
  only_bind (getOrCreateScore_only h agent_id) fun _ => only_stmt (h.assignScore ..)

theorem calculateCreditScore_only (agent_id : Id) :
    (calculateCreditScore col floats agent_id).only ok := by
  refine only_bind (only_stmt (h.select _)) fun _ => only_bind only_orRaise fun _ => ?_
  refine only_bind (only_stmt (h.select _)) fun _ => ?_
  refine only_bind (getOrCreateScore_only h agent_id) fun _ => only_bind (only_stmt h.now) fun _ => ?_
  refine only_bind (BalanceRepository.getAvailable_only (h.balance ..) (h.select _)) fun _ => ?_
  exact only_bind (only_bind (only_stmt h.now) fun _ => only_stmt (h.updateScore ..)) fun _ => trivial

theorem refetchLoan_only (q : Id) : (refetchLoan q).only ok :=
  only_bind (only_stmt (h.select _)) fun _ => only_orRaise

theorem listActiveOffers_only (currency : Token) (min_amount : ℚ) (max_duration_secs : ℤ) :
    (LoanRepository.listActiveOffers currency min_amount max_duration_secs).only ok :=
  only_bind (only_stmt h.now) fun _ => only_bind (only_query (h.scan _) h.select) fun _ => trivial

theorem listActiveOfferRows_only (currency : Token) (min_amount : ℚ) (max_duration_secs : ℤ) :
    (LoanRepository.listActiveOfferRows currency min_amount max_duration_secs).only ok :=
  only_bind (only_stmt h.now) fun _ => only_bind (only_query (h.scan _) h.select) fun _ => trivial

theorem getOverdueActiveLoans_only : LoanRepository.getOverdueActiveLoans.only ok :=
  only_bind (only_stmt h.now) fun _ => only_bind (only_query (h.scan _) h.select) fun _ => trivial

theorem deductCollateral_only (agent_id : Id) (amount : ℚ) (token : Token) :
    (BalanceRepository.deduct col agent_id amount token .other).only ok :=
  BalanceRepository.deduct_only (h.balance ..) (h.collateral _ rfl)

end Scores

section Loans

variable (h : Allows ok q)
include h

theorem creditLoan_only (agent_id : Id) (amount : ℚ) (token : Token) (part : LoanPart) :
    (BalanceRepository.credit col agent_id amount token (.loan q part)).only ok :=
  BalanceRepository.credit_only (h.scores.balance ..) (h.posting _ part rfl)

theorem deductLoan_only (agent_id : Id) (amount : ℚ) (token : Token) (part : LoanPart) :
    (BalanceRepository.deduct col agent_id amount token (.loan q part)).only ok :=
  BalanceRepository.deduct_only (h.scores.balance ..) (h.posting _ part rfl)

theorem releaseCollateral_only (agent_id : Id) (loan : AgentLoan) :
    (releaseCollateral col q agent_id loan).only ok :=
  only_onlyIf (creditLoan_only h ..)

theorem createLoan_only (lender_id borrower_id : Id) (principal : ℚ)
    (interest_rate_bps duration_secs : ℤ) (repayment_amount : ℚ) (currency : Token)
    (collateral_amount : ℚ) (collateral_currency : Option Token) :
    (LoanRepository.create col q lender_id borrower_id principal interest_rate_bps duration_secs
      repayment_amount currency collateral_amount collateral_currency).only ok :=
  only_bind (only_stmt h.scores.now) fun _ => only_bind (only_stmt (h.create _)) fun _ =>
    only_bind only_raiseIf fun _ => trivial

theorem requestLoan_only (borrower_id : Id) (amount : ℚ) (currency : Token) (duration_secs : ℤ)
    (collateral_amount : ℚ) :
    (requestLoan col floats q borrower_id amount currency duration_secs collateral_amount).only
      ok := by
  refine only_bind (calculateCreditScore_only h.scores borrower_id) fun _ => ?_
  refine only_bind (listActiveOffers_only h.scores ..) fun _ => only_bind only_orRaise fun _ => ?_
  refine only_bind (only_onlyIf (deductCollateral_only h.scores ..)) fun _ => ?_
  exact createLoan_only h ..

theorem requestMatched_only (borrower_id : Id) (amount : ℚ) (currency : Token) (duration_secs : ℤ)
    (collateral_amount : ℚ) :
    (requestMatched col floats q borrower_id amount currency duration_secs collateral_amount).only
      ok := by
  refine only_bind (calculateCreditScore_only h.scores borrower_id) fun _ => ?_
  refine only_bind (listActiveOfferRows_only h.scores ..) fun _ => only_bind only_orRaise fun _ => ?_
  refine only_bind (only_onlyIf (deductCollateral_only h.scores ..)) fun _ => ?_
  exact only_bind (createLoan_only h ..) fun _ => trivial

theorem fundLoan_only (lender_id : Id) : (fundLoan col lender_id q).only ok := by
  refine only_bind (only_stmt h.lock) fun _ => only_bind only_orRaise fun _ => ?_
  refine only_bind only_raiseIf fun _ => only_bind only_raiseIf fun _ => ?_
  refine only_bind (deductLoan_only h ..) fun _ => only_bind (creditLoan_only h ..) fun _ => ?_
  refine only_bind (only_bind (only_stmt h.scores.now) fun _ =>
    only_stmt (h.transition _ _ (Or.inl rfl))) fun _ => ?_
  refine only_bind only_raiseIf fun _ => ?_
  exact only_bind (recordLoanTaken_only h.scores ..) fun _ => refetchLoan_only h.scores q

theorem repayLoan_only (borrower_id : Id) : (repayLoan col floats borrower_id q).only ok := by
  refine only_bind (only_stmt h.lock) fun _ => only_bind only_orRaise fun _ => ?_
  refine only_bind only_raiseIf fun _ => only_bind only_raiseIf fun _ => ?_
  refine only_bind (deductLoan_only h ..) fun _ => only_bind (creditLoan_only h ..) fun _ => ?_
  refine only_bind (releaseCollateral_only h ..) fun _ => ?_
  refine only_bind (only_stmt (h.scores.select _)) fun _ => only_bind only_orRaise fun _ => ?_
  refine only_bind (only_stmt (h.assign _ fun _ => rfl)) fun _ => ?_
  refine only_bind (only_bind (only_stmt h.scores.now) fun _ =>
    only_stmt (h.transition _ _ (Or.inr rfl))) fun _ => ?_
  refine only_bind only_raiseIf fun _ => only_bind (only_stmt h.scores.now) fun _ => ?_
  refine only_bind (recordLoanRepaid_only h.scores ..) fun _ => ?_
  exact only_bind (calculateCreditScore_only h.scores _) fun _ => refetchLoan_only h.scores q

theorem defaultOne_only (loan : AgentLoan) : (defaultOne col q loan).only ok := by
  refine only_bind (only_bind (only_stmt h.scores.now) fun _ =>
    only_stmt (h.transition _ _ (Or.inr rfl))) fun rows => ?_
  split
  · trivial
  refine only_bind (releaseCollateral_only h ..) fun _ => only_bind (only_stmt h.scores.now) fun _ => ?_
  refine only_bind (recordLoanDefaulted_only h.scores ..) fun _ => ?_
  exact only_bind (refetchLoan_only h.scores q) fun _ => trivial

end Loans

end CreditService

/-! ## What leaves the loans alone -/

/-- Loans and offers. -/
def Key.IsLending : Key → Prop
  | .loan _ => True
  | .offer _ => True
  | _ => False

/-- The collateral of a loan that was put on a balance, with the loan. -/
def Entry.collateralOf : Entry → Option (Id × Posting)
  | .posting p =>
      match p.ref with
      | .loan loan_id .collateral => some (loan_id, p)
      | _ => none
  | _ => none

/-- The statement leaves loans, offers and collaterals alone. -/
abbrev SparesLending : Stmt schema → Prop := Stmt.off Key.IsLending Entry.collateralOf

theorem allowsBalance_sparesLending (agent_id : Id) (token : Token) :
    BalanceRepository.Allows SparesLending agent_id token := ⟨id, id, fun _ => id⟩

theorem allowsScores_sparesLending : CreditService.AllowsScores SparesLending where
  now := trivial
  select _ := trivial
  scan _ := trivial
  createScore _ _ := id
  assignScore _ _ := id
  updateScore _ _ _ := id
  balance := allowsBalance_sparesLending
  collateral p hp := by
    show Entry.collateralOf (.posting p) = none
    simp only [Entry.collateralOf, hp]

end Sthrip
