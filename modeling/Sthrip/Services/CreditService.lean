import Sthrip.Db.CreditRepo

set_option autoImplicit false

/-! # The credit service

`CreditService` of `sthrip/services/credit_service.py`: the credit score of an agent, and the life
of a loan. A loan is requested against the cheapest offer that fits, with a collateral; the lender
funds it; the borrower repays it with interest, of which one per cent stays with the platform, or
the sweep gives the collateral to the lender.

The score is computed with floats; what they give is a parameter here (`Floats`).
-/

namespace Sthrip

open Txn Prog

/-- The results of the computations with floats. -/
structure Floats where
  /-- `int(days_old * 0.5 + total_tx * 0.1)` -/
  activity : ℤ → ℤ → ℤ
  /-- `int(float(balance_xmr) * 20)` -/
  balance : ℚ → ℤ
  /-- `int(a / n)` -/
  average : ℤ → ℤ → ℤ

/-- `_PLATFORM_FEE_RATE` -/
def platformFeeRate : ℚ := 1 / 100

/-- The whole seconds since a time; `0` when there is none. -/
def secsSince (now : Time) (time : Option Time) : ℤ :=
  time.elim 0 fun time => (now - time).tdiv 1000000

/-- The whole days since a time; `0` when there is none. -/
def daysSince (now : Time) (time : Option Time) : ℤ :=
  time.elim 0 fun time => (now - time) / hours 24

/-- The loan again, at the end of a method. -/
def refetchLoan (loan_id : Id) : Program AgentLoan := do
  let loan ← LoanRepository.getById loan_id
  orRaise (.AttributeError "'NoneType' object has no attribute 'state'") loan

namespace CreditService

variable (col : Columns) (floats : Floats)

def maxBorrowAmount (credit_score : ℤ) (collateral_amount : ℚ) : ℚ :=
  credit_score / 200 + collateral_amount * (8 / 10)

def calculateCreditScore (agent_id : Id) : Program ℤ := do
  let agent ← AgentRepository.getById agent_id
  let agent ← orRaise (.LookupError "Agent %s not found" [.int agent_id]) agent
  let rep ← ReputationRepository.getByAgent agent_id
  let trust_score := rep.elim 0 (·.trust_score)
  let rep_factor := min 300 (trust_score * 3)
  let credit_record ← CreditRepository.getOrCreate agent_id
  let repaid := credit_record.total_loans_repaid
  let defaulted := credit_record.total_loans_defaulted
  let loan_factor := max 0 (min 300 (repaid * 50 - defaulted * 100))
  let now ← now
  let days_old := daysSince now agent.created_at
  let total_tx := rep.elim 0 (·.total_transactions)
  let activity_factor := min 200 (floats.activity days_old total_tx)
  let balance_xmr ← BalanceRepository.getAvailable agent_id .XMR
  let balance_factor := min 200 (floats.balance balance_xmr)
  let total := min 1000 (rep_factor + loan_factor + activity_factor + balance_factor)
  let _ ← CreditRepository.updateScore col agent_id total (maxBorrowAmount total 0)
    (max 1 (total / 200))
  return total

/-- Does the offer fit the request? -/
def matching (borrower_id : Id) (score : ℤ) (collateral_amount : ℚ) (o : LendingOffer) : Bool :=
  o.min_borrower_credit_score ≤ score ∧ o.lender_id ≠ borrower_id ∧
    (o.require_collateral = false ∨ 0 < collateral_amount)

/-- `loan_id` is the fresh identifier of the row. -/
def requestLoan (loan_id borrower_id : Id) (amount : ℚ) (currency : Token) (duration_secs : ℤ)
    (collateral_amount : ℚ) : Program AgentLoan := do
  let score ← calculateCreditScore col floats borrower_id
  let offers ← LoanRepository.listActiveOffers currency amount duration_secs
  let best_offer ← orRaise
    (.ValueError "No matching offer found for this loan request. Check credit score requirements and available offers.")
    (offers.filter (matching borrower_id score collateral_amount)).head?
  onlyIf (0 < collateral_amount)
    (BalanceRepository.deduct col borrower_id collateral_amount currency .other)
  let rate : ℚ := best_offer.interest_rate_bps / 10000
  let repayment_amount := amount * (1 + rate)
  LoanRepository.create col loan_id best_offer.lender_id borrower_id amount
    best_offer.interest_rate_bps duration_secs repayment_amount currency collateral_amount
    (if 0 < collateral_amount then some currency else none)

/-- `request_loan`, with the identifier of the offer. -/
def requestMatched (loan_id borrower_id : Id) (amount : ℚ) (currency : Token) (duration_secs : ℤ)
    (collateral_amount : ℚ) : Program (Id × AgentLoan) := do
  let score ← calculateCreditScore col floats borrower_id
  let offers ← LoanRepository.listActiveOfferRows currency amount duration_secs
  let best_offer ← orRaise
    (.ValueError "No matching offer found for this loan request. Check credit score requirements and available offers.")
    (offers.filter fun o => matching borrower_id score collateral_amount o.2).head?
  onlyIf (0 < collateral_amount)
    (BalanceRepository.deduct col borrower_id collateral_amount currency .other)
  let rate : ℚ := best_offer.2.interest_rate_bps / 10000
  let repayment_amount := amount * (1 + rate)
  let loan ← LoanRepository.create col loan_id best_offer.2.lender_id borrower_id amount
    best_offer.2.interest_rate_bps duration_secs repayment_amount currency collateral_amount
    (if 0 < collateral_amount then some currency else none)
  return (best_offer.1, loan)

def fundLoan (lender_id loan_id : Id) : Program AgentLoan := do
  let loan ← LoanRepository.getByIdForUpdate loan_id
  let loan ← orRaise (.LookupError "Loan %s not found" [.int loan_id]) loan
  raiseIf (loan.state ≠ .REQUESTED)
    (.ValueError "Loan is not in REQUESTED state (current: %s)" [.str loan.state.value])
  raiseIf (loan.lender_id ≠ lender_id)
    (.PermissionError "Only the matched lender can fund this loan")
  let _ ← BalanceRepository.deduct col lender_id loan.principal loan.currency
    (.loan loan_id .principal)
  let _ ← BalanceRepository.credit col loan.borrower_id loan.principal loan.currency
    (.loan loan_id .principal)
  let rows ← LoanRepository.fund loan_id
  raiseIf (rows = false) (.RuntimeError "Failed to transition loan to ACTIVE")
  CreditRepository.recordLoanTaken col loan.borrower_id loan.principal
  refetchLoan loan_id

/-- The collateral goes to an agent. -/
def releaseCollateral (loan_id agent_id : Id) (loan : AgentLoan) : Program Unit :=
  onlyIf (0 < loan.collateral_amount)
    (BalanceRepository.credit col agent_id loan.collateral_amount
      (loan.collateral_currency.getD loan.currency) (.loan loan_id .collateral))

def repayLoan (borrower_id loan_id : Id) : Program AgentLoan := do
  let loan ← LoanRepository.getByIdForUpdate loan_id
  let loan ← orRaise (.LookupError "Loan %s not found" [.int loan_id]) loan
  raiseIf (loan.state ≠ .ACTIVE)
    (.ValueError "Loan is not ACTIVE (current: %s)" [.str loan.state.value])
  raiseIf (loan.borrower_id ≠ borrower_id)
    (.PermissionError "Only the borrower can repay this loan")
  let repayment := loan.repayment_amount
  let interest := repayment - loan.principal
  let platform_fee := interest * platformFeeRate
  let lender_payout := repayment - platform_fee
  let _ ← BalanceRepository.deduct col borrower_id repayment loan.currency
    (.loan loan_id .repayment)
  let _ ← BalanceRepository.credit col loan.lender_id lender_payout loan.currency
    (.loan loan_id .repayment)
  releaseCollateral col loan_id borrower_id loan
  let loan_obj ← LoanRepository.getById loan_id
  let _ ← orRaise (.AttributeError "'NoneType' object has no attribute 'platform_fee'") loan_obj
  assign (S := schema) (Key.loan loan_id) fun row => { row with platform_fee := col 8 platform_fee }
  let rows ← LoanRepository.repay col loan_id repayment
  raiseIf (rows = false) (.RuntimeError "Failed to transition loan to REPAID")
  let now ← now
  CreditRepository.recordLoanRepaid floats.average borrower_id (secsSince now loan.funded_at)
  let _ ← calculateCreditScore col floats borrower_id
  refetchLoan loan_id

/-- The sweep of one loan; the answer is whether it was defaulted. -/
def defaultOne (loan_id : Id) (loan : AgentLoan) : Program Bool := do
  let rows ← LoanRepository.default loan_id
  if rows = false then return false
  releaseCollateral col loan_id loan.lender_id loan
  let now ← now
  CreditRepository.recordLoanDefaulted loan.borrower_id (secsSince now loan.funded_at)
  let _ ← refetchLoan loan_id
  return true

def detectDefaults : Program ℕ := do
  let overdue ← LoanRepository.getOverdueActiveLoans
  tally overdue fun (loan_id, loan) => defaultOne col loan_id loan

end CreditService

/-! ## Calls -/

/-- The calls of the service, each in a session of its own. -/
inductive LoanCall where
  | requestLoan (loan_id borrower_id : Id) (amount : ℚ) (currency : Token) (duration_secs : ℤ)
      (collateral_amount : ℚ)
  | fundLoan (lender_id loan_id : Id)
  | repayLoan (borrower_id loan_id : Id)
  | detectDefaults

def LoanCall.body (col : Columns) (floats : Floats) : LoanCall → Program Unit
  | .requestLoan loan_id borrower_id amount currency duration_secs collateral_amount => do
      let _ ← CreditService.requestLoan col floats loan_id borrower_id amount currency duration_secs
        collateral_amount
  | .fundLoan lender_id loan_id => do
      let _ ← CreditService.fundLoan col lender_id loan_id
  | .repayLoan borrower_id loan_id => do
      let _ ← CreditService.repayLoan col floats borrower_id loan_id
  | .detectDefaults => do
      let _ ← CreditService.detectDefaults col

def LoanCall.run (col : Columns) (floats : Floats) (c : LoanCall) : Program Unit :=
  withSession (c.body col floats)

end Sthrip
