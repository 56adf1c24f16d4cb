import Mathlib.Data.List.Sort
import Sthrip.Db.AgentRepo
import Sthrip.Db.BalanceRepo

set_option autoImplicit false

/-! # Credit scores

`CreditRepository` of `sthrip/db/credit_repo.py` and `ReputationRepository.get_by_agent`. The
counters of a credit score are attributes set on an object: they are computed from the values the
session has loaded.
-/

namespace Sthrip

open Txn Prog

def ReputationRepository.getByAgent (agent_id : Id) : Program (Option AgentReputation) :=
  select (S := schema) (Key.reputation agent_id)

namespace CreditRepository

variable (col : Columns)

def get (agent_id : Id) : Program (Option AgentCreditScore) :=
  select (S := schema) (Key.creditScore agent_id)

def getOrCreate (agent_id : Id) : Program AgentCreditScore := do
  let record ← select (S := schema) (Key.creditScore agent_id)
  match record with
  | some record => return record
  | none =>
      let inserted ← create (S := schema) (Key.creditScore agent_id) ({} : AgentCreditScore)
      raiseIf (inserted = false) .IntegrityError
      return {}

def updateScore (agent_id : Id) (credit_score : ℤ) (max_borrow_amount : ℚ)
    (max_concurrent_loans : ℤ) : Program Bool := do
  let now ← now
  update (S := schema) (Key.creditScore agent_id) (fun _ => true) fun row =>
    { row with
      credit_score, max_borrow_amount := col 8 max_borrow_amount, max_concurrent_loans
      calculated_at := some now }

def recordLoanTaken (agent_id : Id) (principal : ℚ) : Program Unit := do
  let record ← getOrCreate agent_id
  let total_loans_taken := record.total_loans_taken + 1
  let total_borrowed_volume := col 8 (record.total_borrowed_volume + principal)
  assign (S := schema) (Key.creditScore agent_id) fun row =>
    { row with total_loans_taken, total_borrowed_volume }

/-- `average a n` is the quotient of floats `a / n`, truncated. -/
def recordLoanRepaid (average : ℤ → ℤ → ℤ) (agent_id : Id) (repayment_time_secs : ℤ) :
    Program Unit := do
  let record ← getOrCreate agent_id
  let total_loans_repaid := record.total_loans_repaid + 1
  let prev_avg := record.avg_repayment_time_secs.getD 0
  let prev_count := total_loans_repaid - 1
  let avg := if prev_count ≤ 0 then repayment_time_secs
    else average (prev_avg * prev_count + repayment_time_secs) total_loans_repaid
  assign (S := schema) (Key.creditScore agent_id) fun row =>
    { row with total_loans_repaid, avg_repayment_time_secs := some avg }

def recordLoanDefaulted (agent_id : Id) (default_duration_secs : ℤ) : Program Unit := do
  let record ← getOrCreate agent_id
  let total_loans_defaulted := record.total_loans_defaulted + 1
  let current_worst := record.longest_default_secs.getD 0
  let longest_default_secs := if current_worst < default_duration_secs
    then some default_duration_secs else record.longest_default_secs
  assign (S := schema) (Key.creditScore agent_id) fun row =>
    { row with total_loans_defaulted, longest_default_secs }

end CreditRepository

end Sthrip

/-! ## Loans

`LoanRepository` of `sthrip/db/loan_repo.py`. A loan is `REQUESTED` until its lender funds it, and
`ACTIVE` until the borrower repays it or the sweep finds it overdue; every transition is an
`UPDATE` guarded by the state it leaves.
-/

namespace Sthrip

open Txn Prog

namespace LoanRepository

variable (col : Columns)

/-- `loan_id` is the fresh identifier of the row. -/
def create (loan_id lender_id borrower_id : Id) (principal : ℚ)
    (interest_rate_bps duration_secs : ℤ) (repayment_amount : ℚ) (currency : Token)
    (collateral_amount : ℚ) (collateral_currency : Option Token) : Program AgentLoan := do
  let now ← now
  let loan : AgentLoan :=
    { lender_id, borrower_id, principal := col 8 principal, currency, interest_rate_bps
      duration_secs, collateral_amount := col 8 collateral_amount, collateral_currency
      repayment_amount := col 8 repayment_amount, state := .REQUESTED
      expires_at := now + duration_secs * 1000000 }
  let inserted ← Prog.create (Key.loan loan_id) loan
  raiseIf (inserted = false) .IntegrityError
  return loan

def getById (loan_id : Id) : Program (Option AgentLoan) := select (S := schema) (Key.loan loan_id)

def getByIdForUpdate (loan_id : Id) : Program (Option AgentLoan) :=
  selectForUpdate (S := schema) (Key.loan loan_id)

/-- `state → set.state` -/
def transition (state : LoanStatus) (set : AgentLoan → AgentLoan) (loan_id : Id) : Program Bool :=
  update (Key.loan loan_id) (fun row => row.state = state) set

/-- `REQUESTED → ACTIVE` -/
def fund (loan_id : Id) : Program Bool := do
  let now ← now
  transition .REQUESTED (fun row => { row with state := .ACTIVE, funded_at := some now }) loan_id

/-- `ACTIVE → REPAID` -/
def repay (loan_id : Id) (amount : ℚ) : Program Bool := do
  let now ← now
  transition .ACTIVE
    (fun row =>
      { row with state := .REPAID, repaid_amount := col 8 amount, repaid_at := some now })
    loan_id

/-- `ACTIVE → DEFAULTED` -/
def default (loan_id : Id) : Program Bool := do
  let now ← now
  transition .ACTIVE (fun row => { row with state := .DEFAULTED, defaulted_at := some now }) loan_id

/-- The loan of a row, with its identifier. -/
def asLoan : (Σ k : Key, Row k) → Option (Id × AgentLoan)
  | ⟨.loan id, row⟩ => some (id, row)
  | _ => none

theorem asLoan_eq_some (x : Σ k : Key, Row k) (a : Id × AgentLoan) :
    asLoan x = some a ↔ x = ⟨Key.loan a.1, a.2⟩ := by
  obtain ⟨k, r⟩ := x
  constructor
  · intro ha
    cases k with
    | loan q =>
        obtain rfl := Option.some.inj ha
        rfl
    | _ => cases ha
  · rintro ⟨⟩
    rfl

def isOverdue (now : Time) : (k : Key) → Row k → Bool
  | .loan _, row => row.state = .ACTIVE ∧ row.expires_at ≤ now
  | _, _ => false

def getOverdueActiveLoans : Program (List (Id × AgentLoan)) := do
  let now ← now
  let rows ← query (isOverdue now)
  return rows.filterMap asLoan

/-! ## Offers -/

def asOffer : (Σ k : Key, Row k) → Option LendingOffer
  | ⟨.offer _, row⟩ => some row
  | _ => none

def isOpen (now : Time) (currency : Token) (min_amount : ℚ) (max_duration_secs : ℤ) :
    (k : Key) → Row k → Bool
  | .offer _, row => row.is_active ∧ row.currency = currency ∧ now < row.expires_at ∧
      min_amount ≤ row.remaining_amount ∧ max_duration_secs ≤ row.max_duration_secs
  | _, _ => false

/-- The cheapest offers first; at most fifty. -/
def listActiveOffers (currency : Token) (min_amount : ℚ) (max_duration_secs : ℤ) :
    Program (List LendingOffer) := do
  let now ← now
  let rows ← query (isOpen now currency min_amount max_duration_secs)
  return ((rows.filterMap asOffer).mergeSort fun a b =>
    a.interest_rate_bps ≤ b.interest_rate_bps).take 50

/-- An offer with its identifier. -/
def asOfferRow : (Σ k : Key, Row k) → Option (Id × LendingOffer)
  | ⟨.offer id, row⟩ => some (id, row)
  | _ => none

/-- `list_active_offers`, with the identifiers. -/
def listActiveOfferRows (currency : Token) (min_amount : ℚ) (max_duration_secs : ℤ) :
    Program (List (Id × LendingOffer)) := do
  let now ← now
  let rows ← query (isOpen now currency min_amount max_duration_secs)
  return ((rows.filterMap asOfferRow).insertionSort fun a b =>
    a.2.interest_rate_bps ≤ b.2.interest_rate_bps).take 50

end LoanRepository

end Sthrip
