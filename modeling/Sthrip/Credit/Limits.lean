import Sthrip.Credit.OverCommit

set_option autoImplicit false

/-! # The limits of a borrower

With a score come an amount that may be borrowed and a number of loans that may be open, and an offer
can ask for a collateral that is a share of the principal. The service computes all three and asks for
none of them: a request that an offer matches becomes a loan. So the loans keep to the limits in the
runs in which the requests do (`limits_respected_iff`).
-/

namespace Sthrip

open Txn Prog

/-! ## The score of an agent -/

namespace CreditService

variable (floats : Floats)

/-- The score that the tables give at a time. -/
def scoreAt (db : DB schema) (now : Time) (agent_id : Id) : ℤ :=
  let rep := db.rows (Key.reputation agent_id)
  let credit_record := (db.rows (Key.creditScore agent_id)).getD {}
  let created_at := (db.rows (Key.agent agent_id)).bind fun agent => agent.created_at
  let balance := BalanceRepository.balanceOf db agent_id .XMR
  min 1000
    (min 300 (rep.elim 0 (·.trust_score) * 3)
      + max 0 (min 300
        (credit_record.total_loans_repaid * 50 - credit_record.total_loans_defaulted * 100))
      + min 200 (floats.activity (daysSince now created_at) (rep.elim 0 (·.total_transactions)))
      + min 200 (floats.balance balance.available))

/-- The number of the statement of a request that reads the clock for the score. -/
def scoreClock (db : DB schema) (agent_id : Id) : ℕ :=
  if (db.rows (Key.creditScore agent_id)).isSome then 3 else 4

/-- The number of the statement that reads it for the offers. The query comes next. -/
def offersClock (db : DB schema) (agent_id : Id) : ℕ :=
  scoreClock db agent_id + if (db.rows (Key.balance agent_id .XMR)).isSome then 4 else 5

variable {x x' : ℕ → Input schema} {v v' : Solo schema} {agent_id : Id}

/-- A record that is missing takes a second statement. -/
theorem getOrCreate_returns {record : AgentCreditScore}
    (h : (CreditRepository.getOrCreate agent_id).Returns x v record x' v') :
    record = (v.db.rows (Key.creditScore agent_id)).getD {} ∧
      x' = (fun n => x (n + if (v.db.rows (Key.creditScore agent_id)).isSome then 1 else 2)) ∧
      ∀ k, k ≠ Key.creditScore agent_id → v'.db.rows k = v.db.rows k := by
  obtain ⟨row, x₁, v₁, h₁, h⟩ := returns_bind h
  obtain ⟨hrow, hx₁, hv₁⟩ := returns_stmt h₁
  replace hrow : row = v.db.rows (Key.creditScore agent_id) := hrow
  replace hv₁ : v₁ = v := hv₁
  rw [← hrow]
  cases row with
  | some row =>
      obtain ⟨hr, hx, hv⟩ := returns_ret h
      rw [hv, hv₁]
      exact ⟨hr, hx.trans hx₁, fun _ _ => rfl⟩
  | none =>
      obtain ⟨inserted, x₂, v₂, h₂, h⟩ := returns_bind h
      obtain ⟨hins, hx₂, hv₂⟩ := returns_stmt h₂
      obtain ⟨_, x₃, v₃, h₃, h⟩ := returns_bind h
      simp only [Stmt.eval, hv₁, ← hrow] at hins hv₂
      rw [hins] at h₃
      obtain ⟨-, hx₃, hv₃⟩ := returns_ret (b := ()) h₃
      obtain ⟨hr, hx, hv⟩ := returns_ret h
      rw [hv, hv₃, hv₂]
      refine ⟨hr, ?_, fun k hk => DB.put_rows_ne _ _ hk⟩
      rw [hx, hx₃, hx₂, hx₁]
      rfl

theorem getAvailable_returns {available : ℚ}
    (h : (BalanceRepository.getAvailable agent_id .XMR).Returns x v available x' v') :
    available = (BalanceRepository.balanceOf v.db agent_id .XMR).available ∧
      x' = fun n => x (n + if (v.db.rows (Key.balance agent_id .XMR)).isSome then 1 else 2) := by
  obtain ⟨balance, x₁, v₁, h₁, h⟩ := returns_bind h
  obtain ⟨ha, hx, -⟩ := returns_ret h
  obtain ⟨row, x₂, v₂, h₂, h₁⟩ := returns_bind h₁
  obtain ⟨hrow, hx₂, hv₂⟩ := returns_stmt h₂
  replace hrow : row = v.db.rows (Key.balance agent_id .XMR) := hrow
  replace hv₂ : v₂ = v := hv₂
  rw [hx, ha, ← hrow, BalanceRepository.balanceOf, ← hrow]
  cases row with
  | some row =>
      obtain ⟨hr, hx₁, -⟩ := returns_ret h₁
      rw [hx₁, hx₂, hr]
      exact ⟨rfl, rfl⟩
  | none =>
      obtain ⟨inserted, x₃, v₃, h₃, h₁⟩ := returns_bind h₁
      obtain ⟨hins, hx₃, -⟩ := returns_stmt h₃
      simp only [Stmt.eval, hv₂, ← hrow] at hins
      rw [hins] at h₁
      obtain ⟨hr, hx₁, -⟩ := returns_ret h₁
      rw [hx₁, hx₃, hx₂, hr]
      exact ⟨rfl, rfl⟩

/-- The score is that of the tables as they were, at the time the clock shows. -/
theorem calculateCreditScore_returns {col : Columns} {score : ℤ}
    (h : (calculateCreditScore col floats agent_id).Returns x v score x' v') :
    score = scoreAt floats v.db (x (scoreClock v.db agent_id)).time agent_id ∧
      x' = fun n => x (n + offersClock v.db agent_id) := by
  obtain ⟨found, x₁, v₁, h₁, h⟩ := returns_bind h
  obtain ⟨hfound, hx₁, hv₁⟩ := returns_stmt h₁
  obtain ⟨agent, x₂, v₂, h₂, h⟩ := returns_bind h
  obtain ⟨hagent, hx₂, hv₂⟩ := returns_orRaise h₂
  obtain ⟨rep, x₃, v₃, h₃, h⟩ := returns_bind h
  obtain ⟨hrep, hx₃, hv₃⟩ := returns_stmt h₃
  obtain ⟨record, x₄, v₄, h₄, h⟩ := returns_bind h
  obtain ⟨hrecord, hx₄, hrows⟩ := getOrCreate_returns h₄
  obtain ⟨now, x₅, v₅, h₅, h⟩ := returns_bind h
  obtain ⟨hnow, hx₅, hv₅⟩ := returns_stmt h₅
  obtain ⟨balance, x₆, v₆, h₆, h⟩ := returns_bind h
  obtain ⟨hbalance, hx₆⟩ := getAvailable_returns h₆
  obtain ⟨_, x₇, v₇, h₇, h⟩ := returns_bind h
  obtain ⟨t, x₈, v₈, h₈, h₇⟩ := returns_bind h₇
  obtain ⟨-, hx₈, -⟩ := returns_stmt h₈
  obtain ⟨-, hx₇, -⟩ := returns_stmt h₇
  obtain ⟨hscore, hx, -⟩ := returns_ret h
  -- nothing but the row of the score changes before the balance is read
  replace hv₃ : v₃ = v := hv₃.trans (hv₂.trans hv₁)
  replace hrep : rep = v.db.rows (Key.reputation agent_id) := by
    rw [hrep, hv₂, hv₁]
    rfl
  replace hfound : v.db.rows (Key.agent agent_id) = some agent := hagent ▸ hfound.symm
  replace hnow : now = (x₄ 0).time := hnow
  replace hv₅ : v₅ = v₄ := hv₅
  have hsame : v₄.db.rows (Key.balance agent_id .XMR) = v.db.rows (Key.balance agent_id .XMR) := by
    rw [hrows _ (by simp), hv₃]
  rw [hv₃] at hrecord hx₄
  rw [hv₅, hsame] at hx₆
  rw [hv₅, BalanceRepository.balanceOf, hsame] at hbalance
  have hclock : ∀ n, x₄ n = x (n + scoreClock v.db agent_id) := by
    intro n
    rw [hx₄, hx₃, hx₂, hx₁, scoreClock]
    split
    · rfl
    · rfl
  constructor
  · rw [hscore, hnow, hclock, hbalance, hrecord, hrep, Nat.zero_add]
    simp only [scoreAt, hfound, Option.bind_some, BalanceRepository.balanceOf]
  · funext n
    rw [hx, hx₇, hx₈, hx₆, hx₅, offersClock]
    simp only [hclock]
    congr 1
    split
    · omega
    · omega

/-! ## The offer that is matched -/

/-- The offer that a request is matched to, when the offers that are open come in the order `ks`. -/
def bestOffer (db : DB schema) (ks : List Key) (borrower_id : Id) (score : ℤ)
    (collateral_amount : ℚ) : Option (Id × LendingOffer) :=
  let rows := ks.filterMap fun k => (db.rows k).map (Sigma.mk k)
  let offers := ((rows.filterMap LoanRepository.asOfferRow).insertionSort fun a b =>
    a.2.interest_rate_bps ≤ b.2.interest_rate_bps).take 50
  (offers.filter fun o => matching borrower_id score collateral_amount o.2).head?

theorem bestOffer_same {ρ : Type} {f : Entry → Option ρ} {db db' : DB schema}
    (h : db.Same Key.IsLending f db') (ks : List Key) (borrower_id : Id) (score : ℤ)
    (collateral_amount : ℚ) : bestOffer db' ks borrower_id score collateral_amount
      = bestOffer db ks borrower_id score collateral_amount := by
  have hrow : ∀ k : Key, ((db'.rows k).map (Sigma.mk k)).bind LoanRepository.asOfferRow
      = ((db.rows k).map (Sigma.mk k)).bind LoanRepository.asOfferRow := by
    intro k
    by_cases hk : ∃ id, k = Key.offer id
    · obtain ⟨id, rfl⟩ := hk
      rw [h.rows (Key.offer id) trivial]
    · -- the other rows are no offers
      have hnone : ∀ row : Option (Row k),
          (row.map (Sigma.mk k)).bind LoanRepository.asOfferRow = none := by
        intro row
        cases row with
        | none => rfl
        | some r =>
            cases k with
            | offer id => exact absurd ⟨id, rfl⟩ hk
            | _ => rfl
      rw [hnone, hnone]
  unfold bestOffer
  simp only [List.filterMap_filterMap, hrow]

theorem row_of_bestOffer {db : DB schema} {ks : List Key} {borrower_id : Id} {score : ℤ}
    {collateral_amount : ℚ} {o : Id × LendingOffer}
    (h : bestOffer db ks borrower_id score collateral_amount = some o) :
    db.rows (Key.offer o.1) = some o.2 := by
  have hmem := List.mem_of_mem_take (List.mem_of_mem_filter (List.mem_of_mem_head? h))
  rw [(List.perm_insertionSort _ _).mem_iff, List.mem_filterMap] at hmem
  obtain ⟨⟨k, row⟩, hrow, ho⟩ := hmem
  obtain ⟨k', -, hk'⟩ := List.mem_filterMap.mp hrow
  obtain ⟨row', hrow', he⟩ := Option.map_eq_some_iff.mp hk'
  cases he
  cases k with
  | offer id =>
      obtain rfl := Option.some.inj ho
      exact hrow'
  | _ => cases ho

theorem listActiveOfferRows_returns {currency : Token} {amount : ℚ} {duration_secs : ℤ}
    {offers : List (Id × LendingOffer)}
    (h : (LoanRepository.listActiveOfferRows currency amount duration_secs).Returns x v offers x' v')
    (borrower_id : Id) (score : ℤ) (collateral_amount : ℚ) :
    (offers.filter fun o => matching borrower_id score collateral_amount o.2).head?
      = bestOffer v.db ((x 1).arrange
        (v.db.matching (LoanRepository.isOpen (x 0).time currency amount duration_secs))) borrower_id
        score collateral_amount ∧ v' = v := by
  obtain ⟨now, x₁, v₁, h₁, h⟩ := returns_bind h
  obtain ⟨hnow, hx₁, hv₁⟩ := returns_stmt h₁
  replace hnow : now = (x 0).time := hnow
  replace hv₁ : v₁ = v := hv₁
  obtain ⟨rows, x₂, v₂, h₂, h⟩ := returns_bind h
  obtain ⟨hrows, hv₂⟩ := returns_query h₂
  obtain ⟨hoffers, -, hv⟩ := returns_ret h
  refine ⟨?_, hv.trans (hv₂.trans hv₁)⟩
  rw [hoffers, hrows, hx₁, hv₁, hnow]
  rfl

/-! ## A request that is accepted -/

variable {col : Columns}

/-- A new loan: the tables of loans and offers gain its row, and nothing else. -/
theorem create_returns {loan_id lender_id borrower_id : Id} {principal : ℚ}
    {interest_rate_bps duration_secs : ℤ} {repayment_amount : ℚ} {currency : Token}
    {collateral_amount : ℚ} {collateral_currency : Option Token} {loan : AgentLoan}
    (h : (LoanRepository.create col loan_id lender_id borrower_id principal interest_rate_bps
      duration_secs repayment_amount currency collateral_amount collateral_currency).Returns x v loan
      x' v') :
    loan.borrower_id = borrower_id ∧ loan.principal = col 8 principal ∧
      loan.collateral_amount = col 8 collateral_amount ∧ loan.state = .REQUESTED ∧
      v.db.rows (Key.loan loan_id) = none ∧ v'.db = v.db.put (Key.loan loan_id) loan := by
  obtain ⟨now, x₁, v₁, h₁, h⟩ := returns_bind h
  obtain ⟨-, -, hv₁⟩ := returns_stmt h₁
  replace hv₁ : v₁ = v := hv₁
  obtain ⟨inserted, x₂, v₂, h₂, h⟩ := returns_bind h
  obtain ⟨hins, -, hv₂⟩ := returns_stmt h₂
  obtain ⟨_, x₃, v₃, h₃, h⟩ := returns_bind h
  obtain ⟨htrue, -, hv₃⟩ := returns_raiseIf h₃
  obtain ⟨hloan, -, hv⟩ := returns_ret h
  rw [hv₁] at hins hv₂
  cases hrow : v.db.rows (Key.loan loan_id) with
  | some row =>
      simp only [Stmt.eval, hrow] at hins
      exact absurd hins htrue
  | none =>
      simp only [Stmt.eval, hrow] at hv₂
      rw [hv, hv₃, hv₂, hloan]
      exact ⟨rfl, rfl, rfl, rfl, rfl, rfl⟩

end CreditService

/-! ## The open loans of a borrower -/

def AgentLoan.openOf (borrower_id : Id) : (k : Key) → Row k → Bool
  | .loan _, row => row.borrower_id = borrower_id ∧ row.isOpen
  | _, _ => false

/-- The number of the requested and active loans of a borrower. -/
def openLoans (db : DB schema) (borrower_id : Id) : ℕ :=
  (db.matching (AgentLoan.openOf borrower_id)).length

theorem openLoans_same {ρ : Type} {f : Entry → Option ρ} {db db' : DB schema}
    (h : db.Same Key.IsLending f db') (borrower_id : Id) :
    openLoans db' borrower_id = openLoans db borrower_id := by
  unfold openLoans
  rw [h.matching]
  intro k r hk
  cases k with
  | loan id => exact absurd trivial hk
  | _ => rfl

theorem openLoans_put_new {db : DB schema} (h : db.WF) {loan_id : Id} {loan : AgentLoan}
    (hnew : db.rows (Key.loan loan_id) = none) (hstate : loan.state = .REQUESTED) :
    openLoans (db.put (Key.loan loan_id) loan) loan.borrower_id
      = openLoans db loan.borrower_id + 1 := by
  have hopen : AgentLoan.openOf loan.borrower_id (Key.loan loan_id) loan = true := by
    simp [AgentLoan.openOf, AgentLoan.isOpen, hstate]
  rw [openLoans, h.matching_put_new _ hnew, if_pos hopen, List.length_append, List.length_singleton]
  rfl

/-! ## Within the limits -/

/-- The loan keeps to what the borrower's score and the offer allow. -/
structure AgentLoan.WithinLimits (db : DB schema) (score : ℤ) (offer : LendingOffer)
    (loan : AgentLoan) : Prop where
  amount : loan.principal ≤ CreditService.maxBorrowAmount score loan.collateral_amount
  collateral : offer.require_collateral = true →
    loan.principal * offer.collateral_ratio_pct / 100 ≤ loan.collateral_amount
  concurrent : (openLoans db loan.borrower_id : ℤ) ≤ max 1 (score / 200)

namespace LoanCall

variable (col : Columns) (floats : Floats) (x : ℕ → Input schema)

/-- The borrower's score at a request. -/
def scoreIn (db : DB schema) (borrower_id : Id) : ℤ :=
  CreditService.scoreAt floats db (x (CreditService.scoreClock db borrower_id)).time borrower_id

/-- The offer that a request finds. -/
def offerIn (db : DB schema) (borrower_id : Id) (amount : ℚ) (currency : Token) (duration_secs : ℤ)
    (collateral_amount : ℚ) : Option (Id × LendingOffer) :=
  let n := CreditService.offersClock db borrower_id
  let ks := (x (n + 1)).arrange
    (db.matching (LoanRepository.isOpen (x n).time currency amount duration_secs))
  CreditService.bestOffer db ks borrower_id (scoreIn floats x db borrower_id) collateral_amount

/-- The request is within the limits that the tables set. -/
def Within (db : DB schema) : LoanCall → Prop
  | .requestLoan _ borrower_id amount currency duration_secs collateral_amount =>
      let score := scoreIn floats x db borrower_id
      col 8 amount ≤ CreditService.maxBorrowAmount score (col 8 collateral_amount) ∧
        (∀ o ∈ offerIn floats x db borrower_id amount currency duration_secs collateral_amount,
          o.2.require_collateral = true →
            col 8 amount * o.2.collateral_ratio_pct / 100 ≤ col 8 collateral_amount) ∧
        (openLoans db borrower_id : ℤ) < max 1 (score / 200)
  | _ => True

/-- The loan that a request has made is within the limits; the journal says which offer it is matched
to. -/
def Respects (db db' : DB schema) : LoanCall → Prop
  | .requestLoan loan_id borrower_id _ _ _ _ => ∃ loan offer_id offer,
      db'.rows (Key.loan loan_id) = some loan ∧ loan.borrower_id = borrower_id ∧
        db'.log.getLast? = some (.matched loan_id offer_id loan.principal) ∧
        db.rows (Key.offer offer_id) = some offer ∧
        loan.WithinLimits db' (scoreIn floats x db borrower_id) offer
  | _ => True

end LoanCall

namespace CreditService

variable {col : Columns} {floats : Floats} {x x' : ℕ → Input schema} {v v' : Solo schema}
  {borrower_id loan_id : Id} {amount : ℚ} {currency : Token} {duration_secs : ℤ}
  {collateral_amount : ℚ}

/-- **A request that is accepted** finds an offer and adds its loan, whatever the limits. -/
theorem requestMatched_returns {matched : Id × AgentLoan} (hv : v.WF)
    (h : (requestMatched col floats loan_id borrower_id amount currency duration_secs
      collateral_amount).Returns x v matched x' v') :
    ∃ offer, LoanCall.offerIn floats x v.db borrower_id amount currency duration_secs
        collateral_amount = some (matched.1, offer) ∧
      matched.2.borrower_id = borrower_id ∧ matched.2.principal = col 8 amount ∧
      matched.2.collateral_amount = col 8 collateral_amount ∧
      v'.db.rows (Key.loan loan_id) = some matched.2 ∧
      openLoans v'.db borrower_id = openLoans v.db borrower_id + 1 := by
  obtain ⟨score, x₁, v₁, h₁, h⟩ := returns_bind h
  obtain ⟨hscore, hx₁⟩ := calculateCreditScore_returns floats h₁
  obtain ⟨⟨hsame₁, -⟩, hwf₁⟩ := h₁.always hv
    (always_off (calculateCreditScore_only allowsScores_sparesLending borrower_id) v)
  obtain ⟨offers, x₂, v₂, h₂, h⟩ := returns_bind h
  obtain ⟨hoffers, hv₂⟩ := listActiveOfferRows_returns h₂ borrower_id score collateral_amount
  obtain ⟨best, x₃, v₃, h₃, h⟩ := returns_bind h
  obtain ⟨hbest, -, hv₃⟩ := returns_orRaise h₃
  replace hv₃ : v₃ = v₁ := hv₃.trans hv₂
  obtain ⟨_, x₄, v₄, h₄, h⟩ := returns_bind h
  obtain ⟨⟨hsame₄, -⟩, hwf₄⟩ := h₄.always (hv₃ ▸ hwf₁)
    (always_off (only_onlyIf (deductCollateral_only allowsScores_sparesLending ..)) v₃)
  obtain ⟨loan, x₅, v₅, h₅, h⟩ := returns_bind h
  obtain ⟨hborrower, hprincipal, hcollateral, hstate, hnew, hput⟩ := create_returns h₅
  obtain ⟨rfl, -, rfl⟩ := returns_ret h
  have hsame : v.db.Same Key.IsLending Entry.collateralOf v₄.db :=
    hsame₁.trans (hv₃ ▸ hsame₄)
  refine ⟨best.2, ?_, hborrower, hprincipal, hcollateral, ?_, ?_⟩
  · -- the query of the offers finds the tables as they were
    have hopen : v₁.db.matching (LoanRepository.isOpen (x₁ 0).time currency amount duration_secs)
        = v.db.matching (LoanRepository.isOpen (x₁ 0).time currency amount duration_secs) := by
      refine hsame₁.matching _ fun k r hk => ?_
      cases k with
      | offer id => exact absurd trivial hk
      | _ => rfl
    have hclock : ∀ n, x₁ n = x (n + offersClock v.db borrower_id) := fun n => by rw [hx₁]
    rw [hoffers, hopen, bestOffer_same hsame₁, hscore, hclock, hclock, Nat.zero_add,
      Nat.add_comm 1] at hbest
    exact hbest
  · rw [hput, DB.put_rows_self]
  · rw [hput, ← hborrower, openLoans_put_new hwf₄.db hnew hstate, openLoans_same hsame]

end CreditService

/-! ## Runs -/

namespace LoanCall

variable {col : Columns} {floats : Floats}

/-- A request is accepted. -/
def Accepted (col : Columns) (floats : Floats) (x : ℕ → Input schema) (st : Store schema)
    (call : LoanCall) : Prop :=
  match call with
  | .requestLoan .. => ((call.runMatched col floats).serve x st).1 = .ok ()
  | _ => True

/-- One call: its loan keeps to the limits iff its request does. -/
theorem respects_iff {x : ℕ → Input schema} {st : Store schema} (hst : st.db.WF) {call : LoanCall}
    (h : call.Accepted col floats x st) :
    call.Respects floats x st.db ((call.runMatched col floats).serve x st).2.db
      ↔ call.Within col floats x st.db := by
  cases call with
  | requestLoan loan_id borrower_id amount currency duration_secs collateral_amount =>
      obtain ⟨x₁, v₁, hbody, hsaved⟩ := eval_withSession_ok (Prod.ext h rfl)
      obtain ⟨matched, x₂, v₂, hmatched, hinsert⟩ := returns_bind hbody
      obtain ⟨-, -, hv₁⟩ := returns_stmt hinsert
      obtain ⟨offer, hoffer, hborrower, hprincipal, hcollateral, hrow, hcount⟩ :=
        CreditService.requestMatched_returns (Solo.ofStore_wf hst) hmatched
      have hdb : (((requestLoan loan_id borrower_id amount currency duration_secs
          collateral_amount).runMatched col floats).serve x st).2.db
          = v₂.db.append (.matched loan_id matched.1 (col 8 amount)) :=
        hsaved.trans (congrArg Solo.db hv₁)
      have hopen : openLoans (v₂.db.append (.matched loan_id matched.1 (col 8 amount))) borrower_id
          = openLoans st.db borrower_id + 1 := hcount
      have hfound : st.db.rows (Key.offer matched.1) = some offer :=
        CreditService.row_of_bestOffer hoffer
      rw [hdb]
      constructor
      · rintro ⟨loan, offer_id, offer', hloan, -, hlast, hoffer', hwithin⟩
        -- the loan and the offer are those of the request
        obtain rfl : matched.2 = loan := Option.some.inj (hrow.symm.trans hloan)
        rw [DB.append_log, List.getLast?_concat, Option.some.injEq, Entry.matched.injEq] at hlast
        obtain ⟨-, rfl, -⟩ := hlast
        obtain rfl : offer = offer' := Option.some.inj (hfound.symm.trans hoffer')
        refine ⟨?_, fun o ho hrequired => ?_, ?_⟩
        · rw [← hprincipal, ← hcollateral]
          exact hwithin.amount
        · obtain rfl := Option.some.inj (hoffer.symm.trans ho)
          rw [← hprincipal, ← hcollateral]
          exact hwithin.collateral hrequired
        · have hconcurrent := hwithin.concurrent
          rw [hborrower, hopen] at hconcurrent
          push_cast at hconcurrent
          omega
      · rintro ⟨hamount, hrequired, hconcurrent⟩
        refine ⟨matched.2, matched.1, offer, hrow, hborrower, ?_, hfound, ?_, fun h => ?_, ?_⟩
        · rw [DB.append_log, List.getLast?_concat, hprincipal]
        · rw [hprincipal, hcollateral]
          exact hamount
        · rw [hprincipal, hcollateral]
          exact hrequired _ hoffer h
        · rw [hborrower, hopen]
          push_cast
          omega
  | _ => exact Iff.rfl

end LoanCall

/-- **Loans keep to the limits iff their requests do.** Take any tables, and any calls of the service
one after another in which the requests are accepted. Each loan is within the borrower's limits, and
has the collateral its offer asks for, iff each request asks for no more. -/
theorem limits_respected_iff (col : Columns) (floats : Floats)
    (calls : List (LoanCall × (ℕ → Input schema))) {st : Store schema} (hst : st.db.WF)
    (h : Each (LoanCall.runMatched col floats) (fun call x st _ => call.Accepted col floats x st)
      calls st) :
    Each (LoanCall.runMatched col floats)
        (fun call x st st' => call.Respects floats x st.db st'.db) calls st ↔
      Each (LoanCall.runMatched col floats)
        (fun call x st _ => call.Within col floats x st.db) calls st := by
  induction calls generalizing st with
  | nil => exact Iff.rfl
  | cons a calls ih =>
      obtain ⟨haccepted, hrest⟩ := h
      exact and_congr (LoanCall.respects_iff hst haccepted)
        (ih (Prog.serve_wf _ _ hst) hrest)

/-- The offer of agent 1, and agent 2 with a score of 201. -/
def trustedBorrower : Store schema where
  db :=
    { rows := fun
        | .agent 2 => some {}
        | .reputation 2 => some { trust_score := 67 }
        | .offer id => if id = 1 then some tenOffered else none
        | _ => none
      keys := [.agent 2, .reputation 2, .offer 1]
      log := [] }
  ext := default

theorem trustedBorrower_wf : trustedBorrower.db.WF := by
  refine ⟨by decide, fun k => ?_⟩
  cases k with
  | agent id => rcases id with _ | _ | _ | id <;> simp [trustedBorrower]
  | reputation id => rcases id with _ | _ | _ | id <;> simp [trustedBorrower]
  | offer id => by_cases h : id = 1 <;> simp [trustedBorrower, h]
  | _ => simp [trustedBorrower]

/-- Agent 2 asks for one unit, of at most 1.005. -/
theorem limits_respected_once : Each (LoanCall.runMatched .rounding zeroFloats)
    (fun call x st st' => call.Respects zeroFloats x st.db st'.db)
    [(.requestLoan 1 2 1 .XMR 3600 0, fun _ => {})] trustedBorrower := by
  have haccepted : LoanCall.Accepted .rounding zeroFloats (fun _ => {}) trustedBorrower
      (.requestLoan 1 2 1 .XMR 3600 0) :=
    show (Prog.serve _ _ _).1 = .ok () by decide +kernel
  have hoffer : LoanCall.offerIn zeroFloats (fun _ => {}) trustedBorrower.db 2 1 .XMR 3600 0
      = some (1, tenOffered) := by decide +kernel
  refine (limits_respected_iff .rounding zeroFloats [(.requestLoan 1 2 1 .XMR 3600 0, fun _ => {})]
    trustedBorrower_wf ⟨haccepted, trivial⟩).mpr
    ⟨⟨by decide +kernel, fun o ho h => ?_, by decide +kernel⟩, trivial⟩
  obtain rfl := Option.some.inj (hoffer.symm.trans ho)
  exact absurd h (by decide)

/-- A new agent, whose limit is zero, borrows four units. -/
theorem limits_exceeded : ¬∀ (floats : Floats) (calls : List (LoanCall × (ℕ → Input schema)))
    (st : Store schema), st.db.WF →
    Each (LoanCall.runMatched .rounding floats)
      (fun call x st _ => call.Accepted .rounding floats x st) calls st →
    Each (LoanCall.runMatched .rounding floats)
      (fun call x st st' => call.Respects floats x st.db st'.db) calls st := by
  intro h
  have haccepted : LoanCall.Accepted .rounding zeroFloats (fun _ => {}) oneOffer
      (.requestLoan 1 2 4 .XMR 3600 0) :=
    show (Prog.serve _ _ _).1 = .ok () by decide +kernel
  have hrespects := h zeroFloats [(.requestLoan 1 2 4 .XMR 3600 0, fun _ => {})] oneOffer oneOffer_wf
    ⟨haccepted, trivial⟩
  have hamount := ((LoanCall.respects_iff oneOffer_wf haccepted).mp hrespects.1).1
  revert hamount
  decide +kernel

end Sthrip
