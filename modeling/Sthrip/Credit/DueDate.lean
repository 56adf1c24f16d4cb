import Sthrip.Credit.Loan

set_option autoImplicit false

/-! # When a loan is defaulted

A loan is due at a time that is fixed when it is requested: the time of the request and its duration.
The sweep defaults it from that time on. The duration should count from the funding, and a grace period
should follow, but the sweep's query knows of neither. The loans that are defaulted are late in the runs
in which no sweep comes between the two times (`loan_defaulted_late`).
-/

namespace Sthrip

open Txn Prog

/-! ## Loans in order -/

/-- The end of the grace period, when the duration counts from the funding. -/
def AgentLoan.graceEnd (row : AgentLoan) (funded_at : Time) : Time :=
  funded_at + (row.duration_secs + row.grace_period_secs) * 1000000

/-- An active loan has been funded, one that is defaulted was so after its grace period, and a collateral
that went to another agent than the borrower is that of a defaulted loan. -/
structure LoansInOrder (db : DB schema) : Prop where
  funded : ∀ id row, db.rows (Key.loan id) = some row → row.state = .ACTIVE →
    ∃ t, row.funded_at = some t
  late : ∀ id row, db.rows (Key.loan id) = some row → row.state = .DEFAULTED →
    ∃ t t', row.funded_at = some t ∧ row.defaulted_at = some t' ∧ row.graceEnd t < t'
  seized : ∀ a ∈ db.log.filterMap Entry.collateralOf, ∃ row, db.rows (Key.loan a.1) = some row ∧
    (a.2.agent_id = row.borrower_id ∨ row.state = .DEFAULTED)

namespace LoansInOrder

variable {db db' : DB schema} {loan_id : Id} {row row' : AgentLoan}

theorem same (h : LoansInOrder db) (hsame : db.Same Key.IsLending Entry.collateralOf db') :
    LoansInOrder db' := by
  have hrows : ∀ id, db'.rows (Key.loan id) = db.rows (Key.loan id) :=
    fun id => hsame.rows (Key.loan id) trivial
  refine ⟨fun id row hrow => ?_, fun id row hrow => ?_, ?_⟩
  · exact h.funded id row (hrows id ▸ hrow)
  · exact h.late id row (hrows id ▸ hrow)
  · rw [hsame.entries]
    intro a ha
    rw [hrows]
    exact h.seized a ha

/-- A loan changes. -/
theorem put (h : LoansInOrder db) (hrow : db.rows (Key.loan loan_id) = some row)
    (hborrower : row'.borrower_id = row.borrower_id)
    (hdefaulted : row.state = .DEFAULTED → row'.state = .DEFAULTED)
    (hfunded : row'.state = .ACTIVE → ∃ t, row'.funded_at = some t)
    (hlate : row'.state = .DEFAULTED →
      ∃ t t', row'.funded_at = some t ∧ row'.defaulted_at = some t' ∧ row'.graceEnd t < t') :
    LoansInOrder (db.put (Key.loan loan_id) row') := by
  have hother : ∀ {id}, id ≠ loan_id →
      (db.put (Key.loan loan_id) row').rows (Key.loan id) = db.rows (Key.loan id) :=
    fun hne => DB.put_rows_ne _ _ (by simpa using hne)
  refine ⟨fun id r hr hs => ?_, fun id r hr hs => ?_, fun a ha => ?_⟩
  · by_cases hid : id = loan_id
    · subst hid
      rw [DB.put_rows_self, Option.some.injEq] at hr
      subst hr
      exact hfunded hs
    · exact h.funded id r (hother hid ▸ hr) hs
  · by_cases hid : id = loan_id
    · subst hid
      rw [DB.put_rows_self, Option.some.injEq] at hr
      subst hr
      exact hlate hs
    · exact h.late id r (hother hid ▸ hr) hs
  · obtain ⟨r, hr, hor⟩ := h.seized a ha
    by_cases hid : a.1 = loan_id
    · subst hid
      obtain rfl : r = row := Option.some.inj (hr.symm.trans hrow)
      refine ⟨row', DB.put_rows_self .., ?_⟩
      rw [hborrower]
      exact hor.imp_right hdefaulted
    · exact ⟨r, (hother hid).trans hr, hor⟩

/-- A new loan. -/
theorem put_new (h : LoansInOrder db) (hnew : db.rows (Key.loan loan_id) = none)
    (hstate : row.state = .REQUESTED) : LoansInOrder (db.put (Key.loan loan_id) row) := by
  have hold : ∀ {id r}, (db.put (Key.loan loan_id) row).rows (Key.loan id) = some r →
      r.state ≠ .REQUESTED → db.rows (Key.loan id) = some r := by
    intro id r hr hs
    by_cases hid : id = loan_id
    · subst hid
      rw [DB.put_rows_self, Option.some.injEq] at hr
      exact absurd (hr ▸ hstate) hs
    · rwa [DB.put_rows_ne _ _ (by simpa using hid)] at hr
  refine ⟨fun id r hr hs => ?_, fun id r hr hs => ?_, fun a ha => ?_⟩
  · exact h.funded id r (hold hr (by simp [hs])) hs
  · exact h.late id r (hold hr (by simp [hs])) hs
  · obtain ⟨r, hr, hor⟩ := h.seized a ha
    refine ⟨r, ?_, hor⟩
    rw [DB.put_rows_ne, hr]
    rintro he
    rw [Key.loan.inj he, hnew] at hr
    cases hr

theorem posted_loan (db : DB schema) (agent_id : Id) (token : Token) (b : AgentBalance) (amount : ℚ)
    (ref : Ref) (id : Id) : (BalanceRepository.posted db agent_id token b amount ref).rows
      (Key.loan id) = db.rows (Key.loan id) := by
  have hne : Key.loan id ≠ Key.balance agent_id token := by simp
  rw [BalanceRepository.posted, DB.append_rows, DB.put_rows_ne _ _ hne]

/-- The collateral of a loan is put on a balance. -/
theorem collateral (h : LoansInOrder db) (hrow : db.rows (Key.loan loan_id) = some row)
    {agent_id : Id} (hagent : agent_id = row.borrower_id ∨ row.state = .DEFAULTED) (b : AgentBalance)
    (amount : ℚ) (token : Token) :
    LoansInOrder (BalanceRepository.posted db agent_id token b amount
      (.loan loan_id .collateral)) := by
  have hrows := posted_loan db agent_id token b amount (.loan loan_id .collateral)
  refine ⟨fun id r hr => ?_, fun id r hr => ?_, fun a ha => ?_⟩
  · exact h.funded id r (hrows id ▸ hr)
  · exact h.late id r (hrows id ▸ hr)
  · rw [hrows]
    rw [BalanceRepository.posted, DB.append_log, DB.put_log, List.filterMap_append,
      List.mem_append] at ha
    rcases ha with ha | ha
    · exact h.seized a ha
    · obtain rfl := List.mem_singleton.mp ha
      exact ⟨row, hrow, hagent⟩

end LoansInOrder

/-! ## The methods keep the loans in order -/

/-- The tables are in order, for the session and once it has rolled back. -/
structure InOrder (v : Solo schema) : Prop where
  db : LoansInOrder v.db
  saved : LoansInOrder v.saved

namespace CreditService

variable {col : Columns} {floats : Floats} {Ok : StepCond schema} {v : Solo schema} {loan_id : Id}
  {row : AgentLoan}

/-- What has nothing to do with loans. -/
theorem spares_keeps {α : Type} {p : Program α} {Q : α → Solo schema → Prop}
    (hp : p.only SparesLending) (hv : InOrder v)
    (h : ∀ a v', InOrder v' → (∀ id, v'.db.rows (Key.loan id) = v.db.rows (Key.loan id)) → Q a v') :
    p.always Ok Q (fun _ v' => LoansInOrder v'.saved) v := by
  refine always_mono (always_off hp v) (fun a v' hv' => ?_) fun _ v' hv' => hv' ▸ hv.saved
  exact h a v' ⟨hv.db.same hv'.1, hv'.2 ▸ hv.saved⟩ fun id => hv'.1.rows (Key.loan id) trivial

theorem releaseCollateral_keeps {agent_id : Id} {loan : AgentLoan} {Q : Unit → Solo schema → Prop}
    (hv : InOrder v) (hrow : v.db.rows (Key.loan loan_id) = some row)
    (hagent : agent_id = row.borrower_id ∨ row.state = .DEFAULTED)
    (h : ∀ v', InOrder v' → (∀ id, v'.db.rows (Key.loan id) = v.db.rows (Key.loan id)) → Q () v') :
    (releaseCollateral col loan_id agent_id loan).always Ok Q (fun _ v' => LoansInOrder v'.saved)
      v := by
  refine always_onlyIf (fun _ => BalanceRepository.credit_always fun b _ => ?_)
    fun _ => h v hv fun _ => rfl
  exact h _ ⟨hv.db.collateral hrow hagent _ _ _, hv.saved⟩
    (LoansInOrder.posted_loan _ _ _ _ _ _)

theorem requestLoan_keeps {borrower_id : Id} {amount : ℚ} {currency : Token} {duration_secs : ℤ}
    {collateral_amount : ℚ} (hv : InOrder v) :
    (requestLoan col floats loan_id borrower_id amount currency duration_secs
      collateral_amount).always Ok (fun _ v' => InOrder v') (fun _ v' => LoansInOrder v'.saved) v := by
  have hs := allowsScores_sparesLending
  refine always_bind (spares_keeps (calculateCreditScore_only hs borrower_id) hv fun score v₁ h₁ _ => ?_)
  refine always_bind (spares_keeps (listActiveOffers_only hs ..) h₁ fun offers v₂ h₂ _ => ?_)
  refine always_bind (always_orRaise (fun _ => h₂.saved) fun best _ => ?_)
  refine always_bind (spares_keeps (only_onlyIf (deductCollateral_only hs ..)) h₂ fun _ v₃ h₃ _ => ?_)
  refine always_bind (always_now fun t => always_bind (always_create (fun _ hnew _ => ?_) fun r _ => ?_))
  · refine always_bind (always_raiseIf (fun hf => by cases hf) fun _ => ?_)
    exact ⟨h₃.db.put_new hnew rfl, h₃.saved⟩
  · exact always_bind (always_raiseIf (fun _ => h₃.saved) fun hf => absurd rfl hf)

theorem fundLoan_keeps {lender_id : Id} (hv : InOrder v) :
    (fundLoan col lender_id loan_id).always Ok (fun _ v' => InOrder v')
      (fun _ v' => LoansInOrder v'.saved) v := by
  have hs := allowsScores_sparesLending
  refine always_bind (always_selectForUpdate ?_)
  refine always_bind (always_orRaise (fun _ => hv.saved) fun loan _ => ?_)
  refine always_bind (always_raiseIf (fun _ => hv.saved) fun _ => ?_)
  refine always_bind (always_raiseIf (fun _ => hv.saved) fun _ => ?_)
  refine always_bind (spares_keeps (BalanceRepository.deduct_only (allowsBalance_sparesLending ..) rfl)
    hv fun _ v₁ h₁ _ => ?_)
  refine always_bind (spares_keeps (BalanceRepository.credit_only (allowsBalance_sparesLending ..) rfl)
    h₁ fun _ v₂ h₂ _ => ?_)
  refine always_bind (always_bind (always_now fun t => always_update (fun r _ hr hg _ => ?_)
    fun _ => ?_))
  · have hstate : r.state = .REQUESTED := of_decide_eq_true hg
    refine always_bind (always_raiseIf (fun _ => h₂.saved) fun _ => ?_)
    refine always_bind (spares_keeps (recordLoanTaken_only hs ..) ⟨h₂.db.put hr rfl
      (fun hd => by rw [hstate] at hd; cases hd) (fun _ => ⟨t, rfl⟩) (fun hd => by cases hd),
      h₂.saved⟩ fun _ v₄ h₄ _ => ?_)
    exact spares_keeps (refetchLoan_only hs loan_id) h₄ fun _ _ h _ => h
  · refine always_bind (always_raiseIf (fun _ => h₂.saved) fun hf => absurd rfl hf)

theorem repayLoan_keeps {borrower_id : Id} (hv : InOrder v) :
    (repayLoan col floats borrower_id loan_id).always Ok (fun _ v' => InOrder v')
      (fun _ v' => LoansInOrder v'.saved) v := by
  have hs := allowsScores_sparesLending
  refine always_bind (always_selectForUpdate ?_)
  refine always_bind (always_orRaise (fun _ => hv.saved) fun loan hloan => ?_)
  refine always_bind (always_raiseIf (fun _ => hv.saved) fun hstate => ?_)
  refine always_bind (always_raiseIf (fun _ => hv.saved) fun hborrower => ?_)
  rw [not_not] at hstate hborrower
  refine always_bind (spares_keeps (BalanceRepository.deduct_only (allowsBalance_sparesLending ..) rfl)
    hv fun _ v₁ h₁ hr₁ => ?_)
  refine always_bind (spares_keeps (BalanceRepository.credit_only (allowsBalance_sparesLending ..) rfl)
    h₁ fun _ v₂ h₂ hr₂ => ?_)
  have hrow₂ : v₂.db.rows (Key.loan loan_id) = some loan := by rw [hr₂, hr₁, hloan]
  refine always_bind (releaseCollateral_keeps h₂ hrow₂ (.inl hborrower.symm) fun v₃ h₃ hr₃ => ?_)
  have hrow₃ : v₃.db.rows (Key.loan loan_id) = some loan := (hr₃ loan_id).trans hrow₂
  refine always_bind (always_select (always_bind (always_orRaise (fun _ => h₃.saved) fun _ _ => ?_)))
  have h₄ : ∀ x : ℚ, LoansInOrder (v₃.db.put (Key.loan loan_id) { loan with platform_fee := x }) :=
    fun x => h₃.db.put hrow₃ rfl id (h₃.db.funded loan_id loan hrow₃) (h₃.db.late loan_id loan hrow₃)
  refine always_bind (always_assign hrow₃ ?_)
  refine always_bind (always_bind (always_now fun t => always_update (fun r _ hr hg _ => ?_)
    fun _ => ?_))
  · have hactive : r.state = .ACTIVE := of_decide_eq_true hg
    refine always_bind (always_raiseIf (fun _ => h₃.saved) fun _ => ?_)
    refine always_bind (always_now fun now => ?_)
    have h₅ := h₄ (col 8 ((loan.repayment_amount - loan.principal) * platformFeeRate))
    refine always_bind (spares_keeps (recordLoanRepaid_only hs ..) ⟨h₅.put hr rfl
      (fun hd => by rw [hactive] at hd; cases hd) (fun ha => by cases ha) (fun hd => by cases hd),
      h₃.saved⟩ fun _ v₆ h₆ _ => ?_)
    refine always_bind (spares_keeps (calculateCreditScore_only hs _) h₆ fun _ v₇ h₇ _ => ?_)
    exact spares_keeps (refetchLoan_only hs loan_id) h₇ fun _ _ h _ => h
  · exact always_bind (always_raiseIf (fun _ => h₃.saved) fun hf => absurd rfl hf)

/-! ## The sweep -/

/-- If the loan is active, its grace period has ended before `t`. -/
def Past (t : Time) (db : DB schema) (loan_id : Id) : Prop :=
  ∀ row f, db.rows (Key.loan loan_id) = some row → row.state = .ACTIVE → row.funded_at = some f →
    row.graceEnd f < t

/-- The tables are in order, and the loans of the list are past their grace periods. -/
structure Sweeping (t : Time) (overdue : List (Id × AgentLoan)) (v : Solo schema) : Prop where
  order : InOrder v
  past : ∀ a ∈ overdue, Past t v.db a.1

/-- What leaves the loans alone does not disturb the sweep. -/
theorem Sweeping.same {t : Time} {overdue : List (Id × AgentLoan)} {v' : Solo schema}
    (h : Sweeping t overdue v) (horder : InOrder v')
    (hrows : ∀ id, v'.db.rows (Key.loan id) = v.db.rows (Key.loan id)) : Sweeping t overdue v' :=
  ⟨horder, fun a ha row f hrow => h.past a ha row f (hrows a.1 ▸ hrow)⟩

/-- A loan of the list is defaulted. -/
theorem Sweeping.put {t t' : Time} {overdue : List (Id × AgentLoan)} (h : Sweeping t overdue v)
    (hmem : ∃ loan, (loan_id, loan) ∈ overdue) (hrow : v.db.rows (Key.loan loan_id) = some row)
    (hactive : row.state = .ACTIVE) (ht : t ≤ t') :
    Sweeping t overdue { v with
      db := v.db.put (Key.loan loan_id) { row with state := .DEFAULTED, defaulted_at := some t' } } := by
  obtain ⟨loan, hmem⟩ := hmem
  obtain ⟨f, hf⟩ := h.order.db.funded loan_id row hrow hactive
  have hpast : row.graceEnd f < t' := lt_of_lt_of_le (h.past _ hmem row f hrow hactive hf) ht
  constructor
  · exact ⟨h.order.db.put hrow rfl (fun _ => rfl) (fun ha => by cases ha)
      fun _ => ⟨f, t', hf, rfl, hpast⟩, h.order.saved⟩
  · intro a ha r f hr hs hf
    by_cases hid : a.1 = loan_id
    · -- it is not active any more
      subst hid
      rw [DB.put_rows_self, Option.some.injEq] at hr
      subst hr
      cases hs
    · rw [DB.put_rows_ne _ _ (by simpa using hid)] at hr
      exact h.past a ha r f hr hs hf

theorem defaultOne_keeps {t : Time} {overdue : List (Id × AgentLoan)} {loan : AgentLoan}
    (hv : Sweeping t overdue v) (hmem : (loan_id, loan) ∈ overdue) :
    (defaultOne col loan_id loan).always (fun _ _ x => t ≤ x.time) (fun _ v' => Sweeping t overdue v')
      (fun _ v' => LoansInOrder v'.saved) v := by
  have hs := allowsScores_sparesLending
  refine always_bind (always_bind (always_stmt fun x _ ht => always_update (fun r _ hr hg _ => ?_)
    fun _ => ?_))
  · have h₁ := hv.put ⟨loan, hmem⟩ hr (of_decide_eq_true hg) ht
    show (ite _ _ _ : Program Bool).always _ _ _ _
    rw [if_neg (by simp)]
    refine always_bind (releaseCollateral_keeps h₁.order (DB.put_rows_self ..) (.inr rfl)
      fun v₂ h₂ hr₂ => ?_)
    have h₂ := h₁.same h₂ hr₂
    refine always_bind (always_now fun now => ?_)
    refine always_bind (spares_keeps (recordLoanDefaulted_only hs ..) h₂.order fun _ v₃ h₃ hr₃ => ?_)
    have h₃ := h₂.same h₃ hr₃
    refine always_bind (spares_keeps (refetchLoan_only hs loan_id) h₃.order fun _ v₄ h₄ hr₄ => ?_)
    exact h₃.same h₄ hr₄
  · exact hv

/-- The sweep defaults the loans its query finds, and no other. -/
theorem sweep_keeps (col : Columns) {t : Time} (hv : InOrder v)
    (htimely : ∀ id row f, v.db.rows (Key.loan id) = some row → row.state = .ACTIVE →
      row.funded_at = some f → ¬(row.expires_at ≤ t ∧ t ≤ row.graceEnd f)) :
    ((((query (LoanRepository.isOverdue t)).bind fun rows =>
        ret (rows.filterMap LoanRepository.asLoan)).bind
        fun overdue => tally overdue fun loan => defaultOne col loan.1 loan.2).bind fun _ => ret ()).always
      (fun _ _ x => t ≤ x.time) (fun _ v' => InOrder v') (fun _ v' => LoansInOrder v'.saved) v := by
  refine always_bind (always_bind (always_bind (always_query fun rows _ hrows => ?_)))
  have hsweeping : Sweeping t (rows.filterMap LoanRepository.asLoan) v := by
    refine ⟨hv, fun a ha row f hrow hactive hf => ?_⟩
    rw [mem_filterMap_rows (S := schema) LoanRepository.asLoan_eq_some] at ha
    obtain ⟨hlisted, hover⟩ := (hrows _ _).mp ha
    obtain rfl : a.2 = row := Option.some.inj (hlisted.symm.trans hrow)
    have hexpired : a.2.expires_at ≤ t := (of_decide_eq_true hover).2
    exact lt_of_not_ge fun hle => htimely a.1 a.2 f hrow hactive hf ⟨hexpired, hle⟩
  show (tally _ _).always _ _ _ v
  exact always_mono (always_tally (Sweeping t _) _ (fun a ha v' hv' => defaultOne_keeps hv' ha)
    hsweeping) (fun _ v' hv' => hv'.order) fun _ _ h => h

end CreditService

/-! ## Runs -/

namespace LoanCall

variable {x : ℕ → Input schema} {st : Store schema}

/-- A sweep's query does not run between the time a loan is due and the end of its grace period. -/
def Timely (x : ℕ → Input schema) (db : DB schema) : LoanCall → Prop
  | .detectDefaults => ∀ id row f, db.rows (Key.loan id) = some row → row.state = .ACTIVE →
      row.funded_at = some f → ¬(row.expires_at ≤ (x 0).time ∧ (x 0).time ≤ row.graceEnd f)
  | _ => True

/-- A session whose body keeps the loans in order. -/
theorem session_inOrder (Ok : StepCond schema) {p : Program Unit} (hst : st.db.WF)
    (h : p.always Ok (fun _ v => InOrder v) (fun _ v => LoansInOrder v.saved) (Solo.ofStore st))
    (hx : ∀ v s n, Ok v s (x n)) : LoansInOrder ((withSession p).serve x st).2.db := by
  have hsession : p.withSession.always Ok (fun _ v => LoansInOrder v.saved)
      (fun _ v => LoansInOrder v.saved) (Solo.ofStore st) :=
    always_withSession (always_mono h (fun _ _ hv => ⟨hv.db, fun _ _ _ => hv.saved⟩) fun _ _ hv => hv)
  obtain ⟨v, hv, -, hends⟩ := always_serve hsession hst (meets_of_inputs hx _ _)
  rw [hv]
  revert hends
  cases (p.withSession.serve x st).1 with
  | ok a => exact id
  | error e => exact id

/-- One call keeps the loans in order. -/
theorem serve_inOrder (col : Columns) (floats : Floats) {call : LoanCall} (hst : st.db.WF)
    (horder : LoansInOrder st.db) (hclock : ∀ m n, m ≤ n → (x m).time ≤ (x n).time)
    (htimely : call.Timely x st.db) :
    LoansInOrder ((call.run col floats).serve x st).2.db := by
  have hv : InOrder (Solo.ofStore st) := ⟨horder, horder⟩
  cases call with
  | requestLoan =>
      exact session_inOrder (fun _ _ _ => True) hst
        (always_bind (always_mono (CreditService.requestLoan_keeps hv) (fun _ _ h => h) fun _ _ h => h))
        fun _ _ _ => trivial
  | fundLoan =>
      exact session_inOrder (fun _ _ _ => True) hst
        (always_bind (always_mono (CreditService.fundLoan_keeps hv) (fun _ _ h => h) fun _ _ h => h))
        fun _ _ _ => trivial
  | repayLoan =>
      exact session_inOrder (fun _ _ _ => True) hst
        (always_bind (always_mono (CreditService.repayLoan_keeps hv) (fun _ _ h => h) fun _ _ h => h))
        fun _ _ _ => trivial
  | detectDefaults =>
      -- the rest of the sweep, when its clock has answered
      exact session_inOrder (x := fun n => x (n + 1)) (fun _ _ y => (x 0).time ≤ y.time) hst
        (CreditService.sweep_keeps col hv htimely) fun _ _ n => hclock 0 (n + 1) (Nat.zero_le _)

end LoanCall

/-- The loan is funded at `funded`, and a sweep runs at `swept`. -/
def fundThenSweep (funded swept : Time) : List (LoanCall × (ℕ → Input schema)) :=
  [(.fundLoan 1 1, fun _ => { time := funded }), (.detectDefaults, fun _ => { time := swept })]

theorem smallLoan_inOrder : LoansInOrder smallLoan.db := by
  have hstate : ∀ id row, smallLoan.db.rows (Key.loan id) = some row → row.state = .REQUESTED := by
    intro id row hrow
    by_cases hid : id = 1
    · subst hid
      obtain rfl := Option.some.inj hrow
      rfl
    · rw [show smallLoan.db.rows (Key.loan id) = none from if_neg hid] at hrow
      cases hrow
  refine ⟨fun id row hrow ha => ?_, fun id row hrow hd => ?_, fun a ha => ?_⟩
  · rw [hstate id row hrow] at ha
    cases ha
  · rw [hstate id row hrow] at hd
    cases hd
  · exact absurd ha List.not_mem_nil

theorem fundThenSweep_clock {funded swept : Time} :
    ∀ a ∈ fundThenSweep funded swept, ∀ m n, m ≤ n → (a.2 m).time ≤ (a.2 n).time := by
  intro a ha m n _
  rcases List.mem_cons.mp ha with rfl | ha
  · exact le_rfl
  · obtain rfl := List.mem_singleton.mp ha
    exact le_rfl

end Sthrip
