import Sthrip.Credit.Loan
import Sthrip.Txn.Quota

set_option autoImplicit false

/-! # What an offer lends

Requests are matched to the cheapest offer that fits by what the offer says remains of it. Nothing
ever takes anything off this remainder, so that it stays at all that is offered. An offer is not
over-committed in the runs in which each request fits in what the open loans of its offer leave.
-/

namespace Sthrip

open Txn Prog

/-! ## Calls -/

namespace LoanCall

/-- The body of a call. A request notes in the journal which offer it is matched to. -/
def matchedBody (col : Columns) (floats : Floats) : LoanCall → Program Unit
  | .requestLoan loan_id borrower_id amount currency duration_secs collateral_amount => do
      let matched ← CreditService.requestMatched col floats loan_id borrower_id amount currency
        duration_secs collateral_amount
      insert (S := schema) (Entry.matched loan_id matched.1 (col 8 amount))
  | .fundLoan lender_id loan_id => (LoanCall.fundLoan lender_id loan_id).body col floats
  | .repayLoan borrower_id loan_id => (LoanCall.repayLoan borrower_id loan_id).body col floats
  | .detectDefaults => LoanCall.detectDefaults.body col floats

def runMatched (col : Columns) (floats : Floats) (call : LoanCall) : Program Unit :=
  withSession (call.matchedBody col floats)

/-- The API takes positive amounts only. -/
def Asks : LoanCall → Prop
  | .requestLoan _ _ amount _ _ _ => 0 < amount
  | _ => True

end LoanCall

/-! ## The loans of an offer -/

/-- The loan is requested or active. -/
def AgentLoan.isOpen (row : AgentLoan) : Bool := row.state = .REQUESTED ∨ row.state = .ACTIVE

/-- The loan that the entry matches to the offer, with its principal. -/
def Entry.matchedTo (offer_id : Id) : Entry → Option (Id × ℚ)
  | .matched loan_id offer_id' principal =>
      if offer_id' = offer_id then some (loan_id, principal) else none
  | _ => none

/-- The principals of the open loans that are matched to the offer. -/
def lentBy (db : DB schema) (offer_id : Id) : ℚ :=
  ((db.log.filterMap (Entry.matchedTo offer_id)).map fun d =>
    if (db.rows (Key.loan d.1)).any AgentLoan.isOpen then d.2 else 0).sum

/-- The loans of an offer draw on it, until they are repaid or defaulted. -/
def offerQuota (offer_id : Id) : Quota schema ℚ where
  draw e := (e.matchedTo offer_id).map fun d => (Key.loan d.1, d.2)
  closed
    | .loan _, row => !row.isOpen
    | _, _ => false

theorem draws_offerQuota (o : Id) (log : List Entry) : (offerQuota o).draws log
    = (log.filterMap (Entry.matchedTo o)).map fun d => (Key.loan d.1, d.2) :=
  List.map_filterMap.symm

theorem lentBy_le_outstanding {o : Id} {db : DB schema} (h : (offerQuota o).Positive db.log) :
    lentBy db o ≤ (offerQuota o).outstanding db.rows db.log := by
  unfold Quota.outstanding lentBy
  unfold Quota.Positive at h
  rw [draws_offerQuota] at h ⊢
  rw [List.map_map]
  apply List.sum_le_sum
  intro d hd
  have hpos : 0 ≤ d.2 := h _ (List.mem_map_of_mem hd)
  show _ ≤ (offerQuota o).taken db.rows (Key.loan d.1, d.2)
  unfold Quota.taken
  cases hrow : db.rows (Key.loan d.1) with
  | none =>
      rw [Option.any_none, Option.any_none]
      exact hpos
  | some row =>
      rw [Option.any_some, Option.any_some]
      show (if row.isOpen = true then d.2 else 0) ≤ if (!row.isOpen) = true then 0 else d.2
      cases row.isOpen with
      | true => exact le_rfl
      | false => exact le_rfl

/-! ## The statements of the calls -/

/-- The statement does not open a loan that is closed, leaves offers alone, and notes no negative
principal. -/
def KeepsClosed : Stmt schema → Prop
  | .update (Key.loan _) guard set =>
      ∀ row, guard row = true → row.isOpen = false → (set row).isOpen = false
  | .assign (Key.loan _) set => ∀ row, row.isOpen = false → (set row).isOpen = false
  | .update (Key.offer _) _ _ => False
  | .assign (Key.offer _) _ => False
  | .insert (.matched _ _ principal) => 0 ≤ principal
  | _ => True

theorem KeepsClosed.orderly {s : Stmt schema} (h : KeepsClosed s) (o : Id) :
    (offerQuota o).Orderly s := by
  cases s with
  | update k guard set =>
      intro r hg hc
      cases k with
      | loan id =>
          have hclosed : r.isOpen = false := by simpa [offerQuota] using hc
          simpa [offerQuota] using h r hg hclosed
      | _ => exact hc
  | assign k set =>
      intro r hc
      cases k with
      | loan id =>
          have hclosed : r.isOpen = false := by simpa [offerQuota] using hc
          simpa [offerQuota] using h r hclosed
      | _ => exact hc
  | insert e =>
      intro d hd
      cases e with
      | matched loan_id offer_id principal =>
          obtain ⟨d', hd', rfl⟩ := Option.map_eq_some_iff.mp hd
          simp only [Entry.matchedTo] at hd'
          split at hd'
          · obtain rfl := Option.some.inj hd'
            exact h
          · cases hd'
      | _ => cases hd
  | _ => trivial

/-- The row is the offer, over the amount. -/
def OfferOf (offer_id : Id) (max_amount : ℚ) : (k : Key) → Row k → Prop
  | .offer id, row => id = offer_id ∧ row.max_amount = max_amount
  | _, _ => False

theorem KeepsClosed.maintains {s : Stmt schema} (h : KeepsClosed s) (o : Id) (x : ℚ)
    (st : Store schema) (σ : Session schema) : s.Maintains (OfferOf o x) st σ := by
  cases s with
  | update k guard set =>
      intro r _ _ hP
      cases k with
      | offer id => exact h.elim
      | _ => exact hP
  | assign k set =>
      intro r _ hP
      cases k with
      | offer id => exact h.elim
      | _ => exact hP
  | _ => trivial

section Texts

variable {col : Columns} {floats : Floats}

theorem allows_keepsClosed (agent_id : Id) (token : Token) :
    BalanceRepository.Allows KeepsClosed agent_id token := ⟨trivial, trivial, fun _ => trivial⟩

/-- A transition leaves an open state. -/
theorem keepsClosed_transition {state : LoanStatus} (h : state = .REQUESTED ∨ state = .ACTIVE)
    (q : Id) (set : AgentLoan → AgentLoan) :
    KeepsClosed (.update (Key.loan q) (fun row : AgentLoan => row.state = state) set) := by
  intro row hg hclosed
  have hstate : row.state = state := of_decide_eq_true hg
  have hopen : row.isOpen = true := decide_eq_true (hstate ▸ h)
  rw [hopen] at hclosed
  cases hclosed

theorem isOpen_congr {row row' : AgentLoan} (h : row'.state = row.state) :
    row'.isOpen = row.isOpen := by
  unfold AgentLoan.isOpen
  rw [h]

theorem creditAllows_keepsClosed (q : Id) : CreditService.Allows KeepsClosed q where
  scores :=
    { now := trivial
      select := fun _ => trivial
      scan := fun _ => trivial
      createScore := fun _ _ => trivial
      assignScore := fun _ _ => trivial
      updateScore := fun _ _ _ => trivial
      balance := allows_keepsClosed
      collateral := fun _ _ => trivial }
  lock := trivial
  create _ := trivial
  transition _ set h := keepsClosed_transition h q set
  assign _ h row hclosed := (isOpen_congr (h row)).trans hclosed
  posting _ _ _ := trivial

theorem LoanCall.runMatched_closed (call : LoanCall) (h : call.Asks) :
    (call.runMatched .rounding floats).only KeepsClosed := by
  apply only_withSession trivial trivial
  have hallows := creditAllows_keepsClosed
  cases call with
  | requestLoan q borrower_id amount currency duration_secs collateral_amount =>
      refine only_bind (CreditService.requestMatched_only (hallows q) ..) fun _ => only_stmt ?_
      -- the principal that is noted is not negative
      have hamount : 0 < amount := h
      exact numeric_nonneg 8 hamount.le
  | fundLoan lender_id q =>
      exact only_bind (CreditService.fundLoan_only (hallows q) lender_id) fun _ => trivial
  | repayLoan borrower_id q =>
      exact only_bind (CreditService.repayLoan_only (hallows q) borrower_id) fun _ => trivial
  | detectDefaults =>
      refine only_bind (only_bind ?_ fun overdue => ?_) fun _ => trivial
      · exact CreditService.getOverdueActiveLoans_only (hallows 0).scores
      · exact only_tally overdue fun loan => CreditService.defaultOne_only (hallows loan.1) loan.2

end Texts

/-! ## All interleavings -/

/-- **An offer is not over-committed.** Take an offer that no loan is matched to yet. In every run in
which each session that matches a loan to it finds, at its commit, that the principal fits in what the
offer's loans leave, the principals of its requested and active loans are never more than its amount.
-/
theorem offer_within_amount (o : Id) (floats : Floats) {st : Store schema} {offer : LendingOffer}
    (hwf : st.db.WF) (hoffer : st.db.rows (Key.offer o) = some offer) (hmax : 0 < offer.max_amount)
    (hnew : st.db.log.filterMap (Entry.matchedTo o) = []) (calls : ℕ → LoanCall)
    (hcalls : ∀ i, (calls i).Asks) {c : Config schema Unit}
    (hc : Config.Reaches (fun st σ s _ => (offerQuota o).Fits offer.max_amount st σ s)
      (.start st fun i => (calls i).runMatched .rounding floats) c) :
    ∃ offer' : LendingOffer, c.store.db.rows (Key.offer o) = some offer' ∧
      offer'.max_amount = offer.max_amount ∧ lentBy c.store.db o ≤ offer'.max_amount := by
  have htexts : ∀ i, ((calls i).runMatched .rounding floats).only KeepsClosed :=
    fun i => (calls i).runMatched_closed (hcalls i)
  have hdraws : (offerQuota o).draws st.db.log = [] := by rw [draws_offerQuota, hnew, List.map_nil]
  have hstart : (Config.start st fun i => (calls i).runMatched .rounding floats).Within
      (offerQuota o) offer.max_amount := by
    refine Config.start_within hwf (fun d hd => ?_) ?_
    · rw [hdraws] at hd
      cases hd
    · rw [Quota.outstanding, hdraws]
      exact hmax.le
  -- the run lemma
  have hwithin := hc.within hstart
    (fun i => only_mono (htexts i) fun s hs => hs.orderly o) fun _ _ _ _ h => h
  -- the offer itself stays, with its amount
  obtain ⟨hreach, -⟩ := hc.only htexts
  obtain ⟨offer', hrow, -, hamount⟩ := Config.lasts hreach (Config.start_maintained hwf _)
    (fun _ _ _ _ h => h.2.maintains o offer.max_amount _ _) hoffer ⟨rfl, rfl⟩
  refine ⟨offer', hrow, hamount, ?_⟩
  rw [hamount]
  exact (lentBy_le_outstanding hwithin.log).trans hwithin.outstanding

/-! ### Two loans of one offer -/

/-- Agent 1 offers ten units. -/
def tenOffered : LendingOffer where
  lender_id := 1
  max_amount := 10
  interest_rate_bps := 500
  max_duration_secs := 3600
  remaining_amount := 10
  expires_at := hours 24

/-- The offer of agent 1, and agents 2 and 3. -/
def oneOffer : Store schema where
  db :=
    { rows := fun
        | .agent 2 => some {}
        | .agent 3 => some {}
        | .offer id => if id = 1 then some tenOffered else none
        | _ => none
      keys := [.agent 2, .agent 3, .offer 1]
      log := [] }
  ext := default

theorem oneOffer_wf : oneOffer.db.WF := by
  refine ⟨by decide, fun k => ?_⟩
  cases k with
  | agent id => rcases id with _ | _ | _ | _ | id <;> simp [oneOffer]
  | offer id => by_cases h : id = 1 <;> simp [oneOffer, h]
  | _ => simp [oneOffer]

/-- Agents 2 and 3 each request an amount. -/
def bothRequest (amount : ℚ) : ℕ → LoanCall
  | 0 => .requestLoan 1 2 amount .XMR 3600 0
  | _ => .requestLoan 2 3 amount .XMR 3600 0

def requestedInTurn : List (ℕ × Input schema) := turn 0 16 0 ++ turn 1 16 0

/-- The test that the requests come to this total. -/
def lendsWith (amount total : ℚ) : Bool :=
  (Config.trace requestedInTurn (.start oneOffer fun i =>
    (bothRequest amount i).runMatched .rounding zeroFloats)).any fun c => lentBy c.store.db 1 = total

theorem exists_of_lendsWith {amount total : ℚ} (h : lendsWith amount total = true) :
    ∃ c, Config.trace requestedInTurn (.start oneOffer fun i =>
      (bothRequest amount i).runMatched .rounding zeroFloats) = some c ∧
      lentBy c.store.db 1 = total := by
  simpa only [lendsWith, Option.any_eq_true, decide_eq_true_eq] using h

/-- The test of `Quota.Fits`. -/
def fitsOffer (st : Store schema) (σ : Session schema) : Stmt schema → Input schema → Bool
  | .commit, _ => (offerQuota 1).outstanding st.db.rows st.db.log + (offerQuota 1).drawn σ.inserted ≤ 10
  | _, _ => true

theorem fits_of_test (st : Store schema) (σ : Session schema) (s : Stmt schema) (x : Input schema)
    (h : fitsOffer st σ s x = true) : (offerQuota 1).Fits tenOffered.max_amount st σ s := by
  cases s with
  | commit => exact fun _ => of_decide_eq_true h
  | _ => trivial

theorem bothRequest_asks {amount : ℚ} (h : 0 < amount) (i : ℕ) : (bothRequest amount i).Asks := by
  cases i with
  | zero => exact h
  | succ i => exact h

/-- Two loans of four units fit. -/
theorem offer_within_amount_fits : ∃ c : Config schema Unit, lentBy c.store.db 1 = 8 ∧
    ∃ offer : LendingOffer, c.store.db.rows (Key.offer 1) = some offer ∧
      lentBy c.store.db 1 ≤ offer.max_amount := by
  obtain ⟨c, hc, htotal⟩ := exists_of_lendsWith (by decide +kernel : lendsWith 4 8 = true)
  have hreach := Config.reaches_of_trace fitsOffer fits_of_test requestedInTurn .refl
    (by decide +kernel) hc
  obtain ⟨offer, hrow, -, hle⟩ := offer_within_amount 1 zeroFloats oneOffer_wf
    (show oneOffer.db.rows (Key.offer 1) = some tenOffered from rfl) (by decide +kernel) rfl
    (bothRequest 4) (bothRequest_asks (by norm_num)) hreach
  exact ⟨c, htotal, offer, hrow, hle⟩

/-- Two loans of ten units are matched to the offer as well. -/
theorem offer_lent_twice : ¬∀ (o : Id) (floats : Floats) (st : Store schema) (offer : LendingOffer)
    (calls : ℕ → LoanCall) (c : Config schema Unit), st.db.WF →
    st.db.rows (Key.offer o) = some offer → 0 < offer.max_amount →
    st.db.log.filterMap (Entry.matchedTo o) = [] → (∀ i, (calls i).Asks) →
    Config.Reaches (fun _ _ _ _ => True)
      (.start st fun i => (calls i).runMatched .rounding floats) c →
    lentBy c.store.db o ≤ offer.max_amount := by
  intro h
  obtain ⟨c, hc, htotal⟩ := exists_of_lendsWith (by decide +kernel : lendsWith 10 20 = true)
  have hreach := Config.reaches_of_trace (fun _ _ _ _ => true) (fun _ _ _ _ _ => trivial)
    requestedInTurn .refl (by decide +kernel) hc
  have hle := h 1 zeroFloats oneOffer tenOffered (bothRequest 10) c oneOffer_wf rfl
    (by decide +kernel) rfl (bothRequest_asks (by norm_num)) hreach
  rw [htotal] at hle
  have hmax : tenOffered.max_amount = 10 := rfl
  rw [hmax] at hle
  norm_num at hle

end Sthrip
