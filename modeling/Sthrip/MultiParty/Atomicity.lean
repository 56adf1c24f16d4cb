import Sthrip.MultiParty.Accounting
import Sthrip.Txn.Footprint

set_option autoImplicit false

/-! # All or nothing

Sessions that accept, reject and sweep payments, interleaved in every way READ COMMITTED allows.
A payment that waits for all its recipients should end in one of two ways: every recipient has
been credited its amount, or the sender has been refunded the total once.

A recipient's answer locks the payment before it looks at it. The sweep does not: it lists the
payments that are pending, refunds each, and only then updates the row, whose guard may fail by
now. `StillPending pay` is the condition that it does not fail: when a session that has not locked
the payment updates it, the payment is still pending. Under it every interleaving is all or
nothing.
-/

namespace Sthrip

open Txn Prog

/-! ## Outcomes -/

/-- The amounts of the recipients. -/
def Payment.amounts (E : Payment) (j : Id) : Option ℚ := (E.recipients j).map (·.amount)

namespace MultiPartyPayment

/-- What a payment was created with. -/
def terms (r : MultiPartyPayment) : Id × ℚ × Token × Bool :=
  (r.sender_id, r.total_amount, r.currency, r.require_all_accept)

/-- The credit of the share of a recipient. -/
def share (r : MultiPartyPayment) (a : Id × ℚ) : Credit := ⟨a.1, a.2, r.currency, some a.1⟩

end MultiPartyPayment

/-- The credits are those of the recipients, each of its own amount. -/
def PaidAll (r : MultiPartyPayment) (amounts : Id → Option ℚ) (cs : List Credit) : Prop :=
  ∃ m : List (Id × ℚ), (m.map Prod.fst).Nodup ∧ (∀ a, a ∈ m ↔ amounts a.1 = some a.2) ∧
    cs.Perm (m.map r.share)

/-- The state of a payment and its credits fit together. -/
def Whole (r : MultiPartyPayment) (amounts : Id → Option ℚ) (cs : List Credit) : Prop :=
  match r.state with
  | .PENDING => cs = []
  | .COMPLETED => PaidAll r amounts cs
  | .REJECTED => cs = [r.refund]
  | .EXPIRED => cs = [r.refund]
  | .ACCEPTED => False

/-! ## The condition -/

/-- When a session that has not locked the payment `pay` updates it, it is still pending. -/
def StillPending (pay : Id) : Store schema → Session schema → Stmt schema → Input schema → Prop
  | st, σ, .update (Key.multiParty q) _ _, _ => q = pay → σ.held (Key.multiParty q) = none →
      ∀ r : MultiPartyPayment, st.db.rows (Key.multiParty q) = some r → r.state = .PENDING
  | _, _, _, _ => True

/-- The invariant: the payment is there with the terms of `r₀` and the recipients it was created
with, and its state and its credits fit together. -/
structure Intact (r₀ : MultiPartyPayment) (amounts : Id → Option ℚ) (E : Payment) : Prop where
  row : ∃ r, E.row = some r ∧ r.terms = r₀.terms ∧ Whole r amounts E.credits
  amounts : E.amounts = amounts

def allOrNothing (pay : Id) (r₀ : MultiPartyPayment) (amounts : Id → Option ℚ) :
    Protocol schema Unit where
  Inv st _ := Intact r₀ amounts (payments st.db pay)
  Ok := StillPending pay

/-! ## What a session does to the payment -/

/-- The rows of a payment a session holds, and the credits it has made for it. -/
structure PaymentWork where
  row : Option (Held MultiPartyPayment)
  recipients : Id → Option (Held MultiPartyRecipient)
  credits : List Credit

def work (pay : Id) (σ : Session schema) : PaymentWork where
  row := σ.held (Key.multiParty pay)
  recipients j := σ.held (Key.recipient pay j)
  credits := σ.inserted.filterMap (Entry.creditFor pay)

namespace PaymentWork

def hold (W : PaymentWork) (h : Held MultiPartyPayment) : PaymentWork := { W with row := some h }
def holdRecipient (W : PaymentWork) (j : Id) (h : Held MultiPartyRecipient) : PaymentWork :=
  { W with recipients := Function.update W.recipients j (some h) }
def credit (W : PaymentWork) (cs : List Credit) : PaymentWork :=
  { W with credits := W.credits ++ cs }

end PaymentWork

/-! ### Calls about other payments -/

/-- The rows of the payment and of its recipients. -/
def RowOf (pay : Id) (k : Key) : Prop := k = Key.multiParty pay ∨ ∃ j, k = Key.recipient pay j

/-- The statement is not about the payment `pay`. -/
abbrev OffPayment (pay : Id) : Stmt schema → Prop := Stmt.off (RowOf pay) (Entry.creditFor pay)

theorem work_of_same {pay : Id} {σ σ' : Session schema}
    (h : σ.Same (RowOf pay) (Entry.creditFor pay) σ') : work pay σ' = work pay σ := by
  unfold work
  rw [h.held _ (.inl rfl), h.inserted]
  congr 1
  funext j
  exact h.held _ (.inr ⟨j, rfl⟩)

/-- A program that is not about the payment does nothing to it. -/
theorem safe_offPayment {P : Protocol schema Unit} {i : ℕ} {pay : Id} {α : Type} {p : Program α}
    {σ : Session schema} (h : p.only (OffPayment pay)) :
    p.safe P i (fun _ σ' _ => work pay σ' = work pay σ) (fun _ _ _ => True) σ () :=
  safe_mono (safe_off h) (fun _ _ _ h => work_of_same h.1) fun _ _ _ _ => trivial

/-- The row of another payment, or of one of its recipients. -/
theorem not_rowOf {pay q : Id} (hq : q ≠ pay) :
    ¬RowOf pay (Key.multiParty q) ∧ ∀ j, ¬RowOf pay (Key.recipient q j) := by
  constructor
  · rintro (h | ⟨j, h⟩)
    · exact hq (Key.multiParty.inj h)
    · cases h
  · rintro j (h | ⟨i, h⟩)
    · cases h
    · exact hq (Key.recipient.inj h).1

section Others

variable {pay q : Id} {col : Columns}

theorem allows_balance (agent_id : Id) (token : Token) :
    BalanceRepository.Allows (OffPayment pay) agent_id token :=
  have hoff : ¬RowOf pay (Key.balance agent_id token) := by simp [RowOf]
  ⟨hoff, hoff, fun _ => hoff⟩

theorem creditShare_only (hq : q ≠ pay) {agent_id : Id} {amount : ℚ} {token : Token}
    {share : Option Id} :
    (BalanceRepository.credit col agent_id amount token (.share q share)).only (OffPayment pay) :=
  BalanceRepository.credit_only (allows_balance ..) (if_neg hq)

theorem getRecipients_only : (MultiPartyRepository.getRecipients q).only (OffPayment pay) :=
  only_bind (only_query trivial fun _ => trivial) fun _ => trivial

theorem leavePending_only (hq : q ≠ pay) (state : MultiPartyPaymentState) :
    (MultiPartyRepository.leavePending state q).only (OffPayment pay) :=
  only_bind (only_stmt trivial) fun _ => only_stmt (not_rowOf hq).1

theorem answer_only (hq : q ≠ pay) {j : Id} {guard : MultiPartyRecipient → Bool}
    {set : MultiPartyRecipient → MultiPartyRecipient} :
    (update (S := schema) (Key.recipient q j) guard set).only (OffPayment pay) :=
  only_stmt ((not_rowOf hq).2 _)

theorem findPending_only (hq : q ≠ pay) (j : Id) :
    (MultiPartyService.findPending q j).only (OffPayment pay) := by
  refine only_bind (only_stmt (not_rowOf hq).1) fun payment => ?_
  refine only_bind only_orRaise fun payment => only_bind only_raiseIf fun _ => ?_
  exact only_bind getRecipients_only fun rows => only_bind only_orRaise fun row => trivial

theorem completeIfResponded_only (hq : q ≠ pay) :
    (MultiPartyService.completeIfResponded q).only (OffPayment pay) := by
  refine only_bind (only_stmt trivial) fun _ => only_bind getRecipients_only fun rows => ?_
  exact only_bind (only_onlyIf (leavePending_only hq _)) fun _ => trivial

theorem accept_only (hq : q ≠ pay) (j : Id) :
    (MultiPartyService.accept col j q).only (OffPayment pay) := by
  refine only_bind (findPending_only hq j) fun (payment, row) => ?_
  simp only
  split
  · trivial
  refine only_bind (only_bind (only_stmt trivial) fun _ => answer_only hq) fun rows => ?_
  split
  · trivial
  split
  · refine only_bind (only_stmt trivial) fun _ => only_bind getRecipients_only fun rows => ?_
    split
    · refine only_bind (only_forEach _ fun a => only_bind (creditShare_only hq) fun _ => trivial)
        fun _ => ?_
      exact only_bind (leavePending_only hq _) fun _ => trivial
    · trivial
  · refine only_bind (creditShare_only hq) fun _ => ?_
    exact only_bind (completeIfResponded_only hq) fun _ => trivial

theorem reject_only (hq : q ≠ pay) (j : Id) :
    (MultiPartyService.reject col j q).only (OffPayment pay) := by
  refine only_bind (findPending_only hq j) fun (payment, row) => ?_
  refine only_bind (only_bind (only_stmt trivial) fun _ => answer_only hq) fun rows => ?_
  refine only_bind only_raiseIf fun _ => ?_
  split
  · refine only_bind (creditShare_only hq) fun _ => ?_
    exact only_bind (leavePending_only hq _) fun _ => trivial
  · refine only_bind (creditShare_only hq) fun _ => ?_
    exact only_bind (completeIfResponded_only hq) fun _ => trivial

theorem expireOne_only (hq : q ≠ pay) (payment : MultiPartyPayment) :
    (MultiPartyService.expireOne col q payment).only (OffPayment pay) := by
  unfold MultiPartyService.expireOne
  split
  · refine only_bind (creditShare_only hq) fun _ => ?_
    exact only_bind (leavePending_only hq _) fun _ => trivial
  · refine only_bind getRecipients_only fun rows => ?_
    refine only_bind (only_forEach _ fun a => only_onlyIf (creditShare_only hq)) fun _ => ?_
    exact only_bind (leavePending_only hq _) fun _ => trivial

theorem resolve_only (recipients : List RecipientData) :
    (MultiPartyService.resolve recipients).only (OffPayment pay) := by
  induction recipients with
  | nil => trivial
  | cons a recipients ih =>
      refine only_bind (only_bind (only_query trivial fun _ => trivial) fun _ => trivial)
        fun agent => ?_
      refine only_bind only_orRaise fun (id, agent) => only_bind only_raiseIf fun _ => ?_
      exact only_bind ih fun _ => trivial

/-- The program up to the row of the payment. -/
theorem deductTotal_only {agent_id : Id} {amount : ℚ} {token : Token} :
    (BalanceRepository.deduct col agent_id amount token .other).only (OffPayment pay) :=
  BalanceRepository.deduct_only (allows_balance ..) rfl

theorem createMultiParty_only (hq : q ≠ pay) (sender_id : Id) (recipients : List RecipientData)
    (currency : Token) (require_all_accept : Bool) (accept_hours : ℤ) :
    (MultiPartyService.createMultiParty col q sender_id recipients currency require_all_accept
      accept_hours).only (OffPayment pay) := by
  refine only_bind only_raiseIf fun _ => only_bind only_raiseIf fun _ => ?_
  refine only_bind only_raiseIf fun _ => only_bind (resolve_only recipients) fun resolved => ?_
  refine only_bind only_raiseIf fun _ => only_bind deductTotal_only fun _ => ?_
  refine only_bind (only_stmt trivial) fun now => only_bind ?_ fun payment =>
    only_bind getRecipients_only fun rows => trivial
  refine only_bind (only_stmt (not_rowOf hq).1) fun inserted => ?_
  refine only_bind only_raiseIf fun _ => only_bind (only_forEach _ fun (j, amount) => ?_)
    fun _ => trivial
  exact only_bind (only_stmt ((not_rowOf hq).2 _)) fun _ => only_raiseIf

end Others

/-! ### What a session may commit -/

section Sessions

variable {pay : Id} {r₀ r r' : MultiPartyPayment} {amounts : Id → Option ℚ} {i : ℕ}
  {σ : Session schema} {W : PaymentWork} {R : Exn → Session schema → Unit → Prop}

/-- The rows the session holds have the terms and the amounts of the payment. -/
structure PaymentWork.Kept (r₀ : MultiPartyPayment) (amounts : Id → Option ℚ) (W : PaymentWork) :
    Prop where
  row : ∀ h, W.row = some h → ∃ r, h.own = some r ∧ r.terms = r₀.terms
  recipients : ∀ j h, W.recipients j = some h → ∃ row, h.own = some row ∧
    amounts j = some row.amount

/-- The session has made no credit, and the row is as it was. -/
def PaymentWork.Idle (W : PaymentWork) : Prop :=
  W.credits = [] ∧ ∀ h, W.row = some h → h.own = h.base

/-- The payment leaves `PENDING` in the session, with all its credits. -/
def PaymentWork.Left (amounts : Id → Option ℚ) (W : PaymentWork) : Prop :=
  ∃ r r', W.row = some ⟨some r, some r'⟩ ∧ r.state = .PENDING ∧ Whole r' amounts W.credits

/-- What a session may commit. -/
structure PaymentWork.Ready (r₀ : MultiPartyPayment) (amounts : Id → Option ℚ) (W : PaymentWork) :
    Prop where
  kept : W.Kept r₀ amounts
  outcome : W.Idle ∨ W.Left amounts

theorem ready_start : (work pay Session.start).Ready r₀ amounts :=
  ⟨⟨fun _ h => (by cases h), fun _ _ h => (by cases h)⟩, .inl ⟨rfl, fun _ h => (by cases h)⟩⟩

/-- A session that is ready commits to a database in which the payment is intact. -/
theorem PaymentWork.Ready.commits (h : (work pay σ).Ready r₀ amounts) :
    CommitsTo (allOrNothing pay r₀ amounts) i (fun _ => True) σ () := by
  intro st γ x hs _ _
  refine ⟨(), ?_, trivial⟩
  have hinv : Intact r₀ amounts (payments st.db pay) := hs.inv
  obtain ⟨r, hr, hterms, hwhole⟩ := hinv.row
  have hcredits : (payments (st.db.apply σ) pay).credits
      = (payments st.db pay).credits ++ (work pay σ).credits := List.filterMap_append ..
  have hrow : (payments (st.db.apply σ) pay).row = σ.view st.db (Key.multiParty pay) := rfl
  refine ⟨?_, funext fun j => ?_⟩
  · rcases h.outcome with ⟨hnone, hsame⟩ | ⟨r₁, r₂, hheld, hs₁, hw⟩
    · -- the row is still the committed one
      refine ⟨r, ?_, hterms, by rw [hcredits, hnone, List.append_nil]; exact hwhole⟩
      rw [hrow]
      cases hh : σ.held (Key.multiParty pay) with
      | none => rw [Session.view_of_not_held hh]; exact hr
      | some hd =>
          rw [Session.view_of_held hh, hsame hd hh, ← hs.agrees _ _ hh]
          exact hr
    · have hheld' : σ.held (Key.multiParty pay) = some ⟨some r₁, some r₂⟩ := hheld
      obtain ⟨_, hown, hterms₂⟩ := h.kept.row _ hheld
      obtain rfl := Option.some.inj hown
      have hbase : (payments st.db pay).row = some r₁ := hs.agrees _ _ hheld'
      obtain rfl : r = r₁ := by rw [hr, Option.some.injEq] at hbase; exact hbase
      rw [Whole, hs₁] at hwhole
      refine ⟨r₂, ?_, hterms₂, by rw [hcredits, hwhole, List.nil_append]; exact hw⟩
      rw [hrow, Session.view_of_held hheld']
  · show (σ.view st.db (Key.recipient pay j)).map _ = _
    cases hh : σ.held (Key.recipient pay j) with
    | none =>
        rw [Session.view_of_not_held hh]
        exact congrFun hinv.amounts j
    | some hd =>
        obtain ⟨row, hown, hamount⟩ := h.kept.recipients j hd hh
        rw [Session.view_of_held hh, hown, hamount]
        rfl

/-! ### Statements -/

/-- What is known of every row a session can see. -/
def OfPayment (pay : Id) (r₀ : MultiPartyPayment) (amounts : Id → Option ℚ) :
    (k : Key) → Row k → Prop
  | .multiParty q, r => q = pay → r.terms = r₀.terms
  | .recipient q j, row => q = pay → amounts j = some row.amount
  | _, _ => True

theorem PaymentWork.Kept.knows (h : (work pay σ).Kept r₀ amounts) :
    (allOrNothing pay r₀ amounts).Knows i σ () (OfPayment pay r₀ amounts) := by
  intro st γ hs k r hv
  have hinv : Intact r₀ amounts (payments st.db pay) := hs.inv
  cases k with
  | multiParty q =>
      rintro rfl
      cases hh : σ.held (Key.multiParty q) with
      | none =>
          rw [Session.view_of_not_held hh] at hv
          obtain ⟨r', hr', hterms, -⟩ := hinv.row
          obtain rfl : r = r' := by
            rw [payments_row, hv, Option.some.injEq] at hr'
            exact hr'
          exact hterms
      | some hd =>
          obtain ⟨r', hown, hterms⟩ := h.row hd hh
          rw [Session.view_of_held hh, hown, Option.some.injEq] at hv
          exact hv ▸ hterms
  | recipient q j =>
      rintro rfl
      cases hh : σ.held (Key.recipient q j) with
      | none =>
          rw [Session.view_of_not_held hh] at hv
          rw [← congrFun hinv.amounts j]
          show (st.db.rows (Key.recipient q j)).map _ = _
          rw [hv]
          rfl
      | some hd =>
          obtain ⟨row, hown, hamount⟩ := h.recipients j hd hh
          rw [Session.view_of_held hh, hown, Option.some.injEq] at hv
          exact hv ▸ hamount
  | _ => trivial

/-- The recipients of the payment are always there. -/
theorem PaymentWork.Kept.stays (h : (work pay σ).Kept r₀ amounts) {j : Id} {x : ℚ}
    (hj : amounts j = some x) : (allOrNothing pay r₀ amounts).Stays i σ ()
      (MultiPartyRepository.ofPayment pay) (Key.recipient pay j) := by
  intro st γ hs
  have hinv : Intact r₀ amounts (payments st.db pay) := hs.inv
  cases hh : σ.held (Key.recipient pay j) with
  | none =>
      rw [Session.view_of_not_held hh]
      have hrow : (st.db.rows (Key.recipient pay j)).map (fun row => row.amount) = some x := by
        rw [← hj, ← congrFun hinv.amounts j]
        rfl
      obtain ⟨row, hrow, -⟩ := Option.map_eq_some_iff.mp hrow
      exact ⟨row, hrow, by simp [MultiPartyRepository.ofPayment]⟩
  | some hd =>
      obtain ⟨row, hown, -⟩ := h.recipients j hd hh
      exact ⟨row, by rw [Session.view_of_held hh, hown], by simp [MultiPartyRepository.ofPayment]⟩

/-- The objects the session has loaded have the terms and the amounts of the payment. -/
def LoadedOf (pay : Id) (r₀ : MultiPartyPayment) (amounts : Id → Option ℚ) (σ : Session schema) :
    Prop :=
  ∀ k o, σ.loaded k = some o → OfPayment pay r₀ amounts k o

/-- A list of all the recipients, as far as their amounts go. -/
structure ListsAmounts (amounts : Id → Option ℚ) (l : List (Id × MultiPartyRecipient)) : Prop where
  nodup : (l.map Prod.fst).Nodup
  amount : ∀ a ∈ l, amounts a.1 = some a.2.amount
  complete : ∀ j x, amounts j = some x → j ∈ l.map Prod.fst

theorem getRecipients_safe {Q : List (Id × MultiPartyRecipient) → Session schema → Unit → Prop}
    (hkept : (work pay σ).Kept r₀ amounts) (hloaded : LoadedOf pay r₀ amounts σ)
    (h : ∀ l σ', ListsAmounts amounts l → work pay σ' = work pay σ → LoadedOf pay r₀ amounts σ' →
      Q l σ' ()) :
    (MultiPartyRepository.getRecipients pay).safe (allOrNothing pay r₀ amounts) i Q R σ () := by
  refine safe_bind (safe_query hkept.knows hloaded fun l loaded hnodup hl _ hstay hload => ?_)
  refine h _ _ ⟨?_, fun a ha => ?_, fun j x hj => ?_⟩ rfl hload
  · exact nodup_filterMap_rows (S := schema) (addressed_eq_some pay) (fun a b hab => by rw [hab])
      hnodup
  · rw [mem_filterMap_rows (S := schema) (addressed_eq_some pay)] at ha
    exact hl _ ha rfl
  · obtain ⟨⟨k, row⟩, hmem, hk⟩ := List.mem_map.mp (hstay _ (hkept.stays hj))
    obtain rfl : k = Key.recipient pay j := hk
    have ha : (j, row) ∈ l.filterMap (MultiPartyRepository.addressed pay) :=
      (mem_filterMap_rows (S := schema) (addressed_eq_some pay)).mpr hmem
    exact List.mem_map_of_mem (f := Prod.fst) ha

theorem work_write_row (pay : Id) (σ : Session schema) (db : DB schema) (r : MultiPartyPayment) :
    work pay (σ.write db (Key.multiParty pay) r)
      = (work pay σ).hold ⟨σ.base db (Key.multiParty pay), some r⟩ := by
  unfold work PaymentWork.hold
  rw [Session.write_held_self]
  rfl

theorem work_write_recipient (pay : Id) (σ : Session schema) (db : DB schema) (j : Id)
    (row : MultiPartyRecipient) :
    work pay (σ.write db (Key.recipient pay j) row)
      = (work pay σ).holdRecipient j ⟨σ.base db (Key.recipient pay j), some row⟩ := by
  unfold work PaymentWork.holdRecipient
  rw [Session.write_held_ne σ db (k := Key.recipient pay j) row (by simp)]
  congr 1
  funext i
  by_cases hi : i = j
  · subst hi
    rw [Function.update_self, Session.write_held_self]
  · rw [Function.update_of_ne hi]
    exact Session.write_held_ne σ db (k := Key.recipient pay j) row (by simp [hi])

theorem work_load (db : DB schema) (k : Key) : work pay (Session.load σ db k) = work pay σ := by
  unfold work
  rw [Session.load_held, Session.load_inserted]

theorem work_of_frame {σ' : Session schema} {l : List Entry} {cs : List Credit}
    (f : BalanceRepository.Frame σ σ' l) (hl : l.filterMap (Entry.creditFor pay) = cs) :
    work pay σ' = (work pay σ).credit cs := by
  unfold work PaymentWork.credit
  rw [f.held _ (by simp), f.inserted, List.filterMap_append, hl]
  congr 1
  funext j
  exact f.held _ (by simp)

theorem creditShare_safe {col : Columns} {agent_id : Id} {amount : ℚ} {token : Token}
    {share : Option Id} {Q : AgentBalance → Session schema → Unit → Prop}
    (h : ∀ b σ', work pay σ' = (work pay σ).credit [⟨agent_id, amount, token, share⟩] → Q b σ' ())
    (hR : ∀ e σ', R e σ' ()) :
    (BalanceRepository.credit col agent_id amount token (.share pay share)).safe
      (allOrNothing pay r₀ amounts) i Q R σ () :=
  BalanceRepository.credit_frame (fun b σ' f => h b σ' (work_of_frame f (by
    simp [Entry.creditFor]))) hR

/-- The payment leaves `PENDING` in a session that has not touched its row, or has locked it. -/
theorem leave_safe {state : MultiPartyPaymentState} {Q : Bool → Session schema → Unit → Prop}
    (hkept : (work pay σ).Kept r₀ amounts)
    (hlocked : ∀ h, (work pay σ).row = some h → ∃ r, h = ⟨some r, some r⟩ ∧ r.state = .PENDING)
    (h : ∀ r t σ', r.terms = r₀.terms → r.state = .PENDING →
      work pay σ' = (work pay σ).hold ⟨some r, some { r with state, completed_at := some t }⟩ →
        Q true σ' ()) :
    (MultiPartyRepository.leavePending state pay).safe (allOrNothing pay r₀ amounts) i Q R σ
      () := by
  refine safe_bind (safe_now fun t => ?_)
  -- the row the session sees is pending, and it is the committed one
  have hpending : ∀ st γ, (allOrNothing pay r₀ amounts).Sees i σ () st γ → ∀ x,
      StillPending pay st σ (.update (Key.multiParty pay) (fun row => row.state = .PENDING)
        fun row => { row with state, completed_at := some t }) x →
      ∃ r, σ.view st.db (Key.multiParty pay) = some r ∧ r.state = .PENDING ∧
        σ.base st.db (Key.multiParty pay) = some r := by
    intro st γ hs x hok
    have hinv : Intact r₀ amounts (payments st.db pay) := hs.inv
    cases hh : σ.held (Key.multiParty pay) with
    | none =>
        obtain ⟨r, hr, -⟩ := hinv.row
        refine ⟨r, by rw [Session.view_of_not_held hh]; exact hr, hok rfl hh r hr, ?_⟩
        rw [Session.base, hh]
        exact hr
    | some hd =>
        obtain ⟨r, rfl, hs⟩ := hlocked hd hh
        exact ⟨r, by rw [Session.view_of_held hh], hs, by rw [Session.base, hh]⟩
  refine safe_update (fun st γ x r hs hok hv hg => ?_) fun st γ x hs hok hmiss => ?_
  · obtain ⟨r', hv', hstate, hbase⟩ := hpending st γ hs x hok
    obtain rfl : r = r' := by rw [hv, Option.some.injEq] at hv'; exact hv'
    refine h r t _ (hkept.knows st γ hs _ r hv rfl) hstate ?_
    exact (work_write_row pay σ st.db _).trans (by rw [hbase])
  · obtain ⟨r', hv', hstate, -⟩ := hpending st γ hs x hok
    have hfails := hmiss r' hv'
    simp [hstate] at hfails

/-- An answer changes no amount. -/
theorem answer_safe {j : Id} {answer : Bool} {t : Time}
    {Q : Bool → Session schema → Unit → Prop} (hkept : (work pay σ).Kept r₀ amounts)
    (h : ∀ b σ', (work pay σ').Kept r₀ amounts → (work pay σ').row = (work pay σ).row →
      (work pay σ').credits = (work pay σ).credits → Q b σ' ()) :
    (update (S := schema) (Key.recipient pay j) (fun row => row.accepted = none) fun row =>
      { row with accepted := some answer, accepted_at := some t }).safe
      (allOrNothing pay r₀ amounts) i Q R σ () := by
  refine safe_update (fun st γ x row hs _ hv _ => ?_) fun st γ x _ _ _ => h _ _ hkept rfl rfl
  have hamount : amounts j = some row.amount := hkept.knows st γ hs _ row hv rfl
  have hwork := work_write_recipient pay σ st.db j
    { row with accepted := some answer, accepted_at := some t }
  generalize hσ : Session.write σ st.db (Key.recipient pay j) _ = σ₁ at hwork ⊢
  have hrow : (work pay σ₁).row = (work pay σ).row := by rw [hwork]; rfl
  have hcredits : (work pay σ₁).credits = (work pay σ).credits := by rw [hwork]; rfl
  refine h _ _ ?_ hrow hcredits
  show PaymentWork.Kept r₀ amounts (work pay σ₁)
  rw [hwork]
  refine ⟨hkept.row, fun j' hd hh => ?_⟩
  by_cases hj : j' = j
  · subst hj
    simp only [PaymentWork.holdRecipient, Function.update_self, Option.some.injEq] at hh
    subst hh
    exact ⟨_, rfl, hamount⟩
  · simp only [PaymentWork.holdRecipient, Function.update_of_ne hj] at hh
    exact hkept.recipients j' hd hh

/-- The payment is pending, and locked from now on. -/
theorem findPending_safe {j : Id}
    {Q : MultiPartyPayment × MultiPartyRecipient → Session schema → Unit → Prop}
    (h : ∀ r row σ', r.terms = r₀.terms → r.state = .PENDING →
      work pay σ' = (work pay Session.start).hold ⟨some r, some r⟩ → Q (r, row) σ' ())
    (hR : ∀ e σ', R e σ' ()) :
    (MultiPartyService.findPending pay j).safe (allOrNothing pay r₀ amounts) i Q R Session.start
      () := by
  refine safe_bind (safe_selectForUpdate fun st γ x hs _ => ?_)
  have hinv : Intact r₀ amounts (payments st.db pay) := hs.inv
  obtain ⟨r, hr, hterms, -⟩ := hinv.row
  have hview : (Session.start : Session schema).view st.db (Key.multiParty pay) = some r := hr
  have hobj : (Session.start : Session schema).object st.db (Key.multiParty pay) = some r := by
    rw [Session.object, hview]
    rfl
  rw [hobj]
  generalize hσ : Session.load (Session.lock _ _ _) _ _ = σ₁
  have hwork : work pay σ₁ = (work pay Session.start).hold ⟨some r, some r⟩ := by
    rw [← hσ, work_load, Session.lock_of_view hview, work_write_row, Session.base]
    exact congrArg (fun b => (work pay Session.start).hold ⟨b, some r⟩) hr
  have hkept : (work pay σ₁).Kept r₀ amounts := by
    rw [hwork]
    refine ⟨fun hd hh => ?_, fun j hd hh => by cases hh⟩
    obtain rfl := Option.some.inj hh
    exact ⟨r, rfl, hterms⟩
  have hloaded : LoadedOf pay r₀ amounts σ₁ := by
    rw [← hσ]
    refine Session.loaded_of_load (fun r' hr' => ?_) fun k o ho => by
      rw [Session.lock_loaded] at ho
      cases ho
    rw [Session.lock_object, hobj, Option.some.injEq] at hr'
    exact fun _ => hr' ▸ hterms
  refine safe_bind (safe_orRaise (fun _ => hR _ _) fun r' hr' => ?_)
  obtain rfl := Option.some.inj hr'
  refine safe_bind (safe_raiseIf (fun _ => hR _ _) fun hs => ?_)
  refine safe_bind (getRecipients_safe hkept hloaded fun l σ₂ _ hwork₂ _ => ?_)
  refine safe_bind (safe_orRaise (fun _ => hR _ _) fun row _ => ?_)
  exact h r row σ₂ hterms (not_not.mp hs) (hwork₂.trans hwork)

/-! ### Methods -/

/-- The end of a method's session: it may commit what it did to the payment. -/
abbrev Committable (pay : Id) (r₀ : MultiPartyPayment) (amounts : Id → Option ℚ) {α : Type} :
    α → Session schema → Unit → Prop :=
  fun _ σ _ => (work pay σ).Ready r₀ amounts

theorem PaymentWork.Kept.credit (h : W.Kept r₀ amounts) (cs : List Credit) :
    (W.credit cs).Kept r₀ amounts := ⟨h.row, h.recipients⟩

theorem kept_of_locked (hterms : r.terms = r₀.terms) :
    ((work pay Session.start).hold ⟨some r, some r⟩).Kept r₀ amounts := by
  refine ⟨fun hd hh => ?_, fun j hd hh => by cases hh⟩
  obtain rfl := Option.some.inj hh
  exact ⟨r, rfl, hterms⟩

/-- The payment has left `PENDING` in the session, with the credits it should have. -/
theorem ready_of_left (h : W.Kept r₀ amounts) (hs : r.state = .PENDING)
    (hterms : r'.terms = r₀.terms) (hw : Whole r' amounts W.credits) :
    (W.hold ⟨some r, some r'⟩).Ready r₀ amounts := by
  refine ⟨⟨fun hd hh => ?_, h.recipients⟩, .inr ⟨r, r', rfl, hs, hw⟩⟩
  obtain rfl := Option.some.inj hh
  exact ⟨r', rfl, hterms⟩

theorem ready_of_idle (h : W.Kept r₀ amounts) (hcredits : W.credits = [])
    (hrow : W.row = some ⟨some r, some r⟩) : W.Ready r₀ amounts := by
  refine ⟨h, .inl ⟨hcredits, fun hd hh => ?_⟩⟩
  rw [hrow, Option.some.injEq] at hh
  exact hh ▸ rfl

/-- The credits of all recipients. -/
theorem ListsAmounts.paidAll {l : List (Id × MultiPartyRecipient)} (h : ListsAmounts amounts l) :
    PaidAll r amounts (l.map fun a => ⟨a.1, a.2.amount, r.currency, some a.1⟩) := by
  refine ⟨l.map fun a => (a.1, a.2.amount), ?_, fun a => ?_, ?_⟩
  · rw [List.map_map]
    exact h.nodup
  · constructor
    · intro ha
      obtain ⟨b, hb, rfl⟩ := List.mem_map.mp ha
      exact h.amount b hb
    · intro ha
      obtain ⟨b, hb, hj⟩ := List.mem_map.mp (h.complete a.1 a.2 ha)
      have hamount := h.amount b hb
      rw [hj, ha, Option.some.injEq] at hamount
      exact List.mem_map.mpr ⟨b, hb, Prod.ext hj hamount.symm⟩
  · rw [List.map_map]
    exact .refl _

/-- The loop that credits the recipients. -/
theorem creditEach_safe {col : Columns} (l : List (Id × MultiPartyRecipient)) {token : Token}
    {Q : Unit → Session schema → Unit → Prop}
    (h : ∀ σ', work pay σ' = (work pay σ).credit
      (l.map fun a => ⟨a.1, a.2.amount, token, some a.1⟩) → Q () σ' ())
    (hR : ∀ e σ', R e σ' ()) :
    (forEach l fun (j, row) => do
      let _ ← BalanceRepository.credit col j row.amount token (.share pay (some j))).safe
      (allOrNothing pay r₀ amounts) i Q R σ () := by
  induction l generalizing σ with
  | nil => exact h σ (by simp [PaymentWork.credit])
  | cons a l ih =>
      refine safe_bind (safe_bind (creditShare_safe (fun b σ₁ h₁ => ?_) hR))
      refine ih fun σ₂ h₂ => h σ₂ ?_
      rw [h₂, h₁]
      simp [PaymentWork.credit]

/-- The refund of the whole payment, and the update that follows it. -/
theorem refund_safe {col : Columns} {state : MultiPartyPaymentState} {α : Type} {a : α}
    (hstate : state = .REJECTED ∨ state = .EXPIRED) (hkept : (work pay σ).Kept r₀ amounts)
    (hcredits : (work pay σ).credits = []) (hterms : r.terms = r₀.terms)
    (hlocked : ∀ h, (work pay σ).row = some h → ∃ r, h = ⟨some r, some r⟩ ∧ r.state = .PENDING) :
    (do
      let _ ← BalanceRepository.credit col r.sender_id r.total_amount r.currency (.share pay none)
      let _ ← MultiPartyRepository.leavePending state pay
      return a : Program α).safe (allOrNothing pay r₀ amounts) i (Committable pay r₀ amounts)
      Raised σ () := by
  refine safe_bind (creditShare_safe (fun b σ₁ h₁ => ?_) fun _ _ => trivial)
  have hkept₁ : (work pay σ₁).Kept r₀ amounts := h₁ ▸ hkept.credit _
  refine safe_bind (leave_safe hkept₁ (fun hd hh => hlocked hd ?_) fun r' t σ₂ hterms' hs' h₂ => ?_)
  · rw [h₁] at hh
    exact hh
  · show (work pay σ₂).Ready r₀ amounts
    rw [h₂]
    refine ready_of_left hkept₁ hs' hterms' ?_
    have hrefund : [r.refund] = [r'.refund] := by
      have hsame := hterms.trans hterms'.symm
      simp only [MultiPartyPayment.terms, Prod.mk.injEq] at hsame
      obtain ⟨hsender, htotal, hcurrency, -⟩ := hsame
      rw [MultiPartyPayment.refund, hsender, htotal, hcurrency]
      rfl
    rw [h₁, PaymentWork.credit, hcredits, List.nil_append]
    rcases hstate with rfl | rfl
    · exact hrefund
    · exact hrefund

theorem getPendingExpired_safe {Q : List (Id × MultiPartyPayment) → Session schema → Unit → Prop}
    (h : ∀ l σ', (l.map Prod.fst).Nodup → (∀ a ∈ l, a.1 = pay → a.2.terms = r₀.terms) →
      work pay σ' = work pay Session.start → Q l σ' ()) :
    MultiPartyRepository.getPendingExpired.safe (allOrNothing pay r₀ amounts) i Q R Session.start
      () := by
  have hstart : (work pay Session.start).Ready r₀ amounts := ready_start
  refine safe_bind (safe_now fun t => safe_bind (safe_query hstart.kept.knows
    (fun k o ho => by cases ho)
    fun l loaded hnodup hl _ _ _ => ?_))
  refine h _ _ ?_ (fun a ha => ?_) rfl
  · exact nodup_filterMap_rows (S := schema) asPayment_eq_some (fun a b hab => by rw [hab]) hnodup
  · rw [mem_filterMap_rows (S := schema) asPayment_eq_some] at ha
    exact hl _ ha

/-- The payment is there, and cannot be created again. -/
theorem createMultiParty_safe {col : Columns} (sender_id : Id) (recipients : List RecipientData)
    (currency : Token) (require_all_accept : Bool) (accept_hours : ℤ) :
    (MultiPartyService.createMultiParty col pay sender_id recipients currency require_all_accept
      accept_hours).safe (allOrNothing pay r₀ amounts) i (Committable pay r₀ amounts) Raised
      Session.start () := by
  have off : ∀ {α : Type} {p : Program α} {σ : Session schema}
      {Q : α → Session schema → Unit → Prop}, p.only (OffPayment pay) →
      work pay σ = work pay Session.start →
      (∀ a σ', work pay σ' = work pay Session.start → Q a σ' ()) →
      p.safe (allOrNothing pay r₀ amounts) i Q Raised σ () := fun hp hσ hQ =>
    safe_mono (safe_offPayment hp) (fun a σ' _ h => hQ a σ' (h.trans hσ)) fun _ _ _ h => h
  refine safe_bind (safe_raiseIf (fun _ => trivial) fun _ => ?_)
  refine safe_bind (safe_raiseIf (fun _ => trivial) fun _ => ?_)
  refine safe_bind (safe_raiseIf (fun _ => trivial) fun _ => ?_)
  refine safe_bind (off (resolve_only recipients) rfl fun resolved σ₁ h₁ => ?_)
  refine safe_bind (safe_raiseIf (fun _ => trivial) fun _ => ?_)
  refine safe_bind (off deductTotal_only h₁ fun _ σ₂ h₂ => safe_bind (safe_now fun t => ?_))
  refine safe_bind (safe_bind (safe_create (fun st γ hs hv => ?_) fun _ _ _ _ _ =>
    safe_bind (safe_raiseIf (fun _ => trivial) fun hf => absurd rfl hf)))
  have hinv : Intact r₀ amounts (payments st.db pay) := hs.inv
  obtain ⟨r, hr, -⟩ := hinv.row
  have hheld : σ₂.held (Key.multiParty pay) = none := congrArg PaymentWork.row h₂
  rw [Session.view_of_not_held hheld] at hv
  rw [payments_row, hv] at hr
  cases hr

variable (hall : r₀.require_all_accept = true)
include hall

theorem waits_for_all (hterms : r.terms = r₀.terms) : r.require_all_accept = true :=
  (congrArg (fun t => t.2.2.2) hterms).trans hall

theorem accept_safe {col : Columns} (j : Id) :
    (MultiPartyService.accept col j pay).safe (allOrNothing pay r₀ amounts) i
      (Committable pay r₀ amounts) Raised Session.start () := by
  refine safe_bind (findPending_safe (fun r row σ₁ hterms hs h₁ => ?_) fun _ _ => trivial)
  have hkept₁ : (work pay σ₁).Kept r₀ amounts := h₁ ▸ kept_of_locked hterms
  have hrow₁ : (work pay σ₁).row = some ⟨some r, some r⟩ := by rw [h₁]; rfl
  have hcredits₁ : (work pay σ₁).credits = [] := by rw [h₁]; rfl
  simp only
  split
  · exact ready_of_idle hkept₁ hcredits₁ hrow₁
  refine safe_bind (safe_bind (safe_now fun t => answer_safe hkept₁
    fun b σ₂ hkept₂ hrow₂ hcredits₂ => ?_))
  rw [hrow₁] at hrow₂
  rw [hcredits₁] at hcredits₂
  split
  · exact ready_of_idle hkept₂ hcredits₂ hrow₂
  rw [if_pos (waits_for_all hall hterms)]
  refine safe_bind (safe_expireAll (safe_bind (getRecipients_safe hkept₂ (fun k o ho => by cases ho)
    fun l σ₃ hl h₃ _ => ?_)))
  have h₃' : work pay σ₃ = work pay σ₂ := h₃
  split
  · refine safe_bind (creditEach_safe l (fun σ₄ h₄ => ?_) fun _ _ => trivial)
    rw [h₃'] at h₄
    have hkept₄ : (work pay σ₄).Kept r₀ amounts := h₄ ▸ hkept₂.credit _
    refine safe_bind (leave_safe hkept₄ (fun hd hh => ?_) fun r' t' σ₅ hterms' hs' h₅ => ?_)
    · rw [h₄] at hh
      exact ⟨r, Option.some.inj (hh.symm.trans hrow₂), hs⟩
    · show (work pay σ₅).Ready r₀ amounts
      rw [h₅]
      refine ready_of_left hkept₄ hs' hterms' ?_
      have hcurrency : r'.currency = r.currency :=
        congrArg (fun t => t.2.2.1) (hterms'.trans hterms.symm)
      rw [h₄, PaymentWork.credit, hcredits₂, List.nil_append, ← hcurrency]
      exact hl.paidAll
  · exact ready_of_idle (h₃' ▸ hkept₂) (h₃' ▸ hcredits₂) (h₃' ▸ hrow₂)

theorem reject_safe {col : Columns} (j : Id) :
    (MultiPartyService.reject col j pay).safe (allOrNothing pay r₀ amounts) i
      (Committable pay r₀ amounts) Raised Session.start () := by
  refine safe_bind (findPending_safe (fun r row σ₁ hterms hs h₁ => ?_) fun _ _ => trivial)
  have hkept₁ : (work pay σ₁).Kept r₀ amounts := h₁ ▸ kept_of_locked hterms
  have hrow₁ : (work pay σ₁).row = some ⟨some r, some r⟩ := by rw [h₁]; rfl
  have hcredits₁ : (work pay σ₁).credits = [] := by rw [h₁]; rfl
  refine safe_bind (safe_bind (safe_now fun t => answer_safe hkept₁
    fun b σ₂ hkept₂ hrow₂ hcredits₂ => ?_))
  refine safe_bind (safe_raiseIf (fun _ => trivial) fun _ => ?_)
  rw [if_pos (waits_for_all hall hterms)]
  refine refund_safe (.inl rfl) hkept₂ (hcredits₂.trans hcredits₁) hterms fun hd hh => ?_
  rw [hrow₂, hrow₁] at hh
  exact ⟨r, (Option.some.inj hh).symm, hs⟩

/-- The sweep of the payment. -/
theorem expireOne_safe {col : Columns} (hterms : r.terms = r₀.terms)
    (hkept : (work pay σ).Kept r₀ amounts) (hcredits : (work pay σ).credits = [])
    (hrow : (work pay σ).row = none) :
    (MultiPartyService.expireOne col pay r).safe (allOrNothing pay r₀ amounts) i
      (Committable pay r₀ amounts) Raised σ () := by
  unfold MultiPartyService.expireOne
  rw [if_pos (waits_for_all hall hterms)]
  exact refund_safe (.inr rfl) hkept hcredits hterms fun hd hh => by
    rw [hrow] at hh
    cases hh

/-- Before the sweep comes to the payment it has not touched it, and it comes to it once. -/
theorem expireStale_safe {col : Columns} :
    (MultiPartyService.expireStale col).safe (allOrNothing pay r₀ amounts) i
      (Committable pay r₀ amounts) Raised Session.start () := by
  refine safe_bind (getPendingExpired_safe fun listed σ₁ hnodup hterms h₁ => ?_)
  refine safe_bind (safe_mono (safe_forEach (R := Raised) (fun rest σ _ =>
    (work pay σ).Ready r₀ amounts ∧ (rest.map Prod.fst).Nodup ∧
      (∀ a ∈ rest, a.1 = pay → a.2.terms = r₀.terms) ∧
      (pay ∈ rest.map Prod.fst → work pay σ = work pay Session.start))
    (fun a rest σ g ⟨hready, hnodup, hterms, hfresh⟩ => ?_) listed
    ⟨h₁ ▸ ready_start, hnodup, hterms, fun _ => h₁⟩) (fun _ _ _ h => h.1) fun _ _ _ h => h)
  rw [List.map_cons, List.nodup_cons] at hnodup
  by_cases ha : a.1 = pay
  · obtain ⟨q, payment⟩ := a
    obtain rfl : q = pay := ha
    have hwork : work q σ = work q Session.start := hfresh (by simp)
    refine safe_mono (expireOne_safe hall (hterms _ List.mem_cons_self rfl) hready.kept
      (by rw [hwork]; rfl) (by rw [hwork]; rfl)) (fun _ σ' _ h => ⟨h, hnodup.2, ?_, ?_⟩)
      fun _ _ _ h => h
    · exact fun b hb => hterms b (List.mem_cons_of_mem _ hb)
    · exact fun hmem => absurd hmem hnodup.1
  · refine safe_mono (safe_offPayment (expireOne_only ha a.2)) (fun _ σ' _ h => ?_) fun _ _ _ h => h
    refine ⟨h ▸ hready, hnodup.2, fun b hb => hterms b (List.mem_cons_of_mem _ hb), fun hmem => ?_⟩
    rw [h]
    exact hfresh (List.mem_cons_of_mem _ hmem)

end Sessions

/-! ## All interleavings -/

theorem MultiPartyCall.run_safe {pay : Id} {r₀ : MultiPartyPayment} {amounts : Id → Option ℚ}
    {i : ℕ} (hall : r₀.require_all_accept = true) (col : Columns) (call : MultiPartyCall) :
    (call.run col).safe (allOrNothing pay r₀ amounts) i (fun _ _ _ => True) (fun _ _ _ => True)
      Session.start () := by
  have off : ∀ {p : Program Unit}, p.only (OffPayment pay) →
      p.safe (allOrNothing pay r₀ amounts) i (Committable pay r₀ amounts) Raised
        Session.start () := by
    intro p hp
    refine safe_mono (safe_offPayment hp) (fun _ σ' _ h => ?_) fun _ _ _ h => h
    show (work pay σ').Ready r₀ amounts
    rw [h]
    exact ready_start
  have body : (call.body col).safe (allOrNothing pay r₀ amounts) i (Committable pay r₀ amounts)
      Raised Session.start () := by
    cases call with
    | createMultiParty q sender_id recipients currency require_all_accept accept_hours =>
        by_cases hq : q = pay
        · subst hq
          exact safe_bind (createMultiParty_safe ..)
        · exact off (only_bind (createMultiParty_only hq ..) fun _ => trivial)
    | accept j q =>
        by_cases hq : q = pay
        · subst hq
          exact safe_bind (accept_safe hall j)
        · exact off (only_bind (accept_only hq j) fun _ => trivial)
    | reject j q =>
        by_cases hq : q = pay
        · subst hq
          exact safe_bind (reject_safe hall j)
        · exact off (only_bind (reject_only hq j) fun _ => trivial)
    | expireStale => exact safe_bind (expireStale_safe hall)
  exact safe_withSession (safe_mono body (fun _ _ _ h => ⟨h.commits, trivial⟩) fun _ _ _ _ => trivial)

/-- **All or nothing.** Start from any database with a pending payment that waits for all its
recipients. In every interleaving in which a session that has not locked the payment finds it
pending when it updates it, a pending payment has made no credit, and one that has left `PENDING`
has credited every recipient its amount and the sender nothing, or refunded the sender once and
credited nobody else. -/
theorem multi_party_all_or_nothing (pay : Id) (col : Columns) {st₀ : Store schema}
    (hwf : st₀.db.WF) {r₀ : MultiPartyPayment}
    (hr₀ : st₀.db.rows (Key.multiParty pay) = some r₀) (hall : r₀.require_all_accept = true)
    (hs₀ : r₀.state = .PENDING) (hnew : (payments st₀.db pay).credits = [])
    (calls : ℕ → MultiPartyCall) {c : Config schema Unit}
    (hc : Config.Reaches (StillPending pay) (Config.start st₀ fun i => (calls i).run col) c) :
    ∃ r, c.store.db.rows (Key.multiParty pay) = some r ∧
      (r.state = .PENDING → (payments c.store.db pay).credits = []) ∧
      (r.state ≠ .PENDING →
        (∃ m : List (Id × ℚ), (m.map Prod.fst).Nodup ∧
          (∀ a, a ∈ m ↔ (payments c.store.db pay).amounts a.1 = some a.2) ∧
          (payments c.store.db pay).credits.Perm
            (m.map fun a => ⟨a.1, a.2, r.currency, some a.1⟩)) ∨
        (payments c.store.db pay).credits = [⟨r.sender_id, r.total_amount, r.currency, none⟩]) := by
  have hstart : Intact r₀ (payments st₀.db pay).amounts (payments st₀.db pay) := by
    refine ⟨⟨r₀, hr₀, rfl, ?_⟩, rfl⟩
    rw [Whole, hs₀]
    exact hnew
  obtain ⟨γ, hγ⟩ := Config.invariant (P := allOrNothing pay r₀ (payments st₀.db pay).amounts)
    (γ := fun _ => ()) hwf hstart (fun i => (calls i).run_safe hall col) hc
  have hinv : Intact r₀ (payments st₀.db pay).amounts (payments c.store.db pay) := hγ
  obtain ⟨r, hr, -, hwhole⟩ := hinv.row
  rw [← hinv.amounts] at hwhole
  refine ⟨r, hr, fun hs => ?_, fun hs => ?_⟩
  · rw [Whole, hs] at hwhole
    exact hwhole
  · cases hstate : r.state with
    | PENDING => exact absurd hstate hs
    | ACCEPTED => rw [Whole, hstate] at hwhole; exact hwhole.elim
    | COMPLETED => rw [Whole, hstate] at hwhole; exact .inl hwhole
    | REJECTED => rw [Whole, hstate] at hwhole; exact .inr hwhole
    | EXPIRED => rw [Whole, hstate] at hwhole; exact .inr hwhole

/-! ### Two schedules -/

/-- Agent 1 pays two units to agent 2 and three to agent 3 when both accept; agent 2 has. -/
def halfAccepted : Store schema where
  db :=
    { rows := fun
        | .balance id token => if id = 1 ∧ token = .XMR then some { available := 5 } else none
        | .multiParty id =>
            if id = 1 then some { sender_id := 1, total_amount := 5, accept_deadline := hours 2 }
            else none
        | .recipient id j =>
            if id = 1 ∧ j = 2 then some { amount := 2, accepted := some true }
            else if id = 1 ∧ j = 3 then some { amount := 3 }
            else none
        | _ => none
      keys := [.balance 1 .XMR, .multiParty 1, .recipient 1 2, .recipient 1 3]
      log := [] }
  ext := default

theorem halfAccepted_wf : halfAccepted.db.WF := by
  refine ⟨by decide, fun k => ?_⟩
  cases k with
  | balance id token => by_cases h : id = 1 ∧ token = .XMR <;> simp [halfAccepted, h]
  | multiParty id => by_cases h : id = 1 <;> simp [halfAccepted, h]
  | recipient id j =>
      by_cases h : id = 1 ∧ j = 2
      · simp [halfAccepted, h]
      · by_cases h' : id = 1 ∧ j = 3 <;> simp [halfAccepted, h, h']
  | _ => simp [halfAccepted]

/-- Agent 3 accepts, and the sweep comes. -/
def acceptAndSweep : ℕ → MultiPartyCall
  | 0 => .accept 3 1
  | _ => .expireStale

/-- The test that a schedule completes the payment with the credits `cs`. -/
def completesWith (l : List (ℕ × Input schema)) (cs : List Credit) : Bool :=
  (Config.trace l (.start halfAccepted fun i => (acceptAndSweep i).run .rounding)).any fun c =>
    ((c.store.db.rows (Key.multiParty 1)).any fun r => r.state = .COMPLETED ∧ r.currency = .XMR) ∧
      (payments c.store.db 1).credits = cs

theorem exists_of_completesWith {l : List (ℕ × Input schema)} (cs : List Credit)
    (h : completesWith l cs = true) : ∃ (c : Config schema Unit) (r : MultiPartyPayment),
      Config.trace l (.start halfAccepted fun i => (acceptAndSweep i).run .rounding) = some c ∧
      c.store.db.rows (Key.multiParty 1) = some r ∧ r.state = .COMPLETED ∧ r.currency = .XMR ∧
      (payments c.store.db 1).credits = cs := by
  simp only [completesWith, Option.any_eq_true, decide_eq_true_eq] at h
  obtain ⟨c, hc, ⟨r, hr, hs, hcurrency⟩, hcs⟩ := h
  exact ⟨c, r, hc, hr, hs, hcurrency, hcs⟩

def stillPending : Store schema → Session schema → Stmt schema → Input schema → Bool
  | st, σ, .update (Key.multiParty q) _ _, _ => (σ.held (Key.multiParty q)).isSome ||
      (st.db.rows (Key.multiParty q)).all fun r => r.state = .PENDING
  | _, _, _, _ => true

theorem stillPending_of_test (pay : Id) (st : Store schema) (σ : Session schema)
    (s : Stmt schema) (x : Input schema) (h : stillPending st σ s x = true) :
    StillPending pay st σ s x := by
  unfold StillPending
  split
  · intro _ hheld r hr
    simpa [stillPending, hheld, hr] using h
  · trivial

/-- The sweep comes when the payment is completed. -/
theorem multi_party_all_or_nothing_completed :
    ∃ m : List (Id × ℚ), (m.map Prod.fst).Nodup ∧
      [⟨2, 2, .XMR, some 2⟩, ⟨3, 3, .XMR, some 3⟩].Perm
        (m.map fun a => (⟨a.1, a.2, .XMR, some a.1⟩ : Credit)) := by
  obtain ⟨c, r, hc, hr, hs, hcurrency, hcs⟩ := exists_of_completesWith
    (l := turn 0 21 2 ++ turn 1 3 2) [⟨2, 2, .XMR, some 2⟩, ⟨3, 3, .XMR, some 3⟩]
    (by decide +kernel)
  have hreach := Config.reaches_of_trace stillPending (stillPending_of_test 1)
    (turn 0 21 2 ++ turn 1 3 2) .refl (by decide +kernel) hc
  obtain ⟨r', hr', -, hpaid⟩ := multi_party_all_or_nothing 1 .rounding halfAccepted_wf rfl rfl rfl
    rfl acceptAndSweep hreach
  obtain rfl : r = r' := Option.some.inj (hr.symm.trans hr')
  rcases hpaid (by simp [hs]) with ⟨m, hnodup, -, hperm⟩ | hrefund
  · rw [hcs, hcurrency] at hperm
    exact ⟨m, hnodup, hperm⟩
  · rw [hcs] at hrefund
    simp at hrefund

/-- The sweep has listed the payment when agent 3 accepts: everybody is paid, and the sender is
refunded. -/
theorem multi_party_paid_and_refunded : ¬∀ (pay : Id) (st₀ : Store schema)
    (r₀ r : MultiPartyPayment) (calls : ℕ → MultiPartyCall) (c : Config schema Unit),
    st₀.db.WF → st₀.db.rows (Key.multiParty pay) = some r₀ → r₀.require_all_accept = true →
    r₀.state = .PENDING → (payments st₀.db pay).credits = [] →
    Config.Reaches (fun _ _ _ _ => True) (Config.start st₀ fun i => (calls i).run .rounding) c →
    c.store.db.rows (Key.multiParty pay) = some r → r.state ≠ .PENDING →
    (∃ m : List (Id × ℚ), (payments c.store.db pay).credits.Perm
        (m.map fun a => ⟨a.1, a.2, r.currency, some a.1⟩)) ∨
      (payments c.store.db pay).credits = [⟨r.sender_id, r.total_amount, r.currency, none⟩] := by
  intro h
  obtain ⟨c, r, hc, hr, hs, -, hcs⟩ := exists_of_completesWith
    (l := turn 1 3 2 ++ turn 0 21 2 ++ turn 1 6 2)
    [⟨2, 2, .XMR, some 2⟩, ⟨3, 3, .XMR, some 3⟩, ⟨1, 5, .XMR, none⟩] (by decide +kernel)
  have hreach := Config.reaches_of_trace (fun _ _ _ _ => true) (fun _ _ _ _ _ => trivial)
    (turn 1 3 2 ++ turn 0 21 2 ++ turn 1 6 2) .refl (by decide +kernel) hc
  rcases h 1 halfAccepted _ r acceptAndSweep c halfAccepted_wf rfl rfl rfl rfl hreach hr
    (by simp [hs]) with ⟨m, hperm⟩ | hrefund
  · have hmem : (⟨1, 5, .XMR, none⟩ : Credit) ∈ (payments c.store.db 1).credits := by
      rw [hcs]
      simp
    obtain ⟨a, -, ha⟩ := List.mem_map.mp (hperm.mem_iff.mp hmem)
    exact Option.some_ne_none _ (congrArg Credit.share ha)
  · rw [hcs] at hrefund
    simp at hrefund

end Sthrip
