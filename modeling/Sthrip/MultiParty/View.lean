import Sthrip.Services.MultiPartyService
import Sthrip.Txn.View
import Mathlib.Data.List.Perm.Lattice

set_option autoImplicit false

/-! # The multi-party payments of a database

What a database says about one payment: its row, its recipients by their identifier, and the
credits that have been made for it, each with the share it is for. The lemmas say how the
methods of `MultiPartyRepository` move a payment.

A query lists the recipients in any order, so that everything said about a list of them is said
up to a permutation.
-/

namespace Sthrip

open Txn Prog

/-! ## One payment -/

/-- A credit made for a payment: for the share of one recipient, or for all of it. -/
structure Credit where
  agent_id : Id
  amount : ℚ
  token : Token
  share : Option Id
  deriving DecidableEq

/-- A payment: its row, its recipients and the credits made for it. -/
@[ext] structure Payment where
  row : Option MultiPartyPayment := none
  recipients : Id → Option MultiPartyRecipient := fun _ => none
  credits : List Credit := []

namespace Payment

variable {E : Payment} {j : Id} {row row' : MultiPartyRecipient}
  {l m : List (Id × MultiPartyRecipient)}

def setRow (E : Payment) (r : MultiPartyPayment) : Payment := { E with row := some r }
def setRecipient (E : Payment) (j : Id) (row : MultiPartyRecipient) : Payment :=
  { E with recipients := Function.update E.recipients j (some row) }
def credit (E : Payment) (cs : List Credit) : Payment := { E with credits := E.credits ++ cs }

@[simp] theorem setRow_row (E : Payment) (r : MultiPartyPayment) : (E.setRow r).row = some r := rfl
@[simp] theorem setRow_recipients (E : Payment) (r : MultiPartyPayment) :
    (E.setRow r).recipients = E.recipients := rfl
@[simp] theorem setRow_credits (E : Payment) (r : MultiPartyPayment) :
    (E.setRow r).credits = E.credits := rfl
@[simp] theorem setRecipient_row (E : Payment) (j : Id) (row : MultiPartyRecipient) :
    (E.setRecipient j row).row = E.row := rfl
@[simp] theorem setRecipient_credits (E : Payment) (j : Id) (row : MultiPartyRecipient) :
    (E.setRecipient j row).credits = E.credits := rfl
@[simp] theorem credit_row (E : Payment) (cs : List Credit) : (E.credit cs).row = E.row := rfl
@[simp] theorem credit_recipients (E : Payment) (cs : List Credit) :
    (E.credit cs).recipients = E.recipients := rfl
@[simp] theorem credit_credits (E : Payment) (cs : List Credit) :
    (E.credit cs).credits = E.credits ++ cs := rfl

theorem credit_nil (E : Payment) : E.credit [] = E := by
  simp only [credit, List.append_nil]

theorem credit_append (E : Payment) (cs cs' : List Credit) :
    E.credit (cs ++ cs') = (E.credit cs).credit cs' := by
  simp only [credit, List.append_assoc]

/-! ## Lists of the recipients -/

/-- The list has every recipient of the payment once. -/
structure Lists (E : Payment) (l : List (Id × MultiPartyRecipient)) : Prop where
  nodup : (l.map Prod.fst).Nodup
  mem : ∀ a, a ∈ l ↔ E.recipients a.1 = some a.2

theorem Lists.of_recipients {E' : Payment} (h : E.Lists l) (hE : E'.recipients = E.recipients) :
    E'.Lists l :=
  ⟨h.nodup, fun a => by rw [hE]; exact h.mem a⟩

theorem Lists.perm (h : E.Lists l) (h' : E.Lists m) : l.Perm m := by
  refine (List.perm_ext_iff_of_nodup (.of_map _ h.nodup) (.of_map _ h'.nodup)).mpr fun a => ?_
  rw [h.mem, h'.mem]

theorem Lists.of_perm (h : E.Lists l) (hp : l.Perm m) : E.Lists m :=
  ⟨(hp.map Prod.fst).nodup_iff.mp h.nodup, fun a => hp.mem_iff.symm.trans (h.mem a)⟩

theorem lists_nil (h : E.recipients = fun _ => none) : E.Lists [] :=
  ⟨List.nodup_nil, fun a => by simp [h]⟩

/-- Every recipient can be put in front. -/
theorem Lists.cons_of_mem (h : E.Lists l) (hj : E.recipients j = some row) :
    ∃ m, E.Lists ((j, row) :: m) := by
  have hmem : (j, row) ∈ l := (h.mem (j, row)).mpr hj
  exact ⟨l.erase (j, row), h.of_perm (List.perm_cons_erase hmem)⟩

/-- The row of one recipient changes. -/
theorem Lists.set (h : E.Lists ((j, row) :: m)) :
    (E.setRecipient j row').Lists ((j, row') :: m) := by
  have hnot : j ∉ m.map Prod.fst := (List.nodup_cons.mp h.nodup).1
  refine ⟨h.nodup, fun a => ?_⟩
  have ha := h.mem a
  show a ∈ (j, row') :: m ↔ Function.update E.recipients j (some row') a.1 = some a.2
  obtain ⟨i, r⟩ := a
  by_cases hi : i = j
  · subst hi
    have hm : (i, r) ∉ m := fun hm => hnot (List.mem_map_of_mem (f := Prod.fst) hm)
    simp [hm, eq_comm]
  · rw [Function.update_of_ne hi]
    simpa [hi] using ha

/-- A new recipient goes to the end. -/
theorem Lists.add (h : E.Lists l) (hj : E.recipients j = none) :
    (E.setRecipient j row).Lists (l ++ [(j, row)]) := by
  have hnot : j ∉ l.map Prod.fst := by
    intro hmem
    obtain ⟨a, ha, rfl⟩ := List.mem_map.mp hmem
    have hsome := (h.mem a).mp ha
    rw [hj] at hsome
    cases hsome
  have hfront : E.Lists l → (E.setRecipient j row).Lists ((j, row) :: l) := by
    refine fun h => ⟨List.nodup_cons.mpr ⟨hnot, h.nodup⟩, fun a => ?_⟩
    show a ∈ (j, row) :: l ↔ Function.update E.recipients j (some row) a.1 = some a.2
    obtain ⟨i, r⟩ := a
    by_cases hi : i = j
    · subst hi
      have hm : (i, r) ∉ l := fun hm => hnot (List.mem_map_of_mem (f := Prod.fst) hm)
      simp [hm, eq_comm]
    · rw [Function.update_of_ne hi]
      simpa [hi] using h.mem (i, r)
  exact (hfront h).of_perm (List.perm_append_singleton _ _).symm

end Payment

/-! ## The payments of a database -/

/-- The credit an entry makes for a payment. -/
def Entry.creditFor (payment_id : Id) : Entry → Option Credit
  | .posting ⟨agent_id, token, amount, .share q share⟩ =>
      if q = payment_id then some ⟨agent_id, amount, token, share⟩ else none
  | _ => none

def payments (db : DB schema) (payment_id : Id) : Payment where
  row := db.rows (Key.multiParty payment_id)
  recipients j := db.rows (Key.recipient payment_id j)
  credits := db.log.filterMap (Entry.creditFor payment_id)

@[simp] theorem payments_row (db : DB schema) (p : Id) :
    (payments db p).row = db.rows (Key.multiParty p) := rfl
@[simp] theorem payments_recipients (db : DB schema) (p : Id) :
    (payments db p).recipients = fun j => db.rows (Key.recipient p j) := rfl

/-- From `db` to `db'`, the payment `p` becomes `E` and the other payments stay as they are. -/
abbrev PaymentMoves (db db' : DB schema) (p : Id) (E : Payment) : Prop := Moves payments db db' p E

namespace PaymentMoves

variable {db : DB schema} {p : Id} {E : Payment}

/-- A row of another table. -/
theorem put {k : Key} (row : Row k) (hk : ∀ q, Key.multiParty q ≠ k)
    (hk' : ∀ q j, Key.recipient q j ≠ k) (h : payments db p = E) :
    PaymentMoves db (db.put k row) p E := by
  refine .of_same (fun q => Payment.ext ?_ (funext fun j => ?_) rfl) h
  · exact DB.put_rows_ne db row (hk q)
  · exact DB.put_rows_ne db row (hk' q j)

theorem put_row (r : MultiPartyPayment) (h : payments db p = E) :
    PaymentMoves db (db.put (Key.multiParty p) r) p (E.setRow r) := by
  have hrec : ∀ q, (payments (db.put (Key.multiParty p) r) q).recipients
      = (payments db q).recipients := by
    intro q
    funext j
    simp only [payments_recipients]
    exact DB.put_rows_ne _ _ (by simp)
  refine .of_change (Payment.ext ?_ ?_ ?_) fun q hq => Payment.ext ?_ (hrec q) rfl
  · simp only [payments_row, Payment.setRow_row]
    exact DB.put_rows_self ..
  · rw [hrec, h, Payment.setRow_recipients]
  · rw [← h]
    rfl
  · simp only [payments_row]
    exact DB.put_rows_ne _ _ (by simp [hq])

theorem put_recipient (j : Id) (row : MultiPartyRecipient) (h : payments db p = E) :
    PaymentMoves db (db.put (Key.recipient p j) row) p (E.setRecipient j row) := by
  have hrow : ∀ q, (payments (db.put (Key.recipient p j) row) q).row = (payments db q).row := by
    intro q
    simp only [payments_row]
    exact DB.put_rows_ne _ _ (by simp)
  refine .of_change (Payment.ext ?_ (funext fun i => ?_) ?_) fun q hq =>
    Payment.ext (hrow q) (funext fun i => ?_) rfl
  · rw [hrow, h, Payment.setRecipient_row]
  · rw [← h]
    simp only [payments_recipients, Payment.setRecipient]
    by_cases hi : i = j
    · subst hi
      rw [Function.update_self]
      exact DB.put_rows_self ..
    · rw [Function.update_of_ne hi]
      exact DB.put_rows_ne _ _ (by simp [hi])
  · rw [← h]
    rfl
  · simp only [payments_recipients]
    exact DB.put_rows_ne _ _ (by simp [hq])

theorem append {a : Entry} {cs : List Credit} (ha : (a.creditFor p).toList = cs)
    (hq : ∀ q, q ≠ p → a.creditFor q = none) (h : payments db p = E) :
    PaymentMoves db (db.append a) p (E.credit cs) := by
  have hcredits : ∀ q, (payments (db.append a) q).credits
      = (payments db q).credits ++ (a.creditFor q).toList := by
    intro q
    show (db.log ++ [a]).filterMap _ = _
    rw [List.filterMap_append]
    cases hc : a.creditFor q <;> simp [hc, payments]
  refine .of_change (Payment.ext ?_ ?_ ?_) fun q hne => Payment.ext rfl rfl ?_
  · rw [← h]
    rfl
  · rw [← h]
    rfl
  · rw [hcredits, ha, h]
    rfl
  · rw [hcredits, hq q hne]
    exact List.append_nil _

end PaymentMoves

/-! ## How the repositories move a payment -/

section Specs

variable {col : Columns} {Ok : StepCond schema} {R : Exn → Solo schema → Prop}
  {v : Solo schema} {p : Id} {E : Payment}

theorem getPayment_always {Q : Option MultiPartyPayment → Solo schema → Prop}
    (hE : payments v.db p = E) (h : Q E.row v) :
    (MultiPartyRepository.getByIdForUpdate p).always Ok Q R v :=
  always_selectForUpdate (by subst hE; exact h)

theorem addressed_eq_some (p : Id) (x : Σ k : Key, Row k) (a : Id × MultiPartyRecipient) :
    MultiPartyRepository.addressed p x = some a ↔ x = ⟨Key.recipient p a.1, a.2⟩ := by
  obtain ⟨k, r⟩ := x
  constructor
  · intro h
    cases k with
    | recipient q i =>
        simp only [MultiPartyRepository.addressed] at h
        split at h
        · next hq =>
            obtain rfl := Option.some.inj h
            rw [hq]
        · cases h
    | _ => cases h
  · rintro ⟨⟩
    simp [MultiPartyRepository.addressed]

theorem getRecipients_always {Q : List (Id × MultiPartyRecipient) → Solo schema → Prop}
    (hE : payments v.db p = E) (h : ∀ l, E.Lists l → Q l v) :
    (MultiPartyRepository.getRecipients p).always Ok Q R v := by
  refine always_bind (always_query fun l hnodup hl => h _ ⟨?_, fun a => ?_⟩)
  · exact nodup_filterMap_rows (S := schema) (addressed_eq_some p) (fun a b hab => by rw [hab])
      hnodup
  · rw [mem_filterMap_rows (S := schema) (addressed_eq_some p), hl, ← hE]
    simp [MultiPartyRepository.ofPayment]

theorem asPayment_eq_some (x : Σ k : Key, Row k) (a : Id × MultiPartyPayment) :
    MultiPartyRepository.asPayment x = some a ↔ x = ⟨Key.multiParty a.1, a.2⟩ := by
  obtain ⟨k, r⟩ := x
  constructor
  · intro h
    cases k with
    | multiParty q =>
        obtain rfl := Option.some.inj h
        rfl
    | _ => cases h
  · rintro ⟨⟩
    rfl

/-- The payments of a sweep are pending, and each is listed once. -/
theorem getPendingExpired_always {Q : List (Id × MultiPartyPayment) → Solo schema → Prop}
    (h : ∀ l : List (Id × MultiPartyPayment), (l.map Prod.fst).Nodup →
      (∀ a ∈ l, (payments v.db a.1).row = some a.2 ∧ a.2.state = .PENDING) → Q l v) :
    MultiPartyRepository.getPendingExpired.always Ok Q R v := by
  refine always_bind (always_now fun t => always_bind (always_query fun l hnodup hl => ?_))
  refine h _ ?_ fun a ha => ?_
  · exact nodup_filterMap_rows (S := schema) asPayment_eq_some (fun a b hab => by rw [hab])
      hnodup
  · rw [mem_filterMap_rows (S := schema) asPayment_eq_some, hl] at ha
    refine ⟨ha.1, ?_⟩
    have hpast := ha.2
    simp only [MultiPartyRepository.pastDeadline, decide_eq_true_eq] at hpast
    exact hpast.1

theorem leavePending_always {state : MultiPartyPaymentState} {Q : Bool → Solo schema → Prop}
    (hE : payments v.db p = E)
    (hit : ∀ r t x db', E.row = some r → r.state = .PENDING →
      Ok v (.update (Key.multiParty p) (fun row => row.state = .PENDING) fun row =>
        { row with state, completed_at := some t }) x →
      PaymentMoves v.db db' p (E.setRow { r with state, completed_at := some t }) →
      Q true { v with db := db' })
    (miss : (∀ r, E.row = some r → r.state ≠ .PENDING) → Q false v) :
    (MultiPartyRepository.leavePending state p).always Ok Q R v := by
  subst hE
  refine always_bind (always_now fun t => ?_)
  refine always_update (fun r x hr hg hok => ?_) fun hmiss => miss fun r hr => ?_
  · exact hit r t x _ hr (by simpa using hg) hok (.put_row _ rfl)
  · simpa using hmiss r hr

/-- The answer of a recipient, which is taken only once. -/
theorem answer_always {j : Id} {answer : Bool} {t : Time} {Q : Bool → Solo schema → Prop}
    (hE : payments v.db p = E)
    (hit : ∀ row db', E.recipients j = some row → row.accepted = none →
      PaymentMoves v.db db' p (E.setRecipient j { row with
        accepted := some answer, accepted_at := some t }) → Q true { v with db := db' })
    (miss : (∀ row, E.recipients j = some row → row.accepted ≠ none) → Q false v) :
    (update (S := schema) (Key.recipient p j) (fun row => row.accepted = none) fun row =>
      { row with accepted := some answer, accepted_at := some t }).always Ok Q R v := by
  subst hE
  refine always_update (fun row x hr hg _ => ?_) fun hmiss => miss fun row hr => ?_
  · exact hit row _ hr (by simpa using hg) (.put_recipient j _ rfl)
  · simpa using hmiss row hr

theorem creditShare_always {agent_id : Id} {amount : ℚ} {token : Token} {share : Option Id}
    {Q : AgentBalance → Solo schema → Prop} (hE : payments v.db p = E)
    (h : ∀ b db', PaymentMoves v.db db' p (E.credit [⟨agent_id, amount, token, share⟩]) →
      Q b { v with db := db' }) :
    (BalanceRepository.credit col agent_id amount token (.share p share)).always Ok Q R v := by
  refine BalanceRepository.credit_always fun b _ => h _ _ ?_
  have hput := PaymentMoves.put (k := Key.balance agent_id token)
    { b with available := col 12 (b.available + amount) } (by simp) (by simp) hE
  refine hput.trans (PaymentMoves.append ?_ (fun q hq => ?_) hput.self)
  · simp [Entry.creditFor]
  · simp [Entry.creditFor, hq.symm]

/-- The deduction that locks the total. -/
theorem deductTotal_always {agent_id : Id} {amount : ℚ} {token : Token}
    {Q : AgentBalance → Solo schema → Prop} (hE : payments v.db p = E)
    (h : ∀ b db', PaymentMoves v.db db' p E → Q b { v with db := db' })
    (hR : ∀ x db', R x { v with db := db' }) :
    (BalanceRepository.deduct col agent_id amount token .other).always Ok Q R v := by
  refine BalanceRepository.deduct_always (fun b _ _ => h _ _ ?_) hR
  have hput := PaymentMoves.put (k := Key.balance agent_id token)
    { b with available := col 12 (b.available - amount) } (by simp) (by simp) hE
  have hnone : ((Entry.posting ⟨agent_id, token, -amount, .other⟩).creditFor p).toList = [] := rfl
  have happ := hput.trans (PaymentMoves.append hnone (fun _ _ => rfl) hput.self)
  rwa [Payment.credit_nil] at happ

/-- A loop that credits shares: `g a` is what its body credits for `a`. -/
theorem creditEach_always {γ : Type} {f : γ → Program Unit} (g : γ → List Credit) (l : List γ)
    {Q : Unit → Solo schema → Prop} (hE : payments v.db p = E)
    (hf : ∀ a ∈ l, ∀ {v : Solo schema} {E : Payment} {Q : Unit → Solo schema → Prop},
      payments v.db p = E →
      (∀ db', PaymentMoves v.db db' p (E.credit (g a)) → Q () { v with db := db' }) →
      (f a).always Ok Q R v)
    (h : ∀ db', PaymentMoves v.db db' p (E.credit (l.flatMap g)) → Q () { v with db := db' }) :
    (forEach l f).always Ok Q R v := by
  induction l generalizing v E with
  | nil =>
      refine h v.db ?_
      rw [List.flatMap_nil, Payment.credit_nil]
      exact .refl hE
  | cons a l ih =>
      refine always_bind (hf a List.mem_cons_self hE fun db₁ m₁ => ?_)
      refine ih m₁.self (fun b hb => hf b (List.mem_cons_of_mem _ hb)) fun db₂ m₂ => h db₂ ?_
      rw [List.flatMap_cons, Payment.credit_append]
      exact m₁.trans m₂

/-- The rows of the recipients of a new payment. -/
theorem addRecipients_always (l : List (Id × ℚ)) {Q : Unit → Solo schema → Prop}
    (hE : payments v.db p = E)
    (h : ∀ db' E', PaymentMoves v.db db' p E' → E'.row = E.row → E'.credits = E.credits →
      (∀ m, E.Lists m → E'.Lists (m ++ l.map fun a => (a.1, { amount := col 8 a.2 }))) →
      Q () { v with db := db' })
    (hR : ∀ x db', R x { v with db := db' }) :
    (forEach l fun (recipient_id, amount) => do
      let inserted ← Prog.create (S := schema) (Key.recipient p recipient_id)
        ({ amount := col 8 amount } : MultiPartyRecipient)
      raiseIf (inserted = false) .IntegrityError).always Ok Q R v := by
  induction l generalizing v E with
  | nil => exact h v.db E (.refl hE) rfl rfl fun m hm => by simpa using hm
  | cons a l ih =>
      obtain ⟨j, amount⟩ := a
      refine always_bind (always_bind (always_create (fun x hnew _ => ?_) fun r _ => ?_))
      · refine always_raiseIf (fun hf => by cases hf) fun _ => ?_
        have m₁ := PaymentMoves.put_recipient j { amount := col 8 amount } hE
        refine ih m₁.self (fun db₂ E₂ m₂ hrow hcredits hlists => ?_) hR
        refine h db₂ E₂ (m₁.trans m₂) hrow hcredits fun m hm => ?_
        have hnone : E.recipients j = none := by rw [← hE]; exact hnew
        have := hlists _ (hm.add hnone)
        rwa [List.append_assoc] at this
      · exact always_raiseIf (fun _ => hR _ _) fun hf => absurd rfl hf

end Specs

end Sthrip
