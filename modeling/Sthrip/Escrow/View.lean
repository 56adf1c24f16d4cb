import Sthrip.Services.EscrowService
import Sthrip.Txn.View
import Mathlib.Algebra.BigOperators.Group.Finset.Basic
import Mathlib.Data.Finset.Interval
import Mathlib.Order.Interval.Finset.Nat

set_option autoImplicit false

/-! # The deals of a database

What a database says about one deal: its row, its milestones, and what has been paid out for it
(`Escrow`). `escrows db` is the map of all deals. Everything the escrow service does to a
database moves one deal of this map (`DealMoves`); balances and reputations are not in it.

The lemmas below say how the repositories move a deal. The rest of the development reads the
service's methods through them.
-/

namespace Sthrip

open Txn Prog

/-! ## One deal -/

/-- A deal, its milestones by sequence number, and the amount paid out for it. -/
@[ext] structure Escrow where
  deal : Option EscrowDeal := none
  milestone : ℕ → Option EscrowMilestone := fun _ => none
  paid : ℚ := 0

namespace Escrow

def setDeal (E : Escrow) (deal : EscrowDeal) : Escrow := { E with deal := some deal }

def setMilestone (E : Escrow) (j : ℕ) (ms : EscrowMilestone) : Escrow :=
  { E with milestone := Function.update E.milestone j (some ms) }

def pay (E : Escrow) (x : ℚ) : Escrow := { E with paid := E.paid + x }

/-- Change every milestone. -/
def mapMilestones (E : Escrow) (f : EscrowMilestone → EscrowMilestone) : Escrow :=
  { E with milestone := fun j => (E.milestone j).map f }

@[simp] theorem setDeal_deal (E : Escrow) (deal : EscrowDeal) :
    (E.setDeal deal).deal = some deal := rfl
@[simp] theorem setDeal_milestone (E : Escrow) (deal : EscrowDeal) :
    (E.setDeal deal).milestone = E.milestone := rfl
@[simp] theorem setDeal_paid (E : Escrow) (deal : EscrowDeal) :
    (E.setDeal deal).paid = E.paid := rfl
@[simp] theorem setMilestone_deal (E : Escrow) (j : ℕ) (ms : EscrowMilestone) :
    (E.setMilestone j ms).deal = E.deal := rfl
@[simp] theorem setMilestone_self (E : Escrow) (j : ℕ) (ms : EscrowMilestone) :
    (E.setMilestone j ms).milestone j = some ms := Function.update_self ..
@[simp] theorem setMilestone_paid (E : Escrow) (j : ℕ) (ms : EscrowMilestone) :
    (E.setMilestone j ms).paid = E.paid := rfl
@[simp] theorem pay_deal (E : Escrow) (x : ℚ) : (E.pay x).deal = E.deal := rfl
@[simp] theorem pay_milestone (E : Escrow) (x : ℚ) : (E.pay x).milestone = E.milestone := rfl
@[simp] theorem pay_paid (E : Escrow) (x : ℚ) : (E.pay x).paid = E.paid + x := rfl
@[simp] theorem mapMilestones_deal (E : Escrow) (f : EscrowMilestone → EscrowMilestone) :
    (E.mapMilestones f).deal = E.deal := rfl
@[simp] theorem mapMilestones_paid (E : Escrow) (f : EscrowMilestone → EscrowMilestone) :
    (E.mapMilestones f).paid = E.paid := rfl

theorem setMilestone_ne (E : Escrow) {j i : ℕ} (ms : EscrowMilestone) (h : i ≠ j) :
    (E.setMilestone j ms).milestone i = E.milestone i := Function.update_of_ne h ..

theorem pay_pay (E : Escrow) (x y : ℚ) : (E.pay x).pay y = E.pay (x + y) := by
  simp only [pay, add_assoc]

theorem pay_zero (E : Escrow) : E.pay 0 = E := by
  simp only [pay, add_zero]

end Escrow

/-! ## The deals of a database -/

/-- What an entry pays out for a deal: a credit, or a fee recorded for it. -/
def Entry.paidFor (deal_id : Id) : Entry → ℚ
  | .posting p => if p.ref = .escrow deal_id then max p.amount 0 else 0
  | .fee f => if f.source_type = "escrow" ∧ f.source_id = some deal_id then f.amount else 0
  | _ => 0

def escrows (db : DB schema) (deal_id : Id) : Escrow where
  deal := db.rows (Key.deal deal_id)
  milestone j := db.rows (Key.milestone deal_id j)
  paid := (db.log.map (Entry.paidFor deal_id)).sum

@[simp] theorem escrows_deal (db : DB schema) (d : Id) :
    (escrows db d).deal = db.rows (Key.deal d) := rfl
@[simp] theorem escrows_milestone (db : DB schema) (d : Id) (j : ℕ) :
    (escrows db d).milestone j = db.rows (Key.milestone d j) := rfl

/-- From `db` to `db'`, the deal `e` becomes `E` and the other deals stay as they are. -/
abbrev DealMoves (db db' : DB schema) (e : Id) (E : Escrow) : Prop := Moves escrows db db' e E

namespace DealMoves

variable {db : DB schema} {e : Id} {E : Escrow}

/-- A row of another table. -/
theorem put {k : Key} (row : Row k) (hd : ∀ d, Key.deal d ≠ k)
    (hm : ∀ d j, Key.milestone d j ≠ k) (h : escrows db e = E) :
    DealMoves db (db.put k row) e E := by
  refine .of_same (fun d => Escrow.ext ?_ (funext fun j => ?_) rfl) h
  · simp only [escrows_deal, DB.put_rows_ne db row (hd d)]
  · simp only [escrows_milestone, DB.put_rows_ne db row (hm d j)]

theorem put_deal (deal : EscrowDeal) (h : escrows db e = E) :
    DealMoves db (db.put (Key.deal e) deal) e (E.setDeal deal) := by
  have hm : ∀ d j, (db.put (Key.deal e) deal).rows (Key.milestone d j)
      = db.rows (Key.milestone d j) := by
    intro d j
    exact DB.put_rows_ne _ _ (by simp)
  refine .of_change ?_ fun d hd => Escrow.ext ?_ (funext fun j => hm d j) rfl
  · rw [← h]
    refine Escrow.ext ?_ (funext fun j => hm e j) rfl
    simp only [escrows_deal, Escrow.setDeal_deal]
    exact DB.put_rows_self ..
  · simp only [escrows_deal]
    exact DB.put_rows_ne _ _ (by simp [hd])

theorem put_milestone (j : ℕ) (ms : EscrowMilestone) (h : escrows db e = E) :
    DealMoves db (db.put (Key.milestone e j) ms) e (E.setMilestone j ms) := by
  have hdeal : ∀ d, (db.put (Key.milestone e j) ms).rows (Key.deal d) = db.rows (Key.deal d) := by
    intro d
    exact DB.put_rows_ne _ _ (by simp)
  refine .of_change ?_ fun d hd => Escrow.ext (hdeal d) (funext fun i => ?_) rfl
  · rw [← h]
    refine Escrow.ext (hdeal e) (funext fun i => ?_) rfl
    by_cases hi : i = j
    · subst hi
      rw [Escrow.setMilestone_self, escrows_milestone]
      exact DB.put_rows_self ..
    · rw [Escrow.setMilestone_ne _ _ hi, escrows_milestone]
      exact DB.put_rows_ne _ _ (by simp [hi])
  · rw [escrows_milestone]
    exact DB.put_rows_ne _ _ (by simp [hd])

/-- An entry that pays `x` out for `e` and nothing for the other deals. -/
theorem append {a : Entry} {x : ℚ} (hx : a.paidFor e = x) (hd : ∀ d, d ≠ e → a.paidFor d = 0)
    (h : escrows db e = E) : DealMoves db (db.append a) e (E.pay x) := by
  have hsum : ∀ d, (escrows (db.append a) d).paid = (escrows db d).paid + a.paidFor d := by
    intro d
    simp only [escrows, DB.append_log, List.map_append, List.map_singleton, List.sum_append,
      List.sum_singleton]
  refine .of_change ?_ fun d hne => Escrow.ext rfl rfl (by rw [hsum, hd d hne, add_zero])
  rw [← h]
  exact Escrow.ext rfl rfl (hx ▸ hsum e)

end DealMoves

/-! ## How the repositories move a deal -/

section Specs

variable {col : Columns} {Ok : StepCond schema} {R : Exn → Solo schema → Prop}
  {v : Solo schema} {e : Id} {E : Escrow}

theorem updateDeal_always {guard : EscrowDeal → Bool} {set : EscrowDeal → EscrowDeal}
    {Q : Bool → Solo schema → Prop} (hE : escrows v.db e = E)
    (hit : ∀ deal x db', E.deal = some deal → guard deal = true →
      Ok v (.update (Key.deal e) guard set) x → DealMoves v.db db' e (E.setDeal (set deal)) →
      Q true { v with db := db' })
    (miss : (∀ deal, E.deal = some deal → guard deal = false) → Q false v) :
    (update (S := schema) (Key.deal e) guard set).always Ok Q R v := by
  subst hE
  exact always_update (fun deal x hd hg hok => hit deal x _ hd hg hok (.put_deal _ rfl)) miss

theorem assignDeal_always {deal : EscrowDeal} {set : EscrowDeal → EscrowDeal}
    {Q : Unit → Solo schema → Prop} (hE : escrows v.db e = E) (hd : E.deal = some deal)
    (h : ∀ db', DealMoves v.db db' e (E.setDeal (set deal)) → Q () { v with db := db' }) :
    (assign (S := schema) (Key.deal e) set).always Ok Q R v := by
  subst hE
  exact always_assign hd (h _ (.put_deal _ rfl))

/-- A new deal waits to be accepted. -/
theorem createDeal_always {buyer_id seller_id : Id} {amount fee_percent : ℚ}
    {description : String} {accept_timeout delivery_timeout review_timeout : ℤ}
    {Q : EscrowDeal → Solo schema → Prop} (hE : escrows v.db e = E)
    (h : ∀ deal db', E.deal = none → deal.amount = col 12 amount →
      deal.fee_percent = col 4 fee_percent → deal.status = .CREATED →
      deal.is_multi_milestone = false → DealMoves v.db db' e (E.setDeal deal) →
      Q deal { v with db := db' })
    (hR : ∀ x, R x v) :
    (EscrowRepository.create col e buyer_id seller_id amount description accept_timeout
      delivery_timeout review_timeout fee_percent).always Ok Q R v := by
  refine always_bind (always_now fun t => always_bind (always_create (fun _ hnew _ => ?_) fun r hr =>
    always_bind (always_raiseIf (fun _ => hR _) fun hf => absurd rfl hf)))
  refine always_bind (always_raiseIf (fun hf => by cases hf) fun _ => ?_)
  subst hE
  exact h _ _ hnew rfl rfl rfl rfl (.put_deal _ rfl)

theorem updateMilestone_always {j : ℕ} {guard : EscrowMilestone → Bool}
    {set : EscrowMilestone → EscrowMilestone} {Q : Bool → Solo schema → Prop}
    (hE : escrows v.db e = E)
    (hit : ∀ ms x db', E.milestone j = some ms → guard ms = true →
      Ok v (.update (Key.milestone e j) guard set) x →
      DealMoves v.db db' e (E.setMilestone j (set ms)) → Q true { v with db := db' })
    (miss : (∀ ms, E.milestone j = some ms → guard ms = false) → Q false v) :
    (update (S := schema) (Key.milestone e j) guard set).always Ok Q R v := by
  subst hE
  exact always_update (fun ms x hm hg hok => hit ms x _ hm hg hok (.put_milestone j _ rfl)) miss

theorem posted_moves {db : DB schema} (agent_id : Id) (token : Token) (b : AgentBalance)
    (amount : ℚ) (hE : escrows db e = E) :
    DealMoves db (BalanceRepository.posted db agent_id token b amount (.escrow e)) e
      (E.pay (max amount 0)) := by
  have hput : DealMoves db (db.put (Key.balance agent_id token) b) e E :=
    .put _ (by simp) (by simp) hE
  refine hput.trans (DealMoves.append ?_ (fun d hd => ?_) hput.self)
  · simp [Entry.paidFor]
  · simp [Entry.paidFor, hd.symm]

theorem credit_escrow {agent_id : Id} {amount : ℚ} {token : Token}
    {Q : AgentBalance → Solo schema → Prop} (hE : escrows v.db e = E)
    (h : ∀ b db', DealMoves v.db db' e (E.pay (max amount 0)) → Q b { v with db := db' }) :
    (BalanceRepository.credit col agent_id amount token (.escrow e)).always Ok Q R v :=
  BalanceRepository.credit_always fun _ _ => h _ _ (posted_moves _ _ _ _ hE)

theorem creditPositive_escrow {agent_id : Id} {amount : ℚ} {token : Token}
    {Q : Unit → Solo schema → Prop} (hE : escrows v.db e = E)
    (h : ∀ db', DealMoves v.db db' e (E.pay (max amount 0)) → Q () { v with db := db' }) :
    (onlyIf (0 < amount)
      (BalanceRepository.credit col agent_id amount token (.escrow e))).always Ok Q R v := by
  refine always_onlyIf (fun _ => credit_escrow hE fun _ => h) fun hpos => ?_
  refine h v.db ?_
  rw [max_eq_right (not_lt.mp hpos), Escrow.pay_zero]
  exact .refl hE

theorem recordFee_escrow {amount : ℚ} {token : Token} {Q : Unit → Solo schema → Prop}
    (hE : escrows v.db e = E)
    (h : ∀ db', DealMoves v.db db' e (E.pay (if 0 < amount then col 12 amount else 0)) →
      Q () { v with db := db' }) :
    (recordFee col e token amount).always Ok Q R v := by
  refine always_onlyIf (fun hpos => always_insert (h _ (.append ?_ (fun d hd => ?_) hE)))
    fun hpos => h v.db ?_
  · simp [Entry.paidFor, hpos]
  · simp [Entry.paidFor, hd.symm]
  · rw [if_neg hpos, Escrow.pay_zero]
    exact .refl hE

theorem deduct_escrow {agent_id : Id} {amount : ℚ} {token : Token}
    {Q : AgentBalance → Solo schema → Prop} (hE : escrows v.db e = E) (ha : 0 ≤ amount)
    (h : ∀ b db', DealMoves v.db db' e E → Q b { v with db := db' })
    (hR : ∀ x db', R x { v with db := db' }) :
    (BalanceRepository.deduct col agent_id amount token (.escrow e)).always Ok Q R v := by
  refine BalanceRepository.deduct_always (fun b _ _ => h _ _ ?_) hR
  have := posted_moves agent_id token { b with available := col 12 (b.available - amount) }
    (-amount) hE
  rwa [max_eq_right (neg_nonpos.mpr ha), Escrow.pay_zero] at this

theorem adjustTrust_escrow {agent_id : Id} {delta : ℤ} {Q : Unit → Solo schema → Prop}
    (hE : escrows v.db e = E) (h : ∀ db', DealMoves v.db db' e E → Q () { v with db := db' }) :
    (adjustTrust agent_id delta).always Ok Q R v := by
  refine always_onlyIf (fun _ => always_bind (always_now fun t => ?_)) fun _ => h _ (.refl hE)
  exact always_update (fun r _ _ _ _ => h _ (.put _ (by simp) (by simp) hE))
    fun _ => h _ (.refl hE)

theorem applyCompletionTrust_escrow {buyer_id seller_id : Id} {release_amount escrow_amount : ℚ}
    {Q : Unit → Solo schema → Prop} (hE : escrows v.db e = E)
    (h : ∀ db', DealMoves v.db db' e E → Q () { v with db := db' }) :
    (applyCompletionTrust buyer_id seller_id release_amount escrow_amount).always Ok Q R v := by
  unfold applyCompletionTrust
  split
  · exact h _ (.refl hE)
  · split
    · refine always_bind (adjustTrust_escrow hE fun db₁ m₁ => ?_)
      exact adjustTrust_escrow m₁.self fun db₂ m₂ => h db₂ (m₁.trans m₂)
    · split
      · exact adjustTrust_escrow hE h
      · split
        · exact adjustTrust_escrow hE h
        · exact adjustTrust_escrow hE h

theorem getByIdForUpdate_always {Q : Option EscrowDeal → Solo schema → Prop}
    (hE : escrows v.db e = E) (h : Q E.deal v) :
    (EscrowRepository.getByIdForUpdate e).always Ok Q R v :=
  always_selectForUpdate (by subst hE; exact h)

theorem getMilestoneForUpdate_always {j : ℕ} {Q : Option EscrowMilestone → Solo schema → Prop}
    (hE : escrows v.db e = E) (h : Q (E.milestone j) v) :
    (MilestoneRepository.getByEscrowAndSequenceForUpdate e j).always Ok Q R v :=
  always_selectForUpdate (by subst hE; exact h)

theorem getById_always {Q : Option EscrowDeal → Solo schema → Prop}
    (hE : escrows v.db e = E) (h : Q E.deal v) :
    (EscrowRepository.getById e).always Ok Q R v :=
  always_select (by subst hE; exact h)

/-- The row of a deal that was there a moment ago. -/
theorem refetch_always {deal : EscrowDeal} {x : Exn} {Q : EscrowDeal → Solo schema → Prop}
    (hE : escrows v.db e = E) (hd : E.deal = some deal) (h : Q deal v) :
    ((EscrowRepository.getById e).bind (orRaise x)).always Ok Q R v := by
  refine always_bind (getById_always hE ?_)
  rw [hd]
  exact h

/-! ### Milestones -/

/-- The milestone after `cancel_pending` at time `t`. -/
def EscrowMilestone.cancelled (t : Time) (ms : EscrowMilestone) : EscrowMilestone :=
  if ms.status = .PENDING then { ms with status := .CANCELLED, cancelled_at := some t } else ms

/-- `cancel_pending` with the milestones of `keys` still to do. -/
private def cancelling (E : Escrow) (e : Id) (t : Time) (keys : List Key) : Escrow :=
  { E with
    milestone := fun j => (E.milestone j).map fun ms =>
      if Key.milestone e j ∈ keys then ms else ms.cancelled t }

private theorem cancelling_cons {t : Time} {j : ℕ} {keys : List Key} (E' : Escrow)
    (hj : Key.milestone e j ∉ keys) (hdeal : E'.deal = E.deal) (hpaid : E'.paid = E.paid)
    (hself : E'.milestone j = (E.milestone j).map (·.cancelled t))
    (hne : ∀ i, i ≠ j →
      E'.milestone i = (cancelling E e t (Key.milestone e j :: keys)).milestone i) :
    E' = cancelling E e t keys := by
  refine Escrow.ext hdeal (funext fun i => ?_) hpaid
  by_cases hi : i = j
  · subst hi
    rw [hself]
    simp only [cancelling, hj, if_false]
  · rw [hne i hi]
    simp [cancelling, hi]

theorem cancelPending_escrow {Q : Unit → Solo schema → Prop} (hE : escrows v.db e = E)
    (h : ∀ t db', DealMoves v.db db' e (E.mapMilestones (·.cancelled t)) →
      Q () { v with db := db' }) :
    (MilestoneRepository.cancelPending e).always Ok Q R v := by
  refine always_bind (always_now fun t => always_bind (always_scan fun keys hkeys hwf => ?_))
  have hmem := fun k => hwf.mem_of_perm hkeys (k := k)
  let Inv : List Key → Solo schema → Prop := fun l v' => ∃ db', v' = { v with db := db' } ∧
    DealMoves v.db db' e (cancelling E e t l) ∧ l.Nodup ∧ ∀ k ∈ l, ∃ j, k = Key.milestone e j
  have hstart : Inv keys v := by
    refine ⟨v.db, rfl, .refl ?_, hwf.nodup_of_perm hkeys, fun k hk => ?_⟩
    · subst hE
      refine Escrow.ext rfl (funext fun j => ?_) rfl
      cases hrow : v.db.rows (Key.milestone e j) with
      | none => simp [cancelling, hrow]
      | some ms =>
          by_cases hk : Key.milestone e j ∈ keys
          · simp [cancelling, hrow, hk]
          · have hp : ¬ms.status = .PENDING := fun hp =>
              hk ((hmem _).mpr ⟨ms, hrow, by simp [MilestoneRepository.pendingOf, hp]⟩)
            simp [cancelling, hrow, hk, EscrowMilestone.cancelled, hp]
    · obtain ⟨r, -, hr⟩ := (hmem k).mp hk
      cases k with
      | milestone escrow j =>
          simp only [MilestoneRepository.pendingOf, decide_eq_true_eq] at hr
          exact ⟨j, by rw [hr.1]⟩
      | _ => simp [MilestoneRepository.pendingOf] at hr
  refine always_mono (always_forEach Inv (fun k l v' hv' => ?_) keys hstart)
    (fun _ v' hv' => ?_) fun _ _ hr => hr
  · obtain ⟨db', rfl, hmoves, hnodup, hform⟩ := hv'
    obtain ⟨j, rfl⟩ := hform k (by simp)
    rw [List.nodup_cons] at hnodup
    have hj : (cancelling E e t (Key.milestone e j :: l)).milestone j = E.milestone j := by
      simp [cancelling]
    have hrest : ∀ k ∈ l, ∃ j, k = Key.milestone e j := fun k hk => hform k (by simp [hk])
    refine always_bind (updateMilestone_always hmoves.self (fun ms _ db₁ hms hg _ hm => ?_)
      fun hmiss => ?_)
    · refine ⟨db₁, rfl, ?_, hnodup.2, hrest⟩
      rw [hj] at hms
      simp only [decide_eq_true_eq] at hg
      have heq := cancelling_cons (E := E) (t := t)
        ((cancelling E e t (Key.milestone e j :: l)).setMilestone j
          { ms with status := .CANCELLED, cancelled_at := some t }) hnodup.1 rfl rfl
        (by rw [Escrow.setMilestone_self, hms]; simp [EscrowMilestone.cancelled, hg])
        fun i hi => Escrow.setMilestone_ne _ _ hi
      exact heq ▸ hmoves.trans hm
    · refine ⟨db', rfl, ?_, hnodup.2, hrest⟩
      have hself : E.milestone j = (E.milestone j).map (·.cancelled t) := by
        rw [hj] at hmiss
        cases hms : E.milestone j with
        | none => rfl
        | some ms =>
            have := hmiss ms hms
            simp only [decide_eq_false_iff_not] at this
            simp [EscrowMilestone.cancelled, this]
      have heq := cancelling_cons (E := E) (t := t) (cancelling E e t (Key.milestone e j :: l))
        hnodup.1 rfl rfl (hj.trans hself) fun i _ => rfl
      exact heq ▸ hmoves
  · obtain ⟨db', rfl, hmoves, -⟩ := hv'
    refine h t db' ?_
    simpa [cancelling, Escrow.mapMilestones] using hmoves

theorem getByEscrow_always {Q : List (ℕ × EscrowMilestone) → Solo schema → Prop}
    (hE : escrows v.db e = E)
    (h : ∀ l, l.Nodup → (∀ j ms, (j, ms) ∈ l ↔ E.milestone j = some ms) → Q l v) :
    (MilestoneRepository.getByEscrow e).always Ok Q R v := by
  subst hE
  refine always_bind (always_query fun l hnodup hmem => h _ ?_ fun j ms => ?_)
  · refine (List.perm_insertionSort _ _).nodup_iff.mpr
      (List.Nodup.filterMap (fun x y m hx hy => ?_) (.of_map _ hnodup))
    have hnum : ∀ z : Σ k, Row k, MilestoneRepository.numbered e z = some m →
        z = ⟨Key.milestone e m.1, m.2⟩ := by
      rintro ⟨k, r⟩ hz
      cases k <;> simp [MilestoneRepository.numbered] at hz
      obtain ⟨rfl, rfl⟩ := hz
      rfl
    rw [hnum x hx, hnum y hy]
  · rw [(List.perm_insertionSort _ _).mem_iff, List.mem_filterMap]
    constructor
    · rintro ⟨⟨k, r⟩, hin, hnum⟩
      have hrow := ((hmem k r).mp hin).1
      cases k <;> simp [MilestoneRepository.numbered] at hnum
      obtain ⟨rfl, rfl, rfl⟩ := hnum
      exact hrow
    · intro hrow
      refine ⟨⟨Key.milestone e j, ms⟩, (hmem _ _).mpr ⟨hrow, ?_⟩, ?_⟩
      · simp [MilestoneRepository.ofEscrow]
      · simp [MilestoneRepository.numbered]

/-- The number of milestones up to the `k`-th, counted over the rows. -/
theorem countP_upto {l : List (ℕ × EscrowMilestone)} {p : ℕ × EscrowMilestone → Bool} {n k : ℕ}
    (hnodup : l.Nodup) (hmem : ∀ j ms, (j, ms) ∈ l ↔ E.milestone j = some ms)
    (hdom : ∀ j, (E.milestone j).isSome ↔ 1 ≤ j ∧ j ≤ n) (hk : k ≤ n)
    (hp : ∀ j ms, E.milestone j = some ms → (p (j, ms) = true ↔ j ≤ k)) : l.countP p = k := by
  have hfst : ((l.filter p).map Prod.fst).Nodup := by
    refine (hnodup.filter _).map_on fun x hx y hy hxy => ?_
    have hx' := (hmem x.1 x.2).mp (List.mem_of_mem_filter hx)
    have hy' := (hmem y.1 y.2).mp (List.mem_of_mem_filter hy)
    rw [hxy, hy', Option.some.injEq] at hx'
    exact Prod.ext hxy hx'.symm
  have hset : ((l.filter p).map Prod.fst).toFinset = Finset.Icc 1 k := by
    ext j
    simp only [List.mem_toFinset, List.mem_map, List.mem_filter, Finset.mem_Icc]
    constructor
    · rintro ⟨⟨i, ms⟩, ⟨hin, hpi⟩, rfl⟩
      have hms := (hmem i ms).mp hin
      exact ⟨((hdom i).mp (by simp [hms])).1, (hp i ms hms).mp hpi⟩
    · rintro ⟨h1, hjk⟩
      obtain ⟨ms, hms⟩ := Option.isSome_iff_exists.mp ((hdom j).mpr ⟨h1, hjk.trans hk⟩)
      exact ⟨(j, ms), ⟨(hmem j ms).mpr hms, (hp j ms hms).mpr hjk⟩, rfl⟩
  calc l.countP p = ((l.filter p).map Prod.fst).length := by
        rw [List.length_map, List.countP_eq_length_filter]
    _ = (Finset.Icc 1 k).card := by rw [← hset, List.toFinset_card_of_nodup hfst]
    _ = k := by simp

/-- The milestone after `activate` at time `t`. -/
def EscrowMilestone.activated (t : Time) (ms : EscrowMilestone) : EscrowMilestone :=
  { ms with
    status := .ACTIVE, activated_at := some t
    delivery_deadline := some (t + hours ms.delivery_timeout_hours)
    expires_at := some (t + hours ms.delivery_timeout_hours) }

theorem activateNext_escrow {j : ℕ} {Q : Unit → Solo schema → Prop} (hE : escrows v.db e = E)
    (hit : ∀ ms t db', E.milestone j = some ms → ms.status = .PENDING →
      DealMoves v.db db' e (E.setMilestone j (ms.activated t)) → Q () { v with db := db' })
    (miss : (∀ ms, E.milestone j = some ms → ms.status ≠ .PENDING) → Q () v) :
    (activateNext e j).always Ok Q R v := by
  refine always_bind (always_select ?_)
  have hrow : v.db.rows (Key.milestone e j) = E.milestone j := by rw [← hE]; rfl
  rw [hrow]
  cases hms : E.milestone j with
  | none => exact miss fun ms h => by rw [hms] at h; cases h
  | some ms =>
      have hsome : ∀ ms', E.milestone j = some ms' → ms' = ms := fun ms' h => by
        rw [hms, Option.some.injEq] at h
        exact h.symm
      refine always_onlyIf (fun hp => always_bind (always_now fun t => ?_)) fun hp => ?_
      · refine updateMilestone_always hE (fun ms' x db' hms' _ _ hm => ?_) fun hmiss => ?_
        · obtain rfl := hsome ms' hms'
          exact hit ms' t db' hms' hp hm
        · exact miss fun ms' h hp' => by simpa [hp'] using hmiss ms' h
      · exact miss fun ms' h => hsome ms' h ▸ hp

end Specs

end Sthrip
