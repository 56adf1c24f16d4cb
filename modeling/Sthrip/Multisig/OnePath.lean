import Sthrip.Escrow.Payout
import Sthrip.Escrow.Sequence
import Sthrip.Services.MultisigCoordinator

set_option autoImplicit false

/-! # A multisig escrow is paid through one path

A multisig escrow has two owners: the coordinator collects a fee upfront and pays the rest when a
release is cosigned, and the escrow service may pay out the deal that the escrow is linked to, from
hub balances, as if it were any deal. Each path alone stays within what the buyer has paid; both
together do not.

`NotPaidOut d` is the condition that the escrow service does not pay out the deal `d`.
-/

namespace Sthrip

open Txn Prog

/-! ## The amounts -/

/-- What an entry takes off a balance for a deal. -/
def Entry.deductedFor (deal_id : Id) : Entry → ℚ
  | .posting p => if p.ref = .escrow deal_id then max (-p.amount) 0 else 0
  | _ => 0

/-- What has been deducted for a deal. -/
def deducted (db : DB schema) (deal_id : Id) : ℚ := (db.log.map (Entry.deductedFor deal_id)).sum

theorem Entry.deductedFor_nonneg (d : Id) (a : Entry) : 0 ≤ a.deductedFor d := by
  unfold Entry.deductedFor
  split
  · split
    · exact le_max_right _ _
    · exact le_rfl
  · exact le_rfl

theorem deducted_append (db : DB schema) (d : Id) (a : Entry) :
    deducted (db.append a) d = deducted db d + a.deductedFor d := by
  simp only [deducted, DB.append_log, List.map_append, List.map_singleton, List.sum_append,
    List.sum_singleton]

namespace MultisigEscrow

/-- What a release pays out. -/
def funded (ms : MultisigEscrow) : ℚ := ms.funded_amount.getD 0

/-- What has been paid out of the wallet. -/
def paidOut (ms : MultisigEscrow) : ℚ := if ms.state = "completed" then ms.funded else 0

/-- The columns that never change. -/
def link (ms : MultisigEscrow) : Id × ℚ × Option ℚ :=
  (ms.escrow_deal_id, ms.fee_collected, ms.funded_amount)

end MultisigEscrow

namespace MultisigCoordinator

theorem upfrontFee_nonneg {amount : ℚ} (h : 0 ≤ amount) : 0 ≤ upfrontFee amount :=
  quantize_nonneg 8 (mul_nonneg h (by norm_num [feePercent]))

theorem upfrontFee_le {amount : ℚ} (h : 0 ≤ amount) : upfrontFee amount ≤ amount := by
  have hscaled : 0 ≤ amount * feePercent * 10 ^ 8 := by
    refine mul_nonneg (mul_nonneg h ?_) (by positivity)
    norm_num [feePercent]
  have hround := roundHalfEven_le hscaled
  rw [upfrontFee, quantize, div_le_iff₀ (by positivity)]
  refine hround.trans ?_
  rw [feePercent]
  linarith

/-- The fee and the funded part make up the amount, at the scale of their columns. -/
theorem fee_add_funded {amount : ℚ} (h : 0 ≤ amount) :
    numeric 8 (upfrontFee amount) + numeric 8 (amount - upfrontFee amount) = numeric 8 amount := by
  have hmem : upfrontFee amount ∈ decimals 8 := quantize_mem 8 _
  have hsum := numeric_add hmem (upfrontFee_nonneg h) (sub_nonneg.mpr (upfrontFee_le h))
  rw [add_sub_cancel] at hsum
  rw [numeric_of_mem hmem, hsum]

end MultisigCoordinator

/-! ## What the buyer has paid covers the escrow -/

/-- The escrows linked to the deal are covered by what was deducted for it since the start, when it
was `start`; and at least `amount` has been deducted. -/
structure Covered (d : Id) (start amount : ℚ) (db : DB schema) : Prop where
  deducted : start + amount ≤ deducted db d
  linked : ∀ m (ms : MultisigEscrow), db.rows (Key.multisig m) = some ms → ms.escrow_deal_id = d →
    start + (ms.fee_collected + ms.funded) ≤ Sthrip.deducted db d ∧ 0 ≤ ms.funded

/-- The statement leaves the links as they are. -/
def LinksKept : Stmt schema → Prop
  | .update (Key.multisig _) _ set => ∀ ms, (set ms).link = ms.link
  | .assign (Key.multisig _) set => ∀ ms, (set ms).link = ms.link
  | .create (Key.multisig _) _ => False
  | .call _ => False
  | .commit => False
  | .rollback => False
  | _ => True

namespace Covered

variable {d : Id} {start amount : ℚ} {db : DB schema}

theorem put_other (h : Covered d start amount db) {k : Key} (hk : ∀ m, Key.multisig m ≠ k)
    (row : Row k) : Covered d start amount (db.put k row) := by
  refine ⟨h.deducted, fun m ms hr hd => h.linked m ms ?_ hd⟩
  rwa [DB.put_rows_ne db row (hk m)] at hr

theorem put_multisig (h : Covered d start amount db) {m : Id} {ms ms' : MultisigEscrow}
    (hr : db.rows (Key.multisig m) = some ms) (hl : ms'.link = ms.link) :
    Covered d start amount (db.put (Key.multisig m) ms') := by
  simp only [MultisigEscrow.link, Prod.mk.injEq] at hl
  obtain ⟨hdeal, hfee, hfunded⟩ := hl
  refine ⟨h.deducted, fun m' ms₁ h₁ hd => ?_⟩
  by_cases hm : m' = m
  · subst hm
    rw [DB.put_rows_self, Option.some.injEq] at h₁
    subst h₁
    rw [MultisigEscrow.funded, hfee, hfunded]
    exact h.linked m' ms hr (hdeal ▸ hd)
  · rw [DB.put_rows_ne db _ (by simp [hm])] at h₁
    exact h.linked m' ms₁ h₁ hd

theorem append (h : Covered d start amount db) (a : Entry) :
    Covered d start amount (db.append a) := by
  have hle : Sthrip.deducted db d ≤ Sthrip.deducted (db.append a) d := by
    rw [deducted_append]
    exact le_add_of_nonneg_right (a.deductedFor_nonneg d)
  exact ⟨h.deducted.trans hle, fun m ms hr hd =>
    ⟨(h.linked m ms hr hd).1.trans hle, (h.linked m ms hr hd).2⟩⟩

/-- One statement. -/
theorem eval (s : Stmt schema) (x : Input schema) (v : Solo schema) (hs : LinksKept s)
    (h : Covered d start amount v.db) :
    Covered d start amount (s.eval x v).2.db ∧ (s.eval x v).2.saved = v.saved := by
  cases s with
  | update k guard set =>
      simp only [Stmt.eval]
      split
      · next r hr =>
          split
          · refine ⟨?_, rfl⟩
            cases k with
            | multisig m => exact h.put_multisig hr (hs r)
            | _ => exact h.put_other (by simp) _
          · exact ⟨h, rfl⟩
      · exact ⟨h, rfl⟩
  | assign k set =>
      simp only [Stmt.eval]
      split
      · next r hr =>
          refine ⟨?_, rfl⟩
          cases k with
          | multisig m => exact h.put_multisig hr (hs r)
          | _ => exact h.put_other (by simp) _
      · exact ⟨h, rfl⟩
  | create k row =>
      simp only [Stmt.eval]
      split
      · exact ⟨h, rfl⟩
      · refine ⟨?_, rfl⟩
        cases k with
        | multisig m => exact hs.elim
        | _ => exact h.put_other (by simp) _
  | insert a => exact ⟨h.append a, rfl⟩
  | commit => exact hs.elim
  | rollback => exact hs.elim
  | call op => exact hs.elim
  | _ => exact ⟨h, rfl⟩

end Covered

theorem allows_linksKept (e : Id) : EscrowService.Allows LinksKept e where
  now := trivial
  select _ := trivial
  scan _ := trivial
  lock := trivial
  update _ _ _ := trivial
  lockMilestone _ _ := trivial
  updateMilestone _ _ _ _ _ := trivial
  balance _ _ := ⟨trivial, trivial, fun _ => trivial⟩
  posting _ _ := trivial
  fee _ _ := trivial
  reputation _ _ _ := trivial

/-! ## What the escrow service pays out -/

/-- The update of `EscrowRepository.release`. -/
def releaseUpdate (deal_id : Id) (now : Time) (release_amount fee_amount : ℚ) : Stmt schema :=
  .update (Key.deal deal_id) (fun deal => deal.status = .DELIVERED) fun deal => { deal with
    status := .COMPLETED, release_amount := some release_amount
    fee_amount := fee_amount, completed_at := some now }

/-- No step of the escrow service pays out the deal `d`: it neither cancels, expires nor releases
it. -/
def NotPaidOut (d : Id) : StepCond schema := fun _ s _ => ∀ now release_amount fee_amount,
  s ≠ cancelUpdate d now ∧ s ≠ expireUpdate d now ∧
    s ≠ releaseUpdate d now release_amount fee_amount

namespace Escrow

/-- The deal has no milestones, and nothing has been paid out for it from hub balances. -/
structure Unpaid (E : Escrow) : Prop where
  milestone : ∀ j, E.milestone j = none
  paid : E.paid = 0
  single : ∀ deal, E.deal = some deal → deal.is_multi_milestone = false

theorem Unpaid.setDeal {E : Escrow} (h : E.Unpaid) {deal : EscrowDeal}
    (hsingle : deal.is_multi_milestone = false) : (E.setDeal deal).Unpaid := by
  refine ⟨h.milestone, h.paid, fun deal' hd => ?_⟩
  obtain rfl := Option.some.inj hd
  exact hsingle

end Escrow

open Escrow

/-- A program moved deal `e`, and if this is `d` it paid nothing out for it. -/
def Spares (d e : Id) (v v' : Solo schema) : Prop :=
  ∃ db' E', v' = { v with db := db' } ∧ DealMoves v.db db' e E' ∧
    (e = d → (escrows v.db e).Unpaid → E'.Unpaid)

theorem Spares.unpaid {d e : Id} {v v' : Solo schema} (h : Spares d e v v')
    (hu : (escrows v.db d).Unpaid) : (escrows v'.db d).Unpaid := by
  obtain ⟨db', E', rfl, hm, hE⟩ := h
  exact hm.keeps hE hu

theorem Spares.refl (d e : Id) (v : Solo schema) : Spares d e v v :=
  ⟨v.db, _, rfl, .refl rfl, fun _ h => h⟩

section Methods

variable {d e : Id} {v : Solo schema} {E E' : Escrow} {deal : EscrowDeal} {col : Columns}

theorem Spares.of {db' : DB schema} (hE : escrows v.db e = E) (hm : DealMoves v.db db' e E')
    (h : e = d → E.Unpaid → E'.Unpaid) : Spares d e v { v with db := db' } :=
  ⟨db', E', rfl, hm, fun he hu => h he (hE ▸ hu)⟩

theorem acceptEscrow_spares (seller_id : Id) :
    (EscrowService.acceptEscrow e seller_id).always (NotPaidOut d)
      (fun _ v' => Spares d e v v') (Untouched v) v := by
  generalize hE : escrows v.db e = E
  refine EscrowService.acceptEscrow_always hE (fun _ => rfl) ?_ ?_ ?_
  · intro deal t db' hd _ hsingle m
    exact .of hE m fun _ hu => hu.setDeal hsingle
  · intro deal t ms t' db' hd _ hmulti _ m
    exact .of hE m fun _ hu => absurd hmulti (by simp [hu.single deal hd])
  · intro deal t db' hd _ hmulti _ m
    exact .of hE m fun _ hu => absurd hmulti (by simp [hu.single deal hd])

theorem deliverEscrow_spares (seller_id : Id) :
    (EscrowService.deliverEscrow e seller_id).always (NotPaidOut d)
      (fun _ v' => Spares d e v v') (Untouched v) v := by
  generalize hE : escrows v.db e = E
  refine EscrowService.deliverEscrow_always hE (fun _ => rfl) ?_
  intro deal t db' hd _ hsingle m
  exact .of hE m fun _ hu => hu.setDeal hsingle

theorem releaseEscrow_spares (buyer_id : Id) (release_amount : ℚ) :
    (EscrowService.releaseEscrow col e buyer_id release_amount).always (NotPaidOut d)
      (fun _ v' => Spares d e v v') (Untouched v) v := by
  generalize hE : escrows v.db e = E
  refine EscrowService.releaseEscrow_always hE (fun _ => rfl) ?_
  intro deal t y db₁ db' hd _ _ _ _ _ hok m
  refine .of hE m fun he _ => ?_
  subst he
  exact absurd rfl (hok t _ _).2.2

theorem cancelEscrow_spares (buyer_id : Id) :
    (EscrowService.cancelEscrow col e buyer_id).always (NotPaidOut d)
      (fun _ v' => Spares d e v v') (Untouched v) v := by
  generalize hE : escrows v.db e = E
  refine EscrowService.cancelEscrow_always hE (fun _ => rfl) ?_
  intro deal t y db₁ db' hd _ _ hok m
  refine .of hE m fun he _ => ?_
  subst he
  exact absurd rfl (hok t 0 0).1

theorem resolveSingle_spares {R : Exn → Solo schema → Prop} :
    (EscrowService.resolveSingle col e).always (NotPaidOut d)
      (fun _ v' => Spares d e v v') R v := by
  generalize hE : escrows v.db e = E
  refine EscrowService.resolveSingle_always hE (.refl d e v) ?_ ?_
  · intro deal t y db' hd _ hok m
    refine .of hE m fun he _ => ?_
    subst he
    exact absurd rfl (hok t 0 0).2.1
  · intro deal t y db' hd _ hok m
    refine .of hE m fun he _ => ?_
    subst he
    exact absurd rfl (hok t _ _).2.2

end Methods

/-! ## Statements that pay nothing out for the deal -/

/-- The statement pays nothing out for the deal, and gives no deal milestones. -/
def Calm (d : Id) : Stmt schema → Prop
  | .update (Key.deal _) _ set => ∀ r, (set r).is_multi_milestone = r.is_multi_milestone
  | .assign (Key.deal _) set => ∀ r, (set r).is_multi_milestone = r.is_multi_milestone
  | .create (Key.deal _) row => row.is_multi_milestone = false
  | .create (Key.milestone _ _) _ => False
  | .insert a => a.paidFor d = 0
  | .call _ => False
  | .commit => False
  | .rollback => False
  | _ => True

theorem unpaid_put_deal {d e : Id} {db : DB schema} {deal : EscrowDeal}
    (h : (escrows db d).Unpaid) (hsingle : e = d → deal.is_multi_milestone = false) :
    (escrows (db.put (Key.deal e) deal) d).Unpaid := by
  have hm : DealMoves db _ e _ := DealMoves.put_deal deal rfl
  exact hm.keeps (fun he hu => hu.setDeal (hsingle he)) h

theorem unpaid_put_milestone {d e : Id} {j : ℕ} {db : DB schema} {ms : EscrowMilestone}
    (h : (escrows db d).Unpaid) (hr : (db.rows (Key.milestone e j)).isSome) :
    (escrows (db.put (Key.milestone e j) ms) d).Unpaid := by
  have hm : DealMoves db _ e _ := DealMoves.put_milestone j ms rfl
  refine hm.keeps (fun he hu => ?_) h
  have hnone := hu.milestone j
  rw [escrows_milestone] at hnone
  rw [hnone] at hr
  cases hr

theorem unpaid_put {d : Id} {db : DB schema} {k : Key} {row : Row k} (h : (escrows db d).Unpaid)
    (hd : ∀ e, Key.deal e ≠ k) (hm : ∀ e j, Key.milestone e j ≠ k) :
    (escrows (db.put k row) d).Unpaid := by
  rw [(DealMoves.put row hd hm rfl : DealMoves db (db.put k row) d _).self]
  exact h

/-- A calm statement. -/
theorem Calm.assign {d : Id} {k : Key} {guard : Row k → Bool} {set : Row k → Row k}
    (h : Calm d (.update k guard set)) : Calm d (.assign k set) := by
  cases k with
  | deal e => exact h
  | _ => trivial

theorem unpaid_write {d : Id} {db : DB schema} {k : Key} {r : Row k} {set : Row k → Row k}
    (h : (escrows db d).Unpaid) (hr : db.rows k = some r) (hset : Calm d (.assign k set)) :
    (escrows (db.put k (set r)) d).Unpaid := by
  cases k with
  | deal e =>
      refine unpaid_put_deal h ?_
      rintro rfl
      exact (hset r).trans (h.single r hr)
  | milestone e j => exact unpaid_put_milestone h (by rw [hr]; rfl)
  | _ => exact unpaid_put h (by simp) (by simp)

theorem Calm.eval {d : Id} (s : Stmt schema) (x : Input schema) (v : Solo schema) (hs : Calm d s)
    (h : (escrows v.db d).Unpaid) :
    (escrows (s.eval x v).2.db d).Unpaid ∧ (s.eval x v).2.saved = v.saved := by
  cases s with
  | update k guard set =>
      simp only [Stmt.eval]
      split
      · next r hr =>
          split
          · exact ⟨unpaid_write h hr hs.assign, rfl⟩
          · exact ⟨h, rfl⟩
      · exact ⟨h, rfl⟩
  | assign k set =>
      simp only [Stmt.eval]
      split
      · next r hr => exact ⟨unpaid_write h hr hs, rfl⟩
      · exact ⟨h, rfl⟩
  | create k row =>
      simp only [Stmt.eval]
      split
      · exact ⟨h, rfl⟩
      · refine ⟨?_, rfl⟩
        cases k with
        | deal e => exact unpaid_put_deal h fun _ => hs
        | milestone e j => exact hs.elim
        | _ => exact unpaid_put h (by simp) (by simp)
  | insert a =>
      refine ⟨⟨h.milestone, ?_, h.single⟩, rfl⟩
      have hpaid : (escrows (v.db.append a) d).paid = (escrows v.db d).paid + a.paidFor d := by
        simp only [escrows, DB.append_log, List.map_append, List.map_singleton, List.sum_append,
          List.sum_singleton]
      show (escrows (v.db.append a) d).paid = 0
      rw [hpaid, h.paid, hs, add_zero]
  | commit => exact hs.elim
  | rollback => exact hs.elim
  | call op => exact hs.elim
  | _ => exact ⟨h, rfl⟩

/-- A program with calm statements only. -/
theorem always_calm {α : Type} {p : Program α} {d : Id} {Ok : StepCond schema} {v : Solo schema}
    (hp : p.only (Calm d)) (h : (escrows v.db d).Unpaid) :
    p.always Ok (fun _ v' => (escrows v'.db d).Unpaid ∧ v'.saved = v.saved)
      (fun _ v' => (escrows v'.db d).Unpaid ∧ v'.saved = v.saved) v :=
  always_of_only (I := fun db => (escrows db d).Unpaid) (fun s x v hs => Calm.eval s x v hs) hp h

theorem allows_calm {d e : Id} (he : e ≠ d) : EscrowService.Allows (Calm d) e where
  now := trivial
  select _ := trivial
  scan _ := trivial
  lock := trivial
  update _ _ h := fun r => by cases h <;> rfl
  lockMilestone _ _ := trivial
  updateMilestone _ _ _ _ _ := trivial
  balance _ _ := ⟨trivial, trivial, fun _ => trivial⟩
  posting p hp := by simp [Calm, Entry.paidFor, hp, he]
  fee f hf := by simp [Calm, Entry.paidFor, hf, he]
  reputation _ _ _ := trivial

/-! ## The sessions of the deal -/

section Sessions

variable {d : Id} {col : Columns} {v : Solo schema}

/-- A deal without milestones has none that could expire. -/
theorem resolveMilestoneExpiry_unpaid (e : Id) (j : ℕ) (h : (escrows v.db d).Unpaid) :
    (EscrowService.resolveMilestoneExpiry col e j).always (NotPaidOut d)
      (fun _ v' => (escrows v'.db d).Unpaid ∧ v'.saved = v.saved)
      (fun _ v' => (escrows v'.db d).Unpaid ∧ v'.saved = v.saved) v := by
  by_cases he : e = d
  · subst he
    refine always_bind (getByIdForUpdate_always rfl ?_)
    cases (escrows v.db e).deal with
    | none => exact ⟨h, rfl⟩
    | some deal =>
        by_cases hs : deal.status = .ACCEPTED
        · simp only [hs, ne_eq, not_true_eq_false, if_false]
          refine always_bind (getMilestoneForUpdate_always rfl ?_)
          rw [h.milestone j]
          exact ⟨h, rfl⟩
        · simp only [hs, ne_eq, not_false_eq_true, if_true]
          exact ⟨h, rfl⟩
  · exact always_calm (EscrowService.resolveMilestoneExpiry_only (allows_calm he) j) h

theorem resolveExpired_unpaid (h : (escrows v.db d).Unpaid) :
    (EscrowService.resolveExpired col).always (NotPaidOut d)
      (fun _ v' => (escrows v'.db d).Unpaid ∧ v'.saved = v.saved) (Untouched v) v := by
  refine EscrowService.resolveExpired_always (fun e v₁ h₁ => ?_) (fun e j v₁ h₁ => ?_) ⟨h, rfl⟩
  · refine always_mono (R := fun _ _ => False) resolveSingle_spares (fun _ v₂ hk => ?_)
      fun _ _ h => h.elim
    obtain ⟨db', E', rfl, -⟩ := id hk
    exact ⟨hk.unpaid h₁.1, h₁.2⟩
  · exact always_mono (resolveMilestoneExpiry_unpaid e j h₁.1)
      (fun _ _ h => ⟨h.1, h.2.trans h₁.2⟩) fun _ _ h => ⟨h.1, h.2.trans h₁.2⟩

theorem DealCall.body_unpaid (call : DealCall) (h : (escrows v.db d).Unpaid) :
    (call.body col).always (NotPaidOut d)
      (fun _ v' => (escrows v'.db d).Unpaid ∧ v'.saved = v.saved) (Untouched v) v := by
  have unit : ∀ {α : Type} {e : Id} {p : Program α},
      p.always (NotPaidOut d) (fun _ v' => Spares d e v v') (Untouched v) v →
      (p.bind fun _ => .ret ()).always (NotPaidOut d)
        (fun _ v' => (escrows v'.db d).Unpaid ∧ v'.saved = v.saved) (Untouched v) v := by
    refine fun hp => always_bind (always_mono hp (fun _ v' hk => ?_) fun _ _ hr => hr)
    obtain ⟨db', E', rfl, -⟩ := id hk
    exact ⟨hk.unpaid h, rfl⟩
  cases call with
  | acceptEscrow e a => exact unit (acceptEscrow_spares a)
  | deliverEscrow e a => exact unit (deliverEscrow_spares a)
  | releaseEscrow e a x => exact unit (releaseEscrow_spares a x)
  | cancelEscrow e a => exact unit (cancelEscrow_spares a)
  | resolveExpired => exact always_bind (resolveExpired_unpaid h)

end Sessions

/-! ## The coordinator -/

namespace MultisigCoordinator

/-- The statements of the coordinator, other than those that create a row of the escrow, satisfy
`ok`. -/
structure Allows (ok : Stmt schema → Prop) : Prop where
  now : ok .now
  ask : ok .ask
  select : ∀ k, ok (.select k)
  scan : ∀ p, ok (.scan p)
  lock : ∀ m, ok (.selectForUpdate (Key.multisig m))
  update : ∀ m guard set, (∀ ms : MultisigEscrow, (set ms).link = ms.link) →
    ok (.update (Key.multisig m) guard set)
  assign : ∀ m set, (∀ ms : MultisigEscrow, (set ms).link = ms.link) →
    ok (.assign (Key.multisig m) set)
  complete : ∀ d set, (∀ deal : EscrowDeal, (set deal).is_multi_milestone
    = deal.is_multi_milestone) → ok (.assign (Key.deal d) set)
  round : ∀ m n p row, ok (.create (Key.multisigRound m n p) row)

section

variable {ok : Stmt schema → Prop} {w : MultisigWallet} (h : Allows ok)
include h

theorem wallet_only (answer : ℕ → Except Exn String) : (wallet answer).only ok := by
  refine only_bind (only_stmt h.ask) fun n => ?_
  cases answer n with
  | ok text => trivial
  | error e => trivial

theorem addRound_only (m : Id) (n : ℤ) (participant info : String) :
    (MultisigEscrowRepository.addRound m n participant info).only ok :=
  only_bind only_raiseIf fun _ => only_bind (only_stmt (h.round ..)) fun _ => only_raiseIf

theorem processHubRound_only (n : ℤ) (infos : List String) :
    (processHubRound w n infos).only ok := by
  unfold processHubRound
  split
  · exact only_bind (wallet_only h _) fun _ => trivial
  · exact only_bind (wallet_only h _) fun _ => trivial
  · trivial

theorem submitHubInfo_only (m : Id) (n : ℤ) (next_state : String) (info : Option String) :
    (submitHubInfo m n next_state info).only ok := by
  cases info with
  | none => trivial
  | some info => exact only_onlyIf (addRound_only h ..)

theorem advanceRound_only (m : Id) (n : ℤ) : (advanceRound w m n).only ok := by
  refine only_bind (only_bind (only_query (h.scan _) h.select) fun _ => trivial) fun entries => ?_
  refine only_bind (processHubRound_only h n _) fun info => ?_
  refine only_bind (only_stmt (h.update _ _ _ fun _ => rfl)) fun _ => ?_
  refine only_bind (only_stmt (h.assign _ _ fun _ => rfl)) fun _ => ?_
  refine only_bind (submitHubInfo_only h ..) fun _ => ?_
  split
  · exact only_bind (wallet_only h _) fun _ => only_stmt (h.assign _ _ fun _ => rfl)
  · trivial

theorem submitRound_only (m : Id) (participant : String) (n : ℤ) (info : String) :
    (submitRound w m participant n info).only ok := by
  refine only_bind only_raiseIf fun _ => only_bind only_raiseIf fun _ => ?_
  refine only_bind (only_stmt (h.lock m)) fun ms => only_bind only_orRaise fun ms => ?_
  refine only_bind only_raiseIf fun _ => only_bind (addRound_only h ..) fun _ => ?_
  refine only_bind (only_bind (only_stmt (h.scan _)) fun _ => trivial) fun count => ?_
  exact only_bind (only_onlyIf (advanceRound_only h m n)) fun _ => trivial

theorem initiateRelease_only (m : Id) (initiator : String) :
    (initiateRelease w m initiator).only ok := by
  refine only_bind only_raiseIf fun _ => ?_
  refine only_bind (only_stmt (h.lock m)) fun ms => only_bind only_orRaise fun ms => ?_
  refine only_bind only_raiseIf fun _ => only_bind (wallet_only h _) fun _ => ?_
  exact only_bind (only_stmt (h.assign _ _ fun _ => rfl)) fun _ => trivial

theorem cosignRelease_only (m : Id) (signer signed_tx : String) :
    (cosignRelease w m signer signed_tx).only ok := by
  refine only_bind only_raiseIf fun _ => ?_
  refine only_bind (only_stmt (h.lock m)) fun ms => only_bind only_orRaise fun ms => ?_
  refine only_bind only_raiseIf fun _ => only_bind only_raiseIf fun _ => ?_
  refine only_bind (wallet_only h _) fun _ => ?_
  refine only_bind (only_stmt (h.assign _ _ fun _ => rfl)) fun _ => ?_
  refine only_bind (only_stmt (h.select _)) fun deal => ?_
  cases deal with
  | none => trivial
  | some deal =>
      dsimp only
      split
      · trivial
      · refine only_bind (only_stmt h.now) fun t => ?_
        exact only_bind (only_stmt (h.complete _ _ fun _ => rfl)) fun _ => trivial

theorem dispute_only (m : Id) (disputer reason : String) :
    (dispute m disputer reason).only ok := by
  refine only_bind only_raiseIf fun _ => only_bind only_raiseIf fun _ => ?_
  refine only_bind (only_stmt (h.lock m)) fun ms => only_bind only_orRaise fun ms => ?_
  exact only_bind only_raiseIf fun _ => only_stmt (h.assign _ _ fun _ => rfl)

end

theorem allows_calm (d : Id) : Allows (Calm d) where
  now := trivial
  ask := trivial
  select _ := trivial
  scan _ := trivial
  lock _ := trivial
  update _ _ _ _ := trivial
  assign _ _ _ := trivial
  complete _ _ h := h
  round _ _ _ _ := trivial

theorem allows_linksKept : Allows LinksKept where
  now := trivial
  ask := trivial
  select _ := trivial
  scan _ := trivial
  lock _ := trivial
  update _ _ _ h := h
  assign _ _ h := h
  complete _ _ _ := trivial
  round _ _ _ _ := trivial

end MultisigCoordinator

/-! ## Creation -/

section Create

variable {d : Id} {w : MultisigWallet} {v : Solo schema}

namespace MultisigCoordinator

/-- What follows the row of the escrow in `create`. -/
theorem createTail_only {ok : Stmt schema → Prop} (h : Allows ok)
    (hfee : ∀ f : FeeCollection, f.source_type = "multisig_escrow" → ok (.insert (.fee f)))
    (ms_id : Id) (amount : ℚ) :
    (do
      insert (S := schema) (Entry.fee
        { source_type := "multisig_escrow", source_id := some ms_id
          amount := Columns.rounding 12 amount, token := .XMR, status := .COLLECTED })
      let hub_info ← wallet w.prepareMultisig
      MultisigEscrowRepository.addRound ms_id 1 "hub" hub_info
      return ms_id : Program Id).only ok := by
  refine only_bind (only_stmt (hfee _ rfl)) fun _ => only_bind (wallet_only h _) fun info => ?_
  exact only_bind (addRound_only h ..) fun _ => trivial

theorem createDeal_only {ok : Stmt schema → Prop} (hnow : ok .now)
    (hcreate : ∀ deal : EscrowDeal, deal.is_multi_milestone = false →
      ok (.create (Key.deal d) deal)) (buyer_id seller_id : Id) (amount : ℚ) (description : String)
    (a b c : ℤ) (x : ℚ) :
    (EscrowRepository.create .rounding d buyer_id seller_id amount description a b c x).only ok :=
  only_bind (only_stmt hnow) fun _ => only_bind (only_stmt (hcreate _ rfl)) fun _ =>
    only_bind only_raiseIf fun _ => trivial

theorem create_calm (deal_id ms_id buyer_id seller_id : Id) (amount : ℚ) (description : String)
    (a b c : ℤ) (h : (escrows v.db d).Unpaid) {Ok : StepCond schema} :
    (create .rounding w deal_id ms_id buyer_id seller_id amount description a b c).always Ok
      (fun _ v' => (escrows v'.db d).Unpaid ∧ v'.saved = v.saved) (Untouched v) v := by
  refine always_bind (always_raiseIf (fun _ => rfl) fun _ => ?_)
  refine always_bind (always_raiseIf (fun _ => rfl) fun hpos => ?_)
  rw [not_le] at hpos
  refine always_mono (always_calm ?_ h) (fun _ _ h => h) fun _ _ h => h.2
  have hposting : Calm d (.insert (.posting ⟨buyer_id, .XMR, -amount, .escrow deal_id⟩)) := by
    simp [Calm, Entry.paidFor, hpos.le]
  refine only_bind (only_stmt trivial) fun seller => only_bind only_orRaise fun seller => ?_
  refine only_bind only_raiseIf fun _ => ?_
  refine only_bind (BalanceRepository.deduct_only ⟨trivial, trivial, fun _ => trivial⟩ hposting)
    fun _ => only_bind (only_stmt trivial) fun now => ?_
  refine only_bind (createDeal_only trivial (fun _ hs => hs) ..) fun _ => ?_
  refine only_bind (only_bind (only_stmt trivial) fun _ => only_raiseIf) fun _ => ?_
  exact createTail_only (allows_calm d) (fun f hf => by simp [Calm, Entry.paidFor, hf]) ms_id _

/-- A program that keeps the links. -/
theorem always_linksKept {α : Type} {p : Program α} {start amount : ℚ} {Ok : StepCond schema}
    {v : Solo schema} (hp : p.only LinksKept) (h : Covered d start amount v.db) :
    p.always Ok (fun _ v' => Covered d start amount v'.db ∧ v'.saved = v.saved)
      (fun _ v' => Covered d start amount v'.db ∧ v'.saved = v.saved) v :=
  always_of_only (I := Covered d start amount) (fun s x v hs => Covered.eval s x v hs) hp h

/-- The new escrow is covered: its fee and its funded amount make up what the buyer has paid. -/
theorem create_covered {start : ℚ} (deal_id ms_id buyer_id seller_id : Id) (amount : ℚ)
    (description : String) (a b c : ℤ) (hkeeps : deal_id = d → numeric 8 amount ≤ amount)
    (h : Covered d start 0 v.db) {Ok : StepCond schema} :
    (create .rounding w deal_id ms_id buyer_id seller_id amount description a b c).always Ok
      (fun _ v' => Covered d start 0 v'.db ∧ v'.saved = v.saved) (Untouched v) v := by
  refine always_bind (always_raiseIf (fun _ => rfl) fun _ => ?_)
  refine always_bind (always_raiseIf (fun _ => rfl) fun hpos => ?_)
  rw [not_le] at hpos
  refine always_bind (always_select (always_bind (always_orRaise (fun _ => rfl) fun seller _ => ?_)))
  refine always_bind (always_raiseIf (fun _ => rfl) fun _ => ?_)
  refine always_bind (BalanceRepository.deduct_always (fun bal _ _ => ?_) fun _ _ => rfl)
  -- what has been deducted for this deal
  have hpaid : Covered d start (if deal_id = d then amount else 0)
      (BalanceRepository.posted v.db buyer_id .XMR { bal with
        available := Columns.rounding 12 (bal.available - amount) } (-amount) (.escrow deal_id)) := by
    have hput := h.put_other (k := Key.balance buyer_id .XMR) (by simp)
      { bal with available := Columns.rounding 12 (bal.available - amount) }
    have happ := hput.append (.posting ⟨buyer_id, .XMR, -amount, .escrow deal_id⟩)
    refine ⟨?_, happ.linked⟩
    have hsum : deducted (BalanceRepository.posted v.db buyer_id .XMR { bal with
        available := Columns.rounding 12 (bal.available - amount) } (-amount) (.escrow deal_id)) d
        = deducted v.db d + if deal_id = d then amount else 0 := by
      rw [BalanceRepository.posted, deducted_append]
      show deducted v.db d + _ = _
      by_cases hd : deal_id = d
      · simp [Entry.deductedFor, hd, hpos.le]
      · simp [Entry.deductedFor, hd]
    rw [hsum]
    have hstart := h.deducted
    rw [add_zero] at hstart
    exact add_le_add_left hstart _
  refine always_bind (always_now fun now => ?_)
  refine always_bind (always_mono (always_linksKept (createDeal_only trivial (fun _ _ => trivial)
    buyer_id seller_id amount description a b c feePercent) hpaid) (fun deal v₁ h₁ => ?_)
    fun _ _ h => h.2)
  obtain ⟨hcovered, hsaved⟩ := h₁
  refine always_bind (always_bind (always_create (fun _ hnew _ => ?_) fun r hr => ?_))
  · refine always_raiseIf (fun hf => by cases hf) fun _ => ?_
    refine always_mono (always_linksKept (createTail_only allows_linksKept (fun _ _ => trivial)
      ms_id (upfrontFee amount)) (?_ : Covered d start 0 _))
      (fun _ _ h => ⟨h.1, h.2.trans hsaved⟩) fun _ _ h => h.2.trans hsaved
    have hnonneg : 0 ≤ if deal_id = d then amount else 0 := by
      split
      · exact hpos.le
      · exact le_rfl
    refine ⟨?_, fun m ms hm hd => ?_⟩
    · show start + 0 ≤ deducted v₁.db d
      have := hcovered.deducted
      linarith
    · by_cases hms : m = ms_id
      · subst hms
        rw [DB.put_rows_self, Option.some.injEq] at hm
        subst hm
        have hd' : deal_id = d := hd
        have hfunded : (0 : ℚ) ≤ numeric 8 (amount - upfrontFee amount) :=
          numeric_nonneg 8 (sub_nonneg.mpr (upfrontFee_le hpos.le))
        refine ⟨?_, hfunded⟩
        have hall := hcovered.deducted
        rw [if_pos hd'] at hall
        have hparts : numeric 8 (upfrontFee amount) + numeric 8 (amount - upfrontFee amount)
            ≤ amount := by
          rw [fee_add_funded hpos.le]
          exact hkeeps hd'
        show start + (numeric 8 (upfrontFee amount) + numeric 8 (amount - upfrontFee amount))
          ≤ deducted v₁.db d
        linarith
      · rw [DB.put_rows_ne _ _ (by simp [hms])] at hm
        exact hcovered.linked m ms hm hd
  · exact always_raiseIf (fun _ => hsaved) fun hf => absurd rfl hf

end MultisigCoordinator

end Create

/-! ## Runs -/

/-- The calls of a run, each in a session of its own: those of the coordinator, and those of the
escrow service. -/
inductive MultisigCall where
  | create (deal_id ms_id buyer_id seller_id : Id) (amount : ℚ) (description : String)
      (accept_timeout_hours delivery_timeout_hours review_timeout_hours : ℤ)
  | submitRound (escrow_id : Id) (participant : String) (round_number : ℤ) (multisig_info : String)
  | initiateRelease (escrow_id : Id) (initiator : String)
  | cosignRelease (escrow_id : Id) (signer signed_tx : String)
  | dispute (escrow_id : Id) (disputer reason : String)
  | deal (call : DealCall)

namespace MultisigCall

open MultisigCoordinator

def body (w : MultisigWallet) : MultisigCall → Program Unit
  | create deal_id ms_id buyer_id seller_id amount description a b c => do
      let _ ← MultisigCoordinator.create .rounding w deal_id ms_id buyer_id seller_id amount
        description a b c
  | submitRound m participant n info => do
      let _ ← MultisigCoordinator.submitRound w m participant n info
  | initiateRelease m initiator => do
      let _ ← MultisigCoordinator.initiateRelease w m initiator
  | cosignRelease m signer signed_tx => do
      let _ ← MultisigCoordinator.cosignRelease w m signer signed_tx
  | dispute m disputer reason => MultisigCoordinator.dispute m disputer reason
  | deal call => call.body .rounding

def run (w : MultisigWallet) (call : MultisigCall) : Program Unit := withSession (call.body w)

/-- The amount the deal `d` is created with is not rounded up at the scale of the escrow's
columns. -/
def Fits (d : Id) : MultisigCall → Prop
  | create deal_id _ _ _ amount _ _ _ _ => deal_id = d → numeric 8 amount ≤ amount
  | _ => True

/-- The condition on a call: the escrow service does not pay out the deal `d`, which is created with
an amount that fits. -/
def PaidOnce (d : Id) (call : MultisigCall) : StepCond schema := fun v s x =>
  NotPaidOut d v s x ∧ call.Fits d

variable {d : Id} {w : MultisigWallet} {v : Solo schema}

theorem body_unpaid (call : MultisigCall) (h : (escrows v.db d).Unpaid) :
    (call.body w).always (NotPaidOut d)
      (fun _ v' => (escrows v'.db d).Unpaid ∧ v'.saved = v.saved) (Untouched v) v := by
  have calm : ∀ {p : Program Unit}, p.only (Calm d) → p.always (NotPaidOut d)
      (fun _ v' => (escrows v'.db d).Unpaid ∧ v'.saved = v.saved) (Untouched v) v :=
    fun hp => always_mono (always_calm hp h) (fun _ _ h => h) fun _ _ h => h.2
  have hallows := MultisigCoordinator.allows_calm d
  cases call with
  | create deal_id ms_id buyer_id seller_id amount description a b c =>
      exact always_bind (create_calm deal_id ms_id buyer_id seller_id amount description a b c h)
  | submitRound m participant n info =>
      exact calm (only_bind (submitRound_only hallows m participant n info) fun _ => trivial)
  | initiateRelease m initiator =>
      exact calm (only_bind (initiateRelease_only hallows m initiator) fun _ => trivial)
  | cosignRelease m signer signed_tx =>
      exact calm (only_bind (cosignRelease_only hallows m signer signed_tx) fun _ => trivial)
  | dispute m disputer reason => exact calm (dispute_only hallows m disputer reason)
  | deal call => exact call.body_unpaid h

/-- Every session but the creation keeps the links, by its text. -/
theorem body_covered {start : ℚ} (call : MultisigCall) (h : Covered d start 0 v.db)
    (hfits : call.Fits d) {Ok : StepCond schema} :
    (call.body w).always Ok
      (fun _ v' => Covered d start 0 v'.db ∧ v'.saved = v.saved) (Untouched v) v := by
  have kept : ∀ {p : Program Unit}, p.only LinksKept → p.always Ok
      (fun _ v' => Covered d start 0 v'.db ∧ v'.saved = v.saved) (Untouched v) v :=
    fun hp => always_mono (always_linksKept hp h) (fun _ _ h => h) fun _ _ h => h.2
  have hallows := MultisigCoordinator.allows_linksKept
  cases call with
  | create deal_id ms_id buyer_id seller_id amount description a b c =>
      exact always_bind (create_covered deal_id ms_id buyer_id seller_id amount description a b c
        hfits h)
  | submitRound m participant n info =>
      exact kept (only_bind (submitRound_only hallows m participant n info) fun _ => trivial)
  | initiateRelease m initiator =>
      exact kept (only_bind (initiateRelease_only hallows m initiator) fun _ => trivial)
  | cosignRelease m signer signed_tx =>
      exact kept (only_bind (cosignRelease_only hallows m signer signed_tx) fun _ => trivial)
  | dispute m disputer reason => exact kept (dispute_only hallows m disputer reason)
  | deal call =>
      exact kept (call.body_only Sthrip.allows_linksKept fun _ _ => trivial)

/-- Both invariants of a session. -/
theorem run_keeps {start : ℚ} (call : MultisigCall) {st : Store schema}
    (h : (escrows st.db d).Unpaid ∧ Covered d start 0 st.db) :
    (call.run w).always (call.PaidOnce d)
      (fun _ v => (escrows v.saved d).Unpaid ∧ Covered d start 0 v.saved)
      (fun _ v => (escrows v.saved d).Unpaid ∧ Covered d start 0 v.saved) (Solo.ofStore st) := by
  refine always_session_assuming (fun _ _ _ hok => hok.2) fun hfits => ?_
  refine always_session (fun db => (escrows db d).Unpaid ∧ Covered d start 0 db) h ?_
  have hunpaid := always_weaken (fun _ _ _ (hok : call.PaidOnce d _ _ _) => hok.1)
    (call.body_unpaid (w := w) (v := Solo.ofStore st) h.1)
  refine always_mono (always_and hunpaid (call.body_covered (v := Solo.ofStore st) h.2 hfits))
    (fun _ v' h' => ?_) fun _ _ h' => h'.1
  exact ⟨⟨h'.1.1, h'.2.1⟩, h'.1.2⟩

end MultisigCall

/-- **A multisig escrow is paid through one path.** Start from any database without the deal `d` and
without an escrow linked to it. In every run in which the escrow service does not pay out the deal,
and which creates it with an amount that fits the columns, an escrow linked to the deal collects as
fee and pays out, together with all hub credits and fees for the deal, at most what was deducted
for the deal in the run. -/
theorem multisig_paid_once (d : Id) (w : MultisigWallet) {st₀ st : Store schema}
    (hwf : st₀.db.WF) (hnew : escrows st₀.db d = {})
    (hunlinked : ∀ m (ms : MultisigEscrow), st₀.db.rows (Key.multisig m) = some ms →
      ms.escrow_deal_id ≠ d)
    (hrun : Served (MultisigCall.PaidOnce d) (MultisigCall.run w) st₀ st) {m : Id}
    {ms : MultisigEscrow} (hr : st.db.rows (Key.multisig m) = some ms)
    (hd : ms.escrow_deal_id = d) :
    ms.fee_collected + ms.paidOut + (escrows st.db d).paid
      ≤ deducted st.db d - deducted st₀.db d := by
  have h₀ : (escrows st₀.db d).Unpaid ∧ Covered d (deducted st₀.db d) 0 st₀.db := by
    rw [hnew]
    refine ⟨⟨fun _ => rfl, rfl, fun deal h => (by cases h)⟩, (add_zero _).le, fun m ms hr hd => ?_⟩
    exact absurd hd (hunlinked m ms hr)
  obtain ⟨⟨hunpaid, hcovered⟩, -⟩ := Served.invariant
    (fun st => (escrows st.db d).Unpaid ∧ Covered d (deducted st₀.db d) 0 st.db) h₀ hwf
    (fun call st h => call.run_keeps h) hrun
  obtain ⟨hle, hfunded⟩ := hcovered.linked m ms hr hd
  have hout : ms.paidOut ≤ ms.funded := by
    unfold MultisigEscrow.paidOut
    split
    · exact le_rfl
    · exact hfunded
  rw [hunpaid.paid]
  linarith

/-! ### An escrow that is released, and one that is cancelled as well -/

/-- The stubs of the wallet. -/
def stubWallet : MultisigWallet where
  prepareMultisig _ := .ok "hub_multisig_info"
  makeMultisig _ _ := .ok "hub_round2_info"
  exchangeMultisigKeys _ _ := .ok "hub_round3_info"
  finalizeMultisigAddress _ _ := .ok "multisig_address"
  createPartialReleaseTx _ _ := .ok "partial_tx"
  broadcastSignedTx _ _ := .ok "tx_hash"

/-- A call at which every reading of the clock is `t` hours. -/
def MultisigCall.at (call : MultisigCall) (t : ℤ) : MultisigCall × (ℕ → Input schema) :=
  (call, fun _ => { time := hours t })

/-- Agent 1 pays one unit for a multisig escrow with agent 2. -/
def escrowOfOne : MultisigCall × (ℕ → Input schema) :=
  (MultisigCall.create 1 1 1 2 1 "" 24 48 24).at 0

/-- The buyer and the seller exchange keys, and release the escrow together. -/
def releaseTogether : List (MultisigCall × (ℕ → Input schema)) :=
  [(MultisigCall.submitRound 1 "buyer" 1 "b1").at 1, (MultisigCall.submitRound 1 "seller" 1 "s1").at 1,
    (MultisigCall.submitRound 1 "buyer" 2 "b2").at 1, (MultisigCall.submitRound 1 "seller" 2 "s2").at 1,
    (MultisigCall.submitRound 1 "buyer" 3 "b3").at 1, (MultisigCall.submitRound 1 "seller" 3 "s3").at 1,
    (MultisigCall.initiateRelease 1 "buyer").at 2, (MultisigCall.cosignRelease 1 "seller" "tx").at 2]

/-- The test of `MultisigCall.Fits`. -/
def MultisigCall.fits : MultisigCall → Bool
  | create _ _ _ _ amount _ _ _ _ => numeric 8 amount ≤ amount
  | _ => true

/-- The test of `NotPaidOut`: no deal is updated. -/
def updatesNoDeal : Stmt schema → Bool
  | .update (Key.deal _) _ _ => false
  | _ => true

theorem paidOnce_of_test (d : Id) (call : MultisigCall) (v : Solo schema) (s : Stmt schema)
    (x : Input schema) (h : (updatesNoDeal s && call.fits) = true) : call.PaidOnce d v s x := by
  rw [Bool.and_eq_true] at h
  refine ⟨fun now y z => ⟨?_, ?_, ?_⟩, ?_⟩
  · rintro rfl
    simp [updatesNoDeal, cancelUpdate] at h
  · rintro rfl
    simp [updatesNoDeal, expireUpdate] at h
  · rintro rfl
    simp [updatesNoDeal, releaseUpdate] at h
  · cases call with
    | create deal_id ms_id buyer_id seller_id amount description a b c =>
        exact fun _ => of_decide_eq_true h.2
    | _ => trivial

/-- The buyer cancels the deal in between. -/
def cancelledAndReleased : List (MultisigCall × (ℕ → Input schema)) :=
  escrowOfOne :: (MultisigCall.deal (.cancelEscrow 1 1)).at 1 :: releaseTogether

/-- The row of the escrow after a list of calls, if it is completed, and what has been paid. -/
def releasedWith (l : List (MultisigCall × (ℕ → Input schema))) (total : ℚ) : Bool :=
  ((serveAll (MultisigCall.run stubWallet) l twoAgents).db.rows (Key.multisig 1)).any fun ms =>
    ms.escrow_deal_id = 1 ∧ ms.state = "completed" ∧
      ms.fee_collected + ms.paidOut
        + (escrows (serveAll (MultisigCall.run stubWallet) l twoAgents).db 1).paid = total

theorem exists_of_releasedWith {l : List (MultisigCall × (ℕ → Input schema))} {total : ℚ}
    (h : releasedWith l total = true) : ∃ ms : MultisigEscrow,
      (serveAll (MultisigCall.run stubWallet) l twoAgents).db.rows (Key.multisig 1) = some ms ∧
      ms.escrow_deal_id = 1 ∧ ms.state = "completed" ∧ ms.fee_collected + ms.paidOut
        + (escrows (serveAll (MultisigCall.run stubWallet) l twoAgents).db 1).paid = total := by
  simp only [releasedWith, Option.any_eq_true, decide_eq_true_eq] at h
  exact h

theorem twoAgents_unlinked (m : Id) (ms : MultisigEscrow)
    (h : twoAgents.db.rows (Key.multisig m) = some ms) : ms.escrow_deal_id ≠ 1 := by
  cases h

/-- A release that both sign. -/
theorem multisig_paid_once_released : ∃ (st : Store schema) (ms : MultisigEscrow),
    st.db.rows (Key.multisig 1) = some ms ∧ ms.state = "completed" ∧
      ms.fee_collected + ms.paidOut + (escrows st.db 1).paid
        ≤ deducted st.db 1 - deducted twoAgents.db 1 := by
  have hrun : Served (MultisigCall.PaidOnce 1) (MultisigCall.run stubWallet) twoAgents
      (serveAll (MultisigCall.run stubWallet) (escrowOfOne :: releaseTogether) twoAgents) :=
    served_of_passesAll (fun call _ s _ => updatesNoDeal s && call.fits) (paidOnce_of_test 1) _ .refl
      (by decide +kernel)
  obtain ⟨ms, hr, hd, hs, -⟩ := exists_of_releasedWith (by decide +kernel :
    releasedWith (escrowOfOne :: releaseTogether) 1 = true)
  exact ⟨_, ms, hr, hs, multisig_paid_once 1 stubWallet twoAgents_wf twoAgents_new
    twoAgents_unlinked hrun hr hd⟩

/-- The buyer is refunded by the escrow service, and the escrow is released all the same: for one
unit two are paid. -/
theorem multisig_paid_twice : ¬∀ (d : Id) (w : MultisigWallet) (st₀ st : Store schema) (m : Id)
    (ms : MultisigEscrow), st₀.db.WF → escrows st₀.db d = {} →
    (∀ m (ms : MultisigEscrow), st₀.db.rows (Key.multisig m) = some ms → ms.escrow_deal_id ≠ d) →
    Served (fun _ _ _ _ => True) (MultisigCall.run w) st₀ st →
    st.db.rows (Key.multisig m) = some ms → ms.escrow_deal_id = d →
    ms.fee_collected + ms.paidOut + (escrows st.db d).paid
      ≤ deducted st.db d - deducted st₀.db d := by
  intro h
  have hrun : Served (fun _ _ _ _ => True) (MultisigCall.run stubWallet) twoAgents
      (serveAll (MultisigCall.run stubWallet) cancelledAndReleased twoAgents) :=
    served_of_passesAll (fun _ _ _ _ => true) (fun _ _ _ _ _ => trivial) _ .refl
      (by decide +kernel)
  obtain ⟨ms, hr, hd, -, htotal⟩ := exists_of_releasedWith (by decide +kernel :
    releasedWith cancelledAndReleased 2 = true)
  have hle := h 1 stubWallet twoAgents _ 1 ms twoAgents_wf twoAgents_new twoAgents_unlinked hrun hr
    hd
  have hdeducted : deducted (serveAll (MultisigCall.run stubWallet) cancelledAndReleased
      twoAgents).db 1 - deducted twoAgents.db 1 = 1 := by decide +kernel
  rw [htotal, hdeducted] at hle
  norm_num at hle

end Sthrip
