import Sthrip.Escrow.Footprint

set_option autoImplicit false

/-! # Releases in rounded tables

A release splits an amount into what the seller receives, what the buyer gets back and the fee. The
fee has two decimals more than the amount, and the tables keep twelve: the two balances and the fee
are rounded one by one. `release_exact_iff` says when what the tables say still adds up: unless the
fee falls halfway between two values of its column, for then the seller's part does too, and both are
rounded up.
-/

namespace Sthrip

open Txn Prog BalanceRepository

/-! ## Balances and fees -/

/-- The amount of a fee recorded for the deal. -/
def Entry.escrowFee (deal_id : Id) : Entry → Option ℚ
  | .fee f => if f.source_type = "escrow" ∧ f.source_id = some deal_id then some f.amount else none
  | _ => none

/-- The available balances, and the fees recorded for a deal. -/
@[ext] structure Purse where
  available : Id → Token → ℚ
  fees : ℚ

def purse (db : DB schema) (deal_id : Id) : Purse where
  available agent_id token := (balanceOf db agent_id token).available
  fees := (db.log.filterMap (Entry.escrowFee deal_id)).sum

namespace Purse

variable (col : Columns)

def credit (P : Purse) (agent_id : Id) (amount : ℚ) (token : Token) : Purse :=
  if 0 < amount then
    { P with
      available := fun a t =>
        if a = agent_id ∧ t = token then col 12 (P.available a t + amount) else P.available a t }
  else P

def charge (P : Purse) (fee_amount : ℚ) : Purse :=
  { P with fees := P.fees + if 0 < fee_amount then col 12 fee_amount else 0 }

/-- A release of `x` out of `amount`. -/
def release (P : Purse) (deal : EscrowDeal) (amount x : ℚ) : Purse :=
  ((P.credit col deal.seller_id (x - x * deal.feeRate) deal.token).credit col deal.buyer_id
    (amount - x) deal.token).charge col (x * deal.feeRate)

end Purse

theorem Purse.release_all (col : Columns) (P : Purse) (deal : EscrowDeal) (amount : ℚ) :
    P.release col deal amount amount
      = (P.credit col deal.seller_id (amount - amount * deal.feeRate) deal.token).charge col
        (amount * deal.feeRate) := by
  rw [release, sub_self, credit, if_neg (lt_irrefl _)]

/-! ## The statements that leave them alone -/

def Key.IsBalance : Key → Prop
  | .balance _ _ => True
  | _ => False

/-- The statement leaves balances and the fees of the deal alone. -/
abbrev SparesPurse (deal_id : Id) : Stmt schema → Prop :=
  Stmt.off Key.IsBalance (Entry.escrowFee deal_id)

variable {col : Columns} {Ok : StepCond schema} {v : Solo schema} {e : Id} {P : Purse}

theorem quiet_sparesPurse (e : Id) : EscrowService.Quiet (SparesPurse e) e where
  now := trivial
  select _ := trivial
  scan _ := trivial
  update _ _ _ := id
  updateMilestone _ _ _ _ _ := id
  reputation _ _ _ := id

theorem sparesPurse_always {α : Type} {p : Program α} {Q : α → Solo schema → Prop}
    (hp : p.only (SparesPurse e)) (hP : purse v.db e = P)
    (h : ∀ a v', purse v'.db e = P → Q a v') : p.always Ok Q (fun _ _ => True) v := by
  refine always_mono (always_off hp v) (fun a v' hv' => h a v' ?_) fun _ _ _ => trivial
  rw [← hP]
  refine Purse.ext ?_ ?_
  · funext agent_id token
    simp only [purse, balanceOf, hv'.1.rows (Key.balance agent_id token) trivial]
  · simp only [purse, hv'.1.entries]

/-! ## The statements that move them -/

theorem credit_purse {agent_id : Id} {amount : ℚ} {token : Token} {Q : Unit → Solo schema → Prop}
    {R : Exn → Solo schema → Prop} (hP : purse v.db e = P)
    (h : ∀ v', purse v'.db e = P.credit col agent_id amount token → Q () v') :
    (onlyIf (0 < amount)
      (BalanceRepository.credit col agent_id amount token (.escrow e))).always Ok Q R v := by
  refine always_onlyIf (fun hpos => credit_always fun b hb => h _ ?_) fun hpos => h _ ?_
  · rw [Purse.credit, if_pos hpos, ← hP]
    refine Purse.ext ?_ ?_
    · funext a t
      simp only [purse, posted, balanceOf, DB.append_rows]
      by_cases hk : a = agent_id ∧ t = token
      · obtain ⟨rfl, rfl⟩ := hk
        rw [DB.put_rows_self, hb]
        simp [balanceOf]
      · have hne : Key.balance a t ≠ Key.balance agent_id token := by simpa using hk
        rw [DB.put_rows_ne _ _ hne, if_neg hk]
    · have hnone : [Entry.posting ⟨agent_id, token, amount, .escrow e⟩].filterMap
          (Entry.escrowFee e) = [] := rfl
      simp only [purse, posted, DB.append_log, DB.put_log, List.filterMap_append, hnone,
        List.append_nil]
  · rw [Purse.credit, if_neg hpos, hP]

theorem recordFee_purse {fee_amount : ℚ} {token : Token} {Q : Unit → Solo schema → Prop}
    {R : Exn → Solo schema → Prop} (hP : purse v.db e = P)
    (h : ∀ v', purse v'.db e = P.charge col fee_amount → Q () v') :
    (recordFee col e token fee_amount).always Ok Q R v := by
  refine always_onlyIf (fun hpos => always_insert (h _ ?_)) fun hpos => h _ ?_
  · rw [Purse.charge, if_pos hpos, ← hP]
    refine Purse.ext rfl ?_
    simp [purse, Entry.escrowFee]
  · rw [Purse.charge, if_neg hpos, hP, add_zero]

/-! ## The release paths -/

namespace EscrowService

variable {deal : EscrowDeal} {ms : EscrowMilestone}

theorem releaseEscrow_purse {buyer_id : Id} {x : ℚ} (hdeal : v.db.rows (Key.deal e) = some deal)
    (hP : purse v.db e = P) :
    (releaseEscrow col e buyer_id x).always Ok (fun _ v' => 0 ≤ x ∧ x ≤ deal.amount ∧
      purse v'.db e = P.release col deal deal.amount x) (fun _ _ => True) v := by
  have hq := quiet_sparesPurse e
  refine always_bind (always_selectForUpdate ?_)
  refine always_bind (always_orRaise (fun _ => trivial) fun found hfound => ?_)
  obtain rfl : found = deal := Option.some.inj (hfound.symm.trans hdeal)
  refine always_bind (always_raiseIf (fun _ => trivial) fun _ => ?_)
  refine always_bind (always_raiseIf (fun _ => trivial) fun _ => ?_)
  refine always_bind (always_raiseIf (fun _ => trivial) fun _ => ?_)
  refine always_bind (always_raiseIf (fun _ => trivial) fun hrange => ?_)
  rw [not_or, not_lt, not_lt] at hrange
  refine always_bind (credit_purse hP fun v₁ h₁ => ?_)
  refine always_bind (credit_purse h₁ fun v₂ h₂ => ?_)
  refine always_bind (recordFee_purse h₂ fun v₃ h₃ => ?_)
  refine sparesPurse_always ?_ h₃ fun _ v' h' => ⟨hrange.1, hrange.2, h'⟩
  refine only_bind (releaseDeal_only hq ..) fun _ => ?_
  exact only_bind (applyCompletionTrust_only hq ..) fun _ => refetch_only hq

theorem releaseMilestone_purse {j : ℕ} {buyer_id : Id} {x : ℚ}
    (hdeal : v.db.rows (Key.deal e) = some deal) (hms : v.db.rows (Key.milestone e j) = some ms)
    (hP : purse v.db e = P) :
    (releaseMilestone col e j buyer_id x).always Ok (fun _ v' => 0 ≤ x ∧ x ≤ ms.amount ∧
      purse v'.db e = P.release col deal ms.amount x) (fun _ _ => True) v := by
  have hq := quiet_sparesPurse e
  refine always_bind (always_selectForUpdate ?_)
  refine always_bind (always_orRaise (fun _ => trivial) fun found hfound => ?_)
  obtain rfl : found = deal := Option.some.inj (hfound.symm.trans hdeal)
  refine always_bind (always_raiseIf (fun _ => trivial) fun _ => ?_)
  refine always_bind (always_raiseIf (fun _ => trivial) fun _ => ?_)
  refine always_bind (always_raiseIf (fun _ => trivial) fun _ => ?_)
  refine always_bind (always_selectForUpdate ?_)
  refine always_bind (always_orRaise (fun _ => trivial) fun found hfound => ?_)
  obtain rfl : found = ms := Option.some.inj (hfound.symm.trans hms)
  refine always_bind (always_raiseIf (fun _ => trivial) fun _ => ?_)
  refine always_bind (always_raiseIf (fun _ => trivial) fun hrange => ?_)
  rw [not_or, not_lt, not_lt] at hrange
  refine always_bind (credit_purse hP fun v₁ h₁ => ?_)
  refine always_bind (credit_purse h₁ fun v₂ h₂ => ?_)
  refine always_bind (recordFee_purse h₂ fun v₃ h₃ => ?_)
  refine sparesPurse_always ?_ h₃ fun _ v' h' => ⟨hrange.1, hrange.2, h'⟩
  refine only_bind (releaseRow_only hq ..) fun rows => only_bind only_raiseIf fun _ => ?_
  refine only_bind (advance_only hq ..) fun _ => only_bind (only_stmt (hq.select _)) fun fresh => ?_
  exact only_bind only_orRaise fun _ => trivial

theorem autoReleaseFull_purse (hP : purse v.db e = P) :
    (autoReleaseFull col e deal).always Ok (fun done v' => done = true →
      purse v'.db e = P.release col deal deal.amount deal.amount) (fun _ _ => True) v := by
  have hq := quiet_sparesPurse e
  refine always_bind (sparesPurse_always (releaseDeal_only hq ..) hP fun rows v₁ h₁ => ?_)
  split
  · exact fun hf => absurd hf Bool.false_ne_true
  · refine always_bind (credit_purse h₁ fun v₂ h₂ => ?_)
    refine always_bind (recordFee_purse h₂ fun v₃ h₃ => ?_)
    refine sparesPurse_always ?_ h₃ fun _ v' h' _ => h'.trans (Purse.release_all ..).symm
    refine only_bind (applyCompletionTrust_only hq ..) fun _ => ?_
    exact only_bind (refetch_only hq) fun _ => trivial

theorem autoReleaseMilestone_purse {j : ℕ} (hP : purse v.db e = P) :
    (autoReleaseMilestone col e deal j ms).always Ok (fun done v' => done = true →
      purse v'.db e = P.release col deal ms.amount ms.amount) (fun _ _ => True) v := by
  have hq := quiet_sparesPurse e
  refine always_bind (sparesPurse_always (releaseRow_only hq ..) hP fun rows v₁ h₁ => ?_)
  split
  · exact fun hf => absurd hf Bool.false_ne_true
  · refine always_bind (credit_purse h₁ fun v₂ h₂ => ?_)
    refine always_bind (recordFee_purse h₂ fun v₃ h₃ => ?_)
    refine sparesPurse_always ?_ h₃ fun _ v' h' _ => h'.trans (Purse.release_all ..).symm
    refine only_bind (advance_only hq ..) fun _ => ?_
    exact only_bind (refetch_only hq) fun _ => trivial

end EscrowService

/-- A way to release a deal or a milestone: the buyer says how much, or the sweep releases all. -/
inductive ReleasePath where
  | releaseEscrow (buyer_id : Id) (release_amount : ℚ)
  | releaseMilestone (milestone_seq : ℕ) (buyer_id : Id) (release_amount : ℚ)
  | autoRelease
  | autoReleaseMilestone (sequence : ℕ)

namespace ReleasePath

/-- The request. The answer tells if something was released. -/
def run (col : Columns) (escrow_id : Id) : ReleasePath → Program Bool
  | .releaseEscrow buyer_id release_amount => withSession do
      let _ ← EscrowService.releaseEscrow col escrow_id buyer_id release_amount
      return true
  | .releaseMilestone milestone_seq buyer_id release_amount => withSession do
      let _ ← EscrowService.releaseMilestone col escrow_id milestone_seq buyer_id release_amount
      return true
  | .autoRelease => withSession (EscrowService.resolveSingle col escrow_id)
  | .autoReleaseMilestone sequence =>
      withSession (EscrowService.resolveMilestoneExpiry col escrow_id sequence)

/-- The path releases `x` out of `amount`. The sweep releases what has been delivered. -/
inductive Releases (db : DB schema) (escrow_id : Id) (deal : EscrowDeal) :
    ReleasePath → ℚ → ℚ → Prop where
  | releaseEscrow (buyer_id : Id) (x : ℚ) :
      Releases db escrow_id deal (.releaseEscrow buyer_id x) deal.amount x
  | releaseMilestone (j : ℕ) (buyer_id : Id) (x : ℚ) {ms : EscrowMilestone} :
      db.rows (Key.milestone escrow_id j) = some ms →
      Releases db escrow_id deal (.releaseMilestone j buyer_id x) ms.amount x
  | autoRelease : deal.status = .DELIVERED →
      Releases db escrow_id deal .autoRelease deal.amount deal.amount
  | autoReleaseMilestone (j : ℕ) {ms : EscrowMilestone} :
      db.rows (Key.milestone escrow_id j) = some ms → ms.status = .DELIVERED →
      Releases db escrow_id deal (.autoReleaseMilestone j) ms.amount ms.amount

variable {deal : EscrowDeal} {path : ReleasePath} {amount x : ℚ}

/-- What a release leaves in the tables. -/
theorem run_always {st : Store schema} (hdeal : st.db.rows (Key.deal e) = some deal)
    (hamount : 0 ≤ amount) (h : path.Releases st.db e deal amount x) :
    (path.run col e).always Ok (fun done v' => done = true → 0 ≤ x ∧ x ≤ amount ∧
      purse v'.saved e = (purse st.db e).release col deal amount x) (fun _ _ => True)
      (Solo.ofStore st) := by
  cases h with
  | releaseEscrow buyer_id x =>
      refine always_withSession (always_bind (always_mono (EscrowService.releaseEscrow_purse hdeal rfl)
        (fun _ v' h' => ?_) fun _ _ _ => trivial))
      exact ⟨fun _ => h', fun _ _ _ => trivial⟩
  | releaseMilestone j buyer_id x hms =>
      refine always_withSession (always_bind (always_mono
        (EscrowService.releaseMilestone_purse hdeal hms rfl) (fun _ v' h' => ?_) fun _ _ _ => trivial))
      exact ⟨fun _ => h', fun _ _ _ => trivial⟩
  | autoRelease hs =>
      refine always_withSession (always_bind (always_selectForUpdate ?_))
      rw [show (Solo.ofStore st).db.rows (Key.deal e) = some deal from hdeal]
      simp only [hs]
      refine always_mono (EscrowService.autoReleaseFull_purse rfl) (fun done v' h' => ?_)
        fun _ _ _ => trivial
      exact ⟨fun hdone => ⟨hamount, le_refl _, h' hdone⟩, fun _ _ _ => trivial⟩
  | autoReleaseMilestone j hms hs =>
      refine always_withSession (always_bind (always_selectForUpdate ?_))
      rw [show (Solo.ofStore st).db.rows (Key.deal e) = some deal from hdeal]
      dsimp only
      split
      · exact ⟨fun hf => absurd hf Bool.false_ne_true, fun _ _ _ => trivial⟩
      · refine always_bind (always_selectForUpdate ?_)
        rw [show (Solo.ofStore st).db.rows (Key.milestone e j) = some _ from hms]
        simp only [hs]
        refine always_mono (EscrowService.autoReleaseMilestone_purse rfl) (fun done v' h' => ?_)
          fun _ _ _ => trivial
        exact ⟨fun hdone => ⟨hamount, le_refl _, h' hdone⟩, fun _ _ _ => trivial⟩

end ReleasePath

/-! ## The parts of a release -/

namespace Purse

variable {deal : EscrowDeal} {amount x : ℚ}

/-- The balances are values of their column, and none is negative. -/
def Stored (P : Purse) : Prop :=
  ∀ agent_id token, 0 ≤ P.available agent_id token ∧ P.available agent_id token ∈ decimals 12

theorem credit_ne {agent_id other : Id} {token : Token} (h : other ≠ agent_id) :
    (P.credit col agent_id x token).available other token = P.available other token := by
  unfold credit
  split
  · simp [h]
  · rfl

theorem credit_self {agent_id : Id} {token : Token} (h₀ : 0 ≤ P.available agent_id token)
    (hP : P.available agent_id token ∈ decimals 12) (hx : 0 ≤ x) :
    (P.credit .rounding agent_id x token).available agent_id token
      = P.available agent_id token + numeric 12 x := by
  unfold credit
  split
  · simp only [and_self, if_true]
    exact numeric_add hP h₀ hx
  · next hpos =>
      rw [le_antisymm (not_lt.mp hpos) hx, numeric_zero, add_zero]

theorem credit_fees {agent_id : Id} {token : Token} :
    (P.credit col agent_id x token).fees = P.fees := by
  unfold credit
  split <;> rfl

theorem charge_fees (hx : 0 ≤ x) : (P.charge .rounding x).fees = P.fees + numeric 12 x := by
  unfold charge
  split
  · rfl
  · next hpos => rw [le_antisymm (not_lt.mp hpos) hx, numeric_zero]

/-- The increase of the seller's balance, of the buyer's balance, and of the fees. -/
def increase (P P' : Purse) (deal : EscrowDeal) : ℚ :=
  (P'.available deal.seller_id deal.token - P.available deal.seller_id deal.token)
    + (P'.available deal.buyer_id deal.token - P.available deal.buyer_id deal.token)
    + (P'.fees - P.fees)

theorem increase_release (hP : P.Stored) (hparties : deal.buyer_id ≠ deal.seller_id)
    (hrate : 0 ≤ deal.feeRate) (hrate' : deal.feeRate ≤ 1) (hx : 0 ≤ x) (hxa : x ≤ amount)
    (ha12 : amount ∈ decimals 12) (hx12 : x ∈ decimals 12) :
    P.increase (P.release .rounding deal amount x) deal
      = numeric 12 (x - x * deal.feeRate) + (amount - x) + numeric 12 (x * deal.feeRate) := by
  have hfee : 0 ≤ x * deal.feeRate := mul_nonneg hx hrate
  have hpart : 0 ≤ x - x * deal.feeRate := sub_nonneg.mpr (mul_le_of_le_one_right hx hrate')
  have hback : 0 ≤ amount - x := sub_nonneg.mpr hxa
  have hkept : numeric 12 (amount - x) = amount - x := numeric_of_mem (sub_mem ha12 hx12)
  obtain ⟨hs₀, hs⟩ := hP deal.seller_id deal.token
  obtain ⟨hb₀, hb⟩ := hP deal.buyer_id deal.token
  have hseller : (P.release .rounding deal amount x).available deal.seller_id deal.token
      = P.available deal.seller_id deal.token + numeric 12 (x - x * deal.feeRate) :=
    (credit_ne hparties.symm).trans (credit_self hs₀ hs hpart)
  have hbuyer : (P.release .rounding deal amount x).available deal.buyer_id deal.token
      = P.available deal.buyer_id deal.token + (amount - x) := by
    have hsame : (P.credit .rounding deal.seller_id (x - x * deal.feeRate) deal.token).available
        deal.buyer_id deal.token = P.available deal.buyer_id deal.token := credit_ne hparties
    refine (credit_self (hsame ▸ hb₀) (hsame ▸ hb) hback).trans ?_
    rw [hsame, hkept]
  have hfees : (P.release .rounding deal amount x).fees = P.fees + numeric 12 (x * deal.feeRate) := by
    rw [release, charge_fees hfee, credit_fees, credit_fees]
  rw [increase, hseller, hbuyer, hfees]
  ring

end Purse

/-! ## When the parts add up -/

section

variable {deal : EscrowDeal} {path : ReleasePath} {amount x : ℚ}

/-- What a release adds to the two balances and to the fees is the amount, unless the fee falls
halfway between two values of its column. -/
theorem release_exact_iff (e : Id) (path : ReleasePath) {st : Store schema} (hst : st.db.WF)
    (hdeal : st.db.rows (Key.deal e) = some deal) (hparties : deal.buyer_id ≠ deal.seller_id)
    (hrate : 0 ≤ deal.fee_percent ∧ deal.fee_percent ≤ 1)
    (hpath : path.Releases st.db e deal amount x) (hamount : 0 ≤ amount)
    (ha12 : amount ∈ decimals 12) (hx12 : x ∈ decimals 12) (hstored : (purse st.db e).Stored)
    (inputs : ℕ → Input schema) (hdone : ((path.run .rounding e).serve inputs st).1 = .ok true) :
    (purse st.db e).increase (purse ((path.run .rounding e).serve inputs st).2.db e) deal = amount
      ↔ Int.fract (x * deal.feeRate * 10 ^ 12) ≠ 1 / 2 := by
  have hrun : (path.run .rounding e).always (fun _ _ _ => True) _ _ (Solo.ofStore st) :=
    ReleasePath.run_always hdeal hamount hpath
  obtain ⟨v', hv', -, hends⟩ := always_serve hrun hst (meets_true _ inputs _)
  rw [hdone] at hends
  obtain ⟨hx, hxa, hpurse⟩ := hends rfl
  obtain ⟨hr₀, hr₁⟩ := EscrowDeal.feeRate_bounds hrate.1 hrate.2
  have hfee : 0 ≤ x * deal.feeRate := mul_nonneg hx hr₀
  have hpart : 0 ≤ x - x * deal.feeRate := sub_nonneg.mpr (mul_le_of_le_one_right hx hr₁)
  rw [hv', show v'.store.db = v'.saved from rfl, hpurse,
    Purse.increase_release hstored hparties hr₀ hr₁ hx hxa ha12 hx12]
  have hwhole : x - x * deal.feeRate + x * deal.feeRate = x := sub_add_cancel _ _
  rw [← numeric_add_numeric_iff hpart hfee (hwhole.symm ▸ hx12), hwhole]
  constructor
  · intro h
    linarith
  · intro h
    linarith

/-- A deal between agents 1 and 2. -/
def delivered (amount : ℚ) : EscrowDeal :=
  { buyer_id := 1, seller_id := 2, amount, description := "", fee_percent := 1 / 100
    accept_timeout_hours := 24, delivery_timeout_hours := 48, review_timeout_hours := 24
    status := .DELIVERED }

def deliveredDeal (amount : ℚ) : Store schema where
  db :=
    { rows := fun
        | .deal id => if id = 1 then some (delivered amount) else none
        | _ => none
      keys := [.deal 1]
      log := [] }
  ext := default

theorem deliveredDeal_wf (amount : ℚ) : (deliveredDeal amount).db.WF := by
  refine ⟨List.nodup_singleton _, fun k => ?_⟩
  cases k with
  | deal id => by_cases h : id = 1 <;> simp [deliveredDeal, h]
  | _ => simp [deliveredDeal]

theorem deliveredDeal_stored (amount : ℚ) : (purse (deliveredDeal amount).db 1).Stored :=
  fun _ _ => ⟨le_refl 0, zero_mem _⟩

/-- One unit is released: the fee is a cent, which its column keeps. -/
theorem release_exact_one :
    (purse (deliveredDeal 1).db 1).increase (purse (((ReleasePath.releaseEscrow 1 1).run .rounding
      1).serve (fun _ => {}) (deliveredDeal 1)).2.db 1) (delivered 1) = 1 := by
  have hone : (1 : ℚ) ∈ decimals 12 := mem_decimals.mpr ⟨10 ^ 12, by norm_num⟩
  exact (release_exact_iff 1 (.releaseEscrow 1 1) (deliveredDeal_wf 1) (rfl : _ = some (delivered 1))
    (by decide) ⟨by decide +kernel, by decide +kernel⟩ (.releaseEscrow 1 1) (by decide +kernel) hone
    hone (deliveredDeal_stored 1) (fun _ => {}) (by decide +kernel)).mpr (by decide +kernel)

/-- With eleven decimals the seller's part and the fee are both rounded up. -/
theorem release_inexact : ¬∀ (e : Id) (path : ReleasePath) (st : Store schema) (deal : EscrowDeal)
    (amount x : ℚ) (inputs : ℕ → Input schema), st.db.WF →
    st.db.rows (Key.deal e) = some deal → deal.buyer_id ≠ deal.seller_id →
    (0 ≤ deal.fee_percent ∧ deal.fee_percent ≤ 1) → path.Releases st.db e deal amount x →
    0 ≤ amount → amount ∈ decimals 12 → x ∈ decimals 12 → (purse st.db e).Stored →
    ((path.run .rounding e).serve inputs st).1 = .ok true →
    (purse st.db e).increase (purse ((path.run .rounding e).serve inputs st).2.db e) deal
      = amount := by
  intro h
  have hdecimals : (100000000005 / 100000000000 : ℚ) ∈ decimals 12 :=
    mem_decimals.mpr ⟨1000000000050, by norm_num⟩
  have hexact := h 1 .autoRelease (deliveredDeal (100000000005 / 100000000000)) _ _ _
    (fun _ => {}) (deliveredDeal_wf _) rfl (by decide)
    ⟨by decide +kernel, by decide +kernel⟩ (.autoRelease rfl) (by decide +kernel) hdecimals
    hdecimals (deliveredDeal_stored _) (by decide +kernel)
  revert hexact
  decide +kernel

end

end Sthrip
