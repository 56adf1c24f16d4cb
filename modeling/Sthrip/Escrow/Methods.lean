import Sthrip.Escrow.View

set_option autoImplicit false

/-! # What the escrow methods do to a deal

One lemma for each method of the escrow service: the ways in which it can return, and how the deal
has moved in each of them. The proofs that a method keeps a property of deals start from here and do
not look at its text. The condition `Ok` on the steps is arbitrary: where a method ends a deal, the
lemma says which statement has met it.
-/

namespace Sthrip

open Txn Prog Escrow

/-! ## Rows after an update -/

namespace EscrowDeal

/-- The deal after `accept` at time `t`. -/
def afterAccept (t : Time) (deal : EscrowDeal) : EscrowDeal :=
  { deal with
    status := .ACCEPTED, accepted_at := some t
    delivery_deadline := some (t + hours deal.delivery_timeout_hours)
    expires_at := some (t + hours deal.delivery_timeout_hours) }

/-- The deal after `deliver` at time `t`. -/
def afterDeliver (t : Time) (deal : EscrowDeal) : EscrowDeal :=
  { deal with
    status := .DELIVERED, delivered_at := some t
    review_deadline := some (t + hours deal.review_timeout_hours)
    expires_at := some (t + hours deal.review_timeout_hours) }

/-- The deal after `release` of `x` with `fee` at time `t`. -/
def afterRelease (col : Columns) (x fee : ℚ) (t : Time) (deal : EscrowDeal) : EscrowDeal :=
  { deal with
    status := .COMPLETED, release_amount := some (col 12 x), fee_amount := col 12 fee
    completed_at := some t }

/-- The deal after `cancel` at time `t`. -/
def afterCancel (t : Time) (deal : EscrowDeal) : EscrowDeal :=
  { deal with status := .CANCELLED, cancelled_at := some t }

/-- The deal after `expire` at time `t`. -/
def afterExpire (t : Time) (deal : EscrowDeal) : EscrowDeal :=
  { deal with status := .EXPIRED, completed_at := some t }

/-- The deal after its last milestone at time `t`. -/
def afterLast (col : Columns) (released fees : ℚ) (t : Time) (deal : EscrowDeal) : EscrowDeal :=
  { deal with
    status := .COMPLETED, total_released := col 12 released, total_fees := col 12 fees
    release_amount := some (col 12 released), fee_amount := col 12 fees, completed_at := some t }

/-- The deal after a milestone when `next` comes next. -/
def afterMilestone (col : Columns) (released fees : ℚ) (next : ℕ) (deal : EscrowDeal) :
    EscrowDeal :=
  { deal with
    total_released := col 12 released, total_fees := col 12 fees, current_milestone := next }

/-- The deal after the expiry of its milestone `j` at time `t`. -/
def afterExpiry (j : ℕ) (t : Time) (deal : EscrowDeal) : EscrowDeal :=
  { deal with
    status := if j = 1 then .EXPIRED else .PARTIALLY_COMPLETED, completed_at := some t }

/-- The money left for an expiry. -/
def remaining (deal : EscrowDeal) : ℚ := deal.amount - deal.total_released - deal.total_fees

end EscrowDeal

namespace EscrowMilestone

/-- The milestone after `deliver` at time `t`. -/
def afterDeliver (t : Time) (ms : EscrowMilestone) : EscrowMilestone :=
  { ms with
    status := .DELIVERED, delivered_at := some t
    review_deadline := some (t + hours ms.review_timeout_hours)
    expires_at := some (t + hours ms.review_timeout_hours) }

/-- The milestone after `release` of `x` with `fee` at time `t`. -/
def afterRelease (col : Columns) (x fee : ℚ) (t : Time) (ms : EscrowMilestone) : EscrowMilestone :=
  { ms with
    status := .COMPLETED, release_amount := some (col 12 x), fee_amount := col 12 fee
    completed_at := some t }

/-- The milestone after `expire` at time `t`. -/
def afterExpire (t : Time) (ms : EscrowMilestone) : EscrowMilestone :=
  { ms with status := .EXPIRED, expires_at := some t }

end EscrowMilestone

/-! ## Rows of a new deal -/

/-- The row `create_milestones` makes of an entry. -/
def MilestoneData.row (m : MilestoneData) : EscrowMilestone :=
  { description := m.description, amount := m.amount
    delivery_timeout_hours := m.delivery_timeout_hours
    review_timeout_hours := m.review_timeout_hours, status := .PENDING }

/-- The milestones of a list of entries, numbered from one. -/
def milestonesOf (data : List MilestoneData) (j : ℕ) : Option EscrowMilestone :=
  if j = 0 then none else (data[j - 1]?).map MilestoneData.row

theorem milestonesOf_append (data : List MilestoneData) (m : MilestoneData) :
    milestonesOf (data ++ [m])
      = Function.update (milestonesOf data) (data.length + 1) (some m.row) := by
  funext j
  unfold milestonesOf
  by_cases hj : j = data.length + 1
  · subst hj
    simp
  · rw [Function.update_of_ne hj]
    by_cases h0 : j = 0
    · simp [h0]
    · rw [if_neg h0, if_neg h0]
      rcases Nat.lt_or_ge (j - 1) data.length with hlt | hge
      · rw [List.getElem?_append_left hlt]
      · rw [List.getElem?_eq_none hge, List.getElem?_eq_none (by simp; omega)]

theorem milestonesOf_dom (data : List MilestoneData) (j : ℕ) :
    (milestonesOf data j).isSome ↔ 1 ≤ j ∧ j ≤ data.length := by
  unfold milestonesOf
  by_cases h0 : j = 0
  · simp [h0]
  · rw [if_neg h0, Option.isSome_map, isSome_getElem?]
    omega

theorem milestonesOf_mem {data : List MilestoneData} {j : ℕ} {ms : EscrowMilestone}
    (h : milestonesOf data j = some ms) : ∃ m ∈ data, ms = m.row := by
  unfold milestonesOf at h
  split at h
  · cases h
  · obtain ⟨m, hm, rfl⟩ := Option.map_eq_some_iff.mp h
    exact ⟨m, List.mem_of_getElem? hm, rfl⟩

/-- The entry with the amount that the column keeps of it. -/
def MilestoneData.kept (col : Columns) (m : MilestoneData) : MilestoneData :=
  { m with amount := col 12 m.amount }

/-- The deal has just been agreed on, over `amount`, with the milestones of `data`. -/
structure EscrowDeal.Agreed (col : Columns) (amount : ℚ) (data : List MilestoneData)
    (deal : EscrowDeal) : Prop where
  amount_eq : deal.amount = col 12 amount
  fee_eq : deal.fee_percent = col 4 computeFeePercent
  status : deal.status = .CREATED
  multi : deal.is_multi_milestone = true
  count : deal.milestone_count = data.length
  current : deal.current_milestone = 1
  released : deal.total_released = 0
  fees : deal.total_fees = 0

/-- A positive amount is not the sum of no milestones. -/
theorem EscrowDeal.Agreed.one_le_count {col : Columns} {amount : ℚ} {data : List MilestoneData}
    {deal : EscrowDeal} (h : deal.Agreed col amount data) (hpos : 0 < amount)
    (hsum : (data.map MilestoneData.amount).sum = amount) : 1 ≤ deal.milestone_count := by
  rw [h.count]
  rcases data with - | ⟨m, data⟩
  · rw [← hsum] at hpos
    simp at hpos
  · exact Nat.succ_pos _

/-! ## Payments -/

namespace Escrow

/-- A release of `x` out of `amount`: to the seller, to the buyer, and the fee. -/
def release (col : Columns) (E : Escrow) (amount x fee : ℚ) : Escrow :=
  ((E.pay (max (x - fee) 0)).pay (max (amount - x) 0)).pay (if 0 < fee then col 12 fee else 0)

/-- A release of everything: to the seller, and the fee. -/
def releaseAll (col : Columns) (E : Escrow) (amount fee : ℚ) : Escrow :=
  (E.pay (max (amount - fee) 0)).pay (if 0 < fee then col 12 fee else 0)

@[simp] theorem release_deal (col : Columns) (E : Escrow) (amount x fee : ℚ) :
    (E.release col amount x fee).deal = E.deal := rfl
@[simp] theorem release_milestone (col : Columns) (E : Escrow) (amount x fee : ℚ) :
    (E.release col amount x fee).milestone = E.milestone := rfl
@[simp] theorem releaseAll_deal (col : Columns) (E : Escrow) (amount fee : ℚ) :
    (E.releaseAll col amount fee).deal = E.deal := rfl
@[simp] theorem releaseAll_milestone (col : Columns) (E : Escrow) (amount fee : ℚ) :
    (E.releaseAll col amount fee).milestone = E.milestone := rfl

/-- Of `n` milestones those up to the `j`-th are completed, and the others wait. -/
structure CompletedUpto (E : Escrow) (n j : ℕ) : Prop where
  dom : ∀ i, (E.milestone i).isSome ↔ 1 ≤ i ∧ i ≤ n
  le : j ≤ n
  upto : ∀ i ms, E.milestone i = some ms → i ≤ j → ms.status = .COMPLETED
  after : ∀ i ms, E.milestone i = some ms → j < i → ms.status = .PENDING

/-- What `advance` does after the milestone `j`: it completes the deal, activates the next milestone,
or finds none that waits. `count` is the number of completed milestones. -/
inductive Advances (col : Columns) (E : Escrow) (deal : EscrowDeal) (j : ℕ) (released fees : ℚ) :
    Escrow → Prop where
  | last (count : ℕ) (t t' : Time) (hcount : ∀ n, E.CompletedUpto n j → count = j)
      (h : deal.milestone_count ≤ count) : Advances col E deal j released fees
        ((E.setDeal (deal.afterLast col released fees t)).mapMilestones (·.cancelled t'))
  | next (count : ℕ) (ms : EscrowMilestone) (t : Time)
      (hcount : ∀ n, E.CompletedUpto n j → count = j) (h : count < deal.milestone_count)
      (hms : E.milestone (j + 1) = some ms) : Advances col E deal j released fees
        ((E.setDeal (deal.afterMilestone col released fees (j + 1))).setMilestone (j + 1)
          (ms.activated t))
  | stuck (count : ℕ) (hcount : ∀ n, E.CompletedUpto n j → count = j)
      (h : count < deal.milestone_count)
      (hmiss : ∀ ms, E.milestone (j + 1) = some ms → ms.status ≠ .PENDING) :
      Advances col E deal j released fees
        (E.setDeal (deal.afterMilestone col released fees (j + 1)))

variable {col : Columns} {E E' : Escrow} {deal : EscrowDeal} {j : ℕ} {released fees : ℚ}

theorem Advances.exists_deal (h : E.Advances col deal j released fees E') :
    ∃ deal', E'.deal = some deal' ∧ deal'.is_multi_milestone = deal.is_multi_milestone := by
  cases h with
  | last => exact ⟨_, rfl, rfl⟩
  | next => exact ⟨_, rfl, rfl⟩
  | stuck => exact ⟨_, rfl, rfl⟩

end Escrow

/-! ## The methods -/

namespace EscrowService

variable {col : Columns} {Ok : StepCond schema} {R : Exn → Solo schema → Prop}
  {Q : Solo schema → Prop} {v : Solo schema} {e : Id} {E : Escrow}

/-- The row that was found is the row that is updated. -/
theorem deal_eq {deal deal' : EscrowDeal} (hd : E.deal = some deal) (hd' : E.deal = some deal') :
    deal' = deal := Option.some.inj (hd'.symm.trans hd)

theorem milestone_eq {j : ℕ} {ms ms' : EscrowMilestone} (hms : E.milestone j = some ms)
    (hms' : E.milestone j = some ms') : ms' = ms := Option.some.inj (hms'.symm.trans hms)

theorem acceptEscrow_always {seller_id : Id} (hE : escrows v.db e = E) (hR : ∀ x, R x v)
    (hsingle : ∀ deal t db', E.deal = some deal → deal.status = .CREATED →
      deal.is_multi_milestone = false → DealMoves v.db db' e (E.setDeal (deal.afterAccept t)) →
      Q { v with db := db' })
    (hfirst : ∀ deal t ms t' db', E.deal = some deal → deal.status = .CREATED →
      deal.is_multi_milestone = true → E.milestone 1 = some ms →
      DealMoves v.db db' e ((E.setDeal (deal.afterAccept t)).setMilestone 1 (ms.activated t')) →
      Q { v with db := db' })
    (hstuck : ∀ deal t db', E.deal = some deal → deal.status = .CREATED →
      deal.is_multi_milestone = true → (∀ ms, E.milestone 1 = some ms → ms.status ≠ .PENDING) →
      DealMoves v.db db' e (E.setDeal (deal.afterAccept t)) → Q { v with db := db' }) :
    (acceptEscrow e seller_id).always Ok (fun _ v' => Q v') R v := by
  refine always_bind (getByIdForUpdate_always hE ?_)
  refine always_bind (always_orRaise (fun _ => hR _) fun deal hd => ?_)
  refine always_bind (always_raiseIf (fun _ => hR _) fun _ => ?_)
  refine always_bind (always_raiseIf (fun _ => hR _) fun hs => ?_)
  refine always_bind (always_now fun _ => ?_)
  refine always_bind (always_raiseIf (fun _ => hR _) fun _ => ?_)
  refine always_bind (always_select ?_)
  refine always_bind (always_raiseIf (fun _ => hR _) fun _ => ?_)
  rw [not_not] at hs
  refine always_bind (always_bind (always_now fun t =>
    updateDeal_always hE (fun deal' x db₁ hd' _ _ m₁ => ?_) fun hmiss => ?_))
  · obtain rfl := deal_eq hd hd'
    refine always_bind (always_onlyIf (fun hmulti => ?_) fun hmulti => ?_)
    · refine activateNext_escrow m₁.self (fun ms t' db₂ hms _ m₂ => ?_) fun hmiss => ?_
      · exact refetch_always m₂.self rfl (hfirst deal' t ms t' db₂ hd hs hmulti hms (m₁.trans m₂))
      · exact refetch_always m₁.self rfl (hstuck deal' t db₁ hd hs hmulti hmiss m₁)
    · exact refetch_always m₁.self rfl (hsingle deal' t db₁ hd hs (by simpa using hmulti) m₁)
  · have := hmiss deal hd
    simp [hs] at this

theorem deliverEscrow_always {seller_id : Id} (hE : escrows v.db e = E) (hR : ∀ x, R x v)
    (h : ∀ deal t db', E.deal = some deal → deal.status = .ACCEPTED →
      deal.is_multi_milestone = false → DealMoves v.db db' e (E.setDeal (deal.afterDeliver t)) →
      Q { v with db := db' }) :
    (deliverEscrow e seller_id).always Ok (fun _ v' => Q v') R v := by
  refine always_bind (getByIdForUpdate_always hE ?_)
  refine always_bind (always_orRaise (fun _ => hR _) fun deal hd => ?_)
  refine always_bind (always_raiseIf (fun _ => hR _) fun hsingle => ?_)
  refine always_bind (always_raiseIf (fun _ => hR _) fun _ => ?_)
  refine always_bind (always_raiseIf (fun _ => hR _) fun hs => ?_)
  rw [not_not] at hs
  refine always_bind (always_bind (always_now fun t =>
    updateDeal_always hE (fun deal' x db₁ hd' _ _ m₁ => ?_) fun hmiss => ?_))
  · obtain rfl := deal_eq hd hd'
    exact refetch_always m₁.self rfl (h deal' t db₁ hd hs (by simpa using hsingle) m₁)
  · have := hmiss deal hd
    simp [hs] at this

theorem releaseEscrow_always {buyer_id : Id} {x : ℚ} (hE : escrows v.db e = E) (hR : ∀ x, R x v)
    (h : ∀ deal t y db₁ db', E.deal = some deal → deal.status = .DELIVERED →
      deal.is_multi_milestone = false → 0 ≤ x → x ≤ deal.amount →
      DealMoves v.db db₁ e (E.release col deal.amount x (x * deal.feeRate)) →
      Ok { v with db := db₁ } (.update (Key.deal e) (fun deal => deal.status = .DELIVERED)
        (EscrowDeal.afterRelease col x (x * deal.feeRate) t)) y →
      DealMoves v.db db' e ((E.release col deal.amount x (x * deal.feeRate)).setDeal
        (deal.afterRelease col x (x * deal.feeRate) t)) → Q { v with db := db' }) :
    (releaseEscrow col e buyer_id x).always Ok (fun _ v' => Q v') R v := by
  refine always_bind (getByIdForUpdate_always hE ?_)
  refine always_bind (always_orRaise (fun _ => hR _) fun deal hd => ?_)
  refine always_bind (always_raiseIf (fun _ => hR _) fun hsingle => ?_)
  refine always_bind (always_raiseIf (fun _ => hR _) fun _ => ?_)
  refine always_bind (always_raiseIf (fun _ => hR _) fun hs => ?_)
  rw [not_not] at hs
  refine always_bind (always_raiseIf (fun _ => hR _) fun hrange => ?_)
  rw [not_or, not_lt, not_lt] at hrange
  refine always_bind (creditPositive_escrow hE fun db₁ m₁ => ?_)
  refine always_bind (creditPositive_escrow m₁.self fun db₂ m₂ => ?_)
  refine always_bind (recordFee_escrow m₂.self fun db₃ m₃ => ?_)
  have m := (m₁.trans m₂).trans m₃
  refine always_bind (always_bind (always_now fun t =>
    updateDeal_always m₃.self (fun deal' y db₄ hd' _ hok m₄ => ?_) fun hmiss => ?_))
  · obtain rfl := deal_eq hd hd'
    refine always_bind (applyCompletionTrust_escrow m₄.self fun db₅ m₅ => ?_)
    exact refetch_always m₅.self rfl (h deal' t y db₃ db₅ hd hs (by simpa using hsingle) hrange.1
      hrange.2 m hok ((m.trans m₄).trans m₅))
  · have := hmiss deal hd
    simp [hs] at this

theorem cancelEscrow_always {buyer_id : Id} (hE : escrows v.db e = E) (hR : ∀ x, R x v)
    (h : ∀ deal t y db₁ db', E.deal = some deal → deal.status = .CREATED →
      DealMoves v.db db₁ e (E.pay (max deal.amount 0)) →
      Ok { v with db := db₁ } (.update (Key.deal e) (fun deal => deal.status = .CREATED)
        (EscrowDeal.afterCancel t)) y →
      DealMoves v.db db' e ((E.pay (max deal.amount 0)).setDeal (deal.afterCancel t)) →
      Q { v with db := db' }) :
    (cancelEscrow col e buyer_id).always Ok (fun _ v' => Q v') R v := by
  refine always_bind (getByIdForUpdate_always hE ?_)
  refine always_bind (always_orRaise (fun _ => hR _) fun deal hd => ?_)
  refine always_bind (always_raiseIf (fun _ => hR _) fun _ => ?_)
  refine always_bind (always_raiseIf (fun _ => hR _) fun hs => ?_)
  rw [not_not] at hs
  refine always_bind (credit_escrow hE fun _ db₁ m₁ => ?_)
  refine always_bind (always_bind (always_now fun t =>
    updateDeal_always m₁.self (fun deal' y db₂ hd' _ hok m₂ => ?_) fun hmiss => ?_))
  · obtain rfl := deal_eq hd hd'
    exact refetch_always m₂.self rfl (h deal' t y db₁ db₂ hd hs m₁ hok (m₁.trans m₂))
  · have := hmiss deal hd
    simp [hs] at this

theorem deliverMilestone_always {j : ℕ} {seller_id : Id} (hE : escrows v.db e = E)
    (hR : ∀ x, R x v)
    (h : ∀ deal ms t db', E.deal = some deal → deal.status = .ACCEPTED →
      E.milestone j = some ms → ms.status = .ACTIVE →
      DealMoves v.db db' e (E.setMilestone j (ms.afterDeliver t)) → Q { v with db := db' }) :
    (deliverMilestone e j seller_id).always Ok (fun _ v' => Q v') R v := by
  refine always_bind (getByIdForUpdate_always hE ?_)
  refine always_bind (always_orRaise (fun _ => hR _) fun deal hd => ?_)
  refine always_bind (always_raiseIf (fun _ => hR _) fun _ => ?_)
  refine always_bind (always_raiseIf (fun _ => hR _) fun _ => ?_)
  refine always_bind (always_raiseIf (fun _ => hR _) fun hs => ?_)
  rw [not_not] at hs
  refine always_bind (getMilestoneForUpdate_always hE ?_)
  refine always_bind (always_orRaise (fun _ => hR _) fun ms hms => ?_)
  refine always_bind (always_raiseIf (fun _ => hR _) fun hact => ?_)
  rw [not_not] at hact
  refine always_bind (always_bind (always_now fun t =>
    updateMilestone_always hE (fun ms' x db₁ hms' _ _ m₁ => ?_) fun hmiss => ?_))
  · obtain rfl := milestone_eq hms hms'
    refine always_bind (always_raiseIf (fun h => absurd h (by simp)) fun _ => ?_)
    have hrow : db₁.rows (Key.milestone e j) = some (ms'.afterDeliver t) := by
      rw [← escrows_milestone, m₁.self]
      exact setMilestone_self ..
    refine always_bind (always_select (always_orRaise (fun hnone => ?_) fun _ _ => ?_))
    · rw [hrow] at hnone
      cases hnone
    · exact h deal ms' t db₁ hd hs hms hact m₁
  · have := hmiss ms hms
    simp [hact] at this

/-- The end of a milestone. -/
theorem advance_always {deal : EscrowDeal} {j : ℕ} {released fees : ℚ} (hE : escrows v.db e = E)
    (hd : E.deal = some deal)
    (h : ∀ db' E', DealMoves v.db db' e E' → E.Advances col deal j released fees E' →
      Q { v with db := db' }) :
    (advance col e deal j released fees).always Ok (fun _ v' => Q v') R v := by
  refine always_bind (getByEscrow_always hE fun l hnodup hmem => ?_)
  have hcount : ∀ n, E.CompletedUpto n j →
      l.countP (fun m => m.2.status = .COMPLETED ∨ m.1 = j) = j := fun n hu =>
    countP_upto hnodup hmem hu.dom hu.le fun i ms hms => by
      rw [decide_eq_true_eq]
      constructor
      · rintro (hc | rfl)
        · by_contra hlt
          rw [hu.after i ms hms (not_le.mp hlt)] at hc
          cases hc
        · exact le_rfl
      · exact fun hi => .inl (hu.upto i ms hms hi)
  show Prog.always _ (ite _ _ _) _ _ _
  split
  · next hlast =>
      refine always_bind (always_now fun t => always_bind (updateDeal_always hE
        (fun deal' x db₁ hd' _ _ m₁ => ?_) fun hmiss => absurd (hmiss deal hd) (by simp)))
      obtain rfl := deal_eq hd hd'
      refine always_bind (applyCompletionTrust_escrow m₁.self fun db₂ m₂ => ?_)
      refine cancelPending_escrow m₂.self fun t' db₃ m₃ => ?_
      exact h db₃ _ ((m₁.trans m₂).trans m₃) (.last _ t t' hcount hlast)
  · next hnext =>
      refine always_bind (updateDeal_always hE
        (fun deal' x db₁ hd' _ _ m₁ => ?_) fun hmiss => absurd (hmiss deal hd) (by simp))
      obtain rfl := deal_eq hd hd'
      refine activateNext_escrow m₁.self (fun ms t db₂ hms _ m₂ => ?_) fun hmiss => ?_
      · exact h db₂ _ (m₁.trans m₂) (.next _ ms t hcount (not_le.mp hnext) hms)
      · exact h db₁ _ m₁ (.stuck _ hcount (not_le.mp hnext) hmiss)

theorem releaseMilestone_always {j : ℕ} {buyer_id : Id} {x : ℚ} (hE : escrows v.db e = E)
    (hR : ∀ x, R x v)
    (h : ∀ deal ms t db' E', E.deal = some deal → deal.status = .ACCEPTED →
      E.milestone j = some ms → ms.status = .DELIVERED → 0 ≤ x → x ≤ ms.amount →
      DealMoves v.db db' e E' →
      ((E.release col ms.amount x (x * deal.feeRate)).setMilestone j
        (ms.afterRelease col x (x * deal.feeRate) t)).Advances col deal j
          (deal.total_released + x) (deal.total_fees + x * deal.feeRate) E' →
      Q { v with db := db' }) :
    (releaseMilestone col e j buyer_id x).always Ok (fun _ v' => Q v') R v := by
  refine always_bind (getByIdForUpdate_always hE ?_)
  refine always_bind (always_orRaise (fun _ => hR _) fun deal hd => ?_)
  refine always_bind (always_raiseIf (fun _ => hR _) fun _ => ?_)
  refine always_bind (always_raiseIf (fun _ => hR _) fun _ => ?_)
  refine always_bind (always_raiseIf (fun _ => hR _) fun hs => ?_)
  rw [not_not] at hs
  refine always_bind (getMilestoneForUpdate_always hE ?_)
  refine always_bind (always_orRaise (fun _ => hR _) fun ms hms => ?_)
  refine always_bind (always_raiseIf (fun _ => hR _) fun hdel => ?_)
  rw [not_not] at hdel
  refine always_bind (always_raiseIf (fun _ => hR _) fun hrange => ?_)
  rw [not_or, not_lt, not_lt] at hrange
  refine always_bind (creditPositive_escrow hE fun db₁ m₁ => ?_)
  refine always_bind (creditPositive_escrow m₁.self fun db₂ m₂ => ?_)
  refine always_bind (recordFee_escrow m₂.self fun db₃ m₃ => ?_)
  have m := (m₁.trans m₂).trans m₃
  refine always_bind (always_bind (always_now fun t =>
    updateMilestone_always m₃.self (fun ms' y db₄ hms' _ _ m₄ => ?_) fun hmiss => ?_))
  · obtain rfl := milestone_eq hms hms'
    refine always_bind (always_raiseIf (fun h => absurd h (by simp)) fun _ => ?_)
    refine always_bind (advance_always m₄.self hd fun db₅ E₅ m₅ hadv => ?_)
    obtain ⟨deal₅, hd₅, -⟩ := hadv.exists_deal
    refine always_bind (getById_always m₅.self (always_bind (always_orRaise
      (fun h => by simp [hd₅] at h) fun _ _ => ?_)))
    exact h deal ms' t db₅ E₅ hd hs hms hdel hrange.1 hrange.2 ((m.trans m₄).trans m₅) hadv
  · have := hmiss ms hms
    simp [hdel] at this

/-! ## The sweep -/

/-- `expire` of a deal that a sweep has locked. -/
theorem expire_always {deal : EscrowDeal} {Q : Bool → Solo schema → Prop}
    (hE : escrows v.db e = E) (hd : E.deal = some deal)
    (hs : deal.status = .CREATED ∨ deal.status = .ACCEPTED)
    (h : ∀ t y db', Ok v (.update (Key.deal e)
        (fun deal => deal.status ∈ [.CREATED, .ACCEPTED]) (EscrowDeal.afterExpire t)) y →
      DealMoves v.db db' e (E.setDeal (deal.afterExpire t)) → Q true { v with db := db' }) :
    (EscrowRepository.expire e).always Ok Q R v := by
  refine always_bind (always_now fun t =>
    updateDeal_always hE (fun deal' y db₁ hd' _ hok m₁ => ?_) fun hmiss => ?_)
  · obtain rfl := deal_eq hd hd'
    exact h t y db₁ hok m₁
  · have := hmiss deal hd
    rcases hs with hs | hs
    · simp [hs] at this
    · simp [hs] at this

/-- The expiry of a deal refunds it, an automatic release pays it out; a deal in another state stays as
it is. -/
theorem resolveSingle_always (hE : escrows v.db e = E) (hsame : Q v)
    (hexpired : ∀ deal t y db', E.deal = some deal →
      (deal.status = .CREATED ∨ deal.status = .ACCEPTED) →
      Ok v (.update (Key.deal e) (fun deal => deal.status ∈ [.CREATED, .ACCEPTED])
        (EscrowDeal.afterExpire t)) y →
      DealMoves v.db db' e ((E.setDeal (deal.afterExpire t)).pay (max deal.amount 0)) →
      Q { v with db := db' })
    (hreleased : ∀ deal t y db', E.deal = some deal → deal.status = .DELIVERED →
      Ok v (.update (Key.deal e) (fun deal => deal.status = .DELIVERED)
        (EscrowDeal.afterRelease col deal.amount (deal.amount * deal.feeRate) t)) y →
      DealMoves v.db db' e ((E.setDeal (deal.afterRelease col deal.amount
        (deal.amount * deal.feeRate) t)).releaseAll col deal.amount
          (deal.amount * deal.feeRate)) → Q { v with db := db' }) :
    (resolveSingle col e).always Ok (fun _ v' => Q v') R v := by
  refine always_bind (getByIdForUpdate_always hE ?_)
  cases hd : E.deal with
  | none => exact hsame
  | some deal =>
      cases hs : deal.status with
      | CREATED =>
          simp only [hs]
          refine always_bind (expire_always hE hd (.inl hs) fun t y db₁ hok m₁ => ?_)
          refine always_bind (credit_escrow m₁.self fun _ db₂ m₂ => ?_)
          exact always_bind (refetch_always m₂.self rfl
            (hexpired deal t y db₂ hd (.inl hs) hok (m₁.trans m₂)))
      | ACCEPTED =>
          simp only [hs]
          refine always_bind (expire_always hE hd (.inr hs) fun t y db₁ hok m₁ => ?_)
          refine always_bind (credit_escrow m₁.self fun _ db₂ m₂ => ?_)
          refine always_bind (adjustTrust_escrow m₂.self fun db₃ m₃ => ?_)
          exact always_bind (refetch_always m₃.self rfl
            (hexpired deal t y db₃ hd (.inr hs) hok ((m₁.trans m₂).trans m₃)))
      | DELIVERED =>
          simp only [hs]
          refine always_bind (always_bind (always_now fun t =>
            updateDeal_always hE (fun deal' y db₁ hd' _ hok m₁ => ?_) fun hmiss => ?_))
          · obtain rfl := deal_eq hd hd'
            refine always_bind (creditPositive_escrow m₁.self fun db₂ m₂ => ?_)
            refine always_bind (recordFee_escrow m₂.self fun db₃ m₃ => ?_)
            refine always_bind (applyCompletionTrust_escrow m₃.self fun db₄ m₄ => ?_)
            exact always_bind (refetch_always m₄.self rfl
              (hreleased deal' t y db₄ hd hs hok (((m₁.trans m₂).trans m₃).trans m₄)))
          · have := hmiss deal hd
            simp [hs] at this
      | _ =>
          simp only [hs]
          exact hsame

/-- The expiry of an active milestone closes the deal, and a delivered one is released. -/
theorem resolveMilestoneExpiry_always {j : ℕ} (hE : escrows v.db e = E) (hsame : Q v)
    (hexpired : ∀ deal ms t y t' t'' db', E.deal = some deal → deal.status = .ACCEPTED →
      E.milestone j = some ms → ms.status = .ACTIVE →
      Ok v (.update (Key.milestone e j) (fun ms => ms.status = .ACTIVE)
        (EscrowMilestone.afterExpire t)) y →
      DealMoves v.db db' e ((((E.setMilestone j (ms.afterExpire t)).mapMilestones
        (·.cancelled t')).pay (max deal.remaining 0)).setDeal (deal.afterExpiry j t'')) →
      Q { v with db := db' })
    (hreleased : ∀ deal ms t db' E', E.deal = some deal → deal.status = .ACCEPTED →
      E.milestone j = some ms → ms.status = .DELIVERED → DealMoves v.db db' e E' →
      ((E.setMilestone j (ms.afterRelease col ms.amount (ms.amount * deal.feeRate) t)).releaseAll col
        ms.amount (ms.amount * deal.feeRate)).Advances col deal j (deal.total_released + ms.amount)
          (deal.total_fees + ms.amount * deal.feeRate) E' → Q { v with db := db' }) :
    (resolveMilestoneExpiry col e j).always Ok (fun _ v' => Q v') R v := by
  refine always_bind (getByIdForUpdate_always hE ?_)
  cases hd : E.deal with
  | none => exact hsame
  | some deal =>
      by_cases hs : deal.status = .ACCEPTED
      swap
      · simp only [hs, ne_eq, not_false_eq_true, if_true]
        exact hsame
      simp only [hs, ne_eq, not_true_eq_false, if_false]
      refine always_bind (getMilestoneForUpdate_always hE ?_)
      cases hms : E.milestone j with
      | none => exact hsame
      | some ms =>
          cases hst : ms.status with
          | ACTIVE =>
              simp only [hst]
              refine always_bind (always_bind (always_now fun t =>
                updateMilestone_always hE (fun ms' y db₁ hms' _ hok m₁ => ?_) fun hmiss => ?_))
              · obtain rfl := milestone_eq hms hms'
                refine always_bind (cancelPending_escrow m₁.self fun t' db₂ m₂ => ?_)
                refine always_bind (creditPositive_escrow m₂.self fun db₃ m₃ => ?_)
                refine always_bind (always_now fun t'' => always_bind (updateDeal_always m₃.self
                  (fun deal' x db₄ hd' _ _ m₄ => ?_) fun hmiss => absurd (hmiss deal hd) (by simp)))
                obtain rfl := deal_eq hd hd'
                refine always_bind (adjustTrust_escrow m₄.self fun db₅ m₅ => ?_)
                exact always_bind (refetch_always m₅.self rfl (hexpired deal' ms' t y t' t'' db₅ hd hs
                  hms hst hok ((((m₁.trans m₂).trans m₃).trans m₄).trans m₅)))
              · have := hmiss ms hms
                simp [hst] at this
          | DELIVERED =>
              simp only [hst]
              refine always_bind (always_bind (always_now fun t =>
                updateMilestone_always hE (fun ms' y db₁ hms' _ _ m₁ => ?_) fun hmiss => ?_))
              · obtain rfl := milestone_eq hms hms'
                refine always_bind (creditPositive_escrow m₁.self fun db₂ m₂ => ?_)
                refine always_bind (recordFee_escrow m₂.self fun db₃ m₃ => ?_)
                refine always_bind (advance_always m₃.self hd fun db₄ E₄ m₄ hadv => ?_)
                obtain ⟨deal₄, hd₄, -⟩ := hadv.exists_deal
                exact always_bind (refetch_always m₄.self hd₄ (hreleased deal ms' t db₄ E₄ hd hs hms hst
                  (((m₁.trans m₂).trans m₃).trans m₄) hadv))
              · have := hmiss ms hms
                simp [hst] at this
          | _ =>
              simp only [hst]
              exact hsame

/-- A sweep handles one deal after another, and goes on when one raises. -/
theorem resolveExpired_always {Inv : Solo schema → Prop}
    (hsingle : ∀ e v, Inv v →
      (resolveSingle col e).always Ok (fun _ v' => Inv v') (fun _ v' => Inv v') v)
    (hmilestone : ∀ e j v, Inv v →
      (resolveMilestoneExpiry col e j).always Ok (fun _ v' => Inv v') (fun _ v' => Inv v') v)
    (hv : Inv v) : (resolveExpired col).always Ok (fun _ v' => Inv v') R v := by
  have sweep : ∀ {γ : Type} (l : List γ) (f : γ → Program Bool) (v₁ : Solo schema),
      (∀ a v₁, Inv v₁ → (f a).always Ok (fun _ v₂ => Inv v₂) (fun _ v₂ => Inv v₂) v₁) →
      Inv v₁ → (tally l fun a => tryCatch (f a) fun _ => return false).always Ok
        (fun _ v₂ => Inv v₂) R v₁ := by
    intro γ l f v₁ hf h₁
    exact always_tally Inv l (fun a _ v₂ h₂ => always_tryCatch
      (always_mono (hf a v₂ h₂) (fun _ _ h => h) fun _ _ h => h)) h₁
  refine always_bind (always_bind (always_now fun t => always_bind (always_query
    fun deals _ _ => ?_)))
  refine always_bind (always_mono (sweep _ (resolveSingle col) v hsingle hv) (fun _ v₂ h₂ => ?_)
    fun _ _ h => h)
  refine always_bind (always_bind (always_now fun t => always_bind (always_query
    fun milestones _ _ => ?_)))
  exact always_bind (always_mono (sweep _
    (fun m : Id × ℕ => resolveMilestoneExpiry col m.1 m.2) v₂
    (fun m v₁ h₁ => hmilestone m.1 m.2 v₁ h₁) h₂) (fun _ _ h => h) fun _ _ h => h)

/-! ## Creation -/

/-- `create_milestones` gives a deal without milestones the milestones of its entries. -/
theorem createMilestones_always {data : List MilestoneData} (hE : escrows v.db e = E)
    (hR : ∀ x db', R x { v with db := db' })
    (h : ∀ db' E', DealMoves v.db db' e E' → E'.deal = E.deal →
      (E.milestone = (fun _ => none) →
        E' = { E with milestone := milestonesOf (data.map (MilestoneData.kept col)) } ∧
          ∀ m ∈ data.map (MilestoneData.kept col), 0 < m.amount) → Q { v with db := db' }) :
    (MilestoneRepository.createMilestones col e data).always Ok (fun _ v' => Q v') R v := by
  -- the entries of `done` have got their milestones
  let Inv : List (MilestoneData × ℕ) → Solo schema → Prop := fun l v' =>
    ∃ db' E' done rest, v' = { v with db := db' } ∧ data = done ++ rest ∧
      l = rest.zipIdx (done.length + 1) ∧ DealMoves v.db db' e E' ∧ E'.deal = E.deal ∧
      (E.milestone = (fun _ => none) →
        E' = { E with milestone := milestonesOf (done.map (MilestoneData.kept col)) } ∧
          ∀ m ∈ done.map (MilestoneData.kept col), 0 < m.amount)
  have hstart : Inv (data.zipIdx 1) v := by
    refine ⟨v.db, E, [], data, rfl, rfl, rfl, .refl hE, rfl, fun hnone => ⟨?_, by simp⟩⟩
    refine Escrow.ext rfl ?_ rfl
    rw [hnone]
    funext j
    simp [milestonesOf]
  refine always_mono (always_forEach (R := fun _ v' => ∃ db', v' = { v with db := db' }) Inv
    (fun a l v' hv' => ?_) _ hstart) (fun _ v' hv' => ?_) fun x v' ⟨db', hv'⟩ => hv' ▸ hR x db'
  · obtain ⟨db', E', done, rest, rfl, rfl, hl, hm, hdeal, hE'⟩ := hv'
    cases rest with
    | nil => cases hl
    | cons m rest =>
        rw [List.zipIdx_cons, List.cons.injEq] at hl
        obtain ⟨rfl, rfl⟩ := hl
        refine always_bind (always_raiseIf (fun _ => ⟨_, rfl⟩) fun _ => ?_)
        refine always_bind (always_raiseIf (fun _ => ⟨_, rfl⟩) fun hpos => ?_)
        rw [not_not] at hpos
        refine always_bind (always_create (fun _ hnew _ => ?_) fun r hr => ?_)
        · refine always_raiseIf (fun hf => by cases hf) fun _ => ?_
          have hput := DealMoves.put_milestone (e := e) (done.length + 1) (m.kept col).row hm.self
          refine ⟨_, _, done ++ [m], rest, rfl, by simp, ?_, hm.trans hput, hdeal,
            fun hnone => ⟨?_, ?_⟩⟩
          · simp only [List.length_append, List.length_singleton]
          · obtain ⟨rfl, -⟩ := hE' hnone
            refine Escrow.ext rfl ?_ rfl
            rw [List.map_append, List.map_singleton, milestonesOf_append, List.length_map]
            rfl
          · intro m' hm'
            rw [List.map_append, List.map_singleton] at hm'
            rcases List.mem_append.mp hm' with hm' | hm'
            · exact (hE' hnone).2 m' hm'
            · rw [List.mem_singleton.mp hm']
              exact hpos
        · exact always_raiseIf (fun _ => ⟨_, rfl⟩) fun hf => absurd rfl hf
  · obtain ⟨db', E', done, rest, rfl, rfl, hl, hm, hdeal, hE'⟩ := hv'
    obtain rfl : rest = [] := by
      cases rest with
      | nil => rfl
      | cons a l => cases hl
    rw [List.append_nil] at h
    exact h db' E' hm hdeal hE'

/-- A new deal, without milestones or with those of its entries. -/
theorem createEscrow_always {buyer_id seller_id : Id} {amount : ℚ} {description : String}
    {accept_timeout_hours delivery_timeout_hours review_timeout_hours : ℤ}
    {milestones : Option (List MilestoneData)} (hE : escrows v.db e = E)
    (hR : ∀ x db', R x { v with db := db' })
    (hsingle : ∀ deal db', E.deal = none → deal.is_multi_milestone = false →
      DealMoves v.db db' e (E.setDeal deal) → Q { v with db := db' })
    (hmulti : ∀ deal data db' E', E.deal = none → 0 < amount →
      (data.map MilestoneData.amount).sum = amount → EscrowDeal.Agreed col amount data deal →
      DealMoves v.db db' e E' → E'.deal = some deal →
      (E.milestone = (fun _ => none) →
        E' = { E with deal := some deal, milestone := milestonesOf (data.map (MilestoneData.kept col)) } ∧
          ∀ m ∈ data.map (MilestoneData.kept col), 0 < m.amount) → Q { v with db := db' }) :
    (createEscrow col e buyer_id seller_id amount description accept_timeout_hours
      delivery_timeout_hours review_timeout_hours milestones).always Ok (fun _ v' => Q v') R v := by
  have hRv : ∀ x, R x v := fun x => hR x v.db
  refine always_bind (always_raiseIf (fun _ => hRv _) fun _ => ?_)
  refine always_bind (always_raiseIf (fun _ => hRv _) fun hpos => ?_)
  refine always_bind (always_raiseIf (fun _ => hRv _) fun hsum => ?_)
  refine always_bind (always_select (always_bind (always_orRaise (fun _ => hRv _) fun _ _ => ?_)))
  refine always_bind (always_raiseIf (fun _ => hRv _) fun _ => ?_)
  rw [not_le] at hpos
  refine always_bind (deduct_escrow hE hpos.le (fun _ db₁ m₁ => ?_) fun x db' => hR x db')
  refine always_bind (createDeal_always m₁.self (fun deal db₂ hnone hamount hfee hstatus hsingle₂ m₂
    => ?_) fun x => hR x db₁)
  replace m₂ := m₁.trans m₂
  cases milestones with
  | none => exact hsingle deal db₂ hnone hsingle₂ m₂
  | some data =>
      refine always_bind (assignDeal_always m₂.self (setDeal_deal ..) fun db₃ m₃ => ?_)
      replace m₃ := m₂.trans m₃
      have htotal : (data.map MilestoneData.amount).sum = amount := by simpa using hsum
      refine always_bind (createMilestones_always m₃.self (fun x db' => hR x db')
        fun db₄ E₄ m₄ hdeal₄ hE₄ => ?_)
      have hagreed : EscrowDeal.Agreed col amount data
          { deal with
            is_multi_milestone := true, milestone_count := data.length, current_milestone := 1
            total_released := 0, total_fees := 0 } :=
        ⟨hamount, hfee, hstatus, rfl, rfl, rfl, rfl, rfl⟩
      exact hmulti _ data db₄ E₄ hnone hpos htotal hagreed (m₃.trans m₄) hdeal₄ hE₄

end EscrowService

end Sthrip
