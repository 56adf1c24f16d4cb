import Sthrip.Escrow.View
import Mathlib.Algebra.BigOperators.Intervals

set_option autoImplicit false

/-! # The stages of a multi-milestone deal

`Escrow.Sequenced` says how far a deal has come: while it waits, all milestones do; while it is
accepted, those before the current one are completed, those after it wait, and the totals are the
sums over the completed ones; when it is completed, all milestones are; and in the other final
statuses no milestone is open. No program occurs in this file.
-/

namespace Sthrip

open Txn

namespace EscrowMilestone

/-- What was released of the milestone. -/
def released (ms : EscrowMilestone) : ℚ := ms.release_amount.getD 0

/-- The milestone has not ended. -/
def Open (ms : EscrowMilestone) : Prop := ms.status ∈ [.PENDING, .ACTIVE, .DELIVERED]

end EscrowMilestone

namespace Escrow

/-- The sum of `f` over the completed ones of `n` milestones. -/
def overCompleted (E : Escrow) (n : ℕ) (f : EscrowMilestone → ℚ) : ℚ :=
  ∑ j ∈ Finset.Icc 1 n, (E.milestone j).elim 0 fun ms => if ms.status = .COMPLETED then f ms else 0

/-- What a deal and its milestones agree on from the start. -/
structure Planned (E : Escrow) (deal : EscrowDeal) : Prop where
  count : 1 ≤ deal.milestone_count
  dom : ∀ j, (E.milestone j).isSome ↔ 1 ≤ j ∧ j ≤ deal.milestone_count
  nonneg : ∀ j ms, E.milestone j = some ms → 0 ≤ ms.amount
  rate : 0 ≤ deal.feeRate

/-- The totals of the deal are the sums over its completed milestones, and a column keeps them. -/
structure Totals (E : Escrow) (deal : EscrowDeal) : Prop where
  released : deal.total_released = E.overCompleted deal.milestone_count EscrowMilestone.released
  fees : deal.total_fees = E.overCompleted deal.milestone_count (·.fee_amount)
  released_kept : deal.total_released ∈ decimals 12 ∧ 0 ≤ deal.total_released
  fees_kept : deal.total_fees ∈ decimals 12 ∧ 0 ≤ deal.total_fees

/-- The milestones before the `k`-th are completed and those after it wait. -/
structure Around (E : Escrow) (k : ℕ) : Prop where
  before : ∀ j ms, E.milestone j = some ms → j < k → ms.status = .COMPLETED
  after : ∀ j ms, E.milestone j = some ms → k < j → ms.status = .PENDING

/-- The current milestone is under way. -/
structure UnderWay (E : Escrow) (deal : EscrowDeal) : Prop extends
    E.Around deal.current_milestone where
  pos : 1 ≤ deal.current_milestone
  le : deal.current_milestone ≤ deal.milestone_count
  current : ∀ ms, E.milestone deal.current_milestone = some ms →
    ms.status = .ACTIVE ∨ ms.status = .DELIVERED
  totals : E.Totals deal

/-- The `k`-th milestone has just been completed, and the totals are about to become `released` and
`fees`. -/
structure Settled (E : Escrow) (deal : EscrowDeal) (k : ℕ) (released fees : ℚ) : Prop where
  pos : 1 ≤ k
  le : k ≤ deal.milestone_count
  upto : ∀ j ms, E.milestone j = some ms → j ≤ k → ms.status = .COMPLETED
  after : ∀ j ms, E.milestone j = some ms → k < j → ms.status = .PENDING
  released_sum : numeric 12 released = E.overCompleted deal.milestone_count EscrowMilestone.released
  fees_sum : numeric 12 fees = E.overCompleted deal.milestone_count (·.fee_amount)
  released_nonneg : 0 ≤ released
  fees_nonneg : 0 ≤ fees

/-- What the status of the deal says about its milestones. -/
def Stage (E : Escrow) (deal : EscrowDeal) : Prop :=
  match deal.status with
  | .CREATED => (∀ j ms, E.milestone j = some ms → ms.status = .PENDING) ∧
      deal.current_milestone = 1 ∧ deal.total_released = 0 ∧ deal.total_fees = 0
  | .ACCEPTED => E.UnderWay deal
  | .DELIVERED => False
  | .COMPLETED => ∀ j ms, E.milestone j = some ms → ms.status = .COMPLETED
  | _ => ∀ j ms, E.milestone j = some ms → ¬ms.Open

/-- The milestones of a deal are in sequence. Deals without milestones are not considered. -/
def Sequenced (E : Escrow) : Prop :=
  match E.deal with
  | none => E.milestone = fun _ => none
  | some deal => deal.is_multi_milestone = true → E.Planned deal ∧ E.Stage deal

variable {E E' : Escrow} {deal deal' : EscrowDeal} {n k : ℕ} {f : EscrowMilestone → ℚ}

theorem sequenced_of_none (h : E.deal = none) : E.Sequenced ↔ E.milestone = fun _ => none := by
  unfold Sequenced
  rw [h]

theorem sequenced_of_some (h : E.deal = some deal) :
    E.Sequenced ↔ (deal.is_multi_milestone = true → E.Planned deal ∧ E.Stage deal) := by
  unfold Sequenced
  rw [h]

/-! ## Stages -/

theorem stage_accepted (hs : deal.status = .ACCEPTED) : E.Stage deal ↔ E.UnderWay deal := by
  unfold Stage
  rw [hs]

theorem stage_completed (hs : deal.status = .COMPLETED) :
    E.Stage deal ↔ ∀ j ms, E.milestone j = some ms → ms.status = .COMPLETED := by
  unfold Stage
  rw [hs]

theorem stage_closed (hs : deal.status ∈ [.PARTIALLY_COMPLETED, .EXPIRED, .CANCELLED]) :
    E.Stage deal ↔ ∀ j ms, E.milestone j = some ms → ¬ms.Open := by
  have hcases : deal.status = .PARTIALLY_COMPLETED ∨ deal.status = .EXPIRED ∨
      deal.status = .CANCELLED := by simpa using hs
  unfold Stage
  rcases hcases with hs | hs | hs
  · rw [hs]
  · rw [hs]
  · rw [hs]

theorem Stage.created (h : E.Stage deal) (hs : deal.status = .CREATED) :
    (∀ j ms, E.milestone j = some ms → ms.status = .PENDING) ∧
      deal.current_milestone = 1 ∧ deal.total_released = 0 ∧ deal.total_fees = 0 := by
  unfold Stage at h
  rwa [hs] at h

theorem Stage.not_delivered (h : E.Stage deal) : deal.status ≠ .DELIVERED := by
  intro hs
  unfold Stage at h
  rwa [hs] at h

/-! ## Sums over the completed milestones -/

theorem overCompleted_eq_zero (h : ∀ j ms, E.milestone j = some ms → ms.status ≠ .COMPLETED) :
    E.overCompleted n f = 0 := by
  refine Finset.sum_eq_zero fun j _ => ?_
  cases hj : E.milestone j with
  | none => rfl
  | some ms => exact if_neg (h j ms hj)

/-- A milestone that is not completed does not count. -/
theorem overCompleted_setMilestone_open {j : ℕ} {ms ms' : EscrowMilestone}
    (hms : E.milestone j = some ms) (hs : ms.status ≠ .COMPLETED) (hs' : ms'.status ≠ .COMPLETED) :
    (E.setMilestone j ms').overCompleted n f = E.overCompleted n f := by
  refine Finset.sum_congr rfl fun i _ => ?_
  by_cases hi : i = j
  · subst hi
    rw [setMilestone_self, hms]
    show (if _ then _ else _) = if _ then _ else _
    rw [if_neg hs, if_neg hs']
  · rw [setMilestone_ne _ _ hi]

/-- A milestone that becomes completed adds its part. -/
theorem overCompleted_setMilestone {j : ℕ} {ms ms' : EscrowMilestone} (hj : 1 ≤ j ∧ j ≤ n)
    (hms : E.milestone j = some ms) (hs : ms.status ≠ .COMPLETED) (hs' : ms'.status = .COMPLETED) :
    (E.setMilestone j ms').overCompleted n f = E.overCompleted n f + f ms' := by
  have hmem : j ∈ Finset.Icc 1 n := Finset.mem_Icc.mpr hj
  have hrest : ∑ i ∈ (Finset.Icc 1 n).erase j, ((E.setMilestone j ms').milestone i).elim 0
        (fun ms => if ms.status = .COMPLETED then f ms else 0)
      = ∑ i ∈ (Finset.Icc 1 n).erase j, (E.milestone i).elim 0
        fun ms => if ms.status = .COMPLETED then f ms else 0 := by
    refine Finset.sum_congr rfl fun i hi => ?_
    rw [setMilestone_ne _ _ (Finset.ne_of_mem_erase hi)]
  have hself : ((E.setMilestone j ms').milestone j).elim 0
      (fun ms => if ms.status = .COMPLETED then f ms else 0) = f ms' := by
    rw [setMilestone_self]
    exact if_pos hs'
  have hold : (E.milestone j).elim 0 (fun ms => if ms.status = .COMPLETED then f ms else 0)
      = 0 := by
    rw [hms]
    exact if_neg hs
  calc (E.setMilestone j ms').overCompleted n f
      = f ms' + ∑ i ∈ (Finset.Icc 1 n).erase j, (E.milestone i).elim 0
          fun ms => if ms.status = .COMPLETED then f ms else 0 := by
        rw [overCompleted, ← Finset.add_sum_erase _ _ hmem, hself, hrest]
    _ = f ms' + E.overCompleted n f := by
        rw [overCompleted, ← Finset.add_sum_erase _ _ hmem, hold, zero_add]
    _ = E.overCompleted n f + f ms' := add_comm _ _

/-! ## Transitions -/

namespace Planned

/-- The plan is about amounts only: statuses, deadlines and totals may change. -/
theorem congr (h : E.Planned deal)
    (hms : ∀ j, (E'.milestone j).map (·.amount) = (E.milestone j).map (·.amount))
    (hcount : deal'.milestone_count = deal.milestone_count)
    (hrate : deal'.feeRate = deal.feeRate) : E'.Planned deal' := by
  refine ⟨hcount ▸ h.count, fun j => ?_, fun j ms hj => ?_, hrate ▸ h.rate⟩
  · have := congrArg Option.isSome (hms j)
    rw [Option.isSome_map, Option.isSome_map] at this
    rw [hcount, ← h.dom j, this]
  · have := hms j
    rw [hj, Option.map_some] at this
    obtain ⟨ms', hms', he⟩ := Option.map_eq_some_iff.mp this.symm
    exact he ▸ h.nonneg j ms' hms'

/-- One milestone changes, and keeps its amount. -/
theorem setMilestone (h : E.Planned deal) {j : ℕ} {ms : EscrowMilestone} (ms' : EscrowMilestone)
    (hms : E.milestone j = some ms) (ha : ms'.amount = ms.amount) :
    (E.setMilestone j ms').Planned deal := by
  refine h.congr (fun i => ?_) rfl rfl
  by_cases hi : i = j
  · subst hi
    rw [setMilestone_self, hms, Option.map_some, Option.map_some, ha]
  · rw [setMilestone_ne _ _ hi]

theorem cancelled (h : E.Planned deal) (t : Time) :
    (E.mapMilestones (·.cancelled t)).Planned deal := by
  refine h.congr (fun i => ?_) rfl rfl
  show ((E.milestone i).map _).map _ = _
  rw [Option.map_map]
  refine congrArg (fun f => (E.milestone i).map f) (funext fun ms => ?_)
  simp only [Function.comp, EscrowMilestone.cancelled]
  split
  · rfl
  · rfl

end Planned

/-- The first milestone is activated. -/
theorem underWay_first (hp : E.Planned deal) (h : E.Stage deal) (hs : deal.status = .CREATED)
    {ms ms' : EscrowMilestone} (hms : E.milestone 1 = some ms) (hs' : ms'.status = .ACTIVE) :
    (E.setMilestone 1 ms').UnderWay deal := by
  obtain ⟨hall, hcurrent, hreleased, hfees⟩ := h.created hs
  have hopen : ∀ f, (E.setMilestone 1 ms').overCompleted deal.milestone_count f = 0 := by
    intro f
    rw [overCompleted_setMilestone_open hms (by rw [hall 1 ms hms]; decide) (by rw [hs']; decide)]
    exact overCompleted_eq_zero fun j ms hj => by rw [hall j ms hj]; decide
  have hzero : (0 : ℚ) ∈ decimals 12 ∧ (0 : ℚ) ≤ 0 := ⟨zero_mem _, le_rfl⟩
  refine ⟨⟨fun j ms₁ h₁ hj => ?_, fun j ms₁ h₁ hj => ?_⟩, hcurrent.ge, hcurrent ▸ hp.count,
    fun ms₁ h₁ => ?_, ⟨?_, ?_, hreleased ▸ hzero, hfees ▸ hzero⟩⟩
  · rw [setMilestone_ne _ _ (by omega)] at h₁
    have := (hp.dom j).mp (by rw [h₁]; rfl)
    omega
  · exact hall j ms₁ (by rwa [setMilestone_ne _ _ (by omega)] at h₁)
  · rw [hcurrent, setMilestone_self, Option.some.injEq] at h₁
    exact .inl (h₁ ▸ hs')
  · rw [hreleased, hopen]
  · rw [hfees, hopen]

namespace UnderWay

/-- The only milestone that can be active or delivered is the current one. -/
theorem eq_current (h : E.UnderWay deal) {j : ℕ} {ms : EscrowMilestone}
    (hms : E.milestone j = some ms) (hs : ms.status = .ACTIVE ∨ ms.status = .DELIVERED) :
    j = deal.current_milestone := by
  rcases Nat.lt_trichotomy j deal.current_milestone with hlt | heq | hgt
  · rw [h.before j ms hms hlt] at hs
    simp at hs
  · exact heq
  · rw [h.after j ms hms hgt] at hs
    simp at hs

/-- The current milestone moves from active to delivered. -/
theorem deliver (h : E.UnderWay deal) {ms ms' : EscrowMilestone}
    (hms : E.milestone deal.current_milestone = some ms) (hs : ms.status = .ACTIVE)
    (hs' : ms'.status = .DELIVERED) :
    (E.setMilestone deal.current_milestone ms').UnderWay deal := by
  have hsums : ∀ f, (E.setMilestone deal.current_milestone ms').overCompleted
      deal.milestone_count f = E.overCompleted deal.milestone_count f := fun f =>
    overCompleted_setMilestone_open hms (by rw [hs]; decide) (by rw [hs']; decide)
  refine ⟨⟨fun j ms₁ h₁ hj => ?_, fun j ms₁ h₁ hj => ?_⟩, h.pos, h.le, fun ms₁ h₁ => ?_,
    ⟨?_, ?_, h.totals.released_kept, h.totals.fees_kept⟩⟩
  · exact h.before j ms₁ (by rwa [setMilestone_ne _ _ (by omega)] at h₁) hj
  · exact h.after j ms₁ (by rwa [setMilestone_ne _ _ (by omega)] at h₁) hj
  · rw [setMilestone_self, Option.some.injEq] at h₁
    exact .inr (h₁ ▸ hs')
  · rw [hsums, h.totals.released]
  · rw [hsums, h.totals.fees]

/-- The current milestone becomes completed: what the totals must become. -/
theorem settled (h : E.UnderWay deal) {ms ms' : EscrowMilestone} {x fee : ℚ}
    (hms : E.milestone deal.current_milestone = some ms) (hs : ms.status = .DELIVERED)
    (hs' : ms'.status = .COMPLETED) (hx : 0 ≤ x) (hfee : 0 ≤ fee)
    (hreleased : ms'.released = numeric 12 x) (hfees : ms'.fee_amount = numeric 12 fee) :
    (E.setMilestone deal.current_milestone ms').Settled deal deal.current_milestone
      (deal.total_released + x) (deal.total_fees + fee) := by
  have hsums : ∀ f : EscrowMilestone → ℚ, (E.setMilestone deal.current_milestone ms').overCompleted
      deal.milestone_count f = E.overCompleted deal.milestone_count f + f ms' := fun f =>
    overCompleted_setMilestone ⟨h.pos, h.le⟩ hms (by rw [hs]; decide) hs'
  obtain ⟨hrmem, hr₀⟩ := h.totals.released_kept
  obtain ⟨hfmem, hf₀⟩ := h.totals.fees_kept
  refine ⟨h.pos, h.le, fun j ms₁ h₁ hj => ?_, fun j ms₁ h₁ hj => ?_, ?_, ?_, add_nonneg hr₀ hx,
    add_nonneg hf₀ hfee⟩
  · rcases hj.lt_or_eq with hlt | rfl
    · exact h.before j ms₁ (by rwa [setMilestone_ne _ _ (by omega)] at h₁) hlt
    · rw [setMilestone_self, Option.some.injEq] at h₁
      exact h₁ ▸ hs'
  · exact h.after j ms₁ (by rwa [setMilestone_ne _ _ (by omega)] at h₁) hj
  · rw [numeric_add hrmem hr₀ hx, hsums, hreleased, h.totals.released]
  · rw [numeric_add hfmem hf₀ hfee, hsums, hfees, h.totals.fees]

/-- When the current milestone expires and the waiting ones are cancelled, none is left open. -/
theorem closed (h : E.UnderWay deal) {ms' : EscrowMilestone} (hs' : ms'.status = .EXPIRED) (t : Time)
    (j : ℕ) (ms : EscrowMilestone)
    (hms : ((E.setMilestone deal.current_milestone ms').mapMilestones (·.cancelled t)).milestone j
      = some ms) : ¬ms.Open := by
  obtain ⟨ms₁, h₁, rfl⟩ := Option.map_eq_some_iff.mp hms
  rcases Nat.lt_trichotomy j deal.current_milestone with hlt | rfl | hgt
  · rw [setMilestone_ne _ _ (by omega)] at h₁
    simp [EscrowMilestone.cancelled, EscrowMilestone.Open, h.before j ms₁ h₁ hlt]
  · rw [setMilestone_self, Option.some.injEq] at h₁
    subst h₁
    simp [EscrowMilestone.cancelled, EscrowMilestone.Open, hs']
  · rw [setMilestone_ne _ _ (by omega)] at h₁
    simp [EscrowMilestone.cancelled, EscrowMilestone.Open, h.after j ms₁ h₁ hgt]

end UnderWay

/-- After the last milestone all are completed. -/
theorem Settled.last {released fees : ℚ} (h : E.Settled deal k released fees)
    (hp : E.Planned deal) (hk : deal.milestone_count ≤ k) (j : ℕ) (ms : EscrowMilestone)
    (hms : E.milestone j = some ms) : ms.status = .COMPLETED := by
  have hj := ((hp.dom j).mp (by rw [hms]; rfl)).2
  exact h.upto j ms hms (hj.trans hk)

/-- After the `k`-th milestone the next one is activated. -/
theorem Settled.next {released fees : ℚ} (h : E.Settled deal k released fees)
    (hk : k < deal.milestone_count) {ms ms' : EscrowMilestone}
    (hms : E.milestone (k + 1) = some ms) (hs' : ms'.status = .ACTIVE)
    (hcount : deal'.milestone_count = deal.milestone_count)
    (hcurrent : deal'.current_milestone = k + 1) (hreleased : deal'.total_released = numeric 12 released)
    (hfees : deal'.total_fees = numeric 12 fees) : (E.setMilestone (k + 1) ms').UnderWay deal' := by
  have hpending := h.after (k + 1) ms hms (Nat.lt_succ_self k)
  have hsums : ∀ f, (E.setMilestone (k + 1) ms').overCompleted deal'.milestone_count f
      = E.overCompleted deal.milestone_count f := fun f => hcount ▸
    overCompleted_setMilestone_open hms (by rw [hpending]; decide) (by rw [hs']; decide)
  refine ⟨⟨fun j ms₁ h₁ hj => ?_, fun j ms₁ h₁ hj => ?_⟩, by omega, by omega, fun ms₁ h₁ => ?_,
    ⟨?_, ?_, ?_, ?_⟩⟩
  · exact h.upto j ms₁ (by rwa [setMilestone_ne _ _ (by omega)] at h₁) (by omega)
  · exact h.after j ms₁ (by rwa [setMilestone_ne _ _ (by omega)] at h₁) (by omega)
  · rw [hcurrent, setMilestone_self, Option.some.injEq] at h₁
    exact .inl (h₁ ▸ hs')
  · rw [hsums, hreleased, h.released_sum]
  · rw [hsums, hfees, h.fees_sum]
  · exact hreleased ▸ ⟨numeric_mem 12 _, numeric_nonneg 12 h.released_nonneg⟩
  · exact hfees ▸ ⟨numeric_mem 12 _, numeric_nonneg 12 h.fees_nonneg⟩

/-- **The law of the stages.** -/
theorem Sequenced.law (h : E.Sequenced) (hd : E.deal = some deal)
    (hm : deal.is_multi_milestone = true) :
    (∀ j, (E.milestone j).isSome ↔ 1 ≤ j ∧ j ≤ deal.milestone_count) ∧
    (deal.status = .ACCEPTED →
      (∀ j, (∃ ms, E.milestone j = some ms ∧ (ms.status = .ACTIVE ∨ ms.status = .DELIVERED)) ↔
        j = deal.current_milestone) ∧
      (∀ j ms, E.milestone j = some ms → j < deal.current_milestone → ms.status = .COMPLETED) ∧
      (∀ j ms, E.milestone j = some ms → deal.current_milestone < j → ms.status = .PENDING) ∧
      deal.total_released = E.overCompleted deal.milestone_count EscrowMilestone.released ∧
      deal.total_fees = E.overCompleted deal.milestone_count (·.fee_amount)) ∧
    (deal.status = .COMPLETED → ∀ j ms, E.milestone j = some ms → ms.status = .COMPLETED) ∧
    (deal.status ∈ [.PARTIALLY_COMPLETED, .EXPIRED, .CANCELLED] →
      ∀ j ms, E.milestone j = some ms → ¬ms.Open) := by
  obtain ⟨hp, hstage⟩ := (sequenced_of_some hd).mp h hm
  refine ⟨hp.dom, fun hs => ?_, fun hs => (stage_completed hs).mp hstage,
    fun hs => (stage_closed hs).mp hstage⟩
  have hw := (stage_accepted hs).mp hstage
  refine ⟨fun j => ⟨fun ⟨ms, hms, hst⟩ => hw.eq_current hms hst, ?_⟩, hw.before, hw.after,
    hw.totals.released, hw.totals.fees⟩
  rintro rfl
  obtain ⟨ms, hms⟩ := Option.isSome_iff_exists.mp ((hp.dom _).mpr ⟨hw.pos, hw.le⟩)
  exact ⟨ms, hms, hw.current ms hms⟩

end Escrow

end Sthrip
