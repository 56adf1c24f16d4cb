import Sthrip.Escrow.View
import Mathlib.Algebra.BigOperators.Intervals
import Mathlib.Algebra.Order.BigOperators.Group.Finset
import Mathlib.Tactic.Ring

set_option autoImplicit false

/-! # The books of a multi-milestone deal

`Escrow.Accounted` says how the amount paid out for a deal follows from its status: nothing
while it waits, the milestones before the current one while it is accepted, the whole amount
once it has ended. The lemmas below are the bookkeeping of each transition; no program occurs
in them.
-/

namespace Sthrip

namespace Escrow

/-- The amount of a milestone; zero where there is none. -/
def amountOf (E : Escrow) (j : ℕ) : ℚ := (E.milestone j).elim 0 (·.amount)

/-- The amounts of the milestones before the `k`-th. -/
def amountBefore (E : Escrow) (k : ℕ) : ℚ := ∑ j ∈ Finset.Ico 1 k, E.amountOf j

/-- What a deal and its milestones agree on when it is created. -/
structure Terms (E : Escrow) (deal : EscrowDeal) : Prop where
  count : 1 ≤ deal.milestone_count
  dom : ∀ j, (E.milestone j).isSome ↔ 1 ≤ j ∧ j ≤ deal.milestone_count
  pos : ∀ j ms, E.milestone j = some ms → 0 < ms.amount
  total : E.amountBefore (deal.milestone_count + 1) = deal.amount
  rate : deal.feeRate = defaultFeePercent

/-- Of `n` milestones those before the `k`-th are completed and paid out, and the `k`-th is under
way. -/
structure InProgress (E : Escrow) (n k : ℕ) : Prop where
  pos : 1 ≤ k
  le : k ≤ n
  before : ∀ j ms, E.milestone j = some ms → j < k → ms.status = .COMPLETED
  current : ∀ ms, E.milestone k = some ms → ms.status = .ACTIVE ∨ ms.status = .DELIVERED
  after : ∀ j ms, E.milestone j = some ms → k < j → ms.status = .PENDING
  paid : E.paid = E.amountBefore k

/-- Of `n` milestones the `k`-th has just been paid out. -/
structure Released (E : Escrow) (n k : ℕ) : Prop where
  pos : 1 ≤ k
  le : k ≤ n
  upto : ∀ j ms, E.milestone j = some ms → j ≤ k → ms.status = .COMPLETED
  after : ∀ j ms, E.milestone j = some ms → k < j → ms.status = .PENDING
  paid : E.paid = E.amountBefore (k + 1)

/-- What the status of a multi-milestone deal says about the amount paid out. -/
def Books (E : Escrow) (deal : EscrowDeal) : Prop :=
  match deal.status with
  | .CREATED => (∀ j ms, E.milestone j = some ms → ms.status = .PENDING) ∧ E.paid = 0
  | .ACCEPTED => ∃ k, E.InProgress deal.milestone_count k
  | .DELIVERED => False
  | _ => E.paid = deal.amount

/-- The books of a deal are in order. Deals without milestones are not considered. -/
def Accounted (E : Escrow) : Prop :=
  match E.deal with
  | none => E = {}
  | some deal => deal.is_multi_milestone = true → E.Terms deal ∧ E.Books deal

variable {E E' : Escrow} {deal deal' : EscrowDeal} {n k : ℕ}

/-! ## Amounts -/

theorem amountOf_eq_of_map
    (h : ∀ j, (E'.milestone j).map (·.amount) = (E.milestone j).map (·.amount)) :
    E'.amountOf = E.amountOf := by
  funext j
  have := h j
  unfold amountOf
  cases hj : E'.milestone j <;> cases hj' : E.milestone j <;> simp_all

theorem amountBefore_succ (E : Escrow) (hk : 1 ≤ k) :
    E.amountBefore (k + 1) = E.amountBefore k + E.amountOf k :=
  Finset.sum_Ico_succ_top hk _

theorem amountBefore_one (E : Escrow) : E.amountBefore 1 = 0 := by
  simp [amountBefore]

/-- What a release pays out: the seller's part, the buyer's part and the fee make up the amount
of the milestone. -/
theorem pay_release (E : Escrow) {r amount : ℚ} (h0 : 0 ≤ r) (h1 : r ≤ amount) :
    ((E.pay (max (r - r * defaultFeePercent) 0)).pay (max (amount - r) 0)).pay
        (if 0 < r * defaultFeePercent then Txn.Columns.exact 12 (r * defaultFeePercent) else 0)
      = E.pay amount := by
  have hfee : (if 0 < r * defaultFeePercent then Txn.Columns.exact 12 (r * defaultFeePercent)
      else 0) = r * defaultFeePercent := by
    split
    · rfl
    · next h =>
        simp only [defaultFeePercent] at h ⊢
        linarith
  rw [hfee, pay_pay, pay_pay, max_eq_left (by simp only [defaultFeePercent]; linarith),
    max_eq_left (by linarith)]
  congr 1
  ring

/-- An automatic release pays out the amount to the seller and the fee. -/
theorem pay_autoRelease (E : Escrow) {amount : ℚ} (h0 : 0 ≤ amount) :
    (E.pay (max (amount - amount * defaultFeePercent) 0)).pay
        (if 0 < amount * defaultFeePercent then
          Txn.Columns.exact 12 (amount * defaultFeePercent) else 0)
      = E.pay amount := by
  have := pay_release E h0 le_rfl
  rwa [sub_self, max_self, pay_zero] at this

namespace Terms

theorem amountOf_nonneg (h : E.Terms deal) (j : ℕ) : 0 ≤ E.amountOf j := by
  unfold amountOf
  cases hj : E.milestone j with
  | none => exact le_rfl
  | some ms => exact (h.pos j ms hj).le

theorem amountBefore_le (h : E.Terms deal) (hk : k ≤ deal.milestone_count + 1) :
    E.amountBefore k ≤ deal.amount := by
  rw [← h.total]
  exact Finset.sum_le_sum_of_subset_of_nonneg (Finset.Ico_subset_Ico_right hk)
    fun j _ _ => h.amountOf_nonneg j

theorem amount_nonneg (h : E.Terms deal) : 0 ≤ deal.amount := by
  have := h.amountBefore_le (k := 1) (by omega)
  rwa [amountBefore_one] at this

theorem amountOf_some {ms : EscrowMilestone} (hms : E.milestone k = some ms) :
    E.amountOf k = ms.amount := by
  simp [amountOf, hms]

/-- The terms are about amounts only: statuses, deadlines and totals may change. -/
theorem congr (h : E.Terms deal)
    (hms : ∀ j, (E'.milestone j).map (·.amount) = (E.milestone j).map (·.amount))
    (hcount : deal'.milestone_count = deal.milestone_count)
    (hamount : deal'.amount = deal.amount) (hrate : deal'.feeRate = deal.feeRate) :
    E'.Terms deal' := by
  have hamt := amountOf_eq_of_map hms
  refine ⟨hcount ▸ h.count, fun j => ?_, fun j ms hj => ?_, ?_, hrate.trans h.rate⟩
  · have := congrArg Option.isSome (hms j)
    rw [Option.isSome_map, Option.isSome_map] at this
    rw [hcount, ← h.dom j, this]
  · have := hms j
    rw [hj, Option.map_some] at this
    obtain ⟨ms', hms', he⟩ := Option.map_eq_some_iff.mp this.symm
    exact he ▸ h.pos j ms' hms'
  · rw [amountBefore, hamt, hcount, hamount]
    exact h.total

end Terms

/-- A milestone row that keeps its amount. -/
theorem map_setMilestone {ms : EscrowMilestone} (ms' : EscrowMilestone) {j : ℕ}
    (hms : E.milestone j = some ms) (ha : ms'.amount = ms.amount) (i : ℕ) :
    ((E.setMilestone j ms').milestone i).map (·.amount) = (E.milestone i).map (·.amount) := by
  by_cases hi : i = j
  · subst hi
    rw [setMilestone_self, hms, Option.map_some, Option.map_some, ha]
  · rw [setMilestone_ne _ _ hi]

theorem amountBefore_setMilestone {ms ms' : EscrowMilestone} {j : ℕ}
    (hms : E.milestone j = some ms) (ha : ms'.amount = ms.amount) (k : ℕ) :
    (E.setMilestone j ms').amountBefore k = E.amountBefore k := by
  rw [amountBefore, amountOf_eq_of_map (map_setMilestone ms' hms ha), amountBefore]

/-! ## Transitions -/

theorem accounted_of_none (h : E.deal = none) : E.Accounted ↔ E = {} := by
  unfold Accounted
  rw [h]

theorem accounted_of_some (h : E.deal = some deal) :
    E.Accounted ↔ (deal.is_multi_milestone = true → E.Terms deal ∧ E.Books deal) := by
  unfold Accounted
  rw [h]

/-- A deal ends with its whole amount paid out. -/
theorem books_of_ended
    (hs : deal.status ≠ .CREATED ∧ deal.status ≠ .ACCEPTED ∧ deal.status ≠ .DELIVERED)
    (h : E.paid = deal.amount) : E.Books deal := by
  unfold Books
  split <;> simp_all

theorem Books.created (h : E.Books deal) (hs : deal.status = .CREATED) :
    (∀ j ms, E.milestone j = some ms → ms.status = .PENDING) ∧ E.paid = 0 := by
  unfold Books at h
  rwa [hs] at h

theorem Books.accepted (h : E.Books deal) (hs : deal.status = .ACCEPTED) :
    ∃ k, E.InProgress deal.milestone_count k := by
  unfold Books at h
  rwa [hs] at h

theorem Books.not_delivered (h : E.Books deal) : deal.status ≠ .DELIVERED := by
  intro hs
  unfold Books at h
  rwa [hs] at h

theorem books_of_inProgress (hs : deal.status = .ACCEPTED) (h : E.InProgress deal.milestone_count k) :
    E.Books deal := by
  unfold Books
  rw [hs]
  exact ⟨k, h⟩

namespace InProgress

/-- The only milestone that can be active or delivered is the current one. -/
theorem eq_current (h : E.InProgress n k) {j : ℕ} {ms : EscrowMilestone}
    (hms : E.milestone j = some ms) (hs : ms.status = .ACTIVE ∨ ms.status = .DELIVERED) :
    j = k := by
  rcases Nat.lt_trichotomy j k with hlt | heq | hgt
  · rw [h.before j ms hms hlt] at hs
    simp at hs
  · exact heq
  · rw [h.after j ms hms hgt] at hs
    simp at hs

/-- With no milestone completed nothing has been paid. -/
theorem paid_eq_zero (h : E.InProgress n k) (ht : E.Terms deal)
    (hno : ∀ j ms, E.milestone j = some ms → ms.status ≠ .COMPLETED) : E.paid = 0 := by
  have hk : k = 1 := by
    by_contra hne
    have hpos := h.pos
    obtain ⟨ms, hms⟩ := Option.isSome_iff_exists.mp ((ht.dom 1).mpr ⟨le_rfl, ht.count⟩)
    exact hno 1 ms hms (h.before 1 ms hms (by omega))
  rw [h.paid, hk, amountBefore_one]

/-- The current milestone moves from active to delivered. -/
theorem setCurrent (h : E.InProgress n k) {ms ms' : EscrowMilestone}
    (hms : E.milestone k = some ms) (ha : ms'.amount = ms.amount)
    (hs : ms'.status = .ACTIVE ∨ ms'.status = .DELIVERED) :
    (E.setMilestone k ms').InProgress n k where
  pos := h.pos
  le := h.le
  before j ms₁ h₁ hj := h.before j ms₁ (by rwa [setMilestone_ne _ _ (by omega)] at h₁) hj
  current ms₁ h₁ := by
    rw [setMilestone_self, Option.some.injEq] at h₁
    exact h₁ ▸ hs
  after j ms₁ h₁ hj := h.after j ms₁ (by rwa [setMilestone_ne _ _ (by omega)] at h₁) hj
  paid := by rw [amountBefore_setMilestone hms ha]; exact h.paid

/-- Paying out the current milestone. -/
theorem release (h : E.InProgress n k) {ms ms' : EscrowMilestone}
    (hms : E.milestone k = some ms) (ha : ms'.amount = ms.amount) (hs : ms'.status = .COMPLETED) :
    ((E.pay ms.amount).setMilestone k ms').Released n k where
  pos := h.pos
  le := h.le
  upto j ms₁ h₁ hj := by
    rcases hj.lt_or_eq with hlt | rfl
    · exact h.before j ms₁ (by rwa [setMilestone_ne _ _ (by omega)] at h₁) hlt
    · rw [setMilestone_self, Option.some.injEq] at h₁
      exact h₁ ▸ hs
  after j ms₁ h₁ hj := h.after j ms₁ (by rwa [setMilestone_ne _ _ (by omega)] at h₁) hj
  paid := by
    rw [amountBefore_setMilestone (by exact hms) ha, amountBefore_succ _ h.pos,
      Terms.amountOf_some (E := E.pay ms.amount) hms, setMilestone_paid, pay_paid, h.paid]
    rfl

end InProgress

/-- The first milestone is activated. -/
theorem inProgress_first (hn : 1 ≤ n) (hdom : ∀ j, (E.milestone j).isSome → 1 ≤ j)
    (hall : ∀ j ms, E.milestone j = some ms → ms.status = .PENDING) (hpaid : E.paid = 0)
    {ms : EscrowMilestone} (hs : ms.status = .ACTIVE) :
    (E.setMilestone 1 ms).InProgress n 1 where
  pos := le_rfl
  le := hn
  before j ms₁ h₁ hj := by
    have hj0 := hdom j (by
      rw [setMilestone_ne _ _ (by omega)] at h₁
      simp [h₁])
    omega
  current ms₁ h₁ := by
    rw [setMilestone_self, Option.some.injEq] at h₁
    exact h₁ ▸ .inl hs
  after j ms₁ h₁ hj := hall j ms₁ (by rwa [setMilestone_ne _ _ (by omega)] at h₁)
  paid := by rw [amountBefore_one]; exact hpaid

/-- After the `k`-th milestone the next one is activated. -/
theorem Released.next (h : E.Released n k) (hk : k < n)
    {ms ms' : EscrowMilestone} (hms : E.milestone (k + 1) = some ms)
    (ha : ms'.amount = ms.amount) (hs : ms'.status = .ACTIVE) :
    (E.setMilestone (k + 1) ms').InProgress n (k + 1) where
  pos := by omega
  le := hk
  before j ms₁ h₁ hj := h.upto j ms₁ (by rwa [setMilestone_ne _ _ (by omega)] at h₁) (by omega)
  current ms₁ h₁ := by
    rw [setMilestone_self, Option.some.injEq] at h₁
    exact h₁ ▸ .inl hs
  after j ms₁ h₁ hj := h.after j ms₁ (by rwa [setMilestone_ne _ _ (by omega)] at h₁) (by omega)
  paid := by rw [amountBefore_setMilestone hms ha]; exact h.paid

/-- After the last milestone the whole amount is paid out. -/
theorem Released.last (h : E.Released deal.milestone_count k) (ht : E.Terms deal)
    (hk : deal.milestone_count ≤ k) : E.paid = deal.amount := by
  rw [h.paid, Nat.le_antisymm h.le hk, ht.total]

/-- **Conservation of a deal.** Never more than the amount is paid out, and all of it once the
deal has ended. -/
theorem Accounted.conserved (h : E.Accounted) (hd : E.deal = some deal)
    (hm : deal.is_multi_milestone = true) :
    E.paid ≤ deal.amount ∧
      (deal.status ∈ [.COMPLETED, .PARTIALLY_COMPLETED, .EXPIRED, .CANCELLED] →
        E.paid = deal.amount) := by
  obtain ⟨ht, hb⟩ := (accounted_of_some hd).mp h hm
  unfold Books at hb
  split at hb
  · next hs => exact ⟨hb.2 ▸ ht.amount_nonneg, by simp [hs]⟩
  · next hs =>
      obtain ⟨k, hk⟩ := hb
      refine ⟨?_, by simp [hs]⟩
      rw [hk.paid]
      exact ht.amountBefore_le (by have := hk.le; omega)
  · exact hb.elim
  · exact ⟨hb.le, fun _ => hb⟩

end Escrow

end Sthrip
