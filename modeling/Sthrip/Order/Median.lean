import Mathlib.Algebra.BigOperators.Group.List.Basic
import Mathlib.Algebra.Order.Field.Basic
import Mathlib.Data.List.Basic
import Mathlib.Tactic.Linarith

set_option autoImplicit false

/-! # Medians

When fewer than half of the elements of a list are outside of an interval, the median is in it.
-/

namespace Median

variable {α : Type*} [LinearOrder α]

def sorted (l : List α) : List α := l.mergeSort fun a b => a ≤ b

theorem pairwise_sorted (l : List α) : (sorted l).Pairwise (· ≤ ·) := by
  have hsorted : (sorted l).Pairwise fun a b => decide (a ≤ b) = true :=
    List.pairwise_mergeSort
      (fun a b c hab hbc =>
        decide_eq_true ((of_decide_eq_true hab).trans (of_decide_eq_true hbc)))
      (fun a b => by
        rcases le_total a b with h | h
        · rw [decide_eq_true h, Bool.true_or]
        · rw [decide_eq_true h, Bool.or_true])
      l
  exact hsorted.imp of_decide_eq_true

theorem perm_sorted (l : List α) : (sorted l).Perm l := List.mergeSort_perm l _

/-! ## The middle of a sorted list -/

variable {s : List α} {lo hi : α}

/-- How many elements are outside of the interval. -/
def outside (lo hi : α) (l : List α) : ℕ := l.countP fun x => ¬ (lo ≤ x ∧ x ≤ hi)

theorem outside_perm {l l' : List α} (h : l.Perm l') : outside lo hi l = outside lo hi l' :=
  h.countP_eq _

/-- Elements that are all outside are counted. -/
theorem length_le_outside (lo hi : α) {t : List α} (hsub : t.Sublist s) (h : ∀ x ∈ t, ¬ (lo ≤ x ∧ x ≤ hi)) :
    t.length ≤ outside lo hi s := by
  have hall : t.countP (fun x => ¬ (lo ≤ x ∧ x ≤ hi)) = t.length :=
    List.countP_eq_length.mpr fun x hx => decide_eq_true (h x hx)
  rw [← hall]
  exact hsub.countP_le

/-- An element with half of the list on either side is in the interval. -/
theorem getElem_mem_interval (hs : s.Pairwise (· ≤ ·)) (hminority : 2 * outside lo hi s < s.length)
    {k : ℕ} (hk : k < s.length) (hleft : s.length ≤ 2 * (k + 1))
    (hright : s.length ≤ 2 * (s.length - k)) : lo ≤ s[k] ∧ s[k] ≤ hi := by
  have hmono : ∀ i j (hi : i < s.length) (hj : j < s.length), i ≤ j → s[i] ≤ s[j] := by
    intro i j hi hj hij
    rcases Nat.lt_or_eq_of_le hij with hlt | rfl
    · exact List.pairwise_iff_getElem.mp hs i j hi hj hlt
    · exact le_refl _
  constructor
  · -- otherwise so is everything before it
    by_contra hlow
    have hcount := length_le_outside lo hi (List.take_sublist (k + 1) s)
      (fun x hx => by
        obtain ⟨i, hi', rfl⟩ := List.getElem_of_mem hx
        rw [List.length_take] at hi'
        rw [List.getElem_take]
        exact fun hin => hlow (hin.1.trans (hmono i k (by omega) hk (by omega))))
    rw [List.length_take] at hcount
    omega
  · -- otherwise so is everything after it
    by_contra hhigh
    have hcount := length_le_outside lo hi (List.drop_sublist k s)
      (fun x hx => by
        obtain ⟨i, hi', rfl⟩ := List.getElem_of_mem hx
        rw [List.length_drop] at hi'
        rw [List.getElem_drop]
        exact fun hin => hhigh ((hmono k (k + i) hk (by omega) (by omega)).trans hin.2))
    rw [List.length_drop] at hcount
    omega

/-! ## The median -/

variable [Field α] [IsStrictOrderedRing α]

/-- The element in the middle, or the mean of the two in the middle. -/
def median (l : List α) : α :=
  let s := sorted l
  if s.length % 2 = 1 then s.getD (s.length / 2) 0
  else (s.getD (s.length / 2 - 1) 0 + s.getD (s.length / 2) 0) / 2

/-- **A minority does not move the median out of the interval.** -/
theorem median_mem_interval {l : List α} (hminority : 2 * outside lo hi l < l.length) :
    lo ≤ median l ∧ median l ≤ hi := by
  have hs := pairwise_sorted l
  rw [← outside_perm (perm_sorted l), ← (perm_sorted l).length_eq] at hminority
  have hmiddle : ∀ k, k < (sorted l).length → (sorted l).length ≤ 2 * (k + 1) →
      (sorted l).length ≤ 2 * ((sorted l).length - k) →
        lo ≤ (sorted l).getD k 0 ∧ (sorted l).getD k 0 ≤ hi := by
    intro k hk hleft hright
    rw [List.getD_eq_getElem?_getD, List.getElem?_eq_getElem hk, Option.getD_some]
    exact getElem_mem_interval hs hminority hk hleft hright
  unfold median
  by_cases hodd : (sorted l).length % 2 = 1
  · rw [if_pos hodd]
    exact hmiddle _ (by omega) (by omega) (by omega)
  · rw [if_neg hodd]
    obtain ⟨hlow, hhigh⟩ := hmiddle ((sorted l).length / 2 - 1) (by omega) (by omega) (by omega)
    obtain ⟨hlow', hhigh'⟩ := hmiddle ((sorted l).length / 2) (by omega) (by omega) (by omega)
    constructor
    · rw [le_div_iff₀ two_pos]
      linarith
    · rw [div_le_iff₀ two_pos]
      linarith

theorem median_pos {l : List α} (hne : l ≠ []) (hpos : ∀ x ∈ l, 0 < x) : 0 < median l := by
  have hlen : 0 < (sorted l).length := by
    rw [(perm_sorted l).length_eq]
    exact List.length_pos_iff.mpr hne
  have hget : ∀ k < (sorted l).length, 0 < (sorted l).getD k 0 := by
    intro k hk
    rw [List.getD_eq_getElem?_getD, List.getElem?_eq_getElem hk, Option.getD_some]
    exact hpos _ ((perm_sorted l).mem_iff.mp (List.getElem_mem hk))
  unfold median
  by_cases hodd : (sorted l).length % 2 = 1
  · rw [if_pos hodd]
    exact hget _ (by omega)
  · rw [if_neg hodd]
    exact div_pos (add_pos (hget _ (by omega)) (hget _ (by omega))) two_pos

omit [IsStrictOrderedRing α] in
theorem median_singleton (a : α) : median [a] = a := by
  unfold median sorted
  rw [List.mergeSort_singleton]
  simp

omit [IsStrictOrderedRing α] in
theorem median_pair (a b : α) : median [a, b] = (a + b) / 2 := by
  have hperm := perm_sorted [a, b]
  obtain ⟨c, d, hs⟩ := List.length_eq_two.mp hperm.length_eq
  have hsum := hperm.sum_eq
  unfold median
  rw [hs] at hsum ⊢
  simp only [List.sum_cons, List.sum_nil, add_zero] at hsum
  rw [← hsum]
  simp

end Median
