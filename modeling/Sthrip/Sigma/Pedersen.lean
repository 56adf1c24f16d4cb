import Mathlib.Algebra.BigOperators.Ring.List
import Mathlib.Tactic.Ring
import Sthrip.Sigma.Schnorr

set_option autoImplicit false

/-! # Pedersen commitments, and numbers in binary

A commitment to `v` with the blinding `r` is `g ^ v * h ^ r`. The commitments of the binary digits
of a number, each raised to the power of two of its place, multiply to a commitment of the number.
-/

namespace Pedersen

variable {Γ : Type*} [CommGroup Γ] {q : ℕ} {g h : Γ} {v v' r r' : ℤ}

def commit (g h : Γ) (v r : ℤ) : Γ := g ^ v * h ^ r

theorem commit_mul (v v' r r' : ℤ) :
    commit g h v r * commit g h v' r' = commit g h (v + v') (r + r') := by
  unfold commit
  rw [mul_mul_mul_comm, ← zpow_add, ← zpow_add]

theorem commit_pow (v r : ℤ) (n : ℕ) : commit g h v r ^ n = commit g h (n * v) (n * r) := by
  unfold commit
  rw [mul_pow, ← zpow_natCast, ← zpow_natCast, ← zpow_mul, ← zpow_mul, mul_comm v, mul_comm r]

/-- What is left of a commitment without the value `t` and without another commitment. -/
theorem commit_div (v t w r s : ℤ) :
    commit g h v r * (g ^ t)⁻¹ * (commit g h w s)⁻¹ = commit g h (v - t - w) (r - s) := by
  have hvalue : (g ^ t)⁻¹ = commit g h (-t) 0 := by rw [commit, zpow_neg, zpow_zero, mul_one]
  have hinv : (commit g h w s)⁻¹ = commit g h (-w) (-s) := by
    rw [commit, commit, mul_inv, zpow_neg, zpow_neg]
  rw [hvalue, hinv, commit_mul, commit_mul, add_zero]
  rfl

/-- **Hiding.** With another blinding the commitment is to any other value. -/
theorem commit_shift (hh : h ^ q = 1) {x : ℤ} (hg : g = h ^ x) (v v' r : ℤ) :
    commit g h v' ((r + x * (v - v')) % q) = commit g h v r := by
  unfold commit
  rw [Schnorr.zpow_emod hh, hg, ← zpow_mul, ← zpow_mul, ← zpow_add, ← zpow_add]
  congr 1
  ring

/-- **Binding.** Two openings to different values give the logarithm of `g` to the base `h`. -/
theorem binding [Fact q.Prime] (hq : ∀ x : Γ, x ^ q = 1)
    (heq : commit g h v r = commit g h v' r') (hne : (v : ZMod q) ≠ v') :
    g = h ^ Schnorr.dlog q (-v) (-v') r r' := by
  have hopen : Schnorr.Accepts h g (commit g h v r) (-v) r := by
    unfold Schnorr.Accepts commit
    rw [zpow_neg, mul_comm (g ^ v), mul_inv_cancel_right]
  have hopen' : Schnorr.Accepts h g (commit g h v r) (-v') r' := by
    unfold Schnorr.Accepts
    rw [heq, commit, zpow_neg, mul_comm (g ^ v'), mul_inv_cancel_right]
  refine Schnorr.eq_zpow_dlog hq ?_ hopen hopen'
  intro hneg
  rw [Int.cast_neg, Int.cast_neg, neg_inj] at hneg
  exact hne hneg

/-! ## Places -/

/-- The sum of `l`, each element with the power of two of its place. -/
def weigh : List ℤ → ℤ
  | [] => 0
  | b :: l => b + 2 * weigh l

/-- The product of `l`, each element raised to the power of two of its place. -/
def prodPow : List Γ → Γ
  | [] => 1
  | D :: l => D * prodPow l ^ 2

/-- Commitments recombine. -/
theorem prodPow_commit (l : List (ℤ × ℤ)) :
    prodPow (l.map fun o => commit g h o.1 o.2)
      = commit g h (weigh (l.map Prod.fst)) (weigh (l.map Prod.snd)) := by
  induction l with
  | nil => simp [prodPow, weigh, commit]
  | cons o l ih =>
      show commit g h o.1 o.2 * prodPow (l.map fun o => commit g h o.1 o.2) ^ 2 = _
      rw [ih, commit_pow, commit_mul]
      rfl

theorem weigh_nonneg {l : List ℤ} (hl : ∀ b ∈ l, b = 0 ∨ b = 1) : 0 ≤ weigh l := by
  induction l with
  | nil => exact le_refl 0
  | cons b l ih =>
      have hb := hl b (List.mem_cons_self ..)
      have htail := ih fun b' hb' => hl b' (List.mem_cons_of_mem b hb')
      show 0 ≤ b + 2 * weigh l
      omega

theorem weigh_lt {l : List ℤ} (hl : ∀ b ∈ l, b = 0 ∨ b = 1) : weigh l < 2 ^ l.length := by
  induction l with
  | nil => exact one_pos
  | cons b l ih =>
      have hb := hl b (List.mem_cons_self ..)
      have htail := ih fun b' hb' => hl b' (List.mem_cons_of_mem b hb')
      show b + 2 * weigh l < 2 ^ (l.length + 1)
      rw [pow_succ]
      omega

theorem weigh_range (b : ℕ → ℤ) (n : ℕ) :
    weigh ((List.range n).map b) = ((List.range n).map fun i => b i * 2 ^ i).sum := by
  induction n generalizing b with
  | zero => rfl
  | succ n ih =>
      have hshift : (List.range n).map ((fun i => b i * 2 ^ i) ∘ Nat.succ)
          = (List.range n).map fun i => 2 * (b (i + 1) * 2 ^ i) := by
        refine List.map_congr_left fun i _ => ?_
        show b (i + 1) * 2 ^ (i + 1) = _
        ring
      rw [List.range_succ_eq_map, List.map_cons, List.map_map, List.map_cons, List.map_map, hshift,
        List.sum_cons, List.sum_map_mul_left, ← ih fun i => b (i + 1)]
      show b 0 + 2 * weigh ((List.range n).map fun i => b (i + 1)) = _
      ring

theorem intCast_sum (q : ℕ) (l : List ℤ) :
    (l.sum : ZMod q) = (l.map (Int.cast : ℤ → ZMod q)).sum := map_list_sum (Int.castRingHom (ZMod q)) l

/-- Places of numbers that agree mod `q`. -/
theorem weigh_congr {q : ℕ} {b b' : ℕ → ℤ} {n : ℕ} (h : ∀ i < n, (b i : ZMod q) = b' i) :
    (weigh ((List.range n).map b) : ZMod q) = weigh ((List.range n).map b') := by
  rw [weigh_range, weigh_range]
  rw [intCast_sum, intCast_sum, List.map_map, List.map_map]
  congr 1
  refine List.map_congr_left fun i hi => ?_
  simp [h i (List.mem_range.mp hi)]

theorem weigh_shift (a b b' : ℕ → ℤ) (x : ℤ) (n : ℕ) :
    weigh ((List.range n).map fun i => a i + x * (b i - b' i))
      = weigh ((List.range n).map a)
        + x * (weigh ((List.range n).map b) - weigh ((List.range n).map b')) := by
  induction n generalizing a b b' with
  | zero => simp [weigh]
  | succ n ih =>
      simp only [List.range_succ_eq_map, List.map_cons, List.map_map, weigh]
      have htail := ih (a ∘ Nat.succ) (b ∘ Nat.succ) (b' ∘ Nat.succ)
      have hfun : (fun i => a i + x * (b i - b' i)) ∘ Nat.succ
          = fun i => (a ∘ Nat.succ) i + x * ((b ∘ Nat.succ) i - (b' ∘ Nat.succ) i) := rfl
      rw [hfun, htail]
      ring

/-- The lowest `n` binary digits of `v`. -/
theorem weigh_bits (v : ℤ) (n : ℕ) :
    weigh ((List.range n).map fun i => v / 2 ^ i % 2) = v % 2 ^ n := by
  induction n generalizing v with
  | zero => simp [weigh]
  | succ n ih =>
      have htail : (List.range n).map ((fun i => v / 2 ^ i % 2) ∘ Nat.succ)
          = (List.range n).map fun i => v / 2 / 2 ^ i % 2 := by
        refine List.map_congr_left fun i _ => ?_
        show v / 2 ^ (i + 1) % 2 = _
        rw [pow_succ', Int.ediv_ediv_of_nonneg two_pos.le]
      rw [List.range_succ_eq_map, List.map_cons, List.map_map, htail]
      show v / 2 ^ 0 % 2 + 2 * weigh ((List.range n).map fun i => v / 2 / 2 ^ i % 2) = _
      rw [ih, pow_zero, Int.ediv_one, pow_succ' (2 : ℤ) n, Int.emod_def v 2,
        Int.emod_def (v / 2) (2 ^ n), Int.emod_def v (2 * 2 ^ n),
        ← Int.ediv_ediv_of_nonneg two_pos.le]
      ring

end Pedersen
