import Mathlib.Algebra.Field.ZMod
import Mathlib.GroupTheory.OrderOfElement
import Mathlib.Tactic.Ring

set_option autoImplicit false

/-! # The ECDSA verification equation

In a group with a generator `G` of prime order `q`, where `x` is the first coordinate of a point. With
the key `d • G` the point of the equation is a multiple of `G` (`verifies_iff`).
-/

namespace Ecdsa

variable {Γ : Type*} [AddCommGroup Γ] {q : ℕ} {G P : Γ} {x : Γ → ℕ} {d m r s : ℤ}

/-- `s⁻¹ * (m • G + r • P)`. -/
def point (q : ℕ) (G P : Γ) (m r s : ℤ) : Γ :=
  let c : ℤ := ((s : ZMod q)⁻¹).val
  (m * c % q) • G + (r * c % q) • P

/-- The signature `(r, s)` of a message with the number `m` under the key `P`. -/
def Verifies (q : ℕ) (G P : Γ) (x : Γ → ℕ) (m r s : ℤ) : Prop :=
  (1 ≤ r ∧ r < q) ∧ (1 ≤ s ∧ s < q) ∧ point q G P m r s ≠ 0 ∧ (x (point q G P m r s) % q : ℕ) = r

instance [DecidableEq Γ] : Decidable (Verifies q G P x m r s) :=
  inferInstanceAs (Decidable ((1 ≤ r ∧ r < q) ∧ (1 ≤ s ∧ s < q) ∧ point q G P m r s ≠ 0
    ∧ (x (point q G P m r s) % q : ℕ) = r))

/-- The multiple of `G` by a number mod `q`. -/
def multiple (G : Γ) (a : ZMod q) : Γ := a.val • G

section Multiples

variable [NeZero q]

theorem zsmul_eq_multiple (hG : addOrderOf G = q) (n : ℤ) : n • G = multiple G (n : ZMod q) := by
  rw [multiple, ← natCast_zsmul, ZMod.natCast_val, ← hG]
  refine zsmul_eq_zsmul_iff_modEq.mpr ?_
  rw [hG, ← ZMod.intCast_eq_intCast_iff]
  simp

theorem multiple_inj (hG : addOrderOf G = q) {a b : ZMod q} :
    multiple G a = multiple G b ↔ a = b := by
  constructor
  · intro h
    have hmod := nsmul_eq_nsmul_iff_modEq.mp h
    rw [hG] at hmod
    have hval : a.val = b.val := by
      have hrem : a.val % q = b.val % q := hmod
      rwa [Nat.mod_eq_of_lt a.val_lt, Nat.mod_eq_of_lt b.val_lt] at hrem
    exact ZMod.val_injective q hval
  · exact congrArg _

theorem multiple_eq_zero_iff (hG : addOrderOf G = q) {a : ZMod q} : multiple G a = 0 ↔ a = 0 := by
  have hzero : multiple G (0 : ZMod q) = 0 := by rw [multiple, ZMod.val_zero, zero_smul]
  rw [← multiple_inj hG, hzero]

theorem multiple_neg (hG : addOrderOf G = q) (a : ZMod q) : multiple G (-a) = -multiple G a := by
  have ha : ((a.val : ℤ) : ZMod q) = a := by simp
  have hneg : ((-(a.val : ℤ) : ℤ) : ZMod q) = -a := by rw [Int.cast_neg, ha]
  rw [← hneg, ← zsmul_eq_multiple hG, neg_smul, natCast_zsmul, multiple]

end Multiples

variable [Fact q.Prime]

theorem point_eq_multiple (hG : addOrderOf G = q) (d m r s : ℤ) :
    point q G (d • G) m r s = multiple G ((m + r * d) * (s : ZMod q)⁻¹ : ZMod q) := by
  have hc : ((((s : ZMod q)⁻¹).val : ℤ) : ZMod q) = (s : ZMod q)⁻¹ := by simp
  rw [point, ← mul_smul, ← add_smul, zsmul_eq_multiple hG]
  congr 1
  rw [Int.cast_add, ZMod.intCast_mod, Int.cast_mul, Int.cast_mul, ZMod.intCast_mod, Int.cast_mul, hc]
  ring

theorem verifies_iff (hG : addOrderOf G = q) :
    Verifies q G (d • G) x m r s
      ↔ (1 ≤ r ∧ r < q) ∧ (1 ≤ s ∧ s < q) ∧ (m + r * d : ZMod q) ≠ 0
        ∧ (x (multiple G ((m + r * d) * (s : ZMod q)⁻¹ : ZMod q)) % q : ℕ) = r := by
  have hs : 1 ≤ s ∧ s < q → (s : ZMod q) ≠ 0 := by
    intro hs hzero
    have hdvd := (ZMod.intCast_zmod_eq_zero_iff_dvd s q).mp hzero
    exact absurd (Int.le_of_dvd (by omega) hdvd) (by omega)
  rw [Verifies, point_eq_multiple hG]
  refine and_congr_right fun _ => and_congr_right fun hrange => and_congr_left fun _ => ?_
  rw [ne_eq, multiple_eq_zero_iff hG, mul_eq_zero, not_or]
  exact ⟨fun h => h.1, fun h => ⟨h, inv_ne_zero (hs hrange)⟩⟩

end Ecdsa
