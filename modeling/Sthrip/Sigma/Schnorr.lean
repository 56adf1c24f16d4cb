import Mathlib.Algebra.Field.ZMod
import Mathlib.Data.ZMod.Basic
import Mathlib.GroupTheory.OrderOfElement

set_option autoImplicit false

/-! # Schnorr proofs, and the disjunction of two

In a commutative group in which `x ^ q = 1`, the exponents are numbers mod `q`. A Schnorr proof
for `T = h ^ r` is an announcement `A`, a challenge `c` and a response `s` with
`h ^ s = A * T ^ c`. Two answers to one announcement give the logarithm of `T` (`dlog`).

A disjunction proves that `D` is an `h ^ r` or a `g * h ^ r`: two such proofs whose challenges sum
up to the challenge of the whole. The one for the false side is made backwards, from its response.
-/

namespace Schnorr

variable {Γ : Type*} [CommGroup Γ] {q : ℕ} {g h x T A D : Γ} {c c' s s' k r m n : ℤ}

/-! ## Exponents mod `q` -/

theorem zpow_emod (hx : x ^ q = 1) (n : ℤ) : x ^ (n % q) = x ^ n := by
  have hx' : x ^ (q : ℤ) = 1 := by rw [zpow_natCast, hx]
  exact (zpow_eq_zpow_emod n hx').symm

theorem zpow_congr (hx : x ^ q = 1) (h : (m : ZMod q) = n) : x ^ m = x ^ n := by
  have hmod : m % q = n % q := (ZMod.intCast_eq_intCast_iff' m n q).mp h
  rw [← zpow_emod hx m, hmod, zpow_emod hx]

/-! ## One proof -/

/-- What a verifier checks. -/
def Accepts (h T A : Γ) (c s : ℤ) : Prop := h ^ s = A * T ^ c

instance [DecidableEq Γ] : Decidable (Accepts h T A c s) :=
  inferInstanceAs (Decidable (h ^ s = A * T ^ c))

/-- The answer of a prover that knows the logarithm. -/
theorem accepts_honest (hh : h ^ q = 1) (hT : T = h ^ r) (k c : ℤ) :
    Accepts h T (h ^ k) c ((k + c * r) % q) := by
  unfold Accepts
  rw [zpow_emod hh, hT, ← zpow_mul, ← zpow_add, mul_comm c r]

/-- An announcement that is made for the challenge and the response. -/
theorem accepts_simulated (hT : T ^ q = 1) (c s : ℤ) : Accepts h T (h ^ s * T ^ (q - c)) c s := by
  have hcancel : T ^ ((q : ℤ) - c) * T ^ c = 1 := by
    rw [← zpow_add, sub_add_cancel, zpow_natCast, hT]
  unfold Accepts
  rw [mul_assoc, hcancel, mul_one]

/-- The announcement is the one that is made for the challenge and the response. -/
theorem Accepts.simulated (haccept : Accepts h T A c s) (hT : T ^ q = 1) :
    h ^ s * T ^ (q - c) = A := by
  have hs : h ^ s = A * T ^ c := haccept
  rw [hs, mul_assoc, ← zpow_add, add_sub_cancel, zpow_natCast, hT, mul_one]

/-- The announcement is the one of a prover that knows the logarithm. -/
theorem Accepts.honest (haccept : Accepts h T A c s) (hh : h ^ q = 1) (hT : T = h ^ r) :
    h ^ ((s - c * r) % q) = A := by
  have hs : h ^ s = A * T ^ c := haccept
  rw [zpow_emod hh, zpow_sub, hs, hT, ← zpow_mul, mul_comm r, mul_inv_cancel_right]

/-- The logarithm of `T`, from the responses `s` and `s'` to the challenges `c` and `c'`. -/
def dlog (q : ℕ) (c c' s s' : ℤ) : ℤ := (((s - s' : ZMod q) * (c - c' : ZMod q)⁻¹).val : ℤ)

theorem cast_dlog [NeZero q] (c c' s s' : ℤ) :
    (dlog q c c' s s' : ZMod q) = (s - s') * (c - c' : ZMod q)⁻¹ := by
  simp [dlog]

/-- **Special soundness.** -/
theorem eq_zpow_dlog [Fact q.Prime] (hq : ∀ x : Γ, x ^ q = 1) (hc : (c : ZMod q) ≠ c')
    (haccept : Accepts h T A c s) (haccept' : Accepts h T A c' s') :
    T = h ^ dlog q c c' s s' := by
  have hne : (c - c' : ZMod q) ≠ 0 := sub_ne_zero.mpr hc
  -- the announcement cancels
  have hquot : h ^ (s - s') = T ^ (c - c') := by
    have hs : h ^ s = A * T ^ c := haccept
    have hs' : h ^ s' = A * T ^ c' := haccept'
    rw [zpow_sub, zpow_sub, hs, hs', ← div_eq_mul_inv, ← div_eq_mul_inv, mul_div_mul_left_eq_div]
  set u : ℤ := ((c - c' : ZMod q)⁻¹.val : ℤ) with hu
  have hcast : (u : ZMod q) = (c - c' : ZMod q)⁻¹ := by simp [hu]
  calc
    T = T ^ ((c - c') * u) := by
      conv_lhs => rw [← zpow_one T]
      refine zpow_congr (hq T) ?_
      rw [Int.cast_mul, Int.cast_sub, hcast, mul_inv_cancel₀ hne, Int.cast_one]
    _ = h ^ ((s - s') * u) := by rw [zpow_mul, ← hquot, ← zpow_mul]
    _ = h ^ dlog q c c' s s' := by
      refine zpow_congr (hq h) ?_
      rw [cast_dlog, Int.cast_mul, Int.cast_sub, hcast]

/-! ## One of two -/

/-- The announcements, challenges and responses of the two sides. -/
structure OrTranscript (Γ : Type*) where
  A₀ : Γ
  A₁ : Γ
  c₀ : ℤ
  c₁ : ℤ
  s₀ : ℤ
  s₁ : ℤ

/-- `t` answers the challenge `c`: `D` is a power of `h`, or `D / g` is. -/
structure OrAccepts (q : ℕ) (g h D : Γ) (c : ℤ) (t : OrTranscript Γ) : Prop where
  challenge : (t.c₀ + t.c₁) % q = c
  zero : Accepts h D t.A₀ t.c₀ t.s₀
  one : Accepts h (D * g⁻¹) t.A₁ t.c₁ t.s₁

/-- A value and a blinding for `D`, from two transcripts: the side whose challenges differ. -/
def orOpening (q : ℕ) (t t' : OrTranscript Γ) : ℤ × ℤ :=
  if (t.c₀ : ZMod q) = t'.c₀ then (1, dlog q t.c₁ t'.c₁ t.s₁ t'.s₁)
  else (0, dlog q t.c₀ t'.c₀ t.s₀ t'.s₀)

omit [CommGroup Γ] in
theorem orOpening_bit (q : ℕ) (t t' : OrTranscript Γ) :
    (orOpening q t t').1 = 0 ∨ (orOpening q t t').1 = 1 := by
  unfold orOpening
  split
  · exact Or.inr rfl
  · exact Or.inl rfl

/-- **Special soundness** of the disjunction. -/
theorem eq_orOpening [Fact q.Prime] (hq : ∀ x : Γ, x ^ q = 1) {t t' : OrTranscript Γ}
    (h₀ : t.A₀ = t'.A₀) (h₁ : t.A₁ = t'.A₁) (hc : c ≠ c') (haccept : OrAccepts q g h D c t)
    (haccept' : OrAccepts q g h D c' t') :
    D = g ^ (orOpening q t t').1 * h ^ (orOpening q t t').2 := by
  unfold orOpening
  split
  · next heq =>
      -- the challenges of the first side agree, so those of the second differ
      have hne : (t.c₁ : ZMod q) ≠ t'.c₁ := by
        intro heq₁
        have hsum : ((t.c₀ + t.c₁ : ℤ) : ZMod q) = (t'.c₀ + t'.c₁ : ℤ) := by
          rw [Int.cast_add, Int.cast_add, heq, heq₁]
        rw [ZMod.intCast_eq_intCast_iff', haccept.challenge, haccept'.challenge] at hsum
        exact hc hsum
      have hone := haccept'.one
      rw [← h₁] at hone
      rw [zpow_one, ← eq_zpow_dlog hq hne haccept.one hone, mul_comm g, inv_mul_cancel_right]
  · next hne =>
      have hzero := haccept'.zero
      rw [← h₀] at hzero
      rw [zpow_zero, one_mul]
      exact eq_zpow_dlog hq hne haccept.zero hzero

end Schnorr
