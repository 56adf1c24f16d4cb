import Mathlib.Algebra.Module.BigOperators
import Mathlib.LinearAlgebra.Lagrange

set_option autoImplicit false

/-! # Sharing a secret

The secret is the value at zero of a polynomial, and a share its value at another point. As many
shares as the polynomial has coefficients, each with its weight, sum up to the secret (`recombine`).
With multiples of a point in the place of the coefficients, anyone can compute the multiple that
belongs to a share (`combine_commit`).
-/

namespace Sharing

/-! ## Values of a polynomial -/

section Values

variable {R R' : Type*} [CommRing R] [CommRing R']

/-- The value at `x` of the polynomial with the given coefficients, the constant one first. -/
def valueAt : List R → R → R
  | [], _ => 0
  | a :: as, x => a + x * valueAt as x

@[simp] theorem valueAt_nil (x : R) : valueAt [] x = 0 := rfl

@[simp] theorem valueAt_cons (a : R) (as : List R) (x : R) :
    valueAt (a :: as) x = a + x * valueAt as x := rfl

theorem valueAt_zero (a : R) (as : List R) : valueAt (a :: as) 0 = a := by
  rw [valueAt_cons, zero_mul, add_zero]

theorem valueAt_map (f : R →+* R') (as : List R) (x : R) :
    valueAt (as.map f) (f x) = f (valueAt as x) := by
  induction as with
  | nil => exact (map_zero f).symm
  | cons a as ih => rw [List.map_cons, valueAt_cons, ih, valueAt_cons, map_add, map_mul]

/-- A polynomial with the given coefficients. -/
noncomputable def poly (as : List R) : Polynomial R := valueAt (as.map Polynomial.C) Polynomial.X

theorem eval_poly (as : List R) (x : R) : (poly as).eval x = valueAt as x := by
  have hmap := valueAt_map (Polynomial.evalRingHom x) (as.map Polynomial.C) Polynomial.X
  have hcomp : (Polynomial.evalRingHom x : Polynomial R → R) ∘ Polynomial.C = id := by
    funext a
    exact Polynomial.eval_C
  rw [List.map_map, hcomp, List.map_id, Polynomial.coe_evalRingHom, Polynomial.eval_X] at hmap
  exact hmap.symm

theorem degree_poly_lt (as : List R) : (poly as).degree < as.length := by
  induction as with
  | nil =>
      have hzero : poly ([] : List R) = 0 := rfl
      rw [hzero, Polynomial.degree_zero]
      exact WithBot.bot_lt_coe 0
  | cons a as ih =>
      have hcons : poly (a :: as) = Polynomial.C a + Polynomial.X * poly as := rfl
      have hshift : (Polynomial.X * poly as).degree < ((as.length + 1 : ℕ) : WithBot ℕ) := by
        refine lt_of_le_of_lt (Polynomial.degree_mul_le _ _) ?_
        rw [add_comm, Nat.cast_succ]
        calc
          (poly as).degree + Polynomial.X.degree
              ≤ (poly as).degree + 1 := by gcongr; exact Polynomial.degree_X_le
          _ < as.length + 1 := WithBot.add_lt_add_right WithBot.one_ne_bot ih
      have hconst : (Polynomial.C a).degree < ((as.length + 1 : ℕ) : WithBot ℕ) :=
        lt_of_le_of_lt Polynomial.degree_C_le (by exact_mod_cast Nat.succ_pos _)
      rw [hcons, List.length_cons]
      exact lt_of_le_of_lt (Polynomial.degree_add_le _ _) (max_lt hconst hshift)

end Values

/-! ## Recombination -/

section Weights

variable {F : Type*} [Field F] [DecidableEq F]

/-- The weight of the share at `i` among the shares at `is`. -/
def weight (is : List F) (i : F) : F :=
  (is.filter (· ≠ i)).prod * ((is.filter (· ≠ i)).map (· - i)).prod⁻¹

/-- The value at zero of the polynomial that is one at `i` and zero at the others of `is`. -/
theorem eval_basis_zero {is : List F} (hnodup : is.Nodup) (i : F) :
    (Lagrange.basis is.toFinset id i).eval 0 = weight is i := by
  have herase : is.toFinset.erase i = (is.filter (· ≠ i)).toFinset := by
    rw [List.toFinset_filter]
    ext j
    simp [and_comm]
  have hterm (j : F) : (Lagrange.basisDivisor (id i) (id j)).eval 0 = j * (j - i)⁻¹ := by
    have hneg : (i - j)⁻¹ = -(j - i)⁻¹ := by rw [← neg_sub, inv_neg]
    simp [Lagrange.basisDivisor, hneg, mul_comm]
  rw [Lagrange.basis, Polynomial.eval_prod, herase, weight]
  rw [Finset.prod_congr rfl fun j _ => hterm j, Finset.prod_mul_distrib, Finset.prod_inv_distrib]
  rw [List.prod_toFinset _ (hnodup.filter _), List.prod_toFinset _ (hnodup.filter _), List.map_id']

/-- **Recombination.** The shares at as many points as there are coefficients give the secret. -/
theorem recombine {as is : List F} (hnodup : is.Nodup) (hlen : as.length ≤ is.length) :
    (is.map fun i => weight is i * valueAt as i).sum = valueAt as 0 := by
  have hcard : (poly as).degree < is.toFinset.card := by
    rw [List.toFinset_card_of_nodup hnodup]
    exact lt_of_lt_of_le (degree_poly_lt as) (by exact_mod_cast hlen)
  have hinterp : poly as
      = Lagrange.interpolate is.toFinset id (fun i => (poly as).eval (id i)) :=
    Lagrange.eq_interpolate (Set.injOn_id _) hcard
  have hzero := congrArg (Polynomial.eval 0) hinterp
  rw [eval_poly, Lagrange.interpolate_apply, Polynomial.eval_finsetSum,
    List.sum_toFinset _ hnodup] at hzero
  rw [hzero]
  congr 1
  refine List.map_congr_left fun i _ => ?_
  rw [Polynomial.eval_mul, Polynomial.eval_C, eval_basis_zero hnodup, id, eval_poly, mul_comm]

end Weights

/-! ## Commitments to the coefficients -/

section Commitments

variable {Γ : Type*} [AddCommGroup Γ]

/-- The sum of the points, each with the power of `x` of its place. -/
def combine (x : ℤ) : List Γ → Γ
  | [] => 0
  | P :: Ps => P + x • combine x Ps

theorem combine_commit (G : Γ) (as : List ℤ) (x : ℤ) :
    combine x (as.map (· • G)) = valueAt as x • G := by
  induction as with
  | nil => exact (zero_smul ℤ G).symm
  | cons a as ih => rw [List.map_cons, combine, ih, valueAt_cons, add_smul, mul_smul]

/-- The points from the place `j` on. -/
theorem sum_zipIdx (x : ℤ) (Ps : List Γ) (j : ℕ) :
    ((Ps.zipIdx j).map fun entry => x ^ entry.2 • entry.1).sum = x ^ j • combine x Ps := by
  induction Ps generalizing j with
  | nil => exact (smul_zero _).symm
  | cons P Ps ih =>
      rw [List.zipIdx_cons, List.map_cons, List.sum_cons, ih, combine, smul_add, pow_succ, mul_smul]

end Commitments

end Sharing
