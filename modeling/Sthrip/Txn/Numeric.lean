import Mathlib.Algebra.Group.Subgroup.ZPowers.Basic
import Mathlib.Algebra.Order.Round
import Mathlib.Data.Rat.Floor
import Mathlib.Tactic.FieldSimp
import Mathlib.Tactic.Linarith
import Mathlib.Tactic.Positivity

set_option autoImplicit false

/-! # Decimals in fixed-scale columns

A column `NUMERIC(p, s)` keeps `s` digits after the point. What is written to it is rounded,
half away from zero. Programs compute with exact decimals (`ℚ`), so a value changes only when it
is stored; the values that do not change are the multiples of `10⁻ˢ`, which form a subgroup
(`decimals s`).

`Columns` is how a database stores decimals. Results that do not depend on rounding are about
every `Columns`, or about `Columns.exact`.
-/

namespace Txn

/-! ## Rounding -/

/-- The nearest integer, halves away from zero. -/
def roundHalfAway (x : ℚ) : ℤ := if 0 ≤ x then ⌊x + 1 / 2⌋ else -⌊-x + 1 / 2⌋

/-- The nearest integer, halves to the even neighbour. -/
def roundHalfEven (x : ℚ) : ℤ :=
  if x - ⌊x⌋ < 1 / 2 then ⌊x⌋
  else if 1 / 2 < x - ⌊x⌋ then ⌊x⌋ + 1
  else if ⌊x⌋ % 2 = 0 then ⌊x⌋ else ⌊x⌋ + 1

/-- What a column of scale `s` keeps of a value. -/
def numeric (s : ℕ) (x : ℚ) : ℚ := roundHalfAway (x * 10 ^ s) / 10 ^ s

/-- `Decimal.quantize` to `s` digits in the default context, which rounds half to even. -/
def quantize (s : ℕ) (x : ℚ) : ℚ := roundHalfEven (x * 10 ^ s) / 10 ^ s

theorem floor_intCast_add_half (z : ℤ) : ⌊(z : ℚ) + 1 / 2⌋ = z := by
  rw [Int.floor_intCast_add, show ⌊(1 / 2 : ℚ)⌋ = 0 by rw [Int.floor_eq_zero_iff]; norm_num,
    add_zero]

theorem roundHalfAway_intCast (z : ℤ) : roundHalfAway z = z := by
  unfold roundHalfAway
  split
  · exact floor_intCast_add_half z
  · rw [← Int.cast_neg, floor_intCast_add_half, neg_neg]

theorem roundHalfAway_nonneg {x : ℚ} (h : 0 ≤ x) : 0 ≤ roundHalfAway x := by
  rw [roundHalfAway, if_pos h]
  exact Int.floor_nonneg.mpr (by linarith)

theorem roundHalfEven_nonneg {x : ℚ} (h : 0 ≤ x) : 0 ≤ roundHalfEven x := by
  have := Int.floor_nonneg.mpr h
  unfold roundHalfEven
  split
  · exact this
  · split
    · omega
    · split <;> omega

theorem roundHalfAway_monotone {x y : ℚ} (h : x ≤ y) : roundHalfAway x ≤ roundHalfAway y := by
  rcases le_or_gt 0 x with hx | hx
  · rw [roundHalfAway, if_pos hx, roundHalfAway, if_pos (hx.trans h)]
    exact Int.floor_le_floor (by linarith)
  · rw [roundHalfAway, if_neg (not_le.mpr hx)]
    have hfloor : 0 ≤ ⌊-x + 1 / 2⌋ := Int.floor_nonneg.mpr (by linarith)
    rcases le_or_gt 0 y with hy | hy
    · have := roundHalfAway_nonneg hy
      omega
    · rw [roundHalfAway, if_neg (not_le.mpr hy)]
      exact neg_le_neg (Int.floor_le_floor (by linarith))

theorem roundHalfEven_intCast (z : ℤ) : roundHalfEven z = z := by
  have hfloor : ((z : ℚ) - ⌊(z : ℚ)⌋) < 1 / 2 := by
    rw [Int.floor_intCast, sub_self]
    norm_num
  rw [roundHalfEven, if_pos hfloor, Int.floor_intCast]

theorem roundHalfEven_le {x : ℚ} (hx : 0 ≤ x) : (roundHalfEven x : ℚ) ≤ 3 * x := by
  have hfloor : (⌊x⌋ : ℚ) ≤ x := Int.floor_le x
  unfold roundHalfEven
  split
  · linarith
  · next h =>
      -- at least one half is left over
      have hfloor₀ : (0 : ℚ) ≤ ⌊x⌋ := by exact_mod_cast Int.floor_nonneg.mpr hx
      have hup : ((⌊x⌋ + 1 : ℤ) : ℚ) ≤ 3 * x := by
        push_cast
        linarith
      split
      · exact hup
      · split
        · linarith
        · exact hup

theorem floor_le_roundHalfEven (x : ℚ) : ⌊x⌋ ≤ roundHalfEven x := by
  unfold roundHalfEven
  split
  · exact le_refl _
  · split
    · omega
    · split <;> omega

theorem roundHalfEven_le_floor (x : ℚ) : roundHalfEven x ≤ ⌊x⌋ + 1 := by
  unfold roundHalfEven
  split
  · omega
  · split
    · omega
    · split <;> omega

/-- Rounding moves a number by at most one half. -/
theorem roundHalfEven_dist (x : ℚ) : |(roundHalfEven x : ℚ) - x| ≤ 1 / 2 := by
  have hle : (⌊x⌋ : ℚ) ≤ x := Int.floor_le x
  have hlt : x < ⌊x⌋ + 1 := Int.lt_floor_add_one x
  unfold roundHalfEven
  rw [abs_le]
  split
  · constructor <;> linarith
  · split
    · push_cast
      constructor <;> linarith
    · split
      · constructor <;> linarith
      · push_cast
        constructor <;> linarith

theorem roundHalfEven_mono {x y : ℚ} (h : x ≤ y) : roundHalfEven x ≤ roundHalfEven y := by
  rcases lt_or_eq_of_le (Int.floor_le_floor h) with hlt | heq
  · have hx := roundHalfEven_le_floor x
    have hy := floor_le_roundHalfEven y
    omega
  · -- the same integer below: what is left over decides
    have hfloor : (⌊x⌋ : ℚ) = ⌊y⌋ := by rw [heq]
    unfold roundHalfEven
    rw [heq]
    split
    · split
      · omega
      · split
        · omega
        · split <;> omega
    · next hx =>
        have hy : ¬y - ⌊y⌋ < 1 / 2 := by linarith
        rw [if_neg hy]
        split
        · next hx' =>
            have hy' : 1 / 2 < y - ⌊y⌋ := by linarith
            rw [if_pos hy']
        · split
          · split
            · omega
            · exact le_refl _
          · split
            · exact le_refl _
            · exact le_refl _

/-- A number is rounded to zero iff it is at most one half, for zero is even. -/
theorem roundHalfEven_eq_zero_iff {x : ℚ} (hx : 0 ≤ x) : roundHalfEven x = 0 ↔ x ≤ 1 / 2 := by
  have hle : (⌊x⌋ : ℚ) ≤ x := Int.floor_le x
  have hlt : x < ⌊x⌋ + 1 := Int.lt_floor_add_one x
  have hfloor : 0 ≤ ⌊x⌋ := Int.floor_nonneg.mpr hx
  unfold roundHalfEven
  rcases hfloor.eq_or_lt with hzero | hpos
  · rw [← hzero] at hle hlt ⊢
    push_cast
    rw [sub_zero]
    split
    · next h => exact ⟨fun _ => h.le, fun _ => rfl⟩
    · split
      · next h =>
          constructor
          · intro h'
            cases h'
          · intro h'
            exact absurd h' (not_le.mpr h)
      · next h => exact ⟨fun _ => not_lt.mp h, fun _ => rfl⟩
  · have hone : (1 : ℚ) ≤ ⌊x⌋ := by exact_mod_cast hpos
    constructor
    · intro h
      split at h
      · omega
      · split at h
        · omega
        · split at h <;> omega
    · intro h
      linarith

theorem roundHalfAway_dist (x : ℚ) : |(roundHalfAway x : ℚ) - x| ≤ 1 / 2 := by
  have hdist : ∀ y : ℚ, |(⌊y + 1 / 2⌋ : ℚ) - y| ≤ 1 / 2 := by
    intro y
    have hle : (⌊y + 1 / 2⌋ : ℚ) ≤ y + 1 / 2 := Int.floor_le _
    have hlt : y + 1 / 2 < ⌊y + 1 / 2⌋ + 1 := Int.lt_floor_add_one _
    rw [abs_le]
    constructor <;> linarith
  unfold roundHalfAway
  split
  · exact hdist x
  · have heq : -((⌊-x + 1 / 2⌋ : ℚ) - -x) = ((-⌊-x + 1 / 2⌋ : ℤ) : ℚ) - x := by
      push_cast
      ring
    rw [← heq, abs_neg]
    exact hdist (-x)

/-- A column is off by half a unit of its last digit at most. -/
theorem numeric_dist (s : ℕ) (x : ℚ) : |numeric s x - x| ≤ 1 / (2 * 10 ^ s) := by
  have hpow : (0 : ℚ) < 10 ^ s := by positivity
  have hscale : numeric s x - x = (roundHalfAway (x * 10 ^ s) - x * 10 ^ s) / 10 ^ s := by
    rw [numeric, sub_div, mul_div_cancel_right₀ _ hpow.ne']
  rw [hscale, abs_div, abs_of_pos hpow, div_le_div_iff₀ hpow (by positivity)]
  have := roundHalfAway_dist (x * 10 ^ s)
  linarith [mul_le_mul_of_nonneg_right this (by positivity : (0 : ℚ) ≤ 2 * 10 ^ s)]

theorem numeric_nonneg (s : ℕ) {x : ℚ} (h : 0 ≤ x) : 0 ≤ numeric s x := by
  have : 0 ≤ roundHalfAway (x * 10 ^ s) := roundHalfAway_nonneg (by positivity)
  unfold numeric
  positivity

theorem numeric_monotone (s : ℕ) : Monotone (numeric s) := by
  intro x y h
  have hpow : (0 : ℚ) < 10 ^ s := by positivity
  have hround : roundHalfAway (x * 10 ^ s) ≤ roundHalfAway (y * 10 ^ s) :=
    roundHalfAway_monotone (mul_le_mul_of_nonneg_right h hpow.le)
  unfold numeric
  gcongr

theorem quantize_nonneg (s : ℕ) {x : ℚ} (h : 0 ≤ x) : 0 ≤ quantize s x := by
  have : 0 ≤ roundHalfEven (x * 10 ^ s) := roundHalfEven_nonneg (by positivity)
  unfold quantize
  positivity

/-! ## The values a column keeps -/

/-- The decimals with `s` digits after the point. -/
def decimals (s : ℕ) : AddSubgroup ℚ := AddSubgroup.zmultiples ((10 ^ s : ℚ)⁻¹)

theorem mem_decimals {s : ℕ} {x : ℚ} : x ∈ decimals s ↔ ∃ z : ℤ, x = z / 10 ^ s := by
  rw [decimals, AddSubgroup.mem_zmultiples_iff]
  refine exists_congr fun z => ?_
  rw [zsmul_eq_mul, div_eq_mul_inv]
  exact eq_comm

theorem numeric_mem (s : ℕ) (x : ℚ) : numeric s x ∈ decimals s :=
  mem_decimals.mpr ⟨_, rfl⟩

theorem quantize_mem (s : ℕ) (x : ℚ) : quantize s x ∈ decimals s :=
  mem_decimals.mpr ⟨_, rfl⟩

theorem numeric_of_mem {s : ℕ} {x : ℚ} (h : x ∈ decimals s) : numeric s x = x := by
  obtain ⟨z, rfl⟩ := mem_decimals.mp h
  rw [numeric, div_mul_cancel₀ _ (by positivity), roundHalfAway_intCast]

theorem roundHalfAway_intCast_add {z : ℤ} {x : ℚ} (hz : 0 ≤ z) (hx : 0 ≤ x) :
    roundHalfAway (z + x) = z + roundHalfAway x := by
  have hz' : (0 : ℚ) ≤ z := by exact_mod_cast hz
  rw [roundHalfAway, if_pos (by linarith), roundHalfAway, if_pos hx, add_assoc,
    Int.floor_intCast_add]

/-- Two parts of an integer are rounded to parts of it, unless both are halfway. -/
theorem roundHalfAway_add_eq_iff {x y : ℚ} (hx : 0 ≤ x) (hy : 0 ≤ y) {z : ℤ} (h : x + y = z) :
    roundHalfAway x + roundHalfAway y = z ↔ Int.fract y ≠ 1 / 2 := by
  have hfloor : x + 1 / 2 = ((z - ⌊y⌋ : ℤ) : ℚ) + (1 / 2 - Int.fract y) := by
    push_cast
    rw [Int.fract]
    linarith
  have hhalf : y + 1 / 2 = (⌊y⌋ : ℚ) + (Int.fract y + 1 / 2) := by
    rw [Int.fract]
    ring
  rw [roundHalfAway, if_pos hx, roundHalfAway, if_pos hy, hfloor, hhalf, Int.floor_intCast_add,
    Int.floor_intCast_add]
  have h₀ := Int.fract_nonneg y
  have h₁ := Int.fract_lt_one y
  rcases lt_trichotomy (Int.fract y) (1 / 2) with hlt | heq | hgt
  · -- the second part is rounded down, the first one up
    have hup : ⌊1 / 2 - Int.fract y⌋ = 0 := Int.floor_eq_zero_iff.mpr ⟨by linarith, by linarith⟩
    have hdown : ⌊Int.fract y + 1 / 2⌋ = 0 := Int.floor_eq_zero_iff.mpr ⟨by linarith, by linarith⟩
    rw [hup, hdown]
    refine iff_of_true (by omega) hlt.ne
  · -- both are rounded up
    have hup : ⌊1 / 2 - Int.fract y⌋ = 0 := by rw [heq, sub_self, Int.floor_zero]
    have hup' : ⌊Int.fract y + 1 / 2⌋ = 1 := by
      rw [heq]
      norm_num
    rw [hup, hup']
    exact iff_of_false (by omega) fun hne => hne heq
  · have hdown : ⌊1 / 2 - Int.fract y⌋ = -1 := Int.floor_eq_iff.mpr (by
      push_cast
      exact ⟨by linarith, by linarith⟩)
    have hup : ⌊Int.fract y + 1 / 2⌋ = 1 := Int.floor_eq_iff.mpr (by
      push_cast
      exact ⟨by linarith, by linarith⟩)
    rw [hdown, hup]
    exact iff_of_true (by omega) hgt.ne'

theorem numeric_zero (s : ℕ) : numeric s 0 = 0 := numeric_of_mem (zero_mem _)

/-- What a column keeps of a sum, when it keeps the first part. -/
theorem numeric_add {s : ℕ} {x y : ℚ} (h : x ∈ decimals s) (hx : 0 ≤ x) (hy : 0 ≤ y) :
    numeric s (x + y) = x + numeric s y := by
  obtain ⟨z, rfl⟩ := mem_decimals.mp h
  have hpow : (0 : ℚ) < 10 ^ s := by positivity
  have hz : 0 ≤ z := by
    have : (0 : ℚ) ≤ z := by
      have hmul := mul_nonneg hx hpow.le
      rwa [div_mul_cancel₀ _ hpow.ne'] at hmul
    exact_mod_cast this
  have hscale : (z / 10 ^ s + y) * 10 ^ s = (z : ℚ) + y * 10 ^ s := by
    rw [add_mul, div_mul_cancel₀ _ hpow.ne']
  rw [numeric, hscale, roundHalfAway_intCast_add hz (mul_nonneg hy hpow.le), numeric]
  push_cast
  rw [add_div]

/-- What a column keeps of two parts adds up to what it keeps of the whole, unless both parts are
halfway between two values. -/
theorem numeric_add_numeric_iff {s : ℕ} {x y : ℚ} (hx : 0 ≤ x) (hy : 0 ≤ y)
    (h : x + y ∈ decimals s) :
    numeric s x + numeric s y = x + y ↔ Int.fract (y * 10 ^ s) ≠ 1 / 2 := by
  obtain ⟨z, hz⟩ := mem_decimals.mp h
  have hpow : (0 : ℚ) < 10 ^ s := by positivity
  have hscaled : x * 10 ^ s + y * 10 ^ s = z := by
    rw [← add_mul, hz, div_mul_cancel₀ _ hpow.ne']
  rw [← roundHalfAway_add_eq_iff (mul_nonneg hx hpow.le) (mul_nonneg hy hpow.le) hscaled, hz,
    numeric, numeric, ← add_div, div_left_inj' hpow.ne']
  norm_cast

/-- The nearest value of a column of scale `s`, halves down. -/
def numericDown (s : ℕ) (x : ℚ) : ℚ := ⌈x * 10 ^ s - 1 / 2⌉ / 10 ^ s

/-- What is missing of a value of the column when something was taken off it. -/
theorem sub_numeric_sub {s : ℕ} {x y : ℚ} (h : y ∈ decimals s) (hx : x ≤ y) :
    y - numeric s (y - x) = numericDown s x := by
  obtain ⟨z, rfl⟩ := mem_decimals.mp h
  have hpow : (0 : ℚ) < 10 ^ s := by positivity
  have hscale : (z / 10 ^ s - x) * 10 ^ s = z - x * 10 ^ s := by
    rw [sub_mul, div_mul_cancel₀ _ hpow.ne']
  have hpos : (0 : ℚ) ≤ z - x * 10 ^ s := by
    rw [← hscale]
    exact mul_nonneg (by linarith) hpow.le
  have hround : roundHalfAway (z - x * 10 ^ s) = z - ⌈x * 10 ^ s - 1 / 2⌉ := by
    rw [roundHalfAway, if_pos hpos,
      show (z : ℚ) - x * 10 ^ s + 1 / 2 = z + -(x * 10 ^ s - 1 / 2) by ring, Int.floor_intCast_add,
      Int.floor_neg]
    ring
  rw [numeric, hscale, hround, numericDown]
  push_cast
  rw [← sub_div, sub_sub_cancel]

theorem decimals_mono {s t : ℕ} (h : s ≤ t) : decimals s ≤ decimals t := by
  intro x hx
  obtain ⟨z, rfl⟩ := mem_decimals.mp hx
  refine mem_decimals.mpr ⟨z * 10 ^ (t - s), ?_⟩
  push_cast
  rw [div_eq_div_iff (by positivity) (by positivity), mul_assoc, ← pow_add,
    Nat.sub_add_cancel h]

/-! ## Columns -/

/-- What a decimal column keeps of a value, by the column's scale. -/
abbrev Columns := ℕ → ℚ → ℚ

/-- Columns that keep every decimal as it is. -/
def Columns.exact : Columns := fun _ x => x

/-- The columns of PostgreSQL. -/
def Columns.rounding : Columns := numeric

/-- The columns of scale `s` keep the values of `A`. -/
def Columns.Keeps (col : Columns) (s : ℕ) (A : AddSubgroup ℚ) : Prop := ∀ x ∈ A, col s x = x

theorem Columns.rounding_keeps (s : ℕ) : Columns.rounding.Keeps s (decimals s) :=
  fun _ h => numeric_of_mem h

end Txn
