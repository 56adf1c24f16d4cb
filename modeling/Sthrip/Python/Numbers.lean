import Mathlib.Algebra.Order.Field.Power
import Mathlib.Algebra.Order.Field.Rat
import Mathlib.Data.Int.Log
import Sthrip.Txn.Numeric

set_option autoImplicit false

/-! # Numbers of several types

Integers mix with decimals and with floats, but decimals do not mix with floats. Apart from that the
arithmetic is exact.
-/

namespace Python

inductive NumberKind
  | int
  | decimal
  | float
  deriving DecidableEq

structure Number where
  kind : NumberKind
  value : ℚ
  deriving DecidableEq

inductive NumberError
  | TypeError
  | ZeroDivisionError
  deriving DecidableEq

namespace NumberKind

/-- The type of the result of an operation. -/
def join : NumberKind → NumberKind → Except NumberError NumberKind
  | int, kind => .ok kind
  | kind, int => .ok kind
  | decimal, decimal => .ok decimal
  | float, float => .ok float
  | decimal, float => .error .TypeError
  | float, decimal => .error .TypeError

end NumberKind

namespace Number

def ofInt (n : ℤ) : Number := ⟨.int, n⟩
def decimal (x : ℚ) : Number := ⟨.decimal, x⟩
def float (x : ℚ) : Number := ⟨.float, x⟩

def add (a b : Number) : Except NumberError Number := do
  let kind ← a.kind.join b.kind
  pure { kind, value := a.value + b.value }

def sub (a b : Number) : Except NumberError Number := do
  let kind ← a.kind.join b.kind
  pure { kind, value := a.value - b.value }

def mul (a b : Number) : Except NumberError Number := do
  let kind ← a.kind.join b.kind
  pure { kind, value := a.value * b.value }

/-- `/`, which makes a float of two integers. -/
def div (a b : Number) : Except NumberError Number := do
  let kind ← a.kind.join b.kind
  if b.value = 0 then .error .ZeroDivisionError
  else pure { kind := if kind = .int then .float else kind, value := a.value / b.value }

def abs (a : Number) : Number := { a with value := |a.value| }

/-- `sum` -/
def sum (l : List Number) : Except NumberError Number := l.foldlM add (ofInt 0)

end Number

/-! ## Decimal contexts

The result of an operation on decimals is the exact result, rounded to the digits of the context, half to
even. It is off by half a unit of its last digit.
-/

open Txn

variable {prec : ℕ} {x : ℚ}

/-- The exponent of the last of `prec` digits. -/
def lastDigit (prec : ℕ) (x : ℚ) : ℤ := Int.log 10 |x| + 1 - prec

/-- `x` with `prec` significant digits. -/
def roundContext (prec : ℕ) (x : ℚ) : ℚ :=
  roundHalfEven (x / 10 ^ lastDigit prec x) * 10 ^ lastDigit prec x

/-- The relative error of a context. -/
def unitRoundoff (prec : ℕ) : ℚ := 10 ^ (1 - prec : ℤ) / 2

theorem roundContext_nonneg (h : 0 ≤ x) : 0 ≤ roundContext prec x := by
  have hround : 0 ≤ roundHalfEven (x / 10 ^ lastDigit prec x) := roundHalfEven_nonneg (by positivity)
  unfold roundContext
  positivity

theorem roundContext_dist (prec : ℕ) (x : ℚ) : |roundContext prec x - x| ≤ |x| * unitRoundoff prec := by
  rcases eq_or_ne x 0 with rfl | hx
  · have hzero : roundHalfEven (0 / 10 ^ lastDigit prec 0) = 0 := by
      rw [zero_div]
      exact_mod_cast roundHalfEven_intCast 0
    rw [roundContext, hzero]
    simp
  have hpow : (0 : ℚ) < 10 ^ lastDigit prec x := by positivity
  have hscale : roundContext prec x - x =
      (roundHalfEven (x / 10 ^ lastDigit prec x) - x / 10 ^ lastDigit prec x) * 10 ^ lastDigit prec x := by
    rw [roundContext, sub_mul, div_mul_cancel₀ _ hpow.ne']
  -- the first digit of the number is not zero
  have hdigit : (10 : ℚ) ^ lastDigit prec x ≤ |x| * 10 ^ (1 - prec : ℤ) := by
    have hlog : ((10 : ℕ) : ℚ) ^ Int.log 10 |x| ≤ |x| := Int.zpow_log_le_self (by norm_num) (abs_pos.mpr hx)
    have hsplit : (10 : ℚ) ^ lastDigit prec x = 10 ^ Int.log 10 |x| * 10 ^ (1 - prec : ℤ) := by
      rw [← zpow_add₀ (by norm_num), lastDigit, add_sub_assoc]
    rw [hsplit]
    exact mul_le_mul_of_nonneg_right (by exact_mod_cast hlog) (by positivity)
  have hround := roundHalfEven_dist (x / 10 ^ lastDigit prec x)
  rw [hscale, abs_mul, abs_of_pos hpow, unitRoundoff]
  calc |(roundHalfEven (x / 10 ^ lastDigit prec x) : ℚ) - x / 10 ^ lastDigit prec x| * 10 ^ lastDigit prec x
      ≤ 1 / 2 * 10 ^ lastDigit prec x := mul_le_mul_of_nonneg_right hround hpow.le
    _ ≤ 1 / 2 * (|x| * 10 ^ (1 - prec : ℤ)) := by linarith
    _ = |x| * (10 ^ (1 - prec : ℤ) / 2) := by ring

theorem roundContext_le (prec : ℕ) (h : 0 ≤ x) : roundContext prec x ≤ x + x * unitRoundoff prec := by
  have hdist := roundContext_dist prec x
  rw [abs_of_nonneg h] at hdist
  linarith [le_abs_self (roundContext prec x - x)]

theorem le_roundContext (prec : ℕ) (h : 0 ≤ x) : x - x * unitRoundoff prec ≤ roundContext prec x := by
  have hdist := roundContext_dist prec x
  rw [abs_of_nonneg h] at hdist
  linarith [neg_abs_le (roundContext prec x - x)]

end Python
