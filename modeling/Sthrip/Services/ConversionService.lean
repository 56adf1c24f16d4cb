import Sthrip.Python.Numbers
import Sthrip.Services.TreasuryService
import Mathlib.Tactic.NormNum

set_option autoImplicit false

/-! # Conversions

`ConversionService.convert` of `sthrip/services/conversion_service.py` under the fallback rates, with the
arithmetic of the default context of decimals, and the request of `schemas_conversion.py` in a session of
its own. The row of the conversion, which nothing reads, is left out.
-/

namespace Sthrip.ConversionService

open Txn

/-- The digits of the default context. -/
def contextPrec : ℕ := 28

/-- `convert`, where `context` is what the context keeps of the result of an operation. -/
def convertIn (context column : ℚ → ℚ) (from_currency to_currency : Token) (amount : ℚ)
    (available : Token → ℚ) : Option (Conversion × (Token → ℚ)) :=
  -- of the rates, only the reciprocals are results
  match (resolveRate from_currency to_currency).map context with
  | none => none
  | some rate =>
      if amount ≤ 0 then none
      else if available from_currency < amount then none
      else
        let gross_to := context (amount * rate)
        let fee := context (gross_to * conversionFee)
        let net_to := context (gross_to - fee)
        let deducted := Function.update available from_currency
          (column (context (available from_currency - amount)))
        let credited := Function.update deducted to_currency
          (column (context (deducted to_currency + net_to)))
        some (⟨from_currency, amount, to_currency, gross_to, fee, net_to, rate⟩, credited)

/-- With exact decimals it is the conversion of the treasuries. -/
theorem convertIn_id (column : ℚ → ℚ) (from_currency to_currency : Token) (amount : ℚ)
    (available : Token → ℚ) :
    convertIn id column from_currency to_currency amount available =
      convert column from_currency to_currency amount available := by
  unfold convertIn convert
  rw [Option.map_id]
  rfl

/-- A column `NUMERIC(20, 12)` has eight digits before the point. -/
def Fits (x : ℚ) : Prop := x < 10 ^ 8

instance (x : ℚ) : Decidable (Fits x) := inferInstanceAs (Decidable (x < 10 ^ 8))

structure ConversionRequest where
  from_currency : Token
  to_currency : Token
  amount : ℚ
  amount_pos : 0 < amount
  amount_le : amount ≤ 100000

/-- The balances after the session of a request: those before, if an exception rolls it back. -/
def ConversionRequest.session (r : ConversionRequest) (available : Token → ℚ) : Token → ℚ :=
  match convertIn (Python.roundContext contextPrec) (numeric 12) r.from_currency r.to_currency r.amount
      available with
  | none => available
  | some (_, credited) =>
      if Fits (credited r.from_currency) ∧ Fits (credited r.to_currency) then credited else available

def run (requests : List ConversionRequest) (available : Token → ℚ) : Token → ℚ :=
  requests.foldl (fun available r => r.session available) available

/-- What the balances are worth in XMR. -/
def value (available : Token → ℚ) : ℚ :=
  available "XMR" + available "xUSD" / xmrUsd + available "xEUR" / xmrEur

end Sthrip.ConversionService

/-! # Which conversions make no money

A conversion of a few stored digits can take less from the source than it pays for: the remainder of the
source is rounded half away from zero, so that half a digit is not taken at all. The fee covers this from
some amount on.
-/

namespace Sthrip.ConversionService

open Txn Python

/-! ## The condition -/

/-- Room for the context, in units of the last stored digit. -/
def margin : ℚ := 1 / 10 ^ 7

/-- The last digits that the source loses at least. -/
def lost (amount : ℚ) : ℤ := ⌈amount * 10 ^ 12 - 1 / 2 - margin⌉

/-- The last digits that the target gains are worth no more than those that the source loses. -/
def Covered (rate amount : ℚ) : Prop :=
  199 / 200 * rate * (amount * 10 ^ 12) + 1 / 2 + margin < ⌊rate * lost amount⌋ + 1

instance (rate amount : ℚ) : Decidable (Covered rate amount) := inferInstanceAs (Decidable (_ < _))

def ConversionRequest.Covered (r : ConversionRequest) : Prop :=
  ∀ rate ∈ resolveRate r.from_currency r.to_currency, ConversionService.Covered rate r.amount

/-- The stored balances. -/
def Stored (available : Token → ℚ) : Prop :=
  ∀ token, available token ∈ decimals 12 ∧ 0 ≤ available token ∧ Fits (available token)

/-! ## One balance -/

theorem unitRoundoff_contextPrec : unitRoundoff contextPrec = 5 / 10 ^ 28 := by
  norm_num [unitRoundoff, contextPrec]

/-- What a column keeps of a number that is at most `u` last digits more than a stored value. -/
theorem numeric_le {t u y : ℚ} (ht : t ∈ decimals 12) (hy : 0 ≤ y) (h : y * 10 ^ 12 ≤ t * 10 ^ 12 + u) :
    numeric 12 y ≤ t + ⌊u + 1 / 2⌋ / 10 ^ 12 := by
  obtain ⟨z, rfl⟩ := mem_decimals.mp ht
  rw [div_mul_cancel₀ _ (by norm_num)] at h
  have hround : roundHalfAway (y * 10 ^ 12) ≤ z + ⌊u + 1 / 2⌋ := by
    rw [roundHalfAway, if_pos (by positivity), ← Int.floor_intCast_add]
    exact Int.floor_le_floor (by linarith)
  have hround' : (roundHalfAway (y * 10 ^ 12) : ℚ) ≤ z + ⌊u + 1 / 2⌋ := by exact_mod_cast hround
  unfold numeric
  rw [← add_div]
  exact div_le_div_of_nonneg_right hround' (by norm_num)

/-- What is left of the source. -/
theorem source_le {s amount : ℚ} (hs : s ∈ decimals 12) (hfits : Fits s) (hpos : 0 < amount)
    (hle : amount ≤ s) :
    numeric 12 (roundContext contextPrec (s - amount)) ≤ s - lost amount / 10 ^ 12 := by
  unfold Fits at hfits
  have hcontext := roundContext_le contextPrec (sub_nonneg.mpr hle)
  rw [unitRoundoff_contextPrec] at hcontext
  have hunits : roundContext contextPrec (s - amount) * 10 ^ 12
      ≤ s * 10 ^ 12 + (margin - amount * 10 ^ 12) := by
    unfold margin
    linarith
  have hkept := numeric_le hs (roundContext_nonneg (sub_nonneg.mpr hle)) hunits
  have hfloor : ⌊margin - amount * 10 ^ 12 + 1 / 2⌋ = -lost amount := by
    rw [lost, ← Int.floor_neg]
    congr 1
    ring
  rw [hfloor] at hkept
  push_cast at hkept
  rwa [neg_div, ← sub_eq_add_neg] at hkept

/-- What is credited, before it is stored. -/
theorem net_le {rate amount : ℚ} (hrate : 0 ≤ rate) (hamount : 0 ≤ amount)
    (hbound : amount * rate ≤ 15 * 10 ^ 6) :
    let gross_to := roundContext contextPrec (amount * roundContext contextPrec rate)
    let net_to := roundContext contextPrec (gross_to - roundContext contextPrec (gross_to * conversionFee))
    0 ≤ net_to ∧ net_to ≤ 199 / 200 * (amount * rate) + 3 / 10 ^ 20 := by
  intro gross_to net_to
  have hrate' := roundContext_le contextPrec hrate
  have hrate'' : 0 ≤ roundContext contextPrec rate := roundContext_nonneg hrate
  have hproduct : 0 ≤ amount * roundContext contextPrec rate := mul_nonneg hamount hrate''
  have hgross : gross_to ≤ _ := roundContext_le contextPrec hproduct
  have hgross' : 0 ≤ gross_to := roundContext_nonneg hproduct
  have hfee : _ ≤ roundContext contextPrec (gross_to * conversionFee) :=
    le_roundContext contextPrec (mul_nonneg hgross' (by norm_num [conversionFee]))
  have hfee' : roundContext contextPrec (gross_to * conversionFee) ≤ _ :=
    roundContext_le contextPrec (mul_nonneg hgross' (by norm_num [conversionFee]))
  rw [unitRoundoff_contextPrec] at hrate' hgross hfee hfee'
  unfold conversionFee at hfee hfee'
  have hrest : 0 ≤ gross_to - roundContext contextPrec (gross_to * conversionFee) := by
    unfold conversionFee
    linarith
  have hnet : net_to ≤ _ := roundContext_le contextPrec hrest
  rw [unitRoundoff_contextPrec] at hnet
  unfold conversionFee at hnet
  refine ⟨roundContext_nonneg hrest, ?_⟩
  have hmul : amount * roundContext contextPrec rate ≤ amount * rate + amount * rate * (5 / 10 ^ 28) := by
    have := mul_le_mul_of_nonneg_left hrate' hamount
    linarith
  linarith

/-- What is stored of the target. -/
theorem target_le {t net_to gain : ℚ} (ht : t ∈ decimals 12) (hpos : 0 ≤ t) (hfits : Fits t)
    (hnet : 0 ≤ net_to) (hgain : net_to ≤ gain + 3 / 10 ^ 20) (hbound : gain ≤ 15 * 10 ^ 6) :
    numeric 12 (roundContext contextPrec (t + net_to))
      ≤ t + ⌊gain * 10 ^ 12 + margin + 1 / 2⌋ / 10 ^ 12 := by
  unfold Fits at hfits
  have hsum : 0 ≤ t + net_to := add_nonneg hpos hnet
  have hcontext := roundContext_le contextPrec hsum
  rw [unitRoundoff_contextPrec] at hcontext
  refine numeric_le ht (roundContext_nonneg hsum) ?_
  unfold margin
  linarith

/-! ## One session -/

/-- The supported pairs. -/
theorem resolveRate_cases {from_currency to_currency : Token} {rate : ℚ}
    (h : resolveRate from_currency to_currency = some rate) :
    (from_currency = "XMR" ∧ (to_currency = "xUSD" ∧ rate = 150 ∨ to_currency = "xEUR" ∧ rate = 138)) ∨
      to_currency = "XMR" ∧
        (from_currency = "xUSD" ∧ rate = 1 / 150 ∨ from_currency = "xEUR" ∧ rate = 1 / 138) := by
  unfold resolveRate xmrUsd xmrEur at h
  split_ifs at h with h₁ h₂ h₃ h₄ <;> cases h
  · exact .inl ⟨h₁.1, .inl ⟨h₁.2, rfl⟩⟩
  · exact .inl ⟨h₂.1, .inr ⟨h₂.2, rfl⟩⟩
  · exact .inr ⟨h₃.2, .inl ⟨h₃.1, rfl⟩⟩
  · exact .inr ⟨h₄.2, .inr ⟨h₄.1, rfl⟩⟩

/-- The balances of a conversion: the source with what is left of it, and the target with what it gains. -/
structure Converted (r : ConversionRequest) (rate : ℚ) (available : Token → ℚ) (s' t' : ℚ) : Prop where
  source : s' ∈ decimals 12 ∧ 0 ≤ s' ∧ Fits s'
  target : t' ∈ decimals 12 ∧ 0 ≤ t' ∧ Fits t'
  source_le : s' ≤ available r.from_currency - lost r.amount / 10 ^ 12
  target_le : t' ≤ available r.to_currency +
    ⌊199 / 200 * rate * (r.amount * 10 ^ 12) + margin + 1 / 2⌋ / 10 ^ 12

/-- What a session does. -/
theorem session_cases {available : Token → ℚ} (h : Stored available) (r : ConversionRequest) :
    r.session available = available ∨
      ∃ rate s' t', resolveRate r.from_currency r.to_currency = some rate ∧
        Converted r rate available s' t' ∧
        r.session available =
          Function.update (Function.update available r.from_currency s') r.to_currency t' := by
  unfold ConversionRequest.session convertIn
  cases hrate : resolveRate r.from_currency r.to_currency with
  | none => exact .inl rfl
  | some rate =>
      rw [Option.map_some]
      dsimp only
      rw [if_neg (not_le.mpr r.amount_pos)]
      by_cases hless : available r.from_currency < r.amount
      · rw [if_pos hless]
        exact .inl rfl
      rw [if_neg hless]
      dsimp only
      have hbounds : r.to_currency ≠ r.from_currency ∧ 0 ≤ rate ∧ rate ≤ 150 := by
        rcases resolveRate_cases hrate with
          ⟨hfrom, ⟨hto, rfl⟩ | ⟨hto, rfl⟩⟩ | ⟨hto, ⟨hfrom, rfl⟩ | ⟨hfrom, rfl⟩⟩ <;>
          · rw [hfrom, hto]
            exact ⟨by decide, by norm_num, by norm_num⟩
      obtain ⟨hne, hrate_nonneg, hrate_le⟩ := hbounds
      have hamount := r.amount_pos.le
      have hvalue : r.amount * rate ≤ 15 * 10 ^ 6 := by
        calc r.amount * rate ≤ 100000 * 150 := mul_le_mul r.amount_le hrate_le hrate_nonneg (by norm_num)
          _ = 15 * 10 ^ 6 := by norm_num
      have hsource := h r.from_currency
      have htarget := h r.to_currency
      have hnet := net_le hrate_nonneg hamount hvalue
      rw [Function.update_of_ne hne]
      split_ifs with hfits
      · refine .inr ⟨rate, _, _, rfl, ⟨⟨numeric_mem 12 _, ?_, ?_⟩, ⟨numeric_mem 12 _, ?_, ?_⟩, ?_, ?_⟩, rfl⟩
        · exact numeric_nonneg 12 (roundContext_nonneg (sub_nonneg.mpr (not_lt.mp hless)))
        · have hsame := hfits.1
          rwa [Function.update_of_ne hne.symm, Function.update_self] at hsame
        · exact numeric_nonneg 12 (roundContext_nonneg (add_nonneg htarget.2.1 hnet.1))
        · have hsame := hfits.2
          rwa [Function.update_self] at hsame
        · exact source_le hsource.1 hsource.2.2 r.amount_pos (not_lt.mp hless)
        · have hle : 199 / 200 * (r.amount * rate) ≤ 15 * 10 ^ 6 := by
            have := mul_nonneg hamount hrate_nonneg
            linarith
          have hgain := target_le htarget.1 htarget.2.1 htarget.2.2 hnet.1 hnet.2 hle
          have heq : 199 / 200 * (r.amount * rate) * 10 ^ 12 = 199 / 200 * rate * (r.amount * 10 ^ 12) := by
            ring
          rwa [heq] at hgain
      · exact .inl rfl

theorem session_stored {available : Token → ℚ} (h : Stored available) (r : ConversionRequest) :
    Stored (r.session available) := by
  rcases session_cases h r with heq | ⟨rate, s', t', -, hconverted, heq⟩
  · rwa [heq]
  · rw [heq]
    intro token
    by_cases hto : token = r.to_currency
    · rw [hto, Function.update_self]
      exact hconverted.target
    rw [Function.update_of_ne hto]
    by_cases hfrom : token = r.from_currency
    · rw [hfrom, Function.update_self]
      exact hconverted.source
    · rw [Function.update_of_ne hfrom]
      exact h token

/-- A conversion that is covered makes nothing. -/
theorem session_value_le {available : Token → ℚ} (h : Stored available) {r : ConversionRequest}
    (hcovered : r.Covered) : value (r.session available) ≤ value available := by
  rcases session_cases h r with heq | ⟨rate, s', t', hrate, ⟨-, -, hsource, htarget⟩, heq⟩
  · rw [heq]
  have hgain : (⌊199 / 200 * rate * (r.amount * 10 ^ 12) + margin + 1 / 2⌋ : ℚ) ≤ rate * lost r.amount := by
    have hlt := hcovered rate hrate
    unfold Covered at hlt
    have hfloor : ⌊199 / 200 * rate * (r.amount * 10 ^ 12) + margin + 1 / 2⌋ ≤ ⌊rate * lost r.amount⌋ := by
      refine Int.lt_add_one_iff.mp (Int.floor_lt.mpr ?_)
      push_cast
      linarith
    calc (⌊199 / 200 * rate * (r.amount * 10 ^ 12) + margin + 1 / 2⌋ : ℚ)
        ≤ (⌊rate * lost r.amount⌋ : ℚ) := by exact_mod_cast hfloor
      _ ≤ rate * lost r.amount := Int.floor_le _
  rw [heq]
  unfold value xmrUsd xmrEur
  rcases resolveRate_cases hrate with
    ⟨hfrom, ⟨hto, rfl⟩ | ⟨hto, rfl⟩⟩ | ⟨hto, ⟨hfrom, rfl⟩ | ⟨hfrom, rfl⟩⟩ <;>
    · rw [hfrom] at hsource ⊢
      rw [hto] at htarget ⊢
      simp only [Function.update_apply, String.reduceEq, if_true, if_false]
      linarith

/-- **Conversions make no money while they are covered**: at no step of a run of requests that are all
covered does the value of the balances increase. -/
theorem conversions_never_gain {available : Token → ℚ} (h : Stored available)
    {requests : List ConversionRequest} (hcovered : ∀ r ∈ requests, r.Covered)
    {before : List ConversionRequest} {r : ConversionRequest} (hbefore : before ++ [r] <+: requests) :
    value (run (before ++ [r]) available) ≤ value (run before available) := by
  have hstored : Stored (run before available) :=
    List.foldlRecOn before _ h fun _ hs r _ => session_stored hs r
  have hr : r ∈ requests := hbefore.subset (List.mem_append_right before List.mem_cons_self)
  unfold run at hstored ⊢
  rw [List.foldl_append]
  exact session_value_le hstored (hcovered r hr)

/-- From sixteen billionths on, the fee covers the digits. -/
theorem covered_of_le {r : ConversionRequest} (h : 16 / 10 ^ 9 ≤ r.amount) : r.Covered := by
  intro rate hrate
  have hlost : r.amount * 10 ^ 12 - 1 / 2 - margin ≤ lost r.amount := Int.le_ceil _
  have hfloor := Int.sub_one_lt_floor (rate * lost r.amount)
  unfold Covered
  unfold margin at hlost ⊢
  rcases resolveRate_cases hrate with ⟨-, ⟨-, rfl⟩ | ⟨-, rfl⟩⟩ | ⟨-, ⟨-, rfl⟩ | ⟨-, rfl⟩⟩ <;> linarith

/-! ### Half of the last digit -/

/-- One XMR. -/
def oneCoin : Token → ℚ := fun token => if token = "XMR" then 1 else 0

theorem halfDigit_pos : (0 : ℚ) < 5 / 10 ^ 13 := by norm_num

theorem halfDigit_le : (5 / 10 ^ 13 : ℚ) ≤ 100000 := by norm_num

def halfDigit : ConversionRequest where
  from_currency := "XMR"
  to_currency := "xUSD"
  amount := 5 / 10 ^ 13
  amount_pos := halfDigit_pos
  amount_le := halfDigit_le

/-- Nothing is taken, and seventy-five of the last digits are credited. -/
theorem halfDigit_gains :
    run [halfDigit] oneCoin "XMR" = 1 ∧ run [halfDigit] oneCoin "xUSD" = 75 / 10 ^ 12 ∧
      value oneCoin < value (run [halfDigit] oneCoin) := by
  decide +kernel

theorem oneCoin_stored : Stored oneCoin := by
  intro token
  unfold oneCoin Fits
  split_ifs
  · exact ⟨mem_decimals.mpr ⟨10 ^ 12, by norm_num⟩, by norm_num, by norm_num⟩
  · exact ⟨zero_mem _, le_rfl, by norm_num⟩

theorem oneHundredth_pos : (0 : ℚ) < 1 / 100 := by norm_num

theorem oneHundredth_le : (1 / 100 : ℚ) ≤ 100000 := by norm_num

def oneHundredth : ConversionRequest where
  from_currency := "XMR"
  to_currency := "xUSD"
  amount := 1 / 100
  amount_pos := oneHundredth_pos
  amount_le := oneHundredth_le

theorem oneHundredth_covered : ∀ r ∈ [oneHundredth], r.Covered := by
  intro r hr
  obtain rfl := List.mem_singleton.mp hr
  exact covered_of_le (by norm_num [oneHundredth])

theorem conversions_never_gain_oneHundredth :
    value (run ([] ++ [oneHundredth]) oneCoin) ≤ value (run [] oneCoin) :=
  conversions_never_gain oneCoin_stored oneHundredth_covered List.prefix_rfl

end Sthrip.ConversionService
