import Sthrip.Services.TreasuryService
import Sthrip.Txn.Numeric
import Mathlib.Tactic.NormNum

set_option autoImplicit false

/-! # The emergency reserve of a rebalance

A sale of XMR is capped by what the balance exceeds the reserve by at that moment, so the exact balance
stays at the reserve however many sales there are. The balance column then rounds it to twelve digits,
and it may end up half a piconero below the reserve.
-/

namespace Sthrip

namespace TreasuryService

open ConversionService Txn

variable {column : ℚ → ℚ} {reserve_usd amount : ℚ} {failure : Option Failure}
  {from_token to_token : Token} {available : Token → ℚ}

/-! ## What a conversion does to the XMR balance -/

theorem resolveRate_pos {rate : ℚ} (h : resolveRate from_token to_token = some rate) : 0 < rate := by
  unfold resolveRate at h
  split at h
  · obtain rfl := Option.some.inj h
    norm_num [xmrUsd]
  · split at h
    · obtain rfl := Option.some.inj h
      norm_num [xmrEur]
    · split at h
      · obtain rfl := Option.some.inj h
        norm_num [xmrUsd]
      · split at h
        · obtain rfl := Option.some.inj h
          norm_num [xmrEur]
        · cases h

/-- XMR is not converted to itself. -/
theorem resolveRate_self (token : Token) : resolveRate token token = none := by
  unfold resolveRate
  by_cases hx : token = "XMR"
  · subst hx
    rfl
  · simp [hx]

/-- The XMR balance after a conversion, wherever it was stopped: as before, or with the amount sold
taken off, or with something bought put on. -/
theorem convertFailing_xmr (column : ℚ → ℚ) (failure : Option Failure) (from_token to_token : Token)
    (amount : ℚ) (available : Token → ℚ) :
    (convertFailing column failure from_token to_token amount available).2 "XMR" = available "XMR" ∨
      (from_token = "XMR" ∧ (convertFailing column failure from_token to_token amount available).2
        "XMR" = column (available "XMR" - amount)) ∨
      ∃ net, 0 ≤ net ∧ (convertFailing column failure from_token to_token amount available).2
        "XMR" = column (available "XMR" + net) := by
  have hdeducted : ∀ x : ℚ, Function.update available from_token x "XMR" = available "XMR" ∨
      (from_token = "XMR" ∧ Function.update available from_token x "XMR" = x) := by
    intro x
    by_cases hfrom : from_token = "XMR"
    · subst hfrom
      exact Or.inr ⟨rfl, Function.update_self ..⟩
    · exact Or.inl (Function.update_of_ne (Ne.symm hfrom) ..)
  unfold convertFailing convert
  cases hrate : resolveRate from_token to_token with
  | none => exact Or.inl rfl
  | some rate =>
      have hne : from_token ≠ to_token := by
        rintro rfl
        rw [resolveRate_self] at hrate
        cases hrate
      dsimp only
      by_cases hpos : amount ≤ 0
      · rw [if_pos hpos]
        exact Or.inl rfl
      by_cases hshort : available from_token < amount
      · rw [if_neg hpos, if_pos hshort]
        exact Or.inl rfl
      rw [if_neg hpos, if_neg hshort]
      have hnet : 0 ≤ amount * rate - amount * rate * conversionFee := by
        have hgross : 0 < amount * rate := mul_pos (not_le.mp hpos) (resolveRate_pos hrate)
        unfold conversionFee
        linarith
      have hdeduct := hdeducted (column (available from_token - amount))
      have hcredited : ∀ x : ℚ, x = column ((Function.update available from_token
          (column (available from_token - amount))) to_token +
            (amount * rate - amount * rate * conversionFee)) →
          Function.update (Function.update available from_token
            (column (available from_token - amount))) to_token x "XMR" = available "XMR" ∨
          (from_token = "XMR" ∧ Function.update (Function.update available from_token
            (column (available from_token - amount))) to_token x "XMR" =
              column (available "XMR" - amount)) ∨
          ∃ net, 0 ≤ net ∧ Function.update (Function.update available from_token
            (column (available from_token - amount))) to_token x "XMR" =
              column (available "XMR" + net) := by
        intro x hx
        by_cases hto : to_token = "XMR"
        · subst hto
          refine Or.inr (Or.inr ⟨_, hnet, ?_⟩)
          rw [Function.update_self, hx, Function.update_of_ne hne.symm]
        · rw [Function.update_of_ne (Ne.symm hto)]
          rcases hdeduct with hsame | ⟨rfl, hsold⟩
          · exact Or.inl hsame
          · exact Or.inr (Or.inl ⟨rfl, hsold⟩)
      cases failure with
      | none => exact hcredited _ rfl
      | some failure =>
          cases failure with
          | unwritten => exact Or.inl rfl
          | deducted =>
              rcases hdeduct with hsame | ⟨rfl, hsold⟩
              · exact Or.inl hsame
              · exact Or.inr (Or.inl ⟨rfl, hsold⟩)
          | credited => exact hcredited _ rfl

/-! ## The reserve -/

/-- The XMR balance is as the column keeps it, and covers what the column keeps of the reserve. -/
structure CoversReserve (reserve_usd : ℚ) (available : Token → ℚ) : Prop where
  stored : available "XMR" ∈ decimals 12
  reserve_le : numeric 12 (reserve_usd / xmrUsd) ≤ available "XMR"

/-- A conversion covers the reserve when what it may sell does. -/
theorem CoversReserve.convertFailing (h : CoversReserve reserve_usd available)
    (failure : Option Failure) (to_token : Token)
    (hsell : from_token = "XMR" → amount * xmrUsd ≤ available "XMR" * xmrUsd - reserve_usd) :
    CoversReserve reserve_usd
      (convertFailing (numeric 12) failure from_token to_token amount available).2 := by
  rcases convertFailing_xmr (numeric 12) failure from_token to_token amount available with
    hsame | ⟨hfrom, hsold⟩ | ⟨net, hnet, hbought⟩
  · exact ⟨hsame ▸ h.stored, hsame ▸ h.reserve_le⟩
  · refine ⟨hsold ▸ numeric_mem 12 _, hsold ▸ numeric_monotone 12 ?_⟩
    -- what is left covers the reserve before it is rounded
    have hleft := hsell hfrom
    unfold xmrUsd at hleft ⊢
    linarith
  · refine ⟨hbought ▸ numeric_mem 12 _, hbought ▸ ?_⟩
    calc numeric 12 (reserve_usd / xmrUsd) ≤ available "XMR" := h.reserve_le
      _ = numeric 12 (available "XMR") := (numeric_of_mem h.stored).symm
      _ ≤ numeric 12 (available "XMR" + net) := numeric_monotone 12 (by linarith)

theorem CoversReserve.convertPair {st : RebalanceState} (h : CoversReserve reserve_usd st.available)
    (pair : (Token × ℚ) × (Token × ℚ)) :
    CoversReserve reserve_usd
      (convertPairFailing (numeric 12) reserve_usd failure st pair).available := by
  unfold convertPairFailing
  dsimp only
  split
  · exact h
  · split
    · exact h
    · split
      · exact h
      · next amount hamount =>
          have hsell : pair.1.1 = "XMR" →
              amount * xmrUsd ≤ st.available "XMR" * xmrUsd - reserve_usd := by
            intro hfrom
            unfold amountOf at hamount
            rw [if_pos hfrom, if_pos hfrom] at hamount
            rw [← Option.some.inj hamount, div_mul_cancel₀ _ (by norm_num [xmrUsd])]
            exact min_le_right _ _
          have hkeeps := h.convertFailing failure pair.2.1 hsell
          split
          · next heq =>
              rw [heq] at hkeeps
              exact hkeeps
          · next heq =>
              rw [heq] at hkeeps
              exact hkeeps

theorem CoversReserve.foldl (failures : ℕ → Option Failure)
    (pairs : List (((Token × ℚ) × (Token × ℚ)) × ℕ)) {st : RebalanceState}
    (h : CoversReserve reserve_usd st.available) :
    CoversReserve reserve_usd (pairs.foldl (fun st x =>
      convertPairFailing (numeric 12) reserve_usd (failures x.2) st x.1) st).available := by
  induction pairs generalizing st with
  | nil => exact h
  | cons x pairs ih => exact ih (h.convertPair x.1)

/-- What the column keeps of the reserve is worth the reserve, but for half a piconero. -/
theorem CoversReserve.value (h : CoversReserve reserve_usd available) :
    reserve_usd - 75 / 10 ^ 12 ≤ available "XMR" * xmrUsd := by
  have hdist := (abs_le.mp (numeric_dist 12 (reserve_usd / xmrUsd))).1
  have hle := h.reserve_le
  unfold xmrUsd at hdist hle ⊢
  linarith

theorem tokenUsdValue_xmr (amount : ℚ) : tokenUsdValue "XMR" amount = amount * xmrUsd := by
  unfold tokenUsdValue
  by_cases hzero : amount = 0
  · rw [if_pos hzero, hzero, zero_mul]
  · rw [if_neg hzero, if_neg (by decide), if_pos rfl]

/-- The share of the portfolio's value that the policy reserves. -/
def reserveUsd (rows : Dict ℚ) (pct : ℤ) : ℚ := totalUsd rows * pct / 100

/-- A balance that is worth the reserve is worth it after a rebalance, up to the rounding of the
balance column, whatever was converted or failed. -/
theorem rebalance_keeps_reserve (failures : ℕ → Option Failure) (now : ℚ) (policy : TreasuryPolicy)
    (rows : Dict ℚ) (pct : ℤ) (hpct : policy.emergency_reserve_pct = some pct) (hone : 1 ≤ pct)
    (hstored : (rows.lookup "XMR").getD 0 ∈ decimals 12)
    (hreserve : reserveUsd rows pct ≤ tokenUsdValue "XMR" ((rows.lookup "XMR").getD 0))
    (answer : Rebalance) (after : Token → ℚ)
    (hrun : rebalanceFailing (numeric 12) failures now (some policy) rows = some (answer, after)) :
    reserveUsd rows pct - 75 / 10 ^ 12 ≤ tokenUsdValue "XMR" (after "XMR") := by
  rw [tokenUsdValue_xmr] at hreserve ⊢
  have hdefault : orDefault policy.emergency_reserve_pct 10 = pct := by
    rw [hpct, orDefault, if_neg (by omega)]
  have hstart : CoversReserve (reserveUsd rows pct) fun token => (rows.lookup token).getD 0 := by
    refine ⟨hstored, ?_⟩
    rw [← numeric_of_mem hstored]
    refine numeric_monotone 12 ?_
    rwa [div_le_iff₀ (by norm_num [xmrUsd])]
  have hcovers : CoversReserve (reserveUsd rows pct) after := by
    unfold rebalanceFailing at hrun
    dsimp only at hrun
    rw [hdefault] at hrun
    split at hrun
    · cases hrun
    · split at hrun
      · cases hrun
        exact hstart
      · split at hrun
        · cases hrun
          exact hstart
        · split at hrun
          · cases hrun
            exact hstart
          · -- the loop
            split at hrun
            · cases hrun
              exact hstart.foldl failures _
            · cases hrun
              exact hstart.foldl failures _
  exact hcovers.value

/-! ## The rounding -/

/-- All of the value in xUSD, and a tenth of it reserved. -/
def allStable : TreasuryPolicy where
  target_allocation := (AList.singleton "xUSD" 100).insert "XMR" 0

/-- Ten XMR and a piconero. -/
def tenAndOne : Dict ℚ := AList.singleton "XMR" (10 + 1 / 10 ^ 12)

theorem rebalance_tenAndOne :
    (rebalanceFailing (numeric 12) (fun _ => none) 0 (some allStable) tenAndOne).map
      (fun x => x.2 "XMR") = some 1 := by
  decide +kernel

theorem rebalance_keeps_reserve_tenAndOne :
    reserveUsd tenAndOne 10 - 75 / 10 ^ 12 ≤ tokenUsdValue "XMR" 1 := by
  obtain ⟨⟨answer, after⟩, hrun, hafter⟩ := Option.map_eq_some_iff.mp rebalance_tenAndOne
  have hstored : (tenAndOne.lookup "XMR").getD 0 ∈ decimals 12 :=
    mem_decimals.mpr ⟨10 ^ 13 + 1, by decide +kernel⟩
  exact hafter ▸ rebalance_keeps_reserve (fun _ => none) 0 allStable tenAndOne 10 rfl (by decide)
    hstored (by decide +kernel) answer after hrun

/-- The reserve is a tenth of a piconero more than one XMR, and one XMR is left. -/
theorem rebalance_below_reserve : ¬∀ (failures : ℕ → Option Failure) (now : ℚ)
    (policy : TreasuryPolicy) (rows : Dict ℚ) (pct : ℤ),
    policy.emergency_reserve_pct = some pct → 1 ≤ pct → pct ≤ 100 →
    (∀ token, (rows.lookup token).getD 0 ∈ decimals 12) →
    reserveUsd rows pct ≤ tokenUsdValue "XMR" ((rows.lookup "XMR").getD 0) →
    ∀ answer after, rebalanceFailing (numeric 12) failures now (some policy) rows =
      some (answer, after) → reserveUsd rows pct ≤ tokenUsdValue "XMR" (after "XMR") := by
  intro h
  obtain ⟨⟨answer, after⟩, hrun, hafter⟩ := Option.map_eq_some_iff.mp rebalance_tenAndOne
  have hstored : ∀ token, (tenAndOne.lookup token).getD 0 ∈ decimals 12 := by
    intro token
    by_cases hx : token = "XMR"
    · subst hx
      exact mem_decimals.mpr ⟨10 ^ 13 + 1, by decide +kernel⟩
    · have hnone : tenAndOne.lookup token = none := by
        rw [AList.lookup_eq_none, tenAndOne, AList.mem_keys, AList.keys_singleton, List.mem_singleton]
        exact hx
      rw [hnone]
      exact zero_mem _
  have hle := h (fun _ => none) 0 allStable tenAndOne 10 rfl (by decide) (by decide) hstored
    (by decide +kernel) answer after hrun
  have hone : after "XMR" = 1 := hafter
  rw [hone] at hle
  exact absurd hle (by decide +kernel)

end TreasuryService

end Sthrip
