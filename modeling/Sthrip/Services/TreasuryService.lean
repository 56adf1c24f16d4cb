import Mathlib.Algebra.BigOperators.Group.List.Basic
import Mathlib.Data.List.AList
import Sthrip.Db.Models

set_option autoImplicit false

/-! # Treasuries

`TreasuryService.rebalance` of `sthrip/services/treasury_service.py`, with `ConversionService.convert`
of `sthrip/services/conversion_service.py` under the fallback rates, for one agent. Decimals are exact;
what the balance column keeps of a number is a parameter. The snapshots of the allocation and the
rebalance log are left out.
-/

namespace Sthrip

namespace ConversionService

/-- `FALLBACK_RATES["XMR_USD"]` -/
def xmrUsd : ℚ := 150

/-- `FALLBACK_RATES["XMR_EUR"]` -/
def xmrEur : ℚ := 138

/-- `_CONVERSION_FEE` -/
def conversionFee : ℚ := 5 / 1000

/-- `_resolve_rate`, for the supported pairs. -/
def resolveRate (from_currency to_currency : Token) : Option ℚ :=
  if from_currency = "XMR" ∧ to_currency = "xUSD" then some xmrUsd
  else if from_currency = "XMR" ∧ to_currency = "xEUR" then some xmrEur
  else if from_currency = "xUSD" ∧ to_currency = "XMR" then some (1 / xmrUsd)
  else if from_currency = "xEUR" ∧ to_currency = "XMR" then some (1 / xmrEur)
  else none

structure Conversion where
  from_currency : Token
  from_amount : ℚ
  to_currency : Token
  gross_to_amount : ℚ
  fee_amount : ℚ
  net_to_amount : ℚ
  rate : ℚ
  deriving DecidableEq

/-- `convert`: the conversion and the balances after it, or nothing when it raises. -/
def convert (column : ℚ → ℚ) (from_currency to_currency : Token) (amount : ℚ)
    (available : Token → ℚ) : Option (Conversion × (Token → ℚ)) :=
  match resolveRate from_currency to_currency with
  | none => none
  | some rate =>
      if amount ≤ 0 then none
      else if available from_currency < amount then none
      else
        let gross_to := amount * rate
        let fee := gross_to * conversionFee
        let net_to := gross_to - fee
        let deducted := Function.update available from_currency
          (column (available from_currency - amount))
        let credited := Function.update deducted to_currency (column (deducted to_currency + net_to))
        some (⟨from_currency, amount, to_currency, gross_to, fee, net_to, rate⟩, credited)

/-- Where an exception of the database stops a conversion: before it has written anything, or after
one or both of the balances. -/
inductive Failure where
  | unwritten
  | deducted
  | credited
  deriving DecidableEq

/-- `convert` in a database that may fail: what it returns, and the balances it leaves in the
session. -/
def convertFailing (column : ℚ → ℚ) (failure : Option Failure) (from_currency to_currency : Token)
    (amount : ℚ) (available : Token → ℚ) : Option Conversion × (Token → ℚ) :=
  match convert column from_currency to_currency amount available with
  | none => (none, available)
  | some (result, credited) =>
      match failure with
      | none => (some result, credited)
      | some .unwritten => (none, available)
      | some .deducted =>
          (none, Function.update available from_currency (column (available from_currency - amount)))
      | some .credited => (none, credited)

end ConversionService

namespace TreasuryService

open ConversionService

/-- `_token_usd_value` -/
def tokenUsdValue (token : Token) (amount : ℚ) : ℚ :=
  if amount = 0 then 0
  else if token = "xUSD" then amount
  else if token = "XMR" then amount * xmrUsd
  else if token = "xEUR" then amount * (xmrUsd / xmrEur)
  else 0

/-- A dict. -/
abbrev Dict (V : Type) := AList fun _ : Token => V

/-- The percentage of a token, `int((usd_val / total_usd * 100).to_integral_value())`. -/
def pctOf (token : Token) (amount total_usd : ℚ) : ℤ :=
  Txn.roundHalfEven (tokenUsdValue token amount / total_usd * 100)

/-- `_calculate_allocation_pct`; the balances are positive. -/
def calculateAllocationPct (balances : Dict ℚ) (total_usd : ℚ) : List (Token × ℤ) :=
  if total_usd ≤ 0 then []
  else
    balances.entries.filterMap fun x =>
      let pct := pctOf x.1 x.2 total_usd
      if 0 < pct ∨ 0 < x.2 then some (x.1, pct) else none

/-- The columns of `treasury_policies` that are read. -/
structure TreasuryPolicy where
  target_allocation : Dict ℤ
  rebalance_threshold_pct : Option ℤ := some 10
  rebalance_cooldown_secs : Option ℤ := some 300
  emergency_reserve_pct : Option ℤ := some 10
  is_active : Bool := true
  last_rebalance_at : Option ℚ := none

/-- `value or default` -/
def orDefault (value : Option ℤ) (default : ℤ) : ℤ :=
  match value with
  | none => default
  | some n => if n = 0 then default else n

/-- The positive balances of `get_status`. -/
def positive (rows : Dict ℚ) : Dict ℚ :=
  ⟨rows.entries.filter fun x => 0 < x.2, rows.nodupKeys.sublist List.filter_sublist⟩

/-- `total_value_xusd` -/
def totalUsd (rows : Dict ℚ) : ℚ :=
  ((positive rows).entries.map fun x => tokenUsdValue x.1 x.2).sum

/-- `current_pct.get(token, 0)` -/
def currentPct (rows : Dict ℚ) (token : Token) : ℤ :=
  ((calculateAllocationPct (positive rows) (totalUsd rows)).lookup token).getD 0

/-- `current_usd - target_usd` of a token of the target. -/
def diffUsd (rows : Dict ℚ) (token : Token) (target_pct : ℤ) : ℚ :=
  totalUsd rows * currentPct rows token / 100 - totalUsd rows * target_pct / 100

/-- `over` -/
def overAllocated (rows : Dict ℚ) (target : Dict ℤ) : List (Token × ℚ) :=
  target.entries.filterMap fun x =>
    if 1 / 100 < diffUsd rows x.1 x.2 then some (x.1, diffUsd rows x.1 x.2) else none

/-- `under` -/
def underAllocated (rows : Dict ℚ) (target : Dict ℤ) : List (Token × ℚ) :=
  target.entries.filterMap fun x =>
    if diffUsd rows x.1 x.2 < -(1 / 100) then some (x.1, |diffUsd rows x.1 x.2|) else none

/-- `max_drift` -/
def maxDrift (rows : Dict ℚ) (target : Dict ℤ) : ℤ :=
  target.entries.foldl
    (fun max_drift x =>
      let drift := |currentPct rows x.1 - x.2|
      if max_drift < drift then drift else max_drift) 0

/-- What the loops carry on. -/
structure RebalanceState where
  available : Token → ℚ
  conversions : List Conversion := []

/-- The amount of the token, of so many dollars. -/
def amountOf (from_token : Token) (convert_usd : ℚ) : Option ℚ :=
  if from_token = "XMR" then some (convert_usd / xmrUsd)
  else if from_token = "xUSD" then some convert_usd
  else if from_token = "xEUR" then some (convert_usd * xmrEur / xmrUsd)
  else none

/-- A token that is over and one that is under its target. -/
def convertPair (column : ℚ → ℚ) (reserve_usd : ℚ) (st : RebalanceState)
    (pair : (Token × ℚ) × (Token × ℚ)) : RebalanceState :=
  let from_token := pair.1.1
  let to_token := pair.2.1
  let convert_usd := min pair.1.2 pair.2.2
  if convert_usd < 1 / 100 then st
  else
    let max_sell_usd := st.available "XMR" * xmrUsd - reserve_usd
    if from_token = "XMR" ∧ max_sell_usd ≤ 0 then st
    else
      let convert_usd := if from_token = "XMR" then min convert_usd max_sell_usd else convert_usd
      match amountOf from_token convert_usd with
      | none => st
      | some amount =>
          match convert column from_token to_token amount st.available with
          | none => st
          | some (result, available) => ⟨available, st.conversions ++ [result]⟩

/-- What `rebalance` answers. -/
inductive Rebalance where
  | skipped (reason : String)
  | rebalanced (conversions : List Conversion)
  deriving DecidableEq

/-- `rebalance`; `none` when it raises. -/
def rebalance (column : ℚ → ℚ) (now : ℚ) (policy : Option TreasuryPolicy) (rows : Dict ℚ) :
    Option Rebalance :=
  match policy with
  | none => none
  | some policy =>
      let threshold := orDefault policy.rebalance_threshold_pct 5
      let cooldown_secs := orDefault policy.rebalance_cooldown_secs 300
      let emergency_reserve_pct := orDefault policy.emergency_reserve_pct 10
      if policy.is_active = false then none
      else if policy.last_rebalance_at.any fun last_rebalance => now - last_rebalance < cooldown_secs
      then some (.skipped "cooldown")
      else if totalUsd rows ≤ 0 then some (.skipped "no_balance")
      else if maxDrift rows policy.target_allocation < threshold then some (.skipped "below_threshold")
      else
        let overs := overAllocated rows policy.target_allocation
        let under := underAllocated rows policy.target_allocation
        let reserve_usd := totalUsd rows * emergency_reserve_pct / 100
        let available (token : Token) : ℚ := (rows.lookup token).getD 0
        let st := (overs.flatMap fun f => under.map fun t => (f, t)).foldl
          (convertPair column reserve_usd) { available := available }
        if st.conversions = [] then some (.skipped "no_conversions_needed")
        else some (.rebalanced st.conversions)

/-! ## Conversions that fail

The loop catches every exception of a conversion and goes on with what the session holds by then.
-/

/-- `convertPair` in a database that may fail. -/
def convertPairFailing (column : ℚ → ℚ) (reserve_usd : ℚ) (failure : Option Failure)
    (st : RebalanceState) (pair : (Token × ℚ) × (Token × ℚ)) : RebalanceState :=
  let from_token := pair.1.1
  let to_token := pair.2.1
  let convert_usd := min pair.1.2 pair.2.2
  if convert_usd < 1 / 100 then st
  else
    let max_sell_usd := st.available "XMR" * xmrUsd - reserve_usd
    if from_token = "XMR" ∧ max_sell_usd ≤ 0 then st
    else
      let convert_usd := if from_token = "XMR" then min convert_usd max_sell_usd else convert_usd
      match amountOf from_token convert_usd with
      | none => st
      | some amount =>
          match convertFailing column failure from_token to_token amount st.available with
          | (none, available) => ⟨available, st.conversions⟩
          | (some result, available) => ⟨available, st.conversions ++ [result]⟩

/-- `rebalance` in a database in which the conversion of the `n`-th pair fails as `failures n` says:
its answer, and the balances it leaves; `none` when it raises. -/
def rebalanceFailing (column : ℚ → ℚ) (failures : ℕ → Option Failure) (now : ℚ)
    (policy : Option TreasuryPolicy) (rows : Dict ℚ) : Option (Rebalance × (Token → ℚ)) :=
  let available (token : Token) : ℚ := (rows.lookup token).getD 0
  match policy with
  | none => none
  | some policy =>
      let threshold := orDefault policy.rebalance_threshold_pct 5
      let cooldown_secs := orDefault policy.rebalance_cooldown_secs 300
      let emergency_reserve_pct := orDefault policy.emergency_reserve_pct 10
      if policy.is_active = false then none
      else if policy.last_rebalance_at.any fun last_rebalance => now - last_rebalance < cooldown_secs
      then some (.skipped "cooldown", available)
      else if totalUsd rows ≤ 0 then some (.skipped "no_balance", available)
      else if maxDrift rows policy.target_allocation < threshold then
        some (.skipped "below_threshold", available)
      else
        let overs := overAllocated rows policy.target_allocation
        let under := underAllocated rows policy.target_allocation
        let reserve_usd := totalUsd rows * emergency_reserve_pct / 100
        let st := (overs.flatMap fun f => under.map fun t => (f, t)).zipIdx.foldl
          (fun st x => convertPairFailing column reserve_usd (failures x.2) st x.1)
          { available := available }
        if st.conversions = [] then some (.skipped "no_conversions_needed", st.available)
        else some (.rebalanced st.conversions, st.available)

/-- A conversion that does not fail. -/
theorem convertPairFailing_none (column : ℚ → ℚ) (reserve_usd : ℚ) (st : RebalanceState)
    (pair : (Token × ℚ) × (Token × ℚ)) :
    convertPairFailing column reserve_usd none st pair = convertPair column reserve_usd st pair := by
  unfold convertPairFailing convertPair convertFailing
  dsimp only
  split
  · rfl
  · split
    · rfl
    · split
      · rfl
      · cases convert column _ _ _ st.available with
        | none => rfl
        | some c => rfl

theorem foldl_zipIdx_fst {A B : Type} (g : B → A → B) (l : List A) (b : B) :
    l.zipIdx.foldl (fun st x => g st x.1) b = l.foldl g b :=
  calc l.zipIdx.foldl (fun st x => g st x.1) b
      = (l.zipIdx.map Prod.fst).foldl g b := List.foldl_map.symm
    _ = l.foldl g b := by rw [List.zipIdx_map_fst]

/-- Without failures, this is `rebalance`. -/
theorem rebalanceFailing_none (column : ℚ → ℚ) (now : ℚ) (policy : Option TreasuryPolicy)
    (rows : Dict ℚ) :
    (rebalanceFailing column (fun _ => none) now policy rows).map Prod.fst =
      rebalance column now policy rows := by
  cases policy with
  | none => rfl
  | some policy =>
      unfold rebalanceFailing rebalance
      simp only [convertPairFailing_none, foldl_zipIdx_fst]
      split
      · rfl
      · split
        · rfl
        · split
          · rfl
          · split
            · rfl
            · split
              · rfl
              · rfl

end TreasuryService

end Sthrip
