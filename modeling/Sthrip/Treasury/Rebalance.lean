import Mathlib.Algebra.BigOperators.Ring.Finset
import Mathlib.Tactic.FieldSimp
import Mathlib.Tactic.Linarith
import Mathlib.Tactic.LinearCombination
import Mathlib.Tactic.Ring
import Sthrip.Services.TreasuryService

set_option autoImplicit false

/-! # What a rebalance trades

The trades are planned from percentages that are rounded to integers, each within half a percent of the
portfolio. Since every trade has XMR on one side, xUSD and xEUR are traded once and stay within that
half a percent of their imbalance; XMR may be traded twice, and the two roundings add up.
-/

namespace Sthrip

namespace TreasuryService

open ConversionService

/-! ## Sums -/

/-- A sum to which one key contributes. -/
theorem sum_ite_eq_dlookup {V : Type} (l : List (Sigma fun _ : Token => V)) (hl : l.NodupKeys)
    (key : Token) (h : V → ℚ) :
    (l.map fun x => if x.1 = key then h x.2 else 0).sum = (l.dlookup key).elim 0 h := by
  induction l with
  | nil => rfl
  | cons x l ih =>
      obtain ⟨hx, hl⟩ := List.nodupKeys_cons.mp hl
      rw [List.map_cons, List.sum_cons, ih hl]
      by_cases hk : x.1 = key
      · subst hk
        rw [if_pos rfl, List.dlookup_eq_none.mpr hx, List.dlookup_cons_eq]
        simp
      · rw [if_neg hk, zero_add, List.dlookup_cons_ne _ _ (Ne.symm hk)]

theorem sum_filterMap {A B : Type} (l : List A) (f : A → Option B) (g : B → ℚ) :
    ((l.filterMap f).map g).sum = (l.map fun x => (f x).elim 0 g).sum := by
  induction l with
  | nil => rfl
  | cons x l ih =>
      rw [List.map_cons, List.sum_cons, ← ih]
      cases hx : f x with
      | none => rw [List.filterMap_cons_none hx, Option.elim_none, zero_add]
      | some y => rw [List.filterMap_cons_some hx, List.map_cons, List.sum_cons, Option.elim_some]

theorem sum_pairs {A B : Type} (l : List A) (l' : List B) (w : A → B → ℚ) :
    ((l.flatMap fun x => l'.map fun y => (x, y)).map fun p => w p.1 p.2).sum =
      (l.map fun x => (l'.map fun y => w x y).sum).sum := by
  induction l with
  | nil => rfl
  | cons x l ih =>
      rw [List.flatMap_cons, List.map_append, List.sum_append, ih, List.map_cons, List.sum_cons,
        List.map_map]
      rfl

/-! ## Percentages -/

variable {rows : Dict ℚ} {target : Dict ℤ} {token : Token}

/-- The value in USD of what the agent has of the token. -/
def valueOf (rows : Dict ℚ) (token : Token) : ℚ :=
  ((positive rows).lookup token).elim 0 (tokenUsdValue token)

/-- By how much the value of the token exceeds its target. -/
def imbalance (rows : Dict ℚ) (target : Dict ℤ) (token : Token) : ℚ :=
  valueOf rows token - totalUsd rows * ((target.lookup token).getD 0 : ℤ) / 100

theorem tokenUsdValue_eq_sum (token : Token) (amount : ℚ) :
    tokenUsdValue token amount = (if token = "XMR" then tokenUsdValue "XMR" amount else 0) +
      (if token = "xUSD" then tokenUsdValue "xUSD" amount else 0) +
      (if token = "xEUR" then tokenUsdValue "xEUR" amount else 0) := by
  by_cases hx : token = "XMR"
  · subst hx
    simp
  · by_cases hu : token = "xUSD"
    · subst hu
      simp
    · by_cases he : token = "xEUR"
      · subst he
        simp
      · simp [tokenUsdValue, hx, hu, he]

/-- The three tokens are all that has a value. -/
theorem totalUsd_eq : totalUsd rows = valueOf rows "XMR" + valueOf rows "xUSD" + valueOf rows "xEUR" := by
  have hsum : ∀ token, ((positive rows).entries.map fun x =>
      if x.1 = token then tokenUsdValue token x.2 else 0).sum = valueOf rows token :=
    fun token => sum_ite_eq_dlookup _ (positive rows).nodupKeys token _
  rw [totalUsd, ← hsum, ← hsum, ← hsum, ← List.sum_map_add, ← List.sum_map_add]
  congr 1
  refine List.map_congr_left fun x _ => ?_
  exact tokenUsdValue_eq_sum x.1 x.2

theorem lookup_calculateAllocationPct {balances : Dict ℚ} {total_usd : ℚ} (htotal : 0 < total_usd)
    (hpos : ∀ x ∈ balances.entries, 0 < x.2) :
    (calculateAllocationPct balances total_usd).lookup token =
      (balances.lookup token).map fun amount => pctOf token amount total_usd := by
  have hlist : ∀ l : List (Sigma fun _ : Token => ℚ), (∀ x ∈ l, 0 < x.2) →
      (l.filterMap fun x => if 0 < pctOf x.1 x.2 total_usd ∨ 0 < x.2 then
        some (x.1, pctOf x.1 x.2 total_usd) else none).lookup token =
        (l.dlookup token).map fun amount => pctOf token amount total_usd := by
    intro l hl
    induction l with
    | nil => rfl
    | cons x l ih =>
        obtain ⟨key, amount⟩ := x
        have hx : 0 < pctOf key amount total_usd ∨ 0 < amount := Or.inr (hl _ List.mem_cons_self)
        simp only [List.filterMap_cons, if_pos hx]
        by_cases hk : token = key
        · subst hk
          rw [List.lookup_cons_self, List.dlookup_cons_eq]
          rfl
        · have hne : (token == key) = false := beq_eq_false_iff_ne.mpr hk
          have hrest : List.dlookup token ((⟨key, amount⟩ : Sigma fun _ : Token => ℚ) :: l) =
              List.dlookup token l := List.dlookup_cons_ne _ _ hk
          rw [List.lookup_cons, hne, hrest]
          exact ih fun y hy => hl y (List.mem_cons_of_mem _ hy)
  rw [calculateAllocationPct, if_neg (not_le.mpr htotal)]
  exact hlist _ hpos

/-- The rounded percentage is within a half of the exact one. -/
theorem currentPct_dist (htotal : 0 < totalUsd rows) (token : Token) :
    |(currentPct rows token : ℚ) - valueOf rows token / totalUsd rows * 100| ≤ 1 / 2 := by
  have hpos : ∀ x ∈ (positive rows).entries, 0 < x.2 := by
    intro x hx
    exact of_decide_eq_true (List.mem_filter.mp hx).2
  rw [currentPct, lookup_calculateAllocationPct htotal hpos, valueOf]
  cases (positive rows).lookup token with
  | none => norm_num
  | some amount => exact Txn.roundHalfEven_dist _

/-! ## The plan -/

/-- By how much the rounded share of a token of the target exceeds it, in USD. -/
def excess (rows : Dict ℚ) (target : Dict ℤ) (token : Token) : ℚ :=
  (target.lookup token).elim 0 (diffUsd rows token)

/-- The plan errs by half a percent of the portfolio. -/
theorem excess_dist (htotal : 0 < totalUsd rows) (ht : (target.lookup token).isSome = true) :
    |excess rows target token - imbalance rows target token| ≤ totalUsd rows / 200 := by
  obtain ⟨pct, hpct⟩ := Option.isSome_iff_exists.mp ht
  have hdist := currentPct_dist htotal token
  have hdiff : excess rows target token - imbalance rows target token =
      totalUsd rows / 100 * (currentPct rows token - valueOf rows token / totalUsd rows * 100) := by
    rw [excess, imbalance, hpct, Option.elim_some, Option.getD_some, diffUsd]
    field_simp
    ring
  rw [hdiff, abs_mul, abs_of_pos (by linarith)]
  calc totalUsd rows / 100 * |(currentPct rows token : ℚ) - valueOf rows token / totalUsd rows * 100|
      ≤ totalUsd rows / 100 * (1 / 2) := mul_le_mul_of_nonneg_left hdist (by linarith)
    _ = totalUsd rows / 200 := by ring

/-- A sum over the planned tokens to which one token contributes. -/
theorem sum_planned (planned : ℚ → Prop) [DecidablePred planned] (hzero : ¬planned 0) (key : Token)
    (g h : ℚ → ℚ) :
    ((target.entries.filterMap fun x => if planned (diffUsd rows x.1 x.2) then
        some (x.1, g (diffUsd rows x.1 x.2)) else none).map
      fun f => if f.1 = key then h f.2 else 0).sum =
      if planned (excess rows target key) then h (g (excess rows target key)) else 0 := by
  have hterm : ∀ x : Sigma fun _ : Token => ℤ,
      ((if planned (diffUsd rows x.1 x.2) then some (x.1, g (diffUsd rows x.1 x.2)) else none).elim 0
        fun f : Token × ℚ => if f.1 = key then h f.2 else 0) =
        if x.1 = key then
          if planned (diffUsd rows key x.2) then h (g (diffUsd rows key x.2)) else 0
        else 0 := by
    intro x
    by_cases hk : x.1 = key
    · subst hk
      by_cases hp : planned (diffUsd rows x.1 x.2)
      · simp [hp]
      · simp [hp]
    · by_cases hp : planned (diffUsd rows x.1 x.2)
      · simp [hp, hk]
      · simp [hp, hk]
  rw [sum_filterMap, List.map_congr_left fun x _ => hterm x,
    sum_ite_eq_dlookup target.entries target.nodupKeys key
      fun pct => if planned (diffUsd rows key pct) then h (g (diffUsd rows key pct)) else 0]
  unfold excess AList.lookup
  cases List.dlookup key target.entries with
  | none => exact (if_neg hzero).symm
  | some pct => rfl

theorem sum_overAllocated (key : Token) (h : ℚ → ℚ) :
    ((overAllocated rows target).map fun f => if f.1 = key then h f.2 else 0).sum =
      if 1 / 100 < excess rows target key then h (excess rows target key) else 0 :=
  sum_planned (fun x => 1 / 100 < x) (by norm_num) key id h

theorem sum_underAllocated (key : Token) (h : ℚ → ℚ) :
    ((underAllocated rows target).map fun t => if t.1 = key then h t.2 else 0).sum =
      if excess rows target key < -(1 / 100) then h |excess rows target key| else 0 :=
  sum_planned (fun x => x < -(1 / 100)) (by norm_num) key abs h

/-! ## The trades -/

/-- What is sold of the token, in USD. -/
def soldUsd (token : Token) (c : Conversion) : ℚ :=
  if c.from_currency = token then tokenUsdValue token c.from_amount else 0

/-- What is bought of the token, in USD and before the fee. -/
def boughtUsd (token : Token) (c : Conversion) : ℚ :=
  if c.to_currency = token then tokenUsdValue token c.gross_to_amount else 0

/-- A trade between the tokens of a supported pair, of at most the smaller of the two amounts. -/
structure Trade (pair : (Token × ℚ) × (Token × ℚ)) (c : Conversion) : Prop where
  sells : c.from_currency = pair.1.1
  buys : c.to_currency = pair.2.1
  supported : (resolveRate pair.1.1 pair.2.1).isSome = true
  sold_le : tokenUsdValue pair.1.1 c.from_amount ≤ min pair.1.2 pair.2.2
  bought_le : tokenUsdValue pair.2.1 c.gross_to_amount ≤ min pair.1.2 pair.2.2

variable {column : ℚ → ℚ} {reserve_usd : ℚ}

theorem tokenUsdValue_XMR (amount : ℚ) : tokenUsdValue "XMR" amount = amount * xmrUsd := by
  by_cases h : amount = 0
  · simp [tokenUsdValue, h]
  · simp [tokenUsdValue, h]

theorem tokenUsdValue_xUSD (amount : ℚ) : tokenUsdValue "xUSD" amount = amount := by
  by_cases h : amount = 0
  · simp [tokenUsdValue, h]
  · simp [tokenUsdValue, h]

theorem tokenUsdValue_xEUR (amount : ℚ) :
    tokenUsdValue "xEUR" amount = amount * (xmrUsd / xmrEur) := by
  by_cases h : amount = 0
  · simp [tokenUsdValue, h]
  · simp [tokenUsdValue, h]

/-- The supported pairs. -/
theorem resolveRate_eq_some {from_token to_token : Token} {rate : ℚ}
    (h : resolveRate from_token to_token = some rate) :
    (from_token = "XMR" ∧ to_token = "xUSD" ∧ rate = xmrUsd) ∨
      (from_token = "XMR" ∧ to_token = "xEUR" ∧ rate = xmrEur) ∨
      (from_token = "xUSD" ∧ to_token = "XMR" ∧ rate = 1 / xmrUsd) ∨
      (from_token = "xEUR" ∧ to_token = "XMR" ∧ rate = 1 / xmrEur) := by
  unfold resolveRate at h
  split at h
  · next hpair => exact Or.inl ⟨hpair.1, hpair.2, (Option.some.inj h).symm⟩
  · split at h
    · next hpair => exact Or.inr (Or.inl ⟨hpair.1, hpair.2, (Option.some.inj h).symm⟩)
    · split at h
      · next hpair => exact Or.inr (Or.inr (Or.inl ⟨hpair.1, hpair.2, (Option.some.inj h).symm⟩))
      · split at h
        · next hpair => exact Or.inr (Or.inr (Or.inr ⟨hpair.1, hpair.2, (Option.some.inj h).symm⟩))
        · cases h

/-- Both sides of a conversion have the value it was planned for. -/
theorem usd_amountOf {from_token to_token : Token} {convert_usd amount rate : ℚ}
    (hamount : amountOf from_token convert_usd = some amount)
    (hrate : resolveRate from_token to_token = some rate) :
    tokenUsdValue from_token amount = convert_usd ∧
      tokenUsdValue to_token (amount * rate) = convert_usd := by
  have hxmr : amountOf "XMR" convert_usd = some (convert_usd / xmrUsd) := rfl
  have hxusd : amountOf "xUSD" convert_usd = some convert_usd := rfl
  have hxeur : amountOf "xEUR" convert_usd = some (convert_usd * xmrEur / xmrUsd) := rfl
  rcases resolveRate_eq_some hrate with ⟨rfl, rfl, rfl⟩ | ⟨rfl, rfl, rfl⟩ | ⟨rfl, rfl, rfl⟩ |
    ⟨rfl, rfl, rfl⟩
  · obtain rfl := Option.some.inj (hxmr.symm.trans hamount)
    rw [tokenUsdValue_XMR, tokenUsdValue_xUSD]
    norm_num [xmrUsd]
  · obtain rfl := Option.some.inj (hxmr.symm.trans hamount)
    rw [tokenUsdValue_XMR, tokenUsdValue_xEUR]
    constructor
    · norm_num [xmrUsd]
    · norm_num [xmrUsd, xmrEur]
      ring
  · obtain rfl := Option.some.inj (hxusd.symm.trans hamount)
    rw [tokenUsdValue_xUSD, tokenUsdValue_XMR]
    refine ⟨rfl, ?_⟩
    norm_num [xmrUsd]
    ring
  · obtain rfl := Option.some.inj (hxeur.symm.trans hamount)
    rw [tokenUsdValue_xEUR, tokenUsdValue_XMR]
    constructor
    · norm_num [xmrUsd, xmrEur]
      ring
    · norm_num [xmrUsd, xmrEur]
      ring

theorem convert_eq_some {from_token to_token : Token} {amount : ℚ} {available available' : Token → ℚ}
    {c : Conversion}
    (h : convert column from_token to_token amount available = some (c, available')) :
    ∃ rate, resolveRate from_token to_token = some rate ∧ c.from_currency = from_token ∧
      c.to_currency = to_token ∧ c.from_amount = amount ∧ c.gross_to_amount = amount * rate := by
  unfold convert at h
  cases hrate : resolveRate from_token to_token with
  | none =>
      rw [hrate] at h
      cases h
  | some rate =>
      rw [hrate] at h
      simp only [] at h
      split at h
      · cases h
      · split at h
        · cases h
        · obtain ⟨rfl, -⟩ := Prod.mk.inj (Option.some.inj h)
          exact ⟨rate, rfl, rfl, rfl, rfl, rfl⟩

/-- A pair leads to one trade or to none. -/
theorem convertPair_trade (column : ℚ → ℚ) (reserve_usd : ℚ) (st : RebalanceState)
    (pair : (Token × ℚ) × (Token × ℚ)) :
    (convertPair column reserve_usd st pair).conversions = st.conversions ∨
    ∃ c, (convertPair column reserve_usd st pair).conversions = st.conversions ++ [c] ∧
      Trade pair c := by
  unfold convertPair
  simp only []
  split
  · exact Or.inl rfl
  · split
    · exact Or.inl rfl
    · split
      · exact Or.inl rfl
      · next amount hamount =>
          split
          · exact Or.inl rfl
          · next result available hconvert =>
              obtain ⟨rate, hrate, hfrom, hto, hsold, hbought⟩ := convert_eq_some hconvert
              obtain ⟨hsoldUsd, hboughtUsd⟩ := usd_amountOf hamount hrate
              -- the reserve only makes it less
              have hle : (if pair.1.1 = "XMR" then
                  min (min pair.1.2 pair.2.2) (st.available "XMR" * xmrUsd - reserve_usd)
                  else min pair.1.2 pair.2.2) ≤ min pair.1.2 pair.2.2 := by
                split
                · exact min_le_left _ _
                · exact le_rfl
              refine Or.inr ⟨result, rfl, hfrom, hto, Option.isSome_of_eq_some hrate, ?_, ?_⟩
              · rw [hsold, hsoldUsd]
                exact hle
              · rw [hbought, hboughtUsd]
                exact hle

/-- The trades of a run, against what each pair allows. -/
theorem sum_conversions_le (column : ℚ → ℚ) (reserve_usd : ℚ)
    (pairs : List ((Token × ℚ) × (Token × ℚ))) (g : Conversion → ℚ)
    (w : (Token × ℚ) × (Token × ℚ) → ℚ) (hskip : ∀ p ∈ pairs, 0 ≤ w p)
    (htrade : ∀ p ∈ pairs, ∀ c, Trade p c → g c ≤ w p) (st : RebalanceState) :
    ((pairs.foldl (convertPair column reserve_usd) st).conversions.map g).sum ≤
      (st.conversions.map g).sum + (pairs.map w).sum := by
  induction pairs generalizing st with
  | nil => simp
  | cons p pairs ih =>
      have hrest := ih (fun q hq => hskip q (List.mem_cons_of_mem _ hq))
        (fun q hq => htrade q (List.mem_cons_of_mem _ hq)) (convertPair column reserve_usd st p)
      have hfirst : ((convertPair column reserve_usd st p).conversions.map g).sum ≤
          (st.conversions.map g).sum + w p := by
        rcases convertPair_trade column reserve_usd st p with hsame | ⟨c, hnew, hc⟩
        · have hw := hskip p List.mem_cons_self
          rw [hsame]
          linarith
        · have hw := htrade p List.mem_cons_self c hc
          rw [hnew, List.map_append, List.sum_append, List.map_singleton, List.sum_singleton]
          linarith
      rw [List.foldl_cons, List.map_cons, List.sum_cons]
      linarith

/-! ## The bounds -/

/-- The most that is traded of one token for another. -/
def traded (rows : Dict ℚ) (target : Dict ℤ) (f t : Token) : ℚ :=
  if 1 / 100 < excess rows target f then
    if excess rows target t < -(1 / 100) then
      if (resolveRate f t).isSome then min (excess rows target f) |excess rows target t| else 0
    else 0
  else 0

/-- What a pair allows to be traded of one token for another. -/
def allowed (f t : Token) (p : (Token × ℚ) × (Token × ℚ)) : ℚ :=
  if p.1.1 = f then
    if p.2.1 = t then if (resolveRate f t).isSome then min p.1.2 p.2.2 else 0 else 0
  else 0

def plannedPairs (rows : Dict ℚ) (target : Dict ℤ) : List ((Token × ℚ) × (Token × ℚ)) :=
  (overAllocated rows target).flatMap fun f => (underAllocated rows target).map fun t => (f, t)

theorem sum_allowed (f t : Token) :
    ((plannedPairs rows target).map (allowed f t)).sum = traded rows target f t := by
  have hinner : ∀ x : Token × ℚ,
      ((underAllocated rows target).map fun y => allowed f t (x, y)).sum =
        if x.1 = f then
          if excess rows target t < -(1 / 100) then
            if (resolveRate f t).isSome then min x.2 |excess rows target t| else 0
          else 0
        else 0 := by
    intro x
    by_cases hx : x.1 = f
    · rw [if_pos hx, ← sum_underAllocated t fun d =>
        if (resolveRate f t).isSome then min x.2 d else 0]
      simp only [allowed, if_pos hx]
    · simp [allowed, hx]
  rw [plannedPairs, sum_pairs _ _ fun x y => allowed f t (x, y), List.map_congr_left fun x _ => hinner x,
    sum_overAllocated f fun e => if excess rows target t < -(1 / 100) then
      if (resolveRate f t).isSome then min e |excess rows target t| else 0 else 0]
  rfl

theorem nonneg_of_mem_plannedPairs {p : (Token × ℚ) × (Token × ℚ)}
    (hp : p ∈ plannedPairs rows target) : 0 ≤ min p.1.2 p.2.2 := by
  obtain ⟨f, hf, hp⟩ := List.mem_flatMap.mp hp
  obtain ⟨t, ht, rfl⟩ := List.mem_map.mp hp
  obtain ⟨x, -, hx⟩ := List.mem_filterMap.mp hf
  obtain ⟨y, -, hy⟩ := List.mem_filterMap.mp ht
  refine le_min ?_ ?_
  · split at hx
    · next hover =>
        obtain rfl := Option.some.inj hx
        exact (by norm_num : (0 : ℚ) ≤ 1 / 100).trans hover.le
    · cases hx
  · split at hy
    · obtain rfl := Option.some.inj hy
      exact abs_nonneg _
    · cases hy

theorem allowed_nonneg {p : (Token × ℚ) × (Token × ℚ)} (f t : Token)
    (hp : p ∈ plannedPairs rows target) : 0 ≤ allowed f t p := by
  have hmin := nonneg_of_mem_plannedPairs hp
  unfold allowed
  split
  · split
    · split
      · exact hmin
      · exact le_rfl
    · exact le_rfl
  · exact le_rfl

/-- What a trade sells and buys is allowed between its tokens. -/
theorem Trade.le_allowed {p : (Token × ℚ) × (Token × ℚ)} {c : Conversion} (hc : Trade p c) :
    tokenUsdValue c.from_currency c.from_amount ≤ allowed c.from_currency c.to_currency p ∧
      tokenUsdValue c.to_currency c.gross_to_amount ≤ allowed c.from_currency c.to_currency p := by
  have hall : allowed c.from_currency c.to_currency p = min p.1.2 p.2.2 := by
    rw [allowed, hc.sells, hc.buys, if_pos rfl, if_pos rfl, if_pos hc.supported]
  rw [hall, hc.sells, hc.buys]
  exact ⟨hc.sold_le, hc.bought_le⟩

/-- The tokens of a trade. -/
theorem Trade.tokens {p : (Token × ℚ) × (Token × ℚ)} {c : Conversion} (hc : Trade p c) :
    (c.from_currency = "XMR" ∨ c.from_currency = "xUSD" ∨ c.from_currency = "xEUR") ∧
      (c.to_currency = "XMR" ∨ c.to_currency = "xUSD" ∨ c.to_currency = "xEUR") := by
  obtain ⟨rate, hrate⟩ := Option.isSome_iff_exists.mp hc.supported
  rw [hc.sells, hc.buys]
  rcases resolveRate_eq_some hrate with ⟨hf, ht, -⟩ | ⟨hf, ht, -⟩ | ⟨hf, ht, -⟩ | ⟨hf, ht, -⟩
  · exact ⟨Or.inl hf, Or.inr (Or.inl ht)⟩
  · exact ⟨Or.inl hf, Or.inr (Or.inr ht)⟩
  · exact ⟨Or.inr (Or.inl hf), Or.inl ht⟩
  · exact ⟨Or.inr (Or.inr hf), Or.inl ht⟩

/-- What the loops convert. -/
def planned (column : ℚ → ℚ) (reserve_usd : ℚ) (rows : Dict ℚ) (target : Dict ℤ) :
    List Conversion :=
  ((plannedPairs rows target).foldl (convertPair column reserve_usd)
    { available := fun token => (rows.lookup token).getD 0 }).conversions

/-- What a pair allows to be traded in some ways. -/
def allowedIn (ways : List (Token × Token)) (p : (Token × ℚ) × (Token × ℚ)) : ℚ :=
  (ways.map fun x => allowed x.1 x.2 p).sum

theorem sum_allowedIn (ways : List (Token × Token)) :
    ((plannedPairs rows target).map (allowedIn ways)).sum =
      (ways.map fun x => traded rows target x.1 x.2).sum := by
  induction ways with
  | nil =>
      unfold allowedIn
      simp
  | cons x ways ih =>
      have hcons : allowedIn (x :: ways) = fun p => allowed x.1 x.2 p + allowedIn ways p := by
        funext p
        rw [allowedIn, List.map_cons, List.sum_cons, allowedIn]
      rw [hcons, List.sum_map_add, ih, List.map_cons, List.sum_cons, ← sum_allowed x.1 x.2]

theorem forall_allowed_nonneg {p : (Token × ℚ) × (Token × ℚ)} (ways : List (Token × Token))
    (hp : p ∈ plannedPairs rows target) : ∀ y ∈ ways.map (fun x => allowed x.1 x.2 p), 0 ≤ y := by
  intro y hy
  obtain ⟨x, -, rfl⟩ := List.mem_map.mp hy
  exact allowed_nonneg x.1 x.2 hp

theorem allowedIn_nonneg {p : (Token × ℚ) × (Token × ℚ)} (ways : List (Token × Token))
    (hp : p ∈ plannedPairs rows target) : 0 ≤ allowedIn ways p :=
  List.sum_nonneg (forall_allowed_nonneg ways hp)

theorem allowed_le_allowedIn {p : (Token × ℚ) × (Token × ℚ)} {ways : List (Token × Token)}
    {x : Token × Token} (hp : p ∈ plannedPairs rows target) (hx : x ∈ ways) :
    allowed x.1 x.2 p ≤ allowedIn ways p :=
  List.single_le_sum (forall_allowed_nonneg ways hp) _ (List.mem_map.mpr ⟨x, hx, rfl⟩)

/-- The sum over the planned trades, when each trade counts for one of some pairs of tokens. -/
theorem sum_planned_le (column : ℚ → ℚ) (reserve_usd : ℚ) (rows : Dict ℚ) (target : Dict ℤ)
    (ways : List (Token × Token)) (g : Conversion → ℚ)
    (hg : ∀ p c, Trade p c → g c = 0 ∨ ∃ x ∈ ways, g c ≤ allowed x.1 x.2 p) :
    ((planned column reserve_usd rows target).map g).sum ≤
      (ways.map fun x => traded rows target x.1 x.2).sum := by
  have hle := sum_conversions_le column reserve_usd
    (plannedPairs rows target) g (allowedIn ways) (fun p hp => allowedIn_nonneg ways hp) ?_
    { available := fun token => (rows.lookup token).getD 0 }
  · rw [sum_allowedIn] at hle
    simpa [planned] using hle
  · intro p hp c hc
    rcases hg p c hc with hzero | ⟨x, hx, hc⟩
    · rw [hzero]
      exact allowedIn_nonneg ways hp
    · exact hc.trans (allowed_le_allowedIn hp hx)

theorem sum_sold_le (token : Token) :
    ((planned column reserve_usd rows target).map (soldUsd token)).sum ≤
      traded rows target token "XMR" + (traded rows target token "xUSD" +
        traded rows target token "xEUR") := by
  have hle := sum_planned_le column reserve_usd rows target
    [(token, "XMR"), (token, "xUSD"), (token, "xEUR")] (soldUsd token) ?_
  · simpa using hle
  · intro p c hc
    by_cases hfrom : c.from_currency = token
    · subst hfrom
      right
      refine ⟨(c.from_currency, c.to_currency), ?_, ?_⟩
      · simpa using hc.tokens.2
      · rw [soldUsd, if_pos rfl]
        exact hc.le_allowed.1
    · exact Or.inl (if_neg hfrom)

theorem sum_bought_le (token : Token) :
    ((planned column reserve_usd rows target).map (boughtUsd token)).sum ≤
      traded rows target "XMR" token + (traded rows target "xUSD" token +
        traded rows target "xEUR" token) := by
  have hle := sum_planned_le column reserve_usd rows target
    [("XMR", token), ("xUSD", token), ("xEUR", token)] (boughtUsd token) ?_
  · simpa using hle
  · intro p c hc
    by_cases hto : c.to_currency = token
    · subst hto
      right
      refine ⟨(c.from_currency, c.to_currency), ?_, ?_⟩
      · simpa using hc.tokens.1
      · rw [boughtUsd, if_pos rfl]
        exact hc.le_allowed.2
    · exact Or.inl (if_neg hto)

/-! ## The imbalance -/

/-- The target names no other token, and its percentages sum up to a hundred. -/
structure FullTarget (target : Dict ℤ) : Prop where
  tokens : ∀ x ∈ target.entries, x.1 = "XMR" ∨ x.1 = "xUSD" ∨ x.1 = "xEUR"
  sum_eq : (target.entries.map Sigma.snd).sum = 100

/-- The percentage of a token in the target. -/
def targetPct (target : Dict ℤ) (token : Token) : ℚ := ((target.lookup token).getD 0 : ℤ)

theorem FullTarget.sum_targetPct (h : FullTarget target) :
    targetPct target "XMR" + targetPct target "xUSD" + targetPct target "xEUR" = 100 := by
  have hone : ∀ token, (target.entries.map fun x => if x.1 = token then (x.2 : ℚ) else 0).sum =
      targetPct target token := by
    intro token
    rw [sum_ite_eq_dlookup target.entries target.nodupKeys token fun pct => (pct : ℚ), targetPct,
      AList.lookup]
    cases List.dlookup token target.entries with
    | none => simp
    | some pct => simp
  have hterm : ∀ x ∈ target.entries, (if x.1 = "XMR" then (x.2 : ℚ) else 0) +
      (if x.1 = "xUSD" then (x.2 : ℚ) else 0) + (if x.1 = "xEUR" then (x.2 : ℚ) else 0) = x.2 := by
    intro x hx
    rcases h.tokens x hx with hk | hk | hk
    · simp [hk]
    · simp [hk]
    · simp [hk]
  rw [← hone, ← hone, ← hone, ← List.sum_map_add, ← List.sum_map_add, List.map_congr_left hterm]
  have hcast : (((target.entries.map Sigma.snd).sum : ℤ) : ℚ) = (100 : ℤ) := congrArg _ h.sum_eq
  rw [Int.cast_list_sum, List.map_map] at hcast
  exact_mod_cast hcast

/-- What is too much of some tokens is missing of the others. -/
theorem FullTarget.sum_imbalance (h : FullTarget target) :
    imbalance rows target "XMR" + imbalance rows target "xUSD" + imbalance rows target "xEUR" = 0 := by
  have hvalue : totalUsd rows = _ := totalUsd_eq
  have hpct := h.sum_targetPct
  have heq : ∀ token, imbalance rows target token =
      valueOf rows token - totalUsd rows * targetPct target token / 100 := fun _ => rfl
  rw [heq, heq, heq]
  linear_combination -hvalue - totalUsd rows / 100 * hpct

/-- A token that is planned to be traded is in the target. -/
theorem excess_dist_of_ne_zero (token : Token) (htotal : 0 < totalUsd rows)
    (hne : excess rows target token ≠ 0) :
    |excess rows target token - imbalance rows target token| ≤ totalUsd rows / 200 := by
  refine excess_dist htotal ?_
  cases ht : target.lookup token with
  | none =>
      rw [excess, ht, Option.elim_none] at hne
      exact absurd rfl hne
  | some pct => rfl

/-- What is traded of a token that is over its target for one that is under it. -/
theorem traded_cases (rows : Dict ℚ) (target : Dict ℤ) (f t : Token) : traded rows target f t = 0 ∨
    (1 / 100 < excess rows target f ∧ excess rows target t < -(1 / 100) ∧
      (resolveRate f t).isSome = true ∧ traded rows target f t ≤ excess rows target f ∧
      traded rows target f t ≤ -excess rows target t) := by
  unfold traded
  split
  · next hover =>
      split
      · next hunder =>
          split
          · next hrate =>
              right
              refine ⟨hover, hunder, hrate, min_le_left _ _, (min_le_right _ _).trans_eq ?_⟩
              exact abs_of_neg (by linarith)
          · exact Or.inl rfl
      · exact Or.inl rfl
  · exact Or.inl rfl

/-- The bounds of one trade. -/
theorem traded_le (rows : Dict ℚ) (target : Dict ℤ) (htotal : 0 < totalUsd rows) (f t : Token) :
    traded rows target f t ≤ max 0 (imbalance rows target f) + totalUsd rows / 200 ∧
      traded rows target f t ≤ max 0 (-imbalance rows target t) + totalUsd rows / 200 := by
  have hf := le_max_left 0 (imbalance rows target f)
  have ht := le_max_left 0 (-imbalance rows target t)
  rcases traded_cases rows target f t with hzero | ⟨hover, hunder, -, hle, hle'⟩
  · rw [hzero]
    constructor <;> linarith
  · have hne : excess rows target f ≠ 0 := by linarith
    have hne' : excess rows target t ≠ 0 := by linarith
    have hdist := abs_le.mp (excess_dist_of_ne_zero f htotal hne)
    have hdist' := abs_le.mp (excess_dist_of_ne_zero t htotal hne')
    have hf' := le_max_right 0 (imbalance rows target f)
    have ht' := le_max_right 0 (-imbalance rows target t)
    constructor
    · linarith [hdist.2]
    · linarith [hdist'.1]

theorem traded_eq_zero {f t : Token} (h : resolveRate f t = none) : traded rows target f t = 0 := by
  rcases traded_cases rows target f t with hzero | ⟨-, -, hrate, -⟩
  · exact hzero
  · rw [h] at hrate
    cases hrate

/-- XMR that is sold for both of the other tokens. -/
theorem traded_XMR_le (htotal : 0 < totalUsd rows) (h : FullTarget target) :
    traded rows target "XMR" "xUSD" + traded rows target "XMR" "xEUR" ≤
      max 0 (imbalance rows target "XMR") + totalUsd rows / 100 := by
  have hmax := le_max_right 0 (imbalance rows target "XMR")
  have hsum : imbalance rows target "XMR" + imbalance rows target "xUSD" +
      imbalance rows target "xEUR" = 0 := h.sum_imbalance
  have hu := (traded_le rows target htotal "XMR" "xUSD").1
  have he := (traded_le rows target htotal "XMR" "xEUR").1
  rcases traded_cases rows target "XMR" "xUSD" with hzero | ⟨-, hunder, -, -, hle⟩
  · linarith
  · rcases traded_cases rows target "XMR" "xEUR" with hzero | ⟨-, hunder', -, -, hle'⟩
    · linarith
    · -- both shortfalls are rounded, and together they are the surplus
      have hne : excess rows target "xUSD" ≠ 0 := by linarith
      have hne' : excess rows target "xEUR" ≠ 0 := by linarith
      have hdist := abs_le.mp (excess_dist_of_ne_zero "xUSD" htotal hne)
      have hdist' := abs_le.mp (excess_dist_of_ne_zero "xEUR" htotal hne')
      linarith [hdist.1, hdist'.1]

/-- XMR that is bought with both of the other tokens. -/
theorem traded_to_XMR_le (htotal : 0 < totalUsd rows) (h : FullTarget target) :
    traded rows target "xUSD" "XMR" + traded rows target "xEUR" "XMR" ≤
      max 0 (-imbalance rows target "XMR") + totalUsd rows / 100 := by
  have hmax := le_max_right 0 (-imbalance rows target "XMR")
  have hsum : imbalance rows target "XMR" + imbalance rows target "xUSD" +
      imbalance rows target "xEUR" = 0 := h.sum_imbalance
  have hu := (traded_le rows target htotal "xUSD" "XMR").2
  have he := (traded_le rows target htotal "xEUR" "XMR").2
  rcases traded_cases rows target "xUSD" "XMR" with hzero | ⟨hover, -, -, hle, -⟩
  · linarith
  · rcases traded_cases rows target "xEUR" "XMR" with hzero | ⟨hover', -, -, hle', -⟩
    · linarith
    · have hne : excess rows target "xUSD" ≠ 0 := by linarith
      have hne' : excess rows target "xEUR" ≠ 0 := by linarith
      have hdist := abs_le.mp (excess_dist_of_ne_zero "xUSD" htotal hne)
      have hdist' := abs_le.mp (excess_dist_of_ne_zero "xEUR" htotal hne')
      linarith [hdist.2, hdist'.2]

/-- How far off the trades of a token may be. -/
def margin (rows : Dict ℚ) (token : Token) : ℚ :=
  if token = "XMR" then totalUsd rows / 100 else totalUsd rows / 200

theorem traded_from_le (htotal : 0 < totalUsd rows) (h : FullTarget target) (token : Token) :
    traded rows target token "XMR" + (traded rows target token "xUSD" +
      traded rows target token "xEUR") ≤
      max 0 (imbalance rows target token) + margin rows token := by
  by_cases hx : token = "XMR"
  · subst hx
    have hself : traded rows target "XMR" "XMR" = 0 := traded_eq_zero rfl
    have hle := traded_XMR_le htotal h
    rw [margin, if_pos rfl, hself]
    linarith
  · have hrate : ∀ t, t ≠ "XMR" → traded rows target token t = 0 := by
      intro t ht
      exact traded_eq_zero (by simp [resolveRate, hx, ht])
    have hle := (traded_le rows target htotal token "XMR").1
    rw [margin, if_neg hx, hrate "xUSD" (by decide), hrate "xEUR" (by decide)]
    linarith

theorem traded_to_le (htotal : 0 < totalUsd rows) (h : FullTarget target) (token : Token) :
    traded rows target "XMR" token + (traded rows target "xUSD" token +
      traded rows target "xEUR" token) ≤
      max 0 (-imbalance rows target token) + margin rows token := by
  by_cases hx : token = "XMR"
  · subst hx
    have hself : traded rows target "XMR" "XMR" = 0 := traded_eq_zero rfl
    have hle := traded_to_XMR_le htotal h
    rw [margin, if_pos rfl, hself]
    linarith
  · have hrate : ∀ f, f ≠ "XMR" → traded rows target f token = 0 := by
      intro f hf
      exact traded_eq_zero (by simp [resolveRate, hx, hf])
    have hle := (traded_le rows target htotal "XMR" token).2
    rw [margin, if_neg hx, hrate "xUSD" (by decide), hrate "xEUR" (by decide)]
    linarith

/-- A rebalance that converts has found a portfolio of some value. -/
theorem rebalance_eq_rebalanced {now : ℚ} {policy : TreasuryPolicy} {conversions : List Conversion}
    (hrun : rebalance column now (some policy) rows = some (.rebalanced conversions)) :
    0 < totalUsd rows ∧ conversions = planned column
      (totalUsd rows * orDefault policy.emergency_reserve_pct 10 / 100) rows
        policy.target_allocation := by
  unfold rebalance at hrun
  simp only [] at hrun
  split at hrun
  · cases hrun
  · split at hrun
    · cases hrun
    · split at hrun
      · cases hrun
      · next htotal =>
          split at hrun
          · cases hrun
          · split at hrun
            · cases hrun
            · simp only [Option.some.injEq, Rebalance.rebalanced.injEq] at hrun
              exact ⟨not_le.mp htotal, hrun.symm⟩

/-- What one rebalance sells and buys of a token is the imbalance of the token at most, up to the
rounding of the percentages. -/
theorem rebalance_within_margin (column : ℚ → ℚ) (now : ℚ) (policy : TreasuryPolicy) (rows : Dict ℚ)
    (h : FullTarget policy.target_allocation) (conversions : List Conversion)
    (hrun : rebalance column now (some policy) rows = some (.rebalanced conversions))
    (token : Token) :
    (conversions.map (soldUsd token)).sum ≤
        max 0 (imbalance rows policy.target_allocation token) + margin rows token ∧
      (conversions.map (boughtUsd token)).sum ≤
        max 0 (-imbalance rows policy.target_allocation token) + margin rows token := by
  obtain ⟨htotal, rfl⟩ := rebalance_eq_rebalanced hrun
  exact ⟨(sum_sold_le token).trans (traded_from_le htotal h token),
    (sum_bought_le token).trans (traded_to_le htotal h token)⟩

/-- Half of the value in XMR and half in xUSD. -/
def halves : TreasuryPolicy where
  target_allocation := (AList.singleton "xUSD" 50).insert "XMR" 50

/-- 606 dollars in XMR and 394 in xUSD. -/
def sixtyForty : Dict ℚ := (AList.singleton "xUSD" 394).insert "XMR" (404 / 100)

/-- 110 dollars of XMR for xUSD. -/
def sale : Conversion := ⟨"XMR", 110 / 150, "xUSD", 110, 55 / 100, 10945 / 100, 150⟩

theorem rebalance_sixtyForty :
    rebalance id 0 (some halves) sixtyForty = some (.rebalanced [sale]) := by
  decide +kernel

theorem fullTarget_halves : FullTarget halves.target_allocation where
  tokens := by decide
  sum_eq := by decide

theorem rebalance_within_margin_sixtyForty :
    ([sale].map (soldUsd "XMR")).sum ≤
        max 0 (imbalance sixtyForty halves.target_allocation "XMR") + margin sixtyForty "XMR" ∧
      ([sale].map (boughtUsd "XMR")).sum ≤
        max 0 (-imbalance sixtyForty halves.target_allocation "XMR") + margin sixtyForty "XMR" :=
  rebalance_within_margin id 0 halves sixtyForty fullTarget_halves [sale] rebalance_sixtyForty "XMR"

/-- Of 106 dollars too much in XMR, 110 are sold. -/
theorem rebalance_oversells :
    rebalance id 0 (some halves) sixtyForty = some (.rebalanced [sale]) ∧
      ([sale].map (soldUsd "XMR")).sum = 110 ∧
      imbalance sixtyForty halves.target_allocation "XMR" = 106 := by
  decide +kernel

end TreasuryService

end Sthrip
