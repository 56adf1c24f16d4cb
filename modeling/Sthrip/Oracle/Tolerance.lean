import Mathlib.Tactic.Ring
import Sthrip.Bridge.Oracle
import Sthrip.Order.Median

set_option autoImplicit false

/-! # A minority of faulty prices

The prices are decimals and the confidences floats, so that a mean of several prices is not computed.
-/

namespace Sthrip.Oracle

open Python Median

/-- The prices that are returned. -/
def answered (answers : List Answer) : List ℚ := answers.filterMap fun answer => answer.result.toOption

/-- How many prices are within the deviation `d` of the median. -/
def within (d : ℚ) (xs : List ℚ) : ℕ := xs.countP fun x => |x - median xs| ≤ d * median xs

/-! ## The prices of the sources -/

theorem price_fetched (answers : List Answer) :
    (fetched answers).map PriceData.price = (answered answers).map Number.decimal := by
  rw [fetched, answered, List.map_filterMap, List.map_filterMap]
  refine List.filterMap_congr fun answer _ => ?_
  unfold Answer.fetch
  cases answer.result with
  | error e => rfl
  | ok price => rfl

theorem kind_fetched {answers : List Answer} {p : PriceData} (hp : p ∈ fetched answers) :
    p.price.kind = .decimal ∧ p.confidence.kind = .float := by
  obtain ⟨answer, -, hsome⟩ := List.mem_filterMap.mp hp
  cases hresult : answer.result with
  | error e =>
      unfold Answer.fetch at hsome
      rw [hresult] at hsome
      cases hsome
  | ok price =>
      unfold Answer.fetch at hsome
      rw [hresult] at hsome
      rw [← Option.some.inj hsome]
      exact ⟨rfl, rfl⟩

/-! ## The median of decimals -/

theorem medianOf_decimal {xs : List ℚ} (hne : xs ≠ []) :
    medianOf (xs.map Number.decimal) = .ok (Number.decimal (median xs)) := by
  have hsort : (xs.map Number.decimal).mergeSort (fun a b => a.value ≤ b.value)
      = (sorted xs).map Number.decimal :=
    (List.map_mergeSort (f := Number.decimal) fun _ _ _ _ => rfl).symm
  have hlen : 0 < (sorted xs).length := by
    rw [(perm_sorted xs).length_eq]
    exact List.length_pos_iff.mpr hne
  have hget : ∀ k < (sorted xs).length, ((sorted xs).map Number.decimal).getD k (Number.ofInt 0)
      = Number.decimal ((sorted xs).getD k 0) := by
    intro k hk
    rw [List.getD_eq_getElem?_getD, List.getD_eq_getElem?_getD, List.getElem?_map,
      List.getElem?_eq_getElem hk]
    rfl
  unfold medianOf median
  simp only [hsort, List.length_map]
  rw [hget _ (by omega), hget _ (by omega)]
  by_cases hodd : (sorted xs).length % 2 = 1
  · rw [if_pos hodd, if_pos hodd]
  · rw [if_neg hodd, if_neg hodd]
    rfl

/-! ## The filter -/

theorem filterPass_decimal {d m : ℚ} (hm : 0 < m) {prices : List PriceData}
    (hkind : ∀ p ∈ prices, p.price.kind = .decimal) :
    filterPass d (Number.decimal m) prices
      = .ok (prices.filter fun p => |p.price.value - m| ≤ d * m) := by
  induction prices with
  | nil => rfl
  | cons p prices ih =>
      have hrest := ih fun q hq => hkind q (List.mem_cons_of_mem p hq)
      have hjoin : p.price.kind.join .decimal = .ok .decimal := by
        rw [hkind p List.mem_cons_self]
        rfl
      have hsub : p.price.sub (Number.decimal m) = .ok (Number.decimal (p.price.value - m)) := by
        unfold Number.sub
        show (do let kind ← p.price.kind.join .decimal; _) = _
        rw [hjoin]
        rfl
      have hdiv : (Number.decimal (p.price.value - m)).abs.div (Number.decimal m)
          = .ok (Number.decimal (|p.price.value - m| / m)) := by
        show (if m = 0 then Except.error NumberError.ZeroDivisionError else _) = _
        rw [if_neg hm.ne']
        rfl
      have hiff : |p.price.value - m| / m ≤ d ↔ |p.price.value - m| ≤ d * m := div_le_iff₀ hm
      rw [filterPass, hsub]
      show (do let deviation ← (Number.decimal (p.price.value - m)).abs.div (Number.decimal m); _) = _
      rw [hdiv]
      show (do let valid ← filterPass d (Number.decimal m) prices; _) = _
      rw [hrest]
      by_cases hwithin : |p.price.value - m| ≤ d * m
      · have hkeep : (p :: prices).filter (fun p => |p.price.value - m| ≤ d * m)
            = p :: prices.filter fun p => |p.price.value - m| ≤ d * m :=
          List.filter_cons_of_pos (by simpa using hwithin)
        rw [hkeep]
        exact congrArg Except.ok (if_pos (hiff.mpr hwithin))
      · have hdrop : (p :: prices).filter (fun p => |p.price.value - m| ≤ d * m)
            = prices.filter fun p => |p.price.value - m| ≤ d * m :=
          List.filter_cons_of_neg (by simpa using hwithin)
        rw [hdrop]
        exact congrArg Except.ok (if_neg (mt hiff.mp hwithin))

/-! ## The mean -/

/-- A decimal times a float is an error. -/
theorem sumWeighted_error {p : PriceData} (hprice : p.price.kind = .decimal)
    (hconfidence : p.confidence.kind = .float) (prices : List PriceData) :
    sumWeighted (p :: prices) = .error .TypeError := by
  have hmul : p.price.mul p.confidence = .error .TypeError := by
    unfold Number.mul
    rw [hprice, hconfidence]
    rfl
  unfold sumWeighted
  rw [List.foldlM_cons, hmul]
  rfl

/-- The mean of several prices is not computed, nor that of none. -/
theorem aggregatePrices_error {prices : List PriceData} (hlen : prices.length ≠ 1)
    (hkind : ∀ p ∈ prices, p.price.kind = .decimal ∧ p.confidence.kind = .float) (r : PriceData) :
    aggregatePrices prices ≠ .ok r := by
  cases prices with
  | nil =>
      intro h
      have herror : aggregatePrices [] = .error .ZeroDivisionError := rfl
      rw [herror] at h
      cases h
  | cons p prices =>
      cases prices with
      | nil => exact absurd rfl hlen
      | cons q prices =>
          intro h
          obtain ⟨hprice, hconfidence⟩ := hkind p List.mem_cons_self
          have hmean : weightedMean (p :: q :: prices) = .ok r := h
          unfold weightedMean at hmean
          rw [sumWeighted_error hprice hconfidence] at hmean
          cases hweight : Number.sum ((p :: q :: prices).map PriceData.confidence) with
          | error e =>
              rw [hweight] at hmean
              cases hmean
          | ok w =>
              rw [hweight] at hmean
              cases hmean

/-! ## When a price is returned -/

/-- Two prices are within the same deviation of their median. -/
theorem within_pair (d : ℚ) {xs : List ℚ} (hlen : xs.length = 2) : within d xs ≠ 1 := by
  obtain ⟨a, b, rfl⟩ := List.length_eq_two.mp hlen
  have hsame : |a - median [a, b]| = |b - median [a, b]| := by
    rw [median_pair, ← abs_neg (b - (a + b) / 2)]
    congr 1
    ring
  unfold within
  rw [List.countP_cons, List.countP_cons, List.countP_nil, hsame]
  split <;> omega

/-- The prices that are aggregated, when there are more than two. -/
theorem filterOutliers_eq (S : OracleAggregator) {answers : List Answer}
    (hpos : 0 < median (answered answers)) (hlen : 2 < (answered answers).length) :
    S.filterOutliers (fetched answers)
      = .ok ((fetched answers).filter fun p =>
          |p.price.value - median (answered answers)| ≤ S.max_deviation * median (answered answers)) := by
  have hprices := price_fetched answers
  have hcount : (fetched answers).length = (answered answers).length := by
    rw [← List.length_map PriceData.price, hprices, List.length_map]
  have hne : answered answers ≠ [] := List.ne_nil_of_length_pos (by omega)
  unfold OracleAggregator.filterOutliers
  rw [if_neg (by omega), hprices]
  show (do let median ← medianOf ((answered answers).map Number.decimal); _) = _
  rw [medianOf_decimal hne]
  exact filterPass_decimal hpos fun p hp => (kind_fetched hp).1

theorem value_fetched (answers : List Answer) :
    (fetched answers).map (fun p => p.price.value) = answered answers := by
  have hmap := congrArg (List.map Number.value) (price_fetched answers)
  rw [List.map_map, List.map_map] at hmap
  exact hmap.trans (List.map_id _)

/-- As many prices are aggregated as are within the deviation. -/
theorem length_filter_fetched (S : OracleAggregator) (answers : List Answer) :
    ((fetched answers).filter fun p =>
        |p.price.value - median (answered answers)| ≤ S.max_deviation * median (answered answers)).length
      = within S.max_deviation (answered answers) := by
  have hvalues := value_fetched answers
  rw [← List.countP_eq_length_filter, within]
  conv_rhs => rw [← hvalues, List.countP_map, hvalues]
  rfl

theorem length_fetched (answers : List Answer) :
    (fetched answers).length = (answered answers).length := by
  rw [← List.length_map PriceData.price, price_fetched, List.length_map]

/-- A price within the deviation of a median in an interval. -/
theorem bounds_of_within {d m x lo hi : ℚ} (hd : 0 ≤ d) (hlo : 0 ≤ lo) (hx : 0 < x)
    (hm : lo ≤ m ∧ m ≤ hi) (hwithin : |x - m| ≤ d * m) : lo * (1 - d) ≤ x ∧ x ≤ hi * (1 + d) := by
  obtain ⟨hbelow, habove⟩ := abs_le.mp hwithin
  constructor
  · by_cases hsmall : d ≤ 1
    · -- the median times `1 - d` is between the two
      have hscaled : lo * (1 - d) ≤ m * (1 - d) := mul_le_mul_of_nonneg_right hm.1 (by linarith)
      linarith
    · have hneg : lo * (1 - d) ≤ 0 := mul_nonpos_of_nonneg_of_nonpos hlo (by linarith)
      linarith
  · have hscaled : m * (1 + d) ≤ hi * (1 + d) := mul_le_mul_of_nonneg_right hm.2 (by linarith)
    linarith

/-- The steps of a call that returns a price. -/
theorem getPrice_eq_ok {S : OracleAggregator} {answers : List Answer} {r : PriceData} :
    S.getPrice answers = .ok r
      ↔ S.min_sources ≤ (fetched answers).length
        ∧ ∃ valid, S.filterOutliers (fetched answers) = .ok valid ∧ S.min_sources ≤ valid.length
          ∧ aggregatePrices valid = .ok r := by
  unfold OracleAggregator.getPrice
  by_cases hmin : ((fetched answers).length : ℤ) < S.min_sources
  · constructor
    · intro h
      rw [if_pos hmin] at h
      cases h
    · rintro ⟨h, -⟩
      exact absurd hmin (not_lt.mpr h)
  · rw [if_neg hmin]
    cases hfilter : S.filterOutliers (fetched answers) with
    | error e =>
        constructor
        · intro h
          cases h
        · rintro ⟨-, valid, h, -⟩
          cases h
    | ok valid =>
        show (if (valid.length : ℤ) < S.min_sources then _ else ofNumber (aggregatePrices valid)) = _ ↔ _
        by_cases hvalid : (valid.length : ℤ) < S.min_sources
        · constructor
          · intro h
            rw [if_pos hvalid] at h
            cases h
          · rintro ⟨-, valid', h, hmin', -⟩
            obtain rfl := Except.ok.inj h
            exact absurd hvalid (not_lt.mpr hmin')
        · rw [if_neg hvalid]
          constructor
          · intro h
            refine ⟨not_lt.mp hmin, valid, rfl, not_lt.mp hvalid, ?_⟩
            cases haggregate : aggregatePrices valid with
            | error e =>
                rw [haggregate] at h
                cases h
            | ok r' =>
                rw [haggregate] at h
                exact congrArg Except.ok (Except.ok.inj h)
          · rintro ⟨-, valid', h, -, haggregate⟩
            obtain rfl := Except.ok.inj h
            rw [haggregate]
            rfl

/-- What is aggregated: one price is there only when one is within the deviation. -/
theorem filterOutliers_single_iff (S : OracleAggregator) (hd : 0 ≤ S.max_deviation)
    {answers : List Answer} (hpos : 0 < median (answered answers))
    (hne : 0 < (answered answers).length) :
    (∃ p, S.filterOutliers (fetched answers) = .ok [p])
      ↔ within S.max_deviation (answered answers) = 1 := by
  have hlen := length_fetched answers
  by_cases hmany : 2 < (answered answers).length
  · rw [filterOutliers_eq S hpos hmany, ← length_filter_fetched, List.length_eq_one_iff]
    exact exists_congr fun p => ⟨Except.ok.inj, congrArg Except.ok⟩
  · have hall : S.filterOutliers (fetched answers) = .ok (fetched answers) := if_pos (by omega)
    rw [hall]
    constructor
    · rintro ⟨p, hp⟩
      have hone : (answered answers).length = 1 := by rw [← hlen, Except.ok.inj hp, List.length_singleton]
      obtain ⟨x, hx⟩ := List.length_eq_one_iff.mp hone
      rw [hx] at hpos ⊢
      have hmedian : median [x] = x := median_singleton x
      have hself : |x - median [x]| ≤ S.max_deviation * median [x] := by
        rw [hmedian, sub_self, abs_zero]
        exact mul_nonneg hd (hmedian ▸ hpos).le
      rw [within, List.countP_cons, List.countP_nil, if_pos (decide_eq_true hself)]
    · intro hwithin
      have htwo : (answered answers).length ≠ 2 := fun h => within_pair S.max_deviation h hwithin
      obtain ⟨p, hp⟩ := List.length_eq_one_iff.mp (show (fetched answers).length = 1 by omega)
      exact ⟨p, congrArg Except.ok hp⟩

/-- **The oracle.** With a minority of faulty prices a price in the widened interval is returned exactly
when a single price is within the deviation of the median. -/
theorem getPrice_tolerant_iff (S : OracleAggregator) (hd : 0 ≤ S.max_deviation) (answers : List Answer)
    {lo hi : ℚ} (hlo : 0 ≤ lo) (hpos : ∀ x ∈ answered answers, 0 < x)
    (hminority : 2 * outside lo hi (answered answers) < (answered answers).length)
    (hwithin : S.min_sources ≤ within S.max_deviation (answered answers)
      ∨ (answered answers).length = 2) :
    (∃ r, S.getPrice answers = .ok r ∧ lo * (1 - S.max_deviation) ≤ r.price.value
        ∧ r.price.value ≤ hi * (1 + S.max_deviation))
      ↔ within S.max_deviation (answered answers) = 1 := by
  have hlen := length_fetched answers
  have hnonempty : 0 < (answered answers).length := by omega
  have hmedian : 0 < median (answered answers) := median_pos (List.ne_nil_of_length_pos hnonempty) hpos
  have hsingle := filterOutliers_single_iff S hd hmedian hnonempty
  have hkinds : ∀ valid, S.filterOutliers (fetched answers) = .ok valid → valid ⊆ fetched answers := by
    intro valid hvalid
    by_cases hmany : 2 < (answered answers).length
    · rw [filterOutliers_eq S hmedian hmany] at hvalid
      rw [← Except.ok.inj hvalid]
      exact fun p hp => (List.mem_filter.mp hp).1
    · have hall : S.filterOutliers (fetched answers) = .ok (fetched answers) := if_pos (by omega)
      rw [← Except.ok.inj (hall.symm.trans hvalid)]
      exact fun _ hp => hp
  constructor
  · rintro ⟨r, hok, -, -⟩
    obtain ⟨-, valid, hvalid, -, haggregate⟩ := getPrice_eq_ok.mp hok
    have hone : valid.length = 1 := by
      by_contra hlength
      exact aggregatePrices_error hlength (fun p hp => kind_fetched (hkinds valid hvalid hp)) r haggregate
    obtain ⟨p, rfl⟩ := List.length_eq_one_iff.mp hone
    exact hsingle.mp ⟨p, hvalid⟩
  · intro hone
    obtain ⟨p, hp⟩ := hsingle.mpr hone
    have hmem : p ∈ fetched answers := hkinds [p] hp List.mem_cons_self
    have hvalue : p.price.value ∈ answered answers := by
      rw [← value_fetched]
      exact List.mem_map_of_mem hmem
    have hclose : |p.price.value - median (answered answers)|
        ≤ S.max_deviation * median (answered answers) := by
      by_cases hmany : 2 < (answered answers).length
      · rw [filterOutliers_eq S hmedian hmany] at hp
        have hfilter : p ∈ (fetched answers).filter fun p =>
            |p.price.value - median (answered answers)| ≤ S.max_deviation * median (answered answers) := by
          rw [Except.ok.inj hp]
          exact List.mem_cons_self
        exact of_decide_eq_true (List.mem_filter.mp hfilter).2
      · have htwo : (answered answers).length ≠ 2 := fun h => within_pair S.max_deviation h hone
        have hall : (answered answers).length = 1 := by omega
        rw [within, ← hall] at hone
        exact of_decide_eq_true (List.countP_eq_length.mp hone _ hvalue)
    have hmin : S.min_sources ≤ 1 := by
      rcases hwithin with h | h
      · rw [hone] at h
        exact_mod_cast h
      · exact absurd hone (within_pair S.max_deviation h)
    refine ⟨p, getPrice_eq_ok.mpr ⟨by omega, [p], hp, hmin, rfl⟩, ?_⟩
    exact bounds_of_within hd hlo (hpos _ hvalue) (median_mem_interval hminority) hclose

/-! ### Two sources that agree -/

/-- The defaults of the source. -/
def defaultAggregator : OracleAggregator where
  max_deviation := 1 / 20
  min_sources := 2

def twoAnswers : List Answer :=
  [{ name := "chainlink", timestamp := 0, result := .ok 100 },
    { name := "uniswap", timestamp := 0, result := .ok 102 }]

theorem outside_twoAnswers : 2 * outside 100 102 (answered twoAnswers) < (answered twoAnswers).length := by
  decide +kernel

theorem answered_twoAnswers_pos : ∀ x ∈ answered twoAnswers, 0 < x := by decide +kernel

theorem getPrice_two_raises :
    (∀ x ∈ answered twoAnswers, 0 < x)
      ∧ 2 * outside 100 102 (answered twoAnswers) < (answered twoAnswers).length
      ∧ (answered twoAnswers).length = 2
      ∧ defaultAggregator.getPrice twoAnswers = .error (.Arithmetic .TypeError) :=
  ⟨answered_twoAnswers_pos, outside_twoAnswers, rfl, rfl⟩

theorem getPrice_tolerant_iff_two :
    (∃ r, defaultAggregator.getPrice twoAnswers = .ok r
        ∧ 100 * (1 - defaultAggregator.max_deviation) ≤ r.price.value
        ∧ r.price.value ≤ 102 * (1 + defaultAggregator.max_deviation))
      ↔ within defaultAggregator.max_deviation (answered twoAnswers) = 1 :=
  getPrice_tolerant_iff defaultAggregator (by decide +kernel) twoAnswers (by norm_num)
    answered_twoAnswers_pos outside_twoAnswers (Or.inr rfl)

end Sthrip.Oracle
