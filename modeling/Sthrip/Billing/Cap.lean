import Sthrip.Api.Tiers
import Sthrip.Billing.Grace

set_option autoImplicit false

/-! # What a month costs

The charges and the refunds of one agent for one month, over upgrades, downgrades and daily runs. A
billing run looks for a monthly charge only, an upgrade for no charge at all, and a downgrade refunds
what was perhaps never charged. When each of them looks for what concerns it, the charges of the
month stay within the price of the highest tier that the agent held, and the refunds within the
charges.
-/

namespace Sthrip

open Txn

/-! ## Parts of a month -/

theorem cents_mono {x y : ℚ} (h : x ≤ y) : cents x ≤ cents y := by
  have hround : roundHalfAway (x * 10 ^ 2) ≤ roundHalfAway (y * 10 ^ 2) :=
    roundHalfAway_monotone (by linarith)
  have hcast : (roundHalfAway (x * 10 ^ 2) : ℚ) ≤ roundHalfAway (y * 10 ^ 2) := by
    exact_mod_cast hround
  exact div_le_div_of_nonneg_right hcast (by positivity)

theorem cents_cents (x : ℚ) : cents (cents x) = cents x := numeric_of_mem (numeric_mem 2 x)

theorem cents_intCast (z : ℤ) : cents z = z := by
  refine numeric_of_mem (mem_decimals.mpr ⟨z * 100, ?_⟩)
  push_cast
  ring

/-- The price of the rest of a month. -/
def prorated (monthly_cost_usd : ℚ) (day days : ℕ) : ℚ :=
  cents (monthly_cost_usd * ((days : ℚ) - day + 1) / days)

section Prorated

variable {p : ℚ} {day day' days : ℕ}

theorem prorateCharge_eq (h : 1 ≤ day) (h' : day ≤ days) :
    prorateCharge p day days = .ok (prorated p day days) := by
  rw [prorateCharge, if_neg (by omega), prorated]

theorem rest_nonneg (hp : 0 ≤ p) (h' : day ≤ days) :
    0 ≤ p * ((days : ℚ) - day + 1) / days := by
  have : (day : ℚ) ≤ days := by exact_mod_cast h'
  have : 0 ≤ (days : ℚ) - day + 1 := by linarith
  positivity

theorem prorated_nonneg (hp : 0 ≤ p) (h' : day ≤ days) : 0 ≤ prorated p day days :=
  numeric_nonneg 2 (rest_nonneg hp h')

/-- Less is left of a month on a later day. -/
theorem prorated_anti (days : ℕ) (hp : 0 ≤ p) (h : day ≤ day') :
    prorated p day' days ≤ prorated p day days := by
  apply cents_mono
  have : (day : ℚ) ≤ day' := by exact_mod_cast h
  gcongr

theorem prorated_first (hdays : 0 < days) : prorated p 1 days = cents p := by
  have hne : (days : ℚ) ≠ 0 := by exact_mod_cast hdays.ne'
  have hall : p * ((days : ℚ) - (1 : ℕ) + 1) / days = p := by
    push_cast
    field_simp
    ring
  rw [prorated, hall]

/-- From the second day on, the price of `PREMIUM` leaves room for that of `VERIFIED`. -/
theorem prorated_second (h : 1 < day) (h' : day ≤ days) (h31 : days ≤ 31) :
    29 + prorated 999 day days ≤ 999 := by
  have hday : (2 : ℚ) ≤ day := by exact_mod_cast h
  have hle : (day : ℚ) ≤ days := by exact_mod_cast h'
  have h31 : (days : ℚ) ≤ 31 := by exact_mod_cast h31
  have hpos : (0 : ℚ) < days := by linarith
  have hrest : 999 * ((days : ℚ) - day + 1) / days ≤ ((970 : ℤ) : ℚ) := by
    rw [div_le_iff₀ hpos]
    push_cast
    linarith
  have hcents := cents_mono hrest
  rw [cents_intCast] at hcents
  have : prorated 999 day days ≤ 970 := by
    unfold prorated
    exact_mod_cast hcents
  linarith

end Prorated

/-! ## Prices -/

namespace AgentTier

theorem monthlyUsd_eq (tier : AgentTier) : tier.monthlyUsd = tier.usdPrice := by
  cases tier <;> rfl

theorem usdPrice_nonneg (tier : AgentTier) : 0 ≤ tier.usdPrice := by
  cases tier <;> norm_num [usdPrice, freeUsdMonthly, verifiedUsdMonthly, premiumUsdMonthly]

theorem cents_usdPrice (tier : AgentTier) : cents tier.usdPrice = tier.usdPrice := by
  have hint : ∃ z : ℤ, tier.usdPrice = z := by
    cases tier
    · exact ⟨0, by norm_num [usdPrice, freeUsdMonthly]⟩
    · exact ⟨29, by norm_num [usdPrice, verifiedUsdMonthly]⟩
    · exact ⟨999, by norm_num [usdPrice, premiumUsdMonthly]⟩
    · exact ⟨999, by norm_num [usdPrice, premiumUsdMonthly]⟩
  obtain ⟨z, hz⟩ := hint
  rw [hz, cents_intCast]

/-- A part of a month costs no more than the month. -/
theorem prorated_le (tier : AgentTier) {day days : ℕ} (h : 1 ≤ day) (h' : day ≤ days) :
    prorated tier.usdPrice day days ≤ tier.usdPrice := by
  calc prorated tier.usdPrice day days
      ≤ prorated tier.usdPrice 1 days := prorated_anti days tier.usdPrice_nonneg h
    _ = cents tier.usdPrice := prorated_first (by omega)
    _ = tier.usdPrice := tier.cents_usdPrice

end AgentTier

/-! ## The rows of a month -/

/-- The row is a charge for the month. -/
def AgentBillingHistory.isCharge (m : ℕ) (row : AgentBillingHistory) : Bool :=
  row.month_start = m ∧ (row.status = .monthly_charge ∨ row.status = .upgrade_charge)

/-- The row is a refund for the month. -/
def AgentBillingHistory.isRefund (m : ℕ) (row : AgentBillingHistory) : Bool :=
  row.month_start = m ∧ row.status = .downgrade_refund

/-- What the rows amount to. -/
def amountUsd (rows : List AgentBillingHistory) : ℚ := (rows.map (·.amount_usd)).sum

/-- The rows that were written for a tier. -/
def ofTier (tier : AgentTier) (rows : List AgentBillingHistory) : List AgentBillingHistory :=
  rows.filter fun row => row.tier_at_event = tier

theorem amountUsd_append (rows rows' : List AgentBillingHistory) :
    amountUsd (rows ++ rows') = amountUsd rows + amountUsd rows' := by
  rw [amountUsd, List.map_append, List.sum_append]
  rfl

theorem amountUsd_singleton (row : AgentBillingHistory) : amountUsd [row] = row.amount_usd :=
  add_zero _

theorem amountUsd_cons (row : AgentBillingHistory) (rows : List AgentBillingHistory) :
    amountUsd (row :: rows) = row.amount_usd + amountUsd rows := List.sum_cons

/-- The amount of the rows is that of the four tiers. -/
theorem amountUsd_tiers (rows : List AgentBillingHistory) :
    amountUsd rows = amountUsd (ofTier .FREE rows) + amountUsd (ofTier .VERIFIED rows) +
      amountUsd (ofTier .PREMIUM rows) + amountUsd (ofTier .ENTERPRISE rows) := by
  induction rows with
  | nil => simp [ofTier, amountUsd]
  | cons row rows ih =>
      unfold ofTier at ih ⊢
      cases ht : row.tier_at_event <;> simp [ht, amountUsd_cons, ih] <;> ring

theorem amountUsd_nonneg {rows : List AgentBillingHistory} (h : ∀ row ∈ rows, 0 ≤ row.amount_usd) :
    0 ≤ amountUsd rows := by
  induction rows with
  | nil => exact le_rfl
  | cons row rows ih =>
      rw [amountUsd_cons]
      have hrow := h row (List.mem_cons_self ..)
      have hrows := ih fun r hr => h r (List.mem_cons_of_mem _ hr)
      linarith

theorem amountUsd_eq_zero {rows : List AgentBillingHistory} (h : ∀ row ∈ rows, row.amount_usd = 0) :
    amountUsd rows = 0 := by
  induction rows with
  | nil => rfl
  | cons row rows ih =>
      rw [amountUsd_cons, h row (List.mem_cons_self ..),
        ih fun r hr => h r (List.mem_cons_of_mem _ hr), add_zero]

theorem le_amountUsd {rows : List AgentBillingHistory} (h : ∀ row ∈ rows, 0 ≤ row.amount_usd)
    {row : AgentBillingHistory} (hrow : row ∈ rows) : row.amount_usd ≤ amountUsd rows := by
  induction rows with
  | nil => cases hrow
  | cons r rows ih =>
      rw [amountUsd_cons]
      have hrest : ∀ r ∈ rows, 0 ≤ r.amount_usd := fun r hr => h r (List.mem_cons_of_mem _ hr)
      rcases List.mem_cons.mp hrow with rfl | hrow
      · have := amountUsd_nonneg hrest
        linarith
      · have := ih hrest hrow
        have := h r (List.mem_cons_self ..)
        linarith

theorem ofTier_append (tier : AgentTier) (rows rows' : List AgentBillingHistory) :
    ofTier tier (rows ++ rows') = ofTier tier rows ++ ofTier tier rows' := List.filter_append ..

namespace BillingAccount

def charges (a : BillingAccount) (m : ℕ) : List AgentBillingHistory := a.history.filter (·.isCharge m)

def refunds (a : BillingAccount) (m : ℕ) : List AgentBillingHistory := a.history.filter (·.isRefund m)

/-- The total amount charged to the agent for the month. -/
def charged (a : BillingAccount) (m : ℕ) : ℚ := amountUsd (a.charges m)

/-- The total amount refunded for the month. -/
def refunded (a : BillingAccount) (m : ℕ) : ℚ := amountUsd (a.refunds m)

variable {a : BillingAccount} {row : AgentBillingHistory} {m : ℕ}

theorem charges_record (h : row.isCharge m = true) :
    (a.record row).charges m = a.charges m ++ [row] := by
  show (a.history ++ [row]).filter _ = _
  rw [List.filter_append, List.filter_cons_of_pos h]
  rfl

theorem charges_record_other (h : row.isCharge m = false) :
    (a.record row).charges m = a.charges m := by
  show (a.history ++ [row]).filter _ = _
  rw [List.filter_append, List.filter_cons_of_neg (by simp [h])]
  exact List.append_nil _

theorem refunds_record (h : row.isRefund m = true) :
    (a.record row).refunds m = a.refunds m ++ [row] := by
  show (a.history ++ [row]).filter _ = _
  rw [List.filter_append, List.filter_cons_of_pos h]
  rfl

theorem refunds_record_other (h : row.isRefund m = false) :
    (a.record row).refunds m = a.refunds m := by
  show (a.history ++ [row]).filter _ = _
  rw [List.filter_append, List.filter_cons_of_neg (by simp [h])]
  exact List.append_nil _

end BillingAccount

/-! ## The invariant of a month -/

/-- The account in the month `m`, until the time `last`, when the highest price that it held is `top`.
A charge covers what could be refunded for its tier from then on. -/
structure WithinPrice (m : ℕ) (last : Time) (top : ℚ) (a : BillingAccount) : Prop where
  held : a.tier.usdPrice ≤ top
  charged : a.charged m ≤ top
  verified : (∀ row ∈ a.charges m, row.tier_at_event = .VERIFIED) → a.charged m ≤ 29
  priced : ∀ row ∈ a.charges m, ∃ t, Calendar.month t = m ∧ t ≤ last ∧
    prorated row.tier_at_event.usdPrice (Calendar.dayOfMonth t) (Calendar.daysInMonth m)
      ≤ row.amount_usd
  refunded : ∀ tier, amountUsd (ofTier tier (a.refunds m)) ≤ amountUsd (ofTier tier (a.charges m))

namespace WithinPrice

variable {m : ℕ} {last now : Time} {top top' : ℚ} {a a' : BillingAccount}

/-- The amounts of charges are not negative. -/
theorem charge_nonneg (h : WithinPrice m last top a) :
    ∀ row ∈ a.charges m, 0 ≤ row.amount_usd := by
  intro row hrow
  obtain ⟨t, rfl, -, hle⟩ := h.priced row hrow
  exact (prorated_nonneg row.tier_at_event.usdPrice_nonneg (Calendar.dayOfMonth_le t)).trans hle

theorem refunded_le (h : WithinPrice m last top a) : a.refunded m ≤ a.charged m := by
  have hfree := h.refunded .FREE
  have hverified := h.refunded .VERIFIED
  have hpremium := h.refunded .PREMIUM
  have henterprise := h.refunded .ENTERPRISE
  rw [BillingAccount.refunded, BillingAccount.charged, amountUsd_tiers (a.refunds m),
    amountUsd_tiers (a.charges m)]
  linarith

/-- A step that neither charges nor refunds. -/
theorem quiet (h : WithinPrice m last top a) (hcharges : a'.charges m = a.charges m)
    (hrefunds : a'.refunds m = a.refunds m) (hheld : a'.tier.usdPrice ≤ top') (htop : top ≤ top')
    (hlast : last ≤ now) : WithinPrice m now top' a' where
  held := hheld
  charged := by
    rw [BillingAccount.charged, hcharges]
    exact h.charged.trans htop
  verified := by
    rw [BillingAccount.charged, hcharges]
    exact h.verified
  priced := by
    rw [hcharges]
    intro row hrow
    obtain ⟨t, hm, ht, hle⟩ := h.priced row hrow
    exact ⟨t, hm, ht.trans hlast, hle⟩
  refunded := by
    rw [hcharges, hrefunds]
    exact h.refunded

theorem widen (h : WithinPrice m last top a) (htop : top ≤ top') (hlast : last ≤ now) :
    WithinPrice m now top' a := h.quiet rfl rfl (h.held.trans htop) htop hlast

/-- The first charge of the month, or one after charges for `VERIFIED` that leaves room for them. -/
theorem charge (h : WithinPrice m last top a) (row : AgentBillingHistory)
    (hcharges : a'.charges m = a.charges m ++ [row]) (hrefunds : a'.refunds m = a.refunds m)
    (hrow : row.tier_at_event = a'.tier) (hm : Calendar.month now = m)
    (hpart : prorated a'.tier.usdPrice (Calendar.dayOfMonth now) (Calendar.daysInMonth m)
      ≤ row.amount_usd) (hprice : row.amount_usd ≤ a'.tier.usdPrice)
    (hroom : a.charges m = [] ∨ a'.tier ≠ .VERIFIED ∧ 29 + row.amount_usd ≤ a'.tier.usdPrice ∧
      ∀ r ∈ a.charges m, r.tier_at_event = .VERIFIED)
    (hheld : a'.tier.usdPrice ≤ top') (hlast : last ≤ now) : WithinPrice m now top' a' := by
  have hall : a'.charged m = a.charged m + row.amount_usd := by
    rw [BillingAccount.charged, hcharges, amountUsd_append, amountUsd_singleton]
    rfl
  have hempty : a.charges m = [] → a.charged m = 0 := by
    intro hnil
    rw [BillingAccount.charged, hnil]
    rfl
  refine ⟨hheld, ?_, fun hverified => ?_, fun r hr => ?_, fun tier => ?_⟩
  · rw [hall]
    rcases hroom with hnil | ⟨-, hroom, hverified⟩
    · rw [hempty hnil]
      linarith
    · have := h.verified hverified
      linarith
  -- a charge for `VERIFIED` is the first one of the month
  · have htier : a'.tier = .VERIFIED := by
      rw [← hrow]
      apply hverified row
      rw [hcharges]
      exact List.mem_concat_self
    rcases hroom with hnil | ⟨hne, -⟩
    · rw [hall, hempty hnil]
      rw [htier] at hprice
      have : AgentTier.VERIFIED.usdPrice = 29 := rfl
      linarith
    · exact absurd htier hne
  · rw [hcharges] at hr
    rcases List.mem_append.mp hr with hr | hr
    · obtain ⟨t, hm, ht, hle⟩ := h.priced r hr
      exact ⟨t, hm, ht.trans hlast, hle⟩
    · rw [List.mem_singleton.mp hr, hrow]
      exact ⟨now, hm, le_rfl, hpart⟩
  · have hnonneg : 0 ≤ row.amount_usd := by
      subst hm
      exact (prorated_nonneg a'.tier.usdPrice_nonneg (Calendar.dayOfMonth_le now)).trans hpart
    have hmore : 0 ≤ amountUsd (ofTier tier [row]) := by
      apply amountUsd_nonneg
      intro r hr
      rw [List.mem_singleton.mp (List.mem_of_mem_filter hr)]
      exact hnonneg
    -- a charge more only adds to what covers the refunds
    have := h.refunded tier
    rw [hcharges, hrefunds, ofTier_append, amountUsd_append]
    linarith

/-- A refund of nothing, or of a charge for which nothing was refunded. -/
theorem refund (h : WithinPrice m last top a) {row : AgentBillingHistory}
    (hcharges : a'.charges m = a.charges m) (hrefunds : a'.refunds m = a.refunds m ++ [row])
    (hm : Calendar.month now = m)
    (hrow : row.amount_usd = 0 ∨
      row.amount_usd = prorated row.tier_at_event.usdPrice (Calendar.dayOfMonth now)
        (Calendar.daysInMonth m) ∧
      (∃ c ∈ a.charges m, c.tier_at_event = row.tier_at_event) ∧
      ∀ r ∈ a.refunds m, r.tier_at_event = row.tier_at_event → r.amount_usd = 0)
    (hheld : a'.tier.usdPrice ≤ top') (htop : top ≤ top') (hlast : last ≤ now) :
    WithinPrice m now top' a' := by
  have hsame : WithinPrice m now top' { a' with history := a.history } :=
    h.quiet rfl rfl hheld htop hlast
  refine ⟨hheld, ?_, ?_, ?_, fun tier => ?_⟩
  · rw [BillingAccount.charged, hcharges]
    exact hsame.charged
  · rw [BillingAccount.charged, hcharges]
    exact hsame.verified
  · rw [hcharges]
    exact hsame.priced
  · rw [hcharges, hrefunds, ofTier_append, amountUsd_append]
    have hold := h.refunded tier
    by_cases htier : row.tier_at_event = tier
    · have hone : ofTier tier [row] = [row] := List.filter_cons_of_pos (decide_eq_true htier)
      rw [hone, amountUsd_singleton]
      rcases hrow with hzero | ⟨hamount, ⟨c, hc, hct⟩, hnone⟩
      · rw [hzero, add_zero]
        exact hold
      · have hbefore : amountUsd (ofTier tier (a.refunds m)) = 0 := by
          apply amountUsd_eq_zero
          intro r hr
          obtain ⟨hr, hrt⟩ := List.mem_filter.mp hr
          exact hnone r hr ((of_decide_eq_true hrt).trans htier.symm)
        -- the charge was made on an earlier day, when more was left of the month
        obtain ⟨t, hmt, ht, hle⟩ := h.priced c hc
        have hday : Calendar.dayOfMonth t ≤ Calendar.dayOfMonth now :=
          Calendar.dayOfMonth_le_of_le (ht.trans hlast) (hmt.trans hm.symm)
        have hless := prorated_anti (Calendar.daysInMonth m) row.tier_at_event.usdPrice_nonneg hday
        have hcover : c.amount_usd ≤ amountUsd (ofTier tier (a.charges m)) := by
          apply le_amountUsd
          · exact fun r hr => h.charge_nonneg r (List.mem_of_mem_filter hr)
          · exact List.mem_filter.mpr ⟨hc, decide_eq_true (hct.trans htier)⟩
        rw [hct] at hle
        rw [hbefore, zero_add, hamount]
        exact hless.trans (hle.trans hcover)
    -- the refund is for another tier
    · have hnone : ofTier tier [row] = [] := List.filter_cons_of_neg (by simpa using htier)
      rw [hnone]
      have : amountUsd [] = 0 := rfl
      linarith

end WithinPrice

/-! ## Events -/

/-- What happens in a month: requests of agents, daily runs, and other changes of balances. -/
inductive BillingEvent where
  | upgrade (id : Id) (now : Time) (rate : Option ℚ) (new_tier : AgentTier)
  | downgrade (id : Id) (now : Time) (rate : Option ℚ) (new_tier : AgentTier)
  /-- `agents` are all agents, in the order of the query. -/
  | daily (now : Time) (rate : Option ℚ) (agents : List Id)
  | balance (id : Id) (now : Time) (available : ℚ)

namespace BillingEvent

def now : BillingEvent → Time
  | .upgrade _ now _ _ => now
  | .downgrade _ now _ _ => now
  | .daily now _ _ => now
  | .balance _ now _ => now

/-- A request that raises leaves nothing behind. -/
def onAgent (id : Id) (f : BillingAccount → Except Exn BillingAccount) (s : Id → BillingAccount) :
    Id → BillingAccount :=
  match f (s id) with
  | .ok a => Function.update s id a
  | .error _ => s

def run (s : Id → BillingAccount) : BillingEvent → Id → BillingAccount
  | .upgrade id now rate new_tier => onAgent id (upgradeTier now rate new_tier) s
  | .downgrade id now rate new_tier => onAgent id (downgradeTier now rate new_tier) s
  | .daily now rate agents => dailyRun now rate agents s
  | .balance id _ available => onAgent id (fun a => .ok { a with available }) s

/-- A query lists each agent once. -/
def Lists : BillingEvent → Prop
  | .daily _ _ agents => agents.Nodup
  | _ => True

/-- A billing run does not find the agent charged for an upgrade only. An upgrade finds that the agent
was charged for nothing in the month, or for `VERIFIED` only, on an earlier day than the first. A
downgrade that refunds finds a charge for the tier that is left, and no refund for it. -/
def Consults (id : Id) (m : ℕ) (s : Id → BillingAccount) : BillingEvent → Prop
  | .upgrade id' now _ new_tier => id' = id → (s id).tier.rank < new_tier.rank →
      (s id).charges m = [] ∨ 2 ≤ new_tier.rank ∧ 1 < Calendar.dayOfMonth now ∧
        ∀ row ∈ (s id).charges m, row.tier_at_event = .VERIFIED
  | .downgrade id' _ rate new_tier => id' = id → new_tier.rank < (s id).tier.rank → rate ≠ none →
      (∃ row ∈ (s id).charges m, row.tier_at_event = (s id).tier) ∧
        ∀ row ∈ (s id).refunds m, row.tier_at_event = (s id).tier → row.amount_usd = 0
  | .daily _ _ _ => (s id).is_active = true → (s id).tier.paid = true →
      (s id).hasMonthlyCharge m = false → (s id).charges m = []
  | .balance _ _ _ => True

end BillingEvent

/-! ### Upgrades -/

/-- What an upgrade does: nothing, or one charge. -/
theorem upgradeTier_cases {now : Time} {rate : Option ℚ} {new_tier : AgentTier}
    {a b : BillingAccount} (h : upgradeTier now rate new_tier a = .ok b) :
    b = a ∨ a.tier.rank < new_tier.rank ∧ ∃ available pico rate_applied,
      b = recordUpgradeCharge now
        (prorated new_tier.usdPrice (Calendar.dayOfMonth now)
          (Calendar.daysInMonth (Calendar.month now))) pico rate_applied new_tier
        { a with available := available, tier := new_tier, tier_grace_until := none } := by
  rw [upgradeTier] at h
  split at h
  · cases h
  · next hge =>
      split at h
      · exact .inl (Except.ok.inj h).symm
      · next hne =>
          rw [new_tier.monthlyUsd_eq, prorateCharge_eq (Calendar.one_le_dayOfMonth now)
            (Calendar.dayOfMonth_le now)] at h
          cases rate with
          | none => cases h
          | some rate =>
              simp only [bind, Except.bind] at h
              split at h
              · cases h
              · next pico hpico =>
                  unfold BillingAccount.deduct at h
                  split at h
                  · cases h
                  · next a' ha' =>
                      split at ha'
                      · cases ha'
                      · obtain rfl := Option.some.inj ha'
                        exact .inr ⟨by omega, _, pico, rate, (Except.ok.inj h).symm⟩

theorem recordUpgradeCharge_charges (now : Time) (usd : ℚ) (pico : ℤ) (rate : ℚ) (tier : AgentTier)
    (a : BillingAccount) : ∃ row : AgentBillingHistory, row.amount_usd = cents usd ∧
      row.tier_at_event = tier ∧
      (recordUpgradeCharge now usd pico rate tier a).charges (Calendar.month now)
        = a.charges (Calendar.month now) ++ [row] ∧
      (recordUpgradeCharge now usd pico rate tier a).refunds (Calendar.month now)
        = a.refunds (Calendar.month now) := by
  refine ⟨{ month_start := Calendar.month now, amount_usd := cents usd, amount_piconero := pico
            rate_applied := rate, status := .upgrade_charge, tier_at_event := tier
            created_at := now }, rfl, rfl, ?_, ?_⟩
  · exact BillingAccount.charges_record (by simp [AgentBillingHistory.isCharge])
  · exact BillingAccount.refunds_record_other (by simp [AgentBillingHistory.isRefund])

/-- The most expensive tiers have the rank 2. -/
theorem AgentTier.usdPrice_of_rank {tier : AgentTier} (h : 2 ≤ tier.rank) :
    tier.usdPrice = 999 ∧ tier ≠ .VERIFIED := by
  cases tier <;> simp_all [rank, usdPrice, premiumUsdMonthly]

theorem WithinPrice.upgrade {m : ℕ} {last now : Time} {top : ℚ} {a b : BillingAccount}
    {rate : Option ℚ} {new_tier : AgentTier} (h : WithinPrice m last top a)
    (hb : upgradeTier now rate new_tier a = .ok b) (hm : Calendar.month now = m)
    (hlast : last ≤ now)
    (hroom : a.tier.rank < new_tier.rank → a.charges m = [] ∨ 2 ≤ new_tier.rank ∧
      1 < Calendar.dayOfMonth now ∧ ∀ row ∈ a.charges m, row.tier_at_event = .VERIFIED) :
    WithinPrice m now (max top b.tier.usdPrice) b := by
  subst hm
  rcases upgradeTier_cases hb with rfl | ⟨hlt, available, pico, rate_applied, rfl⟩
  · exact h.quiet rfl rfl (le_max_right ..) (le_max_left ..) hlast
  · obtain ⟨row, hamount, htier, hcharges, hrefunds⟩ := recordUpgradeCharge_charges now
      (prorated new_tier.usdPrice (Calendar.dayOfMonth now)
        (Calendar.daysInMonth (Calendar.month now))) pico rate_applied new_tier
      { a with available := available, tier := new_tier, tier_grace_until := none }
    have hcents : row.amount_usd = prorated new_tier.usdPrice (Calendar.dayOfMonth now)
        (Calendar.daysInMonth (Calendar.month now)) := hamount.trans (cents_cents _)
    refine h.charge row hcharges hrefunds htier rfl hcents.ge ?_ ?_ (le_max_right ..) hlast
    · rw [hcents]
      exact new_tier.prorated_le (Calendar.one_le_dayOfMonth now) (Calendar.dayOfMonth_le now)
    · rcases hroom hlt with hnil | ⟨hrank, hday, hverified⟩
      · exact .inl hnil
      · obtain ⟨hprice, hne⟩ := AgentTier.usdPrice_of_rank hrank
        refine .inr ⟨hne, ?_, hverified⟩
        show 29 + row.amount_usd ≤ new_tier.usdPrice
        rw [hcents, hprice]
        exact prorated_second hday (Calendar.dayOfMonth_le now) (Calendar.daysInMonth_le _)

/-! ### Downgrades -/

/-- The refund that is recorded is the one that was computed, or zero. -/
theorem payRefund_cases {rate : Option ℚ} {refund_usd usd rate_applied : ℚ} {pico : ℤ}
    {a b : BillingAccount} (h : payRefund rate refund_usd a = .ok (usd, pico, rate_applied, b)) :
    (usd = refund_usd ∧ (rate ≠ none ∨ refund_usd ≤ 0) ∨ usd = 0) ∧
      ∃ available, b = { a with available := available } := by
  unfold payRefund at h
  split at h
  · cases rate with
    | none =>
        obtain ⟨rfl, -, -, rfl⟩ := h
        exact ⟨.inr rfl, a.available, rfl⟩
    | some rate =>
        simp only at h
        split at h
        · simp only [bind, Except.bind] at h
          split at h
          · cases h
          · obtain ⟨rfl, -, -, rfl⟩ := h
            exact ⟨.inl ⟨rfl, .inl (Option.some_ne_none _)⟩, _, rfl⟩
        · obtain ⟨rfl, -, -, rfl⟩ := h
          exact ⟨.inl ⟨rfl, .inl (Option.some_ne_none _)⟩, a.available, rfl⟩
  · next hle =>
      obtain ⟨rfl, -, -, rfl⟩ := h
      exact ⟨.inl ⟨rfl, .inr (not_lt.mp hle)⟩, a.available, rfl⟩

theorem recordDowngradeRefund_refunds (now : Time) (usd : ℚ) (pico : ℤ) (rate : ℚ) (tier : AgentTier)
    (a : BillingAccount) : ∃ row : AgentBillingHistory, row.amount_usd = cents usd ∧
      row.tier_at_event = tier ∧
      (recordDowngradeRefund now usd pico rate tier a).charges (Calendar.month now)
        = a.charges (Calendar.month now) ∧
      (recordDowngradeRefund now usd pico rate tier a).refunds (Calendar.month now)
        = a.refunds (Calendar.month now) ++ [row] := by
  refine ⟨{ month_start := Calendar.month now, amount_usd := cents usd, amount_piconero := pico
            rate_applied := rate, status := .downgrade_refund, tier_at_event := tier
            created_at := now }, rfl, rfl, ?_, ?_⟩
  · exact BillingAccount.charges_record_other (by simp [AgentBillingHistory.isCharge])
  · exact BillingAccount.refunds_record (by simp [AgentBillingHistory.isRefund])

theorem AgentTier.refundUsd_eq (now : Time) (tier : AgentTier) :
    tier.refundUsd now = .ok (prorated tier.usdPrice (Calendar.dayOfMonth now)
      (Calendar.daysInMonth (Calendar.month now))) := by
  rw [refundUsd, tier.monthlyUsd_eq]
  split
  · exact prorateCharge_eq (Calendar.one_le_dayOfMonth now) (Calendar.dayOfMonth_le now)
  · next hzero =>
      have hprice := le_antisymm (not_lt.mp hzero) tier.usdPrice_nonneg
      have hcents : cents 0 = 0 := by exact_mod_cast cents_intCast 0
      rw [hprice, prorated, zero_mul, zero_div, hcents]

/-- What a downgrade does: one refund, of the rest of the month or of nothing. -/
theorem downgradeTier_cases {now : Time} {rate : Option ℚ} {new_tier : AgentTier}
    {a b : BillingAccount} (h : downgradeTier now rate new_tier a = .ok b) :
    new_tier.rank < a.tier.rank ∧ ∃ available usd pico rate_applied,
      (usd = prorated a.tier.usdPrice (Calendar.dayOfMonth now)
        (Calendar.daysInMonth (Calendar.month now)) ∧ rate ≠ none ∨ usd = 0) ∧
      b = recordDowngradeRefund now usd pico rate_applied a.tier
        { a with available := available, tier := new_tier, tier_grace_until := none } := by
  rw [downgradeTier] at h
  split at h
  · cases h
  · next hrank =>
      simp only [a.tier.refundUsd_eq now, bind, Except.bind] at h
      split at h
      · cases h
      · next r hpaid =>
          obtain ⟨usd, pico, rate_applied, paid⟩ := r
          obtain ⟨husd, available, rfl⟩ := payRefund_cases hpaid
          refine ⟨not_le.mp hrank, available, usd, pico, rate_applied, ?_, (Except.ok.inj h).symm⟩
          rcases husd with ⟨rfl, hrate | hzero⟩ | rfl
          · exact .inl ⟨rfl, hrate⟩
          · exact .inr (le_antisymm hzero
              (prorated_nonneg a.tier.usdPrice_nonneg (Calendar.dayOfMonth_le now)))
          · exact .inr rfl

theorem WithinPrice.downgrade {m : ℕ} {last now : Time} {top : ℚ} {a b : BillingAccount}
    {rate : Option ℚ} {new_tier : AgentTier} (h : WithinPrice m last top a)
    (hb : downgradeTier now rate new_tier a = .ok b) (hm : Calendar.month now = m)
    (hlast : last ≤ now)
    (hcharge : new_tier.rank < a.tier.rank → rate ≠ none →
      (∃ row ∈ a.charges m, row.tier_at_event = a.tier) ∧
        ∀ row ∈ a.refunds m, row.tier_at_event = a.tier → row.amount_usd = 0) :
    WithinPrice m now (max top b.tier.usdPrice) b := by
  subst hm
  obtain ⟨hlt, available, usd, pico, rate_applied, husd, rfl⟩ := downgradeTier_cases hb
  obtain ⟨row, hamount, htier, hcharges, hrefunds⟩ := recordDowngradeRefund_refunds now usd pico
    rate_applied a.tier
    { a with available := available, tier := new_tier, tier_grace_until := none }
  refine h.refund hcharges hrefunds rfl ?_ (le_max_right ..) (le_max_left ..) hlast
  rcases husd with ⟨rfl, hrate⟩ | rfl
  · refine .inr ⟨?_, ?_⟩
    · rw [hamount, htier]
      exact cents_cents _
    · rw [htier]
      exact hcharge hlt hrate
  · left
    rw [hamount]
    exact_mod_cast cents_intCast 0

/-! ### Daily runs -/

/-- What the billing run does with an agent: nothing, a grace period, or a charge. -/
theorem billAgent_cases {now : Time} {rate : ℚ} {a b : BillingAccount}
    (h : billAgent now rate a = .ok b) :
    b = a ∨ (∃ pico, b = startGracePeriod now rate a.tier.usdPrice pico a) ∨
      a.hasMonthlyCharge (Calendar.month now) = false ∧ ∃ available pico,
        b = { a with available := available, tier_grace_until := none }.record
          { month_start := Calendar.month now, amount_usd := cents a.tier.usdPrice
            amount_piconero := pico, rate_applied := rate, status := .monthly_charge
            tier_at_event := a.tier, created_at := now } := by
  unfold billAgent at h
  split at h
  · exact .inl (Except.ok.inj h).symm
  · next hnot =>
      simp only [bind, Except.bind] at h
      split at h
      · exact .inl (Except.ok.inj h).symm
      · split at h
        · cases h
        · next pico hpico =>
            split at h
            · exact .inr (.inl ⟨pico, (Except.ok.inj h).symm⟩)
            · next a' ha' =>
                unfold BillingAccount.deduct at ha'
                split at ha'
                · cases ha'
                · obtain rfl := Option.some.inj ha'
                  exact .inr (.inr ⟨by simpa using hnot, _, pico, (Except.ok.inj h).symm⟩)

theorem WithinPrice.billed {m : ℕ} {last now : Time} {top rate : ℚ} {a b : BillingAccount}
    (h : WithinPrice m last top a) (hb : billAgent now rate a = .ok b)
    (hm : Calendar.month now = m) (hlast : last ≤ now)
    (hroom : a.hasMonthlyCharge m = false → a.charges m = []) :
    WithinPrice m now top b := by
  subst hm
  rcases billAgent_cases hb with rfl | ⟨pico, rfl⟩ | ⟨hnot, available, pico, rfl⟩
  · exact h.widen le_rfl hlast
  · refine h.quiet ?_ ?_ h.held le_rfl hlast
    · exact BillingAccount.charges_record_other (by simp [AgentBillingHistory.isCharge])
    · exact BillingAccount.refunds_record_other (by simp [AgentBillingHistory.isRefund])
  · refine h.charge
      { month_start := Calendar.month now, amount_usd := cents a.tier.usdPrice
        amount_piconero := pico, rate_applied := rate, status := .monthly_charge
        tier_at_event := a.tier, created_at := now } ?_ ?_ rfl rfl ?_ ?_ (.inl (hroom hnot))
      h.held hlast
    · exact BillingAccount.charges_record (by simp [AgentBillingHistory.isCharge])
    · exact BillingAccount.refunds_record_other (by simp [AgentBillingHistory.isRefund])
    · show prorated a.tier.usdPrice _ _ ≤ cents a.tier.usdPrice
      rw [a.tier.cents_usdPrice]
      exact a.tier.prorated_le (Calendar.one_le_dayOfMonth now) (Calendar.dayOfMonth_le now)
    · exact a.tier.cents_usdPrice.le

theorem WithinPrice.expired {m : ℕ} {now : Time} {top : ℚ} {a : BillingAccount}
    (h : WithinPrice m now top a) :
    WithinPrice m now (max top (downgradeExpired now a).tier.usdPrice) (downgradeExpired now a) := by
  refine h.quiet ?_ ?_ (le_max_right ..) (le_max_left ..) le_rfl
  · exact BillingAccount.charges_record_other (by simp [AgentBillingHistory.isCharge])
  · exact BillingAccount.refunds_record_other (by simp [AgentBillingHistory.isRefund])

theorem WithinPrice.daily {id : Id} {m : ℕ} {last now : Time} {top : ℚ} {rate : Option ℚ}
    {agents : List Id} {s : Id → BillingAccount} (h : WithinPrice m last top (s id))
    (hagents : agents.Nodup) (hm : Calendar.month now = m) (hlast : last ≤ now)
    (hroom : (s id).is_active = true → (s id).tier.paid = true →
      (s id).hasMonthlyCharge m = false → (s id).charges m = []) :
    WithinPrice m now (max top (dailyRun now rate agents s id).tier.usdPrice)
      (dailyRun now rate agents s id) := by
  unfold dailyRun billProSubscriptions
  cases rate with
  | none => exact h.widen (le_max_left ..) hlast
  | some rate =>
      simp only [Except.bind]
      cases hbill : forAgents (billAgent now rate)
          (agents.filter fun j => (s j).is_active ∧ (s j).tier.paid) s with
      | error e => exact h.widen (le_max_left ..) hlast
      | ok s₂ =>
          have hbilled : WithinPrice m now top (s₂ id) := by
            obtain ⟨hin, hout⟩ := forAgents_ok (hagents.filter _) hbill id
            by_cases hid : id ∈ agents.filter fun j => (s j).is_active ∧ (s j).tier.paid
            · obtain ⟨hactive, hpaid⟩ := of_decide_eq_true (List.mem_filter.mp hid).2
              exact h.billed (hin hid) hm hlast (hroom hactive hpaid)
            · rw [hout hid]
              exact h.widen le_rfl hlast
          simp only
          cases hsweep : handleGraceExpiry now agents s₂ with
          | error e => exact h.widen (le_max_left ..) hlast
          | ok s₃ =>
              simp only
              obtain ⟨hin, hout⟩ := forAgents_ok (hagents.filter _) hsweep id
              by_cases hid : id ∈ agents.filter fun j => (s₂ j).graceExpired now
              · rw [← Except.ok.inj (hin hid)]
                exact hbilled.expired
              · rw [hout hid]
                exact hbilled.widen (le_max_left ..) le_rfl

namespace BillingEvent

variable {id : Id} {m : ℕ} {last : Time} {top : ℚ} {s : Id → BillingAccount}

/-- A request concerns its own agent only, and leaves nothing behind when it raises. -/
theorem onAgent_within {id' : Id} {now : Time} {f : BillingAccount → Except Exn BillingAccount}
    (h : WithinPrice m last top (s id)) (hlast : last ≤ now)
    (hf : ∀ b, id' = id → f (s id) = .ok b → WithinPrice m now (max top b.tier.usdPrice) b) :
    WithinPrice m now (max top (onAgent id' f s id).tier.usdPrice) (onAgent id' f s id) := by
  unfold onAgent
  cases hb : f (s id') with
  | error e => exact h.widen (le_max_left ..) hlast
  | ok b =>
      simp only
      by_cases hid : id = id'
      · subst hid
        rw [Function.update_self]
        exact hf b rfl hb
      · rw [Function.update_of_ne hid]
        exact h.widen (le_max_left ..) hlast

/-- **The step lemma.** -/
theorem run_within (h : WithinPrice m last top (s id)) (e : BillingEvent)
    (hm : Calendar.month e.now = m) (hlast : last ≤ e.now) (hlists : e.Lists)
    (hcond : e.Consults id m s) :
    WithinPrice m e.now (max top (e.run s id).tier.usdPrice) (e.run s id) := by
  cases e with
  | upgrade id' now rate new_tier =>
      apply onAgent_within h hlast
      intro b hid hb
      exact h.upgrade hb hm hlast (hcond hid)
  | downgrade id' now rate new_tier =>
      apply onAgent_within h hlast
      intro b hid hb
      exact h.downgrade hb hm hlast (hcond hid)
  | daily now rate agents => exact h.daily hlists hm hlast hcond
  | balance id' now available =>
      apply onAgent_within h hlast
      intro b _ hb
      obtain rfl := Except.ok.inj hb
      exact h.quiet rfl rfl (le_max_right ..) (le_max_left ..) hlast

def runAll (s : Id → BillingAccount) (events : List BillingEvent) : Id → BillingAccount :=
  events.foldl run s

/-- Every event of the run meets the condition when it happens. -/
def ConsultsAll (id : Id) (m : ℕ) : (Id → BillingAccount) → List BillingEvent → Prop
  | _, [] => True
  | s, e :: events => e.Consults id m s ∧ ConsultsAll id m (e.run s) events

/-- The monthly price of the highest tier that the agent holds, at the beginning or later on. -/
def highestPrice (id : Id) : (Id → BillingAccount) → List BillingEvent → ℚ
  | s, [] => (s id).tier.usdPrice
  | s, e :: events => max (s id).tier.usdPrice (highestPrice id (e.run s) events)

theorem le_highestPrice (id : Id) (s : Id → BillingAccount) (events : List BillingEvent) :
    (s id).tier.usdPrice ≤ highestPrice id s events := by
  cases events with
  | nil => exact le_rfl
  | cons e events => exact le_max_left ..

/-- The run lemma. -/
theorem runAll_within {events : List BillingEvent} (h : WithinPrice m last top (s id))
    (hm : ∀ e ∈ events, Calendar.month e.now = m) (hlast : ∀ e ∈ events, last ≤ e.now)
    (horder : (events.map now).Pairwise (· ≤ ·)) (hlists : ∀ e ∈ events, e.Lists)
    (hcond : ConsultsAll id m s events) :
    ∃ t, WithinPrice m t (max top (highestPrice id s events)) (runAll s events id) := by
  induction events generalizing s last top with
  | nil => exact ⟨last, h.widen (le_max_left ..) le_rfl⟩
  | cons e events ih =>
      obtain ⟨hfirst, horder⟩ := List.pairwise_cons.mp horder
      have hstep := run_within h e (hm e (List.mem_cons_self ..)) (hlast e (List.mem_cons_self ..))
        (hlists e (List.mem_cons_self ..)) hcond.1
      obtain ⟨t, ht⟩ := ih hstep (fun e' he' => hm e' (List.mem_cons_of_mem _ he'))
        (fun e' he' => hfirst e'.now (List.mem_map_of_mem he')) horder
        (fun e' he' => hlists e' (List.mem_cons_of_mem _ he')) hcond.2
      refine ⟨t, ht.widen ?_ le_rfl⟩
      have hnext : highestPrice id (e.run s) events ≤ highestPrice id s (e :: events) :=
        le_max_right ..
      have hprice := le_highestPrice id (e.run s) events
      apply max_le
      · exact max_le (le_max_left ..) (hprice.trans (hnext.trans (le_max_right ..)))
      · exact hnext.trans (le_max_right ..)

/-- **What a month costs.** In a month whose events consult the history, an agent is charged no more
than the price of the highest tier that it held, and refunded no more than it was charged. -/
theorem charges_within_price {events : List BillingEvent}
    (hnew : ∀ row ∈ (s id).history, row.month_start ≠ m)
    (hm : ∀ e ∈ events, Calendar.month e.now = m) (horder : (events.map now).Pairwise (· ≤ ·))
    (hlists : ∀ e ∈ events, e.Lists) (hcond : ConsultsAll id m s events) :
    (runAll s events id).charged m ≤ highestPrice id s events ∧
      (runAll s events id).refunded m ≤ (runAll s events id).charged m := by
  have hcharges : (s id).charges m = [] := by
    apply List.filter_eq_nil_iff.mpr
    intro row hrow hcharge
    exact hnew row hrow (of_decide_eq_true hcharge).1
  have hrefunds : (s id).refunds m = [] := by
    apply List.filter_eq_nil_iff.mpr
    intro row hrow hrefund
    exact hnew row hrow (of_decide_eq_true hrefund).1
  have hzero : (s id).charged m = 0 := by
    rw [BillingAccount.charged, hcharges]
    rfl
  have hstart : ∀ t, WithinPrice m t (s id).tier.usdPrice (s id) := by
    intro t
    refine ⟨le_rfl, ?_, fun _ => ?_, ?_, fun tier => ?_⟩
    · rw [hzero]
      exact AgentTier.usdPrice_nonneg _
    · rw [hzero]
      norm_num
    · rw [hcharges]
      exact fun row hrow => by cases hrow
    · rw [hcharges, hrefunds]
  have hfirst : ∃ t, ∀ e ∈ events, t ≤ e.now := by
    cases events with
    | nil => exact ⟨0, fun e he => by cases he⟩
    | cons e events =>
        refine ⟨e.now, fun e' he' => ?_⟩
        rcases List.mem_cons.mp he' with rfl | he'
        · exact le_rfl
        · exact List.rel_of_pairwise_cons horder (List.mem_map_of_mem he')
  obtain ⟨t, ht⟩ := hfirst
  obtain ⟨t', h⟩ := runAll_within (hstart t) hm ht horder hlists hcond
  rw [max_eq_right (le_highestPrice id s events)] at h
  exact ⟨h.charged, h.refunded_le⟩

/-! ## Runs on fixed inputs -/

/-- Agents that have enough, on the tier `tier`. -/
def richAgents (tier : AgentTier) (_ : Id) : BillingAccount := { tier, available := 1000 }

/-- A charge on the first day, an upgrade on the tenth and a downgrade on the twentieth. -/
def upAndDown : List BillingEvent :=
  [.daily 0 (some 100) [1], .upgrade 1 (hours 216) (some 100) .PREMIUM,
    .downgrade 1 (hours 456) (some 100) .FREE]

theorem charges_within_price_refunded :
    (runAll (richAgents .VERIFIED) upAndDown 1).charged 0
        ≤ highestPrice 1 (richAgents .VERIFIED) upAndDown ∧
      (runAll (richAgents .VERIFIED) upAndDown 1).refunded 0
        ≤ (runAll (richAgents .VERIFIED) upAndDown 1).charged 0 := by
  refine charges_within_price (fun row hrow => by cases hrow) (by decide +kernel)
    (by decide +kernel) ?_ ?_
  · simp [upAndDown, Lists]
  · refine ⟨fun _ _ _ => rfl, fun _ _ => .inr ?_, fun _ _ _ => ?_, trivial⟩
    · decide +kernel
    · decide +kernel

/-- An upgrade in the middle of the month, and a billing run on the next day. -/
theorem charged_twice : ¬∀ (id : Id) (m : ℕ) (s : Id → BillingAccount) (events : List BillingEvent),
    (∀ row ∈ (s id).history, row.month_start ≠ m) → (∀ e ∈ events, Calendar.month e.now = m) →
    (events.map now).Pairwise (· ≤ ·) → (∀ e ∈ events, e.Lists) →
    (runAll s events id).charged m ≤ highestPrice id s events ∧
      (runAll s events id).refunded m ≤ (runAll s events id).charged m := by
  intro h
  have hcap := (h 1 0 (richAgents .FREE)
    [.upgrade 1 (hours 336) (some 100) .PREMIUM, .daily (hours 360) (some 100) [1]]
    (fun row hrow => by cases hrow) (by decide +kernel) (by decide +kernel)
    (by simp [Lists])).1
  have hmore : ¬(runAll (richAgents .FREE)
      [.upgrade 1 (hours 336) (some 100) .PREMIUM, .daily (hours 360) (some 100) [1]] 1).charged 0
      ≤ highestPrice 1 (richAgents .FREE)
        [.upgrade 1 (hours 336) (some 100) .PREMIUM, .daily (hours 360) (some 100) [1]] := by
    decide +kernel
  exact hmore hcap

end BillingEvent

end Sthrip
