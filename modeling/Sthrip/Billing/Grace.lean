import Sthrip.Services.SubscriptionBilling
import Mathlib.Data.List.Nodup
import Mathlib.Tactic.Linarith

set_option autoImplicit false

/-! # The end of a grace period

A charge that fails starts a grace period of seven days, and the sweep at the end of each daily run
downgrades the accounts whose grace period is over. But every run first tries the charge again, and
a charge that fails again starts the grace period anew. So an account that cannot pay stays on its
tier for ever.
-/

namespace Sthrip

open Txn

/-! ## Loops over the agents -/

/-- What a loop leaves: each agent of the list was treated once. -/
theorem forAgents_ok {f : BillingAccount → Except Exn BillingAccount} {l : List Id}
    {s s' : Id → BillingAccount} (hl : l.Nodup) (h : forAgents f l s = .ok s') (id : Id) :
    (id ∈ l → f (s id) = .ok (s' id)) ∧ (id ∉ l → s' id = s id) := by
  induction l generalizing s with
  | nil =>
      rw [forAgents, Except.ok.injEq] at h
      exact ⟨fun hid => (by cases hid), fun _ => by rw [h]⟩
  | cons a l ih =>
      obtain ⟨hal, hl⟩ := List.nodup_cons.mp hl
      rw [forAgents] at h
      cases hf : f (s a) with
      | error e =>
          rw [hf] at h
          cases h
      | ok b =>
          rw [hf] at h
          obtain ⟨hin, hout⟩ := ih hl h
          by_cases hid : id = a
          · subst hid
            have hkept := hout hal
            rw [Function.update_self] at hkept
            exact ⟨fun _ => by rw [hkept, hf], fun hnot => absurd (List.mem_cons_self ..) hnot⟩
          · rw [Function.update_of_ne hid] at hin hout
            exact ⟨fun hmem => hin ((List.mem_cons.mp hmem).resolve_left hid),
              fun hnot => hout fun hmem => hnot (List.mem_cons_of_mem a hmem)⟩

/-- A loop whose body does not raise does not raise. -/
theorem forAgents_total {f : BillingAccount → Except Exn BillingAccount}
    (hf : ∀ a, ∃ b, f a = .ok b) (l : List Id) (s : Id → BillingAccount) :
    ∃ s', forAgents f l s = .ok s' := by
  induction l generalizing s with
  | nil => exact ⟨s, rfl⟩
  | cons a l ih =>
      obtain ⟨b, hb⟩ := hf (s a)
      obtain ⟨s', hs'⟩ := ih (Function.update s a b)
      exact ⟨s', by rw [forAgents, hb]; exact hs'⟩

/-! ## A charge that fails -/

/-- The price of a month in XMR. -/
def AgentTier.xmrPrice (tier : AgentTier) (rate : ℚ) : ℚ :=
  piconeroToXmr (roundHalfEven (tier.usdPrice / rate * 10 ^ 12))

theorem AgentTier.usdPrice_pos {tier : AgentTier} (h : tier.paid = true) : 0 < tier.usdPrice := by
  cases tier with
  | FREE => simp [paid] at h
  | VERIFIED => norm_num [usdPrice, verifiedUsdMonthly]
  | PREMIUM => norm_num [usdPrice, premiumUsdMonthly]
  | ENTERPRISE => norm_num [usdPrice, premiumUsdMonthly]

/-- A paying account that has not been charged for the month `m`, nor for a later one. -/
structure BillingAccount.Owing (m : ℕ) (tier : AgentTier) (a : BillingAccount) : Prop where
  active : a.is_active = true
  tier_eq : a.tier = tier
  paid : tier.paid = true
  uncharged : ∀ row ∈ a.history, row.status = .monthly_charge → row.month_start < m

namespace BillingAccount.Owing

variable {m : ℕ} {tier : AgentTier} {a : BillingAccount} {now : Time} {rate : ℚ}

theorem hasMonthlyCharge (h : a.Owing m tier) (hm : m ≤ Calendar.month now) :
    a.hasMonthlyCharge (Calendar.month now) = false := by
  unfold BillingAccount.hasMonthlyCharge
  rw [List.any_eq_false]
  intro row hrow hcharge
  obtain ⟨hmonth, hstatus⟩ := of_decide_eq_true hcharge
  have := h.uncharged row hrow hstatus
  omega

/-- The charge fails and starts a grace period. -/
theorem billAgent (h : a.Owing m tier) (hm : m ≤ Calendar.month now) (hrate : 0 < rate)
    (hshort : a.available < tier.xmrPrice rate) :
    Sthrip.billAgent now rate a = .ok (startGracePeriod now rate tier.usdPrice
      (roundHalfEven (tier.usdPrice / rate * 10 ^ 12)) a) := by
  have hprice : ¬tier.usdPrice ≤ 0 := not_le.mpr (AgentTier.usdPrice_pos h.paid)
  have hpico : usdToXmrPiconero tier.usdPrice rate
      = .ok (roundHalfEven (tier.usdPrice / rate * 10 ^ 12)) := if_neg (not_le.mpr hrate)
  have hdeduct : a.deduct (piconeroToXmr (roundHalfEven (tier.usdPrice / rate * 10 ^ 12))) = none :=
    if_pos hshort
  rw [Sthrip.billAgent, h.hasMonthlyCharge hm, if_neg Bool.false_ne_true, h.tier_eq]
  simp only [hprice, if_false, hpico, bind, Except.bind, hdeduct]
  rfl

theorem startGracePeriod (h : a.Owing m tier) (usd : ℚ) (pico : ℤ) :
    (Sthrip.startGracePeriod now rate usd pico a).Owing m tier := by
  refine ⟨h.active, h.tier_eq, h.paid, fun row hrow hstatus => ?_⟩
  rcases List.mem_append.mp hrow with hrow | hrow
  · exact h.uncharged row hrow hstatus
  · rw [List.mem_singleton.mp hrow] at hstatus
    cases hstatus

end BillingAccount.Owing

/-! ## Runs -/

/-- A run of the daily loop: when, at which rate, over which agents, and what they have. -/
structure BillingRun where
  now : Time
  rate : Option ℚ
  agents : List Id
  balances : Id → ℚ

namespace BillingRun

/-- Between two runs balances change. -/
def apply (r : BillingRun) (s : Id → BillingAccount) : Id → BillingAccount :=
  dailyRun r.now r.rate r.agents fun id => { s id with available := r.balances id }

def applyAll (s : Id → BillingAccount) (runs : List BillingRun) : Id → BillingAccount :=
  runs.foldl (fun s r => r.apply s) s

/-- The run lists the agent, which cannot pay its price. -/
structure Short (id : Id) (tier : AgentTier) (r : BillingRun) : Prop where
  nodup : r.agents.Nodup
  mem : id ∈ r.agents
  short : ∀ rate ∈ r.rate, r.balances id < tier.xmrPrice rate

variable {id : Id} {tier : AgentTier} {m : ℕ} {s : Id → BillingAccount} {r : BillingRun}

/-- A billing run at a rate that is not positive raises, or has nobody to bill. -/
theorem billAgent_error {rate : ℚ} {now : Time} {a b : BillingAccount} (h : a.Owing m tier)
    (hm : m ≤ Calendar.month now) (hrate : rate ≤ 0) : billAgent now rate a ≠ .ok b := by
  have hprice : ¬tier.usdPrice ≤ 0 := not_le.mpr (AgentTier.usdPrice_pos h.paid)
  have hpico : usdToXmrPiconero tier.usdPrice rate
      = .error (.ValueError "Invalid XMR/USD rate: %s" [.dec rate]) := if_pos hrate
  rw [billAgent, h.hasMonthlyCharge hm, if_neg Bool.false_ne_true, h.tier_eq]
  simp [hprice, hpico, bind, Except.bind]

theorem billAgent_total {rate : ℚ} (hrate : 0 < rate) (now : Time) (a : BillingAccount) :
    ∃ b, billAgent now rate a = .ok b := by
  have hpico : usdToXmrPiconero a.tier.usdPrice rate
      = .ok (roundHalfEven (a.tier.usdPrice / rate * 10 ^ 12)) := if_neg (not_le.mpr hrate)
  unfold billAgent
  split
  · exact ⟨a, rfl⟩
  · simp only [hpico, bind, Except.bind]
    split
    · exact ⟨a, rfl⟩
    · split
      · exact ⟨_, rfl⟩
      · exact ⟨_, rfl⟩

/-- The sweep does not find an account whose grace period has just begun. -/
theorem handleGraceExpiry_begun {now : Time} {agents : List Id} (hnodup : agents.Nodup)
    {s : Id → BillingAccount} (hgrace : (s id).tier_grace_until = some (now + gracePeriod)) :
    ∃ s', handleGraceExpiry now agents s = .ok s' ∧ s' id = s id := by
  have htotal : ∀ a, ∃ b, (fun a => Except.ok (downgradeExpired now a) : BillingAccount →
      Except Exn BillingAccount) a = .ok b := fun a => ⟨_, rfl⟩
  obtain ⟨s', hs'⟩ := forAgents_total htotal (agents.filter fun j => (s j).graceExpired now) s
  refine ⟨s', hs', (forAgents_ok (hnodup.filter _) hs' id).2 ?_⟩
  intro hmem
  have hexp := (List.mem_filter.mp hmem).2
  simp only [BillingAccount.graceExpired, hgrace, Option.any_some, Bool.decide_and,
    Bool.and_eq_true, decide_eq_true_eq] at hexp
  have hlt : now + gracePeriod < now := hexp.2.2
  have : (0 : ℤ) < gracePeriod := by decide
  linarith

/-- **The step lemma.** A run that cannot charge the agent leaves it on its tier. When the rate is
known, the grace period starts anew. -/
theorem apply_owing (h : (s id).Owing m tier) (hshort : r.Short id tier)
    (hm : m ≤ Calendar.month r.now) :
    (r.apply s id).Owing m tier ∧ ∀ rate ∈ r.rate, 0 < rate →
      (r.apply s id).tier_grace_until = some (r.now + gracePeriod) := by
  have howing : ({ s id with available := r.balances id } : BillingAccount).Owing m tier :=
    ⟨h.active, h.tier_eq, h.paid, h.uncharged⟩
  have hlisted : id ∈ r.agents.filter fun j => (s j).is_active ∧ (s j).tier.paid := by
    refine List.mem_filter.mpr ⟨hshort.mem, ?_⟩
    rw [h.tier_eq]
    simp [h.active, h.paid]
  unfold apply dailyRun billProSubscriptions
  cases hr : r.rate with
  -- without a rate nobody is billed
  | none => exact ⟨howing, fun rate hrate => by cases hrate⟩
  | some rate =>
      simp only
      cases hbill : forAgents (billAgent r.now rate)
          (r.agents.filter fun j => (s j).is_active ∧ (s j).tier.paid)
          fun j => { s j with available := r.balances j } with
      | error e =>
          refine ⟨howing, fun rate' hrate' hpos => ?_⟩
          obtain rfl := Option.mem_some_iff.mp hrate'
          -- a run at a positive rate does not raise
          obtain ⟨s', hs'⟩ := forAgents_total (billAgent_total hpos r.now)
            (r.agents.filter fun j => (s j).is_active ∧ (s j).tier.paid)
            fun j => { s j with available := r.balances j }
          rw [hbill] at hs'
          cases hs'
      | ok s₂ =>
          have hbilled := (forAgents_ok (hshort.nodup.filter _) hbill id).1 hlisted
          have hpos : 0 < rate := by
            by_contra hle
            exact billAgent_error howing hm (not_lt.mp hle) hbilled
          have hlow : r.balances id < tier.xmrPrice rate := hshort.short rate hr
          rw [howing.billAgent hm hpos hlow, Except.ok.injEq] at hbilled
          have hgrace : (s₂ id).tier_grace_until = some (r.now + gracePeriod) := by
            rw [← hbilled]
            rfl
          have hkept : (s₂ id).Owing m tier := by
            rw [← hbilled]
            exact howing.startGracePeriod _ _
          obtain ⟨s₃, hsweep, hsame⟩ :=
            handleGraceExpiry_begun hshort.nodup hgrace
          simp only [Except.bind, hsweep]
          rw [hsame]
          exact ⟨hkept, fun rate' hrate' _ => hgrace⟩

/-- The run lemma. -/
theorem applyAll_owing {runs : List BillingRun} (h : (s id).Owing m tier)
    (hshort : ∀ r ∈ runs, r.Short id tier) (hm : ∀ r ∈ runs, m ≤ Calendar.month r.now) :
    (applyAll s runs id).Owing m tier := by
  induction runs generalizing s with
  | nil => exact h
  | cons r runs ih =>
      exact ih (apply_owing h (hshort r (List.mem_cons_self ..)) (hm r (List.mem_cons_self ..))).1
        (fun r' hr' => hshort r' (List.mem_cons_of_mem r hr'))
        fun r' hr' => hm r' (List.mem_cons_of_mem r hr')

/-- **When a grace period ends.** An agent that was not charged for the month of the first run, and
cannot pay from then on, starts a grace period in the first run. Every run that comes after the end
of this grace period leaves it on the free tier iff there is no such run. -/
theorem grace_ends_iff {first : BillingRun} {rest : List BillingRun} {rate : ℚ}
    (howing : (s id).Owing (Calendar.month first.now) tier) (hrate : first.rate = some rate)
    (hpos : 0 < rate) (hshort : ∀ r ∈ first :: rest, r.Short id tier)
    (hnow : ∀ r ∈ rest, first.now ≤ r.now) :
    (first.apply s id).tier_grace_until = some (first.now + gracePeriod) ∧
      ((∀ pre r post, first :: rest = pre ++ r :: post → first.now + gracePeriod < r.now →
        (applyAll s (pre ++ [r]) id).tier = .FREE) ↔
      ∀ r ∈ rest, r.now ≤ first.now + gracePeriod) := by
  have hgrace : (0 : ℤ) < gracePeriod := by decide
  have hmonth : ∀ r ∈ first :: rest, Calendar.month first.now ≤ Calendar.month r.now := by
    intro r hr
    rcases List.mem_cons.mp hr with rfl | hr
    · exact le_rfl
    · exact Calendar.month_mono (hnow r hr)
  refine ⟨(apply_owing howing (hshort first (List.mem_cons_self ..)) le_rfl).2 rate hrate hpos, ?_⟩
  constructor
  · intro hfree r hr
    by_contra hlate
    -- a run after the end of the grace period finds the account on its tier
    obtain ⟨pre, post, heq⟩ := List.append_of_mem (List.mem_cons_of_mem first hr)
    have htier := hfree pre r post heq (not_le.mp hlate)
    have hmem : ∀ r' ∈ pre ++ [r], r' ∈ first :: rest := by
      intro r' hr'
      rw [heq]
      rcases List.mem_append.mp hr' with hr' | hr'
      · exact List.mem_append_left _ hr'
      · rw [List.mem_singleton.mp hr']
        exact List.mem_append_right _ (List.mem_cons_self ..)
    have hstill := applyAll_owing howing (fun r' hr' => hshort r' (hmem r' hr'))
      fun r' hr' => hmonth r' (hmem r' hr')
    have hpaid := hstill.paid
    rw [← hstill.tier_eq, htier] at hpaid
    cases hpaid
  · intro hearly pre r post heq hlate
    have hmem : r ∈ first :: rest := by
      rw [heq]
      exact List.mem_append_right _ (List.mem_cons_self ..)
    rcases List.mem_cons.mp hmem with rfl | hr
    · linarith
    · exact absurd (hearly r hr) (not_le.mpr hlate)

section Runs

/-- An agent on the tier `VERIFIED` that was never charged. -/
def unpaid (_ : Id) : BillingAccount := { tier := .VERIFIED }

/-- A run over the agent 1, which has nothing. One XMR is worth the price of a month. -/
def emptyRun (now : Time) : BillingRun :=
  { now, rate := some 29, agents := [1], balances := fun _ => 0 }

theorem unpaid_owing (m : ℕ) : (unpaid 1).Owing m .VERIFIED :=
  ⟨rfl, rfl, rfl, fun _ hrow => by cases hrow⟩

theorem emptyRun_short (now : Time) : (emptyRun now).Short 1 .VERIFIED := by
  refine ⟨List.nodup_singleton 1, List.mem_singleton.mpr rfl, fun rate hrate => ?_⟩
  obtain rfl : (29 : ℚ) = rate := Option.mem_some_iff.mp hrate
  have hone : (AgentTier.VERIFIED.usdPrice / 29 * 10 ^ 12 : ℚ) = ((1000000000000 : ℤ) : ℚ) := by
    norm_num [AgentTier.usdPrice, verifiedUsdMonthly]
  show (0 : ℚ) < AgentTier.VERIFIED.xmrPrice 29
  rw [AgentTier.xmrPrice, hone, roundHalfEven_intCast]
  norm_num [piconeroToXmr]

/-- Two runs in a week: there is no run after the grace period. -/
theorem grace_ends_within_a_week :
    ((emptyRun 0).apply unpaid 1).tier_grace_until = some (0 + gracePeriod) ∧
      ((∀ pre r post, [emptyRun 0, emptyRun (hours 24)] = pre ++ r :: post → 0 + gracePeriod < r.now →
        (applyAll unpaid (pre ++ [r]) 1).tier = .FREE) ↔
      ∀ r ∈ [emptyRun (hours 24)], r.now ≤ 0 + gracePeriod) := by
  refine grace_ends_iff (unpaid_owing _) (show (emptyRun 0).rate = some 29 from rfl) (by norm_num) ?_
    ?_
  · intro r hr
    rcases List.mem_cons.mp hr with rfl | hr
    · exact emptyRun_short 0
    · rw [List.mem_singleton.mp hr]
      exact emptyRun_short _
  · intro r hr
    rw [List.mem_singleton.mp hr]
    decide

/-- A second run comes eight days later, and the agent keeps its tier. -/
theorem grace_does_not_end : ¬∀ (s : Id → BillingAccount) (first : BillingRun)
    (rest : List BillingRun), (s 1).Owing (Calendar.month first.now) .VERIFIED →
    first.rate = some 29 → (∀ r ∈ first :: rest, r.Short 1 .VERIFIED) →
    (∀ r ∈ rest, first.now ≤ r.now) →
    ∀ pre r post, first :: rest = pre ++ r :: post → first.now + gracePeriod < r.now →
      (applyAll s (pre ++ [r]) 1).tier = .FREE := by
  intro h
  have hshort : ∀ r ∈ [emptyRun 0, emptyRun (hours 192)], r.Short 1 .VERIFIED := by
    intro r hr
    rcases List.mem_cons.mp hr with rfl | hr
    · exact emptyRun_short 0
    · rw [List.mem_singleton.mp hr]
      exact emptyRun_short _
  have hfree := h unpaid (emptyRun 0) [emptyRun (hours 192)] (unpaid_owing _) rfl hshort
    (fun r hr => by rw [List.mem_singleton.mp hr]; decide) [emptyRun 0] (emptyRun (hours 192)) [] rfl
    (by decide)
  have howing : (applyAll unpaid [emptyRun 0, emptyRun (hours 192)] 1).Owing 0 .VERIFIED :=
    applyAll_owing (unpaid_owing 0) hshort fun r _ => Nat.zero_le _
  have htier := howing.tier_eq
  rw [show [emptyRun 0, emptyRun (hours 192)] = [emptyRun 0] ++ [emptyRun (hours 192)] from rfl,
    hfree] at htier
  cases htier

end Runs

end BillingRun

end Sthrip
