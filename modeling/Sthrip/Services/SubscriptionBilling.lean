import Sthrip.Billing.Calendar
import Sthrip.Db.Models

set_option autoImplicit false

/-! # Subscription billing

`sthrip/services/subscription_billing_service.py`. An account is an agent's row, as far as its tier
goes, with its available XMR and its rows in `agent_billing_history`. The rate is what
`get_xmr_usd_rate` returns, or `none` when it raises. The audit log is left out.
-/

namespace Sthrip

open Txn

inductive BillingStatus where
  | monthly_charge | monthly_grace_started | monthly_grace_expired_downgrade | upgrade_charge
  | downgrade_refund
  deriving DecidableEq, Repr

/-- A row of `agent_billing_history`. -/
structure AgentBillingHistory where
  /-- The month, counted as the calendar does. -/
  month_start : ℕ
  amount_usd : ℚ
  amount_piconero : ℤ
  rate_applied : ℚ
  status : BillingStatus
  tier_at_event : AgentTier
  created_at : Time
  deriving DecidableEq

structure BillingAccount where
  is_active : Bool := true
  tier : AgentTier := .FREE
  tier_grace_until : Option Time := none
  available : ℚ := 0
  history : List AgentBillingHistory := []

/-! ## Prices -/

def verifiedUsdMonthly : ℚ := 29
def premiumUsdMonthly : ℚ := 999
def freeUsdMonthly : ℚ := 0

/-- `timedelta(days=GRACE_PERIOD_DAYS)` -/
def gracePeriod : Time := hours (24 * 7)

/-- `_TIER_USD_PRICE` -/
def AgentTier.usdPrice : AgentTier → ℚ
  | FREE => freeUsdMonthly
  | VERIFIED => verifiedUsdMonthly
  | PREMIUM => premiumUsdMonthly
  | ENTERPRISE => premiumUsdMonthly

/-- `tier in PAID_TIERS` -/
def AgentTier.paid (tier : AgentTier) : Bool :=
  tier = .VERIFIED ∨ tier = .PREMIUM ∨ tier = .ENTERPRISE

/-- `Decimal.quantize(Decimal("0.01"), rounding=ROUND_HALF_UP)`, which rounds half away from zero. -/
def cents (x : ℚ) : ℚ := numeric 2 x

def prorateCharge (monthly_cost_usd : ℚ) (day_of_month days_in_month : ℕ) : Except Exn ℚ :=
  if day_of_month < 1 ∨ day_of_month > days_in_month then
    .error (.ValueError "day_of_month %s out of range 1..%s" [.int day_of_month, .int days_in_month])
  else
    let remaining : ℚ := days_in_month - day_of_month + 1
    .ok (cents (monthly_cost_usd * remaining / days_in_month))

def computeRefund (monthly_cost_usd : ℚ) (day_of_month days_in_month : ℕ) : Except Exn ℚ :=
  prorateCharge monthly_cost_usd day_of_month days_in_month

/-- `usd_to_xmr_piconero` of `sthrip/services/xmr_rate_service.py` -/
def usdToXmrPiconero (usd rate : ℚ) : Except Exn ℤ :=
  if rate ≤ 0 then .error (.ValueError "Invalid XMR/USD rate: %s" [.dec rate])
  else .ok (roundHalfEven (usd / rate * 10 ^ 12))

def piconeroToXmr (pico : ℤ) : ℚ := pico / 10 ^ 12

namespace BillingAccount

/-! ## Accounts -/

/-- `_has_monthly_charge` -/
def hasMonthlyCharge (a : BillingAccount) (month_start : ℕ) : Bool :=
  a.history.any fun row => row.month_start = month_start ∧ row.status = .monthly_charge

/-- `_record_billing_event` -/
def record (a : BillingAccount) (row : AgentBillingHistory) : BillingAccount :=
  { a with history := a.history ++ [row] }

/-- `BalanceRepository.deduct`; `none` is its `ValueError`. -/
def deduct (a : BillingAccount) (amount : ℚ) : Option BillingAccount :=
  if a.available < amount then none else some { a with available := a.available - amount }

/-- `BalanceRepository.credit` -/
def credit (a : BillingAccount) (amount : ℚ) : BillingAccount :=
  { a with available := a.available + amount }

end BillingAccount

/-! ## The billing run -/

/-- `start_grace_period`, as the billing run calls it. -/
def startGracePeriod (now : Time) (rate : ℚ) (amount_usd : ℚ) (amount_piconero : ℤ)
    (a : BillingAccount) : BillingAccount :=
  { a with tier_grace_until := some (now + gracePeriod) }.record
    { month_start := Calendar.month now, amount_usd, amount_piconero, rate_applied := rate
      status := .monthly_grace_started, tier_at_event := a.tier, created_at := now }

/-- The body of the loop of `bill_pro_subscriptions`. -/
def billAgent (now : Time) (rate : ℚ) (a : BillingAccount) : Except Exn BillingAccount :=
  if a.hasMonthlyCharge (Calendar.month now) then .ok a
  else
    let usd_price := a.tier.usdPrice
    if usd_price ≤ 0 then .ok a
    else do
      let amount_pico ← usdToXmrPiconero usd_price rate
      match a.deduct (piconeroToXmr amount_pico) with
      | none => return startGracePeriod now rate usd_price amount_pico a
      | some a =>
          return { a with tier_grace_until := none }.record
            { month_start := Calendar.month now, amount_usd := cents usd_price
              amount_piconero := amount_pico, rate_applied := rate, status := .monthly_charge
              tier_at_event := a.tier, created_at := now }

/-- `for agent in agents: …`, where an exception ends the loop. -/
def forAgents (f : BillingAccount → Except Exn BillingAccount) :
    List Id → (Id → BillingAccount) → Except Exn (Id → BillingAccount)
  | [], s => .ok s
  | id :: l, s => do
      let a ← f (s id)
      forAgents f l (Function.update s id a)

/-- `agents` are all agents, in the order of the query. -/
def billProSubscriptions (now : Time) (rate : Option ℚ) (agents : List Id)
    (s : Id → BillingAccount) : Except Exn (Id → BillingAccount) :=
  match rate with
  | none =>
      .error (.RuntimeError "XMR/USD rate unavailable: API down and cache is stale or empty")
  | some rate =>
      forAgents (billAgent now rate) (agents.filter fun id => (s id).is_active ∧ (s id).tier.paid) s

/-- The filter of `handle_grace_expiry`. -/
def BillingAccount.graceExpired (a : BillingAccount) (now : Time) : Bool :=
  a.is_active ∧ a.tier.paid ∧ a.tier_grace_until.any (· < now)

/-- The body of the loop of `handle_grace_expiry`. -/
def downgradeExpired (now : Time) (a : BillingAccount) : BillingAccount :=
  { a with tier := .FREE, tier_grace_until := none }.record
    { month_start := Calendar.month now, amount_usd := 0, amount_piconero := 0, rate_applied := 0
      status := .monthly_grace_expired_downgrade, tier_at_event := a.tier, created_at := now }

def handleGraceExpiry (now : Time) (agents : List Id) (s : Id → BillingAccount) :
    Except Exn (Id → BillingAccount) :=
  forAgents (fun a => .ok (downgradeExpired now a)) (agents.filter fun id => (s id).graceExpired now) s

/-- A run of the daily loop, `_grace_expiry_loop` of `api/main_v2.py`, in one session: when it raises,
nothing is kept. -/
def dailyRun (now : Time) (rate : Option ℚ) (agents : List Id) (s : Id → BillingAccount) :
    Id → BillingAccount :=
  match (billProSubscriptions now rate agents s).bind (handleGraceExpiry now agents) with
  | .ok s' => s'
  | .error _ => s

end Sthrip
