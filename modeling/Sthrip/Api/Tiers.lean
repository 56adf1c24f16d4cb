import Sthrip.Services.SubscriptionBilling

set_option autoImplicit false

/-! # Upgrades and downgrades

The handlers `upgrade_tier` and `downgrade_tier` of `api/routers/agents.py`, for an agent that exists
and a tier that has been parsed. The rate is `none` when it is unavailable. The audit log and the
responses are left out.
-/

namespace Sthrip

open Txn

/-- `_TIER_LABEL` -/
def AgentTier.label : AgentTier → String
  | FREE => "Free"
  | VERIFIED => "Pro"
  | PREMIUM => "Enterprise"
  | ENTERPRISE => "Enterprise"

/-- `_tier_rank` -/
def AgentTier.rank : AgentTier → ℕ
  | FREE => 0
  | VERIFIED => 1
  | PREMIUM => 2
  | ENTERPRISE => 2

/-- `_tier_monthly_usd` -/
def AgentTier.monthlyUsd : AgentTier → ℚ
  | VERIFIED => verifiedUsdMonthly
  | PREMIUM => premiumUsdMonthly
  | ENTERPRISE => premiumUsdMonthly
  | FREE => 0

def recordUpgradeCharge (now : Time) (amount_usd : ℚ) (amount_piconero : ℤ) (rate_applied : ℚ)
    (tier_at_event : AgentTier) (a : BillingAccount) : BillingAccount :=
  a.record
    { month_start := Calendar.month now, amount_usd := cents amount_usd, amount_piconero
      rate_applied, status := .upgrade_charge, tier_at_event, created_at := now }

def recordDowngradeRefund (now : Time) (amount_usd : ℚ) (amount_piconero : ℤ) (rate_applied : ℚ)
    (tier_at_event : AgentTier) (a : BillingAccount) : BillingAccount :=
  a.record
    { month_start := Calendar.month now, amount_usd := cents amount_usd, amount_piconero
      rate_applied, status := .downgrade_refund, tier_at_event, created_at := now }

/-- `upgrade_tier` -/
def upgradeTier (now : Time) (rate : Option ℚ) (new_tier : AgentTier) (a : BillingAccount) :
    Except Exn BillingAccount :=
  if new_tier.rank < a.tier.rank then
    .error (.HTTPException 400 ("Use POST /v2/me/downgrade to move from " ++ a.tier.label ++ " to " ++
      new_tier.label ++ "."))
  else if new_tier.rank = a.tier.rank then .ok a
  else do
    let charge_usd ← prorateCharge new_tier.monthlyUsd (Calendar.dayOfMonth now)
      (Calendar.daysInMonth (Calendar.month now))
    match rate with
    | none =>
        .error (.HTTPException 503 "XMR/USD rate unavailable. Please retry in a few minutes.")
    | some rate => do
        let charge_pico ← usdToXmrPiconero charge_usd rate
        match a.deduct (piconeroToXmr charge_pico) with
        | none =>
            .error (.HTTPException 402 "Insufficient XMR balance for upgrade. Top up and retry.")
        | some a =>
            return recordUpgradeCharge now charge_usd charge_pico rate new_tier
              { a with tier := new_tier, tier_grace_until := none }

/-- What a downgrade gives back for the rest of the month. -/
def AgentTier.refundUsd (now : Time) (tier : AgentTier) : Except Exn ℚ :=
  if 0 < tier.monthlyUsd then
    computeRefund tier.monthlyUsd (Calendar.dayOfMonth now)
      (Calendar.daysInMonth (Calendar.month now))
  else .ok 0

/-- The part of a downgrade that pays the refund: the refund that is recorded, in USD and in
piconero, the rate, and the account. -/
def payRefund (rate : Option ℚ) (refund_usd : ℚ) (a : BillingAccount) :
    Except Exn (ℚ × ℤ × ℚ × BillingAccount) :=
  if 0 < refund_usd then
    match rate with
    -- without a rate the downgrade goes on, with a refund of zero
    | none => .ok (0, 0, 0, a)
    | some rate =>
        if 0 < rate then do
          let refund_pico ← usdToXmrPiconero refund_usd rate
          return (refund_usd, refund_pico, rate, a.credit (piconeroToXmr refund_pico))
        else .ok (refund_usd, 0, rate, a)
  else .ok (refund_usd, 0, 0, a)

/-- `downgrade_tier` -/
def downgradeTier (now : Time) (rate : Option ℚ) (new_tier : AgentTier) (a : BillingAccount) :
    Except Exn BillingAccount :=
  if a.tier.rank ≤ new_tier.rank then
    .error (.HTTPException 400 ("Target tier must be lower than current. Use /v2/me/upgrade to move from "
      ++ a.tier.label ++ " to " ++ new_tier.label ++ "."))
  else do
    let refund_usd ← a.tier.refundUsd now
    let (refund_usd, refund_pico, rate_applied, paid) ← payRefund rate refund_usd a
    return recordDowngradeRefund now refund_usd refund_pico rate_applied a.tier
      { paid with tier := new_tier, tier_grace_until := none }

end Sthrip
