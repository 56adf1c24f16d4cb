import Mathlib.Logic.Function.Basic
import Sthrip.Db.Models

set_option autoImplicit false

/-! # Recurring payments -/

/-! ## Recurring payments

`RecurringPaymentRepository` of `sthrip/db/recurring_repo.py`, in a session that has locked the row
and loaded its object. A bulk `UPDATE` of SQLAlchemy writes the row and, by its default
synchronisation, the attributes of the loaded object (`bulkUpdate`).
-/

namespace Sthrip

open Txn

/-- The row of a locked payment, and the object the session has loaded. -/
structure LoadedPayment where
  row : RecurringPayment
  object : RecurringPayment

/-- `Query.update`: the row is written, and the object follows. -/
def LoadedPayment.bulkUpdate (p : LoadedPayment) (set : RecurringPayment → RecurringPayment) :
    LoadedPayment := ⟨set p.row, set p.object⟩

namespace RecurringPaymentRepository

variable (col : Columns)

def create (from_agent_id to_agent_id : Id) (amount : ℚ) (interval : RecurringInterval)
    (max_payments : Option ℕ) (next_payment_at : Time) : RecurringPayment :=
  { from_agent_id, to_agent_id, amount := col 8 amount, interval, max_payments, next_payment_at
    is_active := true, payments_made := 0, total_paid := 0 }

/-- The filter of `get_due_payments_for_update`. -/
def due (now : Time) (row : RecurringPayment) : Bool := row.is_active ∧ row.next_payment_at ≤ now

def recordPayment (now next_payment_at : Time) (p : LoadedPayment) : LoadedPayment :=
  let amount := p.object.amount
  p.bulkUpdate fun row =>
    { row with
      payments_made := row.payments_made + 1
      total_paid := col 8 (row.total_paid + amount)
      last_payment_at := some now
      next_payment_at }

def cancel (now : Time) (p : LoadedPayment) : LoadedPayment :=
  p.bulkUpdate fun row => { row with is_active := false, cancelled_at := some now }

end RecurringPaymentRepository

end Sthrip

/-! ## The recurring payment service

`RecurringService` of `sthrip/services/recurring_service.py`. The state is the table with the
available XMR of the agents, and a journal of the transfers, which the program does not have. The
audit log and the webhooks are left out.
-/

namespace Sthrip

open Txn

/-- `_FEE_RATE` -/
def recurringFeeRate : ℚ := 1 / 100

/-- `timedelta` of an interval. -/
def RecurringInterval.length : RecurringInterval → Time
  | HOURLY => hours 1
  | DAILY => hours 24
  | WEEKLY => hours (24 * 7)
  | MONTHLY => hours (24 * 30)

/-- `_calculate_next_payment` -/
def calculateNextPayment (interval : RecurringInterval) (from_time : Time) : Time :=
  from_time + interval.length

/-- A transfer that was executed for a payment. -/
structure RecurringTransfer where
  payment_id : Id
  amount : ℚ
  time : Time
  deriving DecidableEq

structure RecurringState where
  payments : Id → Option RecurringPayment
  available : Id → ℚ
  transfers : List RecurringTransfer := []

namespace RecurringService

variable (col : Columns)

/-- `payment_id` is the fresh identifier of the row. -/
def createSubscription (payment_id from_agent_id to_agent_id : Id) (amount : ℚ)
    (interval : RecurringInterval) (max_payments : Option ℕ) (now : Time) (s : RecurringState) :
    Except Exn RecurringState :=
  if from_agent_id = to_agent_id then .error (.ValueError "Agent cannot subscribe to yourself")
  else if amount ≤ 0 then .error (.ValueError "Subscription amount must be positive")
  -- the constraint `ck_recurring_amount_positive` of the table
  else if col 8 amount ≤ 0 then .error .IntegrityError
  else
    let payment := RecurringPaymentRepository.create col from_agent_id to_agent_id amount interval
      max_payments (calculateNextPayment interval now)
    .ok { s with payments := Function.update s.payments payment_id (some payment) }

/-- The body of the loop of `execute_due_payments`, for a payment that is loaded and locked, at the
time `now`. -/
def executePayment (now : Time) (payment_id : Id) (payment : RecurringPayment) (s : RecurringState) :
    RecurringState :=
  if payment.is_active = false then s
  else if s.available payment.from_agent_id < payment.amount then s
  else
    let amount := payment.amount
    let fee := quantize 8 (amount * recurringFeeRate)
    let net_to_receiver := amount - fee
    let deducted := Function.update s.available payment.from_agent_id
      (col 12 (s.available payment.from_agent_id - amount))
    let available := Function.update deducted payment.to_agent_id
      (col 12 (deducted payment.to_agent_id + net_to_receiver))
    let next_at := calculateNextPayment payment.interval now
    let loaded := RecurringPaymentRepository.recordPayment col now next_at ⟨payment, payment⟩
    -- the object has followed the update, so this is one more than the payments made
    let new_payments_made := loaded.object.payments_made + 1
    let loaded :=
      if loaded.object.max_payments.any (· ≤ new_payments_made) then
        RecurringPaymentRepository.cancel now loaded
      else loaded
    { payments := Function.update s.payments payment_id (some loaded.row)
      available
      transfers := s.transfers ++ [⟨payment_id, amount, now⟩] }

/-- `execute_due_payments` at the time `now`. The table has the payments `ids`, in the order of the
query, and `clock` says when the loop comes to each of them. -/
def executeDuePayments (now : Time) (clock : Id → Time) (ids : List Id) (s : RecurringState) :
    RecurringState :=
  (ids.filter fun id => (s.payments id).any (RecurringPaymentRepository.due now)).foldl
    (fun s id => (s.payments id).elim s fun payment => executePayment col (clock id) id payment s) s

end RecurringService

end Sthrip
