import Sthrip.Services.RecurringService
import Sthrip.Db.BalanceRepo

set_option autoImplicit false

/-! # Subscriptions in sessions

`RecurringPaymentRepository` and `RecurringService` again, as statements of database sessions that run
among others. What the updates write is as in `Db/RecurringRepo.lean`.

`audit_log` writes in a session of its own and raises nothing; it is left out. `queue_webhook` has no
parameter `db`, so that the calls of the three user methods raise a `TypeError`.
-/

namespace Sthrip

open Txn Prog

namespace SubscriptionRepository

variable (col : Columns)

def getById (payment_id : Id) : Program (Option RecurringPayment) :=
  select (S := schema) (Key.recurring payment_id)

/-- `payment_id` is the fresh identifier of the row. -/
def create (payment_id from_agent_id to_agent_id : Id) (amount : ℚ) (interval : RecurringInterval)
    (max_payments : Option ℕ) (next_payment_at : Time) : Program RecurringPayment := do
  let payment := RecurringPaymentRepository.create col from_agent_id to_agent_id amount interval
    max_payments next_payment_at
  -- the constraint `ck_recurring_amount_positive` of the table
  raiseIf (payment.amount ≤ 0) .IntegrityError
  let inserted ← Prog.create (S := schema) (Key.recurring payment_id) payment
  raiseIf (inserted = false) .IntegrityError
  return payment

def isDue (now : Time) : (k : Key) → Row k → Bool
  | .recurring _, row => RecurringPaymentRepository.due now row
  | _, _ => false

/-- Lock the rows that the query has found. A row that somebody else has locked is skipped
(`SKIP LOCKED`), and one that has changed before it was locked has to match again. -/
def lockDue (now : Time) : List Key → Program (List (Id × RecurringPayment))
  | [] => return []
  | k :: ks =>
      match k with
      | .recurring id => do
          let skip ← ask
          if skip ≠ 0 then lockDue now ks
          else do
            let row ← selectForUpdate (S := schema) (Key.recurring id)
            let rows ← lockDue now ks
            let found := row.filter (RecurringPaymentRepository.due now)
            return (found.map (Prod.mk id)).toList ++ rows
      | _ => lockDue now ks

theorem lockDue_only {ok : Stmt schema → Prop} (hask : ok .ask)
    (hlock : ∀ id, ok (.selectForUpdate (Key.recurring id))) (now : Time) (ks : List Key) :
    (lockDue now ks).only ok := by
  induction ks with
  | nil => trivial
  | cons k ks ih =>
      cases k with
      | recurring id =>
          refine only_bind (only_stmt hask) fun skip => ?_
          split
          · exact ih
          · exact only_bind (only_stmt (hlock id)) fun row => only_bind ih fun rows => trivial
      | _ => exact ih

def getDuePaymentsForUpdate : Program (List (Id × RecurringPayment)) := do
  let now ← now
  let ks ← scan (S := schema) (isDue now)
  -- the objects are those of the locked rows
  expireAll
  lockDue now ks

def recordPayment (payment_id : Id) (next_payment_at : Time) : Program Bool := do
  let now ← now
  let payment ← getById payment_id
  match payment with
  | none => return false
  | some payment =>
      update (S := schema) (Key.recurring payment_id) (fun _ => true) fun row =>
        (RecurringPaymentRepository.recordPayment col now next_payment_at ⟨row, payment⟩).row

def cancel (payment_id : Id) : Program Bool := do
  let now ← now
  update (S := schema) (Key.recurring payment_id) (fun _ => true) fun row =>
    (RecurringPaymentRepository.cancel now ⟨row, row⟩).row

def update (payment_id : Id) (amount : Option ℚ) (interval : Option RecurringInterval) :
    Program Bool :=
  if amount = none ∧ interval = none then return false
  else do
    raiseIf (∃ a ∈ amount, col 8 a ≤ 0) .IntegrityError
    Prog.update (S := schema) (Key.recurring payment_id) (fun _ => true) fun row =>
      { row with
        amount := (amount.map (col 8)).getD row.amount
        interval := interval.getD row.interval }

end SubscriptionRepository

namespace SubscriptionService

open SubscriptionRepository (getById)

variable (col : Columns)

/-- `queue_webhook(db=db, …)` -/
def queueWebhook : Program Unit :=
  raise (.TypeError "queue_webhook() got an unexpected keyword argument 'db'")

def createSubscription (payment_id from_agent_id to_agent_id : Id) (amount : ℚ)
    (interval : RecurringInterval) (max_payments : Option ℕ) : Program RecurringPayment := do
  raiseIf (from_agent_id = to_agent_id) (.ValueError "Agent cannot subscribe to yourself")
  raiseIf (amount ≤ 0) (.ValueError "Subscription amount must be positive")
  let now ← now
  let next_payment_at := calculateNextPayment interval now
  let payment ← SubscriptionRepository.create col payment_id from_agent_id to_agent_id amount interval
    max_payments next_payment_at
  queueWebhook
  return payment

/-- The body of the loop of `execute_due_payments`; the answer is whether the payment was made. -/
def executePayment (payment_id : Id) (payment : RecurringPayment) : Program Bool := do
  if payment.is_active = false then return false
  let amount := payment.amount
  let available ← BalanceRepository.getAvailable payment.from_agent_id .XMR
  if available < amount then return false
  let fee := quantize 8 (amount * recurringFeeRate)
  let net_to_receiver := amount - fee
  let _ ← BalanceRepository.deduct col payment.from_agent_id amount .XMR (.recurring payment_id)
  let _ ← BalanceRepository.credit col payment.to_agent_id net_to_receiver .XMR (.recurring payment_id)
  let now ← now
  let next_at := calculateNextPayment payment.interval now
  let _ ← SubscriptionRepository.recordPayment col payment_id next_at
  -- the loaded object, which has followed the update
  let object ← getById payment_id
  let payment := object.getD payment
  let new_payments_made := payment.payments_made + 1
  onlyIf (payment.max_payments.any (· ≤ new_payments_made) = true)
    (SubscriptionRepository.cancel payment_id)
  return true

def executeDuePayments : Program ℕ := do
  let due_payments ← SubscriptionRepository.getDuePaymentsForUpdate
  tally due_payments fun p => executePayment col p.1 p.2

/-- The row again, as `_payment_to_dict` reads it. -/
def refreshed (payment_id : Id) : Program RecurringPayment := do
  let payment ← getById payment_id
  orRaise (.AttributeError "'NoneType' object has no attribute 'interval'") payment

/-- Either participant may cancel. -/
def cancelSubscription (payment_id agent_id : Id) : Program RecurringPayment := do
  let payment ← getById payment_id
  let payment ← orRaise (.LookupError "Subscription %s not found" [.int payment_id]) payment
  raiseIf (agent_id ≠ payment.from_agent_id ∧ agent_id ≠ payment.to_agent_id)
    (.PermissionError "Only a participant may cancel this subscription")
  let _ ← SubscriptionRepository.cancel payment_id
  let result ← refreshed payment_id
  queueWebhook
  return result

/-- Only the sender may update. -/
def updateSubscription (payment_id agent_id : Id) (amount : Option ℚ)
    (interval : Option RecurringInterval) : Program RecurringPayment := do
  let payment ← getById payment_id
  let payment ← orRaise (.LookupError "Subscription %s not found" [.int payment_id]) payment
  raiseIf (agent_id ≠ payment.from_agent_id)
    (.PermissionError "Only the sender may update this subscription")
  let _ ← SubscriptionRepository.update col payment_id amount interval
  let result ← refreshed payment_id
  queueWebhook
  return result

end SubscriptionService

/-! ## Calls -/

/-- The calls of the service, each in a session of its own. -/
inductive SubscriptionCall where
  | createSubscription (payment_id from_agent_id to_agent_id : Id) (amount : ℚ)
      (interval : RecurringInterval) (max_payments : Option ℕ)
  | updateSubscription (payment_id agent_id : Id) (amount : Option ℚ)
      (interval : Option RecurringInterval)
  | cancelSubscription (payment_id agent_id : Id)
  | executeDuePayments
  deriving DecidableEq

def SubscriptionCall.body (col : Columns) : SubscriptionCall → Program Unit
  | .createSubscription payment_id from_agent_id to_agent_id amount interval max_payments => do
      let _ ← SubscriptionService.createSubscription col payment_id from_agent_id to_agent_id amount
        interval max_payments
  | .updateSubscription payment_id agent_id amount interval => do
      let _ ← SubscriptionService.updateSubscription col payment_id agent_id amount interval
  | .cancelSubscription payment_id agent_id => do
      let _ ← SubscriptionService.cancelSubscription payment_id agent_id
  | .executeDuePayments => do
      let _ ← SubscriptionService.executeDuePayments col

def SubscriptionCall.run (col : Columns) (c : SubscriptionCall) : Program Unit :=
  withSession (c.body col)

end Sthrip
