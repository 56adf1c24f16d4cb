import Sthrip.Db.BalanceRepo

set_option autoImplicit false

/-! # The conditional payment service

`ConditionalPaymentService` of `sthrip/services/conditional_payment_service.py`. A sender locks an
amount until a condition holds; then it goes to the recipient. The sender may cancel before, and a
sweep refunds what has expired.

The rows are those of `ConditionalPaymentRepository` in `sthrip/db/conditional_payment_repo.py`. A payment
is `PENDING` until it is triggered, and then executed, or until it is cancelled or expires; every
transition is an `UPDATE` guarded by the state it leaves.

The conditions are read off the JSON of the row by the constructors of the standard library
(`datetime.fromisoformat`, `UUID`, `Decimal`), which are a parameter here: `Constructors` has what
they return and which exception they raise.
-/

namespace Sthrip

open Txn Prog

/-! ## The rows -/

namespace ConditionalPaymentRepository

variable (col : Columns)

/-- `payment_id` is the fresh identifier of the row. -/
def create (payment_id from_agent_id to_agent_id : Id) (amount : ℚ) (condition_type : String)
    (condition_config : List (String × Json)) (locked_amount : ℚ) (expires_at : Time)
    (currency : Token) (memo : Option String) : Program ConditionalPayment := do
  let payment : ConditionalPayment :=
    { from_agent_id, to_agent_id, amount := col 8 amount, currency, memo, condition_type
      condition_config, locked_amount := col 8 locked_amount, state := .PENDING, expires_at }
  let inserted ← Prog.create (Key.conditional payment_id) payment
  raiseIf (inserted = false) .IntegrityError
  return payment

def getById (payment_id : Id) : Program (Option ConditionalPayment) :=
  select (S := schema) (Key.conditional payment_id)

def getByIdForUpdate (payment_id : Id) : Program (Option ConditionalPayment) :=
  selectForUpdate (S := schema) (Key.conditional payment_id)

/-- `state → set.state` -/
def transition (state : ConditionalPaymentState)
    (set : ConditionalPayment → ConditionalPayment) (payment_id : Id) : Program Bool :=
  update (Key.conditional payment_id) (fun row => row.state = state) set

/-- `PENDING → TRIGGERED` -/
def trigger (payment_id : Id) : Program Bool := do
  let now ← now
  transition .PENDING (fun row => { row with state := .TRIGGERED, triggered_at := some now })
    payment_id

/-- `TRIGGERED → EXECUTED` -/
def execute (payment_id : Id) : Program Bool := do
  let now ← now
  transition .TRIGGERED (fun row => { row with state := .EXECUTED, executed_at := some now })
    payment_id

/-- `PENDING → EXPIRED` -/
def expire (payment_id : Id) : Program Bool :=
  transition .PENDING (fun row => { row with state := .EXPIRED }) payment_id

/-- `PENDING → CANCELLED` -/
def cancel (payment_id : Id) : Program Bool :=
  transition .PENDING (fun row => { row with state := .CANCELLED }) payment_id

/-- The payment of a row, with its identifier. -/
def asConditional : (Σ k : Key, Row k) → Option (Id × ConditionalPayment)
  | ⟨.conditional id, row⟩ => some (id, row)
  | _ => none

def isPending : (k : Key) → Row k → Bool
  | .conditional _, row => row.state = .PENDING
  | _, _ => false

def hasExpired (now : Time) : (k : Key) → Row k → Bool
  | .conditional _, row => row.state = .PENDING ∧ row.expires_at ≤ now
  | _, _ => false

def getPendingExpired : Program (List (Id × ConditionalPayment)) := do
  let now ← now
  let rows ← query (hasExpired now)
  return rows.filterMap asConditional

end ConditionalPaymentRepository

/-! ## Conditions -/

/-- A point in time; without an offset it is naive. -/
structure DateTime where
  wall : Time
  utcoffset : Option Time

/-- A `Decimal` with its special values. -/
inductive Decimal where
  | finite (x : ℚ)
  | infinity (negative : Bool)
  | nan

/-- `x < d`; a comparison with `NaN` signals. -/
def Decimal.above (x : ℚ) : Decimal → Except Exn Bool
  | finite y => .ok (x < y)
  | infinity negative => .ok !negative
  | nan => .error (.ArithmeticError "InvalidOperation")

/-- The constructors the conditions are read with. -/
structure Constructors where
  fromisoformat : Json → Except Exn DateTime
  uuid : Json → Except Exn Id
  decimal : Json → Except Exn Decimal

def Exn.isValueOrTypeError : Exn → Bool
  | .ValueError _ _ => true
  | .TypeError _ => true
  | _ => false

def Exn.isArithmeticError : Exn → Bool
  | .ArithmeticError _ => true
  | _ => false

/-- A computation that may raise, as a part of a program. -/
def attempt {α : Type} : Except Exn α → Program α
  | .ok a => return a
  | .error e => .raise e

/-- `config.get(field, default)` -/
def configGet (config : List (String × Json)) (field default : String) : Json :=
  (config.lookup field).getD (.str default)

def validConditionTypes : List String :=
  ["balance_threshold", "escrow_completed", "time_lock", "webhook"]

def requiredConfigFields (condition_type : String) : List String :=
  match condition_type with
  | "time_lock" => ["release_at"]
  | "escrow_completed" => ["escrow_id", "required_status"]
  | "balance_threshold" => ["agent_id", "threshold"]
  | "webhook" => ["callback_url"]
  | _ => []

/-- `_validate_condition_config` -/
def validateConditionConfig (condition_type : String) (config : List (String × Json)) :
    Program Unit :=
  forEach (requiredConfigFields condition_type) fun field =>
    raiseIf (config.lookup field).isNone
      (.ValueError "condition_config missing required field '%s' for condition_type '%s'"
        [.str field, .str condition_type])

/-- The payment again, at the end of a method. -/
def refetchPayment (payment_id : Id) (field : String) : Program ConditionalPayment := do
  let payment ← ConditionalPaymentRepository.getById payment_id
  orRaise (.AttributeError ("'NoneType' object has no attribute '" ++ field ++ "'")) payment

namespace ConditionalPaymentService

variable (col : Columns) (parse : Constructors)

/-- `payment_id` is the fresh identifier of the row. -/
def createConditional (payment_id from_agent_id to_agent_id : Id) (amount : ℚ)
    (currency : Token) (condition_type : String) (condition_config : List (String × Json))
    (expires_hours : ℤ) (memo : Option String) : Program ConditionalPayment := do
  raiseIf (from_agent_id = to_agent_id)
    (.ValueError "Sender and recipient must be different agents")
  raiseIf (condition_type ∉ validConditionTypes)
    (.ValueError "Invalid condition_type '%s'. Must be one of: %s"
      [.str condition_type, .str (", ".intercalate validConditionTypes)])
  validateConditionConfig condition_type condition_config
  let _ ← BalanceRepository.deduct col from_agent_id amount currency .other
  let now ← now
  let expires_at := now + hours (max expires_hours 0)
  ConditionalPaymentRepository.create col payment_id from_agent_id to_agent_id amount
    condition_type condition_config amount expires_at currency memo

/-- Credit the recipient; `TRIGGERED → EXECUTED`. -/
def executePayment (payment_id : Id) : Program ConditionalPayment := do
  let payment ← ConditionalPaymentRepository.getByIdForUpdate payment_id
  let payment ← orRaise (.LookupError "Conditional payment not found") payment
  let _ ← BalanceRepository.credit col payment.to_agent_id payment.locked_amount payment.currency
    (.conditional payment_id)
  let executed ← ConditionalPaymentRepository.execute payment_id
  raiseIf (executed = false) (.ValueError "Failed to execute payment (state conflict)")
  refetchPayment payment_id "from_agent_id"

/-- Does the condition of the payment hold? -/
def conditionMet (now : Time) (payment : ConditionalPayment) : Program Bool :=
  let config := payment.condition_config
  match payment.condition_type with
  | "time_lock" =>
      tryCatch
        (do
          let release_at ← attempt (parse.fromisoformat (configGet config "release_at" ""))
          -- a naive time is compared with the naive time now
          return release_at.wall - release_at.utcoffset.getD 0 ≤ now)
        fun e => if e.isValueOrTypeError then return false else .raise e
  | "escrow_completed" =>
      tryCatch
        (do
          let escrow_id ← attempt (parse.uuid (configGet config "escrow_id" ""))
          let deal ← select (S := schema) (Key.deal escrow_id)
          match deal, configGet config "required_status" "completed" with
          | some deal, .str required_status => return deal.status.value = required_status
          | _, _ => return false)
        fun e => if e.isValueOrTypeError then return false else .raise e
  | "balance_threshold" =>
      tryCatch
        (do
          let target_agent_id ← attempt (parse.uuid (configGet config "agent_id" ""))
          let threshold ← attempt (parse.decimal (configGet config "threshold" "0"))
          let balance ← BalanceRepository.getAvailable target_agent_id payment.currency
          attempt (threshold.above balance))
        fun e => if e.isValueOrTypeError || e.isArithmeticError then return false else .raise e
  | _ => return false

/-- The evaluation of one payment; the answer is whether it was executed. -/
def evaluateOne (now : Time) (payment_id : Id) (payment : ConditionalPayment) :
    Program Bool := do
  let condition_met ← conditionMet parse now payment
  if condition_met then
    let triggered ← ConditionalPaymentRepository.trigger payment_id
    if triggered then
      let _ ← executePayment col payment_id
      return true
    else return false
  else return false

def evaluateConditions : Program ℕ := do
  let rows ← query ConditionalPaymentRepository.isPending
  let pending := rows.filterMap ConditionalPaymentRepository.asConditional
  let now ← now
  tally pending fun (payment_id, payment) => evaluateOne col parse now payment_id payment

def triggerWebhook (payment_id agent_id : Id) : Program ConditionalPayment := do
  let payment ← ConditionalPaymentRepository.getByIdForUpdate payment_id
  let payment ← orRaise (.LookupError "Conditional payment not found") payment
  raiseIf (payment.from_agent_id ≠ agent_id)
    (.PermissionError "Only the sender can trigger this payment")
  raiseIf (payment.state ≠ .PENDING)
    (.ValueError "Cannot trigger payment in state '%s'" [.str payment.state.value])
  let triggered ← ConditionalPaymentRepository.trigger payment_id
  raiseIf (triggered = false) (.ValueError "Failed to trigger payment (state conflict)")
  executePayment col payment_id

def cancel (agent_id payment_id : Id) : Program ConditionalPayment := do
  let payment ← ConditionalPaymentRepository.getByIdForUpdate payment_id
  let payment ← orRaise (.LookupError "Conditional payment not found") payment
  raiseIf (payment.from_agent_id ≠ agent_id)
    (.PermissionError "Only the sender can cancel this payment")
  raiseIf (payment.state ≠ .PENDING)
    (.ValueError "Cannot cancel payment in state '%s'" [.str payment.state.value])
  let _ ← BalanceRepository.credit col payment.from_agent_id payment.locked_amount
    payment.currency (.conditional payment_id)
  let cancelled ← ConditionalPaymentRepository.cancel payment_id
  raiseIf (cancelled = false) (.ValueError "Failed to cancel payment (state conflict)")
  refetchPayment payment_id "locked_amount"

/-- The sweep of one payment; the answer is whether it expired. -/
def expireOne (payment_id : Id) (payment : ConditionalPayment) : Program Bool := do
  let _ ← BalanceRepository.credit col payment.from_agent_id payment.locked_amount
    payment.currency (.conditional payment_id)
  ConditionalPaymentRepository.expire payment_id

def expireStale : Program ℕ := do
  let expired_payments ← ConditionalPaymentRepository.getPendingExpired
  tally expired_payments fun (payment_id, payment) => expireOne col payment_id payment

end ConditionalPaymentService

/-! ## Calls -/

/-- The calls of the service, each in a session of its own. `loop` is a turn of the background
task, which evaluates and sweeps in one session. -/
inductive ConditionalCall where
  | createConditional (payment_id from_agent_id to_agent_id : Id) (amount : ℚ)
      (currency : Token) (condition_type : String) (condition_config : List (String × Json))
      (expires_hours : ℤ) (memo : Option String)
  | evaluateConditions
  | triggerWebhook (payment_id agent_id : Id)
  | cancel (agent_id payment_id : Id)
  | expireStale
  | loop

def ConditionalCall.body (col : Columns) (parse : Constructors) : ConditionalCall → Program Unit
  | .createConditional payment_id from_agent_id to_agent_id amount currency condition_type
      condition_config expires_hours memo => do
      let _ ← ConditionalPaymentService.createConditional col payment_id from_agent_id to_agent_id
        amount currency condition_type condition_config expires_hours memo
  | .evaluateConditions => do
      let _ ← ConditionalPaymentService.evaluateConditions col parse
  | .triggerWebhook payment_id agent_id => do
      let _ ← ConditionalPaymentService.triggerWebhook col payment_id agent_id
  | .cancel agent_id payment_id => do
      let _ ← ConditionalPaymentService.cancel col agent_id payment_id
  | .expireStale => do
      let _ ← ConditionalPaymentService.expireStale col
  | .loop => do
      let _ ← ConditionalPaymentService.evaluateConditions col parse
      let _ ← ConditionalPaymentService.expireStale col

def ConditionalCall.run (col : Columns) (parse : Constructors) (c : ConditionalCall) :
    Program Unit :=
  withSession (c.body col parse)

end Sthrip
