import Sthrip.Db.AgentRepo
import Sthrip.Db.BalanceRepo

set_option autoImplicit false

/-! # The multi-party payment service

`MultiPartyService` of `sthrip/services/multi_party_service.py`. A sender locks the sum of its
recipients' shares. With `require_all_accept` nothing moves until every recipient has accepted or
one has rejected; without it each share moves when its recipient answers. A sweep refunds what is
still locked after the deadline.

A credit is made for one recipient's share, or for the whole payment; the deduction that locks the
total is made for neither.

The rows are those of `MultiPartyRepository` in `sthrip/db/multi_party_repo.py`. A transition is an
`UPDATE` guarded by the state it leaves; so is the answer of a recipient.
-/

namespace Sthrip

open Txn Prog

/-! ## The rows -/

namespace MultiPartyRepository

variable (col : Columns)

/-- `payment_id` is the fresh identifier of the row. -/
def create (payment_id sender_id : Id) (total_amount : ℚ) (recipients : List (Id × ℚ))
    (accept_deadline : Time) (currency : Token) (require_all_accept : Bool) :
    Program MultiPartyPayment := do
  let payment : MultiPartyPayment :=
    { sender_id, total_amount := col 8 total_amount, currency, require_all_accept
      state := .PENDING, accept_deadline }
  let inserted ← Prog.create (Key.multiParty payment_id) payment
  raiseIf (inserted = false) .IntegrityError
  forEach recipients fun (recipient_id, amount) => do
    let inserted ← Prog.create (Key.recipient payment_id recipient_id) { amount := col 8 amount }
    raiseIf (inserted = false) .IntegrityError
  return payment

def getByIdForUpdate (payment_id : Id) : Program (Option MultiPartyPayment) :=
  selectForUpdate (S := schema) (Key.multiParty payment_id)

def acceptRecipient (payment_id recipient_id : Id) : Program Bool := do
  let now ← now
  update (Key.recipient payment_id recipient_id) (fun row => row.accepted = none) fun row =>
    { row with accepted := some true, accepted_at := some now }

def rejectRecipient (payment_id recipient_id : Id) : Program Bool := do
  let now ← now
  update (Key.recipient payment_id recipient_id) (fun row => row.accepted = none) fun row =>
    { row with accepted := some false, accepted_at := some now }

/-- `PENDING → state` -/
def leavePending (state : MultiPartyPaymentState) (payment_id : Id) : Program Bool := do
  let now ← now
  update (Key.multiParty payment_id) (fun row => row.state = .PENDING) fun row =>
    { row with state, completed_at := some now }

def complete (payment_id : Id) : Program Bool := leavePending .COMPLETED payment_id

def reject (payment_id : Id) : Program Bool := leavePending .REJECTED payment_id

def expire (payment_id : Id) : Program Bool := leavePending .EXPIRED payment_id

def ofPayment (payment_id : Id) : (k : Key) → Row k → Bool
  | .recipient payment _, _ => payment = payment_id
  | _, _ => false

/-- The recipient of a row of the payment, with the row. -/
def addressed (payment_id : Id) : (Σ k : Key, Row k) → Option (Id × MultiPartyRecipient)
  | ⟨.recipient payment recipient_id, row⟩ =>
      if payment = payment_id then some (recipient_id, row) else none
  | _ => none

def getRecipients (payment_id : Id) : Program (List (Id × MultiPartyRecipient)) := do
  let rows ← query (ofPayment payment_id)
  return rows.filterMap (addressed payment_id)

def pastDeadline (now : Time) : (k : Key) → Row k → Bool
  | .multiParty _, row => row.state = .PENDING ∧ row.accept_deadline ≤ now
  | _, _ => false

/-- The payment of a row, with its identifier. -/
def asPayment : (Σ k : Key, Row k) → Option (Id × MultiPartyPayment)
  | ⟨.multiParty id, row⟩ => some (id, row)
  | _ => none

def getPendingExpired : Program (List (Id × MultiPartyPayment)) := do
  let now ← now
  let rows ← query (pastDeadline now)
  return rows.filterMap asPayment

end MultiPartyRepository

/-! ## The service -/

/-- One entry of `recipients`. -/
structure RecipientData where
  agent_name : String
  amount : ℚ

/-- `_find_recipient` -/
def findRecipient (recipients : List (Id × MultiPartyRecipient)) (agent_id : Id) :
    Option MultiPartyRecipient :=
  (recipients.find? fun r => r.1 = agent_id).map (·.2)

/-- What `accept` and `reject` return: the state of the payment and of the recipient. -/
structure Response where
  state : String
  recipient_state : String

namespace MultiPartyService

variable (col : Columns)

/-- The loop that resolves the agents' names. -/
def resolve : List RecipientData → Program (List (Id × ℚ))
  | [] => return []
  | r :: recipients => do
      let agent ← AgentRepository.getByName r.agent_name
      let (id, agent) ← orRaise
        (.LookupError "Recipient agent '%s' not found" [.str r.agent_name]) agent
      raiseIf (agent.is_active = false)
        (.ValueError "Recipient agent '%s' is not active" [.str r.agent_name])
      let resolved ← resolve recipients
      return (id, r.amount) :: resolved

/-- `payment_id` is the fresh identifier of the row. -/
def createMultiParty (payment_id sender_id : Id) (recipients : List RecipientData)
    (currency : Token) (require_all_accept : Bool) (accept_hours : ℤ) :
    Program (MultiPartyPayment × List (Id × MultiPartyRecipient)) := do
  raiseIf (recipients.isEmpty = true) (.ValueError "At least 1 recipient is required")
  raiseIf (¬(recipients.map (·.agent_name)).Nodup)
    (.ValueError "Duplicate recipients are not allowed")
  raiseIf (∃ r ∈ recipients, r.amount ≤ 0)
    (.ValueError "All recipient amounts must be positive")
  let resolved ← resolve recipients
  raiseIf (∃ r ∈ resolved, r.1 = sender_id) (.ValueError "Sender cannot be a recipient")
  let total_amount := (resolved.map (·.2)).sum
  let _ ← BalanceRepository.deduct col sender_id total_amount currency .other
  let now ← now
  let accept_deadline := now + hours accept_hours
  let payment ← MultiPartyRepository.create col payment_id sender_id total_amount resolved
    accept_deadline currency require_all_accept
  let recipient_rows ← MultiPartyRepository.getRecipients payment_id
  return (payment, recipient_rows)

/-- The payment and the row of the agent who answers; the payment stays locked. -/
def findPending (payment_id agent_id : Id) :
    Program (MultiPartyPayment × MultiPartyRecipient) := do
  let payment ← MultiPartyRepository.getByIdForUpdate payment_id
  let payment ← orRaise (.LookupError "Multi-party payment not found") payment
  raiseIf (payment.state ≠ .PENDING) (.ValueError "Payment is not in PENDING state")
  let recipient_rows ← MultiPartyRepository.getRecipients payment_id
  let recipient_row ← orRaise (.PermissionError "Agent is not a recipient of this payment")
    (findRecipient recipient_rows agent_id)
  return (payment, recipient_row)

/-- Complete the payment if all recipients have responded. -/
def completeIfResponded (payment_id : Id) : Program Bool := do
  expireAll
  let updated_recipients ← MultiPartyRepository.getRecipients payment_id
  let all_responded := updated_recipients.all fun r => r.2.accepted ≠ none
  onlyIf all_responded (MultiPartyRepository.complete payment_id)
  return all_responded

def accept (recipient_agent_id payment_id : Id) : Program Response := do
  let (payment, recipient_row) ← findPending payment_id recipient_agent_id
  if recipient_row.accepted = some true then return ⟨"pending", "already_accepted"⟩
  let rows_affected ← MultiPartyRepository.acceptRecipient payment_id recipient_agent_id
  if rows_affected = false then return ⟨"pending", "already_accepted"⟩
  if payment.require_all_accept then
    expireAll
    let updated_recipients ← MultiPartyRepository.getRecipients payment_id
    if updated_recipients.all fun r => r.2.accepted = some true then
      forEach updated_recipients fun (recipient_id, row) => do
        let _ ← BalanceRepository.credit col recipient_id row.amount payment.currency
          (.share payment_id (some recipient_id))
      let _ ← MultiPartyRepository.complete payment_id
      return ⟨"completed", "accepted"⟩
    else return ⟨"pending", "accepted"⟩
  else
    let _ ← BalanceRepository.credit col recipient_agent_id recipient_row.amount payment.currency
      (.share payment_id (some recipient_agent_id))
    let all_responded ← completeIfResponded payment_id
    return ⟨if all_responded then "completed" else "pending", "accepted"⟩

def reject (recipient_agent_id payment_id : Id) : Program Response := do
  let (payment, recipient_row) ← findPending payment_id recipient_agent_id
  let rows_affected ← MultiPartyRepository.rejectRecipient payment_id recipient_agent_id
  raiseIf (rows_affected = false)
    (.ValueError "Recipient has already responded to this payment")
  if payment.require_all_accept then
    let _ ← BalanceRepository.credit col payment.sender_id payment.total_amount payment.currency
      (.share payment_id none)
    let _ ← MultiPartyRepository.reject payment_id
    return ⟨"rejected", "rejected"⟩
  else
    let _ ← BalanceRepository.credit col payment.sender_id recipient_row.amount payment.currency
      (.share payment_id (some recipient_agent_id))
    let all_responded ← completeIfResponded payment_id
    return ⟨if all_responded then "completed" else "pending", "rejected"⟩

/-- The sweep of one payment. -/
def expireOne (payment_id : Id) (payment : MultiPartyPayment) : Program Unit := do
  if payment.require_all_accept then
    let _ ← BalanceRepository.credit col payment.sender_id payment.total_amount payment.currency
      (.share payment_id none)
  else
    let recipients ← MultiPartyRepository.getRecipients payment_id
    forEach recipients fun (recipient_id, row) =>
      onlyIf (row.accepted ≠ some true)
        (BalanceRepository.credit col payment.sender_id row.amount payment.currency
          (.share payment_id (some recipient_id)))
  let _ ← MultiPartyRepository.expire payment_id

def expireStale : Program ℕ := do
  let expired_payments ← MultiPartyRepository.getPendingExpired
  forEach expired_payments fun (payment_id, payment) => expireOne col payment_id payment
  return expired_payments.length

end MultiPartyService

/-! ## Calls -/

/-- The calls of the service that move money, each in a session of its own. -/
inductive MultiPartyCall where
  | createMultiParty (payment_id sender_id : Id) (recipients : List RecipientData)
      (currency : Token) (require_all_accept : Bool) (accept_hours : ℤ)
  | accept (recipient_agent_id payment_id : Id)
  | reject (recipient_agent_id payment_id : Id)
  | expireStale

def MultiPartyCall.body (col : Columns) : MultiPartyCall → Program Unit
  | .createMultiParty payment_id sender_id recipients currency require_all_accept accept_hours => do
      let _ ← MultiPartyService.createMultiParty col payment_id sender_id recipients currency
        require_all_accept accept_hours
  | .accept recipient_agent_id payment_id => do
      let _ ← MultiPartyService.accept col recipient_agent_id payment_id
  | .reject recipient_agent_id payment_id => do
      let _ ← MultiPartyService.reject col recipient_agent_id payment_id
  | .expireStale => do
      let _ ← MultiPartyService.expireStale col

def MultiPartyCall.run (col : Columns) (c : MultiPartyCall) : Program Unit :=
  withSession (c.body col)

end Sthrip
