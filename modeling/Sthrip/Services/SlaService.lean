import Sthrip.Db.Models
import Sthrip.Services.EscrowService

set_option autoImplicit false

/-! # Service-level agreements -/

/-! ## SLA contracts

`SLAContractRepository` of `sthrip/db/sla_repo.py`. Every transition is an `UPDATE` that is guarded
by the state it leaves.
-/

namespace Sthrip

open Txn Prog

namespace SLAContractRepository

variable (col : Columns)

/-- `int((now - started).total_seconds())`: the fraction is cut off. -/
def wholeSeconds (now started : Time) : ℤ := Int.tdiv (now - started) 1000000

/-- `(now - started).total_seconds()` -/
def elapsed (now started : Time) : ℚ := ((now - started : ℤ) : ℚ) / 1000000

/-- `contract_id` is the fresh identifier of the row. -/
def create (contract_id provider_id consumer_id : Id) (template_id : Option Id)
    (service_description : String) (deliverables : List String)
    (response_time_secs delivery_time_secs : ℤ) (price : ℚ) (currency : Token)
    (penalty_percent : ℤ) (escrow_deal_id : Option Id) : Program SLAContract := do
  let contract : SLAContract :=
    { provider_id, consumer_id, template_id, service_description, deliverables
      response_time_secs, delivery_time_secs, price := col 8 price, currency, penalty_percent
      escrow_deal_id, state := .PROPOSED }
  let inserted ← Prog.create (Key.slaContract contract_id) contract
  raiseIf (inserted = false) .IntegrityError
  return contract

def getById (contract_id : Id) : Program (Option SLAContract) :=
  select (S := schema) (Key.slaContract contract_id)

def getByIdForUpdate (contract_id : Id) : Program (Option SLAContract) :=
  selectForUpdate (S := schema) (Key.slaContract contract_id)

/-- An `UPDATE` of a contract in one of the states. -/
def transition (contract_id : Id) (states : List SLAStatus) (set : SLAContract → SLAContract) :
    Program Bool :=
  update (S := schema) (Key.slaContract contract_id) (fun contract => contract.state ∈ states) set

/-- `PROPOSED → ACCEPTED` -/
def accept (contract_id : Id) : Program Bool :=
  transition contract_id [.PROPOSED] fun contract => { contract with state := .ACCEPTED }

/-- `ACCEPTED → ACTIVE` -/
def activate (contract_id : Id) : Program Bool := do
  let now ← now
  transition contract_id [.ACCEPTED] fun contract =>
    { contract with state := .ACTIVE, started_at := some now }

/-- `ACTIVE → DELIVERED` -/
def deliver (contract_id : Id) (result_hash : String) : Program Bool := do
  let now ← now
  let contract ← getById contract_id
  match contract with
  | none => return false
  | some contract =>
      if contract.state ≠ .ACTIVE then return false
      else
        let delivery_time_actual := contract.started_at.map fun started =>
          wholeSeconds now started
        transition contract_id [.ACTIVE] fun contract =>
          { contract with
            state := .DELIVERED, delivered_at := some now, result_hash := some result_hash
            delivery_time_actual }

/-- `DELIVERED → COMPLETED` -/
def complete (contract_id : Id) (sla_met : Bool) : Program Bool :=
  transition contract_id [.DELIVERED] fun contract =>
    { contract with state := .COMPLETED, sla_met := some sla_met }

/-- `ACTIVE → BREACHED` -/
def breach (contract_id : Id) : Program Bool :=
  transition contract_id [.ACTIVE] fun contract =>
    { contract with state := .BREACHED, sla_met := some false }

/-- `ACTIVE, DELIVERED → DISPUTED` -/
def dispute (contract_id : Id) : Program Bool :=
  transition contract_id [.ACTIVE, .DELIVERED] fun contract =>
    { contract with state := .DISPUTED }

/-- The rows that `get_active_past_deadline` selects. -/
def isRunning : (k : Key) → Row k → Bool
  | .slaContract _, contract => contract.state = .ACTIVE ∧ contract.started_at.isSome = true
  | _, _ => false

/-- Is the running contract past one of its deadlines? -/
def isPastDeadline (now : Time) (contract : SLAContract) : Bool :=
  contract.started_at.any fun started =>
    (contract.delivery_time_secs : ℚ) < elapsed now started ∨
      (contract.response_time_secs : ℚ) < elapsed now started

/-- A contract with its identifier. -/
def asContract : (Σ k : Key, Row k) → Option (Id × SLAContract)
  | ⟨.slaContract id, contract⟩ => some (id, contract)
  | _ => none

def getActivePastDeadline : Program (List (Id × SLAContract)) := do
  let now ← now
  let active ← query isRunning
  return (active.filterMap asContract).filter fun c => isPastDeadline now c.2

end SLAContractRepository

end Sthrip

/-! ## SLA contracts

`SLAService` of `sthrip/services/sla_service.py`. A contract is created together with an escrow deal
over its price and keeps the identifier of that deal. No other method looks at the deal.

Audit entries and webhooks are left out. What a method returns as a dictionary is the row it is made
from.
-/

namespace Sthrip

open Txn Prog

namespace SLAService

variable (col : Columns)

/-- `contract_id` and `deal_id` are the fresh identifiers of the rows. -/
def createContract (contract_id deal_id consumer_id provider_id : Id)
    (service_description : String) (deliverables : List String)
    (response_time_secs delivery_time_secs : ℤ) (price : ℚ) (currency : Token)
    (penalty_percent : ℤ) (template_id : Option Id) : Program SLAContract := do
  raiseIf (consumer_id = provider_id)
    (.ValueError "Consumer and provider must be different agents")
  let available ← BalanceRepository.getAvailable consumer_id currency
  raiseIf (available < price)
    (.ValueError "Insufficient balance: consumer has %s %s, needs %s %s"
      [.dec available, .str currency, .dec price, .str currency])
  -- the hours are the defaults of `create_escrow`
  let _ ← EscrowService.createEscrow col deal_id consumer_id provider_id price
    service_description 24 48 24 none
  SLAContractRepository.create col contract_id provider_id consumer_id template_id
    service_description deliverables response_time_secs delivery_time_secs price currency
    penalty_percent (some deal_id)

/-- The contract, locked, for a caller that may act on it. -/
def lockFor (contract_id : Id) (may : SLAContract → Bool) (text : String) :
    Program SLAContract := do
  let contract ← SLAContractRepository.getByIdForUpdate contract_id
  let contract ← orRaise (.LookupError "SLA contract %s not found" [.int contract_id]) contract
  raiseIf (may contract = false) (.PermissionError text)
  return contract

/-- The contract as it is returned. A missing row has no attributes. -/
def refetch (contract_id : Id) : Program SLAContract := do
  let contract ← SLAContractRepository.getById contract_id
  orRaise (.AttributeError "'NoneType' object has no attribute 'state'") contract

def acceptContract (contract_id provider_id : Id) : Program SLAContract := do
  let _ ← lockFor contract_id (fun contract => contract.provider_id = provider_id)
    "Only the contract provider may accept"
  -- the answers are not looked at
  let _ ← SLAContractRepository.accept contract_id
  let _ ← SLAContractRepository.activate contract_id
  refetch contract_id

def deliverContract (contract_id provider_id : Id) (result_hash : String) :
    Program SLAContract := do
  let _ ← lockFor contract_id (fun contract => contract.provider_id = provider_id)
    "Only the contract provider may deliver"
  let rows ← SLAContractRepository.deliver contract_id result_hash
  raiseIf (rows = false) (.ValueError "Contract is not in ACTIVE state; cannot deliver")
  refetch contract_id

/-- Was the delivery in time? Without a time, it is taken to be. -/
def slaMet (contract : SLAContract) : Bool :=
  contract.delivery_time_actual.all (· ≤ contract.delivery_time_secs)

def verifyContract (contract_id consumer_id : Id) : Program SLAContract := do
  let contract ← lockFor contract_id (fun contract => contract.consumer_id = consumer_id)
    "Only the contract consumer may verify delivery"
  let rows ← SLAContractRepository.complete contract_id (slaMet contract)
  raiseIf (rows = false) (.ValueError "Contract is not in DELIVERED state; cannot verify")
  refetch contract_id

def disputeContract (contract_id agent_id : Id) : Program SLAContract := do
  let _ ← lockFor contract_id
    (fun contract => contract.provider_id = agent_id ∨ contract.consumer_id = agent_id)
    "Only a party to the contract may raise a dispute"
  let rows ← SLAContractRepository.dispute contract_id
  raiseIf (rows = false)
    (.ValueError "Contract is not in ACTIVE or DELIVERED state; cannot dispute")
  refetch contract_id

/-- The body of the loop of `enforce_sla`. -/
def enforceOne (contract : Id × SLAContract) : Program Bool := do
  let rows ← SLAContractRepository.breach contract.1
  onlyIf (rows = true) do
    let _ ← refetch contract.1
  return rows

/-- The answer is the number of breached contracts. -/
def enforceSla : Program ℕ := do
  let overdue ← SLAContractRepository.getActivePastDeadline
  tally overdue enforceOne

end SLAService

end Sthrip
