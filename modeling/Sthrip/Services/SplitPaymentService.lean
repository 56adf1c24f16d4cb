import Sthrip.Db.AgentRepo
import Sthrip.Db.TransactionRepo
import Sthrip.Services.ChannelService
import Sthrip.Services.Subscriptions

set_option autoImplicit false

/-! # Split payments, and the calls that move balances

`SplitPaymentService` of `sthrip/services/split_payment_service.py`, with the recipients as
`SplitRecipient` of `api/schemas_conditional.py` lets them through.

`SpendingCall` are the requests that the routers of the channels and of the split payments make of
their services, and the sweeps of the channels and of the recurring payments.
-/

namespace Sthrip

open Txn Prog

/-- A recipient that the request schema lets through, with the salted hash that its transaction will
get. -/
structure SplitRecipient where
  agent_name : String
  tx_hash : String
  amount : ℚ
  amount_pos : 0 < amount
  amount_le : amount ≤ 10000

namespace SplitPaymentService

variable (col : Columns)

/-- Phase 1: the agents of the recipients. -/
def resolve (from_agent_id : Id) : List SplitRecipient → Program (List (Id × SplitRecipient))
  | [] => return []
  | entry :: recipients => do
      let agent ← AgentRepository.getByName entry.agent_name
      let agent ← orRaise (.LookupError "Recipient agent '%s' not found" [.str entry.agent_name]) agent
      raiseIf (agent.1 = from_agent_id)
        (.ValueError "Cannot send split payment to self (agent '%s')" [.str entry.agent_name])
      let resolved ← resolve from_agent_id recipients
      return (agent.1, entry) :: resolved

/-- Phase 3 for one recipient; the database may refuse the row of the transaction. -/
def payOne (from_agent_id : Id) (currency : Token) (memo : Option String)
    (entry : Id × SplitRecipient) : Program Unit := do
  let recipient := entry.1
  let amount := entry.2.amount
  let _ ← BalanceRepository.credit col recipient amount currency .other
  let tx : Transaction :=
    { network := "hub", token := currency, from_agent_id := some from_agent_id
      to_agent_id := some recipient, amount := col 12 amount, payment_type := .HUB_ROUTING
      status := .CONFIRMED, memo }
  let inserted ← Prog.create (S := schema) (Key.transaction entry.2.tx_hash) tx
  raiseIf (inserted = false) .IntegrityError
  mayFail .IntegrityError

def paySplit (from_agent_id : Id) (recipients : List SplitRecipient) (currency : Token)
    (memo : Option String) : Program Unit := do
  raiseIf (recipients.isEmpty = true) (.ValueError "Recipients list must not be empty")
  let resolved ← resolve from_agent_id recipients
  let total := (resolved.map fun entry => entry.2.amount).sum
  let _ ← BalanceRepository.deduct col from_agent_id total currency .other
  forEach resolved (payOne col from_agent_id currency memo)

end SplitPaymentService

/-! ## Calls -/

/-- The requests about channels and split payments, and the sweeps. -/
inductive SpendingCall where
  | channel (call : ChannelCall)
  | paySplit (agent_id : Id) (recipients : List SplitRecipient) (currency : Token)
      (memo : Option String)
  | executeDuePayments

namespace SpendingCall

/-- The agent as whom the request is authenticated. -/
def caller : SpendingCall → Option Id
  | channel call => call.caller
  | paySplit agent_id .. => some agent_id
  | executeDuePayments => none

def run (col : Columns) : SpendingCall → Program Unit
  | channel call => call.runAudited col
  | paySplit agent_id recipients currency memo =>
      withSession (SplitPaymentService.paySplit col agent_id recipients currency memo)
  | executeDuePayments => SubscriptionCall.executeDuePayments.run col

end SpendingCall

end Sthrip
