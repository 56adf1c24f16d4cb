import Sthrip.Db.WebhookRepo
import Sthrip.Services.ChannelService
import Sthrip.Services.CreditService
import Sthrip.Services.MatchmakingService
import Sthrip.Services.MultiPartyService
import Sthrip.Services.SlaService
import Sthrip.Txn.Solo

set_option autoImplicit false

/-! # Operations that queue webhooks

`queue_webhook` and `queue_event` of `sthrip/services/webhook_service.py`, and the methods of the services
that call it inside a `get_db` session. An event is inserted in a session of its own, which commits before
the session of the method does.

The methods are those of the services over the tables of `Db/Models.lean`, with their webhooks. A statement
of theirs may fail. Audit entries are left out where `audit_log` takes the arguments it is given: it catches
every exception.
-/

namespace Sthrip

open Txn Prog

/-! ## Queueing an event -/

/-- What the bodies of the events tell, as the rows that they are made from. -/
inductive WebhookPayload where
  | contract (contract_id : Id) (contract : SLAContract)
  | channelOpened (channel_id : Id) (deposit_a deposit_b : ℚ)
  | channelClosed (channel_id : Id)
  | milestone (escrow_id : Id) (milestone_sequence : ℕ) (milestone : EscrowMilestone)
  | release (escrow_id : Id) (release : MilestoneRelease)
  | deal (deal_id : Id) (deal : EscrowDeal)
  | multiParty (payment_id sender_id : Id) (amount total_amount : ℚ) (accept_deadline : Time)

abbrev Event := WebhookEvent WebhookPayload

/-- The table `webhook_events`; here its rows are only ever added. -/
abbrev eventSchema : Schema where
  Key := Empty
  Row := Empty.elim
  Entry := Event
  Ext := Unit
  Op := Empty
  Res := Empty.elim
  perform := fun op => op.elim
  Err := Exn
  commitErr := .OperationalError

/-- `queue_event` -/
def queueEvent (agent_id : Id) (event_type : String) (payload : WebhookPayload) :
    Prog eventSchema Unit := do
  let timestamp ← now
  withSession do
    let now ← now
    insert (newEvent timestamp now agent_id event_type payload)

/-! ## The tables with events -/

/-- The tables of `Db/Models.lean` and that of the match requests. -/
inductive HookKey where
  | table (k : Key)
  | matchRequest (id : Id)
  deriving DecidableEq

@[reducible] def HookRow : HookKey → Type
  | .table k => Row k
  | .matchRequest _ => MatchRequest

/-- The key among the tables of `Db/Models.lean`. -/
def HookKey.table? : HookKey → Option Key
  | .table k => some k
  | .matchRequest _ => none

/-- The table of the events, and what `queue_event` has been called for. Nobody reads the latter. -/
structure Hooks where
  events : Store eventSchema
  asked : List Event := []

inductive HookOp where
  | queueEvent (agent_id : Id) (event_type : String) (payload : WebhookPayload)

/-- A call of `queue_event`. The number tells whether its commit fails. -/
def HookOp.perform : HookOp → ℤ → ℕ → Hooks → Except Exn Unit × Hooks
  | .queueEvent agent_id event_type payload, time, choice, hooks =>
      let served := (Sthrip.queueEvent agent_id event_type payload).serve (fun _ => { time, choice })
        hooks.events
      (served.1, { events := served.2
                   asked := hooks.asked ++ [newEvent time time agent_id event_type payload] })

abbrev hookSchema : Schema where
  Key := HookKey
  Row := HookRow
  Entry := Entry
  Ext := Hooks
  Op := HookOp
  Res := fun _ => Except Exn Unit
  perform := HookOp.perform
  Err := Exn
  commitErr := .OperationalError

abbrev HookProgram (α : Type) := Prog hookSchema α

/-- `queue_webhook` -/
def queueWebhook (agent_id : Id) (event_type : String) (payload : WebhookPayload) : HookProgram Unit := do
  let queued ← call (S := hookSchema) (.queueEvent agent_id event_type payload)
  match queued with
  | .ok _ => return
  | .error e => raise e

/-! ## Programs over the plain tables -/

def onTable (p : (k : Key) → Row k → Bool) : (k : HookKey) → HookRow k → Bool
  | .table k, row => p k row
  | .matchRequest _, _ => false

def hookStmt : Stmt schema → Stmt hookSchema
  | .now => .now
  | .ask => .ask
  | .select k => .select (HookKey.table k)
  | .selectForUpdate k => .selectForUpdate (HookKey.table k)
  | .scan p => .scan (onTable p)
  | .update k guard set => .update (HookKey.table k) guard set
  | .assign k set => .assign (HookKey.table k) set
  | .create k row => .create (HookKey.table k) row
  | .insert e => .insert e
  | .expireAll => .expireAll
  | .call op => nomatch op
  | .commit => .commit
  | .rollback => .rollback

def hookAnswer : (s : Stmt schema) → (hookStmt s).Res → s.Res
  | .now, t => t
  | .ask, n => n
  | .select _, row => row
  | .selectForUpdate _, row => row
  | .scan _, ks => ks.filterMap HookKey.table?
  | .update _ _ _, b => b
  | .assign _ _, u => u
  | .create _ _, b => b
  | .insert _, u => u
  | .expireAll, u => u
  | .call op, _ => nomatch op
  | .commit, b => b
  | .rollback, u => u

/-- The database may fail at any statement: `n ≠ 0`. -/
def hookAttempt : HookProgram Unit := do
  let n ← ask
  raiseIf (n ≠ 0) .OperationalError

/-- A program over the plain tables, each statement of which may fail. -/
def hooked {α : Type} : Program α → HookProgram α
  | .ret a => .ret a
  | .raise e => .raise e
  | .step s next => hookAttempt.bind fun _ => .step (hookStmt s) fun r => hooked (next (hookAnswer s r))

/-! ## The methods -/

/-- Both sides are told the same. -/
def tellBoth (one other : Id) (event_type : String) (payload : WebhookPayload) : HookProgram Unit := do
  queueWebhook one event_type payload
  queueWebhook other event_type payload

namespace Hooked

variable (col : Columns)

/-! ### SLA contracts -/

def createContract (contract_id deal_id consumer_id provider_id : Id) (service_description : String)
    (deliverables : List String) (response_time_secs delivery_time_secs : ℤ) (price : ℚ)
    (currency : Token) (penalty_percent : ℤ) (template_id : Option Id) : HookProgram SLAContract := do
  let contract ← hooked (SLAService.createContract col contract_id deal_id consumer_id provider_id
    service_description deliverables response_time_secs delivery_time_secs price currency penalty_percent
    template_id)
  tellBoth consumer_id provider_id "sla.contract.created" (.contract contract_id contract)
  return contract

def acceptContract (contract_id provider_id : Id) : HookProgram Unit := do
  let contract ← hooked (SLAService.acceptContract contract_id provider_id)
  tellBoth provider_id contract.consumer_id "sla.contract.accepted" (.contract contract_id contract)

def deliverContract (contract_id provider_id : Id) (result_hash : String) : HookProgram Unit := do
  let contract ← hooked (SLAService.deliverContract contract_id provider_id result_hash)
  tellBoth provider_id contract.consumer_id "sla.contract.delivered" (.contract contract_id contract)

def verifyContract (contract_id consumer_id : Id) : HookProgram Unit := do
  let contract ← hooked (SLAService.verifyContract contract_id consumer_id)
  tellBoth consumer_id contract.provider_id "sla.contract.completed" (.contract contract_id contract)

def disputeContract (contract_id agent_id : Id) : HookProgram Unit := do
  let contract ← hooked (SLAService.disputeContract contract_id agent_id)
  tellBoth contract.provider_id contract.consumer_id "sla.contract.disputed"
    (.contract contract_id contract)

/-- The body of the loop of `enforce_sla`. -/
def enforceOne (contract : Id × SLAContract) : HookProgram Bool := do
  let rows ← hooked (SLAContractRepository.breach contract.1)
  onlyIf (rows = true) do
    let breached ← hooked (SLAService.refetch contract.1)
    tellBoth breached.consumer_id breached.provider_id "sla.contract.breached"
      (.contract contract.1 breached)
  return rows

def enforceSla : HookProgram ℕ := do
  let overdue ← hooked SLAContractRepository.getActivePastDeadline
  tally overdue enforceOne

/-! ### Channels -/

/-- `audit_log` has no parameter `new_values`, so that the method raises before its webhook. -/
def openChannel (channel_id agent_a_id agent_b_id : Id) (deposit_a deposit_b : ℚ)
    (settlement_period : ℤ) : HookProgram Unit := do
  let _ ← hooked (ChannelService.openChannel col channel_id agent_a_id agent_b_id deposit_a deposit_b
    settlement_period)
  let () ← raise (.TypeError "log_event() got an unexpected keyword argument 'new_values'")
  queueWebhook agent_b_id "channel.opened" (.channelOpened channel_id deposit_a deposit_b)

def close (channel_id agent_id : Id) : HookProgram Unit := do
  let channel ← hooked (ChannelService.close col channel_id agent_id)
  queueWebhook (if agent_id = channel.agent_a_id then channel.agent_b_id else channel.agent_a_id)
    "channel.closed" (.channelClosed channel_id)

/-! ### Escrow deals -/

def deliverMilestone (escrow_id : Id) (milestone_seq : ℕ) (seller_id : Id) : HookProgram Unit := do
  let ms ← hooked (EscrowService.deliverMilestone escrow_id milestone_seq seller_id)
  -- the deal that the method has loaded
  let deal ← hooked (refetchAsDict escrow_id)
  tellBoth deal.buyer_id deal.seller_id "milestone.delivered" (.milestone escrow_id milestone_seq ms)

/-- The last milestone is the one that completes the deal. -/
def releaseMilestone (escrow_id : Id) (milestone_seq : ℕ) (buyer_id : Id) (release_amount : ℚ) :
    HookProgram Unit := do
  let release ← hooked (EscrowService.releaseMilestone col escrow_id milestone_seq buyer_id release_amount)
  let deal ← hooked (refetchAsDict escrow_id)
  tellBoth deal.buyer_id deal.seller_id
    (if release.deal_status = .COMPLETED then "escrow.completed" else "milestone.released")
    (.release escrow_id release)

/-- What an expired deal or milestone ends with; `resolve` ends with the same read of the deal. -/
def tellResolved (deal_id : Id) (event_type : EscrowDeal → String) (resolve : Program Bool) :
    HookProgram Bool := do
  let resolved ← hooked resolve
  onlyIf (resolved = true) do
    let deal ← hooked (refetchAsDict deal_id)
    tellBoth deal.buyer_id deal.seller_id (event_type deal) (.deal deal_id deal)
  return resolved

def resolveSingle (deal_id : Id) : HookProgram Bool := do
  let locked ← hooked (EscrowRepository.getByIdForUpdate deal_id)
  match locked with
  | none => return false
  | some locked =>
      match locked.status with
      | .CREATED =>
          tellResolved deal_id (fun _ => "escrow.expired")
            (EscrowService.expireNotAccepted col deal_id locked)
      | .ACCEPTED =>
          tellResolved deal_id (fun _ => "escrow.expired")
            (EscrowService.expireNotDelivered col deal_id locked)
      | .DELIVERED =>
          tellResolved deal_id (fun _ => "escrow.completed")
            (EscrowService.autoReleaseFull col deal_id locked)
      | _ => return false

def resolveMilestoneExpiry (escrow_id : Id) (sequence : ℕ) : HookProgram Bool := do
  let deal ← hooked (EscrowRepository.getByIdForUpdate escrow_id)
  match deal with
  | none => return false
  | some deal =>
      if deal.status ≠ .ACCEPTED then return false
      let locked_ms ← hooked (MilestoneRepository.getByEscrowAndSequenceForUpdate escrow_id sequence)
      match locked_ms with
      | none => return false
      | some locked_ms =>
          match locked_ms.status with
          | .ACTIVE =>
              tellResolved escrow_id (fun _ => "escrow.expired")
                (EscrowService.expireActiveMilestone col escrow_id deal sequence)
          | .DELIVERED =>
              tellResolved escrow_id
                (fun deal =>
                  if deal.status = .COMPLETED then "escrow.completed" else "milestone.auto_released")
                (EscrowService.autoReleaseMilestone col escrow_id deal sequence locked_ms)
          | _ => return false

/-- One sweep. A deal or a milestone that raises is logged and skipped. -/
def resolveExpired : HookProgram ℕ := do
  let deals ← hooked EscrowRepository.getPendingExpiry
  let resolved ← tally deals fun deal_id => tryCatch (resolveSingle col deal_id) fun _ => return false
  let milestones ← hooked MilestoneRepository.getPendingMilestoneExpiry
  let resolved_milestones ← tally milestones fun ms =>
    tryCatch (resolveMilestoneExpiry col ms.1 ms.2) fun _ => return false
  return resolved + resolved_milestones

/-! ### Multi-party payments and loans -/

def createMultiParty (payment_id sender_id : Id) (recipients : List RecipientData) (currency : Token)
    (require_all_accept : Bool) (accept_hours : ℤ) : HookProgram Unit := do
  let (payment, rows) ← hooked (MultiPartyService.createMultiParty col payment_id sender_id recipients
    currency require_all_accept accept_hours)
  forEach rows fun r =>
    queueWebhook r.1 "multi_party.created"
      (.multiParty payment_id sender_id r.2.amount payment.total_amount payment.accept_deadline)
  let _ ← hooked (MultiPartyRepository.getRecipients payment_id)

/-- `queue_webhook` has no parameter for the session that it is given. -/
def passSession : HookProgram Unit :=
  raise (.TypeError "queue_webhook() takes 3 positional arguments but 4 were given")

def fundLoan (lender_id loan_id : Id) : HookProgram Unit := do
  let _ ← hooked (CreditService.fundLoan col lender_id loan_id)
  passSession

def repayLoan (floats : Floats) (borrower_id loan_id : Id) : HookProgram Unit := do
  let _ ← hooked (CreditService.repayLoan col floats borrower_id loan_id)
  passSession

/-! ### Match requests -/

/-- `_create_sla_for_match`, with the template that its query finds: an exception is logged only. -/
def createSlaForMatch (contract_id deal_id : Id) (template : Option SLATemplate) (req : MatchRequest)
    (matched_agent_id : Id) : HookProgram (Option Id) := do
  hookAttempt
  match template with
  | none => return none
  | some template =>
      tryCatch
        (do
          let _ ← createContract col contract_id deal_id req.requester_id matched_agent_id
            template.service_description template.deliverables template.response_time_secs
            template.delivery_time_secs template.base_price req.currency template.penalty_percent
            (some template.id)
          return some contract_id)
        fun _ => return none

/-- `update_match`, and the request as it is returned. -/
def finishMatch (request_id matched_agent_id : Id) (sla_contract_id : Option Id)
    (state : MatchRequestStatus) : HookProgram MatchRequest := do
  hookAttempt
  let _ ← update (S := hookSchema) (HookKey.matchRequest request_id) (fun _ => true) fun req =>
    { req with
      state, matched_agent_id := some matched_agent_id
      sla_contract_id := sla_contract_id.or req.sla_contract_id }
  hookAttempt
  let updated ← select (S := hookSchema) (HookKey.matchRequest request_id)
  orRaise (.AttributeError "'NoneType' object has no attribute 'state'") updated

/-- `create_request`. `best` is what `_find_best_match` finds. -/
def createRequest (request_id contract_id deal_id requester_id : Id) (task_description : String)
    (required_capabilities : List String) (budget : ℚ) (currency : Token) (deadline_secs : ℤ)
    (min_rating : ℚ) (auto_assign : Bool) (best : Option Id) (template : Option SLATemplate) :
    HookProgram Unit := do
  let now ← now
  let req := MatchmakingRepository.create col requester_id task_description required_capabilities budget
    currency deadline_secs min_rating auto_assign (now + 300000000)
  hookAttempt
  let inserted ← create (S := hookSchema) (HookKey.matchRequest request_id) req
  raiseIf (inserted = false) .IntegrityError
  hookAttempt
  match best with
  | none => return
  | some matched_agent =>
      if auto_assign = true then
        let sla_contract_id ← createSlaForMatch col contract_id deal_id template req matched_agent
        let _ ← finishMatch request_id matched_agent sla_contract_id .ASSIGNED
      else
        let _ ← finishMatch request_id matched_agent none .MATCHED

def acceptMatch (request_id contract_id deal_id requester_id : Id) (template : Option SLATemplate) :
    HookProgram Unit := do
  hookAttempt
  let req ← select (S := hookSchema) (HookKey.matchRequest request_id)
  let req ← orRaise (.LookupError "Match request %s not found" [.int request_id]) req
  raiseIf (req.requester_id ≠ requester_id) (.PermissionError "Only the requester may accept a match")
  let matched_agent_id ← orRaise (.ValueError "No matched agent on this request yet") req.matched_agent_id
  let matched_agent ← hooked (AgentRepository.getById matched_agent_id)
  let _ ← orRaise (.LookupError "Matched agent no longer exists") matched_agent
  let sla_contract_id ← createSlaForMatch col contract_id deal_id template req matched_agent_id
  let _ ← finishMatch request_id matched_agent_id sla_contract_id .ASSIGNED

end Hooked

/-! ## Calls -/

/-- The calls that queue webhooks, each in a session of its own. -/
inductive WebhookCall where
  | createContract (contract_id deal_id consumer_id provider_id : Id) (service_description : String)
      (deliverables : List String) (response_time_secs delivery_time_secs : ℤ) (price : ℚ)
      (currency : Token) (penalty_percent : ℤ) (template_id : Option Id)
  | acceptContract (contract_id provider_id : Id)
  | deliverContract (contract_id provider_id : Id) (result_hash : String)
  | verifyContract (contract_id consumer_id : Id)
  | disputeContract (contract_id agent_id : Id)
  | enforceSla
  | openChannel (channel_id agent_a_id agent_b_id : Id) (deposit_a deposit_b : ℚ) (settlement_period : ℤ)
  | close (channel_id agent_id : Id)
  | deliverMilestone (escrow_id : Id) (milestone_seq : ℕ) (seller_id : Id)
  | releaseMilestone (escrow_id : Id) (milestone_seq : ℕ) (buyer_id : Id) (release_amount : ℚ)
  | resolveExpired
  | createMultiParty (payment_id sender_id : Id) (recipients : List RecipientData) (currency : Token)
      (require_all_accept : Bool) (accept_hours : ℤ)
  | fundLoan (lender_id loan_id : Id)
  | repayLoan (borrower_id loan_id : Id)
  | createRequest (request_id contract_id deal_id requester_id : Id) (task_description : String)
      (required_capabilities : List String) (budget : ℚ) (currency : Token) (deadline_secs : ℤ)
      (min_rating : ℚ) (auto_assign : Bool) (best : Option Id) (template : Option SLATemplate)
  | acceptMatch (request_id contract_id deal_id requester_id : Id) (template : Option SLATemplate)

def WebhookCall.body (col : Columns) (floats : Floats) : WebhookCall → HookProgram Unit
  | .createContract contract_id deal_id consumer_id provider_id service_description deliverables
      response_time_secs delivery_time_secs price currency penalty_percent template_id => do
      let _ ← Hooked.createContract col contract_id deal_id consumer_id provider_id service_description
        deliverables response_time_secs delivery_time_secs price currency penalty_percent template_id
  | .acceptContract contract_id provider_id => Hooked.acceptContract contract_id provider_id
  | .deliverContract contract_id provider_id result_hash =>
      Hooked.deliverContract contract_id provider_id result_hash
  | .verifyContract contract_id consumer_id => Hooked.verifyContract contract_id consumer_id
  | .disputeContract contract_id agent_id => Hooked.disputeContract contract_id agent_id
  | .enforceSla => do
      let _ ← Hooked.enforceSla
  | .openChannel channel_id agent_a_id agent_b_id deposit_a deposit_b settlement_period =>
      Hooked.openChannel col channel_id agent_a_id agent_b_id deposit_a deposit_b settlement_period
  | .close channel_id agent_id => Hooked.close col channel_id agent_id
  | .deliverMilestone escrow_id milestone_seq seller_id =>
      Hooked.deliverMilestone escrow_id milestone_seq seller_id
  | .releaseMilestone escrow_id milestone_seq buyer_id release_amount =>
      Hooked.releaseMilestone col escrow_id milestone_seq buyer_id release_amount
  | .resolveExpired => do
      let _ ← Hooked.resolveExpired col
  | .createMultiParty payment_id sender_id recipients currency require_all_accept accept_hours =>
      Hooked.createMultiParty col payment_id sender_id recipients currency require_all_accept accept_hours
  | .fundLoan lender_id loan_id => Hooked.fundLoan col lender_id loan_id
  | .repayLoan borrower_id loan_id => Hooked.repayLoan col floats borrower_id loan_id
  | .createRequest request_id contract_id deal_id requester_id task_description required_capabilities budget
      currency deadline_secs min_rating auto_assign best template =>
      Hooked.createRequest col request_id contract_id deal_id requester_id task_description
        required_capabilities budget currency deadline_secs min_rating auto_assign best template
  | .acceptMatch request_id contract_id deal_id requester_id template =>
      Hooked.acceptMatch col request_id contract_id deal_id requester_id template

def WebhookCall.run (col : Columns) (floats : Floats) (c : WebhookCall) : HookProgram Unit :=
  withSession (c.body col floats)

/-- Does the call catch exceptions of the code that queues? -/
def WebhookCall.catches : WebhookCall → Bool
  | .resolveExpired | .createRequest .. | .acceptMatch .. => true
  | _ => false

end Sthrip
