import Sthrip.Db.Models
import Mathlib.Logic.Function.Basic

set_option autoImplicit false

/-! # The matchmaking service

`MatchmakingService` of `sthrip/services/matchmaking_service.py`, `MatchmakingRepository` of
`sthrip/db/matchmaking_repo.py`, and the parts of `SLAService.create_contract` and
`EscrowService.create_escrow` on which it calls. A method that raises leaves its changes to the
session; whether they are kept is up to who catches the exception.

The scores of the candidates are floating point, so which agent is the best match is a parameter
here. `journal` is a record of what is created for a request, which the program does not have.
-/

namespace Sthrip

open Txn

inductive MatchRequestStatus where
  | SEARCHING | MATCHED | ASSIGNED | EXPIRED
  deriving DecidableEq, Repr

structure MatchRequest where
  requester_id : Id
  task_description : String
  required_capabilities : List String := []
  budget : ℚ
  currency : Token := .XMR
  deadline_secs : ℤ
  min_rating : ℚ := 0
  auto_assign : Bool := false
  matched_agent_id : Option Id := none
  sla_contract_id : Option Id := none
  state : MatchRequestStatus := .SEARCHING
  expires_at : Time
  deriving DecidableEq

structure SLATemplate where
  id : Id
  provider_id : Id
  service_description : String
  deliverables : List String := []
  response_time_secs : ℤ
  delivery_time_secs : ℤ
  base_price : ℚ
  penalty_percent : ℤ := 10
  is_active : Bool := true
  deriving DecidableEq

/-- What is done for a request. -/
inductive MatchEvent where
  | debited (request_id agent_id : Id) (amount : ℚ)
  | escrow (request_id deal_id : Id)
  | contract (request_id contract_id : Id)
  deriving DecidableEq

structure MatchTables where
  agents : Id → Option Agent := fun _ => none
  templates : List SLATemplate := []
  available : Id → Token → ℚ := fun _ _ => 0
  requests : Id → Option MatchRequest := fun _ => none
  deals : Id → Option EscrowDeal := fun _ => none
  contracts : Id → Option SLAContract := fun _ => none
  journal : List MatchEvent := []

/-- Where an exception may strike that the tables do not tell: at the encryption of the deal, the
audit entry of the deal, the row of the contract, or the webhooks of the contract. -/
inductive CreationPoint where
  | deal | dealLogged | contract | contractLogged
  deriving DecidableEq

/-- The environment of a call: the time, the fresh identifiers, and where it fails, if it does. -/
structure MatchEnv where
  now : Time
  contract_id : Id
  deal_id : Id
  fails : Option CreationPoint := none

namespace MatchmakingRepository

variable (col : Columns)

def create (requester_id : Id) (task_description : String) (required_capabilities : List String)
    (budget : ℚ) (currency : Token) (deadline_secs : ℤ) (min_rating : ℚ) (auto_assign : Bool)
    (expires_at : Time) : MatchRequest :=
  { requester_id, task_description, required_capabilities, budget := col 8 budget, currency
    deadline_secs, min_rating := col 2 min_rating, auto_assign, state := .SEARCHING, expires_at }

/-- An identifier that is `None` is not written. -/
def updateMatch (request_id : Id) (matched_agent_id sla_contract_id : Option Id)
    (state : MatchRequestStatus) (t : MatchTables) : MatchTables :=
  { t with
    requests := Function.update t.requests request_id ((t.requests request_id).map fun req =>
      { req with
        state
        matched_agent_id := matched_agent_id.or req.matched_agent_id
        sla_contract_id := sla_contract_id.or req.sla_contract_id }) }

end MatchmakingRepository

namespace MatchmakingService

variable (col : Columns)

/-- `create_escrow`, with the arguments that `create_contract` gives. -/
def createEscrow (env : MatchEnv) (request_id buyer_id seller_id : Id) (amount : ℚ)
    (description : String) (t : MatchTables) : Except Exn Id × MatchTables :=
  if buyer_id = seller_id then (.error (.ValueError "Buyer and seller must be different agents"), t)
  else if amount ≤ 0 then (.error (.ValueError "Amount must be positive"), t)
  else
    match t.agents seller_id with
    | none => (.error (.LookupError "Seller not found"), t)
    | some seller =>
        if seller.is_active = false then (.error (.ValueError "Seller is not active"), t)
        else if t.available buyer_id .XMR < amount then
          (.error (.ValueError "Insufficient balance"), t)
        else
          let t :=
            { t with
              available := Function.update t.available buyer_id
                (Function.update (t.available buyer_id) .XMR
                  (col 12 (t.available buyer_id .XMR - amount)))
              journal := t.journal ++ [.debited request_id buyer_id amount] }
          if env.fails = some .deal then (.error (.RuntimeError "STHRIP_HUB_KEK is not set."), t)
          else
            let accept_deadline := env.now + hours 24
            let deal : EscrowDeal :=
              { buyer_id, seller_id, amount := col 12 amount, description, accept_timeout_hours := 24
                delivery_timeout_hours := 48, review_timeout_hours := 24, fee_percent := 1 / 100
                status := .CREATED, accept_deadline := some accept_deadline
                expires_at := some accept_deadline }
            let t :=
              { t with
                deals := Function.update t.deals env.deal_id (some deal)
                journal := t.journal ++ [.escrow request_id env.deal_id] }
            if env.fails = some .dealLogged then (.error (.RuntimeError "audit log"), t)
            else (.ok env.deal_id, t)

/-- `create_contract`, with the arguments that `_create_sla_for_match` gives. -/
def createContract (env : MatchEnv) (request_id : Id) (req : MatchRequest) (provider_id : Id)
    (template : SLATemplate) (t : MatchTables) : Except Exn Id × MatchTables :=
  let consumer_id := req.requester_id
  let price := template.base_price
  if consumer_id = provider_id then
    (.error (.ValueError "Consumer and provider must be different agents"), t)
  else if t.available consumer_id req.currency < price then
    (.error (.ValueError "Insufficient balance: consumer has %s %s, needs %s %s"
      [.dec (t.available consumer_id req.currency), .str req.currency, .dec price,
        .str req.currency]), t)
  else
    match createEscrow col env request_id consumer_id provider_id price
      template.service_description t with
    | (.error e, t) => (.error e, t)
    | (.ok escrow_deal_id, t) =>
        if env.fails = some .contract then (.error (.RuntimeError "SLA contract"), t)
        else
          let contract : SLAContract :=
            { provider_id, consumer_id, template_id := some template.id
              service_description := template.service_description
              deliverables := template.deliverables
              response_time_secs := template.response_time_secs
              delivery_time_secs := template.delivery_time_secs, price := col 8 price
              currency := req.currency, penalty_percent := template.penalty_percent
              escrow_deal_id := some escrow_deal_id, state := .PROPOSED }
          let t :=
            { t with
              contracts := Function.update t.contracts env.contract_id (some contract)
              journal := t.journal ++ [.contract request_id env.contract_id] }
          if env.fails = some .contractLogged then (.error (.RuntimeError "webhook"), t)
          else (.ok env.contract_id, t)

/-- The cheapest active template of an agent within the budget. -/
def bestTemplate (t : MatchTables) (agent_id : Id) (budget : ℚ) : Option SLATemplate :=
  ((t.templates.filter fun template => template.provider_id = agent_id ∧ template.is_active = true ∧
    template.base_price ≤ budget).mergeSort fun a b => a.base_price ≤ b.base_price).head?

/-- `_create_sla_for_match`: an exception is logged only. -/
def createSlaForMatch (env : MatchEnv) (request_id : Id) (req : MatchRequest) (matched_agent_id : Id)
    (t : MatchTables) : Option Id × MatchTables :=
  match bestTemplate t matched_agent_id req.budget with
  | none => (none, t)
  | some template =>
      match createContract col env request_id req matched_agent_id template t with
      | (.ok contract_id, t) => (some contract_id, t)
      | (.error _, t) => (none, t)

/-- `create_request` from the search on. `best` is what `_find_best_match` finds. -/
def assignBest (env : MatchEnv) (request_id : Id) (req : MatchRequest) (auto_assign : Bool)
    (best : Option Id) (t : MatchTables) : MatchTables :=
  match best with
  | none => t
  | some matched_agent =>
      if auto_assign = true then
        let (sla_contract_id, t) := createSlaForMatch col env request_id req matched_agent t
        MatchmakingRepository.updateMatch request_id (some matched_agent) sla_contract_id .ASSIGNED t
      else MatchmakingRepository.updateMatch request_id (some matched_agent) none .MATCHED t

def createRequest (env : MatchEnv) (request_id requester_id : Id) (task_description : String)
    (required_capabilities : List String) (budget : ℚ) (currency : Token) (deadline_secs : ℤ)
    (min_rating : ℚ) (auto_assign : Bool) (best : Option Id) (t : MatchTables) : MatchTables :=
  -- five minutes from now
  let expires_at := env.now + 300000000
  let req := MatchmakingRepository.create col requester_id task_description required_capabilities
    budget currency deadline_secs min_rating auto_assign expires_at
  assignBest col env request_id req auto_assign best
    { t with requests := Function.update t.requests request_id (some req) }

/-- `accept_match` up to its checks: the request as it is read, and its matched agent. -/
def readMatch (request_id requester_id : Id) (t : MatchTables) : Except Exn (MatchRequest × Id) :=
  match t.requests request_id with
  | none => .error (.LookupError "Match request %s not found" [.int request_id])
  | some req =>
      if req.requester_id ≠ requester_id then
        .error (.PermissionError "Only the requester may accept a match")
      else
        match req.matched_agent_id with
        | none => .error (.ValueError "No matched agent on this request yet")
        | some matched_agent_id =>
            if (t.agents matched_agent_id).isNone then
              .error (.LookupError "Matched agent no longer exists")
            else .ok (req, matched_agent_id)

/-- The rest of `accept_match`, with the request that was read. -/
def finishMatch (env : MatchEnv) (request_id : Id) (req : MatchRequest) (matched_agent_id : Id)
    (t : MatchTables) : MatchTables :=
  let (sla_contract_id, t) := createSlaForMatch col env request_id req matched_agent_id t
  MatchmakingRepository.updateMatch request_id (some matched_agent_id) sla_contract_id .ASSIGNED t

/-- `expire_stale` -/
def expireStale (now : Time) (t : MatchTables) : MatchTables :=
  { t with
    requests := fun id => (t.requests id).map fun req =>
      if req.state = .SEARCHING ∧ req.expires_at < now then { req with state := .EXPIRED } else req }

end MatchmakingService

/-! ## Calls that overlap -/

/-- The tables as they are committed, and the calls of `accept_match` that have read their request. -/
structure MatchSystem where
  tables : MatchTables := {}
  reading : ℕ → Option (Id × MatchRequest × Id) := fun _ => none

/-- A call of `accept_match` reads first; its writes are seen by others when it commits. A call that
creates a request works on a row of its own. -/
inductive MatchStep where
  | create (env : MatchEnv) (request_id requester_id : Id) (task_description : String)
      (required_capabilities : List String) (budget : ℚ) (currency : Token) (deadline_secs : ℤ)
      (min_rating : ℚ) (auto_assign : Bool) (best : Option Id)
  | read (call : ℕ) (request_id requester_id : Id)
  | finish (call : ℕ) (env : MatchEnv)
  /-- A call is rolled back: by an exception that is not caught, by the database, or by a crash. -/
  | abort (call : ℕ)
  | expire (now : Time)
  /-- What other services do to the agents, the templates and the balances. -/
  | others (agents : Id → Option Agent) (templates : List SLATemplate) (available : Id → Token → ℚ)

namespace MatchSystem

variable (col : Columns)

def step (s : MatchSystem) : MatchStep → MatchSystem
  | .create env request_id requester_id task_description required_capabilities budget currency
      deadline_secs min_rating auto_assign best =>
      -- the primary key of the new row
      if (s.tables.requests request_id).isSome then s
      else
        { s with
          tables := MatchmakingService.createRequest col env request_id requester_id task_description
            required_capabilities budget currency deadline_secs min_rating auto_assign best s.tables }
  | .read call request_id requester_id =>
      match MatchmakingService.readMatch request_id requester_id s.tables with
      | .error _ => s
      | .ok (req, matched_agent_id) =>
          { s with
            reading := Function.update s.reading call (some (request_id, req, matched_agent_id)) }
  | .finish call env =>
      match s.reading call with
      | none => s
      | some (request_id, req, matched_agent_id) =>
          { tables := MatchmakingService.finishMatch col env request_id req matched_agent_id s.tables
            reading := Function.update s.reading call none }
  | .abort call => { s with reading := Function.update s.reading call none }
  | .expire now => { s with tables := MatchmakingService.expireStale now s.tables }
  | .others agents templates available =>
      { s with tables := { s.tables with agents, templates, available } }

def run (s : MatchSystem) (l : List MatchStep) : MatchSystem := l.foldl (step col) s

end MatchSystem

end Sthrip
