import Sthrip.Db.AgentRepo
import Sthrip.Db.TransactionRepo
import Sthrip.Python.Numbers
import Sthrip.Services.IdempotencyStore

set_option autoImplicit false

/-! # Hub payments, here and in the TEE

`send_hub_routed_payment` of `api/routers/payments.py` with its two backends: `_execute_hub_transfer`, and
the proxy of `sthrip/services/payment_dispatch.py` to `hub_routing` of
`gcp/payment_tee_deploy/payment_service.py`. Both move the same balances. The spending policy and the
lookup of the recipient come before and are left out; log, audit, metrics and webhooks change no balance.
-/

namespace Sthrip.PaymentDispatch

open Txn Prog

/-! ## A payment -/

/-- `_RecipientProfile` -/
structure RecipientProfile where
  id : Id
  agent_name : String
  xmr_address : String

/-- A request, with the agent that makes it and the hash of its body. -/
structure HubPayment where
  agent_id : Id
  /-- What `get_tier` finds for the agent. -/
  tier : AgentTier := .FREE
  recipient : RecipientProfile
  amount : ℚ
  /-- `str(amount)`; decimals of one value have several texts. -/
  amount_text : String
  memo : Option String := none
  urgency : String := "normal"
  idempotency_key : Option String := none
  request_hash : String := ""

/-- `int(amount * 10**12)`; the schema lets no negative amount through. -/
def amountPiconero (amount : ℚ) : ℤ := ⌊Python.roundContext 28 (amount * 10 ^ 12)⌋

inductive HubRouteStatus where
  | PENDING | CONFIRMED | SETTLED | FAILED
  deriving DecidableEq

/-- The fee of `calculate_hub_routing_fee`, at the old rate: one in a hundred, and not over the amount. -/
def hubRoutingFee (amount : ℚ) : ℚ :=
  min (min (max (Python.roundContext 28 (amount / 100)) (1 / 10000)) 999999999) amount

/-- A row of `hub_routes`. It is confirmed in the session that inserts it, with the commission. -/
structure HubRoute where
  from_agent_id : Id
  to_agent_id : Id
  amount : ℚ
  fee_amount : ℚ
  instant_confirmation : Bool
  status : HubRouteStatus

/-- The dict that both backends return. -/
structure Route where
  payment_id : String
  amount : ℚ
  /-- `fee_info["fee_amount"]`: the commission, or the fee at the old rate where none is taken. -/
  fee_amount : ℚ
  status : HubRouteStatus
  duplicate : Bool := false
  deriving DecidableEq

/-- `_build_hub_payment_response` -/
structure HubPaymentResponse where
  payment_id : String
  agent_name : String
  address : String
  amount : String
  fee : ℚ
  total_deducted : ℚ
  deriving DecidableEq

/-- What the payments share: the balances and transactions, and the tables of the router. -/
structure Hub where
  store : Store schema
  /-- `hub_routes`, by `payment_id`. -/
  routes : String → Option HubRoute := fun _ => none
  /-- The idempotency store, by agent and key. -/
  responses : Id → String → Option (IdempotencyKey HubPaymentResponse) := fun _ _ => none

/-! ## What surrounds a payment -/

inductive TeeOutcome where
  /-- The answer of the TEE arrives. -/
  | answers
  /-- The request fails or times out, or something before the TEE answers with 5xx. -/
  | unreached
  /-- The TEE has done its work when the request times out, or its answer becomes a 5xx. -/
  | lost
  /-- The request times out, and the TEE does its work after the fallback. -/
  | late
  deriving DecidableEq

structure Circumstances where
  /-- `STHRIP_PAYMENT_VIA_TEE` -/
  tee_enabled : Bool := true
  outcome : TeeOutcome := .answers
  /-- Does the TEE know the token of the proxy? -/
  proxy_token_ok : Bool := true
  /-- Is the response to the key still in the cache, where it is found without its hash? -/
  cached : Bool := true
  /-- The router's session fails after the TEE has answered. -/
  session_fails : Bool := false
  /-- `secrets.token_hex(16)` -/
  token_hex : String := ""
  /-- The environment's inputs to the session in the TEE, and to the one here. -/
  tee : ℕ → Input schema := fun _ => {}
  here : ℕ → Input schema := fun _ => {}

/-! ## The transfer -/

/-- `InsufficientBalanceError`, a subclass of `ValueError`. -/
def insufficientBalance : Exn → Bool
  | .ValueError text _ =>
      text = "Insufficient balance: available=%s XMR, required=%s XMR (amount=%s + fee=%s)"
  | _ => false

/-- `except InsufficientBalanceError` -/
def orBadRequest {α : Type} (program : Program α) : Program α :=
  tryCatch program fun e =>
    raise (if insufficientBalance e then .HTTPException 400 "Insufficient balance" else e)

/-- The call of `create_with_commission`, which the two backends make alike. -/
def transfer (p : HubPayment) (tx_hash : String) (idempotency_key : Option String) : Program Transaction :=
  orBadRequest
    (TransactionRepository.createWithCommission Columns.rounding tx_hash "hub" p.agent_id p.recipient.id
      (amountPiconero p.amount) .XMR .HUB_ROUTING .CONFIRMED p.memo idempotency_key p.tier)

/-! ## The service in the TEE -/

/-- The checks of `HubPaymentEnvelope`. -/
def envelopeOk (p : HubPayment) (idempotency_key : String) : Bool :=
  1 ≤ p.recipient.agent_name.length ∧ p.recipient.agent_name.length ≤ 128 ∧
    1 ≤ p.recipient.xmr_address.length ∧ p.recipient.xmr_address.length ≤ 128 ∧ 0 < p.amount ∧
      p.urgency ∈ ["low", "normal", "high"] ∧ p.memo.all (fun memo => memo.length ≤ 512) ∧
        8 ≤ idempotency_key.length ∧ idempotency_key.length ≤ 255

/-- `tx_hash` in the TEE -/
def teeHash (idempotency_key : String) : String := "hub:" ++ idempotency_key

/-- The session of `hub_routing`. -/
def hubSession (p : HubPayment) (idempotency_key : String) : Program Transaction := do
  let sender ← AgentRepository.getById p.agent_id
  raiseIf (sender.all fun agent => !agent.is_active) (.HTTPException 404 "sender not found")
  transfer p (teeHash idempotency_key) (some idempotency_key)

inductive TeeAnswer where
  /-- 2xx, with the fee of the transaction. -/
  | ok (payment_id : String) (fee : ℚ)
  /-- 4xx -/
  | userError (status_code : ℕ) (detail : String)
  /-- 5xx -/
  | serverError
  deriving DecidableEq

def TeeAnswer.isServerError (answer : TeeAnswer) : Bool := answer = .serverError

def hubRouting (p : HubPayment) (c : Circumstances) (idempotency_key : String) (st : Store schema) :
    TeeAnswer × Store schema :=
  -- the detail of a 422 is the list of the rejected fields, which nothing reads
  if envelopeOk p idempotency_key = false then (.userError 422 "", st)
  else if c.proxy_token_ok = false then (.userError 401 "invalid proxy token", st)
  else if amountPiconero p.amount ≤ 0 then (.userError 400 "amount must be > 0", st)
  else
    match (hubSession p idempotency_key).withSession.serve c.tee st with
    | (.ok tx, st') => (.ok (teeHash idempotency_key) tx.fee, st')
    | (.error (.HTTPException status_code detail), st') => (.userError status_code detail, st')
    | (.error _, st') => (.serverError, st')

/-! ## The dispatcher -/

section Dispatch

variable (str : Id → String) (sha256 : String → String)

/-- The `payment_id` of `create_hub_route`. -/
def paymentId (p : HubPayment) (idempotency_key : Option String) (token_hex : String) : String :=
  match idempotency_key.filter (· ≠ "") with
  | some key =>
      "hp_" ++ ((sha256 (str p.agent_id ++ ":" ++ str p.recipient.id ++ ":" ++ p.amount_text ++ ":" ++
        key)).take 32).toString
  | none => "hp_" ++ token_hex

/-- `_local_dispatch`, which is `_execute_hub_transfer`. Its session is that of the request. -/
def localDispatch (p : HubPayment) (c : Circumstances) (idempotency_key : Option String) (s : Hub) :
    Except Exn Route × Hub :=
  let payment_id := paymentId str sha256 p idempotency_key c.token_hex
  match s.routes payment_id with
  | some existing =>
      (.ok { payment_id, amount := existing.amount, fee_amount := hubRoutingFee p.amount
             status := existing.status, duplicate := true }, s)
  | none =>
      match (transfer p payment_id idempotency_key).withSession.serve c.here s.store with
      | (.error e, st) => (.error e, { s with store := st })
      | (.ok tx, st) =>
          let row : HubRoute :=
            { from_agent_id := p.agent_id, to_agent_id := p.recipient.id, amount := p.amount
              fee_amount := tx.fee, instant_confirmation := p.urgency = "urgent", status := .CONFIRMED }
          (.ok { payment_id, amount := p.amount, fee_amount := tx.fee, status := .PENDING },
            { s with store := st, routes := Function.update s.routes payment_id (some row) })

/-- `_write_hub_route_after_tee` -/
def writeHubRouteAfterTee (p : HubPayment) (payment_id : String) (fee : ℚ) (s : Hub) : Hub :=
  let row : HubRoute :=
    match s.routes payment_id with
    | some existing =>
        if existing.status = .PENDING then { existing with status := .CONFIRMED, fee_amount := fee }
        else existing
    | none =>
        { from_agent_id := p.agent_id, to_agent_id := p.recipient.id, amount := p.amount
          fee_amount := fee, instant_confirmation := p.urgency = "urgent", status := .CONFIRMED }
  { s with routes := Function.update s.routes payment_id (some row) }

/-- The key that the TEE gets: the caller's, or one made of the agents, the amount and the urgency. -/
def teeKey (p : HubPayment) : String :=
  match p.idempotency_key.filter (· ≠ "") with
  | some key => key
  | none =>
      "auto_" ++ ((sha256 (str p.agent_id ++ ":" ++ str p.recipient.id ++ ":" ++ p.amount_text ++ ":" ++
        p.urgency)).take 24).toString

/-- `_tee_dispatch` -/
def teeDispatch (p : HubPayment) (c : Circumstances) (s : Hub) : Except Exn Route × Hub :=
  let key := teeKey str sha256 p
  let fallback := localDispatch str sha256 p c (some key)
  match c.outcome with
  | .unreached => fallback s
  | .lost => fallback { s with store := (hubRouting p c key s.store).2 }
  | .late =>
      let r := fallback s
      (r.1, { r.2 with store := (hubRouting p c key r.2.store).2 })
  | .answers =>
      match hubRouting p c key s.store with
      | (.serverError, st) => fallback { s with store := st }
      | (.userError status_code detail, st) =>
          (.error (.HTTPException status_code detail), { s with store := st })
      | (.ok payment_id fee, st) =>
          if c.session_fails = true then (.error .OperationalError, { s with store := st })
          else
            (.ok { payment_id, amount := p.amount, fee_amount := fee, status := .CONFIRMED },
              writeHubRouteAfterTee p payment_id fee { s with store := st })

def dispatchHubRouting (p : HubPayment) (c : Circumstances) (s : Hub) : Except Exn Route × Hub :=
  if c.tee_enabled = true then teeDispatch str sha256 p c s
  else localDispatch str sha256 p c p.idempotency_key s

/-! ## The router -/

/-- The answer of the router. -/
inductive Answer where
  | confirmed (response : HubPaymentResponse)
  /-- The route of an earlier payment. -/
  | duplicate (route : Route)
  /-- The stored response to an earlier request with the key. -/
  | replayed (response : HubPaymentResponse)
  | refused (e : Exn)
  deriving DecidableEq

/-- Has the payment been accepted? A replay is no payment of its own. -/
def Answer.accepted : Answer → Bool
  | .confirmed _ => true
  | .duplicate _ => true
  | .replayed _ => false
  | .refused _ => false

/-- `try_reserve`, when requests come one after the other. -/
def reserve (p : HubPayment) (c : Circumstances) (s : Hub) : Reserve HubPaymentResponse :=
  match p.idempotency_key.filter (· ≠ "") with
  | none => .reserved
  | some key =>
      match s.responses p.agent_id key with
      | none => .reserved
      | some row =>
          if c.cached = true then .cached row.response_body
          else IdempotencyStore.checkDb (some row) (some p.request_hash)

def response (p : HubPayment) (route : Route) : HubPaymentResponse :=
  { payment_id := route.payment_id, agent_name := p.recipient.agent_name
    address := p.recipient.xmr_address, amount := p.amount_text, fee := route.fee_amount
    total_deducted := p.amount + route.fee_amount }

/-- `store_response` -/
def storeResponse (p : HubPayment) (r : HubPaymentResponse) (s : Hub) : Hub :=
  match p.idempotency_key.filter (· ≠ "") with
  | some key =>
      let row : IdempotencyKey HubPaymentResponse :=
        { request_hash := p.request_hash, response_status := 200, response_body := r }
      { s with responses := Function.update s.responses p.agent_id
                 (Function.update (s.responses p.agent_id) key (some row)) }
  | none => s

/-- `send_hub_routed_payment` -/
def sendHubPayment (p : HubPayment) (c : Circumstances) (s : Hub) : Answer × Hub :=
  match reserve p c s with
  | .cached r => (.replayed r, s)
  | .conflict => (.refused (.HTTPException 409 "Request is being processed, please retry"), s)
  | .keyReuse =>
      (.refused (.HTTPException 422 ("Idempotency key reused with a different request body. " ++
        "Use a new idempotency key for a different request.")), s)
  | .reserved =>
      if p.agent_id = p.recipient.id then
        (.refused (.HTTPException 400 "Cannot send payment to yourself"), s)
      else
        match dispatchHubRouting str sha256 p c s with
        | (.error e, s') => (.refused e, s')
        | (.ok route, s') =>
            if route.duplicate = true then (.duplicate route, s')
            else (.confirmed (response p route), storeResponse p (response p route) s')

end Dispatch

end Sthrip.PaymentDispatch
