import Sthrip.Db.BalanceRepo
import Sthrip.Billing.Calendar

set_option autoImplicit false

/-! # Transactions and the state of the system

`TransactionRepository` of `sthrip/db/transaction_repo.py`, as far as deposits and withdrawals use it, and
`SystemStateRepository` of `sthrip/db/system_state_repo.py`.
-/

namespace Sthrip

open Txn Prog

namespace TransactionRepository

variable (col : Columns)

/-- `create`. The row is only added to the session there; the `INSERT` is part of the next query's
flush, and this is also where a taken hash raises. -/
def create (tx_hash network : String) (from_agent_id to_agent_id : Option Id) (amount : ℚ)
    (token : Token) (payment_type : PaymentType) (status : TransactionStatus) : Program Unit := do
  let inserted ← Prog.create (Key.transaction tx_hash)
    { network, token, from_agent_id, to_agent_id, amount := col 12 amount, payment_type, status }
  raiseIf (inserted = false) .IntegrityError

/-- `create` with a fee. -/
def createWithFee (tx_hash network : String) (from_agent_id to_agent_id : Option Id) (amount : ℚ)
    (token : Token) (payment_type : PaymentType) (status : TransactionStatus) (fee : ℚ) :
    Program Unit := do
  let inserted ← Prog.create (Key.transaction tx_hash)
    { network, token, from_agent_id, to_agent_id, amount := col 12 amount, fee := col 12 fee
      payment_type, status }
  raiseIf (inserted = false) .IntegrityError

def getByHash (tx_hash : String) : Program (Option Transaction) :=
  select (S := schema) (Key.transaction tx_hash)

end TransactionRepository

namespace SystemStateRepository

def get (key : String) : Program (Option String) := do
  let row ← select (S := schema) (Key.systemState key)
  return row.map (·.value)

/-- `set`: an upsert, and the row is read again. -/
def set (key value : String) : Program Unit := do
  let inserted ← create (Key.systemState key) ({ value } : SystemState)
  onlyIf (inserted = false)
    (update (S := schema) (Key.systemState key) (fun _ => true) fun _ => { value })
  let _ ← select (S := schema) (Key.systemState key)
  return ()

theorem set_only {ok : Stmt schema → Prop} {key value : String}
    (hcreate : ok (.create (Key.systemState key) ({ value } : SystemState)))
    (hupdate : ∀ guard set, ok (.update (Key.systemState key) guard set))
    (hselect : ok (.select (Key.systemState key))) : (set key value).only ok := by
  refine only_bind (only_stmt hcreate) fun inserted => ?_
  refine only_bind (only_onlyIf (only_stmt (hupdate _ _))) fun _ => ?_
  exact only_bind (only_stmt hselect) fun _ => trivial

end SystemStateRepository

/-! # Transfers with a commission

`create_with_commission` of `sthrip/db/transaction_repo.py`, with `record_transaction` of
`sthrip/services/agent_stats_service.py` and the fees of `sthrip/services/fee_calculator.py`. The
encrypted envelope of the row and its metadata are left out, but not that the encryption may fail.
Decimals are exact here: the 28 digits of the arithmetic are more than a balance has.
-/

/-! ## The commission, in piconero -/

def freeTierRateBps : ℤ := 30
def proTierRateBps : ℤ := 10
def bpsDenominator : ℤ := 10000
def minFeePiconero : ℤ := 1

def rateBpsForTier (tier : AgentTier) : ℤ :=
  if tier = .FREE then freeTierRateBps else proTierRateBps

def computeFee (amount : ℤ) (agent_tier : AgentTier) : Except Exn ℤ :=
  if amount < 0 then .error (.ValueError "amount must be non-negative, got %s" [.int amount])
  else
    -- `ROUND_HALF_UP` rounds halves away from zero
    let raw := roundHalfAway (amount * rateBpsForTier agent_tier / bpsDenominator)
    -- `quantize` allows for 28 digits
    if 10 ^ 28 ≤ raw then .error (.ArithmeticError "InvalidOperation")
    else .ok (if raw < minFeePiconero then minFeePiconero else raw)

/-! ## The transfer -/

/-- Piconero as XMR. -/
def toXmr (piconero : ℤ) : ℚ := piconero / 10 ^ 12

/-- `INSERT … ON CONFLICT DO UPDATE` -/
def recordTransaction (agent_id : Id) : Program Unit := do
  let now ← now
  let key := Key.monthlyStats agent_id (Calendar.month now)
  let inserted ← create key ({ transaction_count := 1, last_updated := some now } : AgentMonthlyStats)
  onlyIf (inserted = false)
    (update (S := schema) key (fun _ => true) fun row =>
      { row with transaction_count := row.transaction_count + 1, last_updated := some now })

/-- A write of the database or of the encryption that may fail. -/
def mayFail (e : Exn) : Program Unit := do
  let failed ← ask
  raiseIf (failed ≠ 0) e

theorem mayFail_always {Ok : StepCond schema} {R : Exn → Solo schema → Prop} {v : Solo schema} {e : Exn}
    {Q : Unit → Solo schema → Prop} (h : Q () v)
    (hfails : ∀ x : Input schema, Ok v .ask x → x.choice ≠ 0 → R e v) :
    (mayFail e).always Ok Q R v := by
  refine always_bind (always_stmt fun x _ hx => ?_)
  show (raiseIf (x.choice ≠ 0) e : Program Unit).always Ok Q R v
  exact always_raiseIf (hfails x hx) fun _ => h

namespace TransactionRepository

variable (col : Columns)

/-- `_get_for_update` of the sender and the two assignments. -/
def debitSender (from_agent_id : Id) (total_xmr amount_xmr fee_xmr : ℚ) (token : Token) :
    Program Unit := do
  let sender_balance ← BalanceRepository.getForUpdate from_agent_id token
  let available := sender_balance.available
  raiseIf (available < total_xmr)
    (.ValueError "Insufficient balance: available=%s XMR, required=%s XMR (amount=%s + fee=%s)"
      [.dec available, .dec total_xmr, .dec amount_xmr, .dec fee_xmr])
  BalanceRepository.save from_agent_id token
    (fun row => { row with available := col 12 (available - total_xmr) }) (-total_xmr) .other

/-- The part of `create_with_commission` after the check for a duplicate. `tier` is what `get_tier`
finds for the sender. -/
def transferWithCommission (tx_hash network : String) (from_agent_id to_agent_id : Id)
    (amount_piconero : ℤ) (token : Token) (payment_type : PaymentType) (status : TransactionStatus)
    (memo : Option String) (tier : AgentTier) : Program Transaction :=
  match computeFee amount_piconero tier with
  | .error e => raise e
  | .ok fee_piconero => do
      let amount_xmr := toXmr amount_piconero
      let fee_xmr := toXmr fee_piconero
      let total_xmr := amount_xmr + fee_xmr
      debitSender col from_agent_id total_xmr amount_xmr fee_xmr token
      let _ ← BalanceRepository.credit col to_agent_id amount_xmr token .other
      mayFail (.RuntimeError "STHRIP_HUB_KEK is not set.")
      let tx : Transaction :=
        { network, from_agent_id := some from_agent_id, to_agent_id := some to_agent_id
          amount := col 12 amount_xmr, token, payment_type, status, fee := col 12 fee_xmr
          fee_collected := col 12 fee_xmr, memo }
      let inserted ← Prog.create (Key.transaction tx_hash) tx
      raiseIf (inserted = false) .IntegrityError
      mayFail .IntegrityError
      let now ← now
      -- `source_id` is the row's surrogate key, which the rows here do not have
      insert (Entry.fee
        { source_type := "fee_collection", source_id := none, amount := col 12 fee_xmr, token
          status := .PENDING, payer_agent_id := some from_agent_id
          amount_piconero := some fee_piconero, rate_applied_bps := some (rateBpsForTier tier)
          transaction_ref := some tx_hash, collected_at := some now })
      mayFail .IntegrityError
      recordTransaction from_agent_id
      return tx

/-- The check for a duplicate. -/
def findExisting (idempotency_key : Option String) (tx_hash : String) :
    Program (Option Transaction) :=
  if idempotency_key.isSome then getByHash tx_hash else return none

def createWithCommission (tx_hash network : String) (from_agent_id to_agent_id : Id)
    (amount_piconero : ℤ) (token : Token) (payment_type : PaymentType) (status : TransactionStatus)
    (memo : Option String) (idempotency_key : Option String) (tier : AgentTier) :
    Program Transaction := do
  raiseIf (amount_piconero < 0)
    (.ValueError "amount_piconero must be non-negative, got %s" [.int amount_piconero])
  let existing ← findExisting idempotency_key tx_hash
  match existing with
  | some existing => return existing
  | none =>
      transferWithCommission col tx_hash network from_agent_id to_agent_id amount_piconero token
        payment_type status memo tier

end TransactionRepository

end Sthrip
