import Sthrip.Db.TransactionRepo
import Sthrip.Python.Texts
import Sthrip.Services.EscrowService
import Sthrip.Txn.Objects

set_option autoImplicit false

/-! # Payment envelopes

`sthrip/services/payment_envelope_writer.py`, `sthrip/services/payment_envelope_reader.py`, and the payloads
of `sthrip/services/envelope_crypto.py`. Next to the plain columns a payment row keeps its participants, its
amount and its description encrypted. When `STHRIP_READ_FROM_ENVELOPE` is set, some reads of the
repositories put the decrypted values on the object they return.

The tables are those of `Db/Models.lean` with the column of the envelope. The bucket of the amount, which
is shown only, is left out. Programs over the plain tables are lifted, and the methods that write
envelopes are those of the repositories with the envelope.
-/

namespace Sthrip

open Txn Prog

/-! ## Payloads -/

/-- What is encrypted: the texts of the four fields. -/
structure Payload where
  from_agent_id : Option String
  to_agent_id : Option String
  amount : Option String
  description : Option String
  deriving DecidableEq

/-- `_normalize_payload` -/
def normalizePayload (from_agent_id to_agent_id : Option Id) (amount : Option ℚ)
    (description : Option String) : Payload where
  from_agent_id := from_agent_id.map Python.strUuid
  to_agent_id := to_agent_id.map Python.strUuid
  amount := amount.map Python.strDecimal
  description := description

/-- Ideal encryption under the right keys: what is decrypted is what was encrypted. -/
structure EnvelopeCrypto where
  Envelope : Type
  /-- The number stands for the key and the nonces that are drawn. -/
  encryptEnvelope : ℕ → Payload → Envelope
  /-- Nothing, when the decryption raises. -/
  decryptEnvelope : Envelope → Option Payload
  decrypt_encrypt : ∀ drawn payload, decryptEnvelope (encryptEnvelope drawn payload) = some payload

variable (E : EnvelopeCrypto)

/-! ## Writing -/

def buildEnvelope (drawn : ℕ) (from_agent_id to_agent_id : Option Id) (amount : Option ℚ)
    (description : Option String) : E.Envelope :=
  E.encryptEnvelope drawn (normalizePayload from_agent_id to_agent_id amount description)

/-- A row with its envelope. -/
structure Sealed (R : Type) where
  row : R
  participant_envelope : Option E.Envelope := none

/-- An envelope that is already there is kept. -/
def applyEnvelope {R : Type} (drawn : ℕ) (model : Sealed E R) (from_agent_id to_agent_id : Option Id)
    (amount : Option ℚ) (description : Option String) : Sealed E R :=
  if model.participant_envelope.isSome then model
  else { model with
    participant_envelope := some (buildEnvelope E drawn from_agent_id to_agent_id amount description) }

/-! ## Reading -/

inductive ReadSource where
  | envelope | flag_off | fallback_envelope_null | fallback_decrypt_error | fallback_no_data
  deriving DecidableEq

structure ReadResult where
  from_agent_id : Option Id
  to_agent_id : Option Id
  amount : Option ℚ
  description : Option String
  source : ReadSource

/-- `_row_fallback`, by the table; rows of other tables have none of the attributes. -/
def rowFallback (source : ReadSource) : (k : Key) → Row k → ReadResult
  | .deal _, deal => ⟨some deal.buyer_id, some deal.seller_id, some deal.amount, some deal.description, source⟩
  | .milestone _ _, ms => ⟨none, none, some ms.amount, some ms.description, source⟩
  | .transaction _, tx => ⟨tx.from_agent_id, tx.to_agent_id, some tx.amount, tx.memo, source⟩
  | _, _ => ⟨none, none, none, none, source⟩

def isEmptyFallback (result : ReadResult) : Bool :=
  result.from_agent_id = none ∧ result.to_agent_id = none ∧ result.amount = none ∧
    result.description = none

/-- The fallback, or the marker of a row without any data. -/
def fallbackOrNoData (result : ReadResult) : ReadResult :=
  if isEmptyFallback result then ⟨none, none, none, none, .fallback_no_data⟩ else result

/-- `flag` is `feature_flag_enabled()`. -/
def readWithFallback (flag : Bool) (k : Key) (r : Sealed E (Row k)) : ReadResult :=
  if flag = false then fallbackOrNoData (rowFallback .flag_off k r.row)
  else
    match r.participant_envelope with
    | none => fallbackOrNoData (rowFallback .fallback_envelope_null k r.row)
    | some blob =>
        match E.decryptEnvelope blob with
        | none => fallbackOrNoData (rowFallback .fallback_decrypt_error k r.row)
        | some payload =>
            { from_agent_id := payload.from_agent_id.bind Python.uuid
              to_agent_id := payload.to_agent_id.bind Python.uuid
              amount := payload.amount.bind Python.decimal
              description := payload.description
              source := .envelope }

/-- The attributes that a row exposes, set to what was read. -/
def setFields (result : ReadResult) : (k : Key) → Row k → Row k
  | .deal _, deal => { deal with
      buyer_id := result.from_agent_id.getD deal.buyer_id
      seller_id := result.to_agent_id.getD deal.seller_id
      amount := result.amount.getD deal.amount
      description := result.description.getD "" }
  | .milestone _ _, ms => { ms with
      amount := result.amount.getD ms.amount
      description := result.description.getD "" }
  | .transaction _, tx => { tx with
      from_agent_id := result.from_agent_id
      to_agent_id := result.to_agent_id
      amount := result.amount.getD tx.amount
      memo := result.description }
  | _, row => row

def applyEnvelopeToRow (flag : Bool) (k : Key) (r : Sealed E (Row k)) : Sealed E (Row k) :=
  let result := readWithFallback E flag k r
  if result.source ≠ .envelope then r else { r with row := setFields result k r.row }

/-! ## The tables with envelopes -/

/-- What the column of the amount keeps. -/
def storeAmount (col : Columns) : (k : Key) → Row k → Row k
  | .deal _, deal => { deal with amount := col 12 deal.amount }
  | .milestone _ _, ms => { ms with amount := col 12 ms.amount }
  | .transaction _, tx => { tx with amount := col 12 tx.amount }
  | _, row => row

abbrev sealedSchema : Schema where
  Key := Key
  Row k := Sealed E (Row k)
  Entry := Entry
  Ext := Ext
  Op := ExtOp
  Res := fun op => nomatch op
  perform := fun op => nomatch op
  Err := Exn
  commitErr := .OperationalError

abbrev SealedProgram (α : Type) := Prog (sealedSchema E) α

/-- A flush writes the attributes that `apply_envelope_to_row` has set. -/
def dualReads (col : Columns) (flag : Bool) : Mapper (sealedSchema E) where
  insert k r := { r with row := storeAmount col k r.row }
  flush k o r := { r with row := setFields (rowFallback .flag_off k (storeAmount col k o.row)) k r.row }
  read k r := applyEnvelopeToRow E flag k r

/-- A statement over the plain tables, which writes no envelope. -/
def liftStmt : Stmt schema → Stmt (sealedSchema E)
  | .now => .now
  | .ask => .ask
  | .select k => .select k
  | .selectForUpdate k => .selectForUpdate k
  | .scan p => .scan fun k r => p k r.row
  | .update k guard set => .update k (fun r => guard r.row) fun r => { r with row := set r.row }
  | .assign k set => .assign k fun r => { r with row := set r.row }
  | .create k row => .create k { row := row }
  | .insert e => .insert e
  | .expireAll => .expireAll
  | .call op => .call op
  | .commit => .commit
  | .rollback => .rollback

/-- The answer without the envelope. -/
def plain : (s : Stmt schema) → (liftStmt E s).Res → s.Res
  | .now, t => t
  | .ask, n => n
  | .select _, r => r.map Sealed.row
  | .selectForUpdate _, r => r.map Sealed.row
  | .scan _, ks => ks
  | .update _ _ _, b => b
  | .assign _ _, u => u
  | .create _ _, b => b
  | .insert _, u => u
  | .expireAll, u => u
  | .call _, r => r
  | .commit, b => b
  | .rollback, u => u

/-- A program over the plain tables. -/
def lift {α : Type} : Program α → SealedProgram E α
  | .ret a => .ret a
  | .raise e => .raise e
  | .step s next => .step (liftStmt E s) fun r => lift (next (plain E s r))

/-! ## Methods that write envelopes -/

variable (col : Columns)

namespace Sealed

/-- `EscrowRepository.create` -/
def createDeal (deal_id buyer_id seller_id : Id) (amount : ℚ) (description : String)
    (accept_timeout_hours delivery_timeout_hours review_timeout_hours : ℤ) (fee_percent : ℚ) :
    SealedProgram E EscrowDeal := do
  let now ← now
  let accept_deadline := now + hours accept_timeout_hours
  let deal : EscrowDeal :=
    { buyer_id, seller_id, amount, description, accept_timeout_hours, delivery_timeout_hours
      review_timeout_hours, fee_percent := col 4 fee_percent, status := .CREATED
      accept_deadline := some accept_deadline, expires_at := some accept_deadline }
  let drawn ← ask
  let inserted ← Prog.create (S := sealedSchema E) (Key.deal deal_id)
    (applyEnvelope E drawn { row := deal } (some buyer_id) (some seller_id) (some amount) (some description))
  raiseIf (inserted = false) .IntegrityError
  return deal

/-- The row of one entry; the participants are those of the parent deal. -/
def createMilestone (escrow_id : Id) (buyer_id seller_id : Option Id) (m : MilestoneData) (idx : ℕ) :
    SealedProgram E Unit := do
  raiseIf (¬(1 ≤ idx ∧ idx ≤ 10)) .IntegrityError
  raiseIf (¬0 < col 12 m.amount) .IntegrityError
  let milestone : EscrowMilestone :=
    { description := m.description, amount := m.amount, delivery_timeout_hours := m.delivery_timeout_hours
      review_timeout_hours := m.review_timeout_hours, status := .PENDING }
  let drawn ← ask
  let inserted ← Prog.create (S := sealedSchema E) (Key.milestone escrow_id idx)
    (applyEnvelope E drawn { row := milestone } buyer_id seller_id (some m.amount) (some m.description))
  raiseIf (inserted = false) .IntegrityError

/-- `MilestoneRepository.create_milestones` -/
def createMilestones (escrow_id : Id) (milestones_data : List MilestoneData) : SealedProgram E Unit := do
  let parent_deal ← select (S := sealedSchema E) (Key.deal escrow_id)
  let buyer_id := parent_deal.map fun deal => deal.row.buyer_id
  let seller_id := parent_deal.map fun deal => deal.row.seller_id
  forEach (milestones_data.zipIdx 1) fun (m, idx) => createMilestone E col escrow_id buyer_id seller_id m idx

/-- `EscrowService.create_escrow` -/
def createEscrow (deal_id buyer_id seller_id : Id) (amount : ℚ) (description : String)
    (accept_timeout_hours delivery_timeout_hours review_timeout_hours : ℤ)
    (milestones : Option (List MilestoneData)) : SealedProgram E EscrowDeal := do
  raiseIf (buyer_id = seller_id) (.ValueError "Buyer and seller must be different agents")
  raiseIf (amount ≤ 0) (.ValueError "Amount must be positive")
  let milestone_total := ((milestones.getD []).map (·.amount)).sum
  raiseIf (milestones.isSome ∧ milestone_total ≠ amount)
    (.ValueError "Sum of milestone amounts (%s) must equal deal amount (%s)"
      [.dec milestone_total, .dec amount])
  let seller ← lift E (AgentRepository.getById seller_id)
  let seller ← orRaise (.LookupError "Seller not found") seller
  raiseIf (seller.is_active = false) (.ValueError "Seller is not active")
  let _ ← lift E (BalanceRepository.deduct col buyer_id amount .XMR (.escrow deal_id))
  let deal ← createDeal E col deal_id buyer_id seller_id amount description accept_timeout_hours
    delivery_timeout_hours review_timeout_hours computeFeePercent
  match milestones with
  | none => return deal
  | some milestones =>
      let setup (deal : EscrowDeal) : EscrowDeal :=
        { deal with
          is_multi_milestone := true, milestone_count := milestones.length
          current_milestone := 1, total_released := 0, total_fees := 0 }
      assign (S := sealedSchema E) (Key.deal deal_id) fun r => { r with row := setup r.row }
      createMilestones E col deal_id milestones
      return setup deal

/-- `TransactionRepository.create` -/
def createTransaction (tx_hash network : String) (from_agent_id to_agent_id : Option Id) (amount : ℚ)
    (token : Token) (payment_type : PaymentType) (status : TransactionStatus) (fee fee_collected : ℚ)
    (memo : Option String) : SealedProgram E Unit := do
  let tx : Transaction :=
    { network, from_agent_id, to_agent_id, amount, token, payment_type, status, fee := col 12 fee
      fee_collected := col 12 fee_collected, memo }
  let drawn ← ask
  let inserted ← Prog.create (S := sealedSchema E) (Key.transaction tx_hash)
    (applyEnvelope E drawn { row := tx } from_agent_id to_agent_id (some amount) memo)
  raiseIf (inserted = false) .IntegrityError

/-- `TransactionRepository.create_with_commission`, after the check for a duplicate. -/
def transferWithCommission (tx_hash network : String) (from_agent_id to_agent_id : Id)
    (amount_piconero : ℤ) (token : Token) (payment_type : PaymentType) (status : TransactionStatus)
    (memo : Option String) (tier : AgentTier) : SealedProgram E Unit :=
  match computeFee amount_piconero tier with
  | .error e => raise e
  | .ok fee_piconero => do
      let amount_xmr := toXmr amount_piconero
      let fee_xmr := toXmr fee_piconero
      let total_xmr := amount_xmr + fee_xmr
      lift E (TransactionRepository.debitSender col from_agent_id total_xmr amount_xmr fee_xmr token)
      let _ ← lift E (BalanceRepository.credit col to_agent_id amount_xmr token .other)
      createTransaction E col tx_hash network (some from_agent_id) (some to_agent_id) amount_xmr token
        payment_type status fee_xmr fee_xmr memo
      let now ← now
      insert (S := sealedSchema E) (Entry.fee
        { source_type := "fee_collection", source_id := none, amount := col 12 fee_xmr, token
          status := .PENDING, payer_agent_id := some from_agent_id
          amount_piconero := some fee_piconero, rate_applied_bps := some (rateBpsForTier tier)
          transaction_ref := some tx_hash, collected_at := some now })
      lift E (recordTransaction from_agent_id)

end Sealed

end Sthrip
