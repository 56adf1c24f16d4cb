import Sthrip.Db.EscrowRepo
import Sthrip.Services.EscrowService

set_option autoImplicit false

/-! # Multisig escrows -/

/-! ## Multisig escrows

`MultisigEscrowRepository` of `sthrip/db/multisig_repo.py`. A submission of a round is identified by
its escrow, its round and its participant, which the table keeps unique. `updated_at` and
`created_at` are left out.
-/

namespace Sthrip

open Txn Prog

namespace MultisigEscrowRepository

variable (col : Columns)

/-- `ms_id` is the fresh identifier of the row. -/
def create (ms_id escrow_deal_id : Id) (state : String) (fee_collected funded_amount : ℚ)
    (timeout_at : Time) : Program Unit := do
  let inserted ← Prog.create (Key.multisig ms_id)
    { escrow_deal_id, state, fee_collected := col 8 fee_collected
      funded_amount := some (col 8 funded_amount), timeout_at }
  raiseIf (inserted = false) .IntegrityError

def getByIdForUpdate (escrow_id : Id) : Program (Option MultisigEscrow) :=
  selectForUpdate (S := schema) (Key.multisig escrow_id)

def addRound (multisig_escrow_id : Id) (round_number : ℤ) (participant multisig_info : String) :
    Program Unit := do
  raiseIf (participant ∉ ["buyer", "hub", "seller"])
    (.ValueError "participant must be one of ['buyer', 'hub', 'seller']")
  let inserted ← Prog.create (Key.multisigRound multisig_escrow_id round_number participant)
    { multisig_info }
  raiseIf (inserted = false) .IntegrityError

def ofRound (multisig_escrow_id : Id) (round_number : ℤ) : (k : Key) → Row k → Bool
  | .multisigRound escrow number _, _ => escrow = multisig_escrow_id ∧ number = round_number
  | _, _ => false

def countRoundSubmissions (multisig_escrow_id : Id) (round_number : ℤ) : Program ℕ := do
  let keys ← scan (ofRound multisig_escrow_id round_number)
  return keys.length

/-- The participant and the info of a submission. -/
def submission : (Σ k : Key, Row k) → Option (String × String)
  | ⟨.multisigRound _ _ participant, round⟩ => some (participant, round.multisig_info)
  | _ => none

/-- The submissions of one round, ordered by participant. -/
def getRounds (multisig_escrow_id : Id) (round_number : ℤ) : Program (List (String × String)) := do
  let rows ← query (ofRound multisig_escrow_id round_number)
  return (rows.filterMap submission).insertionSort fun r r' => r.1 ≤ r'.1

def updateState (escrow_id : Id) (new_state : String) : Program Bool :=
  update (S := schema) (Key.multisig escrow_id) (fun _ => true) fun ms =>
    { ms with state := new_state }

end MultisigEscrowRepository

end Sthrip

/-! ## Multisig escrow deals

`MultisigCoordinator` of `sthrip/services/multisig_coordinator.py`. The hub's wallet is a parameter:
each call of it takes an answer from outside, which is a text or an exception. The stubs that stand
in for a missing wallet are such wallets. The audit log and the metadata of the deal are left out.
-/

namespace Sthrip

open Txn Prog

/-- The calls to the hub's wallet. The number is the answer of the environment. -/
structure MultisigWallet where
  prepareMultisig : ℕ → Except Exn String
  makeMultisig (multisig_info : List String) : ℕ → Except Exn String
  exchangeMultisigKeys (multisig_info : List String) : ℕ → Except Exn String
  finalizeMultisigAddress (multisig_info : List String) : ℕ → Except Exn String
  createPartialReleaseTx (ms : MultisigEscrow) : ℕ → Except Exn String
  broadcastSignedTx (signed_tx : String) : ℕ → Except Exn String

namespace MultisigCoordinator

def feePercent : ℚ := 1 / 100

def setupTimeoutHours : ℤ := 24

def participantsPerRound : ℕ := 3

def validParticipants : List String := ["buyer", "hub", "seller"]

/-- `_ROUND_STATE_MAP` -/
def roundStates : ℤ → String × String
  | 1 => ("setup_round_1", "setup_round_2")
  | 2 => ("setup_round_2", "setup_round_3")
  | _ => ("setup_round_3", "funded")

/-- A call to the wallet. -/
def wallet (answer : ℕ → Except Exn String) : Program String := do
  let n ← ask
  match answer n with
  | .ok text => return text
  | .error e => raise e

variable (col : Columns) (w : MultisigWallet)

/-- The fee that is collected upfront, `0.01` of the amount at eight decimals. -/
def upfrontFee (amount : ℚ) : ℚ := quantize 8 (amount * feePercent)

/-- `deal_id` and `ms_id` are the fresh identifiers of the rows. -/
def create (deal_id ms_id buyer_id seller_id : Id) (amount : ℚ) (description : String)
    (accept_timeout_hours delivery_timeout_hours review_timeout_hours : ℤ) : Program Id := do
  raiseIf (buyer_id = seller_id) (.ValueError "Buyer and seller must be different agents")
  raiseIf (amount ≤ 0) (.ValueError "Amount must be positive")
  let seller ← AgentRepository.getById seller_id
  let seller ← orRaise (.LookupError "Seller not found") seller
  raiseIf (seller.is_active = false) (.ValueError "Seller is not active")
  let fee := upfrontFee amount
  let funded_amount := amount - fee
  let _ ← BalanceRepository.deduct col buyer_id amount .XMR (.escrow deal_id)
  let now ← now
  let _ ← EscrowRepository.create col deal_id buyer_id seller_id amount description
    accept_timeout_hours delivery_timeout_hours review_timeout_hours feePercent
  let timeout_at := now + hours setupTimeoutHours
  MultisigEscrowRepository.create col ms_id deal_id "setup_round_1" fee funded_amount timeout_at
  insert (Entry.fee
    { source_type := "multisig_escrow", source_id := some ms_id, amount := col 12 fee
      token := .XMR, status := .COLLECTED })
  let hub_info ← wallet w.prepareMultisig
  MultisigEscrowRepository.addRound ms_id 1 "hub" hub_info
  return ms_id

/-- `_process_hub_round` -/
def processHubRound (completed_round : ℤ) (other_infos : List String) : Program (Option String) :=
  match completed_round with
  | 1 => do
      let info ← wallet (w.makeMultisig other_infos)
      return some info
  | 2 => do
      let info ← wallet (w.exchangeMultisigKeys other_infos)
      return some info
  | _ => return none

/-- The hub's submission to the next round, if there is one to make. -/
def submitHubInfo (escrow_id : Id) (round_number : ℤ) (next_state : String) :
    Option String → Program Unit
  | some info =>
      onlyIf (next_state ∈ ["setup_round_2", "setup_round_3"] ∧ info ≠ "")
        (MultisigEscrowRepository.addRound escrow_id (round_number + 1) "hub" info)
  | none => return

/-- What follows the last submission of a round. -/
def advanceRound (escrow_id : Id) (round_number : ℤ) : Program Unit := do
  let next_state := (roundStates round_number).2
  let all_round_entries ← MultisigEscrowRepository.getRounds escrow_id round_number
  let other_infos := (all_round_entries.filter fun r => r.1 ≠ "hub").map Prod.snd
  let hub_next_info ← processHubRound w round_number other_infos
  let _ ← MultisigEscrowRepository.updateState escrow_id next_state
  assign (Key.multisig escrow_id) fun ms => { ms with state := next_state }
  submitHubInfo escrow_id round_number next_state hub_next_info
  if next_state = "funded" then
    let address ← wallet (w.finalizeMultisigAddress other_infos)
    assign (Key.multisig escrow_id) fun ms => { ms with multisig_address := some address }

def submitRound (escrow_id : Id) (participant : String) (round_number : ℤ)
    (multisig_info : String) : Program ℕ := do
  raiseIf (participant ∉ validParticipants)
    (.ValueError "participant must be one of ['buyer', 'hub', 'seller']")
  raiseIf (round_number ∉ [1, 2, 3]) (.ValueError "round_number must be 1, 2, or 3")
  let ms ← MultisigEscrowRepository.getByIdForUpdate escrow_id
  let ms ← orRaise (.LookupError "Multisig escrow %s not found" [.int escrow_id]) ms
  let expected_state := (roundStates round_number).1
  raiseIf (ms.state ≠ expected_state)
    (.ValueError "Cannot submit round %s data in state '%s' (expected '%s')"
      [.int round_number, .str ms.state, .str expected_state])
  MultisigEscrowRepository.addRound escrow_id round_number participant multisig_info
  let count ← MultisigEscrowRepository.countRoundSubmissions escrow_id round_number
  onlyIf (participantsPerRound ≤ count) (advanceRound w escrow_id round_number)
  return count

def initiateRelease (escrow_id : Id) (initiator : String) : Program String := do
  raiseIf (initiator ∉ validParticipants)
    (.ValueError "initiator must be one of ['buyer', 'hub', 'seller']")
  let ms ← MultisigEscrowRepository.getByIdForUpdate escrow_id
  let ms ← orRaise (.LookupError "Multisig escrow %s not found" [.int escrow_id]) ms
  raiseIf (ms.state ∉ ["active", "funded"])
    (.ValueError "Cannot initiate release in state '%s'" [.str ms.state])
  let partial_tx ← wallet (w.createPartialReleaseTx ms)
  assign (Key.multisig escrow_id) fun ms =>
    { ms with
      state := "releasing", release_initiator := some initiator
      release_tx_hex := some partial_tx }
  return partial_tx

def cosignRelease (escrow_id : Id) (signer signed_tx : String) : Program String := do
  raiseIf (signer ∉ validParticipants)
    (.ValueError "signer must be one of ['buyer', 'hub', 'seller']")
  let ms ← MultisigEscrowRepository.getByIdForUpdate escrow_id
  let ms ← orRaise (.LookupError "Multisig escrow %s not found" [.int escrow_id]) ms
  raiseIf (ms.state ≠ "releasing")
    (.ValueError "Cannot cosign in state '%s' (expected 'releasing')" [.str ms.state])
  raiseIf (ms.release_initiator = some signer)
    (.ValueError "Cosigner must be different from the release initiator")
  let tx_hash ← wallet (w.broadcastSignedTx signed_tx)
  assign (Key.multisig escrow_id) fun ms =>
    { ms with state := "completed", funded_tx_hash := some tx_hash }
  let deal ← EscrowRepository.getById ms.escrow_deal_id
  match deal with
  | none => return tx_hash
  | some deal =>
      if deal.status = .COMPLETED then return tx_hash
      let now ← now
      assign (Key.deal ms.escrow_deal_id) fun deal =>
        { deal with status := .COMPLETED, completed_at := some now }
      return tx_hash

def dispute (escrow_id : Id) (disputer reason : String) : Program Unit := do
  raiseIf (disputer ∉ validParticipants)
    (.ValueError "disputer must be one of ['buyer', 'hub', 'seller']")
  raiseIf (reason.toList.all Char.isWhitespace) (.ValueError "Dispute reason must not be empty")
  let ms ← MultisigEscrowRepository.getByIdForUpdate escrow_id
  let ms ← orRaise (.LookupError "Multisig escrow %s not found" [.int escrow_id]) ms
  raiseIf (ms.state ∈ ["completed", "cancelled"])
    (.ValueError "Cannot dispute escrow in terminal state '%s'" [.str ms.state])
  assign (Key.multisig escrow_id) fun ms =>
    { ms with
      state := "disputed", disputed_by := some disputer, dispute_reason := some reason }

end MultisigCoordinator

end Sthrip
