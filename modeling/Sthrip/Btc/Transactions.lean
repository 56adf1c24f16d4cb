import Sthrip.Btc.Bech32
import Sthrip.Btc.Htlc

set_option autoImplicit false

/-! # The transactions of a Bitcoin swap

`HTLCTransactionBuilder` of `sthrip/swaps/btc/transactions.py`. An error of the source is `none`. The
signature is an argument: the source leaves the hash that is signed open.
-/

namespace Sthrip.Btc

open Bitcoin

/-! ## Serialization -/

def varint (n : ℕ) : Option Bytes :=
  if n < 0xfd then some (toLE 1 n)
  else if n ≤ 0xffff then some (0xfd :: toLE 2 n)
  else if n ≤ 0xffffffff then some (0xfe :: toLE 4 n)
  else if n < 2 ^ 64 then some (0xff :: toLE 8 n)
  else none

/-- `serialize_uint32` -/
def serializeUint32 (n : ℤ) : Option Bytes :=
  if 0 ≤ n ∧ n < 2 ^ 32 then some (toLE 4 n.toNat) else none

/-- `serialize_uint64` -/
def serializeUint64 (n : ℤ) : Option Bytes :=
  if 0 ≤ n ∧ n < 2 ^ 64 then some (toLE 8 n.toNat) else none

structure TxIn where
  /-- The transaction that is spent, as its hexadecimal identifier gives it. -/
  txid : Bytes
  vout : ℤ
  script_sig : Bytes := []
  sequence : ℤ

/-- `serialize_input`, with `serialize_outpoint` -/
def TxIn.serialize (i : TxIn) : Option Bytes := do
  let vout ← serializeUint32 i.vout
  let length ← varint i.script_sig.length
  let sequence ← serializeUint32 i.sequence
  return i.txid.reverse ++ vout ++ length ++ i.script_sig ++ sequence

structure TxOut where
  amount : ℤ
  script_pubkey : Bytes

/-- `serialize_output` -/
def TxOut.serialize (o : TxOut) : Option Bytes := do
  let amount ← serializeUint64 o.amount
  let length ← varint o.script_pubkey.length
  return amount ++ length ++ o.script_pubkey

/-- A transaction with one input and one output. -/
structure Transaction where
  version : ℤ
  input : TxIn
  output : TxOut
  locktime : ℤ

/-- `_serialize_witness` -/
def serializeWitness (items : List Bytes) : Option Bytes := do
  let count ← varint items.length
  items.foldlM (fun result item => do return result ++ (← varint item.length) ++ item) count

/-- `tx_no_witness` and `raw_tx` -/
def Transaction.serialize (tx : Transaction) (witness : List Bytes) : Option (Bytes × Bytes) := do
  let version ← serializeUint32 tx.version
  let input ← tx.input.serialize
  let output ← tx.output.serialize
  let locktime ← serializeUint32 tx.locktime
  let count ← varint 1
  let witness ← serializeWitness witness
  let inputs := count ++ input
  let outputs := count ++ output
  return (version ++ inputs ++ outputs ++ locktime,
    version ++ [0, 1] ++ inputs ++ outputs ++ witness ++ locktime)

/-- `create_p2wpkh_scriptpubkey` -/
def createP2wpkhScriptpubkey (pubkey_hash : Bytes) : Bytes := [0, 0x14] ++ pubkey_hash

/-! ## The builder -/

/-- `hash256` of `sthrip/swaps/utils/bitcoin.py` -/
def hash256 (data : Bytes) : Bytes := sha256 (sha256 data)

/-- A transaction with the witness of its input, and how it is sent. -/
structure SignedTransaction where
  tx : Transaction
  witness : List Bytes
  raw_tx : Bytes
  /-- As the hexadecimal identifier gives it. -/
  txid : Bytes

/-- What the two builders share: pay the amount less the fee to an address. -/
def buildTransaction (input : TxIn) (funding_amount_satoshi fee_satoshi : ℤ) (address : String)
    (locktime : ℤ) (witness : List Bytes) : Option SignedTransaction := do
  let output_amount := funding_amount_satoshi - fee_satoshi
  let (_, witver, witprog) ← decodeBech32 address
  if witver ≠ 0 ∨ witprog.length ≠ 20 then none
  else
    let tx : Transaction :=
      { version := 2
        input
        output := ⟨output_amount, createP2wpkhScriptpubkey witprog⟩
        locktime }
    let bytes ← tx.serialize witness
    return { tx, witness, raw_tx := bytes.2, txid := (hash256 bytes.1).reverse }

/-- `build_claim_transaction` -/
def buildClaimTransaction (funding_txid : Bytes) (funding_vout funding_amount_satoshi : ℤ)
    (htlc_redeem_script preimage : Bytes) (recipient_address : String) (signature : Bytes)
    (fee_satoshi : ℤ) : Option SignedTransaction :=
  buildTransaction { txid := funding_txid, vout := funding_vout, sequence := 0xffffffff }
    funding_amount_satoshi fee_satoshi recipient_address 0
    (createClaimWitness preimage signature htlc_redeem_script)

/-- `build_refund_transaction`. The sequence number must be below the last for the lock time to
count. -/
def buildRefundTransaction (funding_txid : Bytes) (funding_vout funding_amount_satoshi : ℤ)
    (htlc_redeem_script : Bytes) (sender_address : String) (signature : Bytes) (fee_satoshi : ℤ)
    (locktime : ℤ) : Option SignedTransaction :=
  buildTransaction { txid := funding_txid, vout := funding_vout, sequence := 0xfffffffe }
    funding_amount_satoshi fee_satoshi sender_address locktime
    (createRefundWitness signature htlc_redeem_script)

/-- What the builders put into a transaction. -/
theorem buildTransaction_eq {input : TxIn} {amount fee : ℤ} {address : String} {locktime : ℤ}
    {witness : List Bytes} {signed : SignedTransaction}
    (h : buildTransaction input amount fee address locktime witness = some signed) :
    signed.witness = witness ∧ signed.tx.input = input ∧ signed.tx.locktime = locktime ∧
      0 ≤ locktime ∧ locktime < 2 ^ 32 := by
  simp only [buildTransaction, Option.bind_eq_bind, Option.bind_eq_some_iff] at h
  obtain ⟨⟨_, witver, witprog⟩, -, h⟩ := h
  split at h
  · cases h
  · simp only [Option.bind_eq_some_iff] at h
    obtain ⟨bytes, hbytes, h⟩ := h
    obtain rfl := Option.some.inj h
    simp only [Transaction.serialize, Option.bind_eq_bind, Option.bind_eq_some_iff] at hbytes
    obtain ⟨_, -, _, -, _, -, _, hlock, -⟩ := hbytes
    unfold serializeUint32 at hlock
    split at hlock
    · next hrange => exact ⟨rfl, rfl, rfl, hrange⟩
    · cases hlock

end Sthrip.Btc
