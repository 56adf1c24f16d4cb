import Sthrip.Btc.Transactions
import Sthrip.Bitcoin.Script

set_option autoImplicit false

/-! # Who can spend a swap contract

The redeem script is spent by exactly two items: a signature, and an item whose hash chooses the
branch. The refund witness has this shape. The claim witness has one item more, which the script
takes for the preimage, so a claim never succeeds.
-/

namespace Sthrip.Btc

open Bitcoin

/-- The terms of a contract. -/
structure Htlc where
  preimage_hash : Bytes
  recipient_pubkey : Bytes
  sender_pubkey : Bytes
  locktime : ℤ
  hash_length : preimage_hash.length = 32
  recipient_length : recipient_pubkey.length = 33
  sender_length : sender_pubkey.length = 33
  distinct : recipient_pubkey ≠ sender_pubkey

namespace Htlc

def redeemScript (c : Htlc) : Option Bytes :=
  createHtlcRedeemScript c.preimage_hash c.recipient_pubkey c.sender_pubkey c.locktime

/-- The script as the interpreter reads it. -/
def instrs (c : Htlc) : List Instr :=
  [.op OP_SHA256, .push c.preimage_hash, .op OP_EQUAL, .op OP_IF, .push c.recipient_pubkey,
    .op OP_ELSE, .push (encodeNum c.locktime), .op OP_CHECKLOCKTIMEVERIFY, .op OP_DROP,
    .push c.sender_pubkey, .op OP_ENDIF, .op OP_CHECKSIG]

end Htlc

/-- The interpreter reads what `push_bytes` writes. -/
theorem next_pushBytes {data pushed : Bytes} (h : pushBytes data = some pushed) (s : Bytes) :
    next (pushed ++ s) = some (.push data, s) := by
  unfold pushBytes at h
  simp only at h
  split at h
  · next hlen =>
      obtain rfl := Option.some.inj h
      have hnat : (UInt8.ofNat data.length).toNat = data.length := by
        rw [UInt8.toNat_ofNat', Nat.mod_eq_of_lt (by omega)]
      rw [List.cons_append, next, if_pos (by omega), hnat, readPush_append]
  · split at h
    · obtain rfl := Option.some.inj h
      simp only [List.cons_append, List.nil_append, List.append_assoc]
      rw [next_pushData1, readPushData_append _ _ (by omega)]
    · split at h
      · obtain rfl := Option.some.inj h
        simp only [List.cons_append, List.nil_append, List.append_assoc]
        rw [next_pushData2, readPushData_append _ _ (by omega)]
      · split at h
        · obtain rfl := Option.some.inj h
          simp only [List.cons_append, List.nil_append, List.append_assoc]
          rw [next_pushData4, readPushData_append _ _ (by omega)]
        · cases h

theorem decode_pushBytes {data pushed : Bytes} (h : pushBytes data = some pushed) (s : Bytes) :
    decode (pushed ++ s) = (decode s).map (.push data :: ·) :=
  decode_of_next (next_pushBytes h s)

theorem pushBytes_short {data : Bytes} (h : data.length < 76) :
    pushBytes data = some (UInt8.ofNat data.length :: data) := if_pos h

namespace Htlc

variable {c : Htlc} {script : Bytes} {t : Spend}

theorem redeemScript_eq (h : c.redeemScript = some script) : ∃ lock,
    pushBytes (encodeNum c.locktime) = some lock ∧
      script = [OP_SHA256, 32] ++ c.preimage_hash ++ [OP_EQUAL, OP_IF] ++ (33 :: c.recipient_pubkey)
        ++ [OP_ELSE] ++ lock ++ [OP_CHECKLOCKTIMEVERIFY, OP_DROP] ++ (33 :: c.sender_pubkey)
        ++ [OP_ENDIF, OP_CHECKSIG] := by
  have hr : pushBytes c.recipient_pubkey = some (UInt8.ofNat c.recipient_pubkey.length :: _) :=
    pushBytes_short (by rw [c.recipient_length]; omega)
  have hs : pushBytes c.sender_pubkey = some (UInt8.ofNat c.sender_pubkey.length :: _) :=
    pushBytes_short (by rw [c.sender_length]; omega)
  rw [c.recipient_length] at hr
  rw [c.sender_length] at hs
  simp only [redeemScript, createHtlcRedeemScript, hr, hs, Option.bind_eq_bind, Option.bind_some,
    Option.bind_eq_some_iff] at h
  obtain ⟨lock, hlock, h⟩ := h
  exact ⟨lock, hlock, (Option.some.inj h).symm⟩

theorem decode_redeemScript (h : c.redeemScript = some script) : decode script = some c.instrs := by
  obtain ⟨lock, hlock, rfl⟩ := redeemScript_eq h
  -- a short push is its length and the data
  have hpush : ∀ {data : Bytes} {n : ℕ}, data.length = n → n < 76 → ∀ s : Bytes,
      decode (UInt8.ofNat n :: (data ++ s)) = (decode s).map (.push data :: ·) := by
    rintro data _ rfl hn s
    exact decode_pushBytes (pushBytes_short hn) s
  have hhash : ∀ s, decode (32 :: (c.preimage_hash ++ s)) = _ :=
    hpush c.hash_length (by norm_num)
  have hrecipient : ∀ s, decode (33 :: (c.recipient_pubkey ++ s)) = _ :=
    hpush c.recipient_length (by norm_num)
  have hsender : ∀ s, decode (33 :: (c.sender_pubkey ++ s)) = _ :=
    hpush c.sender_length (by norm_num)
  simp only [List.append_assoc, List.cons_append, List.nil_append]
  rw [decode_op (by decide), hhash, decode_op (by decide), decode_op (by decide), hrecipient,
    decode_op (by decide), decode_pushBytes hlock, decode_op (by decide), decode_op (by decide),
    hsender, decode_op (by decide), decode_op (by decide), decode_nil]
  rfl

/-- What the script demands of the item that chooses the branch, and of the signature. -/
def Unlocks (c : Htlc) (t : Spend) (choice signature : Bytes) : Prop :=
  (t.sha256 choice = c.preimage_hash ∧ t.checkSig signature c.recipient_pubkey = true) ∨
    (t.sha256 choice ≠ c.preimage_hash ∧ t.lockPassed (encodeNum c.locktime) = true ∧
      t.checkSig signature c.sender_pubkey = true)

/-- What the script leaves on the stack: all that is below the two items it uses. -/
theorem steps_instrs (c : Htlc) (t : Spend) (choice signature : Bytes) (st : List Bytes) :
    steps t c.instrs ⟨choice :: signature :: st, []⟩ =
      if 520 < (encodeNum c.locktime).length then none
      else if t.sha256 choice = c.preimage_hash then
        some ⟨ofBool (t.checkSig signature c.recipient_pubkey) :: st, []⟩
      else if t.lockPassed (encodeNum c.locktime) then
        some ⟨ofBool (t.checkSig signature c.sender_pubkey) :: st, []⟩
      else none := by
  have hhash : ¬520 < c.preimage_hash.length := by rw [c.hash_length]; omega
  have hrecipient : ¬520 < c.recipient_pubkey.length := by rw [c.recipient_length]; omega
  have hsender : ¬520 < c.sender_pubkey.length := by rw [c.sender_length]; omega
  by_cases hlock : 520 < (encodeNum c.locktime).length
  · by_cases hx : t.sha256 choice = c.preimage_hash
    · simp [instrs, steps, hhash, hrecipient, hlock, hx]
    · simp [instrs, steps, hhash, hrecipient, hlock, Ne.symm hx]
  · by_cases hx : t.sha256 choice = c.preimage_hash
    · simp [instrs, steps, hhash, hrecipient, hsender, hlock, hx]
    · by_cases ht : t.lockPassed (encodeNum c.locktime) = true
      · simp [instrs, steps, hhash, hrecipient, hsender, hlock, hx, Ne.symm hx, ht]
      · simp [instrs, steps, hhash, hrecipient, hlock, hx, Ne.symm hx, ht]

/-- The script needs two items. -/
theorem steps_instrs_short (c : Htlc) (t : Spend) {st : List Bytes} (h : st.length ≤ 1) :
    steps t c.instrs ⟨st, []⟩ = none := by
  have hhash : ¬520 < c.preimage_hash.length := by rw [c.hash_length]; omega
  have hrecipient : ¬520 < c.recipient_pubkey.length := by rw [c.recipient_length]; omega
  match st with
  | [] => simp [instrs, steps]
  | [choice] =>
      by_cases hlock : 520 < (encodeNum c.locktime).length
      · by_cases hx : c.preimage_hash = t.sha256 choice
        · simp [instrs, steps, hlock, hx, hx ▸ hhash, hrecipient]
        · simp [instrs, steps, hlock, hx, hhash, hrecipient]
      · by_cases hx : c.preimage_hash = t.sha256 choice
        · simp [instrs, steps, hlock, hx, hx ▸ hhash, hrecipient]
        · by_cases ht : t.lockPassed (encodeNum c.locktime) = true
          · simp [instrs, steps, hlock, hx, hhash, ht]
          · simp [instrs, steps, hlock, hx, hhash, ht]

/-- The script is left with one true item iff it was given two that unlock it. -/
theorem evalScript_iff (hscript : c.redeemScript = some script) (stack : List Bytes) :
    (∃ top, evalScript t script stack = some [top] ∧ castToBool top = true) ↔
      (encodeNum c.locktime).length ≤ 520 ∧
        ∃ choice signature, stack = [choice, signature] ∧ c.Unlocks t choice signature := by
  have hops : ¬201 < c.instrs.countP Instr.isOp := by
    have := List.countP_le_length (p := Instr.isOp) (l := c.instrs)
    rw [show c.instrs.length = 12 from rfl] at this
    omega
  rw [evalScript, decode_redeemScript hscript, Option.bind_some, if_neg hops]
  constructor
  · rintro ⟨top, h, htop⟩
    obtain ⟨s, hs, h⟩ := Option.bind_eq_some_iff.mp h
    have hsteps := steps_of_run hs
    split at h
    · obtain hst := Option.some.inj h
      match stack with
      | [] =>
          rw [steps_instrs_short c t (by simp)] at hsteps
          cases hsteps
      | [choice] =>
          rw [steps_instrs_short c t le_rfl] at hsteps
          cases hsteps
      | choice :: signature :: st =>
          rw [steps_instrs] at hsteps
          split at hsteps
          · cases hsteps
          · next hlock =>
              refine ⟨not_lt.mp hlock, choice, signature, ?_⟩
              split at hsteps
              · next hx =>
                  obtain rfl := Option.some.inj hsteps
                  obtain ⟨rfl, rfl⟩ := List.cons.inj hst
                  exact ⟨rfl, .inl ⟨hx, by simpa using htop⟩⟩
              · next hx =>
                  split at hsteps
                  · next hpass =>
                      obtain rfl := Option.some.inj hsteps
                      obtain ⟨rfl, rfl⟩ := List.cons.inj hst
                      exact ⟨rfl, .inr ⟨hx, hpass, by simpa using htop⟩⟩
                  · cases hsteps
    · cases h
  · rintro ⟨hlock, choice, signature, rfl, hun⟩
    rw [run_eq_steps (by simp [instrs]), steps_instrs, if_neg (not_lt.mpr hlock)]
    rcases hun with ⟨hx, hsig⟩ | ⟨hx, hpass, hsig⟩
    · rw [if_pos hx, hsig]
      exact ⟨_, rfl, rfl⟩
    · rw [if_neg hx, if_pos hpass, hsig]
      exact ⟨_, rfl, rfl⟩

/-- The lock time in the script is the agreed one. -/
theorem lockPassed_iff (ht : t.lockTime < 2 ^ 32) (n : ℤ) :
    t.lockPassed (encodeNum n) = true ↔ t.Reached n ∧ t.sequence ≠ 0xffffffff := by
  by_cases hlen : (encodeNum n).length ≤ 5
  · rw [Spend.lockPassed, scriptNum_encodeNum hlen, Option.any_some, decide_eq_true_eq]
  · rw [Spend.lockPassed, scriptNum_long (not_le.mp hlen), Option.any_none]
    refine ⟨fun h => (by cases h), fun ⟨hreached, _⟩ => absurd ?_ hlen⟩
    have hle := hreached.2.2
    exact length_encodeNum_le hreached.1 (by omega)

end Htlc

/-! ## Transactions and their witnesses -/

/-- The hash function and the signatures of the network. -/
structure Network where
  sha256 : Bytes → Bytes
  /-- Does the signature sign the transaction, which spends the script, for the key? -/
  valid : (tx : Transaction) → (script signature key : Bytes) → Bool
  valid_length : ∀ tx script signature key, valid tx script signature key = true →
    signature.length ≤ 520
  /-- A signature is made with one key. -/
  valid_key : ∀ tx script signature key key', valid tx script signature key = true →
    valid tx script signature key' = true → key = key'

namespace Network

variable (N : Network)

/-- How the script sees the transaction that spends it. -/
def spend (tx : Transaction) (script : Bytes) : Spend where
  sha256 := N.sha256
  checkSig := N.valid tx script
  lockTime := tx.locktime.toNat
  sequence := tx.input.sequence.toNat

/-- The network accepts the witness for the output that pays to the script. -/
def Spends (tx : Transaction) (script : Bytes) (witness : List Bytes) : Prop :=
  verifyWitnessScript (N.spend tx script) (N.sha256 script) witness = true

end Network

namespace Htlc

variable {N : Network} {c : Htlc} {script : Bytes}

/-- The witnesses that spend a contract. -/
theorem spends_iff (hscript : c.redeemScript = some script) (tx : Transaction) (items : List Bytes) :
    N.Spends tx script (items ++ [script]) ↔
      script.length ≤ 10000 ∧ (∀ x ∈ items, x.length ≤ 520) ∧
        (encodeNum c.locktime).length ≤ 520 ∧
        ∃ signature choice, items = [signature, choice] ∧
          c.Unlocks (N.spend tx script) choice signature := by
  have hitems : ∀ choice signature : Bytes,
      items.reverse = [choice, signature] ↔ items = [signature, choice] := by
    intro choice signature
    rw [List.reverse_eq_iff]
    rfl
  rw [Network.Spends, verifyWitnessScript_concat, evalScript_iff hscript]
  simp only [hitems]
  constructor
  · rintro ⟨⟨-, hscriptlen, hlen⟩, hlock, choice, signature, heq, hun⟩
    exact ⟨hscriptlen, hlen, hlock, signature, choice, heq, hun⟩
  · rintro ⟨hscriptlen, hlen, hlock, signature, choice, heq, hun⟩
    exact ⟨⟨rfl, hscriptlen, hlen⟩, hlock, choice, signature, heq, hun⟩

/-- A script whose lock time can be reached is short. -/
theorem redeemScript_length (hscript : c.redeemScript = some script)
    (hlock : (encodeNum c.locktime).length ≤ 5) : script.length ≤ 10000 := by
  obtain ⟨lock, hpush, rfl⟩ := redeemScript_eq hscript
  rw [pushBytes_short (by omega)] at hpush
  obtain rfl := Option.some.inj hpush
  have h₁ := c.hash_length
  have h₂ := c.recipient_length
  have h₃ := c.sender_length
  simp only [List.length_append, List.length_cons, List.length_nil]
  omega

/-- Who spends the script of a contract. -/
structure Spending (N : Network) (c : Htlc) (script : Bytes) : Prop where
  /-- The claim that is built. -/
  claim : ∀ txid vout amount preimage address signature fee signed,
    buildClaimTransaction txid vout amount script preimage address signature fee = some signed →
    ¬N.Spends signed.tx script signed.witness
  /-- The refund that is built, with a signature of the sender. -/
  refund : ∀ txid vout amount address signature fee locktime signed,
    buildRefundTransaction txid vout amount script address signature fee locktime = some signed →
    N.valid signed.tx script signature c.sender_pubkey = true →
    (N.Spends signed.tx script signed.witness ↔
      N.sha256 [] ≠ c.preimage_hash ∧ (N.spend signed.tx script).Reached c.locktime)
  /-- Any transaction and any witness. -/
  only : ∀ tx items, 0 ≤ tx.locktime ∧ tx.locktime < 2 ^ 32 → N.Spends tx script (items ++ [script]) →
    ∃ signature choice, items = [signature, choice] ∧
      (N.sha256 choice = c.preimage_hash ∧ N.valid tx script signature c.recipient_pubkey = true ∨
        (N.spend tx script).Reached c.locktime ∧
          N.valid tx script signature c.sender_pubkey = true)

/-- **Who spends a swap contract.** The claim that is built never succeeds. The refund that is built
succeeds iff its lock time has reached that of the contract, unless the agreed hash is that of the
empty string. Nobody spends without a preimage and the signature of the recipient, or the lock time
and the signature of the sender. -/
theorem htlc_spending (N : Network) (hscript : c.redeemScript = some script) :
    c.Spending N script := by
  refine ⟨?_, ?_, ?_⟩
  · intro txid vout amount preimage address signature fee signed hbuild hspend
    obtain ⟨hwitness, -⟩ := buildTransaction_eq hbuild
    rw [hwitness] at hspend
    -- three items are one too many
    obtain ⟨-, -, -, sig, choice, heq, -⟩ :=
      (spends_iff hscript _ [signature, preimage, [1]]).mp hspend
    cases heq
  · intro txid vout amount address signature fee locktime signed hbuild hvalid
    obtain ⟨hwitness, hinput, hlocktime, hlow, hhigh⟩ := buildTransaction_eq hbuild
    have htime : (N.spend signed.tx script).lockTime < 2 ^ 32 := by
      show signed.tx.locktime.toNat < 2 ^ 32
      omega
    have hsequence : (N.spend signed.tx script).sequence ≠ 0xffffffff := by
      show signed.tx.input.sequence.toNat ≠ 0xffffffff
      rw [hinput]
      exact show (0xfffffffe : ℤ).toNat ≠ 0xffffffff by decide
    have hpass := lockPassed_iff htime c.locktime
    rw [hwitness]
    refine (spends_iff hscript _ [signature, []]).trans ?_
    constructor
    · rintro ⟨-, -, -, sig, choice, heq, hun⟩
      obtain ⟨rfl, rfl⟩ : signature = sig ∧ [] = choice := by simpa using heq
      rcases hun with ⟨-, hrecipient⟩ | ⟨hne, hlock, -⟩
      · exact absurd (N.valid_key _ _ _ _ _ hrecipient hvalid) c.distinct
      · exact ⟨hne, (hpass.mp hlock).1⟩
    · rintro ⟨hne, hreached⟩
      have hle := hreached.2.2
      have hlen : (encodeNum c.locktime).length ≤ 5 :=
        length_encodeNum_le hreached.1 (by omega)
      refine ⟨redeemScript_length hscript hlen, ?_, by omega, signature, [], rfl, ?_⟩
      · intro x hx
        rcases List.mem_cons.mp hx with rfl | hx
        · exact N.valid_length _ _ _ _ hvalid
        · rw [List.mem_singleton.mp hx]
          exact Nat.zero_le _
      · exact .inr ⟨hne, hpass.mpr ⟨hreached, hsequence⟩, hvalid⟩
  · rintro tx items ⟨hlow, hhigh⟩ hspend
    have htime : (N.spend tx script).lockTime < 2 ^ 32 := by
      show tx.locktime.toNat < 2 ^ 32
      omega
    obtain ⟨-, -, -, signature, choice, heq, hun⟩ := (spends_iff hscript tx items).mp hspend
    refine ⟨signature, choice, heq, ?_⟩
    rcases hun with ⟨hx, hsig⟩ | ⟨-, hlock, hsig⟩
    · exact .inl ⟨hx, hsig⟩
    · exact .inr ⟨((lockPassed_iff htime _).mp hlock).1, hsig⟩

section Runs

/-- A network in which the key itself serves as its signature. -/
def keyNetwork : Network where
  sha256 := Bitcoin.sha256
  valid _ _ signature key := signature = key ∧ key.length = 33
  valid_length tx script signature key h := by
    obtain ⟨rfl, hlen⟩ := of_decide_eq_true h
    rw [hlen]
    omega
  valid_key tx script signature key key' h h' :=
    (of_decide_eq_true h).1.symm.trans (of_decide_eq_true h').1

def secret : Bytes := List.replicate 32 7

/-- A contract for the secret, until the height 800000. -/
def contract : Htlc where
  preimage_hash := Bitcoin.sha256 secret
  recipient_pubkey := 2 :: List.replicate 32 1
  sender_pubkey := 3 :: List.replicate 32 2
  locktime := 800000
  hash_length := rfl
  recipient_length := rfl
  sender_length := rfl
  distinct := by decide

/-- The claim transaction of the contract. -/
def contractClaim (script : Bytes) : Option SignedTransaction :=
  buildClaimTransaction (List.replicate 32 9) 0 50000 script secret
    "bc1qw508d6qejxtdg4y5r3zarvary0c5xw7kv8f3t4" contract.recipient_pubkey 1000

theorem contract_built : ∃ script, contract.redeemScript = some script ∧
    ∃ signed, contractClaim script = some signed := by
  have h : (contract.redeemScript.bind contractClaim).isSome = true := by decide +kernel
  obtain ⟨signed, hsigned⟩ := Option.isSome_iff_exists.mp h
  obtain ⟨script, hscript, hclaim⟩ := Option.bind_eq_some_iff.mp hsigned
  exact ⟨script, hscript, signed, hclaim⟩

theorem htlc_spending_contract : ∃ script, contract.redeemScript = some script ∧
    contract.Spending keyNetwork script := by
  obtain ⟨script, hscript, -⟩ := contract_built
  exact ⟨script, hscript, htlc_spending keyNetwork hscript⟩

/-- The recipient knows the secret and signs, and the claim that is built is refused. -/
theorem claim_refused : ¬∀ (N : Network) (c : Htlc) (script : Bytes), c.redeemScript = some script →
    ∀ txid vout amount preimage address signature fee signed,
    buildClaimTransaction txid vout amount script preimage address signature fee = some signed →
    N.sha256 preimage = c.preimage_hash →
    N.valid signed.tx script signature c.recipient_pubkey = true →
      N.Spends signed.tx script signed.witness := by
  intro h
  obtain ⟨script, hscript, signed, hclaim⟩ := contract_built
  obtain ⟨hwitness, -⟩ := buildTransaction_eq hclaim
  have hvalid : keyNetwork.valid signed.tx script contract.recipient_pubkey
      contract.recipient_pubkey = true := by
    simp [keyNetwork, contract]
  have hspend := h keyNetwork contract script hscript _ _ _ _ _ _ _ signed hclaim rfl hvalid
  rw [hwitness] at hspend
  obtain ⟨-, -, -, sig, choice, heq, -⟩ :=
    (spends_iff hscript _ [contract.recipient_pubkey, secret, [1]]).mp hspend
  cases heq

end Runs

end Htlc

end Sthrip.Btc
