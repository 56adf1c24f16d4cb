import Sthrip.Bitcoin.Wire
import Sthrip.Btc.Spending

set_option autoImplicit false

/-! # What the scripts and the transactions of a swap mean

The numbers and the pushes of the redeem script are read as what was written, and so are the two
transactions that spend the contract.
-/

namespace Sthrip.Btc

open Bitcoin

/-! ## Numbers -/

/-- The last byte of a number is not zero. -/
theorem magnitude_last_ne_zero {n : ℕ} {init : Bytes} {last : UInt8}
    (h : magnitude n = init ++ [last]) : last.toNat ≠ 0 := by
  have hne : Nat.digits 256 n ≠ [] := by
    intro hnil
    rw [magnitude, hnil] at h
    exact List.append_ne_nil_of_right_ne_nil init (List.cons_ne_nil last []) h.symm
  have hlast : last = UInt8.ofNat ((Nat.digits 256 n).getLast hne) := by
    have hget : (magnitude n).getLast? = some last := by rw [h, List.getLast?_concat]
    rw [magnitude, List.getLast?_map, List.getLast?_eq_getLast_of_ne_nil hne] at hget
    exact (Option.some.inj hget).symm
  have hlt : (Nat.digits 256 n).getLast hne < 256 := Nat.digits_lt_base (by norm_num) (List.getLast_mem hne)
  rw [hlast, UInt8.toNat_ofNat', Nat.mod_eq_of_lt hlt]
  refine Nat.getLast_digit_ne_zero 256 ?_
  rintro rfl
  exact hne (Nat.digits_zero 256)

theorem minimalNum_concat {init : Bytes} {last : UInt8} (h : last.toNat % 128 ≠ 0) :
    MinimalNum (init ++ [last]) := by
  unfold MinimalNum
  rw [List.reverse_append, List.reverse_singleton, List.singleton_append]
  cases init.reverse with
  | nil => exact h
  | cons previous rest => exact .inl h

theorem minimalNum_sign {init : Bytes} {last sign : UInt8} (h : 128 ≤ last.toNat) :
    MinimalNum (init ++ [last] ++ [sign]) := by
  unfold MinimalNum
  rw [List.reverse_append, List.reverse_append, List.reverse_singleton, List.reverse_singleton]
  exact .inr h

/-- The last byte decides how many bytes `encode_num` writes. -/
theorem encodeNum_cases {n : ℤ} (hn : n ≠ 0) : ∃ init last,
    magnitude n.natAbs = init ++ [last] ∧ last.toNat ≠ 0 ∧
      ofLE init + 256 ^ init.length * last.toNat = n.natAbs ∧
      ((128 ≤ last.toNat ∧ ∃ sign, encodeNum n = init ++ [last] ++ [sign]) ∨
        (last.toNat < 128 ∧
          ∃ signed, signed.toNat % 128 = last.toNat ∧ encodeNum n = init ++ [signed])) := by
  obtain ⟨init, last, hres, hval⟩ := magnitude_eq_concat (Int.natAbs_ne_zero.mpr hn)
  refine ⟨init, last, hres, magnitude_last_ne_zero hres, hval, ?_⟩
  rw [encodeNum, if_neg hn]
  simp only [hres, List.getLast?_concat, List.dropLast_concat]
  by_cases hbig : 128 ≤ last.toNat
  · rw [if_pos hbig]
    exact .inl ⟨hbig, _, rfl⟩
  · have hlt : last.toNat < 128 := not_le.mp hbig
    rw [if_neg hbig]
    refine .inr ⟨hlt, ?_⟩
    by_cases hneg : n < 0
    · rw [if_pos hneg]
      refine ⟨_, ?_, rfl⟩
      rw [toNat_or_signBit hlt]
      omega
    · rw [if_neg hneg]
      exact ⟨last, Nat.mod_eq_of_lt hlt, rfl⟩

theorem minimalNum_encodeNum (n : ℤ) : MinimalNum (encodeNum n) := by
  by_cases hn : n = 0
  · subst hn
    trivial
  obtain ⟨init, last, -, hne, -, ⟨hbig, sign, heq⟩ | ⟨-, signed, hmod, heq⟩⟩ := encodeNum_cases hn
  · rw [heq]
    exact minimalNum_sign hbig
  · rw [heq]
    exact minimalNum_concat (hmod ▸ hne)

theorem ofLE_lt (b : Bytes) : ofLE b < 256 ^ b.length := by
  induction b with
  | nil => exact Nat.one_pos
  | cons x b ih =>
      have hx := x.toNat_lt
      rw [ofLE, List.length_cons, pow_succ]
      omega

/-- Some bytes hold only numbers that are small enough for them. -/
theorem natAbs_lt_of_scriptNum {b : Bytes} {n : ℤ} (hn : n ≠ 0) (h : scriptNum b.length b = some n) :
    ∃ k, b.length = k + 1 ∧ n.natAbs < 128 * 256 ^ k := by
  rcases List.eq_nil_or_concat b with rfl | ⟨init, last, rfl⟩
  · exact absurd (Option.some.inj h).symm hn
  · rw [List.concat_eq_append] at h ⊢
    refine ⟨init.length, by rw [List.length_append, List.length_singleton], ?_⟩
    have hinit := ofLE_lt init
    have hlast := last.toNat_lt
    rw [scriptNum_concat le_rfl] at h
    have hpow : ((256 ^ init.length : ℕ) : ℤ) = 256 ^ init.length := by push_cast; rfl
    rw [← hpow] at h
    by_cases hlt : last.toNat < 128
    · rw [if_pos hlt] at h
      have hmul : 256 ^ init.length * last.toNat ≤ 256 ^ init.length * 127 :=
        Nat.mul_le_mul_left _ (by omega)
      have heq : ((ofLE init + 256 ^ init.length * last.toNat : ℕ) : ℤ) = n := by
        rw [← Option.some.inj h]
        push_cast
        rfl
      omega
    · rw [if_neg hlt] at h
      have hmul : 256 ^ init.length * last.toNat ≤ 256 ^ init.length * 255 :=
        Nat.mul_le_mul_left _ (by omega)
      have hmul' : 256 ^ init.length * 128 ≤ 256 ^ init.length * last.toNat :=
        Nat.mul_le_mul_left _ (by omega)
      have heq : -((ofLE init + 256 ^ init.length * last.toNat : ℕ) : ℤ)
          + 128 * ((256 ^ init.length : ℕ) : ℤ) = n := by
        rw [← Option.some.inj h]
        push_cast
        ring
      omega

/-- No shorter bytes hold the number. -/
theorem length_encodeNum_min {n : ℤ} {b : Bytes} (h : scriptNum b.length b = some n) :
    (encodeNum n).length ≤ b.length := by
  by_cases hn : n = 0
  · subst hn
    exact Nat.zero_le _
  obtain ⟨k, hk, hlt⟩ := natAbs_lt_of_scriptNum hn h
  obtain ⟨init, last, -, hne, hval, hcases⟩ := encodeNum_cases hn
  rcases hcases with ⟨hbig, sign, heq⟩ | ⟨-, signed, -, heq⟩
  · have hle : 256 ^ init.length * 128 ≤ 256 ^ init.length * last.toNat := Nat.mul_le_mul_left _ hbig
    have hpow : 256 ^ init.length < 256 ^ k := by omega
    have := (Nat.pow_lt_pow_iff_right (by norm_num)).mp hpow
    rw [heq, List.length_append, List.length_append, List.length_singleton, List.length_singleton]
    omega
  · have hle : 256 ^ init.length * 1 ≤ 256 ^ init.length * last.toNat :=
      Nat.mul_le_mul_left _ (Nat.one_le_iff_ne_zero.mpr hne)
    have hpow : 256 ^ init.length < 256 ^ (k + 1) := by
      rw [pow_succ]
      omega
    have := (Nat.pow_lt_pow_iff_right (by norm_num)).mp hpow
    rw [heq, List.length_append, List.length_singleton]
    omega

/-! ## Pushes -/

/-- A push is written exactly when its length fits into four bytes. -/
theorem pushBytes_isSome_iff (data : Bytes) : (pushBytes data).isSome ↔ data.length < 2 ^ 32 := by
  unfold pushBytes
  dsimp only
  split_ifs <;> simp <;> omega

/-- **Numbers and pushes.** `encode_num` writes the shortest bytes that the interpreter reads as the number,
and a push of less than `2 ^ 32` bytes is read as these bytes and nothing else. -/
theorem script_encoding_exact :
    (∀ n : ℤ, (∀ maxSize, (encodeNum n).length ≤ maxSize → scriptNum maxSize (encodeNum n) = some n)
        ∧ MinimalNum (encodeNum n)
        ∧ ∀ b : Bytes, scriptNum b.length b = some n → (encodeNum n).length ≤ b.length)
      ∧ (∀ n : ℤ, 0 ≤ n → n < 2 ^ 32 → scriptNum 5 (encodeNum n) = some n)
      ∧ ∀ data : Bytes, data.length < 2 ^ 32 → ∃ pushed, pushBytes data = some pushed
        ∧ next pushed = some (.push data, []) ∧ decode pushed = some [.push data] := by
  refine ⟨fun n => ⟨fun _ => scriptNum_encodeNum, minimalNum_encodeNum n, fun _ => length_encodeNum_min⟩,
    ?_, ?_⟩
  · intro n hn hlt
    exact scriptNum_encodeNum (length_encodeNum_le hn (by omega))
  · intro data hlen
    obtain ⟨pushed, hpushed⟩ := Option.isSome_iff_exists.mp ((pushBytes_isSome_iff data).mpr hlen)
    have hnext := next_pushBytes hpushed []
    rw [List.append_nil] at hnext
    refine ⟨pushed, hpushed, hnext, ?_⟩
    rw [decode_of_next hnext, decode_nil]
    rfl

/-- A push of `2 ^ 32` bytes is not written. -/
theorem pushBytes_tooLong : pushBytes (List.replicate (2 ^ 32) 0) = none := by
  have hlen : ¬(List.replicate (2 ^ 32) (0 : UInt8)).length < 2 ^ 32 := by
    rw [List.length_replicate]
    exact lt_irrefl _
  exact Option.not_isSome_iff_eq_none.mp ((pushBytes_isSome_iff _).not.mpr hlen)

/-! ## Transactions -/

theorem varint_eq {n : ℕ} (h : n < 2 ^ 64) : varint n = some (writeCompactSize n) := by
  unfold varint writeCompactSize
  split_ifs <;> rfl

theorem serializeUint32_eq {n : ℕ} (h : n < 2 ^ 32) : serializeUint32 n = some (toLE 4 n) := by
  rw [serializeUint32, if_pos (by omega), Int.toNat_natCast]

theorem serializeUint64_eq {n : ℕ} (h : n < 2 ^ 64) : serializeUint64 n = some (toLE 8 n) := by
  rw [serializeUint64, if_pos (by omega), Int.toNat_natCast]

theorem serializeWitness_eq {items : List Bytes} (hcount : items.length < 2 ^ 64)
    (hitems : ∀ item ∈ items, item.length < 2 ^ 64) :
    serializeWitness items = some (writeList writeSized items) := by
  have hloop : ∀ (rest : List Bytes) (result : Bytes), (∀ item ∈ rest, item.length < 2 ^ 64) →
      rest.foldlM (fun result item => do return result ++ (← varint item.length) ++ item) result
        = some (result ++ rest.flatMap writeSized) := by
    intro rest
    induction rest with
    | nil =>
        intro result _
        exact congrArg some (List.append_nil result).symm
    | cons item rest ih =>
        intro result hrest
        have hitem := varint_eq (hrest item List.mem_cons_self)
        rw [List.foldlM_cons, hitem]
        refine (ih _ fun item' h => hrest item' (List.mem_cons_of_mem item h)).trans ?_
        rw [List.flatMap_cons, writeSized, List.append_assoc, List.append_assoc, List.append_assoc]
  rw [serializeWitness, varint_eq hcount]
  exact hloop items _ hitems

/-- The transaction of a builder, as the formats see it. -/
def wireTx (txid : Bytes) (vout sequence value : ℕ) (script_pubkey : Bytes) (witness : List Bytes)
    (locktime : ℕ) : Tx where
  version := 2
  inputs := [⟨⟨txid.reverse, vout⟩, [], sequence⟩]
  outputs := [⟨value, script_pubkey⟩]
  witnesses := [witness]
  locktime

theorem wireTx_fits {txid : Bytes} {vout sequence value : ℕ} {script_pubkey : Bytes} {witness : List Bytes}
    {locktime : ℕ} (htxid : txid.length = 32) (hvout : vout < 2 ^ 32) (hsequence : sequence < 2 ^ 32)
    (hvalue : value < 2 ^ 64) (hscript : script_pubkey.length < 2 ^ 64) (hcount : witness.length < 2 ^ 64)
    (hitems : ∀ item ∈ witness, item.length < 2 ^ 64) (hlocktime : locktime < 2 ^ 32) :
    (wireTx txid vout sequence value script_pubkey witness locktime).Fits where
  version := by norm_num [wireTx]
  inputs := by norm_num [wireTx]
  input := by
    intro i hi
    obtain rfl := List.mem_singleton.mp hi
    exact ⟨by rw [List.length_reverse, htxid], hvout, by norm_num, hsequence⟩
  outputs := by norm_num [wireTx]
  output := by
    intro o ho
    obtain rfl := List.mem_singleton.mp ho
    exact ⟨hvalue, hscript⟩
  witnesses := rfl
  witness := by
    intro stack hstack
    obtain rfl := List.mem_singleton.mp hstack
    exact ⟨hcount, hitems⟩
  locktime := hlocktime

/-- What the builders put together is the transaction in the two formats. -/
theorem serialize_eq (txid : Bytes) {vout sequence value : ℕ} {script_pubkey : Bytes}
    {witness : List Bytes} {locktime : ℕ} (hvout : vout < 2 ^ 32) (hsequence : sequence < 2 ^ 32)
    (hvalue : value < 2 ^ 64) (hscript : script_pubkey.length < 2 ^ 64) (hcount : witness.length < 2 ^ 64)
    (hitems : ∀ item ∈ witness, item.length < 2 ^ 64) (hlocktime : locktime < 2 ^ 32) :
    Transaction.serialize
        { version := 2
          input := { txid, vout, sequence }
          output := ⟨value, script_pubkey⟩
          locktime } witness
      = some ((wireTx txid vout sequence value script_pubkey witness locktime).writeStripped,
          (wireTx txid vout sequence value script_pubkey witness locktime).write) := by
  have hinput : TxIn.serialize { txid, vout, sequence }
      = some (TxInput.write ⟨⟨txid.reverse, vout⟩, [], sequence⟩) := by
    rw [TxIn.serialize, serializeUint32_eq hvout, varint_eq (by norm_num), serializeUint32_eq hsequence]
    simp only [Option.bind_eq_bind, Option.bind_some, Option.pure_def, TxInput.write, writeSized,
      List.append_assoc]
  have houtput : TxOut.serialize ⟨value, script_pubkey⟩ = some (TxOutput.write ⟨value, script_pubkey⟩) := by
    rw [TxOut.serialize, serializeUint64_eq hvalue, varint_eq hscript]
    simp only [Option.bind_eq_bind, Option.bind_some, Option.pure_def, TxOutput.write, writeSized,
      List.append_assoc]
  have hversion : serializeUint32 2 = some (toLE 4 2) := serializeUint32_eq (n := 2) (by norm_num)
  rw [Transaction.serialize]
  simp only [hversion, hinput, houtput, serializeUint32_eq hlocktime, varint_eq (n := 1) (by norm_num),
    serializeWitness_eq hcount hitems, Option.bind_eq_bind, Option.bind_some, Option.pure_def]
  simp only [wireTx, Tx.writeStripped, Tx.write, writeList, List.flatMap_cons, List.flatMap_nil,
    List.append_nil, List.length_singleton, List.append_assoc]

/-- The output of a builder. -/
def Means (signed : SignedTransaction) (tx : Tx) : Prop :=
  readTx.run signed.raw_tx = some (tx, []) ∧ signed.txid = (hash256 tx.writeStripped).reverse

theorem buildTransaction_means {txid : Bytes} {vout amount fee : ℕ} (sequence locktime : ℕ)
    {address hrp : String} {witprog : Bytes} {witness : List Bytes} (htxid : txid.length = 32)
    (hvout : vout < 2 ^ 32) (hsequence : sequence < 2 ^ 32) (hamount : amount < 2 ^ 64)
    (hfee : fee ≤ amount) (hlocktime : locktime < 2 ^ 32)
    (haddress : decodeBech32 address = some (hrp, 0, witprog)) (hwitprog : witprog.length = 20)
    (hcount : witness.length < 2 ^ 64) (hitems : ∀ item ∈ witness, item.length < 2 ^ 64) :
    ∃ signed, buildTransaction { txid, vout, sequence } amount fee address locktime witness = some signed
      ∧ Means signed
        (wireTx txid vout sequence (amount - fee) (createP2wpkhScriptpubkey witprog) witness locktime) := by
  have hscript : (createP2wpkhScriptpubkey witprog).length < 2 ^ 64 := by
    rw [createP2wpkhScriptpubkey, List.length_append, hwitprog]
    norm_num
  have hvalue : (amount : ℤ) - fee = ((amount - fee : ℕ) : ℤ) := (Nat.cast_sub hfee).symm
  have hvalue' : amount - fee < 2 ^ 64 := (Nat.sub_le amount fee).trans_lt hamount
  have hserialize := serialize_eq txid hvout hsequence hvalue' hscript hcount hitems hlocktime
  have hfits := wireTx_fits htxid hvout hsequence hvalue' hscript hcount hitems hlocktime
  set tx := wireTx txid vout sequence (amount - fee) (createP2wpkhScriptpubkey witprog) witness locktime
  refine ⟨{ tx := ⟨2, { txid, vout, sequence },
              ⟨(amount - fee : ℕ), createP2wpkhScriptpubkey witprog⟩, locktime⟩
            witness
            raw_tx := tx.write
            txid := (hash256 tx.writeStripped).reverse }, ?_, (reads_tx hfits).run, rfl⟩
  rw [buildTransaction, haddress]
  simp only [Option.bind_eq_bind, Option.bind_some]
  rw [if_neg (by rw [hwitprog]; simp), hvalue, hserialize]
  rfl

/-- **The transactions of a swap** are read as what they mean: the outpoint, the sequence number, the
output, the lock time and the witness, with no byte left over. Their identifiers are the hashes of what is
read without the witness. -/
theorem swap_transactions_mean {txid : Bytes} {vout amount fee locktime : ℕ} {address hrp : String}
    {witprog : Bytes} (htxid : txid.length = 32) (hvout : vout < 2 ^ 32) (hamount : amount < 2 ^ 64)
    (hfee : fee ≤ amount) (hlocktime : locktime < 2 ^ 32)
    (haddress : decodeBech32 address = some (hrp, 0, witprog)) (hwitprog : witprog.length = 20)
    {redeem_script preimage signature : Bytes} (hscript : redeem_script.length < 2 ^ 64)
    (hpreimage : preimage.length < 2 ^ 64) (hsignature : signature.length < 2 ^ 64) :
    (∃ signed, buildClaimTransaction txid vout amount redeem_script preimage address signature fee
          = some signed
        ∧ Means signed
          { version := 2
            inputs := [⟨⟨txid.reverse, vout⟩, [], 0xffffffff⟩]
            outputs := [⟨amount - fee, [0, 0x14] ++ witprog⟩]
            witnesses := [[signature, preimage, [1], redeem_script]]
            locktime := 0 })
      ∧ ∃ signed, buildRefundTransaction txid vout amount redeem_script address signature fee locktime
            = some signed
          ∧ Means signed
            { version := 2
              inputs := [⟨⟨txid.reverse, vout⟩, [], 0xfffffffe⟩]
              outputs := [⟨amount - fee, [0, 0x14] ++ witprog⟩]
              witnesses := [[signature, [], redeem_script]]
              locktime } := by
  constructor
  · refine buildTransaction_means 0xffffffff 0 htxid hvout (by norm_num) hamount hfee
      (by norm_num) haddress hwitprog ?_ ?_
    · norm_num [createClaimWitness]
    · intro item hitem
      simp only [createClaimWitness, List.mem_cons, List.not_mem_nil, or_false] at hitem
      rcases hitem with rfl | rfl | rfl | rfl
      · exact hsignature
      · exact hpreimage
      · norm_num
      · exact hscript
  · refine buildTransaction_means 0xfffffffe locktime htxid hvout (by norm_num) hamount hfee hlocktime
      haddress hwitprog ?_ ?_
    · norm_num [createRefundWitness]
    · intro item hitem
      simp only [createRefundWitness, List.mem_cons, List.not_mem_nil, or_false] at hitem
      rcases hitem with rfl | rfl | rfl
      · exact hsignature
      · norm_num
      · exact hscript

theorem swap_transactions_mean_one_coin :
    ∃ signed, buildClaimTransaction (List.replicate 32 7) 1 100000000 [0x51] (List.replicate 32 9)
        "bc1qw508d6qejxtdg4y5r3zarvary0c5xw7kv8f3t4" [0x30, 1] 1000 = some signed
      ∧ Means signed
        { version := 2
          inputs := [⟨⟨(List.replicate 32 7).reverse, 1⟩, [], 0xffffffff⟩]
          outputs := [⟨100000000 - 1000, [0, 0x14] ++
            [0x75, 0x1e, 0x76, 0xe8, 0x19, 0x91, 0x96, 0xd4, 0x54, 0x94, 0x1c, 0x45, 0xd1, 0xb3, 0xa3, 0x23,
              0xf1, 0x43, 0x3b, 0xd6]⟩]
          witnesses := [[[0x30, 1], List.replicate 32 9, [1], [0x51]]]
          locktime := 0 } := by
  have haddress : decodeBech32 "bc1qw508d6qejxtdg4y5r3zarvary0c5xw7kv8f3t4" = some ("bc", 0,
      [0x75, 0x1e, 0x76, 0xe8, 0x19, 0x91, 0x96, 0xd4, 0x54, 0x94, 0x1c, 0x45, 0xd1, 0xb3, 0xa3, 0x23,
        0xf1, 0x43, 0x3b, 0xd6]) := by
    decide +kernel
  have hlocktime : 0 < 2 ^ 32 := by norm_num
  exact (swap_transactions_mean (by simp) (by norm_num) (by norm_num) (by norm_num) hlocktime haddress rfl
    (by norm_num) (by simp) (by norm_num)).1

end Sthrip.Btc
