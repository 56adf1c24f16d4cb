import Sthrip.Bitcoin.Script

set_option autoImplicit false

/-! # The redeem script of a Bitcoin swap

`sthrip/swaps/btc/htlc.py`: a hash time locked contract. The script takes the hash of the item on
the top of the stack, and the outcome of the comparison with the agreed hash chooses the branch: the
key of the recipient, or the lock time and the key of the sender.
-/

namespace Sthrip.Btc

open Bitcoin

/-- `encode_num` -/
def encodeNum (n : ℤ) : Bytes :=
  if n = 0 then []
  else
    let result := magnitude n.natAbs
    match result.getLast? with
    | none => []
    | some last =>
        if 128 ≤ last.toNat then result ++ [if n < 0 then 0x80 else 0]
        else if n < 0 then result.dropLast ++ [last ||| 0x80]
        else result

/-- `push_bytes`. A length that does not fit into four bytes is a `struct.error`. -/
def pushBytes (data : Bytes) : Option Bytes :=
  let length := data.length
  if length < 76 then some (UInt8.ofNat length :: data)
  else if length < 256 then some ([0x4c] ++ toLE 1 length ++ data)
  else if length < 65536 then some ([0x4d] ++ toLE 2 length ++ data)
  else if length < 4294967296 then some ([0x4e] ++ toLE 4 length ++ data)
  else none

/-- `create_htlc_redeem_script` -/
def createHtlcRedeemScript (preimage_hash recipient_pubkey sender_pubkey : Bytes) (locktime : ℤ) :
    Option Bytes := do
  let locktime_bytes := encodeNum locktime
  let recipient ← pushBytes recipient_pubkey
  let lock ← pushBytes locktime_bytes
  let sender ← pushBytes sender_pubkey
  return [OP_SHA256, 32] ++ preimage_hash ++ [OP_EQUAL, OP_IF] ++ recipient ++ [OP_ELSE] ++ lock ++
    [OP_CHECKLOCKTIMEVERIFY, OP_DROP] ++ sender ++ [OP_ENDIF, OP_CHECKSIG]

/-- `create_claim_witness` -/
def createClaimWitness (preimage signature redeem_script : Bytes) : List Bytes :=
  [signature, preimage, [1], redeem_script]

/-- `create_refund_witness` -/
def createRefundWitness (signature redeem_script : Bytes) : List Bytes :=
  [signature, [], redeem_script]

/-! ## Lock times on the stack -/

/-- Setting the top bit of a byte that does not have it. -/
theorem toNat_or_signBit {b : UInt8} (h : b.toNat < 128) : (b ||| 0x80).toNat = b.toNat + 128 := by
  rw [UInt8.toNat_or, Nat.or_comm]
  exact (Nat.two_pow_add_eq_or_of_lt (i := 7) h 1).symm.trans (by norm_num; omega)

theorem scriptNum_long {maxSize : ℕ} {b : Bytes} (h : maxSize < b.length) :
    scriptNum maxSize b = none := if_pos h

theorem scriptNum_concat {maxSize : ℕ} {init : Bytes} {last : UInt8}
    (h : (init ++ [last]).length ≤ maxSize) :
    scriptNum maxSize (init ++ [last]) =
      if last.toNat < 128 then some (ofLE init + 256 ^ init.length * last.toNat : ℤ)
      else some (-(ofLE init + 256 ^ init.length * last.toNat - 128 * 256 ^ init.length : ℤ)) := by
  have hof : (ofLE (init ++ [last]) : ℤ) = ofLE init + 256 ^ init.length * last.toNat := by
    rw [ofLE_append]
    simp [ofLE]
  rw [scriptNum, if_neg (not_lt.mpr h), List.getLast?_concat, List.length_append,
    List.length_singleton, Nat.add_sub_cancel]
  simp only [hof]

/-- A number that is not zero, and its last byte. -/
theorem magnitude_eq_concat {n : ℕ} (hn : n ≠ 0) : ∃ init last,
    magnitude n = init ++ [last] ∧ ofLE init + 256 ^ init.length * last.toNat = n := by
  refine ⟨_, _, (List.dropLast_append_getLast (magnitude_ne_nil hn)).symm, ?_⟩
  have h := ofLE_magnitude n
  rw [← List.dropLast_append_getLast (magnitude_ne_nil hn), ofLE_append] at h
  simpa [ofLE] using h

/-- The script reads the number that was written, if it is not too long. -/
theorem scriptNum_encodeNum {maxSize : ℕ} {n : ℤ} (h : (encodeNum n).length ≤ maxSize) :
    scriptNum maxSize (encodeNum n) = some n := by
  by_cases hn : n = 0
  · subst hn
    simp [encodeNum, scriptNum]
  obtain ⟨init, last, hres, hval⟩ := magnitude_eq_concat (Int.natAbs_ne_zero.mpr hn)
  have habs : (ofLE init : ℤ) + 256 ^ init.length * last.toNat = |n| := by
    rw [Int.abs_eq_natAbs, ← hval]
    push_cast
    rfl
  rw [encodeNum, if_neg hn] at h ⊢
  simp only [hres, List.getLast?_concat, List.dropLast_concat] at h ⊢
  by_cases hbig : 128 ≤ last.toNat
  · -- the top bit is taken, so the sign gets a byte of its own
    have hof : (ofLE (init ++ [last]) : ℤ) = |n| := by
      rw [ofLE_append, ← habs]
      simp [ofLE]
    rw [if_pos hbig] at h ⊢
    rw [scriptNum_concat h, hof]
    by_cases hneg : n < 0
    · rw [if_pos hneg, if_neg (by decide), abs_of_neg hneg]
      congr 1
      rw [show ((0x80 : UInt8).toNat : ℤ) = 128 from rfl]
      ring
    · rw [if_neg hneg, if_pos (by decide), abs_of_nonneg (not_lt.mp hneg)]
      simp
  · have hlt : last.toNat < 128 := not_le.mp hbig
    rw [if_neg hbig] at h ⊢
    by_cases hneg : n < 0
    · rw [if_pos hneg] at h ⊢
      rw [scriptNum_concat h, toNat_or_signBit hlt, if_neg (by omega)]
      congr 1
      push_cast
      rw [mul_add, ← add_assoc, habs, abs_of_neg hneg]
      ring
    · rw [if_neg hneg] at h ⊢
      rw [scriptNum_concat h, if_pos hlt, habs, abs_of_nonneg (not_lt.mp hneg)]

/-- The numbers that fit into five bytes. -/
theorem length_encodeNum_le {n : ℤ} (h₀ : 0 ≤ n) (h : n < 2 ^ 39) : (encodeNum n).length ≤ 5 := by
  by_cases hn : n = 0
  · subst hn
    decide
  obtain ⟨init, last, hres, hval⟩ := magnitude_eq_concat (Int.natAbs_ne_zero.mpr hn)
  have hlt : n.natAbs < 2 ^ 39 := by omega
  rw [encodeNum, if_neg hn]
  simp only [hres, List.getLast?_concat]
  split
  · next hbig =>
      have hpow : 256 ^ init.length < 256 ^ 4 := by
        have : 256 ^ init.length * 128 ≤ 256 ^ init.length * last.toNat := Nat.mul_le_mul_left _ hbig
        omega
      have := (Nat.pow_lt_pow_iff_right (by norm_num)).mp hpow
      simp only [List.length_append, List.length_singleton]
      omega
  · rw [if_neg (not_lt.mpr h₀), ← hres]
    exact length_magnitude_le (by omega)

end Sthrip.Btc
