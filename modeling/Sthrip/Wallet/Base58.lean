import Mathlib.Data.Char
import Mathlib.Data.List.GetD
import Sthrip.Api.MoneroAddress
import Sthrip.Codec.Digits

set_option autoImplicit false

/-! # Base58 round trips

The encoding of addresses writes blocks of 8 bytes with 11 letters, and what is left with fewer. What is
decoded from it are the bytes, and nothing but it is decoded to them.
-/

namespace Sthrip.MoneroBase58

open Python Digits

/-! ## The encoding -/

theorem pow_le_of_le_eight : ∀ k : ℕ, k ≤ 8 → 256 ^ k ≤ 58 ^ encodedBlockSizes.getD k 0 := by
  decide

/-- Bytes as digits, in blocks of letters. -/
def blocks : Blocks where
  inner := 256
  outer := 58
  width := 8
  width_pos := Nat.succ_pos 7
  size k := encodedBlockSizes.getD k 0
  fits := pow_le_of_le_eight

/-- The letter with a number below 58. -/
def letter (d : ℕ) : Char := alphabet.getD d '1'

def encode (bytes : List UInt8) : List Char := (blocks.encode (bytes.map UInt8.toNat)).map letter

/-! ## Letters -/

/-- The letters are in the order of their code points. -/
theorem alphabet_nodup : alphabet.Nodup := by
  have hchain : alphabet.IsChain (· < ·) := by decide
  exact (List.isChain_iff_pairwise.mp hchain).imp fun hlt => ne_of_lt hlt

theorem letter_eq {d : ℕ} (hd : d < alphabet.length) : letter d = alphabet[d] :=
  List.getD_eq_getElem alphabet '1' hd

theorem idxOf_letter : ∀ d : ℕ, d < 58 → alphabet.idxOf (letter d) = d := by
  intro d hd
  rw [letter_eq hd]
  exact alphabet_nodup.idxOf_getElem d hd

theorem alphabetIndex_letter : ∀ d : ℕ, d < 58 → alphabetIndex (letter d) = .ok d := by
  intro d hd
  have hmem : letter d ∈ alphabet := by
    rw [letter_eq hd]
    exact List.getElem_mem hd
  rw [alphabetIndex, if_pos hmem, idxOf_letter d hd]

theorem of_alphabetIndex {ch : Char} {d : ℕ} (h : alphabetIndex ch = .ok d) : d < 58 ∧ letter d = ch := by
  unfold alphabetIndex at h
  by_cases hmem : ch ∈ alphabet
  · rw [if_pos hmem] at h
    obtain rfl : alphabet.idxOf ch = d := Except.ok.inj h
    have hlt : alphabet.idxOf ch < alphabet.length := List.idxOf_lt_length_iff.mpr hmem
    refine ⟨hlt, ?_⟩
    rw [letter, List.getD_eq_getElem _ _ hlt, List.getElem_idxOf]
  · rw [if_neg hmem] at h
    cases h

/-- The number of a text in the alphabet, from the number of what is before it. -/
theorem foldlM_alphabetIndex (block : List Char) (n m : ℕ) :
    block.foldlM (fun num ch => do
        let idx ← alphabetIndex ch
        pure (num * 58 + idx) : ℕ → Char → Py ℕ) n = .ok m
      ↔ ∃ es : List ℕ, (∀ e ∈ es, e < 58) ∧ block = es.map letter
        ∧ m = es.foldl (fun num e => num * 58 + e) n := by
  induction block generalizing n with
  | nil =>
      constructor
      · intro h
        exact ⟨[], fun _ he => absurd he List.not_mem_nil, rfl, (Except.ok.inj h).symm⟩
      · rintro ⟨es, -, hblock, rfl⟩
        rw [List.map_eq_nil_iff.mp hblock.symm]
        rfl
  | cons ch block ih =>
      rw [List.foldlM_cons, bind_eq_ok]
      constructor
      · rintro ⟨num, hnum, hrest⟩
        obtain ⟨e, he, hpure⟩ := bind_eq_ok.mp hnum
        obtain ⟨hlt, hletter⟩ := of_alphabetIndex he
        obtain ⟨es, hes, rfl, rfl⟩ := (ih num).mp hrest
        refine ⟨e :: es, List.forall_mem_cons.mpr ⟨hlt, hes⟩, ?_, ?_⟩
        · rw [List.map_cons, hletter]
        · rw [List.foldl_cons, Except.ok.inj hpure]
      · rintro ⟨es, hes, hblock, hm⟩
        cases es with
        | nil => cases hblock
        | cons e es =>
            obtain ⟨he, hes⟩ := List.forall_mem_cons.mp hes
            obtain ⟨rfl, rfl⟩ := List.cons.inj hblock
            refine ⟨n * 58 + e, bind_eq_ok.mpr ⟨e, alphabetIndex_letter e he, rfl⟩, ?_⟩
            exact (ih _).mpr ⟨es, hes, rfl, hm⟩

/-! ## Blocks -/

/-- Big-endian bytes are digits. -/
theorem bytes_eq_digits (size n : ℕ) :
    (List.range size).reverse.map (fun i => UInt8.ofNat (n / 256 ^ i))
      = (digits 256 size n).map UInt8.ofNat := by
  induction size generalizing n with
  | zero => rfl
  | succ k ih =>
      have hshift : (List.range k).reverse.map ((fun i => UInt8.ofNat (n / 256 ^ i)) ∘ Nat.succ)
          = (List.range k).reverse.map fun i => UInt8.ofNat (n / 256 / 256 ^ i) := by
        refine List.map_congr_left fun i _ => ?_
        show UInt8.ofNat (n / 256 ^ (i + 1)) = _
        rw [pow_succ', Nat.div_div_eq_div_mul]
      have hlow : UInt8.ofNat (n % 256) = UInt8.ofNat n := UInt8.ofNat_mod_size
      rw [List.range_succ_eq_map, List.reverse_cons, ← List.map_reverse, List.map_append, List.map_map,
        hshift, ih, digits, List.map_append, List.map_singleton, List.map_singleton, pow_zero,
        Nat.div_one, hlow]

theorem toBytes_natCast (size n : ℕ) :
    toBytes size (n : ℤ)
      = if n < 256 ^ size then .ok ((digits 256 size n).map UInt8.ofNat) else .error .OverflowError := by
  have hiff : (0 ≤ (n : ℤ) ∧ (n : ℤ) < 256 ^ size) ↔ n < 256 ^ size := by
    constructor
    · intro h
      exact_mod_cast h.2
    · intro h
      exact ⟨Int.natCast_nonneg n, by exact_mod_cast h⟩
  unfold toBytes
  rw [← bytes_eq_digits]
  exact if_congr hiff rfl rfl

/-- **A block** is decoded if it is in the alphabet and its number has no more than the given bytes. -/
theorem decodeBlock_eq_ok {block : List Char} {k : ℕ} {bytes : List UInt8} :
    decodeBlock block k = .ok bytes
      ↔ ∃ es : List ℕ, (∀ e ∈ es, e < 58) ∧ block = es.map letter ∧ value 58 es < 256 ^ k
        ∧ bytes = (digits 256 k (value 58 es)).map UInt8.ofNat := by
  unfold decodeBlock
  rw [bind_eq_ok]
  constructor
  · rintro ⟨num, hnum, hbytes⟩
    obtain ⟨es, hes, hblock, rfl⟩ := (foldlM_alphabetIndex block 0 num).mp hnum
    have hvalue : toBytes k ((value 58 es : ℕ) : ℤ) = .ok bytes := hbytes
    rw [toBytes_natCast] at hvalue
    by_cases hlt : value 58 es < 256 ^ k
    · rw [if_pos hlt] at hvalue
      exact ⟨es, hes, hblock, hlt, (Except.ok.inj hvalue).symm⟩
    · rw [if_neg hlt] at hvalue
      cases hvalue
  · rintro ⟨es, hes, hblock, hlt, rfl⟩
    refine ⟨value 58 es, (foldlM_alphabetIndex block 0 _).mpr ⟨es, hes, hblock, rfl⟩, ?_⟩
    rw [toBytes_natCast, if_pos hlt]

/-- A written block of bytes is decoded to them. -/
theorem decodeBlock_encodeBlock {bytes : List UInt8} (hlen : bytes.length ≤ 8) :
    decodeBlock ((blocks.encodeBlock (bytes.map UInt8.toNat)).map letter) bytes.length = .ok bytes := by
  have hlen' : (bytes.map UInt8.toNat).length ≤ blocks.width := by rwa [List.length_map]
  have hbytes : ∀ d ∈ bytes.map UInt8.toNat, d < blocks.inner := by
    intro d hd
    obtain ⟨b, -, rfl⟩ := List.mem_map.mp hd
    exact b.toNat_lt
  have hvalue : value 58 (blocks.encodeBlock (bytes.map UInt8.toNat)) = value 256 (bytes.map UInt8.toNat) :=
    Blocks.value_encodeBlock hlen' hbytes
  refine decodeBlock_eq_ok.mpr ⟨blocks.encodeBlock (bytes.map UInt8.toNat),
    fun e he => digits_lt (by decide : 0 < 58) he, rfl, ?_, ?_⟩
  · rw [hvalue, ← List.length_map UInt8.toNat]
    exact value_lt hbytes
  · have hdigits : digits 256 bytes.length (value 256 (bytes.map UInt8.toNat)) = bytes.map UInt8.toNat :=
      digits_value (List.length_map _) hbytes
    rw [hvalue, hdigits, List.map_map]
    refine (List.map_id _).symm.trans (List.map_congr_left fun b _ => ?_)
    exact UInt8.ofNat_toNat.symm

/-- A block that is decoded is the written block of its bytes. -/
theorem encodeBlock_decodeBlock {block : List Char} {k : ℕ} {bytes : List UInt8}
    (hsize : block.length = blocks.size k) (h : decodeBlock block k = .ok bytes) :
    bytes.length = k ∧ (blocks.encodeBlock (bytes.map UInt8.toNat)).map letter = block := by
  obtain ⟨es, hes, rfl, hlt, rfl⟩ := decodeBlock_eq_ok.mp h
  rw [List.length_map] at hsize
  have hdigits : ((digits 256 k (value 58 es)).map UInt8.ofNat).map UInt8.toNat
      = digits 256 k (value 58 es) := by
    rw [List.map_map]
    refine (List.map_congr_left fun d hd => ?_).trans (List.map_id _)
    exact UInt8.toNat_ofNat_of_lt (digits_lt (by decide : 0 < 256) hd)
  constructor
  · rw [List.length_map, length_digits]
  · rw [hdigits]
    exact congrArg (List.map letter) (Blocks.encodeBlock_digits (B := blocks) hsize hes hlt)

/-! ## Whole texts -/

/-- What is decoded after the full blocks. -/
def decodeLast (last_block : List Char) : Py (List UInt8) :=
  if last_block.length = 0 then .ok []
  else if last_block.length ∉ encodedBlockSizes then
    .error (.ValueError "Invalid Monero address: bad trailing block size")
  else decodeBlock last_block (encodedBlockSizes.idxOf last_block.length)

def decodeFull (address : List Char) : Py (List (List UInt8)) :=
  (List.range (address.length / 11)).mapM fun i => decodeBlock ((address.drop (i * 11)).take 11) 8

theorem decode_eq_ok {address : List Char} {bytes : List UInt8} :
    decode address = .ok bytes
      ↔ ∃ result last, decodeFull address = .ok result
        ∧ decodeLast (address.drop (address.length / 11 * 11)) = .ok last
        ∧ bytes = result.flatten ++ last := by
  have hlen : (address.drop (address.length / 11 * 11)).length = address.length % 11 := by
    rw [List.length_drop]
    omega
  have hlast (result : List (List UInt8)) :
      (if address.length % 11 > 0 then
          if address.length % 11 ∉ encodedBlockSizes then
            .error (.ValueError "Invalid Monero address: bad trailing block size")
          else do
            let last ← decodeBlock (address.drop (address.length / 11 * 11))
              (encodedBlockSizes.idxOf (address.length % 11))
            pure (result.flatten ++ last)
        else pure result.flatten : Py (List UInt8)) = .ok bytes
        ↔ ∃ last, decodeLast (address.drop (address.length / 11 * 11)) = .ok last
          ∧ bytes = result.flatten ++ last := by
    unfold decodeLast
    rw [hlen]
    by_cases hzero : address.length % 11 = 0
    · rw [if_neg (by omega), if_pos hzero]
      constructor
      · intro h
        exact ⟨[], rfl, by rw [List.append_nil]; exact (Except.ok.inj h).symm⟩
      · rintro ⟨last, hnil, rfl⟩
        rw [← Except.ok.inj hnil, List.append_nil]
        rfl
    · rw [if_pos (by omega), if_neg hzero]
      by_cases hmem : address.length % 11 ∈ encodedBlockSizes
      · rw [if_neg (not_not_intro hmem), if_neg (not_not_intro hmem), bind_eq_ok]
        refine exists_congr fun last => and_congr_right fun _ => ?_
        exact ⟨fun h => (Except.ok.inj h).symm, fun h => congrArg Except.ok h.symm⟩
      · rw [if_pos hmem, if_pos hmem]
        constructor
        · intro h
          cases h
        · rintro ⟨last, h, -⟩
          cases h
  unfold decode
  rw [bind_eq_ok]
  constructor
  · rintro ⟨result, hresult, h⟩
    obtain ⟨last, hdecode, rfl⟩ := (hlast result).mp h
    exact ⟨result, last, hresult, hdecode, rfl⟩
  · rintro ⟨result, last, hresult, hdecode, rfl⟩
    exact ⟨result, hresult, (hlast result).mpr ⟨last, hdecode, rfl⟩⟩

/-- A full block in front is decoded by itself. -/
theorem decode_append {block : List Char} (hblock : block.length = 11) {address : List Char}
    {bytes : List UInt8} :
    decode (block ++ address) = .ok bytes
      ↔ ∃ first rest, decodeBlock block 8 = .ok first ∧ decode address = .ok rest
        ∧ bytes = first ++ rest := by
  have hcount : (block ++ address).length / 11 = address.length / 11 + 1 := by
    rw [List.length_append]
    omega
  have hdrop (i : ℕ) : (block ++ address).drop ((i + 1) * 11) = address.drop (i * 11) := by
    rw [Nat.succ_mul, Nat.add_comm, ← List.drop_drop, List.drop_left' hblock]
  have hfull : decodeFull (block ++ address) = (do
      let first ← decodeBlock block 8
      let result ← decodeFull address
      pure (first :: result)) := by
    unfold decodeFull
    rw [hcount, List.range_succ_eq_map, List.mapM_cons, List.mapM_map, Nat.zero_mul, List.drop_zero,
      List.take_left' hblock]
    congr 1
    funext first
    congr 2
    funext i
    show decodeBlock (((block ++ address).drop ((i + 1) * 11)).take 11) 8 = _
    rw [hdrop]
  rw [decode_eq_ok, hfull, hcount, hdrop]
  constructor
  · rintro ⟨result, last, hresult, hlast, rfl⟩
    obtain ⟨first, hfirst, hresult⟩ := bind_eq_ok.mp hresult
    obtain ⟨tail, htail, hpure⟩ := bind_eq_ok.mp hresult
    refine ⟨first, tail.flatten ++ last, hfirst, decode_eq_ok.mpr ⟨tail, last, htail, hlast, rfl⟩, ?_⟩
    rw [← Except.ok.inj hpure, List.flatten_cons, List.append_assoc]
  · rintro ⟨first, rest, hfirst, hrest, rfl⟩
    obtain ⟨tail, last, htail, hlast, rfl⟩ := decode_eq_ok.mp hrest
    refine ⟨first :: tail, last, ?_, hlast, ?_⟩
    · exact bind_eq_ok.mpr ⟨first, hfirst, bind_eq_ok.mpr ⟨tail, htail, rfl⟩⟩
    · rw [List.flatten_cons, List.append_assoc]

/-- A text that is shorter than a full block. -/
theorem decode_short {address : List Char} (hlen : address.length < 11) {bytes : List UInt8} :
    decode address = .ok bytes ↔ decodeLast address = .ok bytes := by
  have hzero : address.length / 11 = 0 := Nat.div_eq_of_lt hlen
  have hfull : decodeFull address = .ok [] := by
    unfold decodeFull
    rw [hzero]
    rfl
  rw [decode_eq_ok, hfull, hzero, Nat.zero_mul, List.drop_zero]
  constructor
  · rintro ⟨result, last, hresult, hlast, rfl⟩
    rw [← Except.ok.inj hresult]
    exact hlast
  · intro h
    exact ⟨[], bytes, rfl, h, rfl⟩

/-! ## Round trips -/

theorem size_idxOf : ∀ n : ℕ, n < 11 → n ∈ encodedBlockSizes →
    blocks.size (encodedBlockSizes.idxOf n) = n ∧ encodedBlockSizes.idxOf n < 8 := by
  decide

theorem idxOf_size : ∀ k : ℕ, k < 8 → blocks.size k < 11 ∧ blocks.size k ∈ encodedBlockSizes
    ∧ encodedBlockSizes.idxOf (blocks.size k) = k ∧ (blocks.size k = 0 → k = 0) := by
  decide

/-- What is left of the bytes. -/
theorem decodeLast_encodeBlock {bytes : List UInt8} (hlen : bytes.length < 8) :
    decodeLast ((blocks.encodeBlock (bytes.map UInt8.toNat)).map letter) = .ok bytes := by
  obtain ⟨-, hmem, hidx, hzero⟩ := idxOf_size _ hlen
  have hsize : ((blocks.encodeBlock (bytes.map UInt8.toNat)).map letter).length
      = blocks.size bytes.length := by
    rw [List.length_map, Blocks.length_encodeBlock, List.length_map]
  unfold decodeLast
  rw [hsize]
  by_cases h : blocks.size bytes.length = 0
  · rw [if_pos h, List.length_eq_zero_iff.mp (hzero h)]
  · rw [if_neg h, if_neg (not_not_intro hmem), hidx]
    exact decodeBlock_encodeBlock hlen.le

/-- **What is encoded is decoded to the bytes.** -/
theorem decode_encode (bytes : List UInt8) : decode (encode bytes) = .ok bytes := by
  by_cases hlen : bytes.length < 8
  · have hshort : (bytes.map UInt8.toNat).length < blocks.width := by rwa [List.length_map]
    have hlength : (encode bytes).length < 11 := by
      rw [encode, Blocks.encode_of_lt hshort, List.length_map, Blocks.length_encodeBlock, List.length_map]
      exact (idxOf_size _ hlen).1
    rw [decode_short hlength, encode, Blocks.encode_of_lt hshort]
    exact decodeLast_encodeBlock hlen
  · have hsplit : bytes = bytes.take 8 ++ bytes.drop 8 := (List.take_append_drop 8 bytes).symm
    have hfirst : (bytes.take 8).length = 8 := by
      rw [List.length_take]
      omega
    have hdrop : (bytes.drop 8).length < bytes.length := by
      rw [List.length_drop]
      omega
    have ih := decode_encode (bytes.drop 8)
    have hencode : encode bytes
        = (blocks.encodeBlock ((bytes.take 8).map UInt8.toNat)).map letter ++ encode (bytes.drop 8) := by
      have hwidth : ((bytes.take 8).map UInt8.toNat).length = blocks.width := by
        rw [List.length_map, hfirst]
        rfl
      conv_lhs => rw [hsplit]
      rw [encode, List.map_append, Blocks.encode_append hwidth, List.map_append, encode]
    have hblock : ((blocks.encodeBlock ((bytes.take 8).map UInt8.toNat)).map letter).length = 11 := by
      rw [List.length_map, Blocks.length_encodeBlock, List.length_map, hfirst]
      rfl
    rw [hencode, decode_append hblock]
    refine ⟨bytes.take 8, bytes.drop 8, ?_, ih, hsplit⟩
    have hdecode := decodeBlock_encodeBlock hfirst.le
    rwa [hfirst] at hdecode
termination_by bytes.length

/-- **What is decoded is encoded to the text.** -/
theorem encode_decode {address : List Char} {bytes : List UInt8} (h : decode address = .ok bytes) :
    encode bytes = address := by
  by_cases hlen : address.length < 11
  · rw [decode_short hlen] at h
    unfold decodeLast at h
    by_cases hzero : address.length = 0
    · rw [if_pos hzero] at h
      have hshort : ([] : List ℕ).length < blocks.width := Nat.succ_pos 7
      rw [← Except.ok.inj h, List.length_eq_zero_iff.mp hzero, encode, List.map_nil,
        Blocks.encode_of_lt hshort]
      rfl
    · rw [if_neg hzero] at h
      by_cases hmem : address.length ∈ encodedBlockSizes
      · rw [if_neg (not_not_intro hmem)] at h
        obtain ⟨hsize, hlt⟩ := size_idxOf _ hlen hmem
        obtain ⟨hlength, hencode⟩ := encodeBlock_decodeBlock hsize.symm h
        have hshort : (bytes.map UInt8.toNat).length < blocks.width := by
          rw [List.length_map, hlength]
          exact hlt
        rw [encode, Blocks.encode_of_lt hshort, hencode]
      · rw [if_pos hmem] at h
        cases h
  · have hsplit : address = address.take 11 ++ address.drop 11 := (List.take_append_drop 11 address).symm
    have hblock : (address.take 11).length = 11 := by
      rw [List.length_take]
      omega
    have hdrop : (address.drop 11).length < address.length := by
      rw [List.length_drop]
      omega
    rw [hsplit, decode_append hblock] at h
    obtain ⟨first, rest, hfirst, hrest, rfl⟩ := h
    have ih := encode_decode hrest
    obtain ⟨hlength, hencode⟩ := encodeBlock_decodeBlock (k := 8) hblock hfirst
    have hwidth : (first.map UInt8.toNat).length = blocks.width := by
      rw [List.length_map, hlength]
      rfl
    have happend : encode (first ++ rest)
        = (blocks.encodeBlock (first.map UInt8.toNat)).map letter ++ encode rest := by
      rw [encode, List.map_append, Blocks.encode_append hwidth, List.map_append, encode]
    rw [happend, hencode, ih, ← hsplit]
termination_by address.length

/-! ## Rejection -/

/-- The number of a text in the alphabet. -/
def number (block : List Char) : ℕ := value 58 (block.map alphabet.idxOf)

/-- A block has a number with too many bytes. -/
def Overflows (address : List Char) : Prop :=
  (∃ i < address.length / 11, 256 ^ 8 ≤ number ((address.drop (i * 11)).take 11))
    ∨ 256 ^ encodedBlockSizes.idxOf (address.length % 11)
      ≤ number (address.drop (address.length / 11 * 11))

theorem number_lt_of_decodeBlock {block : List Char} {k : ℕ} {bytes : List UInt8}
    (h : decodeBlock block k = .ok bytes) : number block < 256 ^ k := by
  obtain ⟨es, hes, rfl, hlt, -⟩ := decodeBlock_eq_ok.mp h
  have hidx : (es.map letter).map alphabet.idxOf = es := by
    rw [List.map_map]
    exact (List.map_congr_left fun e he => idxOf_letter e (hes e he)).trans (List.map_id es)
  rw [number, hidx]
  exact hlt

/-- What is decoded has blocks that fit and a last block with one of the sizes. -/
theorem fits_of_decode {address : List Char} {bytes : List UInt8} (h : decode address = .ok bytes) :
    ¬ Overflows address ∧ address.length % 11 ∈ encodedBlockSizes := by
  obtain ⟨result, last, hfull, hlast, -⟩ := decode_eq_ok.mp h
  have hlen : (address.drop (address.length / 11 * 11)).length = address.length % 11 := by
    rw [List.length_drop]
    omega
  have hfits : address.length % 11 ∈ encodedBlockSizes
      ∧ number (address.drop (address.length / 11 * 11))
        < 256 ^ encodedBlockSizes.idxOf (address.length % 11) := by
    unfold decodeLast at hlast
    rw [hlen] at hlast
    by_cases hzero : address.length % 11 = 0
    · have hnil := List.length_eq_zero_iff.mp (hlen.trans hzero)
      rw [hnil, hzero]
      decide
    · rw [if_neg hzero] at hlast
      by_cases hmem : address.length % 11 ∈ encodedBlockSizes
      · rw [if_neg (not_not_intro hmem)] at hlast
        exact ⟨hmem, number_lt_of_decodeBlock hlast⟩
      · rw [if_pos hmem] at hlast
        cases hlast
  refine ⟨?_, hfits.1⟩
  rintro (⟨i, hi, hlarge⟩ | hlarge)
  · obtain ⟨block, hblock⟩ := mem_of_mapM hfull (List.mem_range.mpr hi)
    exact absurd (number_lt_of_decodeBlock hblock) (not_lt.mpr hlarge)
  · exact absurd hfits.2 (not_lt.mpr hlarge)

/-- An address that is accepted is decoded. -/
theorem decode_of_validate {network environment : String} {keccak256 : List UInt8 → List UInt8}
    {address a : List Char} (henv : environment ≠ "dev")
    (h : validate network environment keccak256 address = .ok a) :
    ∃ bytes, decode address = .ok bytes := by
  unfold validate at h
  split at h
  · cases h
  · split at h
    · cases h
    · split at h
      · cases h
      · cases hcheck : checkChecksum keccak256 address with
        | error e =>
            rw [hcheck] at h
            cases e <;> cases h
        | ok u =>
            unfold checkChecksum at hcheck
            obtain ⟨decoded, hdecoded, -⟩ := bind_eq_ok.mp hcheck
            exact ⟨decoded, hdecoded⟩

/-- **Base58 is exact.** Bytes that are encoded are decoded to themselves, a text that is decoded is the
encoding of its bytes, and a text with a block that does not fit, or a last block of a size that there is
not, is refused. Outside of development an accepted address is such an encoding. -/
theorem base58_exact :
    (∀ bytes, decode (encode bytes) = .ok bytes)
      ∧ (∀ address bytes, decode address = .ok bytes → encode bytes = address)
      ∧ (∀ address address' bytes, decode address = .ok bytes → decode address' = .ok bytes →
          address = address')
      ∧ (∀ address, Overflows address ∨ address.length % 11 ∉ encodedBlockSizes →
          ∃ e, decode address = .error e)
      ∧ ∀ network environment keccak256 address a, environment ≠ "dev" →
          validate network environment keccak256 address = .ok a →
            ∃ bytes, decode address = .ok bytes ∧ encode bytes = address := by
  refine ⟨decode_encode, fun _ _ => encode_decode, ?_, ?_, ?_⟩
  · intro address address' bytes h h'
    rw [← encode_decode h, ← encode_decode h']
  · intro address hbad
    cases hdecode : decode address with
    | error e => exact ⟨e, rfl⟩
    | ok bytes =>
        obtain ⟨hfits, hsize⟩ := fits_of_decode hdecode
        exact absurd hbad (not_or.mpr ⟨hfits, not_not_intro hsize⟩)
  · intro network environment keccak256 address a henv h
    obtain ⟨bytes, hdecode⟩ := decode_of_validate henv h
    exact ⟨bytes, hdecode, encode_decode hdecode⟩

/-- The text of the byte 255. -/
theorem base58_exact_one_byte : encode [255] = ['5', 'Q'] :=
  base58_exact.2.1 ['5', 'Q'] [255] (by decide +kernel)

end Sthrip.MoneroBase58
