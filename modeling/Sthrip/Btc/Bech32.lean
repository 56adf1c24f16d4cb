import Mathlib.Data.Int.Bitwise
import Sthrip.Bitcoin.Script
import Sthrip.Codec.Digits

set_option autoImplicit false

/-! # Bech32 addresses

`encode_bech32` and `decode_bech32` of `sthrip/swaps/utils/bitcoin.py`. An error of the source is `none`.
The search of the alphabet gives `-1` for a character that is not in it, and goes on with that.
-/

namespace Sthrip.Btc

open Bitcoin Digits Checksum

def bech32Charset : List Char :=
  ['q', 'p', 'z', 'r', 'y', '9', 'x', '8', 'g', 'f', '2', 't', 'v', 'd', 'w', '0',
    's', '3', 'j', 'n', '5', '4', 'k', 'h', 'c', 'e', '6', 'm', 'u', 'a', '7', 'l']

def bech32Generator : List ℤ := [0x3b6a57b2, 0x26508e6d, 0x1ea119fa, 0x3d4233dd, 0x2a1462b3]

/-- A round of `bech32_polymod` -/
def polymodRound (chk v : ℤ) : ℤ :=
  let b := chk >>> (25 : ℕ)
  let chk := Int.xor ((Int.land chk 0x1ffffff) <<< (5 : ℕ)) v
  bech32Generator.zipIdx.foldl (fun chk (g : ℤ × ℕ) =>
    if Int.land (b >>> g.2) 1 = 1 then Int.xor chk g.1 else chk) chk

/-- `bech32_polymod` -/
def bech32Polymod (values : List ℤ) : ℤ := values.foldl polymodRound 1

/-- `bech32_hrp_expand` -/
def bech32HrpExpand (hrp : List Char) : List ℤ :=
  let codes := hrp.map Char.toNat
  (codes.map (· >>> 5) ++ [0] ++ codes.map (· &&& 31)).map Int.ofNat

/-- `bech32_verify_checksum` -/
def bech32VerifyChecksum (hrp : List Char) (data : List ℤ) : Bool :=
  bech32Polymod (bech32HrpExpand hrp ++ data) = 1

/-- `bech32_create_checksum` -/
def bech32CreateChecksum (hrp : List Char) (data : List ℤ) : List ℤ :=
  let polymod := Int.xor (bech32Polymod (bech32HrpExpand hrp ++ data ++ [0, 0, 0, 0, 0, 0])) 1
  (List.range 6).map fun (i : ℕ) => Int.land (polymod >>> (5 * (5 - i))) 31

/-- The inner loop of `convertbits`, of at most `fuel` rounds: the bits left over, and the values
taken out. -/
def takeBits (tobits acc : ℕ) : ℕ → ℕ → ℕ × List ℕ
  | 0, bits => (bits, [])
  | fuel + 1, bits =>
      if tobits ≤ bits then
        let rest := takeBits tobits acc fuel (bits - tobits)
        (rest.1, ((acc >>> (bits - tobits)) &&& (2 ^ tobits - 1)) :: rest.2)
      else (bits, [])

/-- A round of the outer loop of `convertbits`: the accumulator, its bits, and what was taken out. -/
def regroupRound (frombits tobits : ℕ) (s : ℕ × ℕ × List ℕ) (value : ℤ) : Option (ℕ × ℕ × List ℕ) :=
  let max_acc := 2 ^ (frombits + tobits - 1) - 1
  if value < 0 ∨ value >>> frombits ≠ 0 then none
  else
    let acc := ((s.1 <<< frombits) ||| value.toNat) &&& max_acc
    let bits := s.2.1 + frombits
    let taken := takeBits tobits acc bits bits
    some (acc, taken.1, s.2.2 ++ taken.2)

def regroup (frombits tobits : ℕ) (data : List ℤ) : Option (ℕ × ℕ × List ℕ) :=
  data.foldlM (regroupRound frombits tobits) (0, 0, [])

/-- `convertbits` -/
def convertbits (data : List ℤ) (frombits tobits : ℕ) (pad : Bool) : Option (List ℕ) := do
  let (acc, bits, ret) ← regroup frombits tobits data
  let rest := (acc <<< (tobits - bits)) &&& (2 ^ tobits - 1)
  if pad then some (if bits ≠ 0 then ret ++ [rest] else ret)
  else if frombits ≤ bits ∨ rest ≠ 0 then none
  else some ret

/-- `BECH32_CHARSET[d]`: an index below zero counts from the end. -/
def charsetAt (d : ℤ) : Option Char :=
  if 0 ≤ d then bech32Charset[d.toNat]?
  else if -32 ≤ d then bech32Charset[(32 + d).toNat]?
  else none

/-- `BECH32_CHARSET.find(x)` -/
def charsetFind (x : Char) : ℤ := (bech32Charset.findIdx? (· = x)).elim (-1) fun i => i

/-- `encode_bech32` -/
def encodeBech32 (hrp : String) (witver : ℤ) (witprog : Bytes) : Option String := do
  let bits ← convertbits (witprog.map fun b => (b.toNat : ℤ)) 8 5 true
  let data := witver :: bits.map Int.ofNat
  let combined := data ++ bech32CreateChecksum hrp.toList data
  let chars ← combined.mapM charsetAt
  return String.ofList (hrp.toList ++ '1' :: chars)

/-- `s.lower()` of a text in ASCII -/
def lower (s : String) : String := String.ofList (s.toList.map Char.toLower)

/-- `addr.rsplit('1', 1)`, with the separator in the text. -/
def rsplitOne (addr : List Char) : List Char × List Char :=
  let data := (addr.reverse.takeWhile (· ≠ '1')).reverse
  (addr.take (addr.length - data.length - 1), data)

/-- `decode_bech32`: the human-readable part, the version and the program. -/
def decodeBech32 (addr : String) : Option (String × ℤ × Bytes) := do
  let chars := addr.toList
  if chars.any (fun x => x.toNat < 33 ∨ 126 < x.toNat) then none
  else if chars.map Char.toLower ≠ chars ∧ chars.map Char.toUpper ≠ chars then none
  else
    let addr := (lower addr).toList
    if '1' ∉ addr then none
    else
      let (hrp, data) := rsplitOne addr
      if hrp.length < 1 ∨ data.length < 6 then none
      else
        let data := data.map charsetFind
        if bech32VerifyChecksum hrp data = false then none
        else
          match data.take (data.length - 6) with
          | [] => none
          | witver :: data =>
              if 16 < witver then none
              else
                let res ← convertbits data 5 8 false
                if res.length < 2 ∨ 40 < res.length then none
                else if witver = 0 ∧ res.length ≠ 20 ∧ res.length ≠ 32 then none
                else some (String.ofList hrp, witver, res.map UInt8.ofNat)

/-! ## The checksum -/

/-- The bits that leave the register, folded back. -/
def feedback (b : ℕ) : ℕ :=
  (if b.testBit 0 then 0x3b6a57b2 else 0) ^^^ (if b.testBit 1 then 0x26508e6d else 0) ^^^
    (if b.testBit 2 then 0x1ea119fa else 0) ^^^ (if b.testBit 3 then 0x3d4233dd else 0) ^^^
    (if b.testBit 4 then 0x2a1462b3 else 0)

/-- A round of `polymodRound`, before the value is taken in. -/
def polymodShift (c : ℕ) : ℕ := (c % 2 ^ 25) <<< 5 ^^^ feedback (c >>> 25)

theorem feedback_xor (a b : ℕ) : feedback (a ^^^ b) = feedback a ^^^ feedback b := by
  have hbit : ∀ i g : ℕ, (if (a ^^^ b).testBit i then g else 0) =
      (if a.testBit i then g else 0) ^^^ (if b.testBit i then g else 0) := by
    intro i g
    rw [Nat.testBit_xor]
    cases a.testBit i <;> cases b.testBit i <;> simp
  simp only [feedback, hbit]
  ac_rfl

theorem feedback_lt (b : ℕ) : feedback b < 2 ^ 30 := by
  have hif : ∀ (p : Bool) (g : ℕ), g < 2 ^ 30 → (if p then g else 0) < 2 ^ 30 := by
    intro p g hg
    cases p
    · exact Nat.two_pow_pos 30
    · exact hg
  rw [feedback]
  refine Nat.xor_lt_two_pow
    (Nat.xor_lt_two_pow (Nat.xor_lt_two_pow (Nat.xor_lt_two_pow ?_ ?_) ?_) ?_) ?_ <;>
      exact hif _ _ (by decide)

/-- `bech32_polymod` is a register of six letters. -/
theorem register_polymodShift : Register 5 6 polymodShift where
  xor a c := by
    simp only [polymodShift, Nat.xor_mod_two_pow, Nat.shiftLeft_xor_distrib, Nat.shiftRight_xor_distrib,
      feedback_xor]
    ac_rfl
  lt c := by
    have hpow : (2 ^ 5) ^ 6 = 2 ^ 30 := (pow_mul 2 5 6).symm
    rw [hpow]
    refine Nat.xor_lt_two_pow ?_ (feedback_lt _)
    rw [Nat.shiftLeft_eq]
    have := Nat.mod_lt c (Nat.two_pow_pos 25)
    omega
  small c hc := by
    have hlt : c < 2 ^ 25 := by omega
    have hhigh : c >>> 25 = 0 := by
      rw [Nat.shiftRight_eq_div_pow, Nat.div_eq_of_lt hlt]
    have hzero : feedback 0 = 0 := by decide
    rw [polymodShift, hhigh, hzero, Nat.xor_zero, Nat.mod_eq_of_lt hlt, Nat.shiftLeft_eq]

/-- One generator, of what is not below zero. -/
theorem xor_generator (b x i g : ℕ) :
    (if Int.land ((b : ℤ) >>> i) 1 = 1 then Int.xor (x : ℤ) (g : ℤ) else (x : ℤ)) =
      ((x ^^^ (if b.testBit i then g else 0) : ℕ) : ℤ) := by
  have hbit : Int.land ((b : ℤ) >>> i) 1 = 1 ↔ b.testBit i = true := by
    have hland : Int.land ((b : ℤ) >>> i) 1 = ((b >>> i &&& 1 : ℕ) : ℤ) := rfl
    rw [hland, Nat.and_one_is_mod, Nat.shiftRight_eq_div_pow, Nat.testBit_eq_decide_div_mod_eq,
      decide_eq_true_iff]
    omega
  by_cases h : b.testBit i = true
  · rw [if_pos (hbit.mpr h), if_pos h]
    rfl
  · rw [if_neg fun h' => h (hbit.mp h'), if_neg h, Nat.xor_zero]

theorem foldl_generators (b : ℕ) (gs : List ℕ) (x i : ℕ) :
    ((gs.map Int.ofNat).zipIdx i).foldl (fun chk (g : ℤ × ℕ) =>
        if Int.land ((b : ℤ) >>> g.2) 1 = 1 then Int.xor chk g.1 else chk) (x : ℤ) =
      ((gs.zipIdx i).foldl (fun x (g : ℕ × ℕ) => x ^^^ (if b.testBit g.2 then g.1 else 0)) x : ℕ) := by
  induction gs generalizing x i with
  | nil => rfl
  | cons g gs ih =>
      rw [List.map_cons, List.zipIdx_cons, List.foldl_cons, List.zipIdx_cons, List.foldl_cons]
      exact (congrArg (fun s => List.foldl _ s _) (xor_generator b x i g)).trans (ih _ _)

theorem polymodRound_eq (c v : ℕ) : polymodRound c v = ((polymodShift c ^^^ v : ℕ) : ℤ) := by
  have hshifted : Int.xor ((Int.land (c : ℤ) 0x1ffffff) <<< (5 : ℕ)) (v : ℤ) =
      (((c % 2 ^ 25) <<< 5 ^^^ v : ℕ) : ℤ) := by
    rw [← Nat.and_two_pow_sub_one_eq_mod]
    rfl
  have hfold := foldl_generators (c >>> 25)
    [0x3b6a57b2, 0x26508e6d, 0x1ea119fa, 0x3d4233dd, 0x2a1462b3] ((c % 2 ^ 25) <<< 5 ^^^ v) 0
  rw [← hshifted] at hfold
  refine hfold.trans (congrArg Int.ofNat ?_)
  simp only [List.zipIdx_cons, List.zipIdx_nil, List.foldl_cons, List.foldl_nil, polymodShift, feedback]
  ac_rfl

/-- The letters of an address are not below zero, and neither is the register then. -/
theorem polymod_eq (ds : List ℕ) :
    bech32Polymod (ds.map Int.ofNat) = (remainder polymodShift 1 ds : ℕ) := by
  have hrounds : ∀ c : ℕ, (ds.map Int.ofNat).foldl polymodRound c = (remainder polymodShift c ds : ℕ) := by
    induction ds with
    | nil => exact fun c => rfl
    | cons v ds ih =>
        intro c
        rw [List.map_cons, List.foldl_cons]
        exact (congrArg (fun s => List.foldl polymodRound s _) (polymodRound_eq c v)).trans (ih _)
  exact hrounds 1

/-! ## Groups of bits -/

variable {frombits tobits : ℕ}

/-- The inner loop cuts the low bits of the accumulator into groups and a rest. -/
theorem takeBits_eq (hto : 0 < tobits) (acc : ℕ) {fuel bits : ℕ} (hfuel : bits ≤ fuel) :
    let taken := takeBits tobits acc fuel bits
    taken.1 < tobits ∧ tobits * taken.2.length + taken.1 = bits ∧ (∀ y ∈ taken.2, y < 2 ^ tobits) ∧
      value (2 ^ tobits) taken.2 * 2 ^ taken.1 + acc % 2 ^ taken.1 = acc % 2 ^ bits := by
  intro taken
  induction fuel generalizing bits with
  | zero =>
      obtain rfl := Nat.le_zero.mp hfuel
      exact ⟨hto, rfl, fun _ hy => absurd hy List.not_mem_nil, Nat.zero_add _⟩
  | succ fuel ih =>
      by_cases hle : tobits ≤ bits
      · have htaken : taken = ((takeBits tobits acc fuel (bits - tobits)).1,
            ((acc >>> (bits - tobits)) &&& (2 ^ tobits - 1)) ::
              (takeBits tobits acc fuel (bits - tobits)).2) := if_pos hle
        have hrest : bits - tobits ≤ fuel := by omega
        obtain ⟨hlt, hcount, hrange, hvalue⟩ := ih hrest
        rw [htaken]
        rw [Nat.and_two_pow_sub_one_eq_mod, Nat.shiftRight_eq_div_pow]
        refine ⟨hlt, ?_, ?_, ?_⟩
        · rw [List.length_cons, Nat.mul_succ]
          omega
        · intro y hy
          rcases List.mem_cons.mp hy with rfl | hy
          · exact Nat.mod_lt _ (Nat.two_pow_pos _)
          · exact hrange y hy
        · -- the group in front stands above all the other bits
          rw [value_cons, Nat.add_mul, Nat.add_assoc, hvalue, Nat.mul_assoc, ← pow_mul, ← pow_add, hcount]
          have hbits : 2 ^ bits = 2 ^ (bits - tobits) * 2 ^ tobits := by
            rw [← pow_add, Nat.sub_add_cancel hle]
          rw [hbits, Nat.mod_mul, Nat.mul_comm, Nat.add_comm]
      · have htaken : taken = (bits, []) := if_neg hle
        rw [htaken]
        exact ⟨Nat.lt_of_not_le hle, Nat.zero_add _, fun _ hy => absurd hy List.not_mem_nil, by
          rw [value_nil, Nat.zero_mul, Nat.zero_add]⟩

/-- What the outer loop has made of the values it has gone through. -/
structure Shifted (frombits tobits : ℕ) (xs : List ℕ) (s : ℕ × ℕ × List ℕ) : Prop where
  bits_lt : s.2.1 < tobits
  ret_lt : ∀ y ∈ s.2.2, y < 2 ^ tobits
  count : tobits * s.2.2.length + s.2.1 = frombits * xs.length
  value : value (2 ^ tobits) s.2.2 * 2 ^ s.2.1 + s.1 % 2 ^ s.2.1 = value (2 ^ frombits) xs

/-- A round of the outer loop. -/
theorem Shifted.round {xs : List ℕ} {s : ℕ × ℕ × List ℕ} (h : Shifted frombits tobits xs s) {x : ℕ}
    (hx : x < 2 ^ frombits) :
    let acc := ((s.1 <<< frombits) ||| x) &&& (2 ^ (frombits + tobits - 1) - 1)
    let taken := takeBits tobits acc (s.2.1 + frombits) (s.2.1 + frombits)
    Shifted frombits tobits (xs ++ [x]) (acc, taken.1, s.2.2 ++ taken.2) := by
  intro acc taken
  have hto : 0 < tobits := Nat.zero_lt_of_lt h.bits_lt
  obtain ⟨hlt, hcount, hrange, hvalue⟩ : taken.1 < tobits ∧
      tobits * taken.2.length + taken.1 = s.2.1 + frombits ∧ (∀ y ∈ taken.2, y < 2 ^ tobits) ∧
      Digits.value (2 ^ tobits) taken.2 * 2 ^ taken.1 + acc % 2 ^ taken.1 = acc % 2 ^ (s.2.1 + frombits) :=
    takeBits_eq hto acc (Nat.le_refl (s.2.1 + frombits))
  -- the mask leaves the bits that are still needed
  have hacc : acc % 2 ^ (s.2.1 + frombits) = s.1 % 2 ^ s.2.1 * 2 ^ frombits + x := by
    have hle : s.2.1 + frombits ≤ frombits + tobits - 1 := by
      have := h.bits_lt
      omega
    show ((s.1 <<< frombits ||| x) &&& (2 ^ (frombits + tobits - 1) - 1)) % _ = _
    rw [Nat.and_two_pow_sub_one_eq_mod, ← Nat.shiftLeft_add_eq_or_of_lt hx, Nat.shiftLeft_eq,
      Nat.mod_mod_of_dvd _ (Nat.pow_dvd_pow 2 hle), Nat.add_comm s.2.1, pow_add, Nat.mod_mul,
      Nat.mul_add_mod', Nat.mod_eq_of_lt hx, Nat.mul_comm s.1, Nat.mul_add_div (Nat.two_pow_pos _),
      Nat.div_eq_of_lt hx, Nat.add_zero, Nat.add_comm, Nat.mul_comm]
  refine ⟨hlt, ?_, ?_, ?_⟩
  · intro y hy
    rcases List.mem_append.mp hy with hy | hy
    · exact h.ret_lt y hy
    · exact hrange y hy
  · have hbefore := h.count
    rw [List.length_append, List.length_append, List.length_singleton, Nat.mul_add, Nat.mul_succ]
    show tobits * s.2.2.length + tobits * taken.2.length + taken.1 = _
    omega
  · show Digits.value (2 ^ tobits) (s.2.2 ++ taken.2) * 2 ^ taken.1 + acc % 2 ^ taken.1 = _
    rw [value_append, Nat.add_mul, Nat.add_assoc, hvalue, Nat.mul_assoc, ← pow_mul, ← pow_add, hcount, hacc,
      value_concat, ← h.value, Nat.add_mul, pow_add, Nat.mul_assoc, Nat.add_assoc]

/-- A round goes on exactly with a value of `frombits` bits. -/
theorem regroupRound_eq_some {s s' : ℕ × ℕ × List ℕ} {value : ℤ} :
    regroupRound frombits tobits s value = some s' ↔ ∃ x : ℕ, value = x ∧ x < 2 ^ frombits ∧
      regroupRound frombits tobits s x = some s' := by
  constructor
  · intro h
    by_cases hok : value < 0 ∨ value >>> frombits ≠ 0
    · rw [regroupRound, if_pos hok] at h
      cases h
    · obtain ⟨x, rfl⟩ := Int.eq_ofNat_of_zero_le (not_lt.mp fun hneg => hok (Or.inl hneg))
      have hzero : ((x >>> frombits : ℕ) : ℤ) = 0 := not_not.mp fun hne => hok (Or.inr hne)
      rw [Nat.shiftRight_eq_div_pow] at hzero
      exact ⟨x, rfl, (Nat.div_eq_zero_iff_lt (Nat.two_pow_pos _)).mp (Int.ofNat_inj.mp hzero), h⟩
  · rintro ⟨x, rfl, -, h⟩
    exact h

theorem regroupRound_nat (s : ℕ × ℕ × List ℕ) {x : ℕ} (hx : x < 2 ^ frombits) :
    regroupRound frombits tobits s x = some
      (let acc := ((s.1 <<< frombits) ||| x) &&& (2 ^ (frombits + tobits - 1) - 1)
      let taken := takeBits tobits acc (s.2.1 + frombits) (s.2.1 + frombits)
      (acc, taken.1, s.2.2 ++ taken.2)) := by
  refine if_neg ?_
  rintro (hneg | hne)
  · omega
  · have hzero : ((x >>> frombits : ℕ) : ℤ) = 0 := by
      rw [Nat.shiftRight_eq_div_pow, Nat.div_eq_of_lt hx]
      rfl
    exact hne hzero

/-- The outer loop comes to an end only for values of `frombits` bits. -/
theorem regroup_eq_some (hto : 0 < tobits) {data : List ℤ} {s : ℕ × ℕ × List ℕ}
    (h : regroup frombits tobits data = some s) :
    ∃ xs : List ℕ, data = xs.map Int.ofNat ∧ (∀ x ∈ xs, x < 2 ^ frombits) ∧
      Shifted frombits tobits xs s := by
  induction data using List.reverseRecOn generalizing s with
  | nil =>
      obtain rfl := Option.some.inj h
      exact ⟨[], rfl, fun _ hx => absurd hx List.not_mem_nil, hto, fun _ hy => absurd hy List.not_mem_nil,
        rfl, rfl⟩
  | append_singleton data value ih =>
      rw [regroup, List.foldlM_append, Option.bind_eq_bind, Option.bind_eq_some_iff] at h
      obtain ⟨s', hfront, hlast⟩ := h
      obtain ⟨xs, rfl, hxs, hshifted⟩ := ih hfront
      rw [List.foldlM_cons, Option.bind_eq_bind, Option.bind_eq_some_iff] at hlast
      obtain ⟨s'', hround, hlast⟩ := hlast
      obtain rfl := Option.some.inj hlast
      obtain ⟨x, rfl, hx, hround⟩ := regroupRound_eq_some.mp hround
      rw [regroupRound_nat s' hx] at hround
      obtain rfl := Option.some.inj hround
      refine ⟨xs ++ [x], by rw [List.map_append]; rfl, ?_, hshifted.round hx⟩
      intro y hy
      rcases List.mem_append.mp hy with hy | hy
      · exact hxs y hy
      · rwa [List.mem_singleton.mp hy]

theorem exists_regroup (tobits : ℕ) {xs : List ℕ} (hxs : ∀ x ∈ xs, x < 2 ^ frombits) :
    ∃ s, regroup frombits tobits (xs.map Int.ofNat) = some s := by
  induction xs using List.reverseRecOn with
  | nil => exact ⟨_, rfl⟩
  | append_singleton xs x ih =>
      obtain ⟨s, hs⟩ := ih fun y hy => hxs y (List.mem_append_left _ hy)
      have hround : regroupRound frombits tobits s x = some _ :=
        regroupRound_nat s (hxs x (List.mem_append_right _ List.mem_cons_self))
      rw [regroup, List.map_append, List.foldlM_append, Option.bind_eq_bind]
      exact ⟨_, Option.bind_eq_some_iff.mpr ⟨s, hs, Option.bind_eq_some_iff.mpr ⟨_, hround, rfl⟩⟩⟩

/-- The bits that are left over, moved up to fill a group. -/
theorem rest_eq (acc : ℕ) {bits : ℕ} (h : bits < tobits) :
    (acc <<< (tobits - bits)) &&& (2 ^ tobits - 1) = acc % 2 ^ bits * 2 ^ (tobits - bits) := by
  have hpow : 2 ^ tobits = 2 ^ bits * 2 ^ (tobits - bits) := by
    rw [← pow_add, Nat.add_sub_of_le h.le]
  rw [Nat.and_two_pow_sub_one_eq_mod, Nat.shiftLeft_eq, hpow, Nat.mul_mod_mul_right]

/-- With zeros at the end, every list is regrouped. -/
theorem convertbits_pad (hto : 0 < tobits) {xs : List ℕ} (hxs : ∀ x ∈ xs, x < 2 ^ frombits) :
    ∃ ys, convertbits (xs.map Int.ofNat) frombits tobits true = some ys ∧
      Regrouped frombits tobits xs ys := by
  obtain ⟨s, hs⟩ := exists_regroup tobits hxs
  obtain ⟨xs', hmap, -, hshifted⟩ := regroup_eq_some hto hs
  obtain rfl : xs = xs' := List.map_injective_iff.mpr (fun _ _ => Int.ofNat.inj) hmap
  have hbits := hshifted.bits_lt
  have hcount := hshifted.count
  have hvalue := hshifted.value
  have hrest := rest_eq s.1 hbits
  by_cases hzero : s.2.1 = 0
  · refine ⟨s.2.2, ?_, hxs, hshifted.ret_lt, 0, hto, by omega, ?_⟩
    · rw [convertbits, hs]
      exact congrArg some (if_neg (not_not.mpr hzero))
    · rw [hzero, pow_zero, Nat.mod_one, Nat.mul_one, Nat.add_zero] at hvalue
      rw [hvalue, pow_zero, Nat.mul_one]
  · refine ⟨s.2.2 ++ [s.1 % 2 ^ s.2.1 * 2 ^ (tobits - s.2.1)], ?_, hxs, ?_, tobits - s.2.1, by omega,
      ?_, ?_⟩
    · rw [convertbits, hs, ← hrest]
      exact congrArg some (if_pos hzero)
    · intro y hy
      rcases List.mem_append.mp hy with hy | hy
      · exact hshifted.ret_lt y hy
      · rw [List.mem_singleton.mp hy, ← hrest]
        exact Nat.and_lt_two_pow _ (Nat.sub_lt (Nat.two_pow_pos _) Nat.one_pos)
    · rw [List.length_append, List.length_singleton, Nat.mul_add]
      omega
    · have hpow : 2 ^ tobits = 2 ^ s.2.1 * 2 ^ (tobits - s.2.1) := by
        rw [← pow_add, Nat.add_sub_of_le hbits.le]
      rw [value_concat, ← hvalue, Nat.add_mul, hpow, Nat.mul_assoc]

/-- **Without zeros, a list is regrouped exactly when it is another list with zeros at the end**, fewer
than one of its own values has bits. -/
theorem convertbits_strict (hfrom : frombits ≤ tobits) (hto : 0 < tobits) {data : List ℤ} {ys : List ℕ} :
    convertbits data frombits tobits false = some ys ↔
      ∃ xs : List ℕ, data = xs.map Int.ofNat ∧ Regrouped tobits frombits ys xs := by
  constructor
  · intro h
    rw [convertbits, Option.bind_eq_bind, Option.bind_eq_some_iff] at h
    obtain ⟨⟨acc, bits, ret⟩, hs, h⟩ := h
    obtain ⟨xs, rfl, hxs, hshifted⟩ := regroup_eq_some hto hs
    have hrest := rest_eq acc hshifted.bits_lt
    change (if frombits ≤ bits ∨ (acc <<< (tobits - bits)) &&& (2 ^ tobits - 1) ≠ 0 then none
      else some ret) = some ys at h
    by_cases hcond : frombits ≤ bits ∨ (acc <<< (tobits - bits)) &&& (2 ^ tobits - 1) ≠ 0
    · rw [if_pos hcond] at h
      cases h
    · rw [if_neg hcond] at h
      obtain rfl := Option.some.inj h
      have hbits : bits < frombits := Nat.lt_of_not_le fun hle => hcond (Or.inl hle)
      have hzero : acc % 2 ^ bits = 0 := by
        have hprod : acc % 2 ^ bits * 2 ^ (tobits - bits) = 0 :=
          hrest.symm.trans (not_not.mp fun hne => hcond (Or.inr hne))
        exact (Nat.mul_eq_zero.mp hprod).resolve_right (Nat.two_pow_pos _).ne'
      refine ⟨xs, rfl, hshifted.ret_lt, hxs, bits, hbits, hshifted.count.symm, ?_⟩
      rw [← hshifted.value]
      exact (congrArg (_ + ·) hzero).trans (Nat.add_zero _)
  · rintro ⟨xs, rfl, hregrouped⟩
    obtain ⟨pad, hpad, hlen, hvalue⟩ := hregrouped.bits
    obtain ⟨⟨acc, bits, ret⟩, hs⟩ := exists_regroup tobits hregrouped.right_lt
    obtain ⟨xs', hmap, -, hshifted⟩ := regroup_eq_some hto hs
    obtain rfl : xs = xs' := List.map_injective_iff.mpr (fun _ _ => Int.ofNat.inj) hmap
    have hcount : tobits * ret.length + bits = tobits * ys.length + pad := hshifted.count.trans hlen
    -- the bits left over are the zeros
    have hsame : ret.length = ys.length :=
      Regrouped.eq_of_mul_between hshifted.bits_lt (hpad.trans_le hfrom) hcount
    obtain rfl : bits = pad := by
      rw [hsame] at hcount
      omega
    have hsum : value (2 ^ tobits) ret * 2 ^ bits + acc % 2 ^ bits = value (2 ^ tobits) ys * 2 ^ bits :=
      hshifted.value.trans hvalue
    have hzero : acc % 2 ^ bits = 0 := by
      have hmod := congrArg (· % 2 ^ bits) hsum
      simpa only [Nat.mul_add_mod', Nat.mod_mod, Nat.mul_mod_left] using hmod
    have hret : ret = ys := by
      rw [hzero, Nat.add_zero] at hsum
      exact value_inj hsame hshifted.ret_lt hregrouped.left_lt
        (Nat.eq_of_mul_eq_mul_right (Nat.two_pow_pos bits) hsum)
    have hcond : ¬(frombits ≤ bits ∨ (acc <<< (tobits - bits)) &&& (2 ^ tobits - 1) ≠ 0) := by
      rw [rest_eq acc hshifted.bits_lt, hzero, Nat.zero_mul]
      rintro (hle | hne)
      · omega
      · exact hne rfl
    rw [convertbits, hs, ← hret]
    exact if_neg hcond

end Sthrip.Btc
