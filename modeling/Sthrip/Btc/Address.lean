import Sthrip.Btc.Bech32

set_option autoImplicit false

/-! # Bech32 round trips

What is decoded from the text that `encode_bech32` makes, and what `encode_bech32` makes of what was decoded
from a text.
-/

namespace Sthrip.Btc

open Bitcoin Digits Checksum

/-! ## Letters -/

/-- The letter with a number below 32. -/
def letter (d : ℕ) : Char := bech32Charset.getD d 'q'

theorem charsetAt_letter : ∀ d : ℕ, d < 32 → charsetAt d = some (letter d) := by decide

theorem charsetFind_letter : ∀ d : ℕ, d < 32 → charsetFind (letter d) = d := by decide

theorem letter_mem : ∀ d : ℕ, d < 32 → letter d ∈ bech32Charset := by decide

/-- To be decided for the characters of a text only. -/
theorem forall_of_all {P : Char → Prop} [DecidablePred P] {l : List Char}
    (h : (l.all fun c => decide (P c)) = true) : ∀ c ∈ l, P c :=
  fun c hc => of_decide_eq_true (List.all_eq_true.mp h c hc)

theorem exists_letter : ∀ c ∈ bech32Charset, ∃ d : ℕ, d < 32 ∧ letter d = c := forall_of_all (by decide)

/-- The alphabet is printable and lower-case, and without the separator. -/
theorem charset_plain : ∀ c ∈ bech32Charset, c.toLower = c ∧ 33 ≤ c.toNat ∧ c.toNat ≤ 126 ∧ c ≠ '1' :=
  forall_of_all (by decide)

/-- Texts in the alphabet are written with letters. -/
theorem exists_letters {data : List Char} (h : ∀ c ∈ data, c ∈ bech32Charset) :
    ∃ ds : List ℕ, (∀ d ∈ ds, d < 32) ∧ data = ds.map letter := by
  induction data with
  | nil => exact ⟨[], fun _ hd => absurd hd List.not_mem_nil, rfl⟩
  | cons c data ih =>
      obtain ⟨d, hd, rfl⟩ := exists_letter c (h c List.mem_cons_self)
      obtain ⟨ds, hds, rfl⟩ := ih fun x hx => h x (List.mem_cons_of_mem _ hx)
      exact ⟨d :: ds, List.forall_mem_cons.mpr ⟨hd, hds⟩, rfl⟩

theorem map_charsetFind {ds : List ℕ} (hds : ∀ d ∈ ds, d < 32) :
    (ds.map letter).map charsetFind = ds.map Int.ofNat := by
  rw [List.map_map]
  exact List.map_congr_left fun d hd => charsetFind_letter d (hds d hd)

theorem mapM_charsetAt {ds : List ℕ} (hds : ∀ d ∈ ds, d < 32) :
    (ds.map Int.ofNat).mapM charsetAt = some (ds.map letter) := by
  induction ds with
  | nil => rfl
  | cons d ds ih =>
      obtain ⟨hd, hds⟩ := List.forall_mem_cons.mp hds
      have hletter : charsetAt (Int.ofNat d) = some (letter d) := charsetAt_letter d hd
      rw [List.map_cons, List.mapM_cons, hletter, ih hds]
      rfl

theorem letters_plain {ds : List ℕ} (hds : ∀ d ∈ ds, d < 32) {c : Char} (hc : c ∈ ds.map letter) :
    c.toLower = c ∧ 33 ≤ c.toNat ∧ c.toNat ≤ 126 ∧ c ≠ '1' := by
  obtain ⟨d, hd, rfl⟩ := List.mem_map.mp hc
  exact charset_plain _ (letter_mem d (hds d hd))

/-! ## The checksum of letters -/

/-- `bech32_hrp_expand`, of what is not below zero. -/
def hrpLetters (hrp : List Char) : List ℕ :=
  (hrp.map Char.toNat).map (· >>> 5) ++ [0] ++ (hrp.map Char.toNat).map (· &&& 31)

theorem hrpExpand_eq (hrp : List Char) : bech32HrpExpand hrp = (hrpLetters hrp).map Int.ofNat := rfl

theorem hrpLetters_lt {hrp : List Char} (hhrp : ∀ c ∈ hrp, c.toNat < 1024) :
    ∀ d ∈ hrpLetters hrp, d < 2 ^ 5 := by
  intro d hd
  rw [hrpLetters, List.mem_append, List.mem_append] at hd
  rcases hd with (hd | hd) | hd
  · obtain ⟨n, hn, rfl⟩ := List.mem_map.mp hd
    obtain ⟨c, hc, rfl⟩ := List.mem_map.mp hn
    have hlt := hhrp c hc
    rw [Nat.shiftRight_eq_div_pow]
    omega
  · rw [List.mem_singleton.mp hd]
    exact Nat.two_pow_pos 5
  · obtain ⟨n, -, rfl⟩ := List.mem_map.mp hd
    have hmask : n &&& 31 = n % 2 ^ 5 := Nat.and_two_pow_sub_one_eq_mod n 5
    rw [hmask]
    exact Nat.mod_lt _ (Nat.two_pow_pos 5)

/-- The letters of a checksum are the digits of the register. -/
theorem createChecksum_eq (hrp : List Char) (ds : List ℕ) :
    bech32CreateChecksum hrp (ds.map Int.ofNat) = (digits (2 ^ 5) 6
      (remainder polymodShift (remainder polymodShift 1 (hrpLetters hrp ++ ds)) (List.replicate 6 0)
        ^^^ 1)).map Int.ofNat := by
  have hpolymod : bech32Polymod (bech32HrpExpand hrp ++ ds.map Int.ofNat ++ [0, 0, 0, 0, 0, 0]) =
      (remainder polymodShift (remainder polymodShift 1 (hrpLetters hrp ++ ds))
        (List.replicate 6 0) : ℕ) := by
    have hmap : bech32HrpExpand hrp ++ ds.map Int.ofNat ++ [0, 0, 0, 0, 0, 0] =
        (hrpLetters hrp ++ ds ++ List.replicate 6 0).map Int.ofNat := by
      rw [hrpExpand_eq, List.map_append, List.map_append]
      rfl
    rw [hmap, polymod_eq, remainder_append]
  rw [bech32CreateChecksum, hpolymod]
  generalize remainder polymodShift _ (List.replicate 6 0) = m
  have hdigit : ∀ k : ℕ, Int.land (Int.xor (m : ℤ) 1 >>> k) 31 = (((m ^^^ 1) / 2 ^ k % 2 ^ 5 : ℕ) : ℤ) := by
    intro k
    rw [← Nat.shiftRight_eq_div_pow, ← Nat.and_two_pow_sub_one_eq_mod]
    rfl
  have hplaces : (List.range 6).map (fun i => (m ^^^ 1) / 2 ^ (5 * (5 - i)) % 2 ^ 5) =
      digits (2 ^ 5) 6 (m ^^^ 1) := by
    simp [List.range_succ, digits, Nat.div_div_eq_div_mul]
  show (List.range 6).map (fun (i : ℕ) => Int.land (Int.xor (m : ℤ) 1 >>> (5 * (5 - i))) 31) = _
  rw [List.map_congr_left fun (i : ℕ) _ => hdigit (5 * (5 - i)), ← hplaces, List.map_map]
  rfl

theorem verifyChecksum_iff {hrp : List Char} (hhrp : ∀ c ∈ hrp, c.toNat < 1024) {ds cs : List ℕ}
    (hds : ∀ d ∈ ds, d < 2 ^ 5) (hcs : ∀ d ∈ cs, d < 2 ^ 5) (hlen : cs.length = 6) :
    bech32VerifyChecksum hrp ((ds ++ cs).map Int.ofNat) = true ↔
      cs.map Int.ofNat = bech32CreateChecksum hrp (ds.map Int.ofNat) := by
  have hone : 1 < (2 ^ 5) ^ 6 := by norm_num
  have hfront : remainder polymodShift 1 (hrpLetters hrp ++ ds) < (2 ^ 5) ^ 6 :=
    register_polymodShift.remainder_lt hone (by decide) fun d hd =>
      (List.mem_append.mp hd).elim (hrpLetters_lt hhrp d) (hds d)
  have hpolymod : bech32Polymod (bech32HrpExpand hrp ++ (ds ++ cs).map Int.ofNat) =
      (remainder polymodShift (remainder polymodShift 1 (hrpLetters hrp ++ ds)) cs : ℕ) := by
    have hmap : bech32HrpExpand hrp ++ (ds ++ cs).map Int.ofNat =
        (hrpLetters hrp ++ ds ++ cs).map Int.ofNat := by
      rw [hrpExpand_eq, ← List.map_append, List.append_assoc]
    rw [hmap, polymod_eq, remainder_append]
  rw [bech32VerifyChecksum, decide_eq_true_iff, hpolymod, createChecksum_eq,
    (List.map_injective_iff.mpr fun _ _ => Int.ofNat.inj).eq_iff,
    ← register_polymodShift.remainder_eq_iff hfront hone (by decide) hlen hcs]
  exact Int.ofNat_inj

/-! ## The separator -/

theorem rsplitOne_append {hrp data : List Char} (h : '1' ∉ data) :
    rsplitOne (hrp ++ '1' :: data) = (hrp, data) := by
  have hdata : ((hrp ++ '1' :: data).reverse.takeWhile (· ≠ '1')).reverse = data := by
    rw [List.reverse_append, List.reverse_cons, List.append_assoc, List.takeWhile_append_of_pos,
      List.singleton_append, List.takeWhile_cons_of_neg, List.append_nil, List.reverse_reverse]
    · exact fun hne => of_decide_eq_true hne rfl
    · intro c hc
      exact decide_eq_true fun hone => h (hone ▸ List.mem_reverse.mp hc)
  have hlength : (hrp ++ '1' :: data).length - data.length - 1 = hrp.length := by
    rw [List.length_append, List.length_cons]
    omega
  rw [rsplitOne, hdata, hlength, List.take_left]

/-- The text splits at its last separator. -/
theorem rsplitOne_eq {addr : List Char} (h : '1' ∈ addr) :
    addr = (rsplitOne addr).1 ++ '1' :: (rsplitOne addr).2 ∧ '1' ∉ (rsplitOne addr).2 := by
  obtain ⟨data, hrp, hrev, hdata⟩ := List.eq_append_cons_of_mem (List.mem_reverse.mpr h)
  have haddr : addr = hrp.reverse ++ '1' :: data.reverse := by
    rw [← List.reverse_reverse addr, hrev, List.reverse_append, List.reverse_cons, List.append_assoc]
    rfl
  have hdata : '1' ∉ data.reverse := fun hmem => hdata (List.mem_reverse.mp hmem)
  rw [haddr, rsplitOne_append hdata]
  exact ⟨rfl, hdata⟩

/-! ## What is decoded -/

/-- What `decode_bech32` has found in a text: its human-readable part, its characters after the last
separator, the version and the program. -/
structure Decoded (s hrp : String) (data : List Char) (v : ℤ) (p : Bytes) : Prop where
  printable : ∀ x ∈ s.toList, 33 ≤ x.toNat ∧ x.toNat ≤ 126
  oneCase : s.toList.map Char.toLower = s.toList ∨ s.toList.map Char.toUpper = s.toList
  split : (lower s).toList = hrp.toList ++ '1' :: data
  noOne : '1' ∉ data
  named : hrp.toList ≠ []
  six : 6 ≤ data.length
  checksum : bech32VerifyChecksum hrp.toList (data.map charsetFind) = true
  content : ∃ rest res, (data.map charsetFind).take (data.length - 6) = v :: rest ∧ v ≤ 16 ∧
    convertbits rest 5 8 false = some res ∧ (2 ≤ res.length ∧ res.length ≤ 40) ∧
    (v = 0 → res.length = 20 ∨ res.length = 32) ∧ p = res.map UInt8.ofNat

theorem decodeBech32_eq_some {s hrp : String} {v : ℤ} {p : Bytes} :
    decodeBech32 s = some (hrp, v, p) ↔ ∃ data, Decoded s hrp data v p := by
  constructor
  · intro h
    simp only [decodeBech32, Option.ite_none_left_eq_some] at h
    obtain ⟨hprintable, hcase, hone, hlength, hchecksum, h⟩ := h
    obtain ⟨hsplit, hnoOne⟩ := rsplitOne_eq (not_not.mp hone)
    cases htake : ((rsplitOne (lower s).toList).2.map charsetFind).take
        (((rsplitOne (lower s).toList).2.map charsetFind).length - 6) with
    | nil =>
        rw [htake] at h
        cases h
    | cons witver rest =>
        rw [htake] at h
        simp only [Option.ite_none_left_eq_some, Option.bind_eq_bind, Option.bind_eq_some_iff] at h
        obtain ⟨hversion, res, hres, hsize, hzero, h⟩ := h
        obtain ⟨hhrp, hpair⟩ := Prod.mk.inj (Option.some.inj h)
        obtain ⟨hv, hp⟩ := Prod.mk.inj hpair
        rw [List.length_map, hv] at htake
        rw [hv] at hversion hzero
        have hname : hrp.toList = (rsplitOne (lower s).toList).1 := by
          rw [← hhrp, String.toList_ofList]
        refine ⟨(rsplitOne (lower s).toList).2, ?_, (not_and_or.mp hcase).imp not_not.mp not_not.mp, ?_,
          hnoOne, ?_, by omega, ?_, rest, res, htake, by omega, hres, by omega, by omega, hp.symm⟩
        · intro x hx
          by_contra hbad
          exact hprintable (List.any_eq_true.mpr ⟨x, hx, decide_eq_true (by omega)⟩)
        · rw [hname]
          exact hsplit
        · rw [hname]
          intro hnil
          rw [hnil, List.length_nil] at hlength
          omega
        · rw [hname]
          exact Bool.eq_true_of_not_eq_false hchecksum
  · rintro ⟨data, hd⟩
    obtain ⟨rest, res, htake, hversion, hres, hsize, hzero, rfl⟩ := hd.content
    have hone : '1' ∈ hrp.toList ++ '1' :: data := List.mem_append_right _ List.mem_cons_self
    have hname := List.length_pos_iff.mpr hd.named
    have hsix := hd.six
    simp only [decodeBech32, hd.split, rsplitOne_append hd.noOne, Option.ite_none_left_eq_some,
      List.length_map, htake]
    refine ⟨?_, ?_, not_not.mpr hone, by omega, ?_, by omega, ?_⟩
    · intro hbad
      obtain ⟨x, hx, hx'⟩ := List.any_eq_true.mp hbad
      have hplain := hd.printable x hx
      have hrange := of_decide_eq_true hx'
      omega
    · rintro ⟨hlower, hupper⟩
      exact hd.oneCase.elim hlower hupper
    · rw [hd.checksum]
      exact fun h => absurd h.symm Bool.false_ne_true
    · rw [hres]
      refine Option.ite_none_left_eq_some.mpr ⟨by omega, Option.ite_none_left_eq_some.mpr ⟨by omega, ?_⟩⟩
      rw [String.ofList_toList]

/-! ## Lower case -/

theorem toLower_of_lower {c : Char} (h : 'a' ≤ c ∧ c ≤ 'z') :
    c.toLower = c ∧ 33 ≤ c.toNat ∧ c.toNat ≤ 126 := by
  have hlow : 97 ≤ c.toNat := h.1
  have hhigh : c.toNat ≤ 122 := h.2
  refine ⟨dif_neg ?_, by omega, by omega⟩
  rintro ⟨-, hupper⟩
  have hle : c.toNat ≤ 90 := hupper
  omega

theorem toNat_toLower_lt {c : Char} (h : c.toNat ≤ 126) : c.toLower.toNat < 1024 := by
  by_cases hupper : c.val ≥ 'A'.val ∧ c.val ≤ 'Z'.val
  · have hlower : c.toLower = ⟨c.val + ('a'.val - 'A'.val), _⟩ := dif_pos hupper
    have hle : c.val.toNat ≤ 90 := hupper.2
    have hdiff : ('a'.val - 'A'.val).toNat = 32 := by decide
    rw [hlower]
    show (c.val + ('a'.val - 'A'.val)).toNat < 1024
    rw [UInt32.toNat_add]
    omega
  · have hlower : c.toLower = c := dif_neg hupper
    rw [hlower]
    omega

/-! ## The round trips -/

/-- The text that `encode_bech32` makes of a version. -/
theorem encodeBech32_eq {hrp : String} (hhrp : ∀ c ∈ hrp.toList, c.toNat < 1024) {w : ℕ} (hw : w < 2 ^ 5)
    (p : Bytes) : ∃ q cs : List ℕ, Regrouped 8 5 (p.map UInt8.toNat) q ∧ (∀ d ∈ w :: q ++ cs, d < 2 ^ 5) ∧
      cs.length = 6 ∧ bech32VerifyChecksum hrp.toList ((w :: q ++ cs).map Int.ofNat) = true ∧
      encodeBech32 hrp w p = some (String.ofList (hrp.toList ++ '1' :: (w :: q ++ cs).map letter)) := by
  have hp : ∀ x ∈ p.map UInt8.toNat, x < 2 ^ 8 := by
    intro x hx
    obtain ⟨b, -, rfl⟩ := List.mem_map.mp hx
    exact b.toNat_lt
  obtain ⟨q, hq, hregrouped⟩ : ∃ q, convertbits ((p.map UInt8.toNat).map Int.ofNat) 8 5 true = some q ∧
      Regrouped 8 5 (p.map UInt8.toNat) q := convertbits_pad (by decide) hp
  have hwq : ∀ d ∈ w :: q, d < 2 ^ 5 := List.forall_mem_cons.mpr ⟨hw, hregrouped.right_lt⟩
  have hcreate := createChecksum_eq hrp.toList (w :: q)
  set cs := digits (2 ^ 5) 6 (remainder polymodShift
    (remainder polymodShift 1 (hrpLetters hrp.toList ++ w :: q)) (List.replicate 6 0) ^^^ 1)
  have hlen : cs.length = 6 := length_digits _ _
  have hcs : ∀ d ∈ cs, d < 2 ^ 5 := fun d hd => digits_lt (by decide) hd
  have hall : ∀ d ∈ w :: q ++ cs, d < 2 ^ 5 := fun d hd =>
    (List.mem_append.mp hd).elim (hwq d) (hcs d)
  refine ⟨q, cs, hregrouped, hall, hlen, (verifyChecksum_iff hhrp hwq hcs hlen).mpr hcreate.symm, ?_⟩
  have hbytes : p.map (fun b => (b.toNat : ℤ)) = (p.map UInt8.toNat).map Int.ofNat := by
    rw [List.map_map]
    rfl
  have hletters := mapM_charsetAt hall
  rw [List.map_append] at hletters
  rw [encodeBech32, hbytes, hq]
  show ((((w :: q).map Int.ofNat) ++ bech32CreateChecksum hrp.toList ((w :: q).map Int.ofNat)).mapM
    charsetAt >>= fun chars => some (String.ofList (hrp.toList ++ '1' :: chars))) = _
  rw [hcreate, hletters]
  rfl

/-- What was encoded is decoded, if there is a human-readable part. -/
theorem decode_encode {hrp : String} {v : ℤ} {p : Bytes} (hhrp : ∀ c ∈ hrp.toList, 'a' ≤ c ∧ c ≤ 'z')
    (hne : hrp.toList ≠ []) (hv : 0 ≤ v) (hv16 : v ≤ 16) (hp : 2 ≤ p.length ∧ p.length ≤ 40)
    (hp0 : v = 0 → p.length = 20 ∨ p.length = 32) :
    ∃ s, encodeBech32 hrp v p = some s ∧ decodeBech32 s = some (hrp, v, p) := by
  obtain ⟨w, rfl⟩ := Int.eq_ofNat_of_zero_le hv
  have hw : w < 2 ^ 5 := by omega
  have hascii : ∀ c ∈ hrp.toList, c.toNat < 1024 := fun c hc => by
    have := (toLower_of_lower (hhrp c hc)).2.2
    omega
  obtain ⟨q, cs, hregrouped, hall, hlen, hchecksum, hencode⟩ := encodeBech32_eq hascii hw p
  refine ⟨_, hencode, decodeBech32_eq_some.mpr ⟨(w :: q ++ cs).map letter, ?_⟩⟩
  -- every character is printable and lower-case
  have hplain : ∀ c ∈ hrp.toList ++ '1' :: (w :: q ++ cs).map letter,
      c.toLower = c ∧ 33 ≤ c.toNat ∧ c.toNat ≤ 126 := by
    intro c hc
    rcases List.mem_append.mp hc with hc | hc
    · exact toLower_of_lower (hhrp c hc)
    · rcases List.mem_cons.mp hc with rfl | hc
      · decide
      · obtain ⟨hlower, hprint, hprint', -⟩ := letters_plain hall hc
        exact ⟨hlower, hprint, hprint'⟩
  have hlower : (hrp.toList ++ '1' :: (w :: q ++ cs).map letter).map Char.toLower =
      hrp.toList ++ '1' :: (w :: q ++ cs).map letter := by
    rw [List.map_congr_left fun c hc => (hplain c hc).1, List.map_id']
  have hfind := map_charsetFind hall
  constructor
  · rw [String.toList_ofList]
    exact fun x hx => (hplain x hx).2
  · rw [String.toList_ofList]
    exact Or.inl hlower
  · rw [lower, String.toList_ofList, String.toList_ofList, hlower]
  · exact fun hone => (letters_plain hall hone).2.2.2 rfl
  · exact hne
  · rw [List.length_map, List.length_append, hlen]
    omega
  · rw [hfind]
    exact hchecksum
  · refine ⟨q.map Int.ofNat, p.map UInt8.toNat, ?_, by omega, ?_, ?_, ?_, ?_⟩
    · rw [hfind, List.length_map, List.length_append, hlen, Nat.add_sub_cancel, List.map_append,
        ← List.length_map (f := Int.ofNat), List.take_left]
      rfl
    · exact (convertbits_strict (by decide) (by decide)).mpr ⟨q, rfl, hregrouped⟩
    · rw [List.length_map]
      exact hp
    · rw [List.length_map]
      exact hp0
    · have hid : UInt8.ofNat ∘ UInt8.toNat = id := funext fun b => UInt8.ofNat_toNat
      rw [List.map_map, hid, List.map_id]

/-- **What was decoded from letters is encoded to the same text**, in lower case. -/
theorem Decoded.encode {s hrp : String} {data : List Char} {v : ℤ} {p : Bytes}
    (hd : Decoded s hrp data v p) (hdata : ∀ c ∈ data, c ∈ bech32Charset) :
    0 ≤ v ∧ v ≤ 16 ∧ encodeBech32 hrp v p = some (lower s) := by
  obtain ⟨ds, hds, rfl⟩ := exists_letters hdata
  obtain ⟨rest, res, htake, hv16, hres, -, -, rfl⟩ := hd.content
  have hsix := hd.six
  have hchecksum := hd.checksum
  rw [List.length_map] at hsix
  rw [map_charsetFind hds] at hchecksum
  rw [map_charsetFind hds, List.length_map, ← List.map_take] at htake
  obtain ⟨q', rfl, hregrouped'⟩ := (convertbits_strict (by decide) (by decide)).mp hres
  obtain ⟨w, q, hfront, rfl, hq⟩ := List.map_eq_cons_iff.mp htake
  obtain rfl : q = q' := List.map_injective_iff.mpr (fun _ _ => Int.ofNat.inj) hq
  have hsplit : ds = w :: q ++ ds.drop (ds.length - 6) := by
    rw [← hfront, List.take_append_drop]
  have hw : w < 2 ^ 5 := hds w (by rw [hsplit]; exact List.mem_cons_self)
  have hascii : ∀ c ∈ hrp.toList, c.toNat < 1024 := by
    intro c hc
    have hmem : c ∈ (lower s).toList := by
      rw [hd.split]
      exact List.mem_append_left _ hc
    rw [lower, String.toList_ofList] at hmem
    obtain ⟨x, hx, rfl⟩ := List.mem_map.mp hmem
    exact toNat_toLower_lt (hd.printable x hx).2
  obtain ⟨q', cs, hregrouped, hall, hlen, hchecksum', hencode⟩ :=
    encodeBech32_eq hascii hw (res.map UInt8.ofNat)
  have hbytes : (res.map UInt8.ofNat).map UInt8.toNat = res := by
    rw [List.map_map]
    exact (List.map_congr_left fun b hb => UInt8.toNat_ofNat_of_lt' (hregrouped'.left_lt b hb)).trans
      (List.map_id' res)
  rw [hbytes] at hregrouped
  obtain rfl := hregrouped'.right_unique hregrouped
  -- both checksums are the one of what stands before them
  have hdrop : (ds.drop (ds.length - 6)).length = 6 := by
    rw [List.length_drop]
    omega
  have hsame : cs = ds.drop (ds.length - 6) := by
    have hwq : ∀ d ∈ w :: q, d < 2 ^ 5 := fun d hd => hall d (List.mem_append_left _ hd)
    have hfirst := (verifyChecksum_iff hascii hwq (fun d hd => hall d (List.mem_append_right _ hd)) hlen).mp
      hchecksum'
    rw [hsplit] at hchecksum
    have hsecond := (verifyChecksum_iff hascii hwq
      (fun d hd => hds d (List.mem_of_mem_drop hd)) hdrop).mp hchecksum
    exact List.map_injective_iff.mpr (fun _ _ => Int.ofNat.inj) (hfirst.trans hsecond.symm)
  refine ⟨Int.natCast_nonneg w, hv16, hencode.trans (congrArg some ?_)⟩
  rw [hsame, ← hsplit, ← hd.split, String.ofList_toList]

theorem mem_of_charsetAt {d : ℤ} {c : Char} (h : charsetAt d = some c) : c ∈ bech32Charset := by
  unfold charsetAt at h
  split at h
  · exact List.mem_of_getElem? h
  · split at h
    · exact List.mem_of_getElem? h
    · cases h

theorem mem_of_mapM {l : List ℤ} {chars : List Char} (h : l.mapM charsetAt = some chars) :
    ∀ c ∈ chars, c ∈ bech32Charset := by
  induction l generalizing chars with
  | nil =>
      obtain rfl := Option.some.inj h
      exact fun c hc => absurd hc List.not_mem_nil
  | cons d l ih =>
      rw [List.mapM_cons, Option.bind_eq_bind, Option.bind_eq_some_iff] at h
      obtain ⟨c, hc, h⟩ := h
      rw [Option.bind_eq_bind, Option.bind_eq_some_iff] at h
      obtain ⟨rest, hrest, h⟩ := h
      obtain rfl := Option.some.inj h
      exact List.forall_mem_cons.mpr ⟨mem_of_charsetAt hc, ih hrest⟩

/-- A text that was encoded is in the alphabet, after its last separator. -/
theorem Decoded.letters {s hrp : String} {data : List Char} {v : ℤ} {p : Bytes}
    (hd : Decoded s hrp data v p) (h : encodeBech32 hrp v p = some (lower s)) :
    ∀ c ∈ data, c ∈ bech32Charset := by
  simp only [encodeBech32, Option.bind_eq_bind, Option.bind_eq_some_iff] at h
  obtain ⟨bits, -, chars, hchars, h⟩ := h
  have htext : hrp.toList ++ '1' :: chars = hrp.toList ++ '1' :: data := by
    rw [← hd.split, ← Option.some.inj h, String.toList_ofList]
  obtain rfl : chars = data := (List.cons.inj (List.append_cancel_left htext)).2
  exact mem_of_mapM hchars

/-- The characters of a text after its last separator, in lower case. -/
def dataPart (s : String) : List Char := (rsplitOne (lower s).toList).2

theorem Decoded.dataPart_eq {s hrp : String} {data : List Char} {v : ℤ} {p : Bytes}
    (hd : Decoded s hrp data v p) : dataPart s = data := by
  rw [dataPart, hd.split, rsplitOne_append hd.noOne]

/-- **When Bech32 addresses go round**: what was encoded is decoded if there is a human-readable part, and
what was decoded is encoded to the same text if every character after the last separator is in the
alphabet. -/
theorem bech32_roundTrip (hrp : String) (v : ℤ) (p : Bytes) :
    ((∀ c ∈ hrp.toList, 'a' ≤ c ∧ c ≤ 'z') → 0 ≤ v → v ≤ 16 → 2 ≤ p.length → p.length ≤ 40 →
      (v = 0 → p.length = 20 ∨ p.length = 32) →
        ((∃ s, encodeBech32 hrp v p = some s ∧ decodeBech32 s = some (hrp, v, p)) ↔ hrp ≠ "")) ∧
      ∀ s, decodeBech32 s = some (hrp, v, p) →
        ((0 ≤ v ∧ v ≤ 16 ∧ encodeBech32 hrp v p = some (lower s)) ↔
          ∀ c ∈ dataPart s, c ∈ bech32Charset) := by
  constructor
  · intro hhrp hv hv16 hp hp' hp0
    constructor
    · rintro ⟨s, -, hdecode⟩ rfl
      obtain ⟨data, hd⟩ := decodeBech32_eq_some.mp hdecode
      exact hd.named rfl
    · intro hne
      refine decode_encode hhrp (fun hnil => hne ?_) hv hv16 ⟨hp, hp'⟩ hp0
      rw [← String.ofList_toList (s := hrp), hnil]
  · intro s hdecode
    obtain ⟨data, hd⟩ := decodeBech32_eq_some.mp hdecode
    rw [hd.dataPart_eq]
    constructor
    · rintro ⟨-, -, hencode⟩
      exact hd.letters hencode
    · exact hd.encode

/-- A text in capitals. -/
theorem bech32_roundTrip_capitals :
    (∃ s, encodeBech32 "bc" 1 [0, 1] = some s ∧ decodeBech32 s = some ("bc", 1, [0, 1])) ∧
      encodeBech32 "bc" 1 [0, 1] = some (lower "BC1PQQQSQ9TXSP") :=
  ⟨((bech32_roundTrip "bc" 1 [0, 1]).1 (forall_of_all (by decide +kernel)) (by decide) (by decide)
      (by decide) (by decide) (by decide)).mpr (by decide),
    (((bech32_roundTrip "bc" 1 [0, 1]).2 "BC1PQQQSQ9TXSP" (by decide +kernel)).mpr
      (forall_of_all (by decide +kernel))).2.2⟩

/-- A character that is not in the alphabet stands for the version, and the version is `-1`. -/
theorem decodeBech32_outsideAlphabet :
    decodeBech32 "bc1bqqqsayje7e" = some ("bc", -1, [0, 1]) ∧
      ¬∀ (s hrp : String) (v : ℤ) (p : Bytes), decodeBech32 s = some (hrp, v, p) →
        0 ≤ v ∧ v ≤ 16 ∧ encodeBech32 hrp v p = some (lower s) := by
  have hdecode : decodeBech32 "bc1bqqqsayje7e" = some ("bc", -1, [0, 1]) := by decide +kernel
  refine ⟨hdecode, fun hclaim => ?_⟩
  have hversion := (hclaim _ _ _ _ hdecode).1
  omega

end Sthrip.Btc
