import Mathlib.Data.List.TakeWhile
import Sthrip.Python.Values
import Sthrip.Txn.Numeric

set_option autoImplicit false

/-! # Texts of decimals and of identifiers

`str` of a `Decimal` and of a `UUID`, and what is read back from these texts. Exponents are written out,
and an identifier may have more than the 32 digits of a `UUID`.
-/

namespace Python

/-! ## Digits -/

/-- The digits of `n`, filled up with zeros to `len` of them. -/
def padDigits (base len n : ℕ) : List Char :=
  List.replicate (len - (Nat.toDigits base n).length) '0' ++ Nat.toDigits base n

theorem le_length_padDigits (base len n : ℕ) : len ≤ (padDigits base len n).length := by
  rw [padDigits, List.length_append, List.length_replicate]
  omega

theorem digitValue_zero : digitValue '0' = some 0 := by decide

/-- Leading zeros. -/
theorem readFrom_padDigits {base : ℕ} (hbase : 1 < base ∧ base ≤ 16) (len n : ℕ) :
    readFrom base 0 (padDigits base len n) = some n := by
  have hzeros : ∀ k, readFrom base 0 (List.replicate k '0') = some 0 := by
    intro k
    induction k with
    | zero => rfl
    | succ k ih =>
        rw [List.replicate_succ, readFrom, digitValue_zero]
        show (if 0 < base then readFrom base (base * 0 + 0) _ else none) = _
        rw [if_pos (by omega), Nat.mul_zero]
        exact ih
  rw [padDigits, readFrom_append, hzeros]
  exact readFrom_toDigits hbase n

/-- What is no digit of the base is not there. -/
theorem not_mem_padDigits {base : ℕ} (hbase : 1 < base ∧ base ≤ 16) (len n : ℕ) {c : Char}
    (hc : digitValue c = none) : c ∉ padDigits base len n := by
  -- the digits are read to the end
  have hread : ∀ (l : List Char) (m : ℕ), (readFrom base m l).isSome → c ∉ l := by
    intro l
    induction l with
    | nil => exact fun _ _ hmem => by cases hmem
    | cons d l ih =>
        intro m hsome hmem
        rw [readFrom] at hsome
        cases hd : digitValue d with
        | none =>
            rw [hd] at hsome
            cases hsome
        | some v =>
            rw [hd] at hsome
            simp only at hsome
            split at hsome
            · rcases List.mem_cons.mp hmem with rfl | hmem
              · rw [hc] at hd
                cases hd
              · exact ih _ hsome hmem
            · cases hsome
  exact hread _ 0 (by rw [readFrom_padDigits hbase]; rfl)

/-! ## Decimals -/

/-- The number of digits after the point. -/
def digitsAfter (x : ℚ) : ℕ := (List.range (x.den.log2 + 1)).findIdx fun n => 10 ^ n % x.den = 0

/-- `m` with its last `n` digits after the point. -/
def pointed (n m : ℕ) : List Char :=
  let digits := padDigits 10 (n + 1) m
  let whole := digits.take (digits.length - n)
  if n = 0 then whole else whole ++ '.' :: digits.drop (digits.length - n)

/-- `str(x)` -/
def strDecimal (x : ℚ) : String :=
  let text := pointed (digitsAfter x) (x.num.natAbs * 10 ^ digitsAfter x / x.den)
  String.ofList (if x < 0 then '-' :: text else text)

/-- A decimal without a sign. -/
def readDecimal (l : List Char) : Option ℚ :=
  let whole := l.takeWhile fun c => c ≠ '.'
  let fraction := (l.dropWhile fun c => c ≠ '.').drop 1
  if whole ++ fraction = [] then none
  else (readFrom 10 0 (whole ++ fraction)).map fun n : ℕ => (n : ℚ) / 10 ^ fraction.length

/-- `Decimal(s)` -/
def decimal (s : String) : Option ℚ :=
  match s.toList with
  | '-' :: l => (readDecimal l).map fun x => -x
  | l => readDecimal l

theorem readDecimal_pointed (n m : ℕ) : readDecimal (pointed n m) = some ((m : ℚ) / 10 ^ n) := by
  set digits := padDigits 10 (n + 1) m with hdigits
  have hread : readFrom 10 0 digits = some m := readFrom_padDigits (by omega) (n + 1) m
  have hlength : n + 1 ≤ digits.length := le_length_padDigits 10 (n + 1) m
  have hne : digits ≠ [] := fun h => by rw [h] at hlength; simp at hlength
  have hpoint : ∀ c ∈ digits, decide (c ≠ '.') = true := by
    intro c hc
    refine decide_eq_true fun h => ?_
    subst h
    exact not_mem_padDigits (by omega) (n + 1) m (by decide) hc
  have hwhole : ∀ c ∈ digits.take (digits.length - n), decide (c ≠ '.') = true :=
    fun c hc => hpoint c (List.mem_of_mem_take hc)
  rw [pointed, ← hdigits]
  by_cases hn : n = 0
  · subst hn
    simp only [if_true, Nat.sub_zero, List.take_length]
    rw [readDecimal, List.takeWhile_eq_self_iff.mpr hpoint, List.dropWhile_eq_nil_iff.mpr hpoint]
    simp only [List.drop_nil, List.append_nil, if_neg hne, hread]
    rfl
  · have htake : (digits.take (digits.length - n) ++ '.' :: digits.drop (digits.length - n)).takeWhile
          (fun c => decide (c ≠ '.')) = digits.take (digits.length - n) := by
      rw [List.takeWhile_append_of_pos hwhole, List.takeWhile_cons_of_neg (by simp), List.append_nil]
    have hdrop : (digits.take (digits.length - n) ++ '.' :: digits.drop (digits.length - n)).dropWhile
          (fun c => decide (c ≠ '.')) = '.' :: digits.drop (digits.length - n) := by
      rw [List.dropWhile_append_of_pos hwhole, List.dropWhile_cons_of_neg (by simp)]
    have hfraction : (digits.drop (digits.length - n)).length = n := by
      rw [List.length_drop]
      omega
    simp only [if_neg hn]
    simp only [readDecimal, htake, hdrop, List.drop_succ_cons, List.drop_zero, List.take_append_drop,
      if_neg hne, hread, hfraction]
    rfl

theorem mem_pointed {n m : ℕ} {c : Char} (h : c ∈ pointed n m) :
    c = '.' ∨ c ∈ padDigits 10 (n + 1) m := by
  simp only [pointed] at h
  split at h
  · exact Or.inr (List.mem_of_mem_take h)
  · rcases List.mem_append.mp h with hwhole | hrest
    · exact Or.inr (List.mem_of_mem_take hwhole)
    · rcases List.mem_cons.mp hrest with hpoint | hfraction
      · exact Or.inl hpoint
      · exact Or.inr (List.mem_of_mem_drop hfraction)

/-- A divisor of a power divides the power to its own logarithm. -/
theorem dvd_pow_log2 {b s : ℕ} (d : ℕ) (hd : d ∣ b ^ s) (h₀ : 0 < d) : d ∣ b ^ d.log2 := by
  induction d using Nat.strong_induction_on with
  | _ d ih =>
      by_cases hone : d = 1
      · rw [hone]
        exact one_dvd _
      · -- a common divisor of `d` and `b` is split off
        have hgcd : d.gcd b ≠ 1 := by
          intro hcoprime
          have hdvd : d ∣ 1 := by
            have := Nat.Coprime.dvd_of_dvd_mul_left (Nat.Coprime.pow_right s hcoprime)
              (show d ∣ b ^ s * 1 by rwa [mul_one])
            exact this
          exact hone (Nat.dvd_one.mp hdvd)
        obtain ⟨e, he⟩ := Nat.gcd_dvd_left d b
        have hgpos : 0 < d.gcd b := Nat.gcd_pos_of_pos_left b h₀
        have hepos : 0 < e := Nat.pos_of_ne_zero fun h => by rw [h, mul_zero] at he; omega
        have htwo : 2 * e ≤ d := by
          calc
            2 * e ≤ d.gcd b * e := Nat.mul_le_mul_right e (by omega)
            _ = d := he.symm
        have hlt : e < d := by omega
        have hlog : e.log2 + 1 ≤ d.log2 := by
          rw [Nat.le_log2 h₀.ne', pow_succ]
          have := Nat.log2_self_le hepos.ne'
          omega
        have hedvd : e ∣ b ^ s := (Dvd.intro_left (d.gcd b) he.symm).trans hd
        calc
          d = d.gcd b * e := he
          _ ∣ b * b ^ e.log2 := mul_dvd_mul (Nat.gcd_dvd_right d b) (ih e hlt hedvd hepos)
          _ = b ^ (e.log2 + 1) := (pow_succ' b e.log2).symm
          _ ∣ b ^ d.log2 := pow_dvd_pow b hlog

theorem den_dvd_of_mem {s : ℕ} {x : ℚ} (h : x ∈ Txn.decimals s) : x.den ∣ 10 ^ s := by
  obtain ⟨z, rfl⟩ := Txn.mem_decimals.mp h
  have hden : ((z : ℚ) / ((10 ^ s : ℕ) : ℤ)).den ∣ 10 ^ s := by
    have := Rat.den_dvd z ((10 ^ s : ℕ) : ℤ)
    exact_mod_cast this
  push_cast at hden
  exact hden

theorem den_dvd_digitsAfter {s : ℕ} {x : ℚ} (h : x ∈ Txn.decimals s) : x.den ∣ 10 ^ digitsAfter x := by
  have hlog : x.den ∣ 10 ^ x.den.log2 := dvd_pow_log2 x.den (den_dvd_of_mem h) x.pos
  have hlt : digitsAfter x < (List.range (x.den.log2 + 1)).length := by
    refine List.findIdx_lt_length_of_exists ⟨x.den.log2, List.mem_range.mpr (by omega), ?_⟩
    exact decide_eq_true (Nat.mod_eq_zero_of_dvd hlog)
  have hfound := List.findIdx_getElem (w := hlt)
  have hrange : (List.range (x.den.log2 + 1))[digitsAfter x] = digitsAfter x := List.getElem_range hlt
  have hmod : 10 ^ (List.range (x.den.log2 + 1))[digitsAfter x] % x.den = 0 := of_decide_eq_true hfound
  rw [hrange] at hmod
  exact Nat.dvd_of_mod_eq_zero hmod

/-- **A decimal is read back from its text.** -/
theorem decimal_str {s : ℕ} {x : ℚ} (h : x ∈ Txn.decimals s) : decimal (strDecimal x) = some x := by
  set n := digitsAfter x with hn
  obtain ⟨c, hc⟩ : x.den ∣ 10 ^ n := den_dvd_digitsAfter h
  have hden : (x.den : ℚ) ≠ 0 := by exact_mod_cast x.den_nz
  have hpow : (10 : ℚ) ^ n ≠ 0 := by positivity
  -- the digits are those of the absolute value
  have habs : ((x.num.natAbs * 10 ^ n / x.den : ℕ) : ℚ) / 10 ^ n = |x| := by
    have hquot : x.num.natAbs * 10 ^ n / x.den = x.num.natAbs * c := by
      rw [hc, Nat.mul_left_comm]
      exact Nat.mul_div_cancel_left _ x.pos
    have hcast : (10 : ℚ) ^ n = x.den * c := by exact_mod_cast hc
    have hnum : |x| = (x.num.natAbs : ℚ) / x.den := by
      calc
        |x| = |(x.num : ℚ) / x.den| := by rw [Rat.num_div_den]
        _ = |(x.num : ℚ)| / |(x.den : ℚ)| := abs_div _ _
        _ = (x.num.natAbs : ℚ) / x.den := by rw [Nat.abs_cast, Nat.cast_natAbs, Int.cast_abs]
    have hc₀ : (c : ℚ) ≠ 0 := by
      intro hzero
      rw [hcast, hzero, mul_zero] at hpow
      exact hpow rfl
    rw [hquot, hcast, hnum]
    push_cast
    field_simp
  have hread := readDecimal_pointed n (x.num.natAbs * 10 ^ n / x.den)
  rw [habs] at hread
  rw [decimal, strDecimal, ← hn, String.toList_ofList]
  by_cases hneg : x < 0
  · simp only [if_pos hneg, hread, Option.map_some, abs_of_neg hneg, neg_neg]
  · simp only [if_neg hneg]
    split
    · next l heq =>
        -- no digit is a sign
        have hdash : '-' ∈ pointed n (x.num.natAbs * 10 ^ n / x.den) := by
          rw [heq]
          exact List.mem_cons_self ..
        rcases mem_pointed hdash with hpoint | hdigit
        · exact absurd hpoint (by decide)
        · exact absurd hdigit (not_mem_padDigits (by omega) (n + 1) _ (by decide))
    · rw [hread, abs_of_nonneg (not_lt.mp hneg)]

/-! ## Identifiers -/

/-- `str(id)` -/
def strUuid (id : ℕ) : String :=
  let digits := padDigits 16 32 id
  String.ofList (digits.take 8 ++ '-' :: (digits.drop 8).take 4 ++ '-' :: (digits.drop 12).take 4
    ++ '-' :: (digits.drop 16).take 4 ++ '-' :: digits.drop 20)

/-- `UUID(s)` -/
def uuid (s : String) : Option ℕ := readFrom 16 0 (s.toList.filter fun c => c ≠ '-')

/-- **An identifier is read back from its text.** -/
theorem uuid_str (id : ℕ) : uuid (strUuid id) = some id := by
  set digits := padDigits 16 32 id with hdigits
  have hdash : ∀ l : List Char, (∀ c ∈ l, c ∈ digits) → l.filter (fun c => decide (c ≠ '-')) = l := by
    intro l hl
    refine List.filter_eq_self.mpr fun c hc => decide_eq_true fun h => ?_
    subst h
    exact not_mem_padDigits (by omega) 32 id (by decide) (hl _ hc)
  have hpieces : ∀ i n : ℕ, ((digits.drop i).take n).filter (fun c => decide (c ≠ '-'))
      = (digits.drop i).take n :=
    fun i n => hdash _ fun c hc => List.mem_of_mem_drop (List.mem_of_mem_take hc)
  have hfirst : (digits.take 8).filter (fun c => decide (c ≠ '-')) = digits.take 8 :=
    hdash _ fun c hc => List.mem_of_mem_take hc
  have hlast : (digits.drop 20).filter (fun c => decide (c ≠ '-')) = digits.drop 20 :=
    hdash _ fun c hc => List.mem_of_mem_drop hc
  have hskip : ∀ l : List Char, ('-' :: l).filter (fun c => decide (c ≠ '-'))
      = l.filter fun c => decide (c ≠ '-') := fun l => List.filter_cons_of_neg (by decide)
  have hjoin : digits.take 8 ++ (digits.drop 8).take 4 ++ (digits.drop 12).take 4
      ++ (digits.drop 16).take 4 ++ digits.drop 20 = digits := by
    have hstep : ∀ i n : ℕ, (digits.drop i).take n ++ digits.drop (i + n) = digits.drop i := by
      intro i n
      rw [← List.drop_drop, List.take_append_drop]
    rw [List.append_assoc, hstep 16 4, List.append_assoc, hstep 12 4, List.append_assoc, hstep 8 4,
      List.take_append_drop]
  rw [uuid, strUuid, ← hdigits, String.toList_ofList]
  simp only [List.filter_append, hskip, hpieces, hfirst, hlast, hjoin]
  exact readFrom_padDigits (by omega) 32 id

end Python

/-! ## File name patterns

`fnmatch.fnmatch` on a system whose file names keep their case.
-/

namespace Python

/-- What a part of a pattern matches. -/
inductive Piece where
  | star
  | any
  | lit (c : Char)
  /-- What stands between the brackets. -/
  | oneOf (stuff : List Char)

/-- The bracket that was opened here is closed: the first character does not count, nor the one after a
leading `!`. -/
def closes : List Char → Bool
  | '!' :: _ :: p => ']' ∈ p
  | '!' :: [] => false
  | _ :: p => ']' ∈ p
  | [] => false

/-- The parts of a pattern, and what was read of an open bracket. -/
def pieces : Option (List Char) → List Char → List Piece
  | none, [] => []
  | none, c :: p =>
      if c = '*' then .star :: pieces none p
      else if c = '?' then .any :: pieces none p
      else if c = '[' ∧ closes p then pieces (some []) p
      else .lit c :: pieces none p
  | some _, [] => []
  | some stuff, c :: p =>
      if c = ']' ∧ stuff ≠ [] ∧ stuff ≠ ['!'] then .oneOf stuff :: pieces none p
      else pieces (some (stuff ++ [c])) p

/-- The ranges between brackets; a character is a range of its own. -/
def ranges : List Char → List (Char × Char)
  | a :: '-' :: b :: rest => (a, b) :: ranges rest
  | a :: rest => (a, a) :: ranges rest
  | [] => []

def inRanges (stuff : List Char) (c : Char) : Bool := (ranges stuff).any fun r => r.1 ≤ c ∧ c ≤ r.2

def Piece.accepts (c : Char) : Piece → Bool
  | .star => true
  | .any => true
  | .lit c' => c = c'
  | .oneOf stuff =>
      if stuff.head? = some '!' then !inRanges stuff.tail c else inRanges stuff c

/-- What is left of a name when some of its start is left out. -/
def suffixes : List Char → List (List Char)
  | [] => [[]]
  | c :: name => (c :: name) :: suffixes name

def matchPieces : List Piece → List Char → Bool
  | [], name => name.isEmpty
  | .star :: rest, name => (suffixes name).any fun suffix => matchPieces rest suffix
  | piece :: rest, name =>
      match name with
      | [] => false
      | c :: name => piece.accepts c && matchPieces rest name

example : matchPieces (pieces none "res*-[!0-9]?".toList) "research-ab".toList = true := by decide

/-- `fnmatch.fnmatch(name, pat)` -/
def fnmatch (name pat : String) : Bool := matchPieces (pieces none pat.toList) name.toList

end Python
