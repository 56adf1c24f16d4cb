import Mathlib.Data.Nat.Digits.Lemmas
import Mathlib.Tactic.Ring
import Mathlib.Data.Nat.Bitwise

set_option autoImplicit false

/-! # Numbers as lists of digits

A list of digits in a base, most significant first, and the number that it stands for. Lists of one
length stand for different numbers (`value_inj`). When the bits of a list are cut into groups of another
width and filled up with zeros (`Regrouped`), there is one list that results.
-/

namespace Digits

/-- The number with the given digits. -/
def value (b : ℕ) (ds : List ℕ) : ℕ := ds.foldl (fun n d => n * b + d) 0

/-- The last `n` digits of a number. -/
def digits (b : ℕ) : ℕ → ℕ → List ℕ
  | 0, _ => []
  | n + 1, m => digits b n (m / b) ++ [m % b]

variable {b : ℕ}

/-! ## The number of a list -/

@[simp] theorem value_nil : value b [] = 0 := rfl

theorem value_concat (ds : List ℕ) (d : ℕ) : value b (ds ++ [d]) = value b ds * b + d := by
  rw [value, List.foldl_append]
  rfl

theorem value_append (ds es : List ℕ) : value b (ds ++ es) = value b ds * b ^ es.length + value b es := by
  induction es using List.reverseRecOn with
  | nil => simp
  | append_singleton es e ih =>
      rw [← List.append_assoc, value_concat, ih, value_concat, List.length_append, List.length_singleton,
        pow_succ]
      ring

theorem value_cons (d : ℕ) (ds : List ℕ) : value b (d :: ds) = d * b ^ ds.length + value b ds := by
  rw [← List.singleton_append, value_append, ← List.nil_append [d], value_concat, value_nil, Nat.zero_mul,
    Nat.zero_add]

theorem value_lt {ds : List ℕ} (hds : ∀ d ∈ ds, d < b) : value b ds < b ^ ds.length := by
  induction ds with
  | nil => exact Nat.one_pos
  | cons d ds ih =>
      have hlow := ih fun e he => hds e (List.mem_cons_of_mem _ he)
      have hhigh : (d + 1) * b ^ ds.length ≤ b * b ^ ds.length :=
        Nat.mul_le_mul_right _ (hds d List.mem_cons_self)
      rw [value_cons, List.length_cons, pow_succ']
      rw [Nat.succ_mul] at hhigh
      omega

/-- Lists of one length stand for different numbers. -/
theorem value_inj {ds es : List ℕ} (hlen : ds.length = es.length) (hds : ∀ d ∈ ds, d < b)
    (hes : ∀ d ∈ es, d < b) (h : value b ds = value b es) : ds = es := by
  induction ds generalizing es with
  | nil => exact (List.length_eq_zero_iff.mp hlen.symm).symm
  | cons d ds ih =>
      cases es with
      | nil => cases hlen
      | cons e es =>
          have hlen : ds.length = es.length := Nat.succ.inj hlen
          have hd := value_lt fun x hx => hds x (List.mem_cons_of_mem _ hx)
          have he := value_lt fun x hx => hes x (List.mem_cons_of_mem _ hx)
          rw [value_cons, value_cons, hlen] at h
          rw [hlen] at hd
          -- the digit in front is the quotient by the place value, the other digits are the remainder
          have hpos : 0 < b ^ es.length := Nat.zero_lt_of_lt he
          have hmod := congrArg (· % b ^ es.length) h
          have hdiv := congrArg (· / b ^ es.length) h
          simp only [Nat.mul_add_mod', Nat.mod_eq_of_lt hd, Nat.mod_eq_of_lt he] at hmod
          simp only [Nat.mul_comm _ (b ^ es.length), Nat.mul_add_div hpos, Nat.div_eq_of_lt hd,
            Nat.div_eq_of_lt he, Nat.add_zero] at hdiv
          rw [hdiv, ih hlen (fun x hx => hds x (List.mem_cons_of_mem _ hx))
            (fun x hx => hes x (List.mem_cons_of_mem _ hx)) hmod]

/-! ## The digits of a number -/

@[simp] theorem length_digits (n m : ℕ) : (digits b n m).length = n := by
  induction n generalizing m with
  | zero => rfl
  | succ n ih => rw [digits, List.length_append, ih, List.length_singleton]

theorem digits_lt (hb : 0 < b) {n m d : ℕ} (hd : d ∈ digits b n m) : d < b := by
  induction n generalizing m with
  | zero => cases hd
  | succ n ih =>
      rcases List.mem_append.mp hd with hd | hd
      · exact ih hd
      · rw [List.mem_singleton.mp hd]
        exact Nat.mod_lt _ hb

theorem value_digits {n m : ℕ} (h : m < b ^ n) : value b (digits b n m) = m := by
  induction n generalizing m with
  | zero => exact (Nat.lt_one_iff.mp h).symm
  | succ n ih =>
      have hdiv : m / b < b ^ n := Nat.div_lt_of_lt_mul (by rwa [pow_succ'] at h)
      rw [digits, value_concat, ih hdiv, Nat.mul_comm, Nat.div_add_mod]

theorem digits_value {n : ℕ} {ds : List ℕ} (hlen : ds.length = n) (hds : ∀ d ∈ ds, d < b) :
    digits b n (value b ds) = ds := by
  subst hlen
  have hlt := value_lt hds
  have hd : ∀ d ∈ digits b ds.length (value b ds), d < b := by
    intro d hd
    cases ds with
    | nil => cases hd
    | cons e es => exact digits_lt (Nat.zero_lt_of_lt (hds e List.mem_cons_self)) hd
  exact value_inj (length_digits _ _) hd hds (value_digits hlt)

/-! ## Groups of bits -/

/-- The bits of `xs`, in groups of `a`, and then fewer than `b` zeros are those of `ys`, in groups
of `b`. -/
structure Regrouped (a b : ℕ) (xs ys : List ℕ) : Prop where
  left_lt : ∀ x ∈ xs, x < 2 ^ a
  right_lt : ∀ y ∈ ys, y < 2 ^ b
  bits : ∃ pad < b, b * ys.length = a * xs.length + pad ∧ value (2 ^ b) ys = value (2 ^ a) xs * 2 ^ pad

namespace Regrouped

variable {a : ℕ} {xs ys ys' : List ℕ}

/-- A multiple between two neighbouring multiples is the first of them. -/
theorem eq_of_mul_between {a m n p q : ℕ} (hp : p < a) (hq : q < a) (h : a * m + p = a * n + q) :
    m = n := by
  have hm := Nat.mul_add_div (Nat.zero_lt_of_lt hp) m p
  have hn := Nat.mul_add_div (Nat.zero_lt_of_lt hp) n q
  rw [Nat.div_eq_of_lt hp, Nat.add_zero] at hm
  rw [Nat.div_eq_of_lt hq, Nat.add_zero] at hn
  rw [← hm, ← hn, h]

theorem right_unique (h : Regrouped a b xs ys) (h' : Regrouped a b xs ys') : ys = ys' := by
  obtain ⟨pad, hpad, hlen, hvalue⟩ := h.bits
  obtain ⟨pad', hpad', hlen', hvalue'⟩ := h'.bits
  have hsame : ys.length = ys'.length := by
    refine eq_of_mul_between (a := b) hpad' hpad ?_
    omega
  have hpads : pad = pad' := by
    rw [hsame] at hlen
    omega
  refine value_inj hsame h.right_lt h'.right_lt ?_
  rw [hvalue, hvalue', hpads]

end Regrouped

end Digits

/-! ## Numbers in blocks of digits

A list of digits in the base `inner` is cut into blocks, and each block is written with a fixed number of
digits in the base `outer`, as many as its length asks for.
-/

namespace Digits

structure Blocks where
  inner : ℕ
  outer : ℕ
  /-- The length of a full block. -/
  width : ℕ
  width_pos : 0 < width
  /-- The length of a written block. -/
  size : ℕ → ℕ
  fits : ∀ k ≤ width, inner ^ k ≤ outer ^ size k

namespace Blocks

variable (B : Blocks)

def encodeBlock (ds : List ℕ) : List ℕ := digits B.outer (B.size ds.length) (value B.inner ds)

/-- Full blocks and then what is left. -/
def encode (ds : List ℕ) : List ℕ :=
  if ds.length < B.width then B.encodeBlock ds
  else B.encodeBlock (ds.take B.width) ++ encode (ds.drop B.width)
termination_by ds.length
decreasing_by
  have hpos := B.width_pos
  rw [List.length_drop]
  omega

variable {B}

theorem encode_of_lt {ds : List ℕ} (h : ds.length < B.width) : B.encode ds = B.encodeBlock ds := by
  rw [encode, if_pos h]

theorem encode_append {block : List ℕ} (h : block.length = B.width) (ds : List ℕ) :
    B.encode (block ++ ds) = B.encodeBlock block ++ B.encode ds := by
  have hlong : ¬ (block ++ ds).length < B.width := by
    rw [List.length_append]
    omega
  rw [encode, if_neg hlong, List.take_left' h, List.drop_left' h]

theorem length_encodeBlock (ds : List ℕ) : (B.encodeBlock ds).length = B.size ds.length :=
  length_digits _ _

/-- A written block has the number of the block. -/
theorem value_encodeBlock {ds : List ℕ} (hlen : ds.length ≤ B.width) (hds : ∀ d ∈ ds, d < B.inner) :
    value B.outer (B.encodeBlock ds) = value B.inner ds :=
  value_digits (lt_of_lt_of_le (value_lt hds) (B.fits _ hlen))

/-- What is written for the digits of a number, from a written block with that number. -/
theorem encodeBlock_digits {k : ℕ} {es : List ℕ} (hlen : es.length = B.size k)
    (hes : ∀ e ∈ es, e < B.outer) (hlt : value B.outer es < B.inner ^ k) :
    B.encodeBlock (digits B.inner k (value B.outer es)) = es := by
  rw [encodeBlock, length_digits, value_digits hlt, digits_value hlen hes]

end Blocks

end Digits

/-! # Checksums over exclusive or

A register reads a list of digits; between two of them it is shifted by one digit, and what leaves it is
folded back by a map that is linear in exclusive or (`Register`). After any list, exactly one word as long
as the register brings it to a given number (`remainder_eq_iff`).
-/

namespace Checksum

open Digits

/-- A shift of a register of `n` digits of `d` bits. -/
structure Register (d n : ℕ) (shift : ℕ → ℕ) : Prop where
  xor : ∀ a c, shift (a ^^^ c) = shift a ^^^ shift c
  lt : ∀ c, shift c < (2 ^ d) ^ n
  /-- Nothing leaves the register. -/
  small : ∀ c, c * 2 ^ d < (2 ^ d) ^ n → shift c = c * 2 ^ d

/-- The register after a list of digits. -/
def remainder (shift : ℕ → ℕ) (c : ℕ) (ds : List ℕ) : ℕ := ds.foldl (fun c v => shift c ^^^ v) c

theorem remainder_append (shift : ℕ → ℕ) (c : ℕ) (ds es : List ℕ) :
    remainder shift c (ds ++ es) = remainder shift (remainder shift c ds) es := List.foldl_append

/-- A digit below the others. -/
theorem mul_xor {d v : ℕ} (hv : v < 2 ^ d) (c : ℕ) : c * 2 ^ d ^^^ v = c * 2 ^ d + v := by
  refine Nat.eq_of_testBit_eq fun i => ?_
  rw [Nat.mul_comm, Nat.testBit_xor, Nat.testBit_two_pow_mul, Nat.testBit_two_pow_mul_add _ hv]
  by_cases hi : i < d
  · simp [hi, Nat.not_le.mpr hi]
  · have hbit : v.testBit i = false :=
      Nat.testBit_eq_false_of_lt (hv.trans_le (Nat.pow_le_pow_right (by decide) (Nat.le_of_not_lt hi)))
    simp [hi, Nat.le_of_not_lt hi, hbit]

namespace Register

variable {d n : ℕ} {shift : ℕ → ℕ}

/-- What is in the register and what is read do not meet. -/
theorem remainder_xor (h : Register d n shift) (a c : ℕ) (ds : List ℕ) :
    remainder shift (a ^^^ c) ds =
      remainder shift a (List.replicate ds.length 0) ^^^ remainder shift c ds := by
  induction ds generalizing a c with
  | nil => rfl
  | cons v ds ih =>
      have hstep : shift (a ^^^ c) ^^^ v = (shift a ^^^ 0) ^^^ (shift c ^^^ v) := by
        rw [h.xor, Nat.xor_zero, Nat.xor_assoc]
      calc remainder shift (a ^^^ c) (v :: ds)
          = remainder shift ((shift a ^^^ 0) ^^^ (shift c ^^^ v)) ds := by
            rw [← hstep]
            rfl
        _ = _ := ih (shift a ^^^ 0) (shift c ^^^ v)

/-- A word no longer than the register is in it afterwards. -/
theorem remainder_zero (h : Register d n shift) {ds : List ℕ} (hlen : ds.length ≤ n)
    (hds : ∀ v ∈ ds, v < 2 ^ d) : remainder shift 0 ds = value (2 ^ d) ds := by
  induction ds using List.reverseRecOn with
  | nil => rfl
  | append_singleton ds v ih =>
      rw [List.length_append, List.length_singleton] at hlen
      have hfront : ∀ w ∈ ds, w < 2 ^ d := fun w hw => hds w (List.mem_append_left _ hw)
      have hv : v < 2 ^ d := hds v (List.mem_append_right _ List.mem_cons_self)
      have hfit : value (2 ^ d) ds * 2 ^ d < (2 ^ d) ^ n := by
        calc value (2 ^ d) ds * 2 ^ d < (2 ^ d) ^ ds.length * 2 ^ d :=
              Nat.mul_lt_mul_of_pos_right (value_lt hfront) (Nat.two_pow_pos d)
          _ = (2 ^ d) ^ (ds.length + 1) := (pow_succ _ _).symm
          _ ≤ (2 ^ d) ^ n := Nat.pow_le_pow_right (Nat.two_pow_pos d) hlen
      rw [remainder_append, ih (Nat.le_of_succ_le hlen) hfront, value_concat]
      show shift (value (2 ^ d) ds) ^^^ v = _
      rw [h.small _ hfit, mul_xor hv]

theorem remainder_lt (h : Register d n shift) {c : ℕ} (hc : c < (2 ^ d) ^ n) {ds : List ℕ}
    (hn : 0 < n) (hds : ∀ v ∈ ds, v < 2 ^ d) : remainder shift c ds < (2 ^ d) ^ n := by
  induction ds generalizing c with
  | nil => exact hc
  | cons v ds ih =>
      have hv : v < (2 ^ d) ^ n :=
        (hds v List.mem_cons_self).trans_le (Nat.le_self_pow hn.ne' _)
      have hpow : (2 ^ d) ^ n = 2 ^ (d * n) := (pow_mul 2 d n).symm
      refine ih ?_ fun w hw => hds w (List.mem_cons_of_mem _ hw)
      have hshift := h.lt c
      rw [hpow] at hv hshift ⊢
      exact Nat.xor_lt_two_pow hshift hv

/-- **One word brings the register to a given number**: the digits of what is left after as many zeros,
with the number taken away. -/
theorem remainder_eq_iff (h : Register d n shift) {c k : ℕ} (hc : c < (2 ^ d) ^ n) (hk : k < (2 ^ d) ^ n)
    {ds : List ℕ} (hn : 0 < n) (hlen : ds.length = n) (hds : ∀ v ∈ ds, v < 2 ^ d) :
    remainder shift c ds = k ↔
      ds = digits (2 ^ d) n (remainder shift c (List.replicate n 0) ^^^ k) := by
  have hzeros : remainder shift c (List.replicate n 0) < (2 ^ d) ^ n :=
    h.remainder_lt hc hn fun v hv => by
      rw [List.eq_of_mem_replicate hv]
      exact Nat.two_pow_pos d
  have hsplit : remainder shift c ds = remainder shift c (List.replicate n 0) ^^^ value (2 ^ d) ds := by
    have hxor := h.remainder_xor c 0 ds
    rwa [Nat.xor_zero, hlen, h.remainder_zero hlen.le hds] at hxor
  have hword : remainder shift c (List.replicate n 0) ^^^ k < (2 ^ d) ^ n := by
    rw [← pow_mul] at hzeros hk ⊢
    exact Nat.xor_lt_two_pow hzeros hk
  constructor
  · intro hrem
    rw [← hrem, hsplit, ← Nat.xor_assoc, Nat.xor_self, Nat.zero_xor, digits_value hlen hds]
  · intro hword'
    have hvalue := congrArg (value (2 ^ d)) hword'
    rw [value_digits hword] at hvalue
    rw [hsplit, hvalue, ← Nat.xor_assoc, Nat.xor_self, Nat.zero_xor]

end Register

end Checksum
