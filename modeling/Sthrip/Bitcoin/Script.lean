import Mathlib.Data.Nat.Digits.Lemmas
import Mathlib.Tactic.Linarith
import Mathlib.Tactic.NormNum
import Mathlib.Tactic.Ring

set_option autoImplicit false

/-! # Bitcoin Script

The language of the spending conditions of Bitcoin, as far as hash locks and time locks need it. A
script is a byte string. It is read into instructions (`decode`), which run on a stack of byte
strings (`run`). A witness script is spent by a stack that leaves exactly one true value
(`verifyWitnessScript`).

The hash function and the check of a signature are those of the `Spend` in whose name the script
runs, as are the lock time of the transaction and the sequence number of its input.
-/

namespace Bitcoin

abbrev Bytes := List UInt8

/-! ## Numbers as bytes -/

/-- The number with the given bytes, least significant first. -/
def ofLE : Bytes → ℕ
  | [] => 0
  | b :: bs => b.toNat + 256 * ofLE bs

/-- The `w` lowest bytes of a number, least significant first. -/
def toLE : ℕ → ℕ → Bytes
  | 0, _ => []
  | w + 1, n => UInt8.ofNat (n % 256) :: toLE w (n / 256)

/-- The bytes of a number without leading zeros, least significant first. -/
def magnitude (n : ℕ) : Bytes := (Nat.digits 256 n).map UInt8.ofNat

@[simp] theorem length_toLE (w n : ℕ) : (toLE w n).length = w := by
  induction w generalizing n with
  | zero => rfl
  | succ w ih => rw [toLE, List.length_cons, ih]

theorem ofLE_toLE {w n : ℕ} (h : n < 256 ^ w) : ofLE (toLE w n) = n := by
  induction w generalizing n with
  | zero =>
      rw [pow_zero] at h
      simp only [toLE, ofLE]
      omega
  | succ w ih =>
      have hdiv : n / 256 < 256 ^ w := by
        rw [Nat.div_lt_iff_lt_mul (by norm_num), ← pow_succ]
        exact h
      rw [toLE, ofLE, ih hdiv, UInt8.toNat_ofNat', Nat.mod_mod_of_dvd _ (by norm_num)]
      omega

theorem ofLE_append (a b : Bytes) : ofLE (a ++ b) = ofLE a + 256 ^ a.length * ofLE b := by
  induction a with
  | nil => simp [ofLE]
  | cons x a ih =>
      rw [List.cons_append, ofLE, ofLE, ih, List.length_cons, pow_succ]
      ring

theorem ofLE_map_ofNat {l : List ℕ} (h : ∀ d ∈ l, d < 256) :
    ofLE (l.map UInt8.ofNat) = Nat.ofDigits 256 l := by
  induction l with
  | nil => rfl
  | cons d l ih =>
      have hd : d < 256 := h d (List.mem_cons_self ..)
      rw [List.map_cons, ofLE, Nat.ofDigits_cons, ih fun x hx => h x (List.mem_cons_of_mem d hx),
        UInt8.toNat_ofNat', Nat.mod_eq_of_lt hd]

@[simp] theorem ofLE_magnitude (n : ℕ) : ofLE (magnitude n) = n := by
  rw [magnitude, ofLE_map_ofNat fun d hd => Nat.digits_lt_base (by norm_num) hd,
    Nat.ofDigits_digits]

theorem magnitude_ne_nil {n : ℕ} (h : n ≠ 0) : magnitude n ≠ [] := by
  rw [magnitude, Ne, List.map_eq_nil_iff]
  exact Nat.digits_ne_nil_iff_ne_zero.mpr h

theorem length_magnitude_le {n w : ℕ} (h : n < 256 ^ w) : (magnitude n).length ≤ w := by
  rw [magnitude, List.length_map]
  exact (Nat.digits_length_le_iff (by norm_num) n).mpr h

/-- A number on the stack: sign and magnitude, of at most `maxSize` bytes. -/
def scriptNum (maxSize : ℕ) (b : Bytes) : Option ℤ :=
  if maxSize < b.length then none
  else match b.getLast? with
    | none => some 0
    | some last =>
        if last.toNat < 128 then some (ofLE b)
        else some (-(ofLE b - 128 * 256 ^ (b.length - 1)))

/-- The last byte of a number holds more than the sign, unless the byte before it has no room for that. -/
def MinimalNum (b : Bytes) : Prop :=
  match b.reverse with
  | [] => True
  | [last] => last.toNat % 128 ≠ 0
  | last :: previous :: _ => last.toNat % 128 ≠ 0 ∨ 128 ≤ previous.toNat

/-- Is it true? Zero is false, with either sign. -/
def castToBool (b : Bytes) : Bool :=
  b.dropLast.any (· ≠ 0) || b.getLast?.any fun last => last ≠ 0 ∧ last ≠ 128

/-! ## Reading a script -/

inductive Instr where
  | push (data : Bytes)
  | op (code : UInt8)
  deriving DecidableEq

abbrev OP_IF : UInt8 := 0x63
abbrev OP_NOTIF : UInt8 := 0x64
abbrev OP_ELSE : UInt8 := 0x67
abbrev OP_ENDIF : UInt8 := 0x68
abbrev OP_DROP : UInt8 := 0x75
abbrev OP_EQUAL : UInt8 := 0x87
abbrev OP_SHA256 : UInt8 := 0xa8
abbrev OP_CHECKSIG : UInt8 := 0xac
abbrev OP_CHECKLOCKTIMEVERIFY : UInt8 := 0xb1

def readPush (n : ℕ) (s : Bytes) : Option (Instr × Bytes) :=
  if n ≤ s.length then some (.push (s.take n), s.drop n) else none

/-- A push whose length is in the next `w` bytes. -/
def readPushData (w : ℕ) (s : Bytes) : Option (Instr × Bytes) :=
  if w ≤ s.length then readPush (ofLE (s.take w)) (s.drop w) else none

/-- The next instruction, and what comes after it. -/
def next : Bytes → Option (Instr × Bytes)
  | [] => none
  | c :: s =>
      if c.toNat < 0x4c then readPush c.toNat s
      else if c = 0x4c then readPushData 1 s
      else if c = 0x4d then readPushData 2 s
      else if c = 0x4e then readPushData 4 s
      else some (.op c, s)

theorem next_pushData1 (s : Bytes) : next (0x4c :: s) = readPushData 1 s := rfl
theorem next_pushData2 (s : Bytes) : next (0x4d :: s) = readPushData 2 s := rfl
theorem next_pushData4 (s : Bytes) : next (0x4e :: s) = readPushData 4 s := rfl

theorem readPush_length {n : ℕ} {s rest : Bytes} {i : Instr} (h : readPush n s = some (i, rest)) :
    rest.length ≤ s.length := by
  unfold readPush at h
  split at h
  · simp only [Option.some.injEq, Prod.mk.injEq] at h
    rw [← h.2, List.length_drop]
    omega
  · cases h

theorem readPushData_length {w : ℕ} {s rest : Bytes} {i : Instr}
    (h : readPushData w s = some (i, rest)) : rest.length ≤ s.length := by
  unfold readPushData at h
  split at h
  · have := readPush_length h
    rw [List.length_drop] at this
    omega
  · cases h

theorem next_length {s rest : Bytes} {i : Instr} (h : next s = some (i, rest)) :
    rest.length < s.length := by
  cases s with
  | nil => cases h
  | cons c s =>
      have hle : rest.length ≤ s.length := by
        rw [next] at h
        split at h
        · exact readPush_length h
        · split at h
          · exact readPushData_length h
          · split at h
            · exact readPushData_length h
            · split at h
              · exact readPushData_length h
              · simp only [Option.some.injEq, Prod.mk.injEq] at h
                rw [h.2]
      rw [List.length_cons]
      omega

/-- The instructions of a script. -/
def decode (s : Bytes) : Option (List Instr) :=
  if s = [] then some []
  else
    match _hn : next s with
    | none => none
    | some (i, rest) => (decode rest).map (i :: ·)
termination_by s.length
decreasing_by exact next_length _hn

@[simp] theorem decode_nil : decode [] = some [] := by
  rw [decode, if_pos rfl]

theorem decode_of_next {s rest : Bytes} {i : Instr} (h : next s = some (i, rest)) :
    decode s = (decode rest).map (i :: ·) := by
  have hne : s ≠ [] := by
    rintro rfl
    cases h
  rw [decode, if_neg hne]
  split
  · next h' =>
      rw [h] at h'
      cases h'
  · next i' rest' h' =>
      rw [h, Option.some.injEq, Prod.mk.injEq] at h'
      rw [h'.1, h'.2]

/-- An opcode that is not a push. -/
theorem decode_op {c : UInt8} (hc : 0x4e < c.toNat) (s : Bytes) :
    decode (c :: s) = (decode s).map (.op c :: ·) := by
  refine decode_of_next ?_
  have h76 : ¬c.toNat < 0x4c := by omega
  have hne : ∀ d : UInt8, d.toNat ≤ 0x4e → c ≠ d := by
    rintro d hd rfl
    omega
  rw [next, if_neg h76, if_neg (hne 0x4c (by decide)), if_neg (hne 0x4d (by decide)),
    if_neg (hne 0x4e (by decide))]

theorem readPush_append (data s : Bytes) : readPush data.length (data ++ s) = some (.push data, s) := by
  rw [readPush, if_pos (by rw [List.length_append]; omega), List.take_left, List.drop_left]

theorem readPushData_append {w : ℕ} (data s : Bytes) (h : data.length < 256 ^ w) :
    readPushData w (toLE w data.length ++ (data ++ s)) = some (.push data, s) := by
  have htake : (toLE w data.length ++ (data ++ s)).take w = toLE w data.length := by
    rw [List.take_append_of_le_length (length_toLE ..).ge, List.take_of_length_le (length_toLE ..).le]
  have hdrop : (toLE w data.length ++ (data ++ s)).drop w = data ++ s := by
    rw [List.drop_append_of_le_length (length_toLE ..).ge, List.drop_of_length_le (length_toLE ..).le,
      List.nil_append]
  rw [readPushData, if_pos (by rw [List.length_append, length_toLE]; omega), htake, hdrop, ofLE_toLE h,
    readPush_append]

/-! ## Running a script -/

/-- What a script can ask about the transaction that spends its output. -/
structure Spend where
  sha256 : Bytes → Bytes
  /-- Is the first a signature of the transaction by the second? -/
  checkSig : Bytes → Bytes → Bool
  lockTime : ℕ
  sequence : ℕ

/-- Lock times from here on are times, the others are heights. -/
def lockTimeThreshold : ℤ := 500000000

/-- The lock time of the transaction has reached `n`: both are heights or both are times. -/
def Spend.Reached (t : Spend) (n : ℤ) : Prop :=
  0 ≤ n ∧ (n < lockTimeThreshold ↔ (t.lockTime : ℤ) < lockTimeThreshold) ∧ n ≤ t.lockTime

instance (t : Spend) (n : ℤ) : Decidable (t.Reached n) :=
  inferInstanceAs (Decidable (_ ∧ _ ∧ _))

/-- Does the transaction respect the lock time on the stack? An input of the last sequence number
does not look at the lock time. -/
def Spend.lockPassed (t : Spend) (x : Bytes) : Bool :=
  (scriptNum 5 x).any fun n => t.Reached n ∧ t.sequence ≠ 0xffffffff

/-- The stack, its top first, and for each open `OP_IF` whether its branch runs, innermost first. -/
structure State where
  stack : List Bytes
  conds : List Bool

def ofBool (b : Bool) : Bytes := if b then [1] else []

@[simp] theorem castToBool_ofBool (b : Bool) : castToBool (ofBool b) = b := by
  cases b <;> rfl

/-- An opcode that runs. -/
def exec (t : Spend) (c : UInt8) (s : State) : Option State :=
  match c, s.stack with
  | 0x63, x :: st => some ⟨st, castToBool x :: s.conds⟩
  | 0x64, x :: st => some ⟨st, (!castToBool x) :: s.conds⟩
  | 0x75, _ :: st => some { s with stack := st }
  | 0x76, x :: st => some { s with stack := x :: x :: st }
  | 0x87, x :: y :: st => some { s with stack := ofBool (x = y) :: st }
  | 0x88, x :: y :: st => if x = y then some { s with stack := st } else none
  | 0xa8, x :: st => some { s with stack := t.sha256 x :: st }
  | 0xac, key :: sig :: st => some { s with stack := ofBool (t.checkSig sig key) :: st }
  | 0xb1, x :: st => if t.lockPassed x then some { s with stack := x :: st } else none
  | _, _ => none

/-- One instruction. The opcodes of a branch that does not run only open and close branches. -/
def step (t : Spend) (i : Instr) (s : State) : Option State :=
  match i with
  | .push data =>
      if 520 < data.length then none
      else if s.conds.all id then some { s with stack := data :: s.stack }
      else some s
  | .op c =>
      if c = OP_ELSE then
        match s.conds with
        | [] => none
        | b :: conds => some { s with conds := (!b) :: conds }
      else if c = OP_ENDIF then
        match s.conds with
        | [] => none
        | _ :: conds => some { s with conds }
      else if s.conds.all id then exec t c s
      else if c = OP_IF ∨ c = OP_NOTIF then some { s with conds := false :: s.conds }
      else some s

section Steps

variable (t : Spend) (conds : List Bool) (st : List Bytes)

@[simp] theorem step_push (data : Bytes) :
    step t (.push data) ⟨st, conds⟩
      = if 520 < data.length then none
        else some ⟨if conds.all id then data :: st else st, conds⟩ := by
  rw [step]
  split
  · rfl
  · split
    · rfl
    · rfl

/-! An opcode that opens and closes no branch runs, or is skipped. -/

@[simp] theorem step_sha256 (s : State) : step t (.op OP_SHA256) s
    = if s.conds.all id then exec t OP_SHA256 s else some s := rfl

@[simp] theorem step_equal (s : State) : step t (.op OP_EQUAL) s
    = if s.conds.all id then exec t OP_EQUAL s else some s := rfl

@[simp] theorem step_drop (s : State) : step t (.op OP_DROP) s
    = if s.conds.all id then exec t OP_DROP s else some s := rfl

@[simp] theorem step_lockTime (s : State) : step t (.op OP_CHECKLOCKTIMEVERIFY) s
    = if s.conds.all id then exec t OP_CHECKLOCKTIMEVERIFY s else some s := rfl

@[simp] theorem step_checkSig (s : State) : step t (.op OP_CHECKSIG) s
    = if s.conds.all id then exec t OP_CHECKSIG s else some s := rfl

@[simp] theorem step_if (s : State) : step t (.op OP_IF) s
    = if s.conds.all id then exec t OP_IF s else some { s with conds := false :: s.conds } := rfl

@[simp] theorem step_else (b : Bool) :
    step t (.op OP_ELSE) ⟨st, b :: conds⟩ = some ⟨st, (!b) :: conds⟩ := rfl

@[simp] theorem step_endif (b : Bool) :
    step t (.op OP_ENDIF) ⟨st, b :: conds⟩ = some ⟨st, conds⟩ := rfl

@[simp] theorem exec_if (x : Bytes) :
    exec t OP_IF ⟨x :: st, conds⟩ = some ⟨st, castToBool x :: conds⟩ := rfl

@[simp] theorem exec_drop (x : Bytes) : exec t OP_DROP ⟨x :: st, conds⟩ = some ⟨st, conds⟩ := rfl

@[simp] theorem exec_equal (x y : Bytes) :
    exec t OP_EQUAL ⟨x :: y :: st, conds⟩ = some ⟨ofBool (x = y) :: st, conds⟩ := rfl

@[simp] theorem exec_sha256 (x : Bytes) :
    exec t OP_SHA256 ⟨x :: st, conds⟩ = some ⟨t.sha256 x :: st, conds⟩ := rfl

@[simp] theorem exec_checkSig (key sig : Bytes) :
    exec t OP_CHECKSIG ⟨key :: sig :: st, conds⟩
      = some ⟨ofBool (t.checkSig sig key) :: st, conds⟩ := rfl

@[simp] theorem exec_sha256_empty : exec t OP_SHA256 ⟨[], conds⟩ = none := rfl

@[simp] theorem exec_checkSig_single (key : Bytes) : exec t OP_CHECKSIG ⟨[key], conds⟩ = none := rfl

@[simp] theorem exec_lockTime (x : Bytes) :
    exec t OP_CHECKLOCKTIMEVERIFY ⟨x :: st, conds⟩
      = if t.lockPassed x then some ⟨x :: st, conds⟩ else none := rfl

end Steps

/-- The instructions in order. The stack never holds more than 1000 items. -/
def run (t : Spend) : List Instr → State → Option State
  | [], s => some s
  | i :: is, s => (step t i s).bind fun s' => if 1000 < s'.stack.length then none else run t is s'

/-- The instructions in order, without a limit on the stack. -/
def steps (t : Spend) : List Instr → State → Option State
  | [], s => some s
  | i :: is, s => (step t i s).bind (steps t is)

theorem steps_of_run {t : Spend} {is : List Instr} {s r : State} (h : run t is s = some r) :
    steps t is s = some r := by
  induction is generalizing s with
  | nil => exact h
  | cons i is ih =>
      rw [run, Option.bind_eq_some_iff] at h
      obtain ⟨s', hs', h⟩ := h
      rw [steps, hs', Option.bind_some]
      split at h
      · cases h
      · exact ih h

/-- An instruction puts at most one item on the stack. -/
theorem step_length {t : Spend} {i : Instr} {s s' : State} (h : step t i s = some s') :
    s'.stack.length ≤ s.stack.length + 1 := by
  have hexec : ∀ {c : UInt8} {s s' : State}, exec t c s = some s' →
      s'.stack.length ≤ s.stack.length + 1 := by
    intro c s s' h
    unfold exec at h
    split at h
    all_goals first
      | (split at h <;> grind)
      | grind
  cases i with
  | push data =>
      rw [step] at h
      split at h
      · cases h
      · split at h
        · obtain rfl := Option.some.inj h
          rfl
        · obtain rfl := Option.some.inj h
          omega
  | op c =>
      rw [step] at h
      split at h
      · split at h
        · cases h
        · obtain rfl := Option.some.inj h
          exact Nat.le_succ _
      · split at h
        · split at h
          · cases h
          · obtain rfl := Option.some.inj h
            exact Nat.le_succ _
        · split at h
          · exact hexec h
          · split at h
            · obtain rfl := Option.some.inj h
              exact Nat.le_succ _
            · obtain rfl := Option.some.inj h
              exact Nat.le_succ _

/-- A short script on a small stack does not reach the limit. -/
theorem run_eq_steps {t : Spend} {is : List Instr} {s : State}
    (h : s.stack.length + is.length ≤ 1000) : run t is s = steps t is s := by
  induction is generalizing s with
  | nil => rfl
  | cons i is ih =>
      rw [List.length_cons] at h
      rw [run, steps]
      cases hs : step t i s with
      | none => rfl
      | some s' =>
          have hlen := step_length hs
          rw [Option.bind_some, Option.bind_some, if_neg (by omega), ih (by omega)]

def Instr.isOp : Instr → Bool
  | .push _ => false
  | .op _ => true

/-- Run a script to its end, on a stack. The branches it opens are closed then. -/
def evalScript (t : Spend) (script : Bytes) (stack : List Bytes) : Option (List Bytes) :=
  (decode script).bind fun is =>
    if 201 < is.countP Instr.isOp then none
    else (run t is ⟨stack, []⟩).bind fun s => if s.conds = [] then some s.stack else none

/-- A witness of an output whose program is the hash of a script: the items of the stack from its
bottom up, and the script. -/
def verifyWitnessScript (t : Spend) (program : Bytes) (witness : List Bytes) : Bool :=
  match witness.reverse with
  | [] => false
  | script :: stack =>
      if t.sha256 script = program ∧ script.length ≤ 10000 ∧ ∀ x ∈ stack, x.length ≤ 520 then
        match evalScript t script stack with
        | some [top] => castToBool top
        | _ => false
      else false

theorem verifyWitnessScript_concat (t : Spend) (program script : Bytes) (items : List Bytes) :
    verifyWitnessScript t program (items ++ [script]) = true ↔
      (t.sha256 script = program ∧ script.length ≤ 10000 ∧ ∀ x ∈ items, x.length ≤ 520) ∧
        ∃ top, evalScript t script items.reverse = some [top] ∧ castToBool top = true := by
  simp only [verifyWitnessScript, List.reverse_append, List.reverse_singleton, List.singleton_append,
    List.mem_reverse]
  split
  · next hfits =>
      refine Iff.trans ?_ (and_iff_right hfits).symm
      split
      · next top htop => simp [htop]
      · next hnot => exact ⟨fun h => (by cases h), fun ⟨top, htop, _⟩ => absurd htop (hnot top)⟩
  · next hfits => exact ⟨fun h => (by cases h), fun h => absurd h.1 hfits⟩

end Bitcoin

/-! ## SHA-256

The hash function of FIPS 180-4, over byte strings.
-/

namespace Bitcoin.Sha256

/-- The round constants. -/
def k : List UInt32 :=
  [0x428a2f98, 0x71374491, 0xb5c0fbcf, 0xe9b5dba5, 0x3956c25b, 0x59f111f1, 0x923f82a4, 0xab1c5ed5,
    0xd807aa98, 0x12835b01, 0x243185be, 0x550c7dc3, 0x72be5d74, 0x80deb1fe, 0x9bdc06a7, 0xc19bf174,
    0xe49b69c1, 0xefbe4786, 0x0fc19dc6, 0x240ca1cc, 0x2de92c6f, 0x4a7484aa, 0x5cb0a9dc, 0x76f988da,
    0x983e5152, 0xa831c66d, 0xb00327c8, 0xbf597fc7, 0xc6e00bf3, 0xd5a79147, 0x06ca6351, 0x14292967,
    0x27b70a85, 0x2e1b2138, 0x4d2c6dfc, 0x53380d13, 0x650a7354, 0x766a0abb, 0x81c2c92e, 0x92722c85,
    0xa2bfe8a1, 0xa81a664b, 0xc24b8b70, 0xc76c51a3, 0xd192e819, 0xd6990624, 0xf40e3585, 0x106aa070,
    0x19a4c116, 0x1e376c08, 0x2748774c, 0x34b0bcb5, 0x391c0cb3, 0x4ed8aa4a, 0x5b9cca4f, 0x682e6ff3,
    0x748f82ee, 0x78a5636f, 0x84c87814, 0x8cc70208, 0x90befffa, 0xa4506ceb, 0xbef9a3f7, 0xc67178f2]

def rotr (x : UInt32) (n : UInt32) : UInt32 := (x >>> n) ||| (x <<< (32 - n))

/-- The eight words of the state. -/
structure State where
  a : UInt32
  b : UInt32
  c : UInt32
  d : UInt32
  e : UInt32
  f : UInt32
  g : UInt32
  h : UInt32

def init : State :=
  ⟨0x6a09e667, 0xbb67ae85, 0x3c6ef372, 0xa54ff53a, 0x510e527f, 0x9b05688c, 0x1f83d9ab, 0x5be0cd19⟩

def State.words (s : State) : List UInt32 := [s.a, s.b, s.c, s.d, s.e, s.f, s.g, s.h]

def State.add (s t : State) : State :=
  ⟨s.a + t.a, s.b + t.b, s.c + t.c, s.d + t.d, s.e + t.e, s.f + t.f, s.g + t.g, s.h + t.h⟩

def State.round (s : State) (k w : UInt32) : State :=
  let s1 := rotr s.e 6 ^^^ rotr s.e 11 ^^^ rotr s.e 25
  let ch := (s.e &&& s.f) ^^^ ((~~~s.e) &&& s.g)
  let t1 := s.h + s1 + ch + k + w
  let s0 := rotr s.a 2 ^^^ rotr s.a 13 ^^^ rotr s.a 22
  let maj := (s.a &&& s.b) ^^^ (s.a &&& s.c) ^^^ (s.b &&& s.c)
  ⟨t1 + (s0 + maj), s.a, s.b, s.c, s.d + t1, s.e, s.f, s.g⟩

/-- The 64 words of a block, from its first 16. The last 16 words are kept in order. -/
def rounds : List UInt32 → List UInt32 → State → State
  | [], _, s => s
  | k :: ks, w :: ws, s =>
      let w1 := ws.getD 0 0
      let w9 := ws.getD 8 0
      let w14 := ws.getD 13 0
      let s0 := rotr w1 7 ^^^ rotr w1 18 ^^^ (w1 >>> 3)
      let s1 := rotr w14 17 ^^^ rotr w14 19 ^^^ (w14 >>> 10)
      rounds ks (ws ++ [w + s0 + w9 + s1]) (s.round k w)
  | _ :: _, [], s => s

/-- The big-endian bytes of a word. -/
def bytesOf (w : UInt32) : Bytes :=
  [(w >>> 24).toUInt8, (w >>> 16).toUInt8, (w >>> 8).toUInt8, w.toUInt8]

def wordsOf : Bytes → List UInt32
  | a :: b :: c :: d :: rest =>
      ((a.toUInt32 <<< 24) ||| (b.toUInt32 <<< 16) ||| (c.toUInt32 <<< 8) ||| d.toUInt32)
        :: wordsOf rest
  | _ => []

/-- A one, zeros, and the length in bits, to a multiple of 64 bytes. -/
def pad (m : Bytes) : Bytes :=
  m ++ [0x80] ++ List.replicate ((119 - m.length % 64) % 64) 0 ++ (toLE 8 (8 * m.length)).reverse

def blocks : List UInt32 → ℕ → State → State
  | _, 0, s => s
  | ws, n + 1, s => blocks (ws.drop 16) n ((rounds k (ws.take 16) s).add s)

end Bitcoin.Sha256

namespace Bitcoin

open Sha256

def sha256 (m : Bytes) : Bytes :=
  let ws := wordsOf (pad m)
  (blocks ws (ws.length / 16) init).words.flatMap bytesOf

end Bitcoin
