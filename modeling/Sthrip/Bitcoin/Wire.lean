import Mathlib.Control.Monad.Basic
import Sthrip.Bitcoin.Script

set_option autoImplicit false

/-! # Transactions on the wire

The two formats of a transaction: the one of BIP 144, with a marker, a flag and the witnesses of the inputs,
and the one without them, whose hash names the transaction. A reader takes a value from the front of a byte
string. `Reads r s x` says that it reads `x` from `s` and leaves what follows; the rules put readers
together.
-/

namespace Bitcoin

/-! ## Readers -/

/-- A reader returns what it has read and the bytes that are left. -/
abbrev Reader (α : Type) := StateT Bytes Option α

/-- The reader reads `x` from `s`, whatever follows. -/
def Reads {α : Type} (r : Reader α) (s : Bytes) (x : α) : Prop :=
  ∀ rest, r.run (s ++ rest) = some (x, rest)

namespace Reader

def bytes (n : ℕ) : Reader Bytes := fun s => if n ≤ s.length then some (s.take n, s.drop n) else none

/-- A number of `w` bytes. -/
def number (w : ℕ) : Reader ℕ := do
  let b ← bytes w
  return ofLE b

/-- A number of `w` bytes that has no shorter form. -/
def long (w least : ℕ) : Reader ℕ := do
  let n ← number w
  if least ≤ n then return n else failure

def compactSize : Reader ℕ := do
  let first ← number 1
  if first < 0xfd then return first
  else if first = 0xfd then long 2 0xfd
  else if first = 0xfe then long 4 0x10000
  else long 8 0x100000000

/-- Bytes after their length. -/
def sized : Reader Bytes := do
  let n ← compactSize
  bytes n

variable {α : Type}

def times (r : Reader α) : ℕ → Reader (List α)
  | 0 => return []
  | n + 1 => do
      let x ← r
      let xs ← times r n
      return x :: xs

/-- Values after their number. -/
def list (r : Reader α) : Reader (List α) := do
  let n ← compactSize
  times r n

end Reader

/-! ## What is read -/

section Rules

variable {α β : Type} {r : Reader α} {s s' : Bytes} {x : α} {y : β}

theorem Reads.run (h : Reads r s x) : r.run s = some (x, []) := by
  have hrun := h []
  rwa [List.append_nil] at hrun

theorem reads_pure (x : α) : Reads (pure x : Reader α) [] x := fun _ => rfl

theorem Reads.bind {k : α → Reader β} (h : Reads r s x) (h' : Reads (k x) s' y) :
    Reads (r >>= k) (s ++ s') y := by
  intro rest
  rw [StateT.run_bind, List.append_assoc, h]
  exact h' rest

/-- The last reader, and what is made of what it has read. -/
theorem Reads.last {k : α → Reader β} (h : Reads r s x) (hk : k x = pure y) : Reads (r >>= k) s y := by
  have hnil : Reads (k x) [] y := by
    rw [hk]
    exact reads_pure y
  have hbind := h.bind hnil
  rwa [List.append_nil] at hbind

theorem reads_bytes (b : Bytes) : Reads (Reader.bytes b.length) b b := by
  intro rest
  show (if b.length ≤ (b ++ rest).length then _ else _) = _
  rw [if_pos (by rw [List.length_append]; omega), List.take_left, List.drop_left]

theorem reads_bytes_of_length {b : Bytes} {n : ℕ} (h : b.length = n) : Reads (Reader.bytes n) b b := by
  subst h
  exact reads_bytes b

theorem reads_number {w n : ℕ} (h : n < 256 ^ w) : Reads (Reader.number w) (toLE w n) n := by
  refine (reads_bytes_of_length (length_toLE w n)).last ?_
  rw [ofLE_toLE h]

theorem reads_long {w least n : ℕ} (hleast : least ≤ n) (h : n < 256 ^ w) :
    Reads (Reader.long w least) (toLE w n) n :=
  (reads_number h).last (if_pos hleast)

theorem Reads.times {f : α → Bytes} {xs : List α} (h : ∀ x ∈ xs, Reads r (f x) x) :
    Reads (r.times xs.length) (xs.flatMap f) xs := by
  induction xs with
  | nil => exact reads_pure []
  | cons x xs ih =>
      have hrest := ih fun y hy => h y (List.mem_cons_of_mem x hy)
      exact (h x List.mem_cons_self).bind (hrest.last rfl)

end Rules

/-! ## Lengths -/

/-- The shortest form of a number below `2 ^ 64`. -/
def writeCompactSize (n : ℕ) : Bytes :=
  if n < 0xfd then toLE 1 n
  else if n ≤ 0xffff then 0xfd :: toLE 2 n
  else if n ≤ 0xffffffff then 0xfe :: toLE 4 n
  else 0xff :: toLE 8 n

theorem reads_compactSize {n : ℕ} (h : n < 2 ^ 64) : Reads Reader.compactSize (writeCompactSize n) n := by
  -- a first byte that announces a longer form
  have hmark : ∀ {c w least : ℕ}, 0xfd ≤ c → c < 256 → least ≤ n → n < 256 ^ w →
      (if c < 0xfd then pure c else if c = 0xfd then Reader.long 2 0xfd
        else if c = 0xfe then Reader.long 4 0x10000 else Reader.long 8 0x100000000 : Reader ℕ)
        = Reader.long w least →
      Reads Reader.compactSize (toLE 1 c ++ toLE w n) n := by
    intro c w least hc hc' hleast hn heq
    refine (reads_number (by omega)).bind ?_
    rw [heq]
    exact reads_long hleast hn
  unfold writeCompactSize
  split_ifs with h₁ h₂ h₃
  · exact (reads_number (by omega)).last (if_pos h₁)
  · exact hmark (c := 0xfd) (by omega) (by omega) (not_lt.mp h₁) (by omega) rfl
  · exact hmark (c := 0xfe) (by omega) (by omega) (not_le.mp h₂) (by omega) rfl
  · exact hmark (c := 0xff) (by omega) (by omega) (not_le.mp h₃) (by omega) rfl

/-- A byte string after its length. -/
def writeSized (b : Bytes) : Bytes := writeCompactSize b.length ++ b

/-- The values after their number. -/
def writeList {α : Type} (f : α → Bytes) (xs : List α) : Bytes :=
  writeCompactSize xs.length ++ xs.flatMap f

theorem reads_sized {b : Bytes} (h : b.length < 2 ^ 64) : Reads Reader.sized (writeSized b) b :=
  (reads_compactSize h).bind (reads_bytes b)

theorem reads_list {α : Type} {r : Reader α} {f : α → Bytes} {xs : List α} (hlen : xs.length < 2 ^ 64)
    (h : ∀ x ∈ xs, Reads r (f x) x) : Reads r.list (writeList f xs) xs :=
  (reads_compactSize hlen).bind (Reads.times h)

/-! ## Transactions -/

/-- The hash of a transaction, in the order in which it is hashed, and the number of an output of it. -/
structure OutPoint where
  hash : Bytes
  index : ℕ
  deriving DecidableEq

structure TxInput where
  outpoint : OutPoint
  script_sig : Bytes
  sequence : ℕ
  deriving DecidableEq

structure TxOutput where
  value : ℕ
  script_pubkey : Bytes
  deriving DecidableEq

structure Tx where
  version : ℕ
  inputs : List TxInput
  outputs : List TxOutput
  /-- The stacks of the inputs. -/
  witnesses : List (List Bytes)
  locktime : ℕ
  deriving DecidableEq

def readInput : Reader TxInput := do
  let hash ← Reader.bytes 32
  let index ← Reader.number 4
  let script_sig ← Reader.sized
  let sequence ← Reader.number 4
  return ⟨⟨hash, index⟩, script_sig, sequence⟩

def readOutput : Reader TxOutput := do
  let value ← Reader.number 8
  let script_pubkey ← Reader.sized
  return ⟨value, script_pubkey⟩

/-- A transaction in the format of BIP 144. -/
def readTx : Reader Tx := do
  let version ← Reader.number 4
  let marker ← Reader.bytes 2
  if marker = [0, 1] then
    let inputs ← readInput.list
    let outputs ← readOutput.list
    let witnesses ← Reader.sized.list.times inputs.length
    let locktime ← Reader.number 4
    return ⟨version, inputs, outputs, witnesses, locktime⟩
  else failure

def TxInput.write (i : TxInput) : Bytes :=
  i.outpoint.hash ++ (toLE 4 i.outpoint.index ++ (writeSized i.script_sig ++ toLE 4 i.sequence))

def TxOutput.write (o : TxOutput) : Bytes := toLE 8 o.value ++ writeSized o.script_pubkey

namespace Tx

/-- Without the witnesses. -/
def writeStripped (tx : Tx) : Bytes :=
  toLE 4 tx.version ++ (writeList TxInput.write tx.inputs ++
    (writeList TxOutput.write tx.outputs ++ toLE 4 tx.locktime))

/-- In the format of BIP 144. -/
def write (tx : Tx) : Bytes :=
  toLE 4 tx.version ++ ([0, 1] ++ (writeList TxInput.write tx.inputs ++
    (writeList TxOutput.write tx.outputs ++ (tx.witnesses.flatMap (writeList writeSized) ++
      toLE 4 tx.locktime))))

/-- The fields are as long as the format has room for. -/
structure Fits (tx : Tx) : Prop where
  version : tx.version < 2 ^ 32
  inputs : tx.inputs.length < 2 ^ 64
  input : ∀ i ∈ tx.inputs, i.outpoint.hash.length = 32 ∧ i.outpoint.index < 2 ^ 32 ∧
    i.script_sig.length < 2 ^ 64 ∧ i.sequence < 2 ^ 32
  outputs : tx.outputs.length < 2 ^ 64
  output : ∀ o ∈ tx.outputs, o.value < 2 ^ 64 ∧ o.script_pubkey.length < 2 ^ 64
  witnesses : tx.witnesses.length = tx.inputs.length
  witness : ∀ stack ∈ tx.witnesses, stack.length < 2 ^ 64 ∧ ∀ item ∈ stack, item.length < 2 ^ 64
  locktime : tx.locktime < 2 ^ 32

end Tx

theorem reads_input {i : TxInput} (hhash : i.outpoint.hash.length = 32) (hindex : i.outpoint.index < 2 ^ 32)
    (hscript : i.script_sig.length < 2 ^ 64) (hsequence : i.sequence < 2 ^ 32) :
    Reads readInput i.write i := by
  refine (reads_bytes_of_length hhash).bind ?_
  refine (reads_number (by omega)).bind ?_
  refine (reads_sized hscript).bind ?_
  exact (reads_number (by omega)).last rfl

theorem reads_output {o : TxOutput} (hvalue : o.value < 2 ^ 64)
    (hscript : o.script_pubkey.length < 2 ^ 64) : Reads readOutput o.write o := by
  refine (reads_number (by omega)).bind ?_
  exact (reads_sized hscript).last rfl

/-- **A transaction is read from what is written.** -/
theorem reads_tx {tx : Tx} (h : tx.Fits) : Reads readTx tx.write tx := by
  have hinputs : Reads readInput.list (writeList TxInput.write tx.inputs) tx.inputs :=
    reads_list h.inputs fun i hi =>
      reads_input (h.input i hi).1 (h.input i hi).2.1 (h.input i hi).2.2.1 (h.input i hi).2.2.2
  have houtputs : Reads readOutput.list (writeList TxOutput.write tx.outputs) tx.outputs :=
    reads_list h.outputs fun o ho => reads_output (h.output o ho).1 (h.output o ho).2
  have hwitnesses : Reads (Reader.sized.list.times tx.inputs.length)
      (tx.witnesses.flatMap (writeList writeSized)) tx.witnesses := by
    rw [← h.witnesses]
    refine Reads.times fun stack hstack => ?_
    exact reads_list (h.witness stack hstack).1 fun item hitem =>
      reads_sized ((h.witness stack hstack).2 item hitem)
  have hversion := h.version
  have hlocktime := h.locktime
  refine (reads_number (by omega)).bind ?_
  refine (reads_bytes_of_length (n := 2) rfl).bind ?_
  rw [if_pos rfl]
  refine hinputs.bind ?_
  refine houtputs.bind ?_
  refine hwitnesses.bind ?_
  exact (reads_number (by omega)).last rfl

end Bitcoin
