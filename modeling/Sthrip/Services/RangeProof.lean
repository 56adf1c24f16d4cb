import Sthrip.Python.Values
import Sthrip.Services.AuditLogger
import Sthrip.Sigma.Pedersen

set_option autoImplicit false

/-! # Range proofs over Pedersen commitments

The two services with such proofs compute the same way, with other generators and other labels for the
hashes. The numbers mod `_P` of the group are an arbitrary group `Γ`: `ofInt n` is what `n` stands for,
`toInt x` the number that is computed for `x`. What is drawn at random is an argument.
-/

namespace Sthrip

open Python

/-- The group, and `sha256` with its digest as a number. -/
structure ProofParams (Γ : Type) [CommGroup Γ] where
  q : ℕ
  prime : q.Prime
  pow_q : ∀ x : Γ, x ^ q = 1
  g : Γ
  h : Γ
  ofInt : ℤ → Γ
  toInt : Γ → ℕ
  ofInt_toInt : ∀ x, ofInt (toInt x) = x
  /-- The bytes of an element in a hash. -/
  size : ℕ
  toInt_lt : ∀ x, toInt x < 256 ^ size
  sha256 : List UInt8 → ℕ

variable {Γ : Type} [CommGroup Γ]

/-- A group of prime order. -/
def ProofParams.ofCard {q : ℕ} (prime : q.Prime) (hcard : Nat.card Γ = q) (g h : Γ) (ofInt : ℤ → Γ)
    (toInt : Γ → ℕ) (ofInt_toInt : ∀ x, ofInt (toInt x) = x) (size : ℕ)
    (toInt_lt : ∀ x, toInt x < 256 ^ size) (sha256 : List UInt8 → ℕ) : ProofParams Γ :=
  { q, prime, g, h, ofInt, toInt, ofInt_toInt, size, toInt_lt, sha256
    pow_q := fun x => by rw [← hcard, pow_card_eq_one'] }

instance (S : ProofParams Γ) : Fact S.q.Prime := ⟨S.prime⟩

/-! ## Challenges -/

/-- `e.to_bytes(size, "big")`. -/
def toBytes (size : ℕ) (e : ℤ) : Py (List UInt8) :=
  if 0 ≤ e ∧ e < 256 ^ size then
    .ok ((List.range size).reverse.map fun i => UInt8.ofNat (e.toNat / 256 ^ i))
  else .error .OverflowError

namespace ProofParams

variable (S : ProofParams Γ)

def fiatShamir (label : List UInt8) (elements : List ℤ) : Py ℤ := do
  let encoded ← elements.mapM (toBytes S.size)
  pure (S.sha256 (label ++ encoded.flatten) % S.q : ℕ)

def pedersenCommit (value blinding : ℤ) : ℕ := S.toInt (Pedersen.commit S.g S.h value blinding)

end ProofParams

/-- The labels of the two kinds of challenges. -/
structure Labels where
  bit : List UInt8
  link : List UInt8

def bitsOf (value : ℤ) (num_bits : ℕ) : List ℤ := (List.range num_bits).map fun i => value / 2 ^ i % 2

/-! ## Proofs about a bit -/

structure OrProof where
  D : ℤ
  A0 : ℤ
  A1 : ℤ
  c0 : ℤ
  c1 : ℤ
  s0 : ℤ
  s1 : ℤ

namespace OrProof

def dict (p : OrProof) : Value :=
  .dict [("D", .str (toString p.D)), ("A0", .str (toString p.A0)), ("A1", .str (toString p.A1)),
    ("c0", .str (toString p.c0)), ("c1", .str (toString p.c1)), ("s0", .str (toString p.s0)),
    ("s1", .str (toString p.s1))]

def read (py : Reader) (proof : Value) : Py OrProof := do
  let D ← proof.getItem "D" >>= py.toInt
  let A0 ← proof.getItem "A0" >>= py.toInt
  let A1 ← proof.getItem "A1" >>= py.toInt
  let c0 ← proof.getItem "c0" >>= py.toInt
  let c1 ← proof.getItem "c1" >>= py.toInt
  let s0 ← proof.getItem "s0" >>= py.toInt
  let s1 ← proof.getItem "s1" >>= py.toInt
  pure ⟨D, A0, A1, c0, c1, s0, s1⟩

end OrProof

/-- What `_sigma_or_prove` draws. -/
structure OrDraws where
  c_sim : ℤ
  s_sim : ℤ
  k : ℤ

/-- The side of `bit` is proved, the other one is simulated. -/
def sigmaOrProve (S : ProofParams Γ) (label : List UInt8) (bit blinding commitment_d : ℤ)
    (d : OrDraws) : Py OrProof := do
  let t0 := S.ofInt commitment_d
  let t1 := S.ofInt commitment_d * S.g⁻¹
  let t_sim := if bit = 0 then t1 else t0
  let a_sim : ℤ := S.toInt (S.h ^ d.s_sim * t_sim ^ (S.q - d.c_sim))
  let a_real : ℤ := S.toInt (S.h ^ d.k)
  let a0 := if bit = 0 then a_real else a_sim
  let a1 := if bit = 0 then a_sim else a_real
  let c ← S.fiatShamir label [commitment_d, a0, a1]
  let c_real := (c - d.c_sim) % S.q
  let s_real := (d.k + c_real * blinding) % S.q
  pure {
    D := commitment_d
    A0 := a0
    A1 := a1
    c0 := if bit = 0 then c_real else d.c_sim
    c1 := if bit = 0 then d.c_sim else c_real
    s0 := if bit = 0 then s_real else d.s_sim
    s1 := if bit = 0 then d.s_sim else s_real }

variable [DecidableEq Γ]

def OrProof.check (S : ProofParams Γ) (label : List UInt8) (p : OrProof) : Py Bool := do
  let c ← S.fiatShamir label [p.D, p.A0, p.A1]
  let t0 := S.ofInt p.D
  let t1 := S.ofInt p.D * S.g⁻¹
  if (p.c0 + p.c1) % S.q ≠ c then pure false
  else if S.h ^ p.s0 ≠ S.ofInt p.A0 * t0 ^ p.c0 then pure false
  else if S.h ^ p.s1 ≠ S.ofInt p.A1 * t1 ^ p.c1 then pure false
  else pure true

def sigmaOrVerify (S : ProofParams Γ) (py : Reader) (label : List UInt8) (proof : Value) : Py Bool :=
  match OrProof.read py proof with
  | .error .KeyError => pure false
  | .error (.ValueError _) => pure false
  | .error e => .error e
  | .ok p => p.check S label

/-! ## The proof that links the bits to the commitment -/

structure LinkProof where
  T : ℤ
  A : ℤ
  s : ℤ

namespace LinkProof

def dict (p : LinkProof) : Value :=
  .dict [("T", .str (toString p.T)), ("A", .str (toString p.A)), ("s", .str (toString p.s))]

def read (py : Reader) (proof : Value) : Py LinkProof := do
  let T ← proof.getItem "T" >>= py.toInt
  let A ← proof.getItem "A" >>= py.toInt
  let s ← proof.getItem "s" >>= py.toInt
  pure ⟨T, A, s⟩

end LinkProof

omit [DecidableEq Γ] in
def linkingProve (S : ProofParams Γ) (label : List UInt8) (r_diff link_target k : ℤ) : Py LinkProof := do
  let announcement : ℤ := S.toInt (S.h ^ k)
  let c ← S.fiatShamir label [link_target, announcement]
  pure { T := link_target, A := announcement, s := (k + c * r_diff) % S.q }

def LinkProof.check (S : ProofParams Γ) (label : List UInt8) (p : LinkProof) : Py Bool := do
  let c ← S.fiatShamir label [p.T, p.A]
  pure (S.h ^ p.s = S.ofInt p.A * S.ofInt p.T ^ c)

def linkingVerify (S : ProofParams Γ) (py : Reader) (label : List UInt8) (proof : Value) : Py Bool :=
  match LinkProof.read py proof with
  | .error .KeyError => pure false
  | .error (.ValueError _) => pure false
  | .error e => .error e
  | .ok p => p.check S label

/-! ## Range proofs -/

/-- What the proof of a range draws: for each bit a blinding and its proof's draws. -/
structure RangeDraws where
  blinding : ℕ → ℤ
  bit : ℕ → OrDraws
  link : ℤ

omit [DecidableEq Γ] in
/-- The commitments of the bits from place `i` on, each with its proof. -/
def proveBits (S : ProofParams Γ) (labels : Labels) (draws : RangeDraws) : ℕ → List ℤ → Py (List OrProof)
  | _, [] => pure []
  | i, b :: bits => do
      let r_i := draws.blinding i
      let sigma_proof ← sigmaOrProve S labels.bit b r_i (S.pedersenCommit b r_i) (draws.bit i)
      let bit_proofs ← proveBits S labels draws (i + 1) bits
      pure (sigma_proof :: bit_proofs)

omit [DecidableEq Γ] in
/-- The bit proofs and the link proof for a difference `delta`, `r` being the blinding of the
commitment. -/
def proveRange (S : ProofParams Γ) (labels : Labels) (r delta : ℤ) (num_bits : ℕ) (draws : RangeDraws) :
    Py (Value × Value) := do
  let bit_proofs ← proveBits S labels draws 0 (bitsOf delta num_bits)
  let r_link := ((List.range num_bits).map fun i => draws.blinding i * (2 ^ i % S.q) % S.q).sum % S.q
  let r_diff := (r - r_link) % S.q
  let link_target : ℤ := S.toInt (S.h ^ r_diff)
  let link_proof ← linkingProve S labels.link r_diff link_target draws.link
  pure (.list (bit_proofs.map OrProof.dict), link_proof.dict)

def verifyBits (S : ProofParams Γ) (py : Reader) (labels : Labels) : List Value → Py Bool
  | [] => pure true
  | bp :: bit_proofs => do
      if ← sigmaOrVerify S py labels.bit bp then verifyBits S py labels bit_proofs else pure false

omit [DecidableEq Γ] in
/-- The product of the bits' commitments, each to the power of two of its place, from place `i` on. -/
def aggregate (S : ProofParams Γ) (py : Reader) : ℕ → Γ → List Value → Py Γ
  | _, acc, [] => pure acc
  | i, acc, bp :: bit_proofs => do
      let d_i ← bp.getItem "D" >>= py.toInt
      aggregate S py (i + 1) (acc * S.ofInt d_i ^ 2 ^ i) bit_proofs

/-- Do the proofs show that the commitment `c_val` is to `threshold` and the bits? -/
def verifyRange (S : ProofParams Γ) (py : Reader) (labels : Labels) (c_val threshold : ℤ)
    (bit_proofs : List Value) (payload : Value) : Py Bool := do
  if ← verifyBits S py labels bit_proofs then
    let agg ← aggregate S py 0 1 bit_proofs
    let link_target := S.toInt (S.ofInt c_val * (S.g ^ threshold)⁻¹ * agg⁻¹)
    let link_proof ← payload.getItem "link_proof"
    let T ← link_proof.get "T" .none
    if T.eqStr (toString (link_target : ℤ)) then linkingVerify S py labels.link link_proof else pure false
  else pure false

/-! ## Texts -/

mutual

/-- `json.dumps(v, separators=(",", ":"))`. -/
def dumpsValue : Value → String
  | .none => "null"
  | .bool b => if b then "true" else "false"
  | .int n => toString n
  | .float text _ => text
  | .nan => "NaN"
  | .infinity negative => if negative then "-Infinity" else "Infinity"
  | .str s => Audit.dumpsStr s
  | .list l => "[" ++ ",".intercalate (dumpsList l) ++ "]"
  | .dict d => "\x7b" ++ ",".intercalate (dumpsDict d) ++ "\x7d"

def dumpsList : List Value → List String
  | [] => []
  | v :: l => dumpsValue v :: dumpsList l

def dumpsDict : List (String × Value) → List String
  | [] => []
  | (k, v) :: d => (Audit.dumpsStr k ++ ":" ++ dumpsValue v) :: dumpsDict d

end

/-- A character of the base 64 alphabet. -/
def base64Char (n : ℕ) : Char :=
  if n < 26 then Char.ofNat (65 + n)
  else if n < 52 then Char.ofNat (71 + n)
  else if n < 62 then Char.ofNat (n - 4)
  else if n = 62 then '+' else '/'

/-- `base64.b64encode`, of the bytes of a text. -/
def b64encode : List UInt8 → List Char
  | [] => []
  | [a] =>
      let n := a.toNat * 65536
      [base64Char (n / 262144), base64Char (n / 4096 % 64), '=', '=']
  | [a, b] =>
      let n := a.toNat * 65536 + b.toNat * 256
      [base64Char (n / 262144), base64Char (n / 4096 % 64), base64Char (n / 64 % 64), '=']
  | a :: b :: c :: l =>
      let n := a.toNat * 65536 + b.toNat * 256 + c.toNat
      base64Char (n / 262144) :: base64Char (n / 4096 % 64) :: base64Char (n / 64 % 64)
        :: base64Char (n % 64) :: b64encode l

/-- The text that is handed out for a payload. -/
def encode (payload : Value) : String := String.ofList (b64encode (dumpsValue payload).toUTF8.data.toList)

end Sthrip
