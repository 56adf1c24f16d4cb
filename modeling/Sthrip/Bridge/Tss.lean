import Mathlib.Data.Nat.Prime.Basic
import Mathlib.GroupTheory.OrderOfElement
import Sthrip.Codec.Digits
import Sthrip.Python.Values
import Sthrip.Services.RangeProof
import Sthrip.Sigma.Ecdsa

set_option autoImplicit false

/-! # Threshold signatures of the bridge -/

/-! ## Key shares of the bridge

The curve is an arbitrary group with a generator of prime order. What is drawn at random is an
argument.
-/

namespace Sthrip

/-- The curve, and `sha256` with its digest as a number. A point stands for its compressed bytes. -/
structure Curve (Γ : Type) [AddCommGroup Γ] where
  order : ℕ
  prime : order.Prime
  /-- A number below the order has 32 bytes. -/
  order_le : order ≤ 256 ^ 32
  generator : Γ
  addOrderOf_generator : addOrderOf generator = order
  /-- The first coordinate of a point other than `INFINITY`. -/
  x : Γ → ℕ
  toBytes : Γ → List UInt8
  sha256 : List UInt8 → ℕ

variable {Γ : Type} [AddCommGroup Γ]

instance (S : Curve Γ) : Fact S.order.Prime := ⟨S.prime⟩

structure KeyShare (Γ : Type) where
  party_id : ℤ
  index : ℤ
  private_share : ℤ
  public_key : Γ
  commitments : List Γ

/-- `Polynomial.evaluate`. -/
def evaluate (coefficients : List ℤ) (x : ℤ) (prime : ℕ) : ℤ :=
  (coefficients.foldl
    (fun (acc : ℤ × ℤ) coef => ((acc.1 + coef * acc.2) % prime, acc.2 * x % prime)) (0, 1)).1

/-- A sum of points that starts as `None`. -/
def addPoint : Option Γ → Γ → Option Γ
  | none, P => some P
  | some Q, P => some (Q + P)

namespace DistributedKeyGenerator

/-- The shares of the polynomial with the given coefficients. -/
def dealShares (S : Curve Γ) (n : ℕ) (master_secret : ℤ) (others : List ℤ) : List (KeyShare Γ) :=
  let coefficients := master_secret :: others
  let commitments := coefficients.map (· • S.generator)
  ((List.range n).map fun (i : ℕ) => (i + 1 : ℤ)).map fun party_id =>
    { party_id
      index := party_id
      private_share := evaluate coefficients party_id S.order
      public_key := master_secret • S.generator
      commitments }

/-- `generate_key_shares`; `draw i` is what the `i`-th `randbelow` returns. -/
def generateKeyShares (S : Curve Γ) (n t : ℕ) (draw : ℕ → Fin (S.order - 1)) : List (KeyShare Γ) :=
  dealShares S n ((draw 0 : ℕ) + 1) ((List.range t).map fun i => ((draw (i + 1) : ℕ) + 1 : ℤ))

def verifyShare [DecidableEq Γ] (S : Curve Γ) (share : KeyShare Γ) : Bool :=
  let lhs := share.private_share • S.generator
  let rhs := share.commitments.zipIdx.foldl
    (fun rhs entry => addPoint rhs ((share.index ^ entry.2 % S.order) • entry.1)) none
  some lhs = rhs

def lagrangeCoefficient (index : ℤ) (indices : List ℤ) (prime : ℕ) : ℤ :=
  let products := indices.foldl
    (fun (acc : ℤ × ℤ) j =>
      if j ≠ index then (acc.1 * j % prime, acc.2 * (j - index) % prime) else acc) (1, 1)
  let inv_denominator := products.2 ^ (prime - 2) % prime
  products.1 * inv_denominator % prime

end DistributedKeyGenerator

end Sthrip

/-! ## Signers of the bridge, and their sessions -/

namespace Sthrip

open Python

structure PartialSignature (Γ : Type) where
  party_id : ℤ
  index : ℤ
  /-- The commitment to the nonce. -/
  c : ℤ
  /-- The signature share. -/
  z : Option ℤ
  public_nonce : Γ

structure SigningContext (Γ : Type) where
  message_hash : List UInt8
  participants : List ℤ
  aggregated_nonce : Option Γ
  challenge : ℤ

variable {Γ : Type} [AddCommGroup Γ]

/-- `point.to_bytes()`; `INFINITY` has no curve. -/
def Curve.encode [DecidableEq Γ] (S : Curve Γ) (point : Γ) : Py (List UInt8) :=
  if point = 0 then .error .AttributeError else .ok (S.toBytes point)

structure ThresholdSigner (Γ : Type) where
  key_share : KeyShare Γ
  party_id : ℤ
  nonce_seed : List UInt8

namespace ThresholdSigner

def generateNonce (S : Curve Γ) (signer : ThresholdSigner Γ) (message_hash : List UInt8) : Py ℤ := do
  let encoded ← toBytes 32 signer.key_share.private_share
  let nonce : ℤ := (S.sha256 (signer.nonce_seed ++ message_hash ++ encoded) % S.order : ℕ)
  pure (if nonce = 0 then 1 else nonce)

def hashNonceCommitment [DecidableEq Γ] (S : Curve Γ) (signer : ThresholdSigner Γ) (public_nonce : Γ)
    (message_hash : List UInt8) : Py ℤ := do
  let encoded ← S.encode public_nonce
  let party ← toBytes 4 signer.party_id
  pure (S.sha256 (encoded ++ message_hash ++ party) % S.order : ℕ)

def computeSignatureShare (S : Curve Γ) (nonce challenge private_share : ℤ) : ℤ :=
  -- for simplicity, assume λ_i = 1 (single party)
  let lagrange_coeff := 1
  (nonce + challenge * lagrange_coeff * private_share) % S.order

def createPartialSignature [DecidableEq Γ] (S : Curve Γ) (signer : ThresholdSigner Γ)
    (message_hash : List UInt8) (context : Option (SigningContext Γ)) : Py (PartialSignature Γ) := do
  let nonce ← signer.generateNonce S message_hash
  let public_nonce := nonce • S.generator
  let commitment ← signer.hashNonceCommitment S public_nonce message_hash
  let z := context.bind fun context =>
    if context.aggregated_nonce.isSome ∧ context.challenge ≠ 0 then
      some (computeSignatureShare S nonce context.challenge signer.key_share.private_share)
    else none
  pure {
    party_id := signer.party_id
    index := signer.key_share.index
    c := commitment
    z
    public_nonce }

def completeSignature (S : Curve Γ) (signer : ThresholdSigner Γ) (partial_sig : PartialSignature Γ)
    (context : SigningContext Γ) : Py (PartialSignature Γ) := do
  let nonce ← signer.generateNonce S context.message_hash
  let z := computeSignatureShare S nonce context.challenge signer.key_share.private_share
  pure {
    party_id := signer.party_id
    index := signer.key_share.index
    c := partial_sig.c
    z := some z
    public_nonce := partial_sig.public_nonce }

end ThresholdSigner

structure SigningSession (Γ : Type) where
  message_hash : List UInt8
  threshold : ℤ
  phase : ℕ
  commitments : List (ℤ × PartialSignature Γ)
  participants : List ℤ

namespace SigningSession

def init (message_hash : List UInt8) (threshold : ℤ) : SigningSession Γ where
  message_hash
  threshold
  phase := 1
  commitments := []
  participants := []

def addCommitment (session : SigningSession Γ) (sig : PartialSignature Γ) :
    Py (SigningSession Γ × Bool) :=
  if session.phase ≠ 1 then .error (.ValueError "Not in commitment phase")
  else
    let commitments := setItem sig.party_id sig session.commitments
    .ok ({ session with commitments, participants := session.participants ++ [sig.party_id] },
      (commitments.length : ℤ) ≥ session.threshold)

def computeChallenge [DecidableEq Γ] (S : Curve Γ) (R : Option Γ) (message_hash : List UInt8) :
    Py ℤ := do
  let r_bytes ← match R with
    | none => pure "None".toUTF8.toList
    | some point => S.encode point
  pure (S.sha256 (r_bytes ++ message_hash) % S.order : ℕ)

/-- The session after the first phase, and the context of the second one. -/
def finalizeCommitments [DecidableEq Γ] (S : Curve Γ) (session : SigningSession Γ) :
    Py (SigningSession Γ × SigningContext Γ) :=
  if (session.commitments.length : ℤ) < session.threshold then
    .error (.ValueError
      s!"Need {session.threshold} commitments, have {session.commitments.length}")
  else do
    let R := session.commitments.foldl (fun R entry => addPoint R entry.2.public_nonce) none
    let challenge ← computeChallenge S R session.message_hash
    pure ({ session with phase := 2 },
      { message_hash := session.message_hash
        participants := session.participants
        aggregated_nonce := R
        challenge })

end SigningSession

end Sthrip

/-! ## The aggregation of signature shares -/

namespace Sthrip

open Python DistributedKeyGenerator

structure ECDSASignature where
  r : ℤ
  s : ℤ
  deriving DecidableEq

variable {Γ : Type} [AddCommGroup Γ] [DecidableEq Γ]

/-- `point.x()`: `None` for `INFINITY`. -/
def Curve.xCoordinate (S : Curve Γ) (point : Γ) : Option ℤ :=
  if point = 0 then none else some (S.x point : ℤ)

/-- The smaller one of `s` and `-s`. -/
def lowS (order : ℕ) (s : ℤ) : ℤ := if s > order / 2 then order - s else s

/-- The pass over the signature shares. -/
def sumShares (order : ℕ) (indices : List ℤ) (z : ℤ) (sig : PartialSignature Γ) : Py ℤ :=
  match sig.z with
  | none => .error (.ValueError s!"Partial signature from party {sig.party_id} missing z")
  | some share =>
      let lagrange_coeff := lagrangeCoefficient sig.index indices order
      let weighted_share := share * lagrange_coeff % order
      .ok ((z + weighted_share) % order)

def aggregateSignatures (S : Curve Γ) (partial_sigs : List (PartialSignature Γ))
    (context : SigningContext Γ) : Py ECDSASignature :=
  if partial_sigs.length < 2 then .error (.ValueError "Need at least 2 partial signatures")
  else do
    let indices := partial_sigs.map PartialSignature.index
    let z ← partial_sigs.foldlM (sumShares S.order indices) 0
    let R ← match context.aggregated_nonce with
      | none => .error .AttributeError
      | some R => pure R
    let x ← match S.xCoordinate R with
      | none => .error .TypeError
      | some x => pure x
    let r := x % S.order
    let s := z
    pure { r, s := lowS S.order s }

/-- The number that stands for a digest. -/
def digestNumber (message_hash : List UInt8) : ℤ := Digits.value 256 (message_hash.map UInt8.toNat)

/-- What `verify` asks for, with the key `public_key`. -/
def ECDSASignature.Verifies (S : Curve Γ) (sig : ECDSASignature) (message_hash : List UInt8)
    (public_key : Γ) : Prop :=
  Ecdsa.Verifies S.order S.generator public_key S.x (digestNumber message_hash) sig.r sig.s

instance (S : Curve Γ) (sig : ECDSASignature) (message_hash : List UInt8) (public_key : Γ) :
    Decidable (sig.Verifies S message_hash public_key) :=
  inferInstanceAs (Decidable (Ecdsa.Verifies S.order S.generator public_key S.x
    (digestNumber message_hash) sig.r sig.s))

end Sthrip
