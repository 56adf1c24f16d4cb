import Sthrip.Bridge.Tss
import Sthrip.Sigma.Ecdsa
import Sthrip.Tss.Shares

set_option autoImplicit false

/-! # Signing sessions

What the two phases return, in terms of the nonces as numbers mod the order.
-/

namespace Sthrip

open Python

variable {Γ : Type} [AddCommGroup Γ]

theorem toBytes_ok {size : ℕ} {e : ℤ} (he : 0 ≤ e ∧ e < 256 ^ size) :
    ∃ encoded, toBytes size e = .ok encoded := ⟨_, if_pos he⟩

/-! ## Nonces -/

namespace ThresholdSigner

/-- The nonce of a signer whose share has 32 bytes. -/
def nonce (S : Curve Γ) (signer : ThresholdSigner Γ) (message_hash : List UInt8) : ℤ :=
  match signer.generateNonce S message_hash with
  | .ok nonce => nonce
  | .error _ => 0

/-- The share is a number mod the order. -/
def Holds (S : Curve Γ) (signer : ThresholdSigner Γ) : Prop :=
  0 ≤ signer.key_share.private_share ∧ signer.key_share.private_share < S.order

variable {S : Curve Γ} {signer : ThresholdSigner Γ}

theorem Holds.range (h : signer.Holds S) :
    0 ≤ signer.key_share.private_share ∧ signer.key_share.private_share < 256 ^ 32 := by
  have hle : (S.order : ℤ) ≤ 256 ^ 32 := by exact_mod_cast S.order_le
  exact ⟨h.1, lt_of_lt_of_le h.2 hle⟩

theorem generateNonce_ok (h : signer.Holds S) (message_hash : List UInt8) :
    signer.generateNonce S message_hash = .ok (signer.nonce S message_hash) := by
  obtain ⟨encoded, hencoded⟩ := toBytes_ok h.range
  have hok : ∃ nonce, signer.generateNonce S message_hash = .ok nonce := by
    unfold generateNonce
    rw [hencoded]
    exact ⟨_, rfl⟩
  obtain ⟨nonce, hnonce⟩ := hok
  rw [ThresholdSigner.nonce, hnonce]

/-- A nonce is never zero. -/
theorem nonce_range (h : signer.Holds S) (message_hash : List UInt8) :
    1 ≤ signer.nonce S message_hash ∧ signer.nonce S message_hash < S.order := by
  have hok := generateNonce_ok h message_hash
  obtain ⟨encoded, hencoded⟩ := toBytes_ok h.range
  unfold generateNonce at hok
  rw [hencoded] at hok
  have heq := Except.ok.inj hok
  have hprime := S.prime.one_lt
  have hlt : S.sha256 (signer.nonce_seed ++ message_hash ++ encoded) % S.order < S.order :=
    Nat.mod_lt _ S.prime.pos
  rw [← heq]
  split <;> omega

/-- The point of a nonce is not `INFINITY`. -/
theorem nonce_smul_ne_zero (h : signer.Holds S) (message_hash : List UInt8) :
    signer.nonce S message_hash • S.generator ≠ 0 := by
  obtain ⟨hone, hlt⟩ := nonce_range h message_hash
  intro hzero
  rw [← zero_smul ℤ S.generator, S.zsmul_generator_eq_iff] at hzero
  have hdvd := Int.modEq_zero_iff_dvd.mp hzero
  exact absurd (Int.le_of_dvd (by omega) hdvd) (by omega)

/-- The second phase of a signer. -/
theorem completeSignature_ok (h : signer.Holds S) (partial_sig : PartialSignature Γ)
    (context : SigningContext Γ) :
    ∃ sig, signer.completeSignature S partial_sig context = .ok sig
      ∧ sig.index = signer.key_share.index
      ∧ sig.z = some (computeSignatureShare S (signer.nonce S context.message_hash)
          context.challenge signer.key_share.private_share) := by
  unfold completeSignature
  rw [generateNonce_ok h]
  exact ⟨_, rfl, rfl, rfl⟩

/-- What the first phase of a signer sends. -/
def Sends (S : Curve Γ) (signer : ThresholdSigner Γ) (message_hash : List UInt8)
    (sig : PartialSignature Γ) : Prop :=
  sig.party_id = signer.party_id ∧ sig.public_nonce = signer.nonce S message_hash • S.generator

variable [DecidableEq Γ]

/-- The first phase of a signer whose number has four bytes. -/
theorem createPartialSignature_ok (h : signer.Holds S)
    (hparty : 0 ≤ signer.party_id ∧ signer.party_id < 256 ^ 4) (message_hash : List UInt8) :
    ∃ sig, signer.createPartialSignature S message_hash none = .ok sig
      ∧ signer.Sends S message_hash sig := by
  obtain ⟨party, hbytes⟩ := toBytes_ok hparty
  have hcommit : ∃ c, signer.hashNonceCommitment S (signer.nonce S message_hash • S.generator)
      message_hash = .ok c := by
    unfold hashNonceCommitment Curve.encode
    rw [if_neg (nonce_smul_ne_zero h message_hash), hbytes]
    exact ⟨_, rfl⟩
  obtain ⟨c, hc⟩ := hcommit
  exact ⟨_, bind_eq_ok.mpr ⟨_, generateNonce_ok h message_hash, bind_eq_ok.mpr ⟨c, hc, rfl⟩⟩, rfl, rfl⟩

/-- A number with more bytes is not encoded. -/
theorem createPartialSignature_error (hparty : ¬ (0 ≤ signer.party_id ∧ signer.party_id < 256 ^ 4))
    (message_hash : List UInt8) (context : Option (SigningContext Γ)) (sig : PartialSignature Γ) :
    signer.createPartialSignature S message_hash context ≠ .ok sig := by
  intro hok
  unfold createPartialSignature hashNonceCommitment at hok
  obtain ⟨nonce, -, hok⟩ := bind_eq_ok.mp hok
  obtain ⟨commitment, hcommit, -⟩ := bind_eq_ok.mp hok
  obtain ⟨encoded, -, hcommit⟩ := bind_eq_ok.mp hcommit
  obtain ⟨party, hbytes, -⟩ := bind_eq_ok.mp hcommit
  rw [toBytes, if_neg hparty] at hbytes
  cases hbytes

end ThresholdSigner

/-! ## The first phase -/

namespace SigningSession

/-- Commitments, added one after the other. -/
def collect (session : SigningSession Γ) (sigs : List (PartialSignature Γ)) : Py (SigningSession Γ) :=
  sigs.foldlM
    (fun session sig => do
      let (session, _) ← session.addCommitment sig
      pure session)
    session

omit [AddCommGroup Γ] in
theorem collect_ok (sigs : List (PartialSignature Γ)) {session : SigningSession Γ}
    (hphase : session.phase = 1) :
    session.collect sigs
      = .ok { session with
          commitments := sigs.foldl (fun d sig => setItem sig.party_id sig d) session.commitments
          participants := session.participants ++ sigs.map PartialSignature.party_id } := by
  induction sigs generalizing session with
  | nil =>
      rw [List.map_nil, List.append_nil]
      rfl
  | cons sig sigs ih =>
      have hadd : (do
          let (session, _) ← session.addCommitment sig
          pure session : Py (SigningSession Γ))
          = .ok { session with
              commitments := setItem sig.party_id sig session.commitments
              participants := session.participants ++ [sig.party_id] } := by
        unfold addCommitment
        rw [if_neg (not_not_intro hphase)]
        rfl
      have hrest := @ih { session with
          commitments := setItem sig.party_id sig session.commitments
          participants := session.participants ++ [sig.party_id] } hphase
      rw [collect, List.foldlM_cons, hadd]
      refine hrest.trans ?_
      rw [List.append_assoc, List.singleton_append, List.map_cons, List.foldl_cons]

/-- The sum of the public nonces that a session has. -/
def jointNonce (session : SigningSession Γ) : Γ :=
  (session.commitments.map fun entry => entry.2.public_nonce).sum

variable [DecidableEq Γ] {S : Curve Γ} {session : SigningSession Γ}

/-- The end of the first phase: there are enough commitments, and their nonces do not cancel. -/
theorem finalizeCommitments_ok (hne : session.commitments ≠ [])
    (hlen : session.threshold ≤ session.commitments.length) (hR : session.jointNonce ≠ 0) :
    session.finalizeCommitments S
      = .ok ({ session with phase := 2 }, {
          message_hash := session.message_hash
          participants := session.participants
          aggregated_nonce := some session.jointNonce
          challenge :=
            (S.sha256 (S.toBytes session.jointNonce ++ session.message_hash) % S.order : ℕ) }) := by
  have hnonces : (session.commitments.map fun entry => entry.2.public_nonce) ≠ [] :=
    fun h => hne (List.map_eq_nil_iff.mp h)
  unfold finalizeCommitments
  rw [if_neg (not_lt.mpr hlen), ← List.foldl_map, foldl_addPoint_none hnonces]
  have hencode : S.encode session.jointNonce = .ok (S.toBytes session.jointNonce) := if_neg hR
  show (do let challenge ← computeChallenge S (some session.jointNonce) session.message_hash; _) = _
  unfold computeChallenge
  show (do let challenge ← (do let r_bytes ← S.encode session.jointNonce; _); _) = _
  rw [hencode]
  rfl

/-- Without enough commitments, or when their nonces cancel, the first phase does not end. -/
theorem finalizeCommitments_error (hne : session.commitments ≠ [])
    (h : (session.commitments.length : ℤ) < session.threshold ∨ session.jointNonce = 0)
    (next : SigningSession Γ × SigningContext Γ) : session.finalizeCommitments S ≠ .ok next := by
  intro hok
  unfold finalizeCommitments at hok
  by_cases hlen : (session.commitments.length : ℤ) < session.threshold
  · rw [if_pos hlen] at hok
    cases hok
  · have hnonces : (session.commitments.map fun entry => entry.2.public_nonce) ≠ [] :=
      fun h => hne (List.map_eq_nil_iff.mp h)
    have hzero : (session.commitments.map fun entry => entry.2.public_nonce).sum = 0 :=
      h.resolve_left hlen
    rw [if_neg hlen, ← List.foldl_map, foldl_addPoint_none hnonces, hzero] at hok
    obtain ⟨challenge, hchallenge, -⟩ := bind_eq_ok.mp hok
    unfold computeChallenge at hchallenge
    obtain ⟨r_bytes, hbytes, -⟩ := bind_eq_ok.mp hchallenge
    have hinfinity : S.encode (0 : Γ) = .error .AttributeError := if_pos rfl
    rw [hinfinity] at hbytes
    cases hbytes

end SigningSession

end Sthrip
