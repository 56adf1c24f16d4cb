import Sthrip.Services.ZkReputationService

set_option autoImplicit false

/-! # Reputation proofs are sound

In the sense of special soundness: two accepted answers to different challenges give an opening of a
bit's commitment, and the openings of the bits of an accepted payload give one of its commitment, to a
value that is not below the threshold.
-/

namespace Sthrip.ZKReputationService

open Python Schnorr Pedersen

variable {Γ : Type} [CommGroup Γ] {S : ProofParams Γ} {py : Reader}

/-- The numbers that a payload is about: its commitment, the commitments of its bits, the target of its
link proof. -/
structure Numbers where
  c_val : ℤ
  D : List ℤ
  T : ℤ

def readNumbers (py : Reader) (commitment : String) (payload : Value) : Py Numbers := do
  let c_val ← py.toIntHex (.str commitment)
  let bit_proofs ← payload.getItem "bit_proofs" >>= Value.items
  let D ← bit_proofs.mapM fun bp => bp.getItem "D" >>= py.toInt
  let T ← payload.getItem "link_proof" >>= fun l => l.getItem "T" >>= py.toInt
  pure ⟨c_val, D, T⟩

/-- `os` opens the commitments of the bits, each to 0 or 1. -/
structure OpensBits (S : ProofParams Γ) (D : List ℤ) (os : List (ℤ × ℤ)) : Prop where
  opens : D.map S.ofInt = os.map fun o => commit S.g S.h o.1 o.2
  bit : ∀ o ∈ os, o.1 = 0 ∨ o.1 = 1

/-- The commitment opens to the threshold and the bits, given the logarithm of the link's target. -/
theorem opens_of_linked {c_val threshold : ℤ} {ps : List OrProof} {payload : Value} {l : LinkProof}
    (hlink : Linked S py labels.link c_val threshold ps payload l) {os : List (ℤ × ℤ)}
    (hos : OpensBits S (ps.map OrProof.D) os) {t : ℤ} (ht : S.ofInt l.T = S.h ^ t) :
    S.ofInt c_val
      = commit S.g S.h (threshold + weigh (os.map Prod.fst)) (weigh (os.map Prod.snd) + t) := by
  have hprod : prodPow (ps.map fun p => S.ofInt p.D)
      = commit S.g S.h (weigh (os.map Prod.fst)) (weigh (os.map Prod.snd)) := by
    rw [← prodPow_commit, ← hos.opens, List.map_map]
    rfl
  have hleft : leftOver S (S.ofInt c_val) threshold ps = S.h ^ t := by
    rw [← ht, hlink.T, S.ofInt_toInt]
  calc
    S.ofInt c_val
        = S.g ^ threshold * prodPow (ps.map fun p => S.ofInt p.D)
            * leftOver S (S.ofInt c_val) threshold ps := eq_mul_leftOver ..
    _ = commit S.g S.h threshold 0 * commit S.g S.h (weigh (os.map Prod.fst))
            (weigh (os.map Prod.snd)) * commit S.g S.h 0 t := by
          have hthreshold : S.g ^ threshold = commit S.g S.h threshold 0 := by simp [commit]
          have htarget : S.h ^ t = commit S.g S.h 0 t := by simp [commit]
          rw [hprod, hleft, hthreshold, htarget]
    _ = _ := by
          rw [commit_mul, commit_mul, add_zero, zero_add]

/-- What an accepted payload says about its numbers. -/
structure Sound (S : ProofParams Γ) (threshold : ℤ) (x : Numbers) : Prop where
  bits : x.D.length = NUM_BITS
  /-- The target has a logarithm. -/
  log : ∃ t : ℤ, S.ofInt x.T = S.h ^ t
  /-- The commitment opens to a value that is at least the threshold. -/
  opens : ∀ os, OpensBits S x.D os → ∀ t : ℤ, S.ofInt x.T = S.h ^ t →
    ∃ v r : ℤ, S.ofInt x.c_val = commit S.g S.h v r ∧ v - threshold = weigh (os.map Prod.fst) ∧
      threshold ≤ v ∧ v < threshold + 2 ^ NUM_BITS ∧
      -- an opening to another value gives the logarithm of `g`
      ∀ v' r', S.ofInt x.c_val = commit S.g S.h v' r' →
        ((v' - threshold : ℤ) : ZMod S.q) = weigh (os.map Prod.fst) ∨
          S.g = S.h ^ dlog S.q (-v) (-v') r r'

theorem sound_of_linked {c_val threshold : ℤ} {ps : List OrProof} {payload : Value} {l : LinkProof}
    (hh : ∀ x : Γ, x ∈ Subgroup.zpowers S.h) (hbits : ps.length = NUM_BITS)
    (hlink : Linked S py labels.link c_val threshold ps payload l) :
    Sound S threshold ⟨c_val, ps.map OrProof.D, l.T⟩ := by
  refine ⟨by rw [List.length_map, hbits], ?_, ?_⟩
  · obtain ⟨t, ht⟩ := Subgroup.mem_zpowers_iff.mp (hh (S.ofInt l.T))
    exact ⟨t, ht.symm⟩
  · intro os hos t ht
    have hopen := opens_of_linked hlink hos ht
    have hb : ∀ b ∈ os.map Prod.fst, b = 0 ∨ b = 1 := by
      intro b hb
      obtain ⟨o, ho, rfl⟩ := List.mem_map.mp hb
      exact hos.bit o ho
    have hlength : (os.map Prod.fst).length = NUM_BITS := by
      have h := congrArg List.length hos.opens
      rw [List.length_map, List.length_map, List.length_map, hbits] at h
      rw [List.length_map, ← h]
    have hnonneg := weigh_nonneg hb
    have hlt := weigh_lt hb
    rw [hlength] at hlt
    refine ⟨_, _, hopen, by ring, by omega, by omega, fun v' r' hopen' => ?_⟩
    by_cases hv : ((threshold + weigh (os.map Prod.fst) : ℤ) : ZMod S.q) = v'
    · left
      rw [Int.cast_sub, ← hv]
      push_cast
      ring
    · right
      exact binding S.pow_q (hopen.symm.trans hopen') hv

variable [DecidableEq Γ]

theorem verifyPayload_true {commitment : String} {payload : Value} {threshold : ℤ}
    (h : verifyPayload S py commitment payload threshold = .ok true) :
    ∃ c_val bit_proofs, py.toIntHex (.str commitment) = .ok c_val ∧
      (payload.getItem "bit_proofs" >>= Value.items) = .ok bit_proofs ∧ bit_proofs.length = NUM_BITS ∧
      verifyRange S py labels c_val threshold bit_proofs payload = .ok true := by
  unfold verifyPayload at h
  obtain ⟨version, -, h⟩ := bind_eq_ok.mp h
  split at h
  · cases h
  · obtain ⟨committed, -, h⟩ := bind_eq_ok.mp h
    split at h
    · cases h
    · obtain ⟨claimed, -, h⟩ := bind_eq_ok.mp h
      split at h
      · cases h
      · obtain ⟨c_val, hc, h⟩ := bind_eq_ok.mp h
        obtain ⟨bit_proofs, hbits, h⟩ := bind_eq_ok.mp h
        split at h
        · cases h
        · next hlength => exact ⟨c_val, bit_proofs, hc, hbits, not_not.mp hlength, h⟩

/-- Two transcripts of a bit proof with the same announcements and different challenges, the hash being
`sha256` for the first one and `sha256'` for the other. -/
structure Rewound (S : ProofParams Γ) (py : Reader) (sha256' : List UInt8 → ℕ) (proof proof' : Value)
    (p p' : OrProof) : Prop where
  read : OrProof.read py proof = .ok p
  read' : OrProof.read py proof' = .ok p'
  accepted : sigmaOrVerify S py labels.bit proof = .ok true
  accepted' : sigmaOrVerify { S with sha256 := sha256' } py labels.bit proof' = .ok true
  same : p'.D = p.D ∧ p'.A0 = p.A0 ∧ p'.A1 = p.A1
  challenges : S.fiatShamir labels.bit [p.D, p.A0, p.A1]
    ≠ ProofParams.fiatShamir { S with sha256 := sha256' } labels.bit [p.D, p.A0, p.A1]

/-- **Reputation proofs are sound.** -/
theorem proof_sound (S : ProofParams Γ) (py : Reader) (hh : ∀ x : Γ, x ∈ Subgroup.zpowers S.h) :
    (∀ sha256' proof proof' p p', Rewound S py sha256' proof proof' p p' →
      let o := orOpening S.q (p.transcript S) (p'.transcript S)
      S.ofInt p.D = commit S.g S.h o.1 o.2 ∧ (o.1 = 0 ∨ o.1 = 1)) ∧
    ∀ loads commitment proof threshold,
      verifyProof S py loads commitment proof threshold = true →
        ∃ payload x, loads proof = .ok payload ∧ readNumbers py commitment payload = .ok x ∧
          Sound S threshold x := by
  constructor
  · intro sha256' proof proof' p p' hrewound
    refine ⟨?_, orOpening_bit ..⟩
    obtain ⟨hD, h0, h1⟩ := hrewound.same
    obtain ⟨p₁, hp₁, hcheck⟩ := sigmaOrVerify_true hrewound.accepted
    obtain ⟨p₂, hp₂, hcheck'⟩ := sigmaOrVerify_true hrewound.accepted'
    obtain rfl : p = p₁ := Except.ok.inj (hrewound.read.symm.trans hp₁)
    obtain rfl : p' = p₂ := Except.ok.inj (hrewound.read'.symm.trans hp₂)
    obtain ⟨c, hc, haccept⟩ := OrProof.check_true hcheck
    obtain ⟨c', hc', haccept'⟩ := OrProof.check_true hcheck'
    have hne : c ≠ c' := by
      intro heq
      rw [hD, h0, h1] at hc'
      exact hrewound.challenges (by rw [hc, hc', heq])
    have hsame : S.ofInt p'.D = S.ofInt p.D := by rw [hD]
    refine eq_orOpening S.pow_q ?_ ?_ hne haccept ?_
    · exact congrArg S.ofInt h0.symm
    · exact congrArg S.ofInt h1.symm
    · have h' : OrAccepts S.q S.g S.h (S.ofInt p'.D) c' (p'.transcript S) := haccept'
      rwa [hsame] at h'
  · intro loads commitment proof threshold hverify
    unfold verifyProof at hverify
    split at hverify
    · next valid hvalid =>
        subst hverify
        obtain ⟨payload, hloads, hpayload⟩ := bind_eq_ok.mp hvalid
        obtain ⟨c_val, bit_proofs, hc, hbits, hlength, hrange⟩ := verifyPayload_true hpayload
        obtain ⟨ps, l, hps, hlink⟩ := verifyRange_true hrange
        have hD : List.Forall₂ (fun v p => (v.getItem "D" >>= py.toInt) = .ok (OrProof.D p))
            bit_proofs ps := hps.imp fun _ _ hp => read_D hp.1
        refine ⟨payload, ⟨c_val, ps.map OrProof.D, l.T⟩, hloads, ?_, ?_⟩
        · rw [readNumbers, hc]
          refine bind_eq_ok.mpr ⟨c_val, rfl, bind_eq_ok.mpr ⟨bit_proofs, hbits, ?_⟩⟩
          refine bind_eq_ok.mpr ⟨_, mapM_eq_ok hD, bind_eq_ok.mpr ⟨l.T, ?_, rfl⟩⟩
          obtain ⟨v, hv, hl⟩ := bind_eq_ok.mp hlink.read
          exact bind_eq_ok.mpr ⟨v, hv, read_T hl⟩
        · have hlen : ps.length = NUM_BITS := by rw [← hps.length_eq, hlength]
          exact sound_of_linked hh hlen hlink
    · cases hverify

theorem eleven_generator (x : Multiplicative (ZMod 11)) : x ∈ Subgroup.zpowers eleven.h := by
  refine Subgroup.mem_zpowers_iff.mpr ⟨4 * (x.toAdd.val : ℤ), ?_⟩
  show Multiplicative.ofAdd ((4 * (x.toAdd.val : ℤ)) • (3 : ZMod 11)) = x
  have htwelve : (4 : ZMod 11) * 3 = 1 := by decide
  rw [zsmul_eq_mul]
  push_cast
  rw [ZMod.natCast_val, ZMod.cast_id, mul_right_comm, htwelve, one_mul]
  rfl

theorem proof_sound_eleven :
    (∀ sha256' proof proof' p p', Rewound eleven Reader.plain sha256' proof proof' p p' →
      let o := orOpening eleven.q (p.transcript eleven) (p'.transcript eleven)
      eleven.ofInt p.D = commit eleven.g eleven.h o.1 o.2 ∧ (o.1 = 0 ∨ o.1 = 1)) ∧
    ∀ loads commitment proof threshold,
      verifyProof eleven Reader.plain loads commitment proof threshold = true →
        ∃ payload x, loads proof = .ok payload ∧
          readNumbers Reader.plain commitment payload = .ok x ∧ Sound eleven threshold x :=
  proof_sound eleven Reader.plain eleven_generator

end Sthrip.ZKReputationService
