import Mathlib.Data.Set.Function
import Sthrip.RangeProof.Hiding
import Sthrip.Reputation.Sound

set_option autoImplicit false

/-! # Reputation proofs hide the score

For every two scores that are not below the threshold there is a correspondence of what the prover draws
(`Randomness.counterpart`), with which the same commitment and the same proof are made.
-/

namespace Sthrip.ZKReputationService

open Python Pedersen

variable {Γ : Type} [CommGroup Γ]

/-- What a commitment and a proof for it draw. -/
structure Randomness where
  r : ℕ
  range : RangeDraws

structure Randomness.Drawn (q : ℕ) (ρ : Randomness) : Prop where
  r : Scalar q ρ.r
  range : ρ.range.Drawn q NUM_BITS

instance (q : ℕ) (ρ : Randomness) : Decidable (ρ.Drawn q) :=
  decidable_of_iff (Scalar q ρ.r ∧ ρ.range.Drawn q NUM_BITS) ⟨fun h => ⟨h.1, h.2⟩, fun h => ⟨h.r, h.range⟩⟩

/-- `create_commitment` and then `generate_proof`: what is handed out. -/
def prove (S : ProofParams Γ) (py : Reader) (score threshold : ℤ) (ρ : Randomness) :
    Py (String × String) := do
  let (commitment, blinding) ← createCommitment S score ρ.r
  let proof ← generateProof S py score blinding threshold ρ.range
  pure (commitment, proof)

/-- What has to be drawn for `score'` instead; `x` is the logarithm of `g`. -/
def Randomness.counterpart (S : ProofParams Γ) (x threshold score score' : ℤ) (ρ : Randomness) :
    Randomness where
  r := shiftR S.q x score score' ρ.r
  range := ρ.range.shift S labels.bit x (score - threshold) (score' - threshold) NUM_BITS

/-- Neither what is drawn nor what is drawn for `score'` instead is zero. -/
def Fair (S : ProofParams Γ) (x threshold score score' : ℤ) : Set Randomness :=
  { ρ | ρ.Drawn S.q ∧ (ρ.counterpart S x threshold score score').Drawn S.q }

section Counterpart

variable {S : ProofParams Γ} {x threshold score score' : ℤ} {ρ : Randomness}

variable [DecidableEq Γ]

theorem counterpart_counterpart (hg : S.g = S.h ^ x) (hρ : ρ.Drawn S.q) :
    (ρ.counterpart S x threshold score score').counterpart S x threshold score' score = ρ := by
  have hr : ((ρ.counterpart S x threshold score score').counterpart S x threshold score' score).r
      = ρ.r := shiftR_shiftR S x score score' hρ.r
  have hrange : ((ρ.counterpart S x threshold score score').counterpart S x threshold score' score).range
      = ρ.range := RangeDraws.shift_shift hg hρ.range
  calc
    (ρ.counterpart S x threshold score score').counterpart S x threshold score' score
        = ⟨((ρ.counterpart S x threshold score score').counterpart S x threshold score' score).r,
          ((ρ.counterpart S x threshold score score').counterpart S x threshold score' score).range⟩ := rfl
    _ = ρ := by rw [hrange, hr]

/-- A score that is not below the threshold. -/
structure Provable (threshold score : ℤ) : Prop where
  threshold_nonneg : 0 ≤ threshold
  le : threshold ≤ score
  score_le : score ≤ 100

theorem Provable.delta (h : Provable threshold score) :
    0 ≤ score - threshold ∧ score - threshold < 2 ^ NUM_BITS := by
  obtain ⟨h₀, hle, h₁⟩ := h
  have hbits : (2 : ℤ) ^ NUM_BITS = 128 := rfl
  omega

theorem prove_counterpart (hg : S.g = S.h ^ x) (py : Reader) (hscore : Provable threshold score)
    (hscore' : Provable threshold score') (hρ : ρ.Drawn S.q) :
    ∃ out, prove S py score threshold ρ = .ok out ∧
      prove S py score' threshold (ρ.counterpart S x threshold score score') = .ok out := by
  set ρ' := ρ.counterpart S x threshold score score' with hρ'
  have hr : (ρ'.r : ℤ) = (ρ.r + x * (score - score')) % S.q := coe_shiftR ..
  have hcommit : S.pedersenCommit score' ρ'.r = S.pedersenCommit score ρ.r :=
    pedersenCommit_shiftR hg _ _ _
  have hrange : proveRange S labels ρ'.r (score' - threshold) NUM_BITS ρ'.range
      = proveRange S labels ρ.r (score - threshold) NUM_BITS ρ.range := by
    have hdelta : score - threshold - (score' - threshold) = score - score' := by ring
    rw [hr, ← hdelta]
    exact proveRange_shift hg hscore.delta hscore'.delta hρ.range ρ.r
  obtain ⟨bit_proofs, link_proof, hprove, -, -⟩ :=
    verifyRange_proveRange S py labels score threshold ρ.r NUM_BITS ρ.range
  have hone : ∀ (v : ℤ) (σ : Randomness), Provable threshold v →
      proveRange S labels σ.r (v - threshold) NUM_BITS σ.range = .ok (.list bit_proofs, link_proof) →
      prove S py v threshold σ = .ok (hex (S.pedersenCommit v σ.r), encode (.dict [("version", .int 2),
        ("commitment", .str (hex (S.pedersenCommit v σ.r))), ("threshold", .int threshold),
        ("bit_proofs", .list bit_proofs), ("link_proof", link_proof)])) := by
    intro v σ hv hσ
    obtain ⟨h₀, hle, h₁⟩ := hv
    have hcreate : createCommitment S v σ.r = .ok (hex (S.pedersenCommit v σ.r), hex σ.r) :=
      if_neg (by omega)
    rw [prove, hcreate]
    refine bind_eq_ok.mpr ⟨_, rfl, bind_eq_ok.mpr ⟨_, bind_eq_ok.mpr ⟨_, ?_, rfl⟩, rfl⟩⟩
    rw [generatePayload, if_neg (by omega), if_neg (by omega), if_neg (by omega), py.toIntHex_hex]
    exact bind_eq_ok.mpr ⟨σ.r, rfl, bind_eq_ok.mpr ⟨_, hσ, rfl⟩⟩
  refine ⟨_, hone score ρ hscore hprove, ?_⟩
  rw [hone score' ρ' hscore' (hrange.trans hprove), hcommit]

/-- The correspondence is one-to-one. -/
theorem counterpart_bijOn (hg : S.g = S.h ^ x) :
    Set.BijOn (Randomness.counterpart S x threshold score score') (Fair S x threshold score score')
      (Fair S x threshold score' score) := by
  refine Set.BijOn.mk (fun ρ hρ => ⟨hρ.2, ?_⟩) (fun ρ hρ σ hσ heq => ?_) fun ρ hρ => ?_
  · rw [counterpart_counterpart hg hρ.1]
    exact hρ.1
  · have hback := congrArg (Randomness.counterpart S x threshold score' score) heq
    rwa [counterpart_counterpart hg hρ.1, counterpart_counterpart hg hσ.1] at hback
  · refine ⟨ρ.counterpart S x threshold score' score, ⟨hρ.2, ?_⟩, counterpart_counterpart hg hρ.1⟩
    rw [counterpart_counterpart hg hρ.1]
    exact hρ.1

end Counterpart

variable [DecidableEq Γ]

/-- **Reputation proofs hide the score.** In a group that `h` generates, everything that is drawn for
`score` has a counterpart for `score'` with which the same is handed out. -/
theorem proof_hides (S : ProofParams Γ) (hh : ∀ y : Γ, y ∈ Subgroup.zpowers S.h) (py : Reader)
    (threshold : ℤ) :
    ∃ x : ℤ, S.g = S.h ^ x ∧ ∀ score score', Provable threshold score → Provable threshold score' →
      (∀ ρ ∈ Fair S x threshold score score', ∃ out, prove S py score threshold ρ = .ok out ∧
        prove S py score' threshold (ρ.counterpart S x threshold score score') = .ok out) ∧
      Set.BijOn (Randomness.counterpart S x threshold score score') (Fair S x threshold score score')
        (Fair S x threshold score' score) := by
  obtain ⟨x, hx⟩ := Subgroup.mem_zpowers_iff.mp (hh S.g)
  refine ⟨x, hx.symm, fun score score' hscore hscore' => ⟨fun ρ hρ => ?_, ?_⟩⟩
  · exact prove_counterpart hx.symm py hscore hscore' hρ.1
  · exact counterpart_bijOn hx.symm

/-! ### Scores of 70 and 50 -/

omit [DecidableEq Γ] in
theorem counterpart_congr (S : ProofParams Γ) {x x' : ℤ} (hx : x % S.q = x' % S.q)
    (threshold score score' : ℤ) (ρ : Randomness) :
    ρ.counterpart S x threshold score score' = ρ.counterpart S x' threshold score score' := by
  unfold Randomness.counterpart shiftR
  rw [emod_congr_log hx, RangeDraws.shift_congr hx]

def ones : Randomness where
  r := 5
  range := { blinding := fun i => i + 1, bit := fun _ => ⟨1, 2, 3⟩, link := 1 }

theorem eleven_log {x : ℤ} (hx : eleven.g = eleven.h ^ x) : x % eleven.q = 4 % eleven.q := by
  have hcases : ∀ n : Fin 11, eleven.g = eleven.h ^ (n : ℤ) → (n : ℤ) = 4 := by
    show ∀ n : Fin 11, (Multiplicative.ofAdd 1 : Multiplicative (ZMod 11))
      = Multiplicative.ofAdd 3 ^ (n : ℤ) → (n : ℤ) = 4
    decide
  have hmod : 0 ≤ x % 11 ∧ x % 11 < 11 := by omega
  have hpow := hcases ⟨(x % 11).toNat, by omega⟩
  rw [Int.toNat_of_nonneg hmod.1] at hpow
  refine hpow ?_
  rw [hx]
  exact (Schnorr.zpow_emod (eleven.pow_q eleven.h) x).symm

theorem proof_hides_seventy : ∃ x : ℤ, ones ∈ Fair eleven x 40 70 50 ∧ ∃ out,
    prove eleven Reader.plain 70 40 ones = .ok out ∧
      prove eleven Reader.plain 50 40 (ones.counterpart eleven x 40 70 50) = .ok out := by
  obtain ⟨x, hx, hhides⟩ := proof_hides eleven eleven_generator Reader.plain 40
  have hfair : ones ∈ Fair eleven x 40 70 50 := by
    refine ⟨by decide +kernel, ?_⟩
    rw [counterpart_congr eleven (eleven_log hx)]
    decide +kernel
  obtain ⟨hsame, -⟩ := hhides 70 50 ⟨by decide, by decide, by decide⟩ ⟨by decide, by decide, by decide⟩
  exact ⟨x, hfair, hsame ones hfair⟩

end Sthrip.ZKReputationService
