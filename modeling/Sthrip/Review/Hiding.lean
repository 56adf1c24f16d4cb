import Sthrip.RangeProof.Hiding
import Sthrip.Reputation.Hiding
import Sthrip.Review.Complete

set_option autoImplicit false

/-! # What a review proof gives away

The two range proofs of a payload are made for the numbers of another agent too, with other blindings
(`ReviewDraws.counterpart`). But the payload carries the blindings themselves, so it is made for another
agent iff its numbers are the same.
-/

namespace Sthrip.ReviewService

open Python Schnorr Pedersen
open ZKReputationService (eleven eleven_generator eleven_log)

variable {Γ : Type} [CommGroup Γ] {S : ProofParams Γ}

structure ReviewDraws.Drawn (q : ℕ) (draws : ReviewDraws) : Prop where
  r_reviews : Scalar q draws.r_reviews
  reviews : draws.reviews.Drawn q NUM_BITS_REVIEWS
  r_avg : Scalar q draws.r_avg
  avg : draws.avg.Drawn q NUM_BITS_AVG

instance (q : ℕ) (draws : ReviewDraws) : Decidable (draws.Drawn q) :=
  decidable_of_iff (Scalar q draws.r_reviews ∧ draws.reviews.Drawn q NUM_BITS_REVIEWS ∧
      Scalar q draws.r_avg ∧ draws.avg.Drawn q NUM_BITS_AVG)
    ⟨fun h => ⟨h.1, h.2.1, h.2.2.1, h.2.2.2⟩, fun h => ⟨h.r_reviews, h.reviews, h.r_avg, h.avg⟩⟩

/-- What is committed to: the number of reviews, and the average in hundredths. -/
def totalOf (row : Option AgentRatingSummary) : ℤ := (row.getD {}).total_reviews

def averageOf (F : Doubles) (row : Option AgentRatingSummary) : ℤ :=
  scaled F (F.fl (row.getD {}).avg_overall)

/-- What has to be drawn for `row'` instead of `row`; `x` is the logarithm of `g`. -/
def ReviewDraws.counterpart (S : ProofParams Γ) (F : Doubles) (x min_reviews : ℤ) (min_avg : ℚ)
    (row row' : Option AgentRatingSummary) (draws : ReviewDraws) : ReviewDraws where
  r_reviews := shiftR S.q x (totalOf row) (totalOf row') draws.r_reviews
  reviews := draws.reviews.shift S labels.bit x (totalOf row - min_reviews) (totalOf row' - min_reviews)
    NUM_BITS_REVIEWS
  r_avg := shiftR S.q x (averageOf F row) (averageOf F row') draws.r_avg
  avg := draws.avg.shift S labels.bit x (averageOf F row - scaled F min_avg)
    (averageOf F row' - scaled F min_avg) NUM_BITS_AVG

/-- Neither what is drawn nor its counterpart is zero. -/
def Fair (S : ProofParams Γ) (F : Doubles) (x min_reviews : ℤ) (min_avg : ℚ)
    (row row' : Option AgentRatingSummary) : Set ReviewDraws :=
  { draws | draws.Drawn S.q ∧ (draws.counterpart S F x min_reviews min_avg row row').Drawn S.q }

/-- The agent meets the thresholds, and the differences fit in their bits. -/
structure Provable (F : Doubles) (min_reviews : ℤ) (min_avg : ℚ) (row : Option AgentRatingSummary) :
    Prop where
  reviews : min_reviews ≤ totalOf row
  reviews_fit : totalOf row - min_reviews < 2 ^ NUM_BITS_REVIEWS
  avg : min_avg ≤ F.fl (row.getD {}).avg_overall
  avg_fit : averageOf F row - scaled F min_avg < 2 ^ NUM_BITS_AVG

/-- The numbers of the two agents that are committed to are the same. -/
structure SameNumbers (q : ℕ) (F : Doubles) (row row' : Option AgentRatingSummary) : Prop where
  reviews : totalOf row % q = totalOf row' % q
  avg : averageOf F row % q = averageOf F row' % q

/-! ## One range proof -/

section Range

variable {x value value' threshold : ℤ} {n r r' : ℕ} {draws draws' : RangeDraws}

/-- The same proof for a value that is the same mod `q`. -/
theorem generateRangeProof_shift [DecidableEq Γ] (hg : S.g = S.h ^ x)
    (hdelta : 0 ≤ value - threshold ∧ value - threshold < 2 ^ n)
    (hdelta' : 0 ≤ value' - threshold ∧ value' - threshold < 2 ^ n) (hr : Scalar S.q r)
    (hdraws : draws.Drawn S.q n) (hsame : value % S.q = value' % S.q) :
    generateRangeProof S value' threshold n (shiftR S.q x value value' r)
        (draws.shift S labels.bit x (value - threshold) (value' - threshold) n)
      = generateRangeProof S value threshold n r draws := by
  have hblinding : shiftR S.q x value value' r = r := by
    have hdvd : (S.q : ℤ) ∣ x * (value - value') := (Int.ModEq.dvd hsame.symm).mul_left x
    refine Int.ofNat_inj.mp ?_
    rw [coe_shiftR, Int.add_emod, Int.emod_eq_zero_of_dvd hdvd, add_zero, Int.emod_emod_of_dvd _ dvd_rfl,
      hr.emod]
  have hcommit := pedersenCommit_shiftR hg value value' r
  have hrange : proveRange S labels (shiftR S.q x value value' r) (value' - threshold) n
        (draws.shift S labels.bit x (value - threshold) (value' - threshold) n)
      = proveRange S labels r (value - threshold) n draws := by
    have hvalues : value - threshold - (value' - threshold) = value - value' := by ring
    rw [coe_shiftR, ← hvalues]
    exact proveRange_shift hg hdelta hdelta' hdraws r
  simp only [generateRangeProof, hrange, hcommit]
  rw [hblinding]

theorem hex_inj {m n : ℕ} (h : hex m = hex n) : m = n := by
  have hread := Reader.plain.int_hex m
  rw [h, Reader.plain.int_hex n] at hread
  exact_mod_cast (Option.some.inj hread).symm

/-- With the blinding in it, the proof determines the value. -/
theorem generateRangeProof_determines (hg : S.g ≠ 1) {p p' : RangeProof}
    (h : generateRangeProof S value threshold n r draws = .ok p)
    (h' : generateRangeProof S value' threshold n r' draws' = .ok p')
    (hcommitment : p.commitment = p'.commitment) (hblinding : p.blinding = p'.blinding) :
    value % S.q = value' % S.q := by
  obtain ⟨_, -, hp⟩ := bind_eq_ok.mp h
  obtain ⟨_, -, hp'⟩ := bind_eq_ok.mp h'
  cases hp
  cases hp'
  have hr : r = r' := hex_inj hblinding
  have hcommit : S.pedersenCommit value r = S.pedersenCommit value' r' := hex_inj hcommitment
  have hopen : S.g ^ value * S.h ^ (r : ℤ) = S.g ^ value' * S.h ^ (r' : ℤ) := by
    have := congrArg (fun c : ℕ => S.ofInt c) hcommit
    simpa only [ofInt_pedersenCommit, commit] using this
  rw [hr] at hopen
  have hpow : S.g ^ (value - value') = 1 := by
    rw [zpow_sub, mul_right_cancel hopen, mul_inv_cancel]
  have horder : orderOf S.g = S.q := orderOf_eq_prime (S.pow_q S.g) hg
  rw [← orderOf_dvd_iff_zpow_eq_one, horder] at hpow
  exact (Int.modEq_iff_dvd.mpr hpow).symm

end Range

/-! ## The payload -/

section Payload

variable {F : Doubles} {x min_reviews : ℤ} {min_avg : ℚ} {row row' : Option AgentRatingSummary}
  {draws draws' : ReviewDraws}

/-- The two range proofs of the payload. -/
theorem generatePayload_ok (hrow : Provable F min_reviews min_avg row) :
    generatePayload S F row min_reviews min_avg draws = (do
      let proof_reviews ← generateRangeProof S (totalOf row) min_reviews NUM_BITS_REVIEWS
        draws.r_reviews draws.reviews
      let proof_avg ← generateRangeProof S (averageOf F row) (scaled F min_avg) NUM_BITS_AVG
        draws.r_avg draws.avg
      pure (proof_reviews.commitment ++ ":" ++ proof_avg.commitment,
        payloadOf proof_reviews proof_avg min_reviews (scaled F min_avg))) := by
  have henough : ¬ ((row.getD {}).total_reviews : ℤ) < min_reviews := not_lt.mpr hrow.reviews
  have havg : ¬ F.fl (row.getD {}).avg_overall < min_avg := not_lt.mpr hrow.avg
  simp only [generatePayload, henough, havg, if_false]
  rfl

theorem Provable.average_nonneg (hrow : Provable F min_reviews min_avg row) :
    0 ≤ averageOf F row - scaled F min_avg :=
  sub_nonneg.mpr (scaled_mono hrow.avg)

/-- The same payload for the same numbers. -/
theorem generatePayload_counterpart [DecidableEq Γ] (hg : S.g = S.h ^ x)
    (hrow : Provable F min_reviews min_avg row) (hrow' : Provable F min_reviews min_avg row')
    (hdraws : draws.Drawn S.q) (hsame : SameNumbers S.q F row row') :
    generatePayload S F row' min_reviews min_avg (draws.counterpart S F x min_reviews min_avg row row')
      = generatePayload S F row min_reviews min_avg draws := by
  have hreviews := generateRangeProof_shift hg ⟨sub_nonneg.mpr hrow.reviews, hrow.reviews_fit⟩
    ⟨sub_nonneg.mpr hrow'.reviews, hrow'.reviews_fit⟩ hdraws.r_reviews hdraws.reviews hsame.reviews
  have havg := generateRangeProof_shift hg ⟨hrow.average_nonneg, hrow.avg_fit⟩
    ⟨hrow'.average_nonneg, hrow'.avg_fit⟩ hdraws.r_avg hdraws.avg hsame.avg
  rw [generatePayload_ok hrow, generatePayload_ok hrow']
  simp only [ReviewDraws.counterpart, hreviews, havg]

/-- The blindings that a payload carries. -/
theorem payloadOf_inj {p p' s s' : RangeProof} {m m' n n' : ℤ}
    (h : payloadOf p s m n = payloadOf p' s' m' n') :
    (p.commitment = p'.commitment ∧ p.blinding = p'.blinding) ∧
      s.commitment = s'.commitment ∧ s.blinding = s'.blinding := by
  simp only [payloadOf, RangeProof.dict, Value.dict.injEq, List.cons.injEq, Prod.mk.injEq,
    Value.str.injEq, true_and, and_true] at h
  obtain ⟨⟨hp, -⟩, ⟨hs, -⟩, hpc, hsc, -⟩ := h
  exact ⟨⟨hpc, hp⟩, hsc, hs⟩

/-- **A payload determines the numbers.** -/
theorem generatePayload_determines (hg : S.g ≠ 1) (hrow : Provable F min_reviews min_avg row)
    (hrow' : Provable F min_reviews min_avg row') {out : String × Value}
    (h : generatePayload S F row min_reviews min_avg draws = .ok out)
    (h' : generatePayload S F row' min_reviews min_avg draws' = .ok out) :
    SameNumbers S.q F row row' := by
  rw [generatePayload_ok hrow] at h
  rw [generatePayload_ok hrow'] at h'
  obtain ⟨p, hp, h⟩ := bind_eq_ok.mp h
  obtain ⟨s, hs, h⟩ := bind_eq_ok.mp h
  obtain ⟨p', hp', h'⟩ := bind_eq_ok.mp h'
  obtain ⟨s', hs', h'⟩ := bind_eq_ok.mp h'
  have hpayload := congrArg Prod.snd (Except.ok.inj (h.trans h'.symm))
  obtain ⟨⟨hpc, hpb⟩, hsc, hsb⟩ := payloadOf_inj hpayload
  constructor
  · exact generateRangeProof_determines hg hp hp' hpc hpb
  · exact generateRangeProof_determines hg hs hs' hsc hsb

theorem exists_payload [DecidableEq Γ] (S : ProofParams Γ) (hrow : Provable F min_reviews min_avg row)
    (draws : ReviewDraws) : ∃ out, generatePayload S F row min_reviews min_avg draws = .ok out := by
  obtain ⟨p, hp, -⟩ := generateRangeProof_verifies S Reader.plain (totalOf row) min_reviews
    NUM_BITS_REVIEWS draws.r_reviews draws.reviews
  obtain ⟨s, hs, -⟩ := generateRangeProof_verifies S Reader.plain (averageOf F row) (scaled F min_avg)
    NUM_BITS_AVG draws.r_avg draws.avg
  rw [generatePayload_ok hrow]
  exact ⟨_, bind_eq_ok.mpr ⟨p, hp, bind_eq_ok.mpr ⟨s, hs, rfl⟩⟩⟩

end Payload

/-- **What a review proof gives away.** The payload is made for another agent, with some choice of what is
drawn, iff the numbers of the two agents are the same mod `q`. -/
theorem payload_hides_iff [DecidableEq Γ] (S : ProofParams Γ) (hg : S.g ≠ 1)
    (hh : ∀ y : Γ, y ∈ Subgroup.zpowers S.h) (F : Doubles) (min_reviews : ℤ) (min_avg : ℚ) :
    ∃ x : ℤ, S.g = S.h ^ x ∧ ∀ row row', Provable F min_reviews min_avg row →
      Provable F min_reviews min_avg row' → ∀ draws ∈ Fair S F x min_reviews min_avg row row',
        ∃ out, generatePayload S F row min_reviews min_avg draws = .ok out ∧
          ((∃ draws', draws'.Drawn S.q ∧
              generatePayload S F row' min_reviews min_avg draws' = .ok out) ↔
            SameNumbers S.q F row row') := by
  obtain ⟨x, hx⟩ := Subgroup.mem_zpowers_iff.mp (hh S.g)
  refine ⟨x, hx.symm, fun row row' hrow hrow' draws hdraws => ?_⟩
  obtain ⟨out, hout⟩ := exists_payload S hrow draws
  refine ⟨out, hout, ?_, fun hsame => ?_⟩
  · rintro ⟨draws', -, hout'⟩
    exact generatePayload_determines hg hrow hrow' hout hout'
  · have hcounterpart := generatePayload_counterpart hx.symm hrow hrow' hdraws.1 hsame
    exact ⟨_, hdraws.2, hcounterpart.trans hout⟩

/-! ### Ten reviews and nine -/

def stars (n : ℕ) : Option AgentRatingSummary := some { total_reviews := n, avg_overall := 5 }

def tenDraws : ReviewDraws where
  r_reviews := 5
  reviews := { blinding := fun i => i % 3 + 1, bit := fun _ => ⟨1, 2, 3⟩, link := 1 }
  r_avg := 6
  avg := { blinding := fun i => i % 3 + 1, bit := fun _ => ⟨1, 2, 3⟩, link := 1 }

theorem ReviewDraws.counterpart_congr (S : ProofParams Γ) {x x' : ℤ} (hx : x % S.q = x' % S.q)
    (F : Doubles) (min_reviews : ℤ) (min_avg : ℚ) (row row' : Option AgentRatingSummary)
    (draws : ReviewDraws) :
    draws.counterpart S F x min_reviews min_avg row row'
      = draws.counterpart S F x' min_reviews min_avg row row' := by
  unfold ReviewDraws.counterpart shiftR
  rw [emod_congr_log hx, emod_congr_log hx, RangeDraws.shift_congr hx, RangeDraws.shift_congr hx]

theorem stars_provable {n : ℕ} (h : 1 ≤ n) (hfit : n ≤ 1024) : Provable exactDoubles 1 5 (stars n) := by
  have hbits : (2 : ℤ) ^ NUM_BITS_REVIEWS = 1024 := rfl
  have htotal : totalOf (stars n) = n := rfl
  refine ⟨by omega, by omega, le_refl (5 : ℚ), ?_⟩
  have havg : averageOf exactDoubles (stars n) - scaled exactDoubles 5 = 0 := sub_self _
  rw [havg]
  decide

theorem tenDraws_fair {x : ℤ} (hx : eleven.g = eleven.h ^ x) :
    tenDraws ∈ Fair eleven exactDoubles x 1 5 (stars 10) (stars 9) := by
  refine ⟨by decide +kernel, ?_⟩
  rw [ReviewDraws.counterpart_congr eleven (eleven_log hx)]
  decide +kernel

theorem eleven_g : eleven.g ≠ 1 := by
  show (Multiplicative.ofAdd 1 : Multiplicative (ZMod 11)) ≠ 1
  decide

theorem payload_hides_iff_ten : ∃ out,
    generatePayload eleven exactDoubles (stars 10) 1 5 tenDraws = .ok out ∧
      ((∃ draws', draws'.Drawn eleven.q ∧
          generatePayload eleven exactDoubles (stars 9) 1 5 draws' = .ok out) ↔
        SameNumbers eleven.q exactDoubles (stars 10) (stars 9)) := by
  obtain ⟨x, hx, hhides⟩ := payload_hides_iff eleven eleven_g eleven_generator
    exactDoubles 1 5
  exact hhides (stars 10) (stars 9) (stars_provable (by decide) (by decide))
    (stars_provable (by decide) (by decide)) tenDraws (tenDraws_fair hx)

/-- The payload for ten reviews cannot be made for nine. -/
theorem ten_reviews_seen : ∃ x : ℤ, eleven.g = eleven.h ^ x ∧
    Provable exactDoubles 1 5 (stars 10) ∧ Provable exactDoubles 1 5 (stars 9) ∧
    tenDraws ∈ Fair eleven exactDoubles x 1 5 (stars 10) (stars 9) ∧
    ∃ out, generatePayload eleven exactDoubles (stars 10) 1 5 tenDraws = .ok out ∧
      ¬ ∃ draws', draws'.Drawn eleven.q ∧
        generatePayload eleven exactDoubles (stars 9) 1 5 draws' = .ok out := by
  obtain ⟨x, hx⟩ := Subgroup.mem_zpowers_iff.mp (eleven_generator eleven.g)
  have hten : Provable exactDoubles 1 5 (stars 10) := stars_provable (by decide) (by decide)
  have hnine : Provable exactDoubles 1 5 (stars 9) := stars_provable (by decide) (by decide)
  obtain ⟨out, hout⟩ := exists_payload eleven hten tenDraws
  refine ⟨x, hx.symm, hten, hnine, tenDraws_fair hx.symm, out, hout, ?_⟩
  rintro ⟨draws', -, hout'⟩
  obtain ⟨hreviews, -⟩ := generatePayload_determines eleven_g hten hnine hout hout'
  have hdiffer : totalOf (stars 10) % eleven.q ≠ totalOf (stars 9) % eleven.q := by decide
  exact hdiffer hreviews

end Sthrip.ReviewService
