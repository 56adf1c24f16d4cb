import Mathlib.Tactic.NormNum.Prime
import Sthrip.Bitcoin.Script
import Sthrip.RangeProof.Prover
import Sthrip.Services.ReviewService

set_option autoImplicit false

/-! # When a review proof is accepted

The proof that is generated for an agent is accepted iff the surplus of reviews fits in ten bits. The
average always does.
-/

namespace Sthrip.ReviewService

open Python Txn Pedersen

variable {Γ : Type} [CommGroup Γ] {F : Doubles}

/-! ## Averages -/

theorem scaled_mono {x y : ℚ} (h : x ≤ y) : scaled F x ≤ scaled F y :=
  roundHalfEven_mono (F.fl_mono (by linarith))

theorem scaled_intCast {n : ℤ} (h₀ : 0 ≤ n) (h₁ : n ≤ 5) : scaled F n = n * 100 := by
  have hfl : F.fl ((n * 100 : ℤ) : ℚ) = ((n * 100 : ℤ) : ℚ) := F.fl_int _ (by omega) (by omega)
  rw [scaled, ← roundHalfEven_intCast (n * 100), ← hfl]
  push_cast
  rfl

/-- Stored averages are between the lowest and the highest rating. -/
theorem storedAverage_le_five {vals : List ℤ} (h : ∀ v ∈ vals, 1 ≤ v ∧ v ≤ 5) :
    storedAverage F vals ≤ 5 := by
  unfold storedAverage
  split
  · norm_num
  · next hne =>
      have hlength : (0 : ℚ) < (vals.length : ℕ) := by
        exact_mod_cast List.length_pos_iff.mpr hne
      have hone : (1 : ℤ) * vals.length ≤ vals.sum := by
        have := List.card_nsmul_le_sum vals 1 fun v hv => (h v hv).1
        simpa [mul_comm] using this
      have hfive : vals.sum ≤ (5 : ℤ) * vals.length := by
        have := List.sum_le_card_nsmul vals 5 fun v hv => (h v hv).2
        simpa [mul_comm] using this
      have hlow : (1 : ℚ) ≤ (vals.sum : ℤ) / (vals.length : ℕ) := by
        rw [le_div_iff₀ hlength]
        exact_mod_cast hone
      have hhigh : ((vals.sum : ℤ) / (vals.length : ℕ) : ℚ) ≤ 5 := by
        rw [div_le_iff₀ hlength]
        exact_mod_cast hfive
      have hfix (n : ℤ) (h₀ : 0 ≤ n) (h₁ : n ≤ 5) : F.decimal (F.fl n) = n := by
        rw [F.fl_int n h₀ (by omega), F.decimal_int n h₀ (by omega)]
      have hlow' : 1 ≤ F.decimal (F.fl ((vals.sum : ℤ) / (vals.length : ℕ))) := by
        have := F.decimal_mono (F.fl_mono hlow)
        have hone := hfix 1 (by omega) (by omega)
        push_cast at hone
        rwa [hone] at this
      have hhigh' : F.decimal (F.fl ((vals.sum : ℤ) / (vals.length : ℕ))) ≤ 5 := by
        have := F.decimal_mono (F.fl_mono hhigh)
        have hfive := hfix 5 (by omega) (by omega)
        push_cast at hfive
        rwa [hfive] at this
      have hmem : (5 : ℚ) ∈ decimals 2 := mem_decimals.mpr ⟨500, by norm_num⟩
      calc
        Columns.rounding 2 (F.decimal (F.fl ((vals.sum : ℤ) / (vals.length : ℕ))))
            ≤ Columns.rounding 2 5 := numeric_monotone 2 hhigh'
        _ = 5 := Columns.rounding_keeps 2 5 hmem

/-! ## Proofs and payloads -/

variable [DecidableEq Γ]

/-- What is made of the bit proofs `ps` and the link proof `l`. -/
def rangeProofOf (S : ProofParams Γ) (value threshold : ℤ) (r : ℕ) (ps : List OrProof) (l : LinkProof) :
    RangeProof where
  commitment := hex (S.pedersenCommit value r)
  blinding := hex r
  threshold := threshold
  bit_proofs := .list (ps.map OrProof.dict)
  link_proof := l.dict

section Made

variable {S : ProofParams Γ} {value threshold : ℤ} {n r : ℕ} {draws : RangeDraws} {ps : List OrProof}
  {l : LinkProof}

theorem generateRangeProof_made (h : Made S labels r (value - threshold) n draws ps l) :
    generateRangeProof S value threshold n r draws = .ok (rangeProofOf S value threshold r ps l) :=
  bind_eq_ok.mpr ⟨_, h.made, rfl⟩

theorem verifyRangeProof_made (h : Made S labels r (value - threshold) n draws ps l) (py : Reader) :
    verifyRangeProof S py (rangeProofOf S value threshold r ps l).commitment
        (rangeProofOf S value threshold r ps l).dict
      = decide (S.g ^ (value - threshold - (value - threshold) % 2 ^ n) = 1) := by
  set p := rangeProofOf S value threshold r ps l
  have hthreshold : (p.dict.getItem "threshold" >>= Value.index) = .ok threshold := rfl
  have hbits : (p.dict.getItem "bit_proofs" >>= Value.items) = .ok (ps.map OrProof.dict) := rfl
  have hc : py.toIntHex (.str p.commitment) = .ok _ := py.toIntHex_hex _
  have hlink : p.dict.getItem "link_proof" = .ok l.dict := rfl
  have hrange := h.verifyRange py hlink
  simp only [verifyRangeProof, hthreshold, hbits, hc]
  simp only [bind, Except.bind, hrange]

end Made

theorem generateRangeProof_verifies (S : ProofParams Γ) (py : Reader) (value threshold : ℤ) (n r : ℕ)
    (draws : RangeDraws) :
    ∃ p, generateRangeProof S value threshold n r draws = .ok p ∧
      verifyRangeProof S py p.commitment p.dict
        = decide (S.g ^ (value - threshold - (value - threshold) % 2 ^ n) = 1) := by
  obtain ⟨ps, l, h⟩ := exists_made S labels r (value - threshold) n draws
  exact ⟨_, generateRangeProof_made h, verifyRangeProof_made h py⟩

/-- The payload of two proofs is accepted for its own claims iff the proofs are. -/
theorem verifyPayload_payloadOf (S : ProofParams Γ) (py : Reader) (p p' : RangeProof) (min_reviews : ℤ)
    (min_avg : ℚ) :
    verifyPayload S py F (p.commitment ++ ":" ++ p'.commitment)
        (payloadOf p p' min_reviews (scaled F min_avg)) min_reviews min_avg
      = .ok (verifyRangeProof S py p.commitment p.dict
          && verifyRangeProof S py p'.commitment p'.dict) := by
  set payload := payloadOf p p' min_reviews (scaled F min_avg)
  have hversion : payload.get "version" .none = .ok (.int 1) := rfl
  have hreviews : payload.get "min_reviews" .none = .ok (.int min_reviews) := rfl
  have havg : payload.get "min_avg_scaled" .none = .ok (.int (scaled F min_avg)) := rfl
  have hc : payload.get "commitment_reviews" (.str "") = .ok (.str p.commitment) := rfl
  have hc' : payload.get "commitment_avg" (.str "") = .ok (.str p'.commitment) := rfl
  have hp : payload.getItem "proof_reviews" = .ok p.dict := rfl
  have hp' : payload.getItem "proof_avg" = .ok p'.dict := rfl
  simp only [verifyPayload, hversion, hreviews, havg, hc, hc', hp, hp', bind, Except.bind, Value.eqInt,
    beq_self_eq_true, Bool.true_eq_false, if_false, ne_eq, not_true_eq_false]
  cases verifyRangeProof S py p.commitment p.dict with
  | false => rfl
  | true => rfl

/-! ## Surpluses -/

omit [DecidableEq Γ] in
/-- What the bits leave out is invisible iff there is nothing of it. -/
theorem zpow_bits_iff (S : ProofParams Γ) (hg : S.g ≠ 1) {delta : ℤ} {n : ℕ} (h₀ : 0 ≤ delta)
    (hlt : delta < S.q) : S.g ^ (delta - delta % 2 ^ n) = 1 ↔ delta < 2 ^ n := by
  have horder : orderOf S.g = S.q := orderOf_eq_prime (S.pow_q S.g) hg
  have hpow : (0 : ℤ) < 2 ^ n := by positivity
  have hmod := Int.emod_nonneg delta hpow.ne'
  have hmod' := Int.emod_lt_of_pos delta hpow
  rw [← orderOf_dvd_iff_zpow_eq_one, horder]
  constructor
  · intro hdvd
    by_contra hge
    have hpos : 0 < delta - delta % 2 ^ n := by
      rw [not_lt] at hge
      omega
    have hle := Int.le_of_dvd hpos hdvd
    omega
  · intro hfit
    rw [Int.emod_eq_of_lt h₀ hfit, sub_self]
    exact dvd_zero _

/-! ## The whole proof -/

/-- The agent has the reviews and the average that are asked for. -/
structure Satisfies (reviews : List AgentReview) (min_reviews : ℤ) (min_avg : ℚ) : Prop where
  count : min_reviews ≤ reviews.length
  average : min_avg * reviews.length ≤ (reviews.map AgentReview.overall_rating).sum

/-- What the API admits. -/
structure Admitted (min_reviews : ℤ) (min_avg : ℚ) : Prop where
  reviews : 1 ≤ min_reviews ∧ min_reviews ≤ 1000
  average : 1 ≤ min_avg ∧ min_avg ≤ 5

/-- The proof is generated, and accepted with the same thresholds. -/
def Accepted (S : ProofParams Γ) (py : Reader) (F : Doubles) (loads : String → Py Value)
    (row : Option AgentRatingSummary) (min_reviews : ℤ) (min_avg : ℚ) (draws : ReviewDraws) : Prop :=
  ∃ out, generateReviewProof S F row min_reviews min_avg draws = .ok out ∧
    verifyReviewProof S py F loads out.commitment out.proof min_reviews min_avg = true

/-- `loads` reads the payload that is generated. -/
def Reads (S : ProofParams Γ) (F : Doubles) (loads : String → Py Value) (row : Option AgentRatingSummary)
    (min_reviews : ℤ) (min_avg : ℚ) (draws : ReviewDraws) : Prop :=
  ∀ commitment payload, generatePayload S F row min_reviews min_avg draws = .ok (commitment, payload) →
    loads (encode payload) = .ok payload

omit [DecidableEq Γ] in
/-- The average of a summary whose rating is at most five fits in its bits. -/
theorem avg_fits (S : ProofParams Γ) {x y : ℚ} (h₁ : 1 ≤ x) (hle : x ≤ y) (h₅ : y ≤ 5) :
    S.g ^ (scaled F y - scaled F x - (scaled F y - scaled F x) % 2 ^ NUM_BITS_AVG) = 1 := by
  have hmono := scaled_mono (F := F) hle
  have hlow : (1 : ℤ) * 100 ≤ scaled F x := by
    rw [← scaled_intCast (F := F) (by omega) (by omega)]
    exact scaled_mono (by exact_mod_cast h₁)
  have hhigh : scaled F y ≤ 5 * 100 := by
    rw [← scaled_intCast (F := F) (by omega) (by omega)]
    exact scaled_mono (by exact_mod_cast h₅)
  have hfit : scaled F y - scaled F x < 2 ^ NUM_BITS_AVG := by
    show _ < 2 ^ 10
    omega
  rw [Int.emod_eq_of_lt (by omega) hfit, sub_self, zpow_zero]

/-- A proof that is generated is accepted iff the surplus of reviews fits in its bits. -/
theorem generateReviewProof_verifies (S : ProofParams Γ) (hg : S.g ≠ 1) (py : Reader)
    {loads : String → Py Value} {row : AgentRatingSummary} {min_reviews : ℤ} {min_avg : ℚ}
    {draws : ReviewDraws} (hreads : Reads S F loads (some row) min_reviews min_avg draws)
    (hadmitted : Admitted min_reviews min_avg) (hcount : row.total_reviews < S.q)
    (henough : min_reviews ≤ row.total_reviews) (havg : min_avg ≤ F.fl row.avg_overall)
    (hfive : F.fl row.avg_overall ≤ 5) :
    ∃ out, generateReviewProof S F (some row) min_reviews min_avg draws = .ok out ∧
      (verifyReviewProof S py F loads out.commitment out.proof min_reviews min_avg = true ↔
        row.total_reviews - min_reviews < 1024) := by
  obtain ⟨p, hp, hverify⟩ := generateRangeProof_verifies S py
    row.total_reviews min_reviews NUM_BITS_REVIEWS draws.r_reviews draws.reviews
  obtain ⟨p', hp', hverify'⟩ := generateRangeProof_verifies S py
    (scaled F (F.fl row.avg_overall)) (scaled F min_avg) NUM_BITS_AVG draws.r_avg draws.avg
  have hgenerate : generatePayload S F (some row) min_reviews min_avg draws
      = .ok (p.commitment ++ ":" ++ p'.commitment, payloadOf p p' min_reviews (scaled F min_avg)) := by
    rw [generatePayload]
    simp only [Option.getD_some]
    rw [if_neg (not_lt.mpr henough), if_neg (not_lt.mpr havg), hp, hp']
    rfl
  refine ⟨⟨p.commitment ++ ":" ++ p'.commitment, encode (payloadOf p p' min_reviews (scaled F min_avg)),
    min_reviews, min_avg⟩, ?_, ?_⟩
  · rw [generateReviewProof, hgenerate]
    rfl
  · have havg_fits := avg_fits (F := F) S hadmitted.average.1 havg hfive
    have hpos := hadmitted.reviews.1
    have hsurplus : S.g ^ (row.total_reviews - min_reviews
          - (row.total_reviews - min_reviews) % 2 ^ NUM_BITS_REVIEWS) = 1 ↔
        row.total_reviews - min_reviews < 2 ^ NUM_BITS_REVIEWS :=
      zpow_bits_iff S hg (by omega) (by omega)
    simp only [verifyReviewProof, hreads _ _ hgenerate, bind, Except.bind, verifyPayload_payloadOf,
      hverify, hverify', havg_fits, decide_true, Bool.and_true, decide_eq_true_eq]
    exact hsurplus

/-- **When a review proof is accepted.** -/
theorem reviewProof_accepted_iff (S : ProofParams Γ) (hg : S.g ≠ 1) (py : Reader) (F : Doubles)
    (loads : String → Py Value) {reviews : List AgentReview}
    (hratings : ∀ r ∈ reviews, 1 ≤ r.overall_rating ∧ r.overall_rating ≤ 5)
    (hcount : reviews.length < S.q) {min_reviews : ℤ} {min_avg : ℚ}
    (hadmitted : Admitted min_reviews min_avg) (hsat : Satisfies reviews min_reviews min_avg)
    (draws : ReviewDraws) :
    let summary := ReviewRepository.updateRatingSummary F reviews
    Reads S F loads (some summary) min_reviews min_avg draws →
      (Accepted S py F loads (some summary) min_reviews min_avg draws ↔
        reviews.length - min_reviews < 1024 ∧ min_avg ≤ F.fl summary.avg_overall) := by
  intro summary hreads
  have hfive : F.fl summary.avg_overall ≤ 5 := by
    have hstored : summary.avg_overall ≤ 5 := by
      refine storedAverage_le_five fun v hv => ?_
      obtain ⟨r, hr, rfl⟩ := List.mem_map.mp hv
      exact hratings r hr
    have hfl : F.fl ((5 : ℤ) : ℚ) = ((5 : ℤ) : ℚ) := F.fl_int 5 (by omega) (by omega)
    have hmono := F.fl_mono hstored
    push_cast at hfl
    rwa [hfl] at hmono
  have henough : min_reviews ≤ summary.total_reviews := hsat.count
  by_cases havg : F.fl summary.avg_overall < min_avg
  · -- the summary's average is below what is asked for
    have hraise : ∃ e, generatePayload S F (some summary) min_reviews min_avg draws = .error e := by
      rw [generatePayload]
      simp only [Option.getD_some]
      rw [if_neg (not_lt.mpr henough), if_pos havg]
      exact ⟨_, rfl⟩
    obtain ⟨e, hraise⟩ := hraise
    constructor
    · rintro ⟨out, hout, -⟩
      rw [generateReviewProof, hraise] at hout
      cases hout
    · rintro ⟨-, hle⟩
      exact absurd havg (not_lt.mpr hle)
  · obtain ⟨out, hout, hverify⟩ := generateReviewProof_verifies S hg py hreads hadmitted hcount henough
      (not_lt.mp havg) hfive
    constructor
    · rintro ⟨out', hout', haccept⟩
      obtain rfl := Except.ok.inj (hout.symm.trans hout')
      exact ⟨hverify.mp haccept, not_lt.mp havg⟩
    · rintro ⟨hlt, -⟩
      exact ⟨out, hout, hverify.mpr hlt⟩

/-! ### Five stars -/

theorem prime_2003 : Nat.Prime 2003 := by norm_num

/-- The numbers mod 2003 as a group of prime order, hashed with SHA-256. -/
def order2003 : ProofParams (Multiplicative (ZMod 2003)) :=
  have hcard : Nat.card (Multiplicative (ZMod 2003)) = 2003 := Nat.card_zmod 2003
  .ofCard prime_2003 hcard (.ofAdd 1) (.ofAdd ((3 : ℕ) : ZMod 2003)) (fun n => .ofAdd (n : ZMod 2003))
    (fun x => x.toAdd.val) (fun x => by simp) 2 (fun x => lt_of_lt_of_le (ZMod.val_lt x.toAdd) (by norm_num))
    fun m => (Bitcoin.sha256 m).foldl (fun n b => 256 * n + b.toNat) 0

/-- On whole numbers of this size, doubles are exact. -/
def exactDoubles : Doubles where
  fl x := x
  decimal x := x
  fl_mono := monotone_id
  decimal_mono := monotone_id
  fl_int _ _ _ := rfl
  decimal_int _ _ _ := rfl

def fiveStars (n : ℕ) : List AgentReview := List.replicate n ⟨5, none, none, none, 0⟩

def reviewDrawn : ReviewDraws where
  r_reviews := 7
  reviews := ⟨fun i => i, fun i => ⟨i, 5, 0⟩, 1⟩
  r_avg := 8
  avg := ⟨fun i => i, fun i => ⟨i, 5, 0⟩, 2⟩

/-- The payload that is made for `n` reviews of five stars. -/
def fivePayload (n : ℕ) : Value :=
  match generatePayload order2003 exactDoubles
    (some (ReviewRepository.updateRatingSummary exactDoubles (fiveStars n))) 1 5 reviewDrawn with
  | .ok (_, payload) => payload
  | .error _ => .none

def fiveLoads (n : ℕ) (proof : String) : Py Value :=
  if proof = encode (fivePayload n) then .ok (fivePayload n) else .error (.ValueError "Expecting value")

theorem fiveStars_overall (n : ℕ) : ∀ r ∈ fiveStars n, r.overall_rating = 5 := by
  intro r hr
  rw [List.eq_of_mem_replicate hr]

theorem fiveStars_satisfies {n : ℕ} (h : 0 < n) : Satisfies (fiveStars n) 1 5 := by
  constructor
  · rw [fiveStars, List.length_replicate]
    omega
  · rw [fiveStars, List.map_replicate, List.sum_replicate, List.length_replicate]
    simp [mul_comm]

theorem fiveStars_average {n : ℕ} (h : 0 < n) :
    exactDoubles.fl (ReviewRepository.updateRatingSummary exactDoubles (fiveStars n)).avg_overall = 5 := by
  have hne : (List.replicate n (5 : ℤ)) ≠ [] := by simp [h.ne']
  have hn : (n : ℚ) ≠ 0 := by exact_mod_cast h.ne'
  have hmem : (5 : ℚ) ∈ decimals 2 := mem_decimals.mpr ⟨500, by norm_num⟩
  show storedAverage exactDoubles ((fiveStars n).map AgentReview.overall_rating) = 5
  rw [fiveStars, List.map_replicate, storedAverage, if_neg hne, List.sum_replicate, List.length_replicate]
  show Columns.rounding 2 (((n • (5 : ℤ) : ℤ) : ℚ) / (n : ℕ)) = 5
  rw [nsmul_eq_mul]
  push_cast
  rw [mul_div_cancel_left₀ _ hn]
  exact Columns.rounding_keeps 2 5 hmem

theorem fiveLoads_reads (n : ℕ) : Reads order2003 exactDoubles (fiveLoads n)
    (some (ReviewRepository.updateRatingSummary exactDoubles (fiveStars n))) 1 5 reviewDrawn := by
  intro commitment payload hpayload
  have heq : fivePayload n = payload := by rw [fivePayload, hpayload]
  rw [fiveLoads, heq, if_pos rfl]

theorem order2003_g : order2003.g ≠ 1 := by
  show Multiplicative.ofAdd (1 : ZMod 2003) ≠ 1
  decide

theorem reviewProof_accepted_iff_ten :
    Accepted order2003 Reader.plain exactDoubles (fiveLoads 10)
        (some (ReviewRepository.updateRatingSummary exactDoubles (fiveStars 10))) 1 5 reviewDrawn ↔
      (fiveStars 10).length - (1 : ℤ) < 1024 ∧
        5 ≤ exactDoubles.fl (ReviewRepository.updateRatingSummary exactDoubles (fiveStars 10)).avg_overall := by
  have hratings : ∀ r ∈ fiveStars 10, 1 ≤ r.overall_rating ∧ r.overall_rating ≤ 5 := by
    intro r hr
    have := fiveStars_overall 10 r hr
    omega
  have hcount : (fiveStars 10).length < order2003.q := by decide
  have hadmitted : Admitted 1 5 := ⟨by decide, by norm_num⟩
  exact reviewProof_accepted_iff order2003 order2003_g Reader.plain exactDoubles (fiveLoads 10) hratings
    hcount hadmitted (fiveStars_satisfies (by decide)) reviewDrawn (fiveLoads_reads 10)

/-- 1025 reviews of five stars do not prove that there is one. -/
theorem too_many_reviews :
    Satisfies (fiveStars 1025) 1 5 ∧ Admitted 1 5 ∧
      Reads order2003 exactDoubles (fiveLoads 1025)
        (some (ReviewRepository.updateRatingSummary exactDoubles (fiveStars 1025))) 1 5 reviewDrawn ∧
      ¬Accepted order2003 Reader.plain exactDoubles (fiveLoads 1025)
        (some (ReviewRepository.updateRatingSummary exactDoubles (fiveStars 1025))) 1 5 reviewDrawn := by
  have hadmitted : Admitted 1 5 := ⟨by decide, by norm_num⟩
  refine ⟨fiveStars_satisfies (by decide), hadmitted, fiveLoads_reads 1025, ?_⟩
  rintro ⟨out, hout, haccept⟩
  have hlength : (ReviewRepository.updateRatingSummary exactDoubles (fiveStars 1025)).total_reviews
      = 1025 := List.length_replicate
  have havg : exactDoubles.fl
      (ReviewRepository.updateRatingSummary exactDoubles (fiveStars 1025)).avg_overall = 5 :=
    fiveStars_average (by decide)
  obtain ⟨out', hout', hverify⟩ := generateReviewProof_verifies order2003 order2003_g Reader.plain
    (fiveLoads_reads 1025) hadmitted (by rw [hlength]; decide) (by rw [hlength]; decide) havg.ge havg.le
  obtain rfl := Except.ok.inj (hout.symm.trans hout')
  have hsurplus := hverify.mp haccept
  rw [hlength] at hsurplus
  omega

end Sthrip.ReviewService
