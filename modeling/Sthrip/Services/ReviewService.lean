import Sthrip.Services.RangeProof
import Sthrip.Txn.Numeric

set_option autoImplicit false

/-! # Review proofs

`sthrip/services/review_service.py`, with the summary of `sthrip/db/review_repo.py`: a proof that an agent
has some number of reviews and some average rating. Both are committed to, the average in hundredths,
each with a range proof of its own.
-/

namespace Sthrip

open Python Txn

/-- Floating point: the double next to a number, and the decimal that is written for it. -/
structure Doubles where
  fl : ℚ → ℚ
  decimal : ℚ → ℚ
  fl_mono : Monotone fl
  decimal_mono : Monotone decimal
  fl_int : ∀ n : ℤ, 0 ≤ n → n ≤ 2 ^ 53 → fl n = n
  decimal_int : ∀ n : ℤ, 0 ≤ n → n ≤ 2 ^ 53 → decimal n = n

structure AgentReview where
  overall_rating : ℤ
  speed_rating : Option ℤ := none
  quality_rating : Option ℤ := none
  reliability_rating : Option ℤ := none
  created_at : ℕ

structure AgentRatingSummary where
  total_reviews : ℕ := 0
  avg_overall : ℚ := 0
  avg_speed : ℚ := 0
  avg_quality : ℚ := 0
  avg_reliability : ℚ := 0
  five_star_count : ℕ := 0
  one_star_count : ℕ := 0
  last_review_at : Option ℕ := none

/-- The average of some ratings, as the column keeps it. -/
def storedAverage (F : Doubles) (vals : List ℤ) : ℚ :=
  if vals = [] then 0 else Columns.rounding 2 (F.decimal (F.fl ((vals.sum : ℤ) / (vals.length : ℕ))))

/-- The row for the reviews of an agent. -/
def ReviewRepository.updateRatingSummary (F : Doubles) (reviews : List AgentReview) :
    AgentRatingSummary where
  total_reviews := reviews.length
  avg_overall := storedAverage F (reviews.map AgentReview.overall_rating)
  avg_speed := storedAverage F (reviews.filterMap AgentReview.speed_rating)
  avg_quality := storedAverage F (reviews.filterMap AgentReview.quality_rating)
  avg_reliability := storedAverage F (reviews.filterMap AgentReview.reliability_rating)
  five_star_count := (reviews.filter fun r => r.overall_rating = 5).length
  one_star_count := (reviews.filter fun r => r.overall_rating = 1).length
  last_review_at := (reviews.map AgentReview.created_at).max?

namespace ReviewService

variable {Γ : Type} [CommGroup Γ]

def labels : Labels where
  bit := "review-sigma-or-bit".toUTF8.data.toList
  link := "review-link-proof".toUTF8.data.toList

def NUM_BITS_REVIEWS : ℕ := 10
def NUM_BITS_AVG : ℕ := 10

structure RangeProof where
  commitment : String
  blinding : String
  threshold : ℤ
  bit_proofs : Value
  link_proof : Value

def generateRangeProof (S : ProofParams Γ) (value threshold : ℤ) (num_bits r : ℕ) (draws : RangeDraws) :
    Py RangeProof := do
  let (bit_proofs, link_proof) ← proveRange S labels r (value - threshold) num_bits draws
  pure {
    commitment := hex (S.pedersenCommit value r)
    blinding := hex r
    threshold, bit_proofs, link_proof }

/-- All but the commitment. -/
def RangeProof.dict (p : RangeProof) : Value :=
  .dict [("blinding", .str p.blinding), ("threshold", .int p.threshold), ("bit_proofs", p.bit_proofs),
    ("link_proof", p.link_proof)]

/-- `round(x * 100)`. -/
def scaled (F : Doubles) (x : ℚ) : ℤ := roundHalfEven (F.fl (x * 100))

/-- `f"{x:.2f}"`, of what is not negative. -/
def fixed2 (x : ℚ) : String :=
  let n := (roundHalfEven (x * 100)).toNat
  toString (n / 100) ++ "." ++ Audit.padded 2 (n % 100)

structure ReviewDraws where
  r_reviews : ℕ
  reviews : RangeDraws
  r_avg : ℕ
  avg : RangeDraws

def payloadOf (proof_reviews proof_avg : RangeProof) (min_reviews min_avg_scaled : ℤ) : Value :=
  .dict [("version", .int 1), ("proof_reviews", proof_reviews.dict), ("proof_avg", proof_avg.dict),
    ("commitment_reviews", .str proof_reviews.commitment), ("commitment_avg", .str proof_avg.commitment),
    ("min_reviews", .int min_reviews), ("min_avg_scaled", .int min_avg_scaled)]

structure ReviewProof where
  commitment : String
  proof : String
  min_reviews : ℤ
  min_avg : ℚ

/-- The commitment and the payload. -/
def generatePayload (S : ProofParams Γ) (F : Doubles) (row : Option AgentRatingSummary) (min_reviews : ℤ)
    (min_avg : ℚ) (draws : ReviewDraws) : Py (String × Value) :=
  let summary := row.getD {}
  let total_reviews : ℤ := summary.total_reviews
  let avg_overall := F.fl summary.avg_overall
  if total_reviews < min_reviews then
    .error (.ValueError s!"Insufficient reviews: has {total_reviews}, needs {min_reviews}")
  else if avg_overall < min_avg then
    .error (.ValueError
      ("Average rating " ++ fixed2 avg_overall ++ " is below threshold " ++ fixed2 min_avg))
  else do
    let avg_scaled := scaled F avg_overall
    let min_avg_scaled := scaled F min_avg
    let proof_reviews ←
      generateRangeProof S total_reviews min_reviews NUM_BITS_REVIEWS draws.r_reviews draws.reviews
    let proof_avg ← generateRangeProof S avg_scaled min_avg_scaled NUM_BITS_AVG draws.r_avg draws.avg
    pure (proof_reviews.commitment ++ ":" ++ proof_avg.commitment,
      payloadOf proof_reviews proof_avg min_reviews min_avg_scaled)

def generateReviewProof (S : ProofParams Γ) (F : Doubles) (row : Option AgentRatingSummary)
    (min_reviews : ℤ) (min_avg : ℚ) (draws : ReviewDraws) : Py ReviewProof := do
  let (commitment, payload) ← generatePayload S F row min_reviews min_avg draws
  pure { commitment, proof := encode payload, min_reviews, min_avg }

variable [DecidableEq Γ]

/-- The threshold and the number of the bits are those of the proof itself. -/
def verifyRangeProof (S : ProofParams Γ) (py : Reader) (commitment_hex : String) (proof_data : Value) :
    Bool :=
  let valid : Py Bool := do
    let threshold ← proof_data.getItem "threshold" >>= Value.index
    let c_val ← py.toIntHex (.str commitment_hex)
    let bit_proofs ← proof_data.getItem "bit_proofs" >>= Value.items
    verifyRange S py labels c_val threshold bit_proofs proof_data
  match valid with
  | .ok valid => valid
  | .error _ => false

def verifyPayload (S : ProofParams Γ) (py : Reader) (F : Doubles) (commitment : String) (payload : Value)
    (min_reviews : ℤ) (min_avg : ℚ) : Py Bool := do
  let version ← payload.get "version" .none
  if version.eqInt 1 = false then pure false
  else
    let claimed_reviews ← payload.get "min_reviews" .none
    if claimed_reviews.eqInt min_reviews = false then pure false
    else
      let claimed_avg ← payload.get "min_avg_scaled" .none
      if claimed_avg.eqInt (scaled F min_avg) = false then pure false
      else
        let c_reviews ← payload.get "commitment_reviews" (.str "")
        let c_avg ← payload.get "commitment_avg" (.str "")
        match c_reviews, c_avg with
        | .str c_reviews, .str c_avg =>
            if c_reviews ++ ":" ++ c_avg ≠ commitment then pure false
            else
              let proof_reviews ← payload.getItem "proof_reviews"
              if verifyRangeProof S py c_reviews proof_reviews = false then pure false
              else
                let proof_avg ← payload.getItem "proof_avg"
                pure (verifyRangeProof S py c_avg proof_avg)
        -- what is not a text is no number in base 16
        | _, _ => pure false

/-- `loads` is `json.loads(base64.b64decode(proof))`. -/
def verifyReviewProof (S : ProofParams Γ) (py : Reader) (F : Doubles) (loads : String → Py Value)
    (commitment proof : String) (min_reviews : ℤ) (min_avg : ℚ) : Bool :=
  match loads proof >>= fun payload => verifyPayload S py F commitment payload min_reviews min_avg with
  | .ok valid => valid
  | .error _ => false

end ReviewService

end Sthrip
