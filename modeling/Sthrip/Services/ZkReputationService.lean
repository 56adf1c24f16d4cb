import Sthrip.Services.RangeProof
import Sthrip.Bitcoin.Script
import Sthrip.RangeProof.Prover

set_option autoImplicit false

/-! # Reputation proofs

`sthrip/services/zk_reputation_service.py`: a proof that the score behind a commitment is at least some
threshold, handed out as a text, and its verifier.
-/

namespace Sthrip.ZKReputationService

open Python

variable {Γ : Type} [CommGroup Γ]

def labels : Labels where
  bit := "sigma-or-bit".toUTF8.data.toList
  link := "link-proof".toUTF8.data.toList

def NUM_BITS : ℕ := 7

/-- `r` is what is drawn. -/
def createCommitment (S : ProofParams Γ) (score : ℤ) (r : ℕ) : Py (String × String) :=
  if score < 0 ∨ 100 < score then .error (.ValueError "Score must be an integer between 0 and 100")
  else .ok (hex (S.pedersenCommit score r), hex r)

def generatePayload (S : ProofParams Γ) (py : Reader) (score : ℤ) (blinding : String) (threshold : ℤ)
    (draws : RangeDraws) : Py Value :=
  if score < 0 ∨ 100 < score then .error (.ValueError "Score must be an integer between 0 and 100")
  else if threshold < 0 ∨ 100 < threshold then
    .error (.ValueError "Threshold must be an integer between 0 and 100")
  else if score < threshold then
    .error (.ValueError s!"Score {score} is below threshold {threshold}")
  else do
    let r ← py.toIntHex (.str blinding)
    let (bit_proofs, link_proof) ← proveRange S labels r (score - threshold) NUM_BITS draws
    pure (.dict [("version", .int 2), ("commitment", .str (hex (S.pedersenCommit score r))),
      ("threshold", .int threshold), ("bit_proofs", bit_proofs), ("link_proof", link_proof)])

def generateProof (S : ProofParams Γ) (py : Reader) (score : ℤ) (blinding : String) (threshold : ℤ)
    (draws : RangeDraws) : Py String := do
  let payload ← generatePayload S py score blinding threshold draws
  pure (encode payload)

variable [DecidableEq Γ]

def verifyPayload (S : ProofParams Γ) (py : Reader) (commitment : String) (payload : Value)
    (threshold : ℤ) : Py Bool := do
  let version ← payload.get "version" .none
  if version.eqInt 2 = false then pure false
  else
    let committed ← payload.get "commitment" .none
    if committed.eqStr commitment = false then pure false
    else
      let claimed ← payload.get "threshold" .none
      if claimed.eqInt threshold = false then pure false
      else
        let c_val ← py.toIntHex (.str commitment)
        let bit_proofs ← payload.getItem "bit_proofs" >>= Value.items
        if bit_proofs.length ≠ NUM_BITS then pure false
        else verifyRange S py labels c_val threshold bit_proofs payload

/-- `loads` is `json.loads(base64.b64decode(proof))`. Whatever is raised means that the proof is not
accepted. -/
def verifyProof (S : ProofParams Γ) (py : Reader) (loads : String → Py Value) (commitment proof : String)
    (threshold : ℤ) : Bool :=
  match loads proof >>= fun payload => verifyPayload S py commitment payload threshold with
  | .ok valid => valid
  | .error _ => false

end Sthrip.ZKReputationService

/-! # Reputation proofs are complete -/

namespace Sthrip.ZKReputationService

open Python Pedersen

variable {Γ : Type} [CommGroup Γ]

/-- A difference that fits in seven bits is made up of them. -/
theorem zpow_bits (S : ProofParams Γ) {delta : ℤ} (h₀ : 0 ≤ delta) (h₁ : delta ≤ 100) :
    S.g ^ (delta - delta % 2 ^ NUM_BITS) = 1 := by
  have hlt : delta < 2 ^ NUM_BITS := by
    show delta < 2 ^ 7
    omega
  rw [Int.emod_eq_of_lt h₀ hlt, sub_self, zpow_zero]

variable [DecidableEq Γ]

/-- **Reputation proofs are complete.** For every group, hash, blinding and draws, the proof that is
generated for a score that is not below the threshold is accepted. -/
theorem proof_accepted (S : ProofParams Γ) (py : Reader) (loads : String → Py Value)
    {score threshold : ℤ} (h₀ : 0 ≤ threshold) (hle : threshold ≤ score) (h₁ : score ≤ 100) (r : ℕ)
    (draws : RangeDraws) :
    ∃ commitment blinding payload, createCommitment S score r = .ok (commitment, blinding) ∧
      generatePayload S py score blinding threshold draws = .ok payload ∧
      generateProof S py score blinding threshold draws = .ok (encode payload) ∧
      (loads (encode payload) = .ok payload →
        verifyProof S py loads commitment (encode payload) threshold = true) := by
  obtain ⟨bit_proofs, link_proof, hprove, hlength, hverify⟩ :=
    verifyRange_proveRange S py labels score threshold r NUM_BITS draws
  have hscore : ¬(score < 0 ∨ 100 < score) := by omega
  have hthreshold : ¬(threshold < 0 ∨ 100 < threshold) := by omega
  have hnot : ¬score < threshold := not_lt.mpr hle
  set payload : Value := .dict [("version", .int 2),
    ("commitment", .str (hex (S.pedersenCommit score r))), ("threshold", .int threshold),
    ("bit_proofs", .list bit_proofs), ("link_proof", link_proof)] with hpayload
  have hgenerate : generatePayload S py score (hex r) threshold draws = .ok payload := by
    rw [generatePayload, if_neg hscore, if_neg hthreshold, if_neg hnot, py.toIntHex_hex]
    exact bind_eq_ok.mpr ⟨r, rfl, bind_eq_ok.mpr ⟨_, hprove, rfl⟩⟩
  refine ⟨hex (S.pedersenCommit score r), hex r, payload, if_neg hscore, hgenerate, ?_, ?_⟩
  · rw [generateProof, hgenerate]
    rfl
  · intro hloads
    have hdelta : S.g ^ (score - threshold - (score - threshold) % 2 ^ NUM_BITS) = 1 :=
      zpow_bits S (by omega) (by omega)
    have hversion : payload.get "version" .none = .ok (.int 2) := rfl
    have hcommitment : payload.get "commitment" .none
      = .ok (.str (hex (S.pedersenCommit score r))) := rfl
    have hclaimed : payload.get "threshold" .none = .ok (.int threshold) := rfl
    have hbits : payload.getItem "bit_proofs" = .ok (.list bit_proofs) := rfl
    have haccept : verifyPayload S py (hex (S.pedersenCommit score r)) payload threshold = .ok true := by
      simp only [verifyPayload, hversion, hcommitment, hclaimed, hbits, py.toIntHex_hex, bind,
        Except.bind, Value.eqInt, Value.eqStr, Value.items, beq_self_eq_true, hlength, ne_eq,
        not_true_eq_false, Bool.true_eq_false, if_false]
      rw [hverify payload rfl, decide_eq_true hdelta]
    simp only [verifyProof, hloads, bind, Except.bind, haccept]

/-! ### A score of 70 -/

/-- The numbers mod 11 as a group of prime order, hashed with SHA-256. -/
def eleven : ProofParams (Multiplicative (ZMod 11)) :=
  have hprime : Nat.Prime 11 := by decide
  have hcard : Nat.card (Multiplicative (ZMod 11)) = 11 := Nat.card_zmod 11
  .ofCard hprime hcard (.ofAdd 1) (.ofAdd 3) (fun n => .ofAdd (n : ZMod 11)) (fun x => x.toAdd.val)
    (fun x => by simp) 1 (fun x => lt_of_lt_of_le (ZMod.val_lt x.toAdd) (by norm_num))
    fun m => (Bitcoin.sha256 m).foldl (fun n b => 256 * n + b.toNat) 0

def drawn : RangeDraws where
  blinding i := i
  bit i := ⟨i, 5, 0⟩
  link := 0

/-- The payload that is made for the threshold 40. -/
def payload70 : Value :=
  match generatePayload eleven Reader.plain 70 (hex 5) 40 drawn with
  | .ok payload => payload
  | .error _ => .none

def loads70 (proof : String) : Py Value :=
  if proof = encode payload70 then .ok payload70 else .error (.ValueError "Expecting value")

theorem proof_accepted_seventy : ∃ commitment blinding payload,
    createCommitment eleven 70 5 = .ok (commitment, blinding) ∧
      generateProof eleven Reader.plain 70 blinding 40 drawn = .ok (encode payload) ∧
      verifyProof eleven Reader.plain loads70 commitment (encode payload) 40 = true := by
  obtain ⟨commitment, blinding, payload, hcreate, hpayload, hgenerate, haccept⟩ :=
    proof_accepted eleven Reader.plain loads70 (show (0 : ℤ) ≤ 40 by decide)
      (show (40 : ℤ) ≤ 70 by decide) (show (70 : ℤ) ≤ 100 by decide) 5 drawn
  refine ⟨commitment, blinding, payload, hcreate, hgenerate, haccept ?_⟩
  obtain rfl : hex 5 = blinding := by
    have hpair := hcreate
    rw [createCommitment, if_neg (by decide)] at hpair
    exact (Prod.mk.inj (Except.ok.inj hpair)).2
  have h70 : payload70 = payload := by rw [payload70, hpayload]
  rw [loads70, h70, if_pos rfl]

end Sthrip.ZKReputationService
