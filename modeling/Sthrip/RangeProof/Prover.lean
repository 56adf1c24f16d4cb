import Sthrip.RangeProof.Verifier

set_option autoImplicit false

/-! # What the prover of a range proof makes

Every bit proof checks, whatever is drawn. The link proof fits to the commitment iff the bits make up the
difference, which they do as long as it is below two to the power of their number.
-/

namespace Sthrip

open Python Schnorr Pedersen

variable {Γ : Type} [CommGroup Γ] {S : ProofParams Γ} {py : Reader} {labels : Labels}
  {label : List UInt8}

theorem ofInt_pedersenCommit (S : ProofParams Γ) (v r : ℤ) :
    S.ofInt (S.pedersenCommit v r) = commit S.g S.h v r := S.ofInt_toInt _

/-! ## The bits -/

theorem bitsOf_bit (v : ℤ) (n : ℕ) : ∀ b ∈ bitsOf v n, b = 0 ∨ b = 1 := by
  intro b hb
  simp only [bitsOf, List.mem_map] at hb
  obtain ⟨i, -, rfl⟩ := hb
  omega

theorem bitsOf_length (v : ℤ) (n : ℕ) : (bitsOf v n).length = n := by
  rw [bitsOf, List.length_map, List.length_range]

/-- The bits and what blinds them, from place `i` on. -/
def openings (draws : RangeDraws) : ℕ → List ℤ → List (ℤ × ℤ)
  | _, [] => []
  | i, b :: bits => (b, draws.blinding i) :: openings draws (i + 1) bits

theorem openings_fst (draws : RangeDraws) (i : ℕ) (bits : List ℤ) :
    (openings draws i bits).map Prod.fst = bits := by
  induction bits generalizing i with
  | nil => rfl
  | cons b bits ih => exact congrArg (b :: ·) (ih (i + 1))

theorem openings_snd (draws : RangeDraws) (i : ℕ) (bits : List ℤ) :
    (openings draws i bits).map Prod.snd
      = (List.range bits.length).map fun j => draws.blinding (i + j) := by
  induction bits generalizing i with
  | nil => rfl
  | cons b bits ih =>
      rw [openings, List.map_cons, ih, List.length_cons, List.range_succ_eq_map, List.map_cons,
        List.map_map]
      congr 1
      refine List.map_congr_left fun j _ => ?_
      show draws.blinding (i + 1 + j) = draws.blinding (i + (j + 1))
      rw [Nat.add_assoc, Nat.add_comm 1 j]

/-- The blinding that the prover computes for the link. -/
theorem rLink_eq (b : ℕ → ℤ) (q n : ℕ) :
    ((List.range n).map fun i => b i * (2 ^ i % q) % q).sum % q
      = weigh ((List.range n).map b) % q := by
  rw [weigh_range, ← ZMod.intCast_eq_intCast_iff']
  rw [intCast_sum, intCast_sum, List.map_map, List.map_map]
  congr 1
  refine List.map_congr_left fun i _ => ?_
  simp

/-! ## One bit -/

variable [DecidableEq Γ]

/-- **The proof of a bit checks**, whatever was drawn. -/
theorem sigmaOrProve_checks (S : ProofParams Γ) (label : List UInt8) {b : ℤ} (hb : b = 0 ∨ b = 1)
    (r : ℤ) (d : OrDraws) :
    ∃ p, sigmaOrProve S label b r (S.pedersenCommit b r) d = .ok p ∧ p.D = S.pedersenCommit b r ∧
      p.check S label = .ok true := by
  have hh : S.h ^ S.q = 1 := S.pow_q S.h
  rcases hb with rfl | rfl
  · -- the second side is simulated
    set D := commit S.g S.h 0 r with hD
    set A1 := S.h ^ d.s_sim * (D * S.g⁻¹) ^ ((S.q : ℤ) - d.c_sim)
    obtain ⟨c, hc⟩ := exists_fiatShamir S label [D, S.h ^ d.k, A1]
    have hlog : D = S.h ^ r := by rw [hD, commit, zpow_zero, one_mul]
    refine ⟨⟨S.toInt D, S.toInt (S.h ^ d.k), S.toInt A1, (c - d.c_sim) % S.q, d.c_sim,
      (d.k + (c - d.c_sim) % S.q * r) % S.q, d.s_sim⟩, ?_, rfl, ?_⟩
    · simp only [sigmaOrProve, if_true, ofInt_pedersenCommit]
      exact bind_eq_ok.mpr ⟨c, hc, rfl⟩
    · refine (OrProof.check_iff hc).mpr ⟨?_, ?_, ?_⟩
      · show ((c - d.c_sim) % S.q + d.c_sim) % S.q = c
        rw [Int.emod_add_emod, sub_add_cancel, fiatShamir_emod hc]
      · show Accepts S.h (S.ofInt (S.toInt D)) (S.ofInt (S.toInt _)) _ _
        rw [S.ofInt_toInt, S.ofInt_toInt]
        exact accepts_honest hh hlog d.k _
      · show Accepts S.h (S.ofInt (S.toInt D) * S.g⁻¹) (S.ofInt (S.toInt A1)) d.c_sim d.s_sim
        rw [S.ofInt_toInt, S.ofInt_toInt]
        exact accepts_simulated (S.pow_q _) d.c_sim d.s_sim
  · -- the first side is simulated
    set D := commit S.g S.h 1 r with hD
    set A0 := S.h ^ d.s_sim * D ^ ((S.q : ℤ) - d.c_sim)
    obtain ⟨c, hc⟩ := exists_fiatShamir S label [D, A0, S.h ^ d.k]
    have hlog : D * S.g⁻¹ = S.h ^ r := by
      rw [hD, commit, zpow_one, mul_comm S.g, mul_inv_cancel_right]
    refine ⟨⟨S.toInt D, S.toInt A0, S.toInt (S.h ^ d.k), d.c_sim, (c - d.c_sim) % S.q, d.s_sim,
      (d.k + (c - d.c_sim) % S.q * r) % S.q⟩, ?_, rfl, ?_⟩
    · simp only [sigmaOrProve, one_ne_zero, if_false, ofInt_pedersenCommit]
      exact bind_eq_ok.mpr ⟨c, hc, rfl⟩
    · refine (OrProof.check_iff hc).mpr ⟨?_, ?_, ?_⟩
      · show (d.c_sim + (c - d.c_sim) % S.q) % S.q = c
        rw [Int.add_emod_emod, add_sub_cancel, fiatShamir_emod hc]
      · show Accepts S.h (S.ofInt (S.toInt D)) (S.ofInt (S.toInt A0)) d.c_sim d.s_sim
        rw [S.ofInt_toInt, S.ofInt_toInt]
        exact accepts_simulated (S.pow_q _) d.c_sim d.s_sim
      · show Accepts S.h (S.ofInt (S.toInt D) * S.g⁻¹) (S.ofInt (S.toInt _)) _ _
        rw [S.ofInt_toInt, S.ofInt_toInt]
        exact accepts_honest hh hlog d.k _

/-- All the bits. -/
theorem proveBits_checks (S : ProofParams Γ) (labels : Labels) (draws : RangeDraws) {bits : List ℤ}
    (hbits : ∀ b ∈ bits, b = 0 ∨ b = 1) (i : ℕ) :
    ∃ ps, proveBits S labels draws i bits = .ok ps ∧ (∀ p ∈ ps, p.check S labels.bit = .ok true) ∧
      ps.map (fun p => S.ofInt p.D)
        = (openings draws i bits).map fun o => commit S.g S.h o.1 o.2 := by
  induction bits generalizing i with
  | nil => exact ⟨[], rfl, by simp, rfl⟩
  | cons b bits ih =>
      obtain ⟨p, hprove, hD, hcheck⟩ :=
        sigmaOrProve_checks S labels.bit (hbits b (List.mem_cons_self ..)) (draws.blinding i) (draws.bit i)
      obtain ⟨ps, hps, hchecks, hDs⟩ := ih (fun b' hb' => hbits b' (List.mem_cons_of_mem b hb')) (i + 1)
      refine ⟨p :: ps, ?_, ?_, ?_⟩
      · rw [proveBits, hprove]
        show (proveBits S labels draws (i + 1) bits >>= fun bit_proofs => pure (p :: bit_proofs)) = _
        rw [hps]
        rfl
      · intro p' hp'
        rcases List.mem_cons.mp hp' with rfl | hp'
        · exact hcheck
        · exact hchecks p' hp'
      · rw [openings, List.map_cons, List.map_cons, hDs, hD, ofInt_pedersenCommit]

/-! ## The range -/

theorem linkingProve_checks (S : ProofParams Γ) (label : List UInt8) (r k : ℤ) :
    ∃ l, linkingProve S label r (S.toInt (S.h ^ r)) k = .ok l ∧ l.T = S.toInt (S.h ^ r) ∧
      l.check S label = .ok true := by
  obtain ⟨c, hc⟩ := exists_fiatShamir S label [S.h ^ r, S.h ^ k]
  refine ⟨_, bind_eq_ok.mpr ⟨c, hc, rfl⟩, rfl, ?_⟩
  refine bind_eq_ok.mpr ⟨c, hc, congrArg Except.ok (decide_eq_true ?_)⟩
  show Accepts S.h (S.ofInt (S.toInt _)) (S.ofInt (S.toInt _)) c _
  rw [S.ofInt_toInt, S.ofInt_toInt]
  exact accepts_honest (S.pow_q S.h) rfl k c

/-- What the prover makes for the difference `delta`, `r` being the blinding of the commitment. -/
structure Made (S : ProofParams Γ) (labels : Labels) (r delta : ℤ) (n : ℕ) (draws : RangeDraws)
    (ps : List OrProof) (l : LinkProof) : Prop where
  made : proveRange S labels r delta n draws = .ok (.list (ps.map OrProof.dict), l.dict)
  bits : ∀ p ∈ ps, p.check S labels.bit = .ok true
  D : ps.map (fun p => S.ofInt p.D)
    = (openings draws 0 (bitsOf delta n)).map fun o => commit S.g S.h o.1 o.2
  link : l.check S labels.link = .ok true
  T : l.T = S.toInt (S.h ^ ((r - weigh ((List.range n).map draws.blinding) % S.q) % S.q))

theorem exists_made (S : ProofParams Γ) (labels : Labels) (r delta : ℤ) (n : ℕ) (draws : RangeDraws) :
    ∃ ps l, Made S labels r delta n draws ps l := by
  obtain ⟨ps, hps, hchecks, hDs⟩ := proveBits_checks S labels draws (bitsOf_bit delta n) 0
  set r_diff := (r - weigh ((List.range n).map draws.blinding) % S.q) % S.q with hr_diff
  obtain ⟨l, hl, hT, hcheck⟩ := linkingProve_checks S labels.link r_diff draws.link
  refine ⟨ps, l, ?_, hchecks, hDs, hcheck, hT⟩
  rw [proveRange, hps]
  simp only [rLink_eq]
  exact bind_eq_ok.mpr ⟨ps, rfl, bind_eq_ok.mpr ⟨l, hl, rfl⟩⟩

namespace Made

variable {r delta value threshold : ℤ} {n : ℕ} {draws : RangeDraws} {ps : List OrProof} {l : LinkProof}

theorem length (h : Made S labels r delta n draws ps l) : ps.length = n := by
  have hlength := congrArg List.length h.D
  rwa [List.length_map, List.length_map, ← List.length_map Prod.fst, openings_fst, bitsOf_length]
    at hlength

theorem prodPow_eq (h : Made S labels r delta n draws ps l) :
    prodPow (ps.map fun p => S.ofInt p.D)
      = commit S.g S.h (delta % 2 ^ n) (weigh ((List.range n).map draws.blinding)) := by
  rw [h.D, prodPow_commit, openings_fst, openings_snd, bitsOf_length, bitsOf, weigh_bits]
  simp only [Nat.zero_add]

/-- The proof is accepted iff `g` does not see what the bits leave out of the difference. -/
theorem verifyRange (h : Made S labels r (value - threshold) n draws ps l) (py : Reader)
    {payload : Value} (hpayload : payload.getItem "link_proof" = .ok l.dict) :
    verifyRange S py labels (S.pedersenCommit value r) threshold (ps.map OrProof.dict) payload
      = .ok (decide (S.g ^ (value - threshold - (value - threshold) % 2 ^ n) = 1)) := by
  set delta := value - threshold with hdelta
  set r_diff := (r - weigh ((List.range n).map draws.blinding) % S.q) % S.q with hr_diff
  have hread : List.Forall₂ (fun v p => (v.getItem "D" >>= py.toInt) = .ok (OrProof.D p))
      (ps.map OrProof.dict) ps := by
    rw [List.forall₂_map_left_iff]
    exact List.forall₂_same.mpr fun p _ => p.dict_D py
  -- the verifier's target
  have htarget : S.ofInt (S.pedersenCommit value r) * (S.g ^ threshold)⁻¹
        * (1 * prodPow (ps.map fun p => S.ofInt p.D) ^ 2 ^ 0)⁻¹
      = S.g ^ (delta - delta % 2 ^ n) * S.h ^ r_diff := by
    rw [ofInt_pedersenCommit, h.prodPow_eq, pow_zero, pow_one, one_mul, commit_div, hr_diff,
      zpow_emod (S.pow_q S.h), zpow_sub S.h, zpow_emod (S.pow_q S.h), ← zpow_sub]
    rfl
  have hagg := aggregate_eq (S := S) hread 0 1
  rw [Sthrip.verifyRange, verifyBits_dicts h.bits]
  simp only [bind, Except.bind, if_true, hagg, hpayload, l.dict_T, htarget]
  have hsame : (Value.str (toString l.T)).eqStr
        (toString (S.toInt (S.g ^ (delta - delta % 2 ^ n) * S.h ^ r_diff) : ℤ)) = true ↔
      S.g ^ (delta - delta % 2 ^ n) = 1 := by
    rw [Value.eqStr_iff, Value.str.injEq, h.T]
    constructor
    · intro h
      have hint := toString_inj py h
      have heq : S.h ^ r_diff = S.g ^ (delta - delta % 2 ^ n) * S.h ^ r_diff :=
        S.toInt_inj (by exact_mod_cast hint)
      exact right_eq_mul.mp heq
    · intro h
      rw [h, one_mul]
  by_cases hg : S.g ^ (delta - delta % 2 ^ n) = 1
  · rw [if_pos (hsame.mpr hg), linkingVerify_dict, h.link, decide_eq_true hg]
  · rw [if_neg (fun h' => hg (hsame.mp h')), decide_eq_false hg]
    rfl

end Made

/-- **The proof that is made is accepted** iff `g` does not see what the bits leave out of the
difference. -/
theorem verifyRange_proveRange (S : ProofParams Γ) (py : Reader) (labels : Labels)
    (value threshold r : ℤ) (n : ℕ) (draws : RangeDraws) :
    ∃ bit_proofs link_proof,
      proveRange S labels r (value - threshold) n draws = .ok (.list bit_proofs, link_proof) ∧
      bit_proofs.length = n ∧
      ∀ payload : Value, payload.getItem "link_proof" = .ok link_proof →
        verifyRange S py labels (S.pedersenCommit value r) threshold bit_proofs payload
          = .ok (decide (S.g ^ (value - threshold - (value - threshold) % 2 ^ n) = 1)) := by
  obtain ⟨ps, l, h⟩ := exists_made S labels r (value - threshold) n draws
  refine ⟨ps.map OrProof.dict, l.dict, h.made, ?_, fun payload hpayload => h.verifyRange py hpayload⟩
  rw [List.length_map, h.length]

end Sthrip
