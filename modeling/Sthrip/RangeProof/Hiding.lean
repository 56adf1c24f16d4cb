import Sthrip.RangeProof.Prover

set_option autoImplicit false

/-! # Range proofs hide the difference

A proof of a bit determines what was drawn for it, once the bit and the blinding are known
(`OrProof.draws`). So the same proof is made for the other bit, with a blinding that fits to the commitment
and other draws: the simulated side and the side that is proved change places. With the draws of all bits
shifted in this way (`RangeDraws.shift`) the proof of a range is made for any other difference.
-/

namespace Sthrip

open Python Schnorr Pedersen

variable {Γ : Type} [CommGroup Γ] {S : ProofParams Γ} {labels : Labels} {label : List UInt8}
  {b r : ℤ}

/-! ## What is drawn -/

/-- A random scalar. -/
def Scalar (q : ℕ) (n : ℤ) : Prop := 0 < n ∧ n < q

theorem Scalar.emod {q : ℕ} {n : ℤ} (h : Scalar q n) : n % q = n := Int.emod_eq_of_lt h.1.le h.2

structure OrDraws.Drawn (q : ℕ) (d : OrDraws) : Prop where
  c_sim : Scalar q d.c_sim
  s_sim : Scalar q d.s_sim
  k : Scalar q d.k

/-- What the proof of a range with `n` bits draws. -/
structure RangeDraws.Drawn (q n : ℕ) (draws : RangeDraws) : Prop where
  blinding : ∀ i < n, Scalar q (draws.blinding i)
  bit : ∀ i < n, (draws.bit i).Drawn q
  link : Scalar q draws.link

instance (q : ℕ) (n : ℤ) : Decidable (Scalar q n) := inferInstanceAs (Decidable (_ ∧ _))

instance (q : ℕ) (d : OrDraws) : Decidable (d.Drawn q) :=
  decidable_of_iff (Scalar q d.c_sim ∧ Scalar q d.s_sim ∧ Scalar q d.k)
    ⟨fun h => ⟨h.1, h.2.1, h.2.2⟩, fun h => ⟨h.c_sim, h.s_sim, h.k⟩⟩

instance (q n : ℕ) (draws : RangeDraws) : Decidable (draws.Drawn q n) :=
  decidable_of_iff ((∀ i < n, Scalar q (draws.blinding i)) ∧ (∀ i < n, (draws.bit i).Drawn q) ∧
      Scalar q draws.link)
    ⟨fun h => ⟨h.1, h.2.1, h.2.2⟩, fun h => ⟨h.blinding, h.bit, h.link⟩⟩

/-! ## One bit -/

/-- What is drawn to make the proof for the bit `b` with the blinding `r`. -/
def OrProof.draws (q : ℕ) (p : OrProof) (b r : ℤ) : OrDraws where
  c_sim := if b = 0 then p.c1 else p.c0
  s_sim := if b = 0 then p.s1 else p.s0
  k := if b = 0 then (p.s0 - p.c0 * r) % q else (p.s1 - p.c1 * r) % q

/-- The numbers of the proof are those of elements and those mod `q`. -/
structure OrProof.Reduced (S : ProofParams Γ) (p : OrProof) : Prop where
  A0 : (S.toInt (S.ofInt p.A0) : ℤ) = p.A0
  A1 : (S.toInt (S.ofInt p.A1) : ℤ) = p.A1
  c0 : p.c0 % S.q = p.c0
  c1 : p.c1 % S.q = p.c1
  s0 : p.s0 % S.q = p.s0
  s1 : p.s1 % S.q = p.s1

theorem toInt_ofInt_toInt (S : ProofParams Γ) (y : Γ) :
    (S.toInt (S.ofInt (S.toInt y)) : ℤ) = S.toInt y := by rw [S.ofInt_toInt]

theorem sigmaOrProve_reduced {D : ℤ} {d : OrDraws} {p : OrProof} (hd : d.Drawn S.q)
    (h : sigmaOrProve S label b r D d = .ok p) : p.Reduced S := by
  obtain ⟨c, -, hp⟩ := bind_eq_ok.mp h
  cases hp
  have hc : d.c_sim % S.q = d.c_sim := hd.c_sim.emod
  have hs : d.s_sim % S.q = d.s_sim := hd.s_sim.emod
  by_cases hb : b = 0
  · constructor <;> simp only [hb, if_true, toInt_ofInt_toInt, Int.emod_emod_of_dvd, dvd_refl, hc, hs]
  · constructor <;> simp only [hb, if_false, toInt_ofInt_toInt, Int.emod_emod_of_dvd, dvd_refl, hc, hs]

/-- The proof determines what was drawn. -/
theorem draws_sigmaOrProve {D : ℤ} {d : OrDraws} {p : OrProof} (hd : d.Drawn S.q)
    (h : sigmaOrProve S label b r D d = .ok p) : p.draws S.q b r = d := by
  obtain ⟨c, -, hp⟩ := bind_eq_ok.mp h
  cases hp
  have hk : ∀ t : ℤ, ((d.k + t) % S.q - t) % S.q = d.k := by
    intro t
    rw [Int.emod_sub_emod, add_sub_cancel_right, hd.k.emod]
  by_cases hb : b = 0
  · simp only [OrProof.draws, hb, if_true, hk]
  · simp only [OrProof.draws, hb, if_false, hk]

variable [DecidableEq Γ]

/-- **The same proof is made** for any bit and blinding that the commitment fits to. -/
theorem sigmaOrProve_draws {p : OrProof} (hb : b = 0 ∨ b = 1) (hD : p.D = S.pedersenCommit b r)
    (hp : p.Reduced S) (hcheck : p.check S label = .ok true) :
    sigmaOrProve S label b r (S.pedersenCommit b r) (p.draws S.q b r) = .ok p := by
  obtain ⟨c, hc, haccept⟩ := p.check_true hcheck
  have hh : S.h ^ S.q = 1 := S.pow_q S.h
  have hDΓ : S.ofInt p.D = commit S.g S.h b r := by rw [hD, ofInt_pedersenCommit]
  have hchallenge : (p.c0 + p.c1) % S.q = c := haccept.challenge
  have hreal : ∀ s t : ℤ, ((s - t) % S.q + t) % S.q = s % S.q := by
    intro s t
    rw [Int.emod_add_emod, sub_add_cancel]
  rw [← hD]
  rcases hb with rfl | rfl
  · -- the first side is proved
    have hlog : S.ofInt p.D = S.h ^ r := by rw [hDΓ, commit, zpow_zero, one_mul]
    have hA0 : S.h ^ ((p.s0 - p.c0 * r) % S.q) = S.ofInt p.A0 := haccept.zero.honest hh hlog
    have hA1 : S.h ^ p.s1 * (S.ofInt p.D * S.g⁻¹) ^ ((S.q : ℤ) - p.c1) = S.ofInt p.A1 :=
      haccept.one.simulated (S.pow_q _)
    have hc0 : (c - p.c1) % S.q = p.c0 := by
      rw [← hchallenge, Int.emod_sub_emod, add_sub_cancel_right, hp.c0]
    simp only [sigmaOrProve, OrProof.draws, if_true, hA0, hA1, hp.A0, hp.A1]
    refine bind_eq_ok.mpr ⟨c, hc, ?_⟩
    rw [hc0, hreal, hp.s0]
    rfl
  · -- the second side is proved
    have hlog : S.ofInt p.D * S.g⁻¹ = S.h ^ r := by
      rw [hDΓ, commit, zpow_one, mul_comm S.g, mul_inv_cancel_right]
    have hA1 : S.h ^ ((p.s1 - p.c1 * r) % S.q) = S.ofInt p.A1 := haccept.one.honest hh hlog
    have hA0 : S.h ^ p.s0 * S.ofInt p.D ^ ((S.q : ℤ) - p.c0) = S.ofInt p.A0 :=
      haccept.zero.simulated (S.pow_q _)
    have hc1 : (c - p.c0) % S.q = p.c1 := by
      rw [← hchallenge, Int.emod_sub_emod, add_sub_cancel_left, hp.c1]
    simp only [sigmaOrProve, OrProof.draws, one_ne_zero, if_false, hA0, hA1, hp.A0, hp.A1]
    refine bind_eq_ok.mpr ⟨c, hc, ?_⟩
    rw [hc1, hreal, hp.s1]
    rfl

omit [DecidableEq Γ] in
/-- The proof that is made for a bit. -/
def bitProof (S : ProofParams Γ) (label : List UInt8) (b r : ℤ) (d : OrDraws) : OrProof :=
  match sigmaOrProve S label b r (S.pedersenCommit b r) d with
  | .ok p => p
  | .error _ => ⟨0, 0, 0, 0, 0, 0, 0⟩

theorem sigmaOrProve_bitProof (S : ProofParams Γ) (label : List UInt8) (hb : b = 0 ∨ b = 1) (r : ℤ)
    (d : OrDraws) :
    sigmaOrProve S label b r (S.pedersenCommit b r) d = .ok (bitProof S label b r d) ∧
      (bitProof S label b r d).D = S.pedersenCommit b r ∧
      (bitProof S label b r d).check S label = .ok true := by
  obtain ⟨p, hprove, hD, hcheck⟩ := sigmaOrProve_checks S label hb r d
  have hp : bitProof S label b r d = p := by rw [bitProof, hprove]
  rw [hp]
  exact ⟨hprove, hD, hcheck⟩

/-- The proof for `b` with the blinding `r`, made for `b'` with the blinding `r'`. -/
theorem bitProof_draws {b' r' : ℤ} {d : OrDraws} (hb : b = 0 ∨ b = 1) (hb' : b' = 0 ∨ b' = 1)
    (hcommit : S.pedersenCommit b' r' = S.pedersenCommit b r) (hd : d.Drawn S.q) :
    bitProof S label b' r' ((bitProof S label b r d).draws S.q b' r') = bitProof S label b r d := by
  obtain ⟨hprove, hD, hcheck⟩ := sigmaOrProve_bitProof S label hb r d
  have hsame := sigmaOrProve_draws hb' (hD.trans (by rw [hcommit])) (sigmaOrProve_reduced hd hprove) hcheck
  rw [bitProof, hsame]

/-! ## The commitment -/

omit [DecidableEq Γ]

/-- The blinding with which a commitment is to `v'` instead of `v`; `x` is the logarithm of `g`. -/
def shiftR (q : ℕ) (x v v' : ℤ) (r : ℕ) : ℕ := ((r + x * (v - v')) % q).toNat

theorem coe_shiftR (S : ProofParams Γ) (x v v' : ℤ) (r : ℕ) :
    (shiftR S.q x v v' r : ℤ) = (r + x * (v - v')) % S.q :=
  Int.toNat_of_nonneg (Int.emod_nonneg _ (by exact_mod_cast S.prime.ne_zero))

theorem pedersenCommit_shiftR {x : ℤ} (hg : S.g = S.h ^ x) (v v' : ℤ) (r : ℕ) :
    S.pedersenCommit v' (shiftR S.q x v v' r) = S.pedersenCommit v r := by
  rw [coe_shiftR]
  exact congrArg S.toInt (commit_shift (S.pow_q S.h) hg _ _ _)

theorem shiftR_shiftR (S : ProofParams Γ) (x v v' : ℤ) {r : ℕ} (hr : Scalar S.q r) :
    shiftR S.q x v' v (shiftR S.q x v v' r) = r := by
  refine Int.ofNat_inj.mp ?_
  have hsum : (r : ℤ) + x * (v - v') + x * (v' - v) = r := by ring
  rw [coe_shiftR, coe_shiftR, Int.emod_add_emod, hsum, hr.emod]

/-- Only the class of the logarithm mod `q` matters. -/
theorem emod_congr_log {q : ℕ} {x x' : ℤ} (hx : x % q = x' % q) (a b : ℤ) :
    (a + x * b) % q = (a + x' * b) % q := by
  rw [Int.add_emod, Int.mul_emod, hx, ← Int.mul_emod, ← Int.add_emod]

/-! ## All the bits -/

/-- The bit at a place. -/
def bitAt (v : ℤ) (i : ℕ) : ℤ := v / 2 ^ i % 2

theorem bitAt_bit (v : ℤ) (i : ℕ) : bitAt v i = 0 ∨ bitAt v i = 1 := by
  unfold bitAt
  omega

/-- The blinding with which the commitment at place `i` is to the bit of `delta'`; `x` is the logarithm
of `g`. -/
def shiftBlinding (q : ℕ) (x delta delta' : ℤ) (draws : RangeDraws) (i : ℕ) : ℤ :=
  (draws.blinding i + x * (bitAt delta i - bitAt delta' i)) % q

/-- The draws that make for `delta'` what `draws` make for `delta`. -/
def RangeDraws.shift (S : ProofParams Γ) (label : List UInt8) (x delta delta' : ℤ) (n : ℕ)
    (draws : RangeDraws) : RangeDraws where
  blinding i := if i < n then shiftBlinding S.q x delta delta' draws i else draws.blinding i
  bit i :=
    if i < n then
      (bitProof S label (bitAt delta i) (draws.blinding i) (draws.bit i)).draws S.q (bitAt delta' i)
        (shiftBlinding S.q x delta delta' draws i)
    else draws.bit i
  link := draws.link

section Shift

variable {x delta delta' : ℤ} {n : ℕ} {draws : RangeDraws}

theorem shiftBlinding_commit (hg : S.g = S.h ^ x) (delta delta' : ℤ) (draws : RangeDraws) (i : ℕ) :
    S.pedersenCommit (bitAt delta' i) (shiftBlinding S.q x delta delta' draws i)
      = S.pedersenCommit (bitAt delta i) (draws.blinding i) :=
  congrArg S.toInt (commit_shift (S.pow_q S.h) hg _ _ _)

theorem shiftBlinding_back {q : ℕ} {i : ℕ} (h : Scalar q (draws.blinding i)) {draws' : RangeDraws}
    (h' : draws'.blinding i = shiftBlinding q x delta delta' draws i) :
    shiftBlinding q x delta' delta draws' i = draws.blinding i := by
  have hsum : draws.blinding i + x * (bitAt delta i - bitAt delta' i)
      + x * (bitAt delta' i - bitAt delta i) = draws.blinding i := by ring
  rw [shiftBlinding, h', shiftBlinding, Int.emod_add_emod, hsum, h.emod]

/-- The proofs of the bits are the same. -/
theorem proveBits_congr {draws' : RangeDraws} {b b' : ℕ → ℤ} {i m : ℕ}
    (h : ∀ j, i ≤ j → j < i + m →
      sigmaOrProve S labels.bit (b' j) (draws'.blinding j) (S.pedersenCommit (b' j) (draws'.blinding j))
          (draws'.bit j)
        = sigmaOrProve S labels.bit (b j) (draws.blinding j) (S.pedersenCommit (b j) (draws.blinding j))
          (draws.bit j)) :
    proveBits S labels draws' i ((List.range m).map fun j => b' (i + j))
      = proveBits S labels draws i ((List.range m).map fun j => b (i + j)) := by
  induction m generalizing i with
  | zero => rfl
  | succ m ih =>
      have htail : ∀ f : ℕ → ℤ, (List.range m).map ((fun j => f (i + j)) ∘ Nat.succ)
          = (List.range m).map fun j => f (i + 1 + j) := by
        intro f
        refine List.map_congr_left fun j _ => ?_
        show f (i + (j + 1)) = f (i + 1 + j)
        rw [Nat.add_assoc, Nat.add_comm 1 j]
      rw [List.range_succ_eq_map, List.map_cons, List.map_cons, List.map_map, List.map_map, htail, htail]
      have hhead := h i le_rfl (by omega)
      have hrest := ih (i := i + 1) fun j hj hj' => h j (by omega) (by omega)
      rw [proveBits, proveBits, Nat.add_zero, hhead, hrest]

variable [DecidableEq Γ]

/-- **The same proof of a range** is made for `delta'`, when the blinding of the commitment is shifted
too. -/
theorem proveRange_shift (hg : S.g = S.h ^ x) (hdelta : 0 ≤ delta ∧ delta < 2 ^ n)
    (hdelta' : 0 ≤ delta' ∧ delta' < 2 ^ n) (hdraws : draws.Drawn S.q n) (r : ℤ) :
    proveRange S labels ((r + x * (delta - delta')) % S.q) delta' n
        (draws.shift S labels.bit x delta delta' n)
      = proveRange S labels r delta n draws := by
  set draws' := draws.shift S labels.bit x delta delta' n with hdraws'
  have hbits : proveBits S labels draws' 0 (bitsOf delta' n)
      = proveBits S labels draws 0 (bitsOf delta n) := by
    have hsame : ∀ j, 0 ≤ j → j < 0 + n →
        sigmaOrProve S labels.bit (bitAt delta' j) (draws'.blinding j)
            (S.pedersenCommit (bitAt delta' j) (draws'.blinding j)) (draws'.bit j)
          = sigmaOrProve S labels.bit (bitAt delta j) (draws.blinding j)
            (S.pedersenCommit (bitAt delta j) (draws.blinding j)) (draws.bit j) := by
      intro j _ hj
      have hlt : j < n := by omega
      have hcommit := shiftBlinding_commit hg delta delta' draws j
      have hblinding : draws'.blinding j = shiftBlinding S.q x delta delta' draws j := if_pos hlt
      have hbit : draws'.bit j = (bitProof S labels.bit (bitAt delta j) (draws.blinding j)
          (draws.bit j)).draws S.q (bitAt delta' j) (shiftBlinding S.q x delta delta' draws j) :=
        if_pos hlt
      rw [hblinding, hbit, (sigmaOrProve_bitProof S labels.bit (bitAt_bit delta' j) _ _).1,
        bitProof_draws (bitAt_bit delta j) (bitAt_bit delta' j) hcommit (hdraws.bit j hlt),
        (sigmaOrProve_bitProof S labels.bit (bitAt_bit delta j) _ _).1]
    have hcongr := proveBits_congr hsame
    simp only [Nat.zero_add] at hcongr
    exact hcongr
  -- what the bits take from the blinding of the commitment is what was added to it
  have hlink : ((r + x * (delta - delta')) % S.q - weigh ((List.range n).map draws'.blinding) % S.q) % S.q
      = (r - weigh ((List.range n).map draws.blinding) % S.q) % S.q := by
    have hweigh : ∀ v : ℤ, 0 ≤ v ∧ v < 2 ^ n → weigh ((List.range n).map (bitAt v)) = v := by
      intro v hv
      exact (weigh_bits v n).trans (Int.emod_eq_of_lt hv.1 hv.2)
    have hsum : (weigh ((List.range n).map draws'.blinding) : ZMod S.q)
        = (weigh ((List.range n).map draws.blinding) + x * (delta - delta') : ℤ) := by
      rw [← hweigh delta hdelta, ← hweigh delta' hdelta', ← weigh_shift]
      refine weigh_congr fun i hi => ?_
      have hblinding : draws'.blinding i = shiftBlinding S.q x delta delta' draws i := if_pos hi
      rw [hblinding, shiftBlinding, ZMod.intCast_mod]
    rw [Int.emod_sub_emod, Int.sub_emod_emod, Int.sub_emod_emod]
    refine (ZMod.intCast_eq_intCast_iff' _ _ _).mp ?_
    rw [Int.cast_sub, hsum, ← Int.cast_sub]
    congr 1
    ring
  simp only [proveRange, hbits, rLink_eq, hlink]
  rfl

omit [DecidableEq Γ] in
theorem RangeDraws.shift_congr {x' : ℤ} (hx : x % S.q = x' % S.q) :
    draws.shift S label x delta delta' n = draws.shift S label x' delta delta' n := by
  have hshift : shiftBlinding S.q x = shiftBlinding S.q x' := by
    funext delta delta' draws i
    exact emod_congr_log hx _ _
  unfold RangeDraws.shift
  rw [hshift]

/-- **Shifting back** gives what was drawn. -/
theorem RangeDraws.shift_shift (hg : S.g = S.h ^ x) (hdraws : draws.Drawn S.q n) :
    (draws.shift S label x delta delta' n).shift S label x delta' delta n = draws := by
  set draws' := draws.shift S label x delta delta' n with hdraws'
  have hblinding : ∀ i < n, draws'.blinding i = shiftBlinding S.q x delta delta' draws i :=
    fun i hi => if_pos hi
  have hback : ∀ i < n, shiftBlinding S.q x delta' delta draws' i = draws.blinding i :=
    fun i hi => shiftBlinding_back (hdraws.blinding i hi) (hblinding i hi)
  have hbit : ∀ i < n, bitProof S label (bitAt delta' i) (draws'.blinding i) (draws'.bit i)
      = bitProof S label (bitAt delta i) (draws.blinding i) (draws.bit i) := by
    intro i hi
    have hbit' : draws'.bit i = (bitProof S label (bitAt delta i) (draws.blinding i)
        (draws.bit i)).draws S.q (bitAt delta' i) (shiftBlinding S.q x delta delta' draws i) := if_pos hi
    rw [hblinding i hi, hbit']
    exact bitProof_draws (bitAt_bit delta i) (bitAt_bit delta' i)
      (shiftBlinding_commit hg delta delta' draws i) (hdraws.bit i hi)
  have hb : (draws'.shift S label x delta' delta n).blinding = draws.blinding := by
    funext i
    by_cases hi : i < n
    · exact (if_pos hi).trans (hback i hi)
    · exact (if_neg hi).trans (if_neg hi)
  have hd : (draws'.shift S label x delta' delta n).bit = draws.bit := by
    funext i
    by_cases hi : i < n
    · refine (if_pos hi).trans ?_
      rw [hbit i hi, hback i hi]
      exact draws_sigmaOrProve (hdraws.bit i hi)
        (sigmaOrProve_bitProof S label (bitAt_bit delta i) _ _).1
    · exact (if_neg hi).trans (if_neg hi)
  calc
    draws'.shift S label x delta' delta n
        = ⟨(draws'.shift S label x delta' delta n).blinding,
          (draws'.shift S label x delta' delta n).bit, draws.link⟩ := rfl
    _ = draws := by rw [hb, hd]

end Shift

end Sthrip
