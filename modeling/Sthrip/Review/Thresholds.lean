import Sthrip.Review.Complete

set_option autoImplicit false

/-! # What an accepted review proof says

The commitments are ideal here: a commitment has one value (`Ideal`), and the proofs about bits and about
links are only accepted when they are right (`Honest`). The verifier takes the threshold and the number of
bits from the proof itself, and compares neither with what the payload claims. So a claim is covered iff
these two cover it.
-/

namespace Sthrip.ReviewService

open Python Pedersen

variable {Γ : Type} [CommGroup Γ]

/-- Every element commits to one value. -/
structure Ideal (S : ProofParams Γ) where
  value : Γ → ZMod S.q
  value_mul : ∀ x y, value (x * y) = value x + value y
  value_g : value S.g = 1
  value_h : value S.h = 0

namespace Ideal

variable {S : ProofParams Γ} (V : Ideal S)

theorem value_one : V.value 1 = 0 := by
  have h := V.value_mul 1 1
  rw [mul_one] at h
  exact left_eq_add.mp h

theorem value_inv (x : Γ) : V.value x⁻¹ = -V.value x := by
  have h := V.value_mul x x⁻¹
  rw [mul_inv_cancel, V.value_one] at h
  exact (neg_eq_of_add_eq_zero_right h.symm).symm

theorem value_pow (x : Γ) (n : ℕ) : V.value (x ^ n) = n * V.value x := by
  induction n with
  | zero => rw [pow_zero, V.value_one, Nat.cast_zero, zero_mul]
  | succ n ih =>
      rw [pow_succ, V.value_mul, ih, Nat.cast_succ]
      ring

theorem value_zpow (x : Γ) (n : ℤ) : V.value (x ^ n) = n * V.value x := by
  cases n with
  | ofNat n => rw [Int.ofNat_eq_natCast, zpow_natCast, V.value_pow, Int.cast_natCast]
  | negSucc n =>
      rw [zpow_negSucc, V.value_inv, V.value_pow, Int.cast_negSucc]
      push_cast
      ring

theorem value_commit (v r : ℤ) : V.value (commit S.g S.h v r) = v := by
  rw [commit, V.value_mul, V.value_zpow, V.value_zpow, V.value_g, V.value_h, mul_one, mul_zero, add_zero]

/-- The value as a number. -/
def committed (x : Γ) : ℤ := (V.value x).val

theorem committed_commit (v r : ℤ) : V.committed (commit S.g S.h v r) = v % S.q := by
  rw [committed, V.value_commit, ZMod.val_intCast]

/-- Bits recombine. -/
theorem value_prodPow (Ds : List Γ) (h : ∀ D ∈ Ds, V.value D = 0 ∨ V.value D = 1) :
    ∃ s : ℤ, 0 ≤ s ∧ s < 2 ^ Ds.length ∧ V.value (prodPow Ds) = s := by
  induction Ds with
  | nil => exact ⟨0, le_refl 0, one_pos, by rw [prodPow, V.value_one, Int.cast_zero]⟩
  | cons D Ds ih =>
      obtain ⟨s, h₀, hlt, hs⟩ := ih fun D' hD' => h D' (List.mem_cons_of_mem D hD')
      have hpow : (2 : ℤ) ^ (D :: Ds).length = 2 * 2 ^ Ds.length := pow_succ' 2 Ds.length
      rcases h D (List.mem_cons_self ..) with hD | hD
      · refine ⟨2 * s, by omega, by omega, ?_⟩
        rw [prodPow, V.value_mul, V.value_pow, hs, hD]
        push_cast
        ring
      · refine ⟨1 + 2 * s, by omega, by omega, ?_⟩
        rw [prodPow, V.value_mul, V.value_pow, hs, hD]
        push_cast
        ring

end Ideal

/-! ## The parts of a payload -/

/-- One of the two proofs of a payload, as its verifier reads it. -/
structure Part where
  c_val : ℤ
  threshold : ℤ
  D : List ℤ
  T : ℤ

def readPart (py : Reader) (commitment_hex : Value) (proof_data : Value) : Py Part := do
  let c_val ← py.toIntHex commitment_hex
  let threshold ← proof_data.getItem "threshold" >>= Value.index
  let bit_proofs ← proof_data.getItem "bit_proofs" >>= Value.items
  let D ← bit_proofs.mapM fun bp => bp.getItem "D" >>= py.toInt
  let T ← proof_data.getItem "link_proof" >>= fun l => l.getItem "T" >>= py.toInt
  pure ⟨c_val, threshold, D, T⟩

/-- The proofs about the reviews and about the average. -/
def readParts (py : Reader) (payload : Value) : Py (Part × Part) := do
  let c_reviews ← payload.get "commitment_reviews" (.str "")
  let c_avg ← payload.get "commitment_avg" (.str "")
  let reviews ← payload.getItem "proof_reviews" >>= readPart py c_reviews
  let avg ← payload.getItem "proof_avg" >>= readPart py c_avg
  pure (reviews, avg)

/-- The proofs about the bits and the link are right. -/
structure Honest {S : ProofParams Γ} (V : Ideal S) (x : Part) : Prop where
  bits : ∀ D ∈ x.D, V.value (S.ofInt D) = 0 ∨ V.value (S.ofInt D) = 1
  link : V.value (S.ofInt x.T) = 0

/-- A claim of at least `claimed` is covered by a threshold and a number of bits. -/
def Covered (q : ℕ) (claimed threshold : ℤ) (bits : ℕ) : Prop :=
  claimed ≤ 0 ∨ claimed ≤ threshold % q ∧ threshold % q + 2 ^ bits ≤ q

/-- The claim is covered iff no sum of bits leads below it. -/
theorem covered_iff {q : ℕ} (hq : 0 < q) (claimed threshold : ℤ) (bits : ℕ) :
    Covered q claimed threshold bits ↔
      ∀ s : ℤ, 0 ≤ s → s < 2 ^ bits → claimed ≤ (threshold + s) % q := by
  have hpos : (0 : ℤ) < q := by exact_mod_cast hq
  have h₀ := Int.emod_nonneg threshold hpos.ne'
  constructor
  · rintro (hneg | ⟨hle, hfit⟩) s hs hlt
    · have := Int.emod_nonneg (threshold + s) hpos.ne'
      omega
    · have hsmall : (threshold + s) % q = threshold % q + s := by
        rw [← Int.emod_add_emod]
        exact Int.emod_eq_of_lt (by omega) (by omega)
      omega
  · intro h
    have hlow := h 0 (le_refl 0) (by positivity)
    rw [add_zero] at hlow
    by_cases hfit : threshold % q + 2 ^ bits ≤ q
    · exact Or.inr ⟨hlow, hfit⟩
    · -- the bits reach a multiple of `q`
      left
      have hlt := Int.emod_lt_of_pos threshold hpos
      have hwrap := h (q - threshold % q) (by omega) (by omega)
      have hzero : (threshold + (q - threshold % q)) % q = 0 := by
        rw [← Int.emod_add_emod, add_sub_cancel, Int.emod_self]
      rwa [hzero] at hwrap

variable [DecidableEq Γ] {S : ProofParams Γ} {py : Reader}

/-- **What a part of an accepted payload commits to**: its own threshold and some bits. -/
theorem readPart_of_verify {commitment_hex : String} {proof_data : Value}
    (haccept : verifyRangeProof S py commitment_hex proof_data = true) :
    ∃ x, readPart py (.str commitment_hex) proof_data = .ok x ∧ ∀ V : Ideal S, Honest V x →
      ∃ s : ℤ, 0 ≤ s ∧ s < 2 ^ x.D.length ∧ V.committed (S.ofInt x.c_val) = (x.threshold + s) % S.q := by
  have hsplit : ∃ threshold c_val bit_proofs,
      (proof_data.getItem "threshold" >>= Value.index) = .ok threshold ∧
      py.toIntHex (.str commitment_hex) = .ok c_val ∧
      (proof_data.getItem "bit_proofs" >>= Value.items) = .ok bit_proofs ∧
      verifyRange S py labels c_val threshold bit_proofs proof_data = .ok true := by
    simp only [verifyRangeProof] at haccept
    split at haccept
    · next valid hvalid =>
        subst haccept
        obtain ⟨threshold, hthreshold, hvalid⟩ := bind_eq_ok.mp hvalid
        obtain ⟨c_val, hc, hvalid⟩ := bind_eq_ok.mp hvalid
        obtain ⟨bit_proofs, hbits, hvalid⟩ := bind_eq_ok.mp hvalid
        exact ⟨threshold, c_val, bit_proofs, hthreshold, hc, hbits, hvalid⟩
    · cases haccept
  obtain ⟨threshold, c_val, bit_proofs, hthreshold, hc, hbits, hrange⟩ := hsplit
  obtain ⟨ps, l, hps, hlink⟩ := verifyRange_true hrange
  refine ⟨⟨c_val, threshold, ps.map OrProof.D, l.T⟩, ?_, fun V hhonest => ?_⟩
  · -- what is read is what was verified
    have hD : List.Forall₂ (fun v p => (v.getItem "D" >>= py.toInt) = .ok (OrProof.D p))
        bit_proofs ps := hps.imp fun _ _ hp => read_D hp.1
    obtain ⟨v, hv, hl⟩ := bind_eq_ok.mp hlink.read
    refine bind_eq_ok.mpr ⟨c_val, hc, bind_eq_ok.mpr ⟨threshold, hthreshold, ?_⟩⟩
    simp only [bind_eq_ok] at hbits ⊢
    obtain ⟨b, hb, hbits⟩ := hbits
    exact ⟨bit_proofs, ⟨b, hb, hbits⟩, _, mapM_eq_ok hD, l.T, ⟨v, hv, bind_eq_ok.mp (read_T hl)⟩, rfl⟩
  · have hDs : ∀ D ∈ ps.map fun p => S.ofInt p.D, V.value D = 0 ∨ V.value D = 1 := by
      intro D hD
      obtain ⟨p, hp, rfl⟩ := List.mem_map.mp hD
      exact hhonest.bits p.D (List.mem_map_of_mem hp)
    obtain ⟨s, h₀, hlt, hs⟩ := V.value_prodPow _ hDs
    rw [List.length_map] at hlt
    refine ⟨s, h₀, by rwa [List.length_map], ?_⟩
    have hleft : V.value (leftOver S (S.ofInt c_val) threshold ps) = 0 := by
      have hT := hhonest.link
      rwa [hlink.T, S.ofInt_toInt] at hT
    have hvalue : V.value (S.ofInt c_val) = ((threshold + s : ℤ) : ZMod S.q) := by
      rw [eq_mul_leftOver (S := S) (S.ofInt c_val) threshold ps, V.value_mul, V.value_mul, V.value_zpow,
        V.value_g, hs, hleft]
      push_cast
      ring
    rw [Ideal.committed, hvalue, ZMod.val_intCast]

/-- What an accepted payload consists of. -/
theorem verifyPayload_true {F : Doubles} {commitment : String} {payload : Value} {min_reviews : ℤ}
    {min_avg : ℚ} (h : verifyPayload S py F commitment payload min_reviews min_avg = .ok true) :
    ∃ c c' p p', payload.get "commitment_reviews" (.str "") = .ok (.str c) ∧
      payload.get "commitment_avg" (.str "") = .ok (.str c') ∧
      payload.getItem "proof_reviews" = .ok p ∧ payload.getItem "proof_avg" = .ok p' ∧
      verifyRangeProof S py c p = true ∧ verifyRangeProof S py c' p' = true := by
  simp only [verifyPayload, bind_eq_ok] at h
  obtain ⟨version, -, h⟩ := h
  split at h
  · cases h
  simp only [bind_eq_ok] at h
  obtain ⟨claimed_reviews, -, h⟩ := h
  split at h
  · cases h
  simp only [bind_eq_ok] at h
  obtain ⟨claimed_avg, -, h⟩ := h
  split at h
  · cases h
  simp only [bind_eq_ok] at h
  obtain ⟨c, hc, c', hc', h⟩ := h
  split at h
  · split at h
    · cases h
    simp only [bind_eq_ok] at h
    obtain ⟨p, hp, h⟩ := h
    split at h
    · cases h
    · next haccept =>
        simp only [bind_eq_ok] at h
        obtain ⟨p', hp', haccept'⟩ := h
        rw [Bool.not_eq_false] at haccept
        exact ⟨_, _, p, p', hc, hc', hp, hp', haccept, Except.ok.inj haccept'⟩
  · cases h

/-- An accepted payload has both parts, and what they commit to. -/
theorem readParts_of_accept {F : Doubles} {loads : String → Py Value} {commitment proof : String}
    {payload : Value} {min_reviews : ℤ} {min_avg : ℚ} (hloads : loads proof = .ok payload)
    (haccept : verifyReviewProof S py F loads commitment proof min_reviews min_avg = true) :
    ∃ x y, readParts py payload = .ok (x, y) ∧ ∀ V : Ideal S,
      (Honest V x → ∃ s : ℤ, 0 ≤ s ∧ s < 2 ^ x.D.length ∧
        V.committed (S.ofInt x.c_val) = (x.threshold + s) % S.q) ∧
      (Honest V y → ∃ s : ℤ, 0 ≤ s ∧ s < 2 ^ y.D.length ∧
        V.committed (S.ofInt y.c_val) = (y.threshold + s) % S.q) := by
  have hpayload : verifyPayload S py F commitment payload min_reviews min_avg = .ok true := by
    simp only [verifyReviewProof, hloads, bind, Except.bind] at haccept
    split at haccept
    · next valid hvalid => rw [hvalid, haccept]
    · cases haccept
  obtain ⟨c, c', p, p', hc, hc', hp, hp', hreviews, havg⟩ := verifyPayload_true hpayload
  obtain ⟨x, hx, hcommit⟩ := readPart_of_verify hreviews
  obtain ⟨y, hy, hcommit'⟩ := readPart_of_verify havg
  refine ⟨x, y, ?_, fun V => ⟨hcommit V, hcommit' V⟩⟩
  refine bind_eq_ok.mpr ⟨_, hc, bind_eq_ok.mpr ⟨_, hc', ?_⟩⟩
  have hleft := bind_eq_ok.mpr ⟨p, hp, hx⟩
  have hright := bind_eq_ok.mpr ⟨p', hp', hy⟩
  exact bind_eq_ok.mpr ⟨x, hleft, bind_eq_ok.mpr ⟨y, hright, rfl⟩⟩

/-! ## A payload with thresholds of its own -/

/-- A part that is made commits to its value, honestly. -/
theorem readPart_made (py : Reader) (V : Ideal S) {value threshold : ℤ} {n r : ℕ} {draws : RangeDraws}
    {ps : List OrProof} {l : LinkProof} (h : Made S labels r (value - threshold) n draws ps l) :
    ∃ x, readPart py (.str (rangeProofOf S value threshold r ps l).commitment)
        (rangeProofOf S value threshold r ps l).dict = .ok x ∧
      x.threshold = threshold ∧ x.D.length = n ∧ Honest V x ∧
      V.committed (S.ofInt x.c_val) = value % S.q := by
  set p := rangeProofOf S value threshold r ps l
  have hc : py.toIntHex (.str p.commitment) = .ok _ := py.toIntHex_hex _
  have hthreshold : (p.dict.getItem "threshold" >>= Value.index) = .ok threshold := rfl
  have hbits : (p.dict.getItem "bit_proofs" >>= Value.items) = .ok (ps.map OrProof.dict) := rfl
  have hD : List.Forall₂ (fun v p => (v.getItem "D" >>= py.toInt) = .ok (OrProof.D p))
      (ps.map OrProof.dict) ps := by
    rw [List.forall₂_map_left_iff]
    exact List.forall₂_same.mpr fun p _ => p.dict_D py
  have hT : (p.dict.getItem "link_proof" >>= fun v => v.getItem "T" >>= py.toInt) = .ok l.T :=
    py.toInt_str l.T
  refine ⟨⟨S.pedersenCommit value r, threshold, ps.map OrProof.D, l.T⟩, ?_, rfl, ?_, ⟨?_, ?_⟩, ?_⟩
  · refine bind_eq_ok.mpr ⟨_, hc, bind_eq_ok.mpr ⟨threshold, hthreshold, ?_⟩⟩
    refine bind_eq_ok.mpr ⟨_, hbits, bind_eq_ok.mpr ⟨_, mapM_eq_ok hD, ?_⟩⟩
    exact bind_eq_ok.mpr ⟨l.T, hT, rfl⟩
  · rw [List.length_map, h.length]
  · intro D hmem
    obtain ⟨p', hp', rfl⟩ := List.mem_map.mp hmem
    have hcommit : S.ofInt p'.D ∈ ps.map fun p => S.ofInt p.D := List.mem_map_of_mem hp'
    rw [h.D] at hcommit
    obtain ⟨o, ho, heq⟩ := List.mem_map.mp hcommit
    have hbit : o.1 ∈ bitsOf (value - threshold) n := by
      rw [← openings_fst draws 0 (bitsOf (value - threshold) n)]
      exact List.mem_map_of_mem ho
    rw [← heq, V.value_commit]
    rcases bitsOf_bit _ _ o.1 hbit with h₀ | h₁
    · exact Or.inl (by rw [h₀, Int.cast_zero])
    · exact Or.inr (by rw [h₁, Int.cast_one])
  · show V.value (S.ofInt l.T) = 0
    rw [h.T, S.ofInt_toInt, V.value_zpow, V.value_h, mul_zero]
  · show V.committed (S.ofInt (S.pedersenCommit value r : ℕ)) = _
    rw [ofInt_pedersenCommit, V.committed_commit]

/-- Two parts with any thresholds and numbers of bits are accepted for any claim. -/
theorem payload_accepted (py : Reader) (V : Ideal S) (F : Doubles) (min_reviews : ℤ) (min_avg : ℚ)
    (t t' : ℤ) (n n' : ℕ) {s s' : ℤ} (hs : 0 ≤ s ∧ s < 2 ^ n) (hs' : 0 ≤ s' ∧ s' < 2 ^ n') :
    ∃ commitment payload x y, readParts py payload = .ok (x, y) ∧
      (x.threshold = t ∧ x.D.length = n ∧ Honest V x ∧
        V.committed (S.ofInt x.c_val) = (t + s) % S.q) ∧
      (y.threshold = t' ∧ y.D.length = n' ∧ Honest V y ∧
        V.committed (S.ofInt y.c_val) = (t' + s') % S.q) ∧
      verifyPayload S py F commitment payload min_reviews min_avg = .ok true := by
  let draws : RangeDraws := ⟨fun _ => 0, fun _ => ⟨0, 0, 0⟩, 0⟩
  obtain ⟨ps, l, h⟩ := exists_made S labels (0 : ℕ) (t + s - t) n draws
  obtain ⟨ps', l', h'⟩ := exists_made S labels (0 : ℕ) (t' + s' - t') n' draws
  obtain ⟨x, hx, hpart⟩ := readPart_made py V h
  obtain ⟨y, hy, hpart'⟩ := readPart_made py V h'
  set p := rangeProofOf S (t + s) t 0 ps l
  set p' := rangeProofOf S (t' + s') t' 0 ps' l'
  refine ⟨p.commitment ++ ":" ++ p'.commitment, payloadOf p p' min_reviews (scaled F min_avg), x, y, ?_,
    hpart, hpart', ?_⟩
  · exact bind_eq_ok.mpr ⟨.str p.commitment, rfl, bind_eq_ok.mpr ⟨.str p'.commitment, rfl,
      bind_eq_ok.mpr ⟨x, hx, bind_eq_ok.mpr ⟨y, hy, rfl⟩⟩⟩⟩
  · -- the bits make up the differences
    have hfit : S.g ^ (t + s - t - (t + s - t) % 2 ^ n) = 1 := by
      rw [add_sub_cancel_left, Int.emod_eq_of_lt hs.1 hs.2, sub_self, zpow_zero]
    have hfit' : S.g ^ (t' + s' - t' - (t' + s' - t') % 2 ^ n') = 1 := by
      rw [add_sub_cancel_left, Int.emod_eq_of_lt hs'.1 hs'.2, sub_self, zpow_zero]
    rw [verifyPayload_payloadOf, verifyRangeProof_made h, verifyRangeProof_made h', hfit, hfit',
      decide_eq_true rfl, Bool.and_self]

/-! ## When a claim is sound -/

/-- No payload with these thresholds and numbers of bits is accepted for a claim that is above what it
commits to. -/
def SoundFor (V : Ideal S) (py : Reader) (F : Doubles) (min_reviews : ℤ) (min_avg : ℚ) (t t' : ℤ)
    (n n' : ℕ) : Prop :=
  ∀ (loads : String → Py Value) (commitment proof : String) (payload : Value) (x y : Part),
    loads proof = .ok payload → readParts py payload = .ok (x, y) →
    x.threshold = t → x.D.length = n → y.threshold = t' → y.D.length = n' →
    Honest V x → Honest V y →
    verifyReviewProof S py F loads commitment proof min_reviews min_avg = true →
      min_reviews ≤ V.committed (S.ofInt x.c_val) ∧ scaled F min_avg ≤ V.committed (S.ofInt y.c_val)

/-- **When a review proof is sound**: iff what is claimed is covered by the inner thresholds. -/
theorem reviewProof_sound_iff (V : Ideal S) (py : Reader) (F : Doubles) (min_reviews : ℤ) (min_avg : ℚ)
    (t t' : ℤ) (n n' : ℕ) :
    SoundFor V py F min_reviews min_avg t t' n n' ↔
      Covered S.q min_reviews t n ∧ Covered S.q (scaled F min_avg) t' n' := by
  have hq := S.prime.pos
  constructor
  · intro hsound
    -- what is accepted for two sums of bits
    have hpair (s s' : ℤ) (hs : 0 ≤ s ∧ s < 2 ^ n) (hs' : 0 ≤ s' ∧ s' < 2 ^ n') :
        min_reviews ≤ (t + s) % S.q ∧ scaled F min_avg ≤ (t' + s') % S.q := by
      obtain ⟨commitment, payload, x, y, hread, ⟨hx, hn, hhonest, hcommit⟩, ⟨hy, hn', hhonest', hcommit'⟩,
        haccept⟩ := payload_accepted py V F min_reviews min_avg t t' n n' hs hs'
      have haccept' : verifyReviewProof S py F (fun _ => .ok payload) commitment "" min_reviews min_avg
          = true := by
        simp only [verifyReviewProof, bind, Except.bind, haccept]
      have h := hsound _ commitment "" payload x y rfl hread hx hn hy hn' hhonest hhonest' haccept'
      rwa [hcommit, hcommit'] at h
    have hzero (n : ℕ) : (0 : ℤ) ≤ 0 ∧ (0 : ℤ) < 2 ^ n := ⟨le_refl 0, by positivity⟩
    constructor
    · exact (covered_iff hq _ _ _).mpr fun s h₀ hlt => (hpair s 0 ⟨h₀, hlt⟩ (hzero n')).1
    · exact (covered_iff hq _ _ _).mpr fun s h₀ hlt => (hpair 0 s (hzero n) ⟨h₀, hlt⟩).2
  · rintro ⟨hreviews, havg⟩ loads commitment proof payload x y hloads hread rfl rfl rfl rfl hhonest
      hhonest' haccept
    obtain ⟨x', y', hread', hcommit⟩ := readParts_of_accept hloads haccept
    obtain ⟨rfl, rfl⟩ := Prod.mk.inj (Except.ok.inj (hread.symm.trans hread'))
    obtain ⟨s, h₀, hlt, hs⟩ := (hcommit V).1 hhonest
    obtain ⟨s', h₀', hlt', hs'⟩ := (hcommit V).2 hhonest'
    rw [hs, hs']
    exact ⟨(covered_iff hq _ _ _).mp hreviews s h₀ hlt, (covered_iff hq _ _ _).mp havg s' h₀' hlt'⟩

/-! ### Larger claims for smaller values -/

/-- Pairs of numbers mod 2003: what an element commits to stands in the first place. -/
def pairs2003 : ProofParams (Multiplicative (ZMod 2003 × ZMod 2003)) where
  q := 2003
  prime := prime_2003
  pow_q x := by
    have hchar (z : ZMod 2003) : 2003 • z = 0 := by
      rw [nsmul_eq_mul, ZMod.natCast_self, zero_mul]
    exact congrArg Multiplicative.ofAdd (Prod.ext (hchar x.toAdd.1) (hchar x.toAdd.2))
  g := .ofAdd (1, 0)
  h := .ofAdd (0, 1)
  ofInt n := .ofAdd ((n : ZMod 2003), ((n / 2003 : ℤ) : ZMod 2003))
  toInt x := x.toAdd.1.val + 2003 * x.toAdd.2.val
  ofInt_toInt x := by
    have hlt := ZMod.val_lt x.toAdd.1
    refine congrArg Multiplicative.ofAdd (Prod.ext ?_ ?_)
    · show ((((x.toAdd.1.val + 2003 * x.toAdd.2.val : ℕ) : ℤ)) : ZMod 2003) = x.toAdd.1
      rw [Int.cast_natCast, Nat.cast_add, Nat.cast_mul, ZMod.natCast_self, zero_mul, add_zero,
        ZMod.natCast_zmod_val]
    · have hdiv : ((x.toAdd.1.val + 2003 * x.toAdd.2.val : ℕ) : ℤ) / 2003 = (x.toAdd.2.val : ℕ) := by
        omega
      show ((((x.toAdd.1.val + 2003 * x.toAdd.2.val : ℕ) : ℤ) / 2003 : ℤ) : ZMod 2003) = x.toAdd.2
      rw [hdiv, Int.cast_natCast, ZMod.natCast_zmod_val]
  size := 3
  toInt_lt x := by
    have hlt := ZMod.val_lt x.toAdd.1
    have hlt' := ZMod.val_lt x.toAdd.2
    show _ < 256 ^ 3
    omega
  sha256 m := (Bitcoin.sha256 m).foldl (fun n b => 256 * n + b.toNat) 0

def first2003 : Ideal pairs2003 where
  value x := x.toAdd.1
  value_mul _ _ := rfl
  value_g := rfl
  value_h := rfl

/-- A thousand reviews of five stars are claimed, and accepted, for a commitment to none. -/
theorem claims_not_covered : ¬SoundFor first2003 Reader.plain exactDoubles 1000 5 0 0 10 10 := by
  intro hsound
  obtain ⟨commitment, payload, x, y, hread, ⟨hx, hn, hhonest, hcommit⟩, ⟨hy, hn', hhonest', -⟩, haccept⟩ :=
    payload_accepted Reader.plain first2003 exactDoubles 1000 5 0 0 10 10
      (show (0 : ℤ) ≤ 0 ∧ (0 : ℤ) < 2 ^ 10 by decide) (show (0 : ℤ) ≤ 0 ∧ (0 : ℤ) < 2 ^ 10 by decide)
  have haccept' : verifyReviewProof pairs2003 Reader.plain exactDoubles (fun _ => .ok payload) commitment ""
      1000 5 = true := by
    simp only [verifyReviewProof, bind, Except.bind, haccept]
  have h := (hsound _ commitment "" payload x y rfl hread hx hn hy hn' hhonest hhonest' haccept').1
  rw [hcommit] at h
  exact absurd h (by decide)

end Sthrip.ReviewService
