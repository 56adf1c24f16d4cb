import Sthrip.Services.RangeProof

set_option autoImplicit false

/-! # What the verifier of a range proof accepts

The bit proofs and the link proof are read from the payload (`ReadBits`) and satisfy their equations; the
link proof is about what the commitment leaves over after the threshold and the bits (`Linked`).
-/

namespace Sthrip

open Python Schnorr Pedersen

variable {Γ : Type} [CommGroup Γ] {S : ProofParams Γ} {py : Reader} {labels : Labels}
  {label : List UInt8}

theorem ProofParams.toInt_inj {x y : Γ} (h : S.toInt x = S.toInt y) : x = y := by
  have hof : S.ofInt (S.toInt x) = S.ofInt (S.toInt y) := by rw [h]
  rwa [S.ofInt_toInt, S.ofInt_toInt] at hof

theorem toString_inj (py : Reader) {m n : ℤ} (h : toString m = toString n) : m = n := by
  have hint : py.int 10 (toString m) = py.int 10 (toString n) := by rw [h]
  rw [py.int_str, py.int_str] at hint
  exact Option.some.inj hint

/-! ## Challenges -/

theorem fiatShamir_emod {elements : List ℤ} {c : ℤ} (h : S.fiatShamir label elements = .ok c) :
    c % S.q = c := by
  simp only [ProofParams.fiatShamir, bind_eq_ok] at h
  obtain ⟨encoded, -, hc⟩ := h
  cases hc
  norm_cast
  exact Nat.mod_mod _ _

/-- Numbers of elements have a challenge. -/
theorem exists_fiatShamir (S : ProofParams Γ) (label : List UInt8) (xs : List Γ) :
    ∃ c, S.fiatShamir label (xs.map fun x => (S.toInt x : ℤ)) = .ok c := by
  have hbytes : ∃ encoded, (xs.map fun x => (S.toInt x : ℤ)).mapM (toBytes S.size) = .ok encoded := by
    induction xs with
    | nil => exact ⟨[], rfl⟩
    | cons x xs ih =>
        obtain ⟨encoded, hencoded⟩ := ih
        have hlt : (S.toInt x : ℤ) < 256 ^ S.size := by exact_mod_cast S.toInt_lt x
        have hx : ∃ bytes, toBytes S.size (S.toInt x) = .ok bytes :=
          ⟨_, if_pos ⟨Int.natCast_nonneg _, hlt⟩⟩
        obtain ⟨bytes, hx⟩ := hx
        refine ⟨bytes :: encoded, ?_⟩
        rw [List.map_cons, List.mapM_cons, hx, hencoded]
        rfl
  obtain ⟨encoded, hencoded⟩ := hbytes
  exact ⟨_, bind_eq_ok.mpr ⟨encoded, hencoded, rfl⟩⟩

/-! ## Reading back what was written -/

theorem OrProof.dict_D (py : Reader) (p : OrProof) :
    (p.dict.getItem "D" >>= py.toInt) = .ok p.D := py.toInt_str p.D

theorem OrProof.read_dict (py : Reader) (p : OrProof) : OrProof.read py p.dict = .ok p := by
  have hA0 : (p.dict.getItem "A0" >>= py.toInt) = .ok p.A0 := py.toInt_str p.A0
  have hA1 : (p.dict.getItem "A1" >>= py.toInt) = .ok p.A1 := py.toInt_str p.A1
  have hc0 : (p.dict.getItem "c0" >>= py.toInt) = .ok p.c0 := py.toInt_str p.c0
  have hc1 : (p.dict.getItem "c1" >>= py.toInt) = .ok p.c1 := py.toInt_str p.c1
  have hs0 : (p.dict.getItem "s0" >>= py.toInt) = .ok p.s0 := py.toInt_str p.s0
  have hs1 : (p.dict.getItem "s1" >>= py.toInt) = .ok p.s1 := py.toInt_str p.s1
  rw [OrProof.read, p.dict_D py, hA0, hA1, hc0, hc1, hs0, hs1]
  rfl

theorem LinkProof.read_dict (py : Reader) (p : LinkProof) : LinkProof.read py p.dict = .ok p := by
  have hT : (p.dict.getItem "T" >>= py.toInt) = .ok p.T := py.toInt_str p.T
  have hA : (p.dict.getItem "A" >>= py.toInt) = .ok p.A := py.toInt_str p.A
  have hs : (p.dict.getItem "s" >>= py.toInt) = .ok p.s := py.toInt_str p.s
  rw [LinkProof.read, hT, hA, hs]
  rfl

theorem LinkProof.dict_T (p : LinkProof) : p.dict.get "T" .none = .ok (.str (toString p.T)) := rfl

/-! ## The checks -/

variable [DecidableEq Γ]

/-- The two sides of a bit proof. -/
def OrProof.transcript (S : ProofParams Γ) (p : OrProof) : OrTranscript Γ :=
  ⟨S.ofInt p.A0, S.ofInt p.A1, p.c0, p.c1, p.s0, p.s1⟩

theorem OrProof.check_iff {p : OrProof} {c : ℤ}
    (hc : S.fiatShamir label [p.D, p.A0, p.A1] = .ok c) :
    p.check S label = .ok true ↔ OrAccepts S.q S.g S.h (S.ofInt p.D) c (p.transcript S) := by
  unfold OrProof.check
  rw [hc]
  show (if (p.c0 + p.c1) % S.q ≠ c then pure false else _) = Except.ok true ↔ _
  split
  · next hne =>
      constructor
      · exact fun h => by cases h
      · exact fun h => absurd h.challenge hne
  · next hchallenge =>
      split
      · next hne =>
          constructor
          · exact fun h => by cases h
          · exact fun h => absurd h.zero hne
      · next hzero =>
          split
          · next hne =>
              constructor
              · exact fun h => by cases h
              · exact fun h => absurd h.one hne
          · next hone =>
              constructor
              · exact fun _ => ⟨not_not.mp hchallenge, not_not.mp hzero, not_not.mp hone⟩
              · exact fun _ => rfl

theorem OrProof.check_true {p : OrProof} (h : p.check S label = .ok true) :
    ∃ c, S.fiatShamir label [p.D, p.A0, p.A1] = .ok c ∧
      OrAccepts S.q S.g S.h (S.ofInt p.D) c (p.transcript S) := by
  cases hc : S.fiatShamir label [p.D, p.A0, p.A1] with
  | error e =>
      rw [OrProof.check, hc] at h
      cases h
  | ok c => exact ⟨c, rfl, (OrProof.check_iff hc).mp h⟩

theorem sigmaOrVerify_true {proof : Value} (h : sigmaOrVerify S py label proof = .ok true) :
    ∃ p, OrProof.read py proof = .ok p ∧ p.check S label = .ok true := by
  unfold sigmaOrVerify at h
  split at h
  · cases h
  · cases h
  · cases h
  · next p hp => exact ⟨p, hp, h⟩

theorem sigmaOrVerify_dict (p : OrProof) :
    sigmaOrVerify S py label p.dict = p.check S label := by
  rw [sigmaOrVerify, OrProof.read_dict]

theorem linkingVerify_true {proof : Value} (h : linkingVerify S py label proof = .ok true) :
    ∃ p c, LinkProof.read py proof = .ok p ∧ S.fiatShamir label [p.T, p.A] = .ok c ∧
      Accepts S.h (S.ofInt p.T) (S.ofInt p.A) c p.s := by
  unfold linkingVerify at h
  split at h
  · cases h
  · cases h
  · cases h
  · next p hp =>
      simp only [LinkProof.check, bind_eq_ok] at h
      obtain ⟨c, hc, haccept⟩ := h
      exact ⟨p, c, hp, hc, of_decide_eq_true (Except.ok.inj haccept)⟩

theorem linkingVerify_dict (p : LinkProof) :
    linkingVerify S py label p.dict = p.check S label := by
  rw [linkingVerify, LinkProof.read_dict]

/-! ## The bit proofs of a payload -/

/-- The values are read as these proofs, all of which check. -/
def ReadBits (S : ProofParams Γ) (py : Reader) (label : List UInt8) : List Value → List OrProof → Prop :=
  List.Forall₂ fun v p => OrProof.read py v = .ok p ∧ p.check S label = .ok true

theorem verifyBits_true {l : List Value} (h : verifyBits S py labels l = .ok true) :
    ∃ ps, ReadBits S py labels.bit l ps := by
  induction l with
  | nil => exact ⟨[], .nil⟩
  | cons v l ih =>
      simp only [verifyBits, bind_eq_ok] at h
      obtain ⟨b, hb, hrest⟩ := h
      cases b with
      | false => cases hrest
      | true =>
          obtain ⟨p, hp⟩ := sigmaOrVerify_true hb
          obtain ⟨ps, hps⟩ := ih hrest
          exact ⟨p :: ps, .cons hp hps⟩

theorem verifyBits_dicts {ps : List OrProof} (h : ∀ p ∈ ps, p.check S labels.bit = .ok true) :
    verifyBits S py labels (ps.map OrProof.dict) = .ok true := by
  induction ps with
  | nil => rfl
  | cons p ps ih =>
      have hp := h p (List.mem_cons_self ..)
      rw [List.map_cons, verifyBits, sigmaOrVerify_dict, hp]
      exact ih fun p' hp' => h p' (List.mem_cons_of_mem p hp')

omit [DecidableEq Γ] in
theorem read_D {v : Value} {p : OrProof} (h : OrProof.read py v = .ok p) :
    (v.getItem "D" >>= py.toInt) = .ok p.D := by
  simp only [OrProof.read] at h
  obtain ⟨D, hD, h⟩ := bind_eq_ok.mp h
  simp only [bind_eq_ok] at h
  obtain ⟨_, _, _, _, _, _, _, _, _, _, _, _, heq⟩ := h
  cases heq
  exact hD

omit [DecidableEq Γ] in
theorem read_T {v : Value} {l : LinkProof} (h : LinkProof.read py v = .ok l) :
    (v.getItem "T" >>= py.toInt) = .ok l.T := by
  simp only [LinkProof.read] at h
  obtain ⟨T, hT, h⟩ := bind_eq_ok.mp h
  simp only [bind_eq_ok] at h
  obtain ⟨_, _, _, _, heq⟩ := h
  cases heq
  exact hT

omit [DecidableEq Γ] in
/-- The loop over the commitments. -/
theorem aggregate_eq {l : List Value} {ps : List OrProof}
    (h : List.Forall₂ (fun v p => (v.getItem "D" >>= py.toInt) = .ok (OrProof.D p)) l ps) (i : ℕ)
    (acc : Γ) :
    aggregate S py i acc l = .ok (acc * prodPow (ps.map fun p => S.ofInt p.D) ^ 2 ^ i) := by
  induction h generalizing i acc with
  | nil =>
      rw [aggregate, List.map_nil, prodPow, one_pow, mul_one]
      rfl
  | @cons v p l ps hv _ ih =>
      rw [aggregate, hv]
      show aggregate S py (i + 1) (acc * S.ofInt p.D ^ 2 ^ i) l = _
      rw [ih, List.map_cons, prodPow, mul_pow, mul_assoc, ← pow_mul, ← pow_succ']

/-- What is left of the commitment `C` when the threshold and the bits are taken away. -/
def leftOver (S : ProofParams Γ) (C : Γ) (threshold : ℤ) (ps : List OrProof) : Γ :=
  C * (S.g ^ threshold)⁻¹ * (prodPow (ps.map fun p => S.ofInt p.D))⁻¹

omit [DecidableEq Γ] in
theorem eq_mul_leftOver (C : Γ) (threshold : ℤ) (ps : List OrProof) :
    C = S.g ^ threshold * prodPow (ps.map fun p => S.ofInt p.D) * leftOver S C threshold ps := by
  rw [leftOver, mul_assoc C, ← mul_inv, mul_left_comm, mul_inv_cancel, mul_one]

/-- The link proof `l` of the payload is about what is left over. -/
structure Linked (S : ProofParams Γ) (py : Reader) (label : List UInt8) (c_val threshold : ℤ)
    (ps : List OrProof) (payload : Value) (l : LinkProof) : Prop where
  read : (payload.getItem "link_proof" >>= LinkProof.read py) = .ok l
  T : l.T = S.toInt (leftOver S (S.ofInt c_val) threshold ps)
  accepts : ∃ c, S.fiatShamir label [l.T, l.A] = .ok c ∧
    Accepts S.h (S.ofInt l.T) (S.ofInt l.A) c l.s

/-- **What an accepted range proof consists of.** -/
theorem verifyRange_true {c_val threshold : ℤ} {bit_proofs : List Value} {payload : Value}
    (h : verifyRange S py labels c_val threshold bit_proofs payload = .ok true) :
    ∃ ps l, ReadBits S py labels.bit bit_proofs ps ∧
      Linked S py labels.link c_val threshold ps payload l := by
  simp only [verifyRange, bind_eq_ok] at h
  obtain ⟨b, hb, h⟩ := h
  cases b with
  | false => cases h
  | true =>
      obtain ⟨ps, hps⟩ := verifyBits_true hb
      have hD := hps.imp fun _ _ hp => read_D hp.1
      simp only [if_true, bind_eq_ok, aggregate_eq hD] at h
      obtain ⟨agg, hagg, v, hv, T, hT, h⟩ := h
      obtain rfl : prodPow (ps.map fun p => S.ofInt p.D) = agg := by simpa using hagg
      split at h
      · next heq =>
          obtain rfl := Value.eqStr_iff.mp heq
          obtain ⟨l, c, hl, hc, haccept⟩ := linkingVerify_true h
          refine ⟨ps, l, hps, ?_, ?_, c, hc, haccept⟩
          · rw [hv]
            exact hl
          · -- the text that was compared is the one that is read
            have hread := read_T hl
            rw [Value.getItem_of_get hT] at hread
            have htext := (py.toInt_str _).symm.trans hread
            rw [← Except.ok.inj htext]
            rfl
      · cases h

end Sthrip
