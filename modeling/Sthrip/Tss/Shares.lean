import Mathlib.FieldTheory.Finite.Basic
import Sthrip.Bridge.Tss
import Sthrip.Sigma.Sharing

set_option autoImplicit false

/-! # Shares are verified and recombined

What the loops of the key generation compute, as numbers mod the order.
-/

namespace Sthrip

open DistributedKeyGenerator

variable {Γ : Type} [AddCommGroup Γ]

/-! ## Multiples of the generator -/

theorem Curve.zsmul_generator_eq_iff (S : Curve Γ) {a b : ℤ} :
    a • S.generator = b • S.generator ↔ a ≡ b [ZMOD S.order] := by
  rw [zsmul_eq_zsmul_iff_modEq, S.addOrderOf_generator]

theorem Curve.cast_eq_iff (S : Curve Γ) {a b : ℤ} : (a : ZMod S.order) = b ↔ a ≡ b [ZMOD S.order] :=
  ZMod.intCast_eq_intCast_iff a b S.order

/-! ## Evaluation -/

theorem evaluate_cast (coefficients : List ℤ) (x : ℤ) (q : ℕ) :
    (evaluate coefficients x q : ZMod q) = (Sharing.valueAt coefficients x : ℤ) := by
  -- the accumulators hold the sum so far and the power of the next place
  suffices h : ∀ result power : ℤ,
      ((coefficients.foldl
          (fun (acc : ℤ × ℤ) coef => ((acc.1 + coef * acc.2) % q, acc.2 * x % q))
          (result, power)).1 : ZMod q)
        = result + power * (Sharing.valueAt coefficients x : ℤ) by
    have hzero := h 0 1
    rw [Int.cast_zero, Int.cast_one, zero_add, one_mul] at hzero
    exact hzero
  induction coefficients with
  | nil =>
      intro result power
      rw [List.foldl_nil, Sharing.valueAt_nil, Int.cast_zero, mul_zero, add_zero]
  | cons a as ih =>
      intro result power
      rw [List.foldl_cons, ih, Sharing.valueAt_cons, ZMod.intCast_mod, ZMod.intCast_mod]
      push_cast
      ring

theorem evaluate_modEq (S : Curve Γ) (coefficients : List ℤ) (x : ℤ) :
    evaluate coefficients x S.order ≡ Sharing.valueAt coefficients x [ZMOD S.order] :=
  S.cast_eq_iff.mp (evaluate_cast coefficients x S.order)

theorem evaluate_range {q : ℕ} (hq : (0 : ℤ) < q) (coefficients : List ℤ) (x : ℤ) :
    0 ≤ evaluate coefficients x q ∧ evaluate coefficients x q < q := by
  unfold evaluate
  refine List.foldlRecOn coefficients _ 
    (motive := fun acc : ℤ × ℤ => 0 ≤ acc.1 ∧ acc.1 < q) ⟨le_refl 0, hq⟩ ?_
  intro acc _ coef _
  exact ⟨Int.emod_nonneg _ hq.ne', Int.emod_lt_of_pos _ hq⟩

/-! ## Verification -/

theorem foldl_addPoint (Ps : List Γ) (Q : Γ) : Ps.foldl addPoint (some Q) = some (Q + Ps.sum) := by
  induction Ps generalizing Q with
  | nil => rw [List.sum_nil, add_zero, List.foldl_nil]
  | cons P Ps ih =>
      rw [List.foldl_cons, List.sum_cons, ← add_assoc]
      exact ih (Q + P)

theorem foldl_addPoint_none {Ps : List Γ} (hne : Ps ≠ []) : Ps.foldl addPoint none = some Ps.sum := by
  cases Ps with
  | nil => exact absurd rfl hne
  | cons P Ps =>
      rw [List.foldl_cons, List.sum_cons]
      exact foldl_addPoint Ps P

section Verification

/-- The right side of the check. -/
theorem combine_mod (S : Curve Γ) {commitments : List Γ}
    (hq : ∀ P ∈ commitments, S.order • P = 0) (index : ℤ) :
    (commitments.zipIdx.map fun entry => (index ^ entry.2 % S.order) • entry.1).sum
      = Sharing.combine index commitments := by
  have hterm : ∀ entry ∈ commitments.zipIdx,
      (index ^ entry.2 % S.order) • entry.1 = index ^ entry.2 • entry.1 := by
    intro entry hentry
    have hP := hq entry.1 (List.fst_mem_of_mem_zipIdx hentry)
    refine zsmul_eq_zsmul_iff_modEq.mpr ((Int.mod_modEq _ S.order).of_dvd ?_)
    exact_mod_cast addOrderOf_dvd_of_nsmul_eq_zero hP
  rw [List.map_congr_left hterm, Sharing.sum_zipIdx, pow_zero, one_smul]

variable [DecidableEq Γ]

/-- The check of a share against the commitments to a polynomial. -/
theorem verifyShare_iff (S : Curve Γ) {coefficients : List ℤ} (hne : coefficients ≠ [])
    {share : KeyShare Γ} (hcommit : share.commitments = coefficients.map (· • S.generator)) :
    verifyShare S share = true
      ↔ share.private_share ≡ Sharing.valueAt coefficients share.index [ZMOD S.order] := by
  have hq : ∀ P ∈ share.commitments, S.order • P = 0 := by
    intro P hP
    rw [hcommit, List.mem_map] at hP
    obtain ⟨a, -, rfl⟩ := hP
    rw [smul_comm, ← S.addOrderOf_generator, addOrderOf_nsmul_eq_zero, smul_zero]
  have hterms : (share.commitments.zipIdx.map
      fun entry => (share.index ^ entry.2 % S.order) • entry.1) ≠ [] := by
    intro hnil
    have hlen := congrArg List.length hnil
    rw [List.length_map, List.length_zipIdx, hcommit, List.length_map, List.length_nil] at hlen
    exact hne (List.length_eq_zero_iff.mp hlen)
  rw [verifyShare, ← List.foldl_map, foldl_addPoint_none hterms, combine_mod S hq, hcommit,
    Sharing.combine_commit, decide_eq_true_iff, Option.some_inj, S.zsmul_generator_eq_iff]

end Verification

/-! ## Shares -/

theorem mem_dealShares {S : Curve Γ} {n : ℕ} {master_secret : ℤ} {others : List ℤ}
    {share : KeyShare Γ} (hshare : share ∈ dealShares S n master_secret others) :
    (1 ≤ share.index ∧ share.index ≤ n) ∧ share.party_id = share.index
      ∧ share.private_share = evaluate (master_secret :: others) share.index S.order
      ∧ share.commitments = (master_secret :: others).map (· • S.generator) := by
  unfold dealShares at hshare
  rw [List.map_map, List.mem_map] at hshare
  obtain ⟨i, hi, rfl⟩ := hshare
  have hlt := List.mem_range.mp hi
  refine ⟨?_, rfl, rfl, rfl⟩
  show (1 : ℤ) ≤ i + 1 ∧ (i + 1 : ℤ) ≤ n
  omega

/-! ## Recombination -/

/-- The inverse by Fermat's theorem. -/
theorem cast_pow_sub_two {q : ℕ} [Fact q.Prime] {d : ℤ} (hd : (d : ZMod q) ≠ 0) :
    ((d ^ (q - 2) % q : ℤ) : ZMod q) = (d : ZMod q)⁻¹ := by
  have hq : 2 ≤ q := (Fact.out : q.Prime).two_le
  have hfermat : (d : ZMod q) ^ (q - 2) * d = 1 := by
    rw [← pow_succ, show q - 2 + 1 = q - 1 by omega]
    exact ZMod.pow_card_sub_one_eq_one hd
  rw [ZMod.intCast_mod, Int.cast_pow]
  exact eq_inv_of_mul_eq_one_left hfermat

/-- The two products of the loop. -/
theorem lagrangeCoefficient_products (index : ℤ) (indices : List ℤ) (q : ℕ) (a b : ℤ) :
    let products := indices.foldl
      (fun (acc : ℤ × ℤ) j =>
        if j ≠ index then (acc.1 * j % q, acc.2 * (j - index) % q) else acc) (a, b)
    (products.1 : ZMod q) = a * ((indices.filter (· ≠ index)).map fun j : ℤ => (j : ZMod q)).prod
      ∧ (products.2 : ZMod q)
        = b * ((indices.filter (· ≠ index)).map fun j : ℤ => ((j - index : ℤ) : ZMod q)).prod := by
  induction indices generalizing a b with
  | nil => exact ⟨(mul_one _).symm, (mul_one _).symm⟩
  | cons j js ih =>
      by_cases hj : j = index
      · have hskip : (j :: js).filter (· ≠ index) = js.filter (· ≠ index) :=
          List.filter_cons_of_neg (by simpa using hj)
        rw [List.foldl_cons, if_neg (not_not_intro hj), hskip]
        exact ih a b
      · have hkeep : (j :: js).filter (· ≠ index) = j :: js.filter (· ≠ index) :=
          List.filter_cons_of_pos (by simpa using hj)
        have hrest := ih (a * j % q) (b * (j - index) % q)
        rw [List.foldl_cons, if_pos hj, hkeep, List.map_cons, List.prod_cons, List.map_cons,
          List.prod_cons]
        constructor
        · rw [← mul_assoc, ← Int.cast_mul, ← ZMod.intCast_mod (a * j)]
          exact hrest.1
        · rw [← mul_assoc, ← Int.cast_mul, ← ZMod.intCast_mod (b * (j - index))]
          exact hrest.2

/-- What `lagrange_coefficient` computes, for indices that are distinct mod the prime. -/
theorem lagrangeCoefficient_cast {q : ℕ} [Fact q.Prime] {indices : List ℤ}
    (hinj : ∀ i ∈ indices, ∀ j ∈ indices, (i : ZMod q) = j → i = j) {index : ℤ}
    (hindex : index ∈ indices) :
    (lagrangeCoefficient index indices q : ZMod q)
      = Sharing.weight (indices.map (Int.cast : ℤ → ZMod q)) index := by
  have hfilter : (indices.map (Int.cast : ℤ → ZMod q)).filter (· ≠ (index : ZMod q))
      = (indices.filter (· ≠ index)).map (Int.cast : ℤ → ZMod q) := by
    rw [List.filter_map]
    congr 1
    refine List.filter_congr fun j hj => ?_
    have hiff : (j : ZMod q) ≠ index ↔ j ≠ index :=
      not_congr ⟨hinj j hj index hindex, congrArg Int.cast⟩
    exact decide_eq_decide.mpr hiff
  have hne : ((indices.filter (· ≠ index)).map fun j : ℤ => ((j - index : ℤ) : ZMod q)).prod ≠ 0 := by
    refine List.prod_ne_zero fun hzero => ?_
    obtain ⟨j, hj, hsub⟩ := List.mem_map.mp hzero
    obtain ⟨hmem, hdiff⟩ := List.mem_filter.mp hj
    rw [Int.cast_sub, sub_eq_zero] at hsub
    exact of_decide_eq_true hdiff (hinj j hmem index hindex hsub)
  obtain ⟨hnum, hden⟩ := lagrangeCoefficient_products index indices q 1 1
  rw [Int.cast_one, one_mul] at hnum hden
  unfold lagrangeCoefficient
  rw [ZMod.intCast_mod, Int.cast_mul, cast_pow_sub_two (hden ▸ hne), hnum, hden, Sharing.weight,
    hfilter, List.map_map]
  congr 3
  refine List.map_congr_left fun j _ => ?_
  exact Int.cast_sub j index

/-- Numbers below the prime are distinct mod the prime. -/
theorem cast_inj_of_lt {q : ℕ} {i j : ℤ} (hi : 0 ≤ i ∧ i < q) (hj : 0 ≤ j ∧ j < q)
    (h : (i : ZMod q) = j) : i = j := by
  have hmod : i % q = j % q := (ZMod.intCast_eq_intCast_iff i j q).mp h
  rw [Int.emod_eq_of_lt hi.1 hi.2, Int.emod_eq_of_lt hj.1 hj.2] at hmod
  exact hmod

/-- The indices of shares of one dealing. -/
structure Indices (q : ℕ) (indices : List ℤ) : Prop where
  nodup : indices.Nodup
  range : ∀ i ∈ indices, 1 ≤ i ∧ i < q

namespace Indices

variable {q : ℕ} {indices : List ℤ}

theorem cast_inj (hindices : Indices q indices) {i j : ℤ} (hi : i ∈ indices) (hj : j ∈ indices)
    (h : (i : ZMod q) = j) : i = j := by
  have hirange := hindices.range i hi
  have hjrange := hindices.range j hj
  exact cast_inj_of_lt (by omega) (by omega) h

theorem nodup_cast (hindices : Indices q indices) :
    (indices.map (Int.cast : ℤ → ZMod q)).Nodup :=
  hindices.nodup.map_on fun _ hi _ hj h => hindices.cast_inj hi hj h

/-- The weighted sum of the values of a polynomial. -/
theorem recombine [Fact q.Prime] (hindices : Indices q indices) (coefficients : List ℤ)
    (hlen : coefficients.length ≤ indices.length) :
    (indices.map fun i => (lagrangeCoefficient i indices q : ZMod q)
        * (Sharing.valueAt coefficients i : ℤ)).sum
      = (Sharing.valueAt coefficients 0 : ℤ) := by
  have hcast (x : ℤ) : ((Sharing.valueAt coefficients x : ℤ) : ZMod q)
      = Sharing.valueAt (coefficients.map (Int.cast : ℤ → ZMod q)) x :=
    (Sharing.valueAt_map (Int.castRingHom (ZMod q)) coefficients x).symm
  have hterm : ∀ i ∈ indices,
      (lagrangeCoefficient i indices q : ZMod q) * (Sharing.valueAt coefficients i : ℤ)
        = (fun j => Sharing.weight (indices.map (Int.cast : ℤ → ZMod q)) j
            * Sharing.valueAt (coefficients.map (Int.cast : ℤ → ZMod q)) j) (i : ZMod q) := by
    intro i hi
    rw [lagrangeCoefficient_cast (fun a ha b hb => hindices.cast_inj ha hb) hi, hcast]
  rw [List.map_congr_left hterm, hcast, Int.cast_zero]
  have hsum := Sharing.recombine hindices.nodup_cast
    (show (coefficients.map (Int.cast : ℤ → ZMod q)).length ≤ _ by
      rwa [List.length_map, List.length_map])
  rw [List.map_map] at hsum
  exact hsum

end Indices

/-- The indices of dealt shares. -/
theorem indices_of_dealt {S : Curve Γ} {n : ℕ} (hn : n < S.order) {master_secret : ℤ}
    {others : List ℤ} {shares : List (KeyShare Γ)} (hsub : shares ⊆ dealShares S n master_secret others)
    (hnodup : (shares.map KeyShare.index).Nodup) : Indices S.order (shares.map KeyShare.index) := by
  refine ⟨hnodup, fun i hi => ?_⟩
  obtain ⟨share, hshare, rfl⟩ := List.mem_map.mp hi
  obtain ⟨hrange, -⟩ := mem_dealShares (hsub hshare)
  omega

/-- More shares than the degree, weighted, give the secret. -/
theorem recombine_dealt {S : Curve Γ} {n : ℕ} (hn : n < S.order) {master_secret : ℤ}
    {others : List ℤ} {shares : List (KeyShare Γ)} (hsub : shares ⊆ dealShares S n master_secret others)
    (hnodup : (shares.map KeyShare.index).Nodup) (hlen : others.length + 1 ≤ shares.length) :
    (shares.map fun share =>
        (lagrangeCoefficient share.index (shares.map KeyShare.index) S.order : ZMod S.order)
          * share.private_share).sum
      = master_secret := by
  have hrecombine := (indices_of_dealt hn hsub hnodup).recombine (master_secret :: others)
    (by rwa [List.length_cons, List.length_map])
  rw [Sharing.valueAt_zero, List.map_map] at hrecombine
  rw [← hrecombine]
  congr 1
  refine List.map_congr_left fun share hshare => ?_
  obtain ⟨-, -, hvalue, -⟩ := mem_dealShares (hsub hshare)
  rw [hvalue, evaluate_cast]
  rfl

/-- Verifiable secret sharing: a share is accepted exactly if it is a value of the polynomial, dealt
shares are accepted, and more of them than the threshold give the secret. -/
theorem verifiable_secret_sharing [DecidableEq Γ] (S : Curve Γ) {n t : ℕ} (hn : n < S.order)
    (master_secret : ℤ) {others : List ℤ} (ht : others.length ≤ t) :
    (∀ share : KeyShare Γ,
        share.commitments = (master_secret :: others).map (· • S.generator) →
          (verifyShare S share = true
            ↔ share.private_share
              ≡ Sharing.valueAt (master_secret :: others) share.index [ZMOD S.order]))
      ∧ (dealShares S n master_secret others).map KeyShare.index = (List.range n).map (· + 1 : ℕ → ℤ)
      ∧ (∀ draw, ∀ share ∈ generateKeyShares S n t draw, verifyShare S share = true)
      ∧ ∀ shares : List (KeyShare Γ), shares ⊆ dealShares S n master_secret others →
          (shares.map KeyShare.index).Nodup → t + 1 ≤ shares.length →
            (shares.map fun share =>
                lagrangeCoefficient share.index (shares.map KeyShare.index) S.order
                  * share.private_share).sum
              ≡ master_secret [ZMOD S.order] := by
  refine ⟨fun share hcommit => verifyShare_iff S (List.cons_ne_nil _ _) hcommit, ?_, ?_, ?_⟩
  · unfold dealShares
    rw [List.map_map, List.map_map]
    rfl
  · intro draw share hshare
    obtain ⟨-, -, hvalue, hcommit⟩ := mem_dealShares hshare
    rw [verifyShare_iff S (List.cons_ne_nil _ _) hcommit, hvalue]
    exact evaluate_modEq S _ share.index
  · intro shares hsub hnodup hlen
    rw [← S.cast_eq_iff, ← recombine_dealt hn hsub hnodup (by omega), Int.cast_list_sum, List.map_map]
    congr 1
    refine List.map_congr_left fun share _ => ?_
    exact Int.cast_mul _ _

theorem eleven_le_pow : 11 ≤ 256 ^ 32 := by decide

/-- The numbers mod 11, with the sum of the bytes as the hash. -/
def elevenCurve : Curve (ZMod 11) where
  order := 11
  prime := Nat.prime_eleven
  order_le := eleven_le_pow
  generator := 1
  addOrderOf_generator := ZMod.addOrderOf_one 11
  x P := min P.val (-P).val
  toBytes P := [UInt8.ofNat P.val]
  sha256 l := (l.map UInt8.toNat).sum

theorem verifiable_secret_sharing_eleven :
    let pair := (dealShares elevenCurve 3 5 [3]).tail
    (pair.map fun share =>
        lagrangeCoefficient share.index (pair.map KeyShare.index) elevenCurve.order
          * share.private_share).sum
      ≡ 5 [ZMOD elevenCurve.order] :=
  (verifiable_secret_sharing elevenCurve (n := 3) (t := 1) (by decide) 5 (by decide)).2.2.2 _
    (List.tail_subset _) (by decide +kernel) (by decide +kernel)

end Sthrip
