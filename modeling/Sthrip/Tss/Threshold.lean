import Sthrip.Bridge.Tss
import Sthrip.Tss.Sessions

set_option autoImplicit false

/-! # Threshold signatures

The share of a signature is a Schnorr one, whose nonce and key share the aggregation weighs alike,
while the joint nonce is a plain sum. An ECDSA signature comes of it only for special numbers.
-/

namespace Sthrip

open Python DistributedKeyGenerator ThresholdSigner

variable {Γ : Type} [AddCommGroup Γ] [DecidableEq Γ]

/-- Both phases by all signers, and the aggregation. -/
def thresholdSign (S : Curve Γ) (signers : List (ThresholdSigner Γ)) (message_hash : List UInt8)
    (threshold : ℤ) : Py ECDSASignature := do
  let partials ← signers.mapM fun signer => signer.createPartialSignature S message_hash none
  let session ← (SigningSession.init message_hash threshold).collect partials
  let (_, context) ← session.finalizeCommitments S
  let completed ← (signers.zip partials).mapM fun entry =>
    entry.1.completeSignature S entry.2 context
  aggregateSignatures S completed context

/-! ## The numbers of a signature -/

section Numbers

variable (S : Curve Γ) (signers : List (ThresholdSigner Γ)) (message_hash : List UInt8)

/-- The sum of the nonces. -/
def jointScalar : ZMod S.order :=
  (signers.map fun signer => (signer.nonce S message_hash : ZMod S.order)).sum

def jointPoint : Γ := Ecdsa.multiple S.generator (jointScalar S signers message_hash)

def jointChallenge : ℤ :=
  (S.sha256 (S.toBytes (jointPoint S signers message_hash) ++ message_hash) % S.order : ℕ)

def jointCoordinate : ℤ := (S.x (jointPoint S signers message_hash) % S.order : ℕ)

/-- A sum with the weights of the aggregation. -/
def weightedSum (f : ThresholdSigner Γ → ℤ) : ZMod S.order :=
  (signers.map fun signer =>
    (lagrangeCoefficient signer.key_share.index
      (signers.map fun signer => signer.key_share.index) S.order * f signer : ZMod S.order)).sum

/-- The aggregated share. -/
def weightedScalar : ZMod S.order :=
  weightedSum S signers (fun signer => signer.nonce S message_hash)
    + jointChallenge S signers message_hash
      * weightedSum S signers (fun signer => signer.key_share.private_share)

/-- The number that is signed with the key `d`. -/
def messageScalar (d : ℤ) : ZMod S.order :=
  digestNumber message_hash + jointCoordinate S signers message_hash * d

/-- The number of the signature. -/
def signatureScalar : ℤ := lowS S.order (weightedScalar S signers message_hash).val

end Numbers

/-! ## The run -/

/-- Signers with different numbers, as many as the session and the aggregation ask for. -/
structure Team (S : Curve Γ) (signers : List (ThresholdSigner Γ)) (threshold : ℤ) : Prop where
  holds : ∀ signer ∈ signers, signer.Holds S
  party_nonneg : ∀ signer ∈ signers, 0 ≤ signer.party_id
  nodup : (signers.map ThresholdSigner.party_id).Nodup
  two : 2 ≤ signers.length
  enough : threshold ≤ signers.length

variable {S : Curve Γ} {signers : List (ThresholdSigner Γ)} {threshold : ℤ}

omit [DecidableEq Γ] in
theorem map_party_of_sends {message_hash : List UInt8} {partials : List (PartialSignature Γ)}
    (h : List.Forall₂ (fun signer sig => signer.Sends S message_hash sig) signers partials) :
    partials.map PartialSignature.party_id = signers.map ThresholdSigner.party_id := by
  induction h with
  | nil => rfl
  | cons hsig _ ih => rw [List.map_cons, List.map_cons, ih, hsig.1]

omit [DecidableEq Γ] in
/-- The public nonces sum up to the point of the joint nonce. -/
theorem sum_nonces_of_sends {message_hash : List UInt8} {partials : List (PartialSignature Γ)}
    (h : List.Forall₂ (fun signer sig => signer.Sends S message_hash sig) signers partials) :
    (partials.map PartialSignature.public_nonce).sum = jointPoint S signers message_hash := by
  have hsum : (partials.map PartialSignature.public_nonce).sum
      = (signers.map fun signer => signer.nonce S message_hash).sum • S.generator := by
    induction h with
    | nil => exact (zero_smul ℤ S.generator).symm
    | cons hsig _ ih =>
        rw [List.map_cons, List.sum_cons, ih, hsig.2, List.map_cons, List.sum_cons, add_smul]
  rw [hsum, jointPoint, jointScalar, Ecdsa.zsmul_eq_multiple S.addOrderOf_generator,
    Int.cast_list_sum, List.map_map]
  rfl

theorem mapM_createPartialSignature {signers : List (ThresholdSigner Γ)}
    (hholds : ∀ signer ∈ signers, signer.Holds S)
    (hparty : ∀ signer ∈ signers, 0 ≤ signer.party_id ∧ signer.party_id < 256 ^ 4)
    (message_hash : List UInt8) :
    ∃ partials, (signers.mapM fun signer => signer.createPartialSignature S message_hash none)
          = .ok partials
      ∧ List.Forall₂ (fun signer sig => signer.Sends S message_hash sig) signers partials := by
  induction signers with
  | nil => exact ⟨[], rfl, List.Forall₂.nil⟩
  | cons signer signers ih =>
      obtain ⟨partials, hok, hsends⟩ := ih
        (fun s hs => hholds s (List.mem_cons_of_mem _ hs))
        fun s hs => hparty s (List.mem_cons_of_mem _ hs)
      obtain ⟨sig, hsig, hsend⟩ := createPartialSignature_ok (hholds signer List.mem_cons_self)
        (hparty signer List.mem_cons_self) message_hash
      refine ⟨sig :: partials, ?_, List.Forall₂.cons hsend hsends⟩
      rw [List.mapM_cons]
      exact bind_eq_ok.mpr ⟨sig, hsig, bind_eq_ok.mpr ⟨partials, hok, rfl⟩⟩

omit [DecidableEq Γ] in
/-- The first phase of the run. -/
theorem Team.collect (team : Team S signers threshold) {message_hash : List UInt8}
    {partials : List (PartialSignature Γ)}
    (hsends : List.Forall₂ (fun signer sig => signer.Sends S message_hash sig) signers partials) :
    ∃ session, (SigningSession.init message_hash threshold).collect partials = .ok session
      ∧ session.message_hash = message_hash ∧ session.commitments ≠ []
      ∧ session.threshold ≤ session.commitments.length
      ∧ session.jointNonce = jointPoint S signers message_hash := by
  have hlen : partials.length = signers.length := hsends.length_eq.symm
  have hnodup : ((partials.map fun sig => (sig.party_id, sig)).map Prod.fst).Nodup := by
    rw [List.map_map]
    show (partials.map PartialSignature.party_id).Nodup
    rw [map_party_of_sends hsends]
    exact team.nodup
  have hdict : partials.foldl (fun d sig => setItem sig.party_id sig d) []
      = partials.map fun sig => (sig.party_id, sig) := by
    rw [← foldl_setItem hnodup, List.foldl_map]
  refine ⟨_, SigningSession.collect_ok partials rfl, rfl, ?_, ?_, ?_⟩
  · show partials.foldl (fun d sig => setItem sig.party_id sig d) [] ≠ []
    rw [hdict]
    intro hnil
    have htwo := team.two
    rw [← hlen, List.map_eq_nil_iff.mp hnil] at htwo
    exact absurd htwo (by simp)
  · show threshold ≤ ((partials.foldl (fun d sig => setItem sig.party_id sig d) []).length : ℤ)
    rw [hdict, List.length_map, hlen]
    exact team.enough
  · show ((partials.foldl (fun d sig => setItem sig.party_id sig d) []).map
      fun entry => entry.2.public_nonce).sum = _
    rw [hdict, List.map_map]
    exact sum_nonces_of_sends hsends

/-! ## The second phase -/

/-- The signature share of a signer. -/
def shareOf (S : Curve Γ) (signers : List (ThresholdSigner Γ)) (message_hash : List UInt8)
    (signer : ThresholdSigner Γ) : ℤ :=
  computeSignatureShare S (signer.nonce S message_hash) (jointChallenge S signers message_hash)
    signer.key_share.private_share

omit [AddCommGroup Γ] [DecidableEq Γ] in
/-- The pass over the shares, which are all there. -/
theorem foldlM_sumShares {q : ℕ} (hq : 0 < q) (indices : List ℤ) (sigs : List (PartialSignature Γ))
    {shares : List (ℤ × ℤ)}
    (h : sigs.map (fun sig => (sig.index, sig.z)) = shares.map fun e => (e.1, some e.2)) (z : ℤ) :
    ∃ z', sigs.foldlM (sumShares q indices) z = .ok z'
      ∧ (z' : ZMod q) = z + (shares.map fun e => (lagrangeCoefficient e.1 indices q * e.2 : ZMod q)).sum
      ∧ (0 ≤ z ∧ z < q → 0 ≤ z' ∧ z' < q) := by
  induction sigs generalizing shares z with
  | nil =>
      have hnil : shares = [] := List.map_eq_nil_iff.mp h.symm
      rw [hnil]
      exact ⟨z, rfl, (add_zero _).symm, id⟩
  | cons sig sigs ih =>
      obtain ⟨e, rest, rfl⟩ : ∃ e rest, shares = e :: rest := by
        cases shares with
        | nil => cases h
        | cons e rest => exact ⟨e, rest, rfl⟩
      rw [List.map_cons, List.map_cons, List.cons.injEq, Prod.mk.injEq] at h
      obtain ⟨⟨hindex, hz⟩, hrest⟩ := h
      obtain ⟨z', hok, hcast, hrange⟩ := ih hrest
        ((z + e.2 * lagrangeCoefficient e.1 indices q % q) % q)
      have hstep : sumShares q indices z sig
          = .ok ((z + e.2 * lagrangeCoefficient e.1 indices q % q) % q) := by
        unfold sumShares
        rw [hz, hindex]
      refine ⟨z', ?_, ?_, fun _ => hrange ⟨Int.emod_nonneg _ (by omega), Int.emod_lt_of_pos _ (by omega)⟩⟩
      · rw [List.foldlM_cons, hstep]
        exact hok
      · rw [hcast, ZMod.intCast_mod, Int.cast_add, ZMod.intCast_mod, Int.cast_mul, List.map_cons,
          List.sum_cons, add_assoc, mul_comm (e.2 : ZMod q)]

omit [DecidableEq Γ] in
/-- The shares of the second phase. -/
theorem mapM_completeSignature {signers : List (ThresholdSigner Γ)}
    (hholds : ∀ signer ∈ signers, signer.Holds S) {partials : List (PartialSignature Γ)}
    (hlen : signers.length = partials.length) (context : SigningContext Γ) :
    ∃ completed, ((signers.zip partials).mapM fun entry =>
        entry.1.completeSignature S entry.2 context) = .ok completed
      ∧ completed.map (fun sig => (sig.index, sig.z))
        = signers.map fun signer => (signer.key_share.index,
            some (computeSignatureShare S (signer.nonce S context.message_hash) context.challenge
              signer.key_share.private_share)) := by
  induction signers generalizing partials with
  | nil => exact ⟨[], rfl, rfl⟩
  | cons signer signers ih =>
      cases partials with
      | nil => cases hlen
      | cons sig partials =>
          obtain ⟨completed, hok, hmap⟩ := ih
            (fun s hs => hholds s (List.mem_cons_of_mem _ hs)) (Nat.succ_injective hlen)
          obtain ⟨sig', hsig, hindex, hz⟩ :=
            completeSignature_ok (hholds signer List.mem_cons_self) sig context
          refine ⟨sig' :: completed, ?_, ?_⟩
          · rw [List.zip_cons_cons, List.mapM_cons]
            exact bind_eq_ok.mpr ⟨sig', hsig, bind_eq_ok.mpr ⟨completed, hok, rfl⟩⟩
          · rw [List.map_cons, hmap, hindex, hz, List.map_cons]

omit [DecidableEq Γ] in
/-- The shares, weighted. -/
theorem sum_shareOf (message_hash : List UInt8) :
    ((signers.map fun signer => (signer.key_share.index, shareOf S signers message_hash signer)).map
        fun e => (lagrangeCoefficient e.1 (signers.map fun signer => signer.key_share.index) S.order
          * e.2 : ZMod S.order)).sum
      = weightedScalar S signers message_hash := by
  rw [List.map_map, weightedScalar, weightedSum, weightedSum, ← List.sum_map_mul_left,
    ← List.sum_map_add]
  congr 1
  refine List.map_congr_left fun signer _ => ?_
  show (_ * ((shareOf S signers message_hash signer : ℤ) : ZMod S.order)) = _
  rw [shareOf, computeSignatureShare, ZMod.intCast_mod]
  push_cast
  ring

/-- **The signature of a run** in which the numbers of the signers have four bytes and the nonces do
not cancel. -/
theorem thresholdSign_eq (team : Team S signers threshold) {message_hash : List UInt8}
    (hparty : ∀ signer ∈ signers, signer.party_id < 256 ^ 4)
    (hk : jointScalar S signers message_hash ≠ 0) :
    thresholdSign S signers message_hash threshold
      = .ok {
          r := jointCoordinate S signers message_hash
          s := signatureScalar S signers message_hash } := by
  have hpoint : jointPoint S signers message_hash ≠ 0 := by
    rw [jointPoint, ne_eq, Ecdsa.multiple_eq_zero_iff S.addOrderOf_generator]
    exact hk
  obtain ⟨partials, hfirst, hsends⟩ := mapM_createPartialSignature team.holds
    (fun signer hs => ⟨team.party_nonneg signer hs, hparty signer hs⟩) message_hash
  obtain ⟨session, hcollect, hmessage, hne, henough, hjoint⟩ := team.collect hsends
  have hfinal := SigningSession.finalizeCommitments_ok (S := S) hne henough (hjoint ▸ hpoint)
  rw [hjoint, hmessage] at hfinal
  set context : SigningContext Γ := {
    message_hash
    participants := session.participants
    aggregated_nonce := some (jointPoint S signers message_hash)
    challenge := jointChallenge S signers message_hash } with hcontext
  obtain ⟨completed, hsecond, hmap⟩ := mapM_completeSignature team.holds hsends.length_eq context
  have hindices : completed.map PartialSignature.index
      = signers.map fun signer => signer.key_share.index := by
    have hfst := congrArg (List.map Prod.fst) hmap
    rw [List.map_map, List.map_map] at hfst
    exact hfst
  have hlen : completed.length = signers.length := by
    have hlength := congrArg List.length hindices
    rwa [List.length_map, List.length_map] at hlength
  have hshares : completed.map (fun sig => (sig.index, sig.z))
      = (signers.map fun signer => (signer.key_share.index, shareOf S signers message_hash signer)).map
          fun e => (e.1, some e.2) := by
    rw [hmap, List.map_map]
    rfl
  obtain ⟨z, hz, hcast, hrange⟩ := foldlM_sumShares S.prime.pos
    (signers.map fun signer => signer.key_share.index) completed hshares 0
  have hprime : (0 : ℤ) < S.order := by exact_mod_cast S.prime.pos
  rw [sum_shareOf, Int.cast_zero, zero_add] at hcast
  have hval : z = (weightedScalar S signers message_hash).val := by
    obtain ⟨hnonneg, hlt⟩ := hrange ⟨le_refl 0, hprime⟩
    rw [← hcast, ZMod.val_intCast, Int.emod_eq_of_lt hnonneg hlt]
  have haggregate : aggregateSignatures S completed context
      = .ok {
          r := jointCoordinate S signers message_hash
          s := signatureScalar S signers message_hash } := by
    have htwo := team.two
    have hx : S.xCoordinate (jointPoint S signers message_hash)
        = some (S.x (jointPoint S signers message_hash) : ℤ) := if_neg hpoint
    unfold aggregateSignatures
    rw [if_neg (by omega), hindices, signatureScalar, ← hval]
    refine bind_eq_ok.mpr ⟨z, hz, ?_⟩
    simp only [hcontext, pure_bind, hx]
    rfl
  unfold thresholdSign
  refine bind_eq_ok.mpr ⟨partials, hfirst, bind_eq_ok.mpr ⟨session, hcollect, ?_⟩⟩
  refine bind_eq_ok.mpr ⟨_, hfinal, bind_eq_ok.mpr ⟨completed, hsecond, ?_⟩⟩
  exact haggregate

/-- A run that ends has signers whose numbers have four bytes, and nonces that do not cancel. -/
theorem of_thresholdSign_eq_ok (team : Team S signers threshold) {message_hash : List UInt8}
    {sig : ECDSASignature} (hok : thresholdSign S signers message_hash threshold = .ok sig) :
    (∀ signer ∈ signers, signer.party_id < 256 ^ 4) ∧ jointScalar S signers message_hash ≠ 0 := by
  unfold thresholdSign at hok
  obtain ⟨partials, hfirst, hok⟩ := bind_eq_ok.mp hok
  have hparty : ∀ signer ∈ signers, signer.party_id < 256 ^ 4 := by
    intro signer hs
    obtain ⟨sig, hsig⟩ := mem_of_mapM hfirst hs
    by_contra hlarge
    exact createPartialSignature_error (fun h => hlarge h.2) message_hash none sig hsig
  refine ⟨hparty, fun hzero => ?_⟩
  obtain ⟨partials', hfirst', hsends⟩ := mapM_createPartialSignature team.holds
    (fun signer hs => ⟨team.party_nonneg signer hs, hparty signer hs⟩) message_hash
  obtain rfl : partials = partials' := Except.ok.inj (hfirst.symm.trans hfirst')
  obtain ⟨session, hcollect, hok⟩ := bind_eq_ok.mp hok
  obtain ⟨session', hcollect', -, hne, -, hjoint⟩ := team.collect hsends
  obtain rfl : session = session' := Except.ok.inj (hcollect.symm.trans hcollect')
  obtain ⟨next, hfinal, -⟩ := bind_eq_ok.mp hok
  refine SigningSession.finalizeCommitments_error hne (Or.inr ?_) next hfinal
  rw [hjoint, jointPoint, hzero, Ecdsa.multiple_eq_zero_iff S.addOrderOf_generator]

/-! ## When the signature verifies -/

/-- The numbers of the run combine to an ECDSA signature under the key `d • G`. -/
structure Combines (S : Curve Γ) (signers : List (ThresholdSigner Γ)) (message_hash : List UInt8)
    (d : ℤ) : Prop where
  party : ∀ signer ∈ signers, signer.party_id < 256 ^ 4
  joint : jointScalar S signers message_hash ≠ 0
  weighted : weightedScalar S signers message_hash ≠ 0
  message : messageScalar S signers message_hash d ≠ 0
  coordinate :
    (S.x (Ecdsa.multiple S.generator (messageScalar S signers message_hash d
        * (signatureScalar S signers message_hash : ZMod S.order)⁻¹)) % S.order : ℕ)
      = jointCoordinate S signers message_hash

theorem lowS_range {q : ℕ} [NeZero q] {w : ZMod q} :
    (1 ≤ lowS q w.val ∧ lowS q w.val < q) ↔ w ≠ 0 := by
  have hlt : w.val < q := w.val_lt
  have hzero : w = 0 ↔ w.val = 0 := (ZMod.val_eq_zero w).symm
  rw [ne_eq, hzero]
  unfold lowS
  split <;> omega

theorem lowS_cast {q : ℕ} [NeZero q] (w : ZMod q) :
    ((lowS q w.val : ℤ) : ZMod q) = w ∨ ((lowS q w.val : ℤ) : ZMod q) = -w := by
  have hval : ((w.val : ℤ) : ZMod q) = w := by simp
  unfold lowS
  split
  · refine Or.inr ?_
    rw [Int.cast_sub, hval, Int.cast_natCast, ZMod.natCast_self, zero_sub]
  · exact Or.inl hval

/-- A run verifies exactly when its numbers combine. -/
theorem thresholdSign_verifies_iff (hx : ∀ P ≠ 0, S.x P % S.order ≠ 0)
    (team : Team S signers threshold) (message_hash : List UInt8) (d : ℤ) :
    (∃ sig, thresholdSign S signers message_hash threshold = .ok sig
        ∧ sig.Verifies S message_hash (d • S.generator))
      ↔ Combines S signers message_hash d := by
  constructor
  · rintro ⟨sig, hok, hverifies⟩
    obtain ⟨hparty, hk⟩ := of_thresholdSign_eq_ok team hok
    obtain rfl := Except.ok.inj (hok.symm.trans (thresholdSign_eq team hparty hk))
    obtain ⟨-, hs, hmessage, hcoordinate⟩ :=
      (Ecdsa.verifies_iff S.addOrderOf_generator).mp hverifies
    exact ⟨hparty, hk, lowS_range.mp hs, hmessage, hcoordinate⟩
  · intro h
    refine ⟨_, thresholdSign_eq team h.party h.joint, ?_⟩
    refine (Ecdsa.verifies_iff S.addOrderOf_generator).mpr ⟨?_, lowS_range.mpr h.weighted, h.message,
      h.coordinate⟩
    have hpoint : jointPoint S signers message_hash ≠ 0 := by
      rw [jointPoint, ne_eq, Ecdsa.multiple_eq_zero_iff S.addOrderOf_generator]
      exact h.joint
    have hne := hx _ hpoint
    have hlt := Nat.mod_lt (S.x (jointPoint S signers message_hash)) S.prime.pos
    show 1 ≤ ((S.x (jointPoint S signers message_hash) % S.order : ℕ) : ℤ)
      ∧ ((S.x (jointPoint S signers message_hash) % S.order : ℕ) : ℤ) < S.order
    omega

/-- Points with one first coordinate are equal or opposite. -/
def Separates (S : Curve Γ) : Prop :=
  ∀ P Q : Γ, P ≠ 0 → Q ≠ 0 → (S.x P % S.order = S.x Q % S.order ↔ P = Q ∨ P = -Q)

omit [DecidableEq Γ] in
/-- On a curve, the numbers combine when the equation holds up to the sign. -/
theorem combines_iff (hsep : Separates S) (signers : List (ThresholdSigner Γ))
    (message_hash : List UInt8) (d : ℤ) :
    Combines S signers message_hash d
      ↔ (∀ signer ∈ signers, signer.party_id < 256 ^ 4)
        ∧ jointScalar S signers message_hash ≠ 0 ∧ weightedScalar S signers message_hash ≠ 0
        ∧ (messageScalar S signers message_hash d
              = jointScalar S signers message_hash * weightedScalar S signers message_hash
            ∨ messageScalar S signers message_hash d
              = -(jointScalar S signers message_hash * weightedScalar S signers message_hash)) := by
  set a := messageScalar S signers message_hash d with ha
  set k := jointScalar S signers message_hash with hk
  set w := weightedScalar S signers message_hash with hw
  set s : ZMod S.order := (signatureScalar S signers message_hash : ZMod S.order) with hs
  have hsign : s = w ∨ s = -w := lowS_cast w
  have hG := S.addOrderOf_generator
  -- the coordinate of the equation, for numbers other than zero
  have hcoordinate (hk0 : k ≠ 0) (hw0 : w ≠ 0) (ha0 : a ≠ 0) :
      ((S.x (Ecdsa.multiple S.generator (a * s⁻¹)) % S.order : ℕ) : ℤ)
          = jointCoordinate S signers message_hash
        ↔ a = k * w ∨ a = -(k * w) := by
    have hs0 : s ≠ 0 := by
      rcases hsign with h | h
      · rwa [h]
      · rwa [h, neg_ne_zero]
    have hleft : Ecdsa.multiple S.generator (a * s⁻¹) ≠ 0 := by
      rw [ne_eq, Ecdsa.multiple_eq_zero_iff hG]
      exact mul_ne_zero ha0 (inv_ne_zero hs0)
    have hright : Ecdsa.multiple S.generator k ≠ 0 := by
      rw [ne_eq, Ecdsa.multiple_eq_zero_iff hG]
      exact hk0
    rw [jointCoordinate, jointPoint, Nat.cast_inj, hsep _ _ hleft hright, ← Ecdsa.multiple_neg hG,
      Ecdsa.multiple_inj hG, Ecdsa.multiple_inj hG, ← div_eq_mul_inv, div_eq_iff hs0, div_eq_iff hs0]
    rcases hsign with h | h
    · rw [h, neg_mul]
    · rw [h, mul_neg, neg_mul_neg, or_comm]
  constructor
  · intro h
    exact ⟨h.party, h.joint, h.weighted, (hcoordinate h.joint h.weighted h.message).mp h.coordinate⟩
  · rintro ⟨hparty, hk0, hw0, heq⟩
    have ha0 : a ≠ 0 := by
      rcases heq with h | h
      · rw [h]
        exact mul_ne_zero hk0 hw0
      · rw [h, neg_ne_zero]
        exact mul_ne_zero hk0 hw0
    exact ⟨hparty, hk0, hw0, ha0, (hcoordinate hk0 hw0 ha0).mpr heq⟩

/-! ## Signers of one key -/

/-- The signers that hold the given shares. -/
def signersOf (shares : List (KeyShare Γ)) (nonce_seed : ℤ → List UInt8) :
    List (ThresholdSigner Γ) :=
  shares.map fun share =>
    { key_share := share, party_id := share.party_id, nonce_seed := nonce_seed share.party_id }

omit [DecidableEq Γ] in
theorem team_signersOf {S : Curve Γ} {n t : ℕ} (ht : 1 ≤ t) {master_secret : ℤ} {others : List ℤ}
    {shares : List (KeyShare Γ)} (hsub : shares ⊆ dealShares S n master_secret others)
    (hnodup : (shares.map KeyShare.index).Nodup) (hlen : t + 1 ≤ shares.length)
    (nonce_seed : ℤ → List UInt8) : Team S (signersOf shares nonce_seed) t := by
  have hprime : (0 : ℤ) < S.order := by exact_mod_cast S.prime.pos
  have hshare : ∀ signer ∈ signersOf shares nonce_seed,
      signer.key_share ∈ shares ∧ signer.party_id = signer.key_share.party_id := by
    intro signer hs
    obtain ⟨share, hmem, rfl⟩ := List.mem_map.mp hs
    exact ⟨hmem, rfl⟩
  have hlength : (signersOf shares nonce_seed).length = shares.length := List.length_map _
  refine ⟨fun signer hs => ?_, fun signer hs => ?_, ?_, by omega, by omega⟩
  · obtain ⟨-, -, hvalue, -⟩ := mem_dealShares (hsub (hshare signer hs).1)
    rw [Holds, hvalue]
    exact evaluate_range hprime _ _
  · obtain ⟨hmem, hparty⟩ := hshare signer hs
    obtain ⟨hrange, hindex, -⟩ := mem_dealShares (hsub hmem)
    omega
  · have hparty : (signersOf shares nonce_seed).map ThresholdSigner.party_id
        = shares.map KeyShare.index := by
      rw [signersOf, List.map_map]
      refine List.map_congr_left fun share hmem => ?_
      exact (mem_dealShares (hsub hmem)).2.1
    rw [hparty]
    exact hnodup

omit [DecidableEq Γ] in
/-- The weighted shares of the key are the key. -/
theorem weightedSum_signersOf {S : Curve Γ} {n t : ℕ} (hn : n < S.order) {master_secret : ℤ}
    {others : List ℤ} (ht : others.length ≤ t) {shares : List (KeyShare Γ)}
    (hsub : shares ⊆ dealShares S n master_secret others)
    (hnodup : (shares.map KeyShare.index).Nodup) (hlen : t + 1 ≤ shares.length)
    (nonce_seed : ℤ → List UInt8) :
    weightedSum S (signersOf shares nonce_seed) (fun signer => signer.key_share.private_share)
      = master_secret := by
  have hrecombine := recombine_dealt hn hsub hnodup (by omega)
  rw [weightedSum, signersOf, List.map_map, List.map_map]
  exact hrecombine

/-- **Threshold signatures.** The signature of a run verifies exactly when its numbers combine. On a
curve, with `k` the sum of the nonces and `w` their weighted sum plus the challenge times the key, that
is when the message plus `r` times the key is `k * w` up to the sign. -/
theorem threshold_signature_verifies_iff (S : Curve Γ) (hx : ∀ P ≠ 0, S.x P % S.order ≠ 0) {n t : ℕ}
    (ht : 1 ≤ t) (draw : ℕ → Fin (S.order - 1)) (nonce_seed : ℤ → List UInt8)
    (message_hash : List UInt8) {shares : List (KeyShare Γ)}
    (hsub : shares ⊆ generateKeyShares S n t draw) (hnodup : (shares.map KeyShare.index).Nodup)
    (hlen : t + 1 ≤ shares.length) :
    let signers := signersOf shares nonce_seed
    let d : ℤ := (draw 0 : ℕ) + 1
    ((∃ sig, thresholdSign S signers message_hash t = .ok sig
          ∧ sig.Verifies S message_hash (d • S.generator))
        ↔ Combines S signers message_hash d)
      ∧ (Separates S →
          (Combines S signers message_hash d
            ↔ (∀ signer ∈ signers, signer.party_id < 256 ^ 4)
              ∧ jointScalar S signers message_hash ≠ 0 ∧ weightedScalar S signers message_hash ≠ 0
              ∧ (messageScalar S signers message_hash d
                    = jointScalar S signers message_hash * weightedScalar S signers message_hash
                  ∨ messageScalar S signers message_hash d
                    = -(jointScalar S signers message_hash
                        * weightedScalar S signers message_hash))))
      ∧ (n < S.order →
          weightedSum S signers (fun signer => signer.key_share.private_share) = (d : ZMod S.order)) := by
  have team := team_signersOf ht hsub hnodup hlen nonce_seed
  refine ⟨thresholdSign_verifies_iff hx team message_hash _,
    fun hsep => combines_iff hsep _ message_hash _, fun hn => ?_⟩
  refine weightedSum_signersOf hn ?_ hsub hnodup hlen nonce_seed
  rw [List.length_map, List.length_range]

/-! ### A key of three parties, two of whom sign -/

def firstDraws : ℕ → Fin (elevenCurve.order - 1) := fun i => if i = 0 then (4 : Fin 10) else (2 : Fin 10)

def firstTwo : List (KeyShare (ZMod 11)) := (generateKeyShares elevenCurve 3 1 firstDraws).take 2

/-- The number of a party as its seed. -/
def partySeed (party : ℤ) : List UInt8 := [UInt8.ofNat party.toNat]

theorem elevenCurve_x_ne_zero : ∀ P : ZMod 11, P ≠ 0 → elevenCurve.x P % elevenCurve.order ≠ 0 := by
  decide +kernel

theorem threshold_signature_unverified :
    (∀ P ≠ 0, elevenCurve.x P % elevenCurve.order ≠ 0)
      ∧ firstTwo ⊆ generateKeyShares elevenCurve 3 1 firstDraws
      ∧ (firstTwo.map KeyShare.index).Nodup ∧ firstTwo.length = 1 + 1
      ∧ ¬ ∃ sig, thresholdSign elevenCurve (signersOf firstTwo partySeed) [1] 1 = .ok sig
          ∧ sig.Verifies elevenCurve [1] (5 • elevenCurve.generator) := by
  refine ⟨elevenCurve_x_ne_zero, List.take_subset _ _, by decide +kernel, by decide +kernel, ?_⟩
  rintro ⟨sig, hok, hverifies⟩
  have hsig : thresholdSign elevenCurve (signersOf firstTwo partySeed) [1] 1 = .ok ⟨2, 1⟩ := by
    decide +kernel
  obtain rfl := Except.ok.inj (hok.symm.trans hsig)
  -- the point of the equation is `INFINITY`
  obtain ⟨-, -, hpoint, -⟩ := hverifies
  refine hpoint ?_
  show Ecdsa.point 11 (1 : ZMod 11) (5 • (1 : ZMod 11)) 1 2 1 = 0
  rw [Ecdsa.point, Int.cast_one, ZMod.inv_one]
  decide +kernel

theorem threshold_signature_verifies_iff_eleven :
    (∃ sig, thresholdSign elevenCurve (signersOf firstTwo partySeed) [1] (1 : ℕ) = .ok sig
        ∧ sig.Verifies elevenCurve [1] (((firstDraws 0 : ℕ) + 1 : ℤ) • elevenCurve.generator))
      ↔ Combines elevenCurve (signersOf firstTwo partySeed) [1] ((firstDraws 0 : ℕ) + 1) :=
  (threshold_signature_verifies_iff elevenCurve elevenCurve_x_ne_zero (n := 3) (le_refl 1) firstDraws
    partySeed [1] (List.take_subset _ _) (by decide +kernel) (by decide +kernel)).1

end Sthrip
