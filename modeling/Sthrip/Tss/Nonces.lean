import Sthrip.Tss.Sessions

set_option autoImplicit false

/-! # Nonces over many sessions

The nonce of a signer is determined by the message, the challenge also by the nonces of the others.
Two sessions about one message with different nonces of the others give away the share of the key.
-/

namespace Sthrip

open Python ThresholdSigner

variable {Γ : Type} [AddCommGroup Γ]

/-! ## A signer's sessions -/

/-- What a session gives a signer: the message, the threshold, and the commitments of the others that
are added before and after its own. -/
structure SigningRound (Γ : Type) where
  message_hash : List UInt8
  threshold : ℤ
  before : List (PartialSignature Γ)
  after : List (PartialSignature Γ)

namespace SigningRound

variable (S : Curve Γ) (signer : ThresholdSigner Γ) (round : SigningRound Γ)

/-- The context of the second phase, and the signature share that the signer issues. -/
def run [DecidableEq Γ] : Py (SigningContext Γ × PartialSignature Γ) := do
  let own ← signer.createPartialSignature S round.message_hash none
  let session ← (SigningSession.init round.message_hash round.threshold).collect
    (round.before ++ own :: round.after)
  let (_, context) ← session.finalizeCommitments S
  let completed ← signer.completeSignature S own context
  pure (context, completed)

/-- The public nonces of the session, the last one of each party. -/
def nonces : List (ℤ × Γ) :=
  (round.before.map (fun sig => (sig.party_id, sig.public_nonce))
      ++ (signer.party_id, signer.nonce S round.message_hash • S.generator)
        :: round.after.map fun sig => (sig.party_id, sig.public_nonce)).foldl
    (fun d e => setItem e.1 e.2 d) []

/-- Their sum. -/
def joint : Γ := ((round.nonces S signer).map Prod.snd).sum

/-- The session reaches its second phase. -/
structure Opens : Prop where
  party : 0 ≤ signer.party_id ∧ signer.party_id < 256 ^ 4
  enough : round.threshold ≤ (round.nonces S signer).length
  joint : round.joint S signer ≠ 0

def challenge : ℤ :=
  (S.sha256 (S.toBytes (round.joint S signer) ++ round.message_hash) % S.order : ℕ)

theorem challenge_range :
    0 ≤ round.challenge S signer ∧ round.challenge S signer < S.order := by
  have hlt := Nat.mod_lt (S.sha256 (S.toBytes (round.joint S signer) ++ round.message_hash)) S.prime.pos
  unfold challenge
  omega

end SigningRound

section Run

variable {S : Curve Γ} {signer : ThresholdSigner Γ} {round : SigningRound Γ}

/-- The commitments of the session. -/
theorem SigningRound.collect {own : PartialSignature Γ}
    (hown : signer.Sends S round.message_hash own) :
    ∃ session, (SigningSession.init round.message_hash round.threshold).collect
          (round.before ++ own :: round.after) = .ok session
      ∧ session.message_hash = round.message_hash ∧ session.threshold = round.threshold
      ∧ session.commitments ≠ []
      ∧ session.commitments.length = (round.nonces S signer).length
      ∧ session.jointNonce = round.joint S signer := by
  set sigs := round.before ++ own :: round.after with hsigs
  have hnonces : (sigs.foldl (fun d sig => setItem sig.party_id sig d) []).map
      (fun e => (e.1, e.2.public_nonce)) = round.nonces S signer := by
    have hmap (d : List (ℤ × PartialSignature Γ)) (l : List (PartialSignature Γ)) :
        (l.foldl (fun d sig => setItem sig.party_id sig d) d).map (fun e => (e.1, e.2.public_nonce))
          = (l.map fun sig => (sig.party_id, sig.public_nonce)).foldl (fun d e => setItem e.1 e.2 d)
              (d.map fun e => (e.1, e.2.public_nonce)) := by
      induction l generalizing d with
      | nil => rfl
      | cons sig l ih => rw [List.foldl_cons, ih, map_setItem, List.map_cons, List.foldl_cons]
    rw [hmap, hsigs, List.map_append, List.map_cons, hown.1, hown.2]
    rfl
  refine ⟨_, SigningSession.collect_ok sigs rfl, rfl, rfl, ?_, ?_, ?_⟩
  · show sigs.foldl (fun d sig => setItem sig.party_id sig d) [] ≠ []
    rw [hsigs, List.foldl_append, List.foldl_cons]
    refine List.foldlRecOn round.after _ (motive := fun d => d ≠ []) (setItem_ne_nil _ _ _) ?_
    exact fun d _ sig _ => setItem_ne_nil sig.party_id sig d
  · show (sigs.foldl (fun d sig => setItem sig.party_id sig d) []).length = _
    rw [← hnonces, List.length_map]
  · show ((sigs.foldl (fun d sig => setItem sig.party_id sig d) []).map
      fun e => e.2.public_nonce).sum = _
    rw [SigningRound.joint, ← hnonces, List.map_map]
    rfl

variable [DecidableEq Γ]

/-- A session that reaches its second phase gets a signature share. -/
theorem SigningRound.run_ok (hsigner : signer.Holds S) (hopens : round.Opens S signer) :
    ∃ context completed, round.run S signer = .ok (context, completed)
      ∧ context.message_hash = round.message_hash ∧ context.challenge = round.challenge S signer
      ∧ completed.z = some (computeSignatureShare S (signer.nonce S round.message_hash)
          (round.challenge S signer) signer.key_share.private_share) := by
  obtain ⟨own, hcreate, hown⟩ := createPartialSignature_ok hsigner hopens.party round.message_hash
  obtain ⟨session, hcollect, hmessage, hthreshold, hne, hlen, hjoint⟩ := SigningRound.collect hown
  have hfinal := SigningSession.finalizeCommitments_ok (S := S) hne
    (by rw [hthreshold, hlen]; exact hopens.enough) (hjoint ▸ hopens.joint)
  rw [hjoint, hmessage] at hfinal
  set context : SigningContext Γ := {
    message_hash := round.message_hash
    participants := session.participants
    aggregated_nonce := some (round.joint S signer)
    challenge := round.challenge S signer }
  obtain ⟨completed, hcomplete, -, hz⟩ := completeSignature_ok hsigner own context
  refine ⟨context, completed, ?_, rfl, rfl, hz⟩
  refine bind_eq_ok.mpr ⟨own, hcreate, bind_eq_ok.mpr ⟨session, hcollect, ?_⟩⟩
  exact bind_eq_ok.mpr ⟨_, hfinal, bind_eq_ok.mpr ⟨completed, hcomplete, rfl⟩⟩

theorem SigningRound.of_run_ok (hsigner : signer.Holds S)
    {issued : SigningContext Γ × PartialSignature Γ} (hok : round.run S signer = .ok issued) :
    round.Opens S signer := by
  unfold SigningRound.run at hok
  obtain ⟨own, hcreate, hok⟩ := bind_eq_ok.mp hok
  have hparty : 0 ≤ signer.party_id ∧ signer.party_id < 256 ^ 4 := by
    by_contra hparty
    exact createPartialSignature_error hparty round.message_hash none own hcreate
  obtain ⟨own', hcreate', hown⟩ := createPartialSignature_ok hsigner hparty round.message_hash
  obtain rfl : own = own' := Except.ok.inj (hcreate.symm.trans hcreate')
  obtain ⟨session, hcollect, hok⟩ := bind_eq_ok.mp hok
  obtain ⟨session', hcollect', -, hthreshold, hne, hlen, hjoint⟩ := SigningRound.collect hown
  obtain rfl : session = session' := Except.ok.inj (hcollect.symm.trans hcollect')
  obtain ⟨next, hfinal, -⟩ := bind_eq_ok.mp hok
  have hclosed : ¬ ((session.commitments.length : ℤ) < session.threshold ∨ session.jointNonce = 0) :=
    fun h => SigningSession.finalizeCommitments_error hne h next hfinal
  rw [not_or, hlen, hthreshold, hjoint] at hclosed
  exact ⟨hparty, not_lt.mp hclosed.1, hclosed.2⟩

end Run

/-! ## Histories -/

section Histories

variable [DecidableEq Γ] (S : Curve Γ) (signer : ThresholdSigner Γ) (history : List (SigningRound Γ))

/-- The shares that a signer issues in a history of sessions, with their contexts. -/
def issued : List (SigningContext Γ × PartialSignature Γ) :=
  history.filterMap fun round => (round.run S signer).toOption

/-- No two issued shares have one nonce and different challenges. -/
def NoncesFresh : Prop :=
  ∀ i ∈ issued S signer history, ∀ j ∈ issued S signer history,
    signer.nonce S i.1.message_hash = signer.nonce S j.1.message_hash → i.1.challenge = j.1.challenge

/-- Every number can be the share of the key, with other nonces for the messages. -/
def Undetermined : Prop :=
  ∀ share : ZMod S.order, ∃ nonce : List UInt8 → ZMod S.order,
    ∀ i ∈ issued S signer history, ∀ z, i.2.z = some z →
      (z : ZMod S.order) = nonce i.1.message_hash + i.1.challenge * share

omit [DecidableEq Γ] in
/-- The hashes of a history do not collide. -/
structure CollisionFree : Prop where
  nonce : ∀ a ∈ history, ∀ b ∈ history,
    signer.nonce S a.message_hash = signer.nonce S b.message_hash → a.message_hash = b.message_hash
  challenge : ∀ a ∈ history, ∀ b ∈ history,
    a.challenge S signer = b.challenge S signer → a.joint S signer = b.joint S signer

/-- Sessions about one message that reach their second phase have one joint nonce. -/
def SteadyNonces : Prop :=
  ∀ a ∈ history, ∀ b ∈ history, a.Opens S signer → b.Opens S signer →
    a.message_hash = b.message_hash → a.joint S signer = b.joint S signer

variable {S signer history}

/-- A session that reaches its second phase, as a share that is issued. -/
theorem mem_issued (hsigner : signer.Holds S) {round : SigningRound Γ} (hround : round ∈ history)
    (hopens : round.Opens S signer) :
    ∃ i ∈ issued S signer history, i.1.message_hash = round.message_hash
      ∧ i.1.challenge = round.challenge S signer
      ∧ i.2.z = some (computeSignatureShare S (signer.nonce S round.message_hash)
          (round.challenge S signer) signer.key_share.private_share) := by
  obtain ⟨context, completed, hok, hmessage, hchallenge, hz⟩ := round.run_ok hsigner hopens
  refine ⟨(context, completed), ?_, hmessage, hchallenge, hz⟩
  refine List.mem_filterMap.mpr ⟨round, hround, ?_⟩
  rw [hok]
  rfl

/-- An issued share comes of a session that reaches its second phase. -/
theorem of_mem_issued (hsigner : signer.Holds S) {i : SigningContext Γ × PartialSignature Γ}
    (hi : i ∈ issued S signer history) :
    ∃ round ∈ history, round.Opens S signer ∧ i.1.message_hash = round.message_hash
      ∧ i.1.challenge = round.challenge S signer
      ∧ i.2.z = some (computeSignatureShare S (signer.nonce S round.message_hash)
          (round.challenge S signer) signer.key_share.private_share) := by
  obtain ⟨round, hround, hsome⟩ := List.mem_filterMap.mp hi
  have hok : round.run S signer = .ok i := by
    cases hrun : round.run S signer with
    | error e =>
        rw [hrun] at hsome
        cases hsome
    | ok j =>
        rw [hrun] at hsome
        rw [Option.some.inj hsome]
  have hopens := round.of_run_ok hsigner hok
  obtain ⟨context, completed, hok', hmessage, hchallenge, hz⟩ := round.run_ok hsigner hopens
  obtain rfl : i = (context, completed) := Except.ok.inj (hok.symm.trans hok')
  exact ⟨round, hround, hopens, hmessage, hchallenge, hz⟩

/-- Nonces are fresh when sessions about one message have one joint nonce. -/
theorem noncesFresh_iff (hsigner : signer.Holds S) (hfree : CollisionFree S signer history) :
    NoncesFresh S signer history ↔ SteadyNonces S signer history := by
  constructor
  · intro h a ha b hb hopensa hopensb hmessage
    obtain ⟨i, hi, hmessagei, hchallengei, -⟩ := mem_issued hsigner ha hopensa
    obtain ⟨j, hj, hmessagej, hchallengej, -⟩ := mem_issued hsigner hb hopensb
    refine hfree.challenge a ha b hb ?_
    rw [← hchallengei, ← hchallengej]
    exact h i hi j hj (by rw [hmessagei, hmessagej, hmessage])
  · intro h i hi j hj hnonce
    obtain ⟨a, ha, hopensa, hmessagei, hchallengei, -⟩ := of_mem_issued hsigner hi
    obtain ⟨b, hb, hopensb, hmessagej, hchallengej, -⟩ := of_mem_issued hsigner hj
    rw [hmessagei, hmessagej] at hnonce
    have hmessage := hfree.nonce a ha b hb hnonce
    have hjoint := h a ha b hb hopensa hopensb hmessage
    rw [hchallengei, hchallengej, SigningRound.challenge, SigningRound.challenge, hjoint, hmessage]

omit [DecidableEq Γ] in
/-- Two shares with one nonce and different challenges determine the share of the key. -/
theorem share_eq_div {nonce share e e' z z' : ZMod S.order} (he : e ≠ e') (hz : z = nonce + e * share)
    (hz' : z' = nonce + e' * share) : share = (z - z') / (e - e') := by
  rw [eq_div_iff (sub_ne_zero.mpr he), hz, hz']
  ring

/-- The share of the key is hidden when sessions about one message have one joint nonce. -/
theorem undetermined_iff (hsigner : signer.Holds S) (hfree : CollisionFree S signer history) :
    Undetermined S signer history ↔ SteadyNonces S signer history := by
  constructor
  · intro h a ha b hb hopensa hopensb hmessage
    by_contra hjoint
    obtain ⟨i, hi, hmessagei, hchallengei, hzi⟩ := mem_issued hsigner ha hopensa
    obtain ⟨j, hj, hmessagej, hchallengej, hzj⟩ := mem_issued hsigner hb hopensb
    have hne : (i.1.challenge : ZMod S.order) ≠ j.1.challenge := by
      intro hcast
      rw [hchallengei, hchallengej] at hcast
      exact hjoint (hfree.challenge a ha b hb
        (cast_inj_of_lt (a.challenge_range S signer) (b.challenge_range S signer) hcast))
    obtain ⟨z, hz⟩ : ∃ z, i.2.z = some z := ⟨_, hzi⟩
    obtain ⟨z', hz'⟩ : ∃ z', j.2.z = some z' := ⟨_, hzj⟩
    -- every number would be the quotient of the differences
    have hquotient (share : ZMod S.order) :
        share = ((z : ZMod S.order) - z') / (i.1.challenge - j.1.challenge) := by
      obtain ⟨nonce, hnonce⟩ := h share
      have hfirst := hnonce i hi z hz
      have hsecond := hnonce j hj z' hz'
      rw [hmessagej, ← hmessage, ← hmessagei] at hsecond
      exact share_eq_div hne hfirst hsecond
    exact zero_ne_one ((hquotient 0).trans (hquotient 1).symm)
  · intro h share
    classical
    -- the nonce of a message is what is left of the share that is issued for it
    refine ⟨fun m =>
      if hm : ∃ i ∈ issued S signer history, i.1.message_hash = m then
        ((hm.choose.2.z.getD 0 : ℤ) : ZMod S.order) - hm.choose.1.challenge * share
      else 0, fun i hi z hz => ?_⟩
    have hm : ∃ j ∈ issued S signer history, j.1.message_hash = i.1.message_hash := ⟨i, hi, rfl⟩
    obtain ⟨hj, hmessage⟩ := hm.choose_spec
    obtain ⟨a, ha, hopensa, hmessagei, hchallengei, hzi⟩ := of_mem_issued hsigner hi
    obtain ⟨b, hb, hopensb, hmessagej, hchallengej, hzj⟩ := of_mem_issued hsigner hj
    have hround : b.message_hash = a.message_hash := by rw [← hmessagej, hmessage, hmessagei]
    have hchallenge : b.challenge S signer = a.challenge S signer := by
      rw [SigningRound.challenge, SigningRound.challenge, h b hb a ha hopensb hopensa hround, hround]
    have hshare : hm.choose.2.z = some z := by
      rw [← hz, hzi, hzj, hround, hchallenge]
    beta_reduce
    rw [dif_pos hm, hshare, hchallengej, hchallenge, ← hchallengei, Option.getD_some, sub_add_cancel]

end Histories

/-- **Nonces over many sessions.** The shares that a signer issues use fresh nonces, and hide its share
of the key, exactly when sessions about one message have one joint nonce. -/
theorem noncesFresh_and_undetermined_iff [DecidableEq Γ] (S : Curve Γ) {signer : ThresholdSigner Γ}
    (hsigner : signer.Holds S) {history : List (SigningRound Γ)}
    (hfree : CollisionFree S signer history) :
    (NoncesFresh S signer history ↔ SteadyNonces S signer history)
      ∧ (Undetermined S signer history ↔ SteadyNonces S signer history) :=
  ⟨noncesFresh_iff hsigner hfree, undetermined_iff hsigner hfree⟩

/-! ### One message, two sessions -/

def firstSigner : ThresholdSigner (ZMod 11) where
  key_share :=
    { party_id := 1, index := 1, private_share := 8, public_key := 5, commitments := [5, (3 : ℕ)] }
  party_id := 1
  nonce_seed := [1]

/-- A session in which the other party commits to `point`. -/
def roundWith (point : ZMod 11) : SigningRound (ZMod 11) where
  message_hash := [1]
  threshold := 1
  before := []
  after := [{ party_id := 2, index := 2, c := 0, z := none, public_nonce := point }]

theorem firstSigner_holds : firstSigner.Holds elevenCurve := by
  constructor <;> decide

theorem collisionFree_roundWith :
    CollisionFree elevenCurve firstSigner [roundWith 2, roundWith 3] := by
  constructor <;> decide +kernel

theorem nonce_reused :
    firstSigner.Holds elevenCurve
      ∧ CollisionFree elevenCurve firstSigner [roundWith 2, roundWith 3]
      ∧ ¬ NoncesFresh elevenCurve firstSigner [roundWith 2, roundWith 3]
      ∧ ¬ Undetermined elevenCurve firstSigner [roundWith 2, roundWith 3] := by
  have hreused : ¬ NoncesFresh elevenCurve firstSigner [roundWith 2, roundWith 3] := by
    unfold NoncesFresh
    decide +kernel
  refine ⟨firstSigner_holds, collisionFree_roundWith, hreused, ?_⟩
  rw [undetermined_iff firstSigner_holds collisionFree_roundWith,
    ← noncesFresh_iff firstSigner_holds collisionFree_roundWith]
  exact hreused

theorem noncesFresh_and_undetermined_iff_eleven :
    (NoncesFresh elevenCurve firstSigner [roundWith 2, roundWith 3]
        ↔ SteadyNonces elevenCurve firstSigner [roundWith 2, roundWith 3])
      ∧ (Undetermined elevenCurve firstSigner [roundWith 2, roundWith 3]
        ↔ SteadyNonces elevenCurve firstSigner [roundWith 2, roundWith 3]) :=
  noncesFresh_and_undetermined_iff elevenCurve firstSigner_holds collisionFree_roundWith

end Sthrip
