import Sthrip.Bitcoin.Script
import Sthrip.Python.Values

set_option autoImplicit false

/-! # Proof of work at registration

`services/pow_service.py`, and what `api/routers/agents.py` does with it. A challenge is not stored: the
server checks what the client sends back. Moments are in microseconds of UTC.
-/

namespace Sthrip

open Python (Reader)

/-- A moment that is read, with or without a time zone. -/
inductive ReadTime
  | naive (t : ℤ)
  | aware (t : ℤ)

/-- A naive moment is taken as UTC. -/
def ReadTime.utc : ReadTime → ℤ
  | naive t => t
  | aware t => t

/-- How moments are written and read: what is written is read back. -/
structure IsoFormat where
  isoformat : ℤ → String
  fromisoformat : String → Option ReadTime
  fromisoformat_isoformat : ∀ t, fromisoformat (isoformat t) = some (.aware t)

/-- The constructor raises for any other difficulty. -/
structure POWService where
  difficulty_bits : ℤ
  one_le : 1 ≤ difficulty_bits
  le_32 : difficulty_bits ≤ 32

/-- What `create_challenge` returns. -/
structure POWChallenge where
  algorithm : String
  difficulty_bits : ℤ
  nonce : String
  expires_at : String
deriving DecidableEq

/-- What a client sends with its registration. -/
structure POWSubmission where
  nonce : String
  difficulty_bits : ℤ
  expires_at : String
  solution : String
deriving DecidableEq

namespace POWService

/-- The moment at which a challenge expires. -/
def expiry (now ttl_minutes : ℤ) : ℤ := now + ttl_minutes * 60000000

/-- `create_challenge`, with the nonce that is drawn. -/
def createChallenge (iso : IsoFormat) (svc : POWService) (now ttl_minutes : ℤ) (nonce : String) :
    Except String POWChallenge :=
  if ttl_minutes < 1 then .error "ttl_minutes must be >= 1"
  else .ok
    { algorithm := "sha256", difficulty_bits := svc.difficulty_bits, nonce
      expires_at := iso.isoformat (expiry now ttl_minutes) }

/-- The bits of some bytes, the highest first. -/
def bitsOf (b : List UInt8) : List Bool :=
  b.flatMap fun x => [7, 6, 5, 4, 3, 2, 1, 0].map fun i => x.toNat.testBit i

/-- `bits[:n]` -/
def sliceTo (bits : List Bool) (n : ℤ) : List Bool :=
  if 0 ≤ n then bits.take n.toNat else bits.take (bits.length + n).toNat

/-- `bits[:n] == "0" * n` -/
def beginsWithZeros (bits : List Bool) (n : ℤ) : Bool := sliceTo bits n = List.replicate n.toNat false

/-- `_check_hash` -/
def checkHash (nonce : String) (counter difficulty_bits : ℤ) : Bool :=
  let candidate := nonce ++ ":" ++ toString counter
  beginsWithZeros (bitsOf (Bitcoin.sha256 candidate.toUTF8.toList)) difficulty_bits

/-- `verify`, with the fields of the challenge as the client sends them. -/
def verify (iso : IsoFormat) (py : Reader) (now : ℤ) (challenge : POWSubmission) : Bool :=
  match iso.fromisoformat challenge.expires_at with
  | none => false
  | some expires_at =>
      if now > expires_at.utc then false
      else
        match py.int 10 challenge.solution with
        | none => false
        | some counter => checkHash challenge.nonce counter challenge.difficulty_bits

end POWService

/-- What `register_agent` does before it registers the agent; a proof is optional. -/
def checkProofOfWork (iso : IsoFormat) (py : Reader) (now : ℤ) (pow_challenge : Option POWSubmission) :
    Except (ℕ × String) Unit :=
  match pow_challenge with
  | none => .ok ()
  | some challenge =>
      if POWService.verify iso py now challenge then .ok ()
      else .error (400, "Invalid or expired proof-of-work solution")

end Sthrip

/-! # Challenges that were issued

A proof of work is worth something when it answers a challenge of the server: one that has not expired, at
the difficulty of the server, and once. The server knows nothing of the challenges that it has issued, so
that this holds of the clients that send back what they were given, and send it once.
-/

namespace Sthrip

open Python (Reader)

namespace POWService

/-! ## The hash -/

/-- Zeros enough for a difficulty are enough for a lower one. -/
theorem beginsWithZeros_of_le {bits : List Bool} {d d' : ℤ} (hd : 0 ≤ d) (hle : d ≤ d')
    (h : beginsWithZeros bits d' = true) : beginsWithZeros bits d = true := by
  unfold beginsWithZeros sliceTo at h ⊢
  rw [if_pos (hd.trans hle)] at h
  rw [if_pos hd]
  have hnat : d.toNat ≤ d'.toNat := Int.toNat_le_toNat hle
  have htake := congrArg (List.take d.toNat) (of_decide_eq_true h)
  rw [List.take_take, Nat.min_eq_left hnat, List.take_replicate, Nat.min_eq_left hnat] at htake
  exact decide_eq_true htake

/-- A difficulty of no bits is met by every hash. -/
theorem beginsWithZeros_zero (bits : List Bool) : beginsWithZeros bits 0 = true := rfl

/-- What an accepted proof says of itself. -/
theorem verify_iff {iso : IsoFormat} {py : Reader} {now : ℤ} {challenge : POWSubmission} :
    verify iso py now challenge = true ↔
      ∃ t counter, iso.fromisoformat challenge.expires_at = some t ∧ now ≤ t.utc ∧
        py.int 10 challenge.solution = some counter ∧
        checkHash challenge.nonce counter challenge.difficulty_bits = true := by
  unfold verify
  constructor
  · intro h
    split at h
    · cases h
    · next t ht =>
        split at h
        · cases h
        · next hle =>
            split at h
            · cases h
            · next counter hcounter => exact ⟨t, counter, ht, not_lt.mp hle, hcounter, h⟩
  · rintro ⟨t, counter, ht, hle, hcounter, h⟩
    rw [ht, hcounter]
    exact (if_neg (not_lt.mpr hle)).trans h

end POWService

/-! ## Histories -/

inductive PowEvent
  | create_challenge (now ttl_minutes : ℤ) (nonce : String)
  | register_agent (now : ℤ) (pow_challenge : Option POWSubmission)

/-- The challenges that have been issued, with the moments at which they expire, and the nonces of the
proofs that have been accepted. The server has none of this. -/
structure PowHistory where
  issued : List (POWChallenge × ℤ) := []
  accepted : List String := []

variable (iso : IsoFormat) (py : Reader) (svc : POWService)

/-- The proof of an attempt is accepted. -/
def IsAccepted (now : ℤ) (challenge : POWSubmission) : Prop :=
  checkProofOfWork iso py now (some challenge) = .ok ()

def PowHistory.after (h : PowHistory) : PowEvent → PowHistory
  | .create_challenge now ttl_minutes nonce =>
      match svc.createChallenge iso now ttl_minutes nonce with
      | .ok challenge => { h with issued := (challenge, POWService.expiry now ttl_minutes) :: h.issued }
      | .error _ => h
  | .register_agent now (some challenge) =>
      if checkProofOfWork iso py now (some challenge) = .ok () then
        { h with accepted := challenge.nonce :: h.accepted }
      else h
  | .register_agent _ none => h

/-- At each event. -/
def Along (P : PowHistory → PowEvent → Prop) : PowHistory → List PowEvent → Prop
  | _, [] => True
  | h, e :: events => P h e ∧ Along P (h.after iso py svc e) events

/-- A proof that is accepted answers a challenge that was issued and has not expired, meets the difficulty
of the server, and is the first one for its nonce. -/
def AnswersIssued (h : PowHistory) : PowEvent → Prop
  | .register_agent now (some challenge) =>
      IsAccepted iso py now challenge →
        (∃ c ∈ h.issued, c.1.nonce = challenge.nonce ∧ now ≤ c.2) ∧
        (∃ counter, py.int 10 challenge.solution = some counter ∧
          POWService.checkHash challenge.nonce counter svc.difficulty_bits = true) ∧
        challenge.nonce ∉ h.accepted
  | _ => True

/-- The client sends the nonce of a challenge that was issued, with no later expiry and no lower
difficulty, and has not sent it with success before. -/
def SendsBack (h : PowHistory) : PowEvent → Prop
  | .register_agent _ (some challenge) =>
      (∃ c ∈ h.issued, c.1.nonce = challenge.nonce ∧
        ∀ t, iso.fromisoformat challenge.expires_at = some t → t.utc ≤ c.2) ∧
      svc.difficulty_bits ≤ challenge.difficulty_bits ∧ challenge.nonce ∉ h.accepted
  | _ => True

variable {iso py svc}

theorem isAccepted_iff {now : ℤ} {challenge : POWSubmission} :
    IsAccepted iso py now challenge ↔ POWService.verify iso py now challenge = true := by
  unfold IsAccepted checkProofOfWork
  dsimp only
  split
  · next h => exact iff_of_true rfl h
  · next h => exact iff_of_false (fun hok => by cases hok) h

/-- One attempt. -/
theorem SendsBack.answersIssued {h : PowHistory} {e : PowEvent} (hback : SendsBack iso svc h e) :
    AnswersIssued iso py svc h e := by
  cases e with
  | create_challenge => trivial
  | register_agent now pow_challenge =>
      cases pow_challenge with
      | none => trivial
      | some challenge =>
          intro haccepted
          obtain ⟨t, counter, ht, hle, hcounter, hhash⟩ :=
            POWService.verify_iff.mp (isAccepted_iff.mp haccepted)
          obtain ⟨⟨c, hc, hnonce, hexpires⟩, hdifficulty, hfresh⟩ := hback
          refine ⟨⟨c, hc, hnonce, hle.trans (hexpires t ht)⟩, ⟨counter, hcounter, ?_⟩, hfresh⟩
          have hpos : 0 ≤ svc.difficulty_bits := le_trans (by decide) svc.one_le
          exact POWService.beginsWithZeros_of_le hpos hdifficulty hhash

theorem Along.mono {P Q : PowHistory → PowEvent → Prop} (hPQ : ∀ h e, P h e → Q h e) {h : PowHistory}
    {events : List PowEvent} (hP : Along iso py svc P h events) : Along iso py svc Q h events := by
  induction events generalizing h with
  | nil => trivial
  | cons e events ih => exact ⟨hPQ h e hP.1, ih hP.2⟩

/-- **Accepted proofs answer issued challenges**, each once, in every run in which the clients send back
what they were given. -/
theorem proofs_answerIssued (iso : IsoFormat) (py : Reader) (svc : POWService) (events : List PowEvent)
    (hback : Along iso py svc (SendsBack iso svc) {} events) :
    Along iso py svc (AnswersIssued iso py svc) {} events :=
  hback.mono fun _ _ h => h.answersIssued

/-! ## A challenge that was never issued -/

/-- Ten minutes after the epoch. -/
def tenMinutes : String := "1970-01-01T00:10:00+00:00"

theorem tenMinutes_ne (t : ℤ) : toString t ≠ tenMinutes := by
  intro h
  have hread := Python.readInt_toString t
  have hnone : Python.readInt 10 tenMinutes = none := by decide
  rw [h, hnone] at hread
  cases hread

/-- One moment as it is written, and the others as numbers. -/
def isoTenMinutes : IsoFormat where
  isoformat t := if t = 600000000 then tenMinutes else toString t
  fromisoformat s :=
    if s = tenMinutes then some (.aware 600000000) else (Python.readInt 10 s).map .aware
  fromisoformat_isoformat t := by
    by_cases ht : t = 600000000
    · rw [if_pos ht, if_pos rfl, ht]
    · rw [if_neg ht, if_neg (tenMinutes_ne t), Python.readInt_toString]
      rfl

theorem read_tenMinutes : isoTenMinutes.fromisoformat tenMinutes = some (.aware 600000000) :=
  isoTenMinutes.fromisoformat_isoformat 600000000

def twentyBits : POWService := ⟨20, by decide, by decide⟩

/-- A client that sends back what it was given. -/
def sentBack : List PowEvent :=
  [.create_challenge 0 10 "00112233445566778899aabbccddeeff",
    .register_agent 1 (some ⟨"00112233445566778899aabbccddeeff", 20, tenMinutes, "3"⟩)]

theorem proofs_answerIssued_sentBack :
    Along isoTenMinutes Reader.plain twentyBits (AnswersIssued isoTenMinutes Reader.plain twentyBits) {}
      sentBack := by
  refine proofs_answerIssued isoTenMinutes Reader.plain twentyBits sentBack ⟨trivial, ⟨?_, ?_, ?_⟩, trivial⟩
  · refine ⟨_, List.mem_cons_self, rfl, fun t ht => ?_⟩
    obtain rfl := Option.some.inj (read_tenMinutes.symm.trans ht)
    exact le_rfl
  · exact le_rfl
  · exact List.not_mem_nil

/-- Without a challenge, a client that asks no zeros of itself is accepted. -/
theorem proof_neverIssued : ¬∀ (iso : IsoFormat) (py : Reader) (svc : POWService) (events : List PowEvent),
    Along iso py svc (AnswersIssued iso py svc) {} events := by
  intro h
  have haccepted : IsAccepted isoTenMinutes Reader.plain 0 ⟨"mine", 0, tenMinutes, "0"⟩ :=
    isAccepted_iff.mpr (POWService.verify_iff.mpr
      ⟨.aware 600000000, 0, read_tenMinutes, by decide, by decide, POWService.beginsWithZeros_zero _⟩)
  obtain ⟨⟨c, hc, -⟩, -⟩ := (h isoTenMinutes Reader.plain twentyBits
    [.register_agent 0 (some ⟨"mine", 0, tenMinutes, "0"⟩)]).1 haccepted
  exact absurd hc List.not_mem_nil

end Sthrip
