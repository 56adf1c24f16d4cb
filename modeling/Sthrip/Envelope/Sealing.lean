import Mathlib.Logic.Equiv.List
import Sthrip.Services.EnvelopeCodec

set_option autoImplicit false

/-! # Envelopes there and back

A payload that is sealed, packed, unpacked and opened is the normalised payload. Bytes that are no envelope
are refused with a `ValueError`, unless they are a map with all the fields in which the version is of a type
that `int` does not take.
-/

namespace Sthrip.EnvelopeCodec

open Python (Value)

variable (L : Libraries)

/-! ## Reading -/

/-- An envelope, or the error that is documented. -/
def Clean (answer : Py (PaymentEnvelope Packed)) : Prop :=
  (∃ envelope, answer = .ok envelope) ∨ ∃ message, answer = .error (.ValueError message)

/-- What `int` refuses with another error than `ValueError`. -/
def NoNumber : Packed → Prop
  | .nil | .infinity _ | .array _ | .map _ | .ext _ _ | .timestamp _ _ => True
  | _ => False

/-- A map with all the fields, in which the version is no number. -/
def VersionlessMap (blob : Bytes) : Prop :=
  ∃ d version, L.unpackb blob = .ok (.map d) ∧ d.lookup (.inl "v") = some version ∧ NoNumber version ∧
    ∀ key ∈ ["n", "c", "wh", "wo"], (d.lookup (.inl key)).isSome = true

variable {L}

theorem item_cases (d : List ((String ⊕ Bytes) × Packed)) (key : String) :
    (∃ value, d.lookup (.inl key) = some value ∧ item d key = .ok value) ∨
      (d.lookup (.inl key) = none ∧ item d key = .error (.KeyError key)) := by
  unfold item
  cases d.lookup (.inl key) with
  | some value => exact Or.inl ⟨value, rfl, rfl⟩
  | none => exact Or.inr ⟨rfl, rfl⟩

theorem literal_cases (read : Option ℤ) :
    (∃ n, literal read = .ok n) ∨ ∃ message, literal read = .error (.ValueError message) := by
  cases read with
  | some n => exact Or.inl ⟨n, rfl⟩
  | none => exact Or.inr ⟨_, rfl⟩

/-- `int` gives a number or a `ValueError`, but for what is no number. -/
theorem toInt_cases (v : Packed) :
    (¬NoNumber v ∧ ((∃ n, toInt L v = .ok n) ∨ ∃ message, toInt L v = .error (.ValueError message))) ∨
      (NoNumber v ∧ (toInt L v = .error .TypeError ∨ toInt L v = .error .OverflowError)) := by
  cases v with
  | bool b => exact Or.inl ⟨id, Or.inl ⟨_, rfl⟩⟩
  | int n => exact Or.inl ⟨id, Or.inl ⟨_, rfl⟩⟩
  | float x => exact Or.inl ⟨id, Or.inl ⟨_, rfl⟩⟩
  | nan => exact Or.inl ⟨id, Or.inr ⟨_, rfl⟩⟩
  | infinity negative => exact Or.inr ⟨trivial, Or.inr rfl⟩
  | str s => exact Or.inl ⟨id, literal_cases _⟩
  | bin b => exact Or.inl ⟨id, literal_cases _⟩
  | nil | array | map | ext | timestamp => exact Or.inr ⟨trivial, Or.inl rfl⟩

/-- A field is missing, or what is read of the map depends on the version. -/
theorem ofMap_cases (d : List ((String ⊕ Bytes) × Packed)) :
    (∃ key ∈ ["n", "c", "wh", "wo", "v"], d.lookup (.inl key) = none ∧
        ofMap L d = .error (.KeyError key)) ∨
      ∃ version, d.lookup (.inl "v") = some version ∧
        (∀ key ∈ ["n", "c", "wh", "wo"], (d.lookup (.inl key)).isSome = true) ∧
        ∃ envelope : PaymentEnvelope Packed,
          ofMap L d = (toInt L version).map fun n => { envelope with schema_version := n } := by
  unfold ofMap
  rcases item_cases d "n" with ⟨nonce, hnonce, hn⟩ | ⟨hnone, hn⟩
  · rcases item_cases d "c" with ⟨ciphertext, hciphertext, hc⟩ | ⟨hnone, hc⟩
    · rcases item_cases d "wh" with ⟨hub, hhub, hwh⟩ | ⟨hnone, hwh⟩
      · rcases item_cases d "wo" with ⟨op, hop, hwo⟩ | ⟨hnone, hwo⟩
        · rcases item_cases d "v" with ⟨version, hversion, hv⟩ | ⟨hnone, hv⟩
          · refine Or.inr ⟨version, hversion, ?_, ⟨nonce, ciphertext, hub, op, 0⟩, ?_⟩
            · simp only [List.forall_mem_cons, hnonce, hciphertext, hhub, hop, Option.isSome_some, true_and,
                List.not_mem_nil, false_imp_iff, implies_true]
            · rw [hn, hc, hwh, hwo, hv]
              show (toInt L version).bind _ = _
              cases toInt L version <;> rfl
          · exact Or.inl ⟨"v", by simp, hnone, by rw [hn, hc, hwh, hwo, hv]; rfl⟩
        · exact Or.inl ⟨"wo", by simp, hnone, by rw [hn, hc, hwh, hwo]; rfl⟩
      · exact Or.inl ⟨"wh", by simp, hnone, by rw [hn, hc, hwh]; rfl⟩
    · exact Or.inl ⟨"c", by simp, hnone, by rw [hn, hc]; rfl⟩
  · exact Or.inl ⟨"n", by simp, hnone, by rw [hn]; rfl⟩

/-- What is read of a map is clean, unless its version is no number. -/
theorem clean_ofMap_iff (d : List ((String ⊕ Bytes) × Packed)) :
    Clean ((ofMap L d).mapError exceptKeyError) ↔
      ¬∃ version, d.lookup (.inl "v") = some version ∧ NoNumber version ∧
        ∀ key ∈ ["n", "c", "wh", "wo"], (d.lookup (.inl key)).isSome = true := by
  rcases ofMap_cases (L := L) d with ⟨key, hkey, hnone, hmap⟩ | ⟨version, hversion, hall, envelope, hmap⟩
  · rw [hmap]
    refine iff_of_true (Or.inr ⟨_, rfl⟩) ?_
    rintro ⟨version, hversion, -, hall⟩
    have hsome : (d.lookup (.inl key)).isSome = true := by
      rcases List.mem_append.mp (show key ∈ ["n", "c", "wh", "wo"] ++ ["v"] from hkey) with hkey | hkey
      · exact hall key hkey
      · rw [List.mem_singleton.mp hkey, hversion]
        rfl
    rw [hnone] at hsome
    cases hsome
  · rw [hmap]
    rcases toInt_cases (L := L) version with ⟨hnumber, ⟨n, hn⟩ | ⟨message, hn⟩⟩ | ⟨hno, hn | hn⟩
    · rw [hn]
      refine iff_of_true (Or.inl ⟨_, rfl⟩) ?_
      rintro ⟨version', hversion', hno, -⟩
      obtain rfl := Option.some.inj (hversion.symm.trans hversion')
      exact hnumber hno
    · rw [hn]
      refine iff_of_true (Or.inr ⟨_, rfl⟩) ?_
      rintro ⟨version', hversion', hno, -⟩
      obtain rfl := Option.some.inj (hversion.symm.trans hversion')
      exact hnumber hno
    · rw [hn]
      refine iff_of_false ?_ (not_not_intro ⟨version, hversion, hno, hall⟩)
      rintro (⟨_, h⟩ | ⟨_, h⟩) <;> cases h
    · rw [hn]
      refine iff_of_false ?_ (not_not_intro ⟨version, hversion, hno, hall⟩)
      rintro (⟨_, h⟩ | ⟨_, h⟩) <;> cases h

/-- What is read of some bytes. -/
theorem clean_fromBytes_iff (blob : Bytes) :
    Clean (fromBytes L blob) ↔ blob = [] ∨ ¬VersionlessMap L blob := by
  unfold fromBytes
  by_cases hnil : blob = []
  · rw [if_pos hnil]
    exact iff_of_true (Or.inr ⟨_, rfl⟩) (Or.inl hnil)
  · rw [if_neg hnil, or_iff_right hnil]
    cases hblob : L.unpackb blob with
    | error e =>
        refine iff_of_true (Or.inr ⟨_, rfl⟩) ?_
        rintro ⟨d, version, hmap, -⟩
        rw [hblob] at hmap
        cases hmap
    | ok value =>
        cases value with
        | map d =>
            refine (clean_ofMap_iff d).trans (not_congr ⟨?_, ?_⟩)
            · rintro ⟨version, hversion, hno, hall⟩
              exact ⟨d, version, hblob, hversion, hno, hall⟩
            · rintro ⟨d', version, hmap, hversion, hno, hall⟩
              obtain rfl := Packed.map.inj (Except.ok.inj (hblob.symm.trans hmap))
              exact ⟨version, hversion, hno, hall⟩
        | _ =>
            refine iff_of_true (Or.inr ⟨_, rfl⟩) ?_
            rintro ⟨d, version, hmap, -⟩
            rw [hblob] at hmap
            cases hmap

/-! ## Round trips -/

section RoundTrip

variable {V : Type} {str : V → String} {payload : String → Option (Item V)} {hub_kek op_kek : Bytes}

/-- An envelope of bytes, as it is read. -/
def unpacked (envelope : PaymentEnvelope Bytes) : PaymentEnvelope Packed where
  nonce := .bin envelope.nonce
  ciphertext := .bin envelope.ciphertext
  dek_wrap_hub := .bin envelope.dek_wrap_hub
  dek_wrap_op := .bin envelope.dek_wrap_op
  schema_version := envelope.schema_version

theorem fromBytes_toBytes {envelope : PaymentEnvelope Bytes}
    (h : envelope.schema_version = schemaVersion) :
    fromBytes L (toBytes L envelope) = .ok (unpacked envelope) := by
  unfold fromBytes toBytes
  rw [if_neg (L.packb_ne_nil _), h, L.unpackb_packb]
  unfold unpacked
  rw [h]
  rfl

theorem aesSeal_ok {nonce key data : Bytes} (hkey : key.length = 32) :
    aesSeal L nonce key data = .ok (nonce ++ L.encrypt key nonce data) :=
  if_neg (not_not_intro hkey)

/-- The key is opened again. -/
theorem aesOpen_seal {nonce key data : Bytes} (hkey : key.length = 32) (hnonce : nonce.length = 12) :
    aesOpen L key (.bin (nonce ++ L.encrypt key nonce data)) = .ok data := by
  have hlen : ¬(nonce ++ L.encrypt key nonce data).length < 12 + 16 := by
    rw [List.length_append, L.length_encrypt]
    omega
  have htake : (nonce ++ L.encrypt key nonce data).take 12 = nonce := by
    rw [← hnonce, List.take_left]
  have hdrop : (nonce ++ L.encrypt key nonce data).drop 12 = L.encrypt key nonce data := by
    rw [← hnonce, List.drop_left]
  unfold aesOpen
  rw [if_neg (not_not_intro hkey)]
  show (if (nonce ++ L.encrypt key nonce data).length < 12 + 16 then _ else _) = _
  rw [if_neg hlen]
  show L.decrypt key ((nonce ++ L.encrypt key nonce data).take 12)
    ((nonce ++ L.encrypt key nonce data).drop 12) = _
  rw [htake, hdrop, L.decrypt_encrypt key nonce data hkey hnonce]

theorem decodePayload_encodePayload :
    decodePayload L (encodePayload L str payload) =
      .ok (.dict ((normalizePayload str payload).map fun e => (e.1, e.2.elim .none .str))) := by
  have hkeys : ((normalizePayload str payload).map Prod.fst).Nodup := by
    rw [normalizePayload, List.map_map]
    exact (by decide : payloadKeys.Nodup)
  unfold decodePayload encodePayload
  rw [L.loads_dumps _ hkeys]
  rfl

/-- What is sealed under two keys of the right length. -/
theorem encryptEnvelope_ok (drawn : Drawn) (hhub : hub_kek.length = 32) (hop : op_kek.length = 32) :
    encryptEnvelope L str drawn payload hub_kek op_kek = .ok
      { nonce := drawn.nonce
        ciphertext := L.encrypt drawn.dek drawn.nonce (encodePayload L str payload)
        dek_wrap_hub := drawn.hub_nonce ++ L.encrypt hub_kek drawn.hub_nonce drawn.dek
        dek_wrap_op := drawn.op_nonce ++ L.encrypt op_kek drawn.op_nonce drawn.dek } := by
  unfold encryptEnvelope
  rw [if_neg (not_not_intro hhub), if_neg (not_not_intro hop), aesSeal_ok hhub, aesSeal_ok hop]
  rfl

theorem decryptEnvelope_encrypted (drawn : Drawn) (hhub : hub_kek.length = 32) (hop : op_kek.length = 32) :
    decryptEnvelope L (unpacked
      { nonce := drawn.nonce
        ciphertext := L.encrypt drawn.dek drawn.nonce (encodePayload L str payload)
        dek_wrap_hub := drawn.hub_nonce ++ L.encrypt hub_kek drawn.hub_nonce drawn.dek
        dek_wrap_op := drawn.op_nonce ++ L.encrypt op_kek drawn.op_nonce drawn.dek }) hub_kek op_kek =
      .ok (.dict ((normalizePayload str payload).map fun e => (e.1, e.2.elim .none .str))) := by
  unfold decryptEnvelope unpacked
  rw [aesOpen_seal hhub drawn.hub_nonce_length, aesOpen_seal hop drawn.op_nonce_length,
    if_neg (not_not_intro rfl), if_neg (not_not_intro hhub), if_neg (not_not_intro hop)]
  dsimp only [bind, Except.bind]
  rw [if_neg (not_not_intro rfl)]
  show (L.decrypt drawn.dek drawn.nonce _).bind _ = _
  rw [L.decrypt_encrypt drawn.dek drawn.nonce _ drawn.dek_length drawn.nonce_length]
  exact decodePayload_encodePayload

end RoundTrip

/-! ## Both -/

/-- The payload that is sealed and packed is the normalised one when it is unpacked and opened. -/
def RoundTrips {V : Type} (L : Libraries) (str : V → String) (drawn : Drawn)
    (payload : String → Option (Item V)) (hub_kek op_kek : Bytes) : Prop :=
  ∃ envelope, encryptEnvelope L str drawn payload hub_kek op_kek = .ok envelope ∧
    (fromBytes L (toBytes L envelope) >>= fun read => decryptEnvelope L read hub_kek op_kek) =
      .ok (.dict ((normalizePayload str payload).map fun e => (e.1, e.2.elim .none .str)))

/-- **Envelopes round-trip, and bytes that are none are refused cleanly** but for the maps with all the
fields whose version is no number. -/
theorem envelope_roundTrip_clean {V : Type} (L : Libraries) (str : V → String) (hub_kek op_kek : Bytes)
    (hhub : hub_kek.length = 32) (hop : op_kek.length = 32) :
    (∀ drawn payload, RoundTrips L str drawn payload hub_kek op_kek) ∧
      ∀ blob, Clean (fromBytes L blob) ↔ blob = [] ∨ ¬VersionlessMap L blob := by
  refine ⟨fun drawn payload => ⟨_, encryptEnvelope_ok drawn hhub hop, ?_⟩, clean_fromBytes_iff⟩
  rw [fromBytes_toBytes rfl]
  exact decryptEnvelope_encrypted drawn hhub hop

/-! ## A map without a version -/

/-- What is written is read again, when no two values are written alike. -/
noncomputable def readBack {A : Type} (write : A → Bytes) (b : Bytes) : Option A :=
  open Classical in if h : ∃ x, write x = b then some h.choose else none

theorem readBack_write {A : Type} {write : A → Bytes} (h : Function.Injective write) (x : A) :
    readBack write (write x) = some x := by
  have hex : ∃ y, write y = write x := ⟨x, rfl⟩
  rw [readBack, dif_pos hex, h hex.choose_spec]

/-- Bytes of less than 256 in msgpack. -/
def bin8 (b : Bytes) : Bytes := 0xc4 :: UInt8.ofNat b.length :: b

theorem bin8_append_inj {a b x y : Bytes} (ha : a.length < 256) (hb : b.length < 256)
    (h : bin8 a ++ x = bin8 b ++ y) : a = b ∧ x = y := by
  obtain ⟨hlen, htail⟩ := List.cons.inj (List.cons.inj h).2
  have hnat := congrArg UInt8.toNat hlen
  rw [UInt8.toNat_ofNat', UInt8.toNat_ofNat', Nat.mod_eq_of_lt ha, Nat.mod_eq_of_lt hb] at hnat
  exact List.append_inj htail hnat

abbrev Fields := Bytes × Bytes × Bytes × Bytes

/-- The fields are short. -/
def Short (f : Fields) : Prop :=
  f.1.length < 256 ∧ f.2.1.length < 256 ∧ f.2.2.1.length < 256 ∧ f.2.2.2.length < 256

instance (f : Fields) : Decidable (Short f) := by unfold Short; infer_instance

def nats (b : Bytes) : List ℕ := b.map UInt8.toNat

theorem nats_injective : Function.Injective nats :=
  List.map_injective_iff.mpr fun _ _ h => UInt8.toNat_inj.mp h

/-- Envelopes with short fields in msgpack; the others are written in unary, after a byte that begins no
value. -/
def writeFields (f : Fields) : Bytes :=
  if Short f then
    [0x85, 0xa1, 0x76, 1, 0xa1, 0x6e] ++ (bin8 f.1 ++ ([0xa1, 0x63] ++ (bin8 f.2.1 ++
      ([0xa2, 0x77, 0x68] ++ (bin8 f.2.2.1 ++ ([0xa2, 0x77, 0x6f] ++ (bin8 f.2.2.2 ++ [])))))))
  else
    0xc1 :: List.replicate (Encodable.encode (nats f.1, nats f.2.1, nats f.2.2.1, nats f.2.2.2)) 0

theorem writeFields_injective : Function.Injective writeFields := by
  rintro ⟨n, c, wh, wo⟩ ⟨n', c', wh', wo'⟩ h
  unfold writeFields at h
  split at h
  · next hshort =>
      split at h
      · next hshort' =>
          obtain ⟨rfl, h⟩ := bin8_append_inj hshort.1 hshort'.1 (List.append_cancel_left h)
          obtain ⟨rfl, h⟩ := bin8_append_inj hshort.2.1 hshort'.2.1 (List.append_cancel_left h)
          obtain ⟨rfl, h⟩ := bin8_append_inj hshort.2.2.1 hshort'.2.2.1 (List.append_cancel_left h)
          obtain ⟨rfl, -⟩ := bin8_append_inj hshort.2.2.2 hshort'.2.2.2 (List.append_cancel_left h)
          rfl
      · exact absurd (List.cons.inj h).1 (by decide)
  · split at h
    · exact absurd (List.cons.inj h).1 (by decide)
    · have hcode := Encodable.encode_injective (List.replicate_left_injective _ (List.cons.inj h).2)
      simp only [Prod.mk.injEq, nats_injective.eq_iff] at hcode ⊢
      exact hcode

/-- All the fields, and nothing for the version. -/
def versionless : Bytes :=
  [0x85, 0xa1, 0x76, 0xc0, 0xa1, 0x6e, 0xc4, 0, 0xa1, 0x63, 0xc4, 0, 0xa2, 0x77, 0x68, 0xc4, 0, 0xa2, 0x77,
    0x6f, 0xc4, 0]

def versionlessMap : List ((String ⊕ Bytes) × Packed) :=
  [(.inl "v", .nil), (.inl "n", .bin []), (.inl "c", .bin []), (.inl "wh", .bin []), (.inl "wo", .bin [])]

theorem writeFields_ne_versionless (f : Fields) : writeFields f ≠ versionless := by
  intro h
  unfold writeFields at h
  split at h
  · have hversion : some (1 : UInt8) = some 0xc0 := congrArg (fun b => b[3]?) h
    exact absurd hversion (by decide)
  · exact absurd (List.cons.inj h).1 (by decide)

/-- `null` for each of the keys. -/
def emptyFields : List (String × Option String) := payloadKeys.map fun key => (key, none)

def emptyText : String :=
  "\x7b\"from_agent_id\":null,\"to_agent_id\":null,\"amount\":null,\"description\":null\x7d"

/-- The empty payload in JSON; the others are written in unary, after a byte that begins no text. -/
def writeJson (fields : List (String × Option String)) : Bytes :=
  if fields = emptyFields then emptyText.toList.map fun c => UInt8.ofNat c.toNat
  else
    0xff :: List.replicate (Encodable.encode (fields.map fun e =>
      (e.1.toList.map Char.toNat, e.2.map fun s => s.toList.map Char.toNat))) 0

theorem writeJson_injective : Function.Injective writeJson := by
  have htext : Function.Injective fun s : String => s.toList.map Char.toNat := by
    intro s s' h
    exact String.toList_injective (List.map_injective_iff.mpr (fun _ _ h => Char.toNat_inj.mp h) h)
  have hfield : Function.Injective fun e : String × Option String =>
      (e.1.toList.map Char.toNat, e.2.map fun s => s.toList.map Char.toNat) := by
    rintro ⟨key, value⟩ ⟨key', value'⟩ h
    obtain ⟨hkey, hvalue⟩ := Prod.mk.inj h
    exact Prod.ext (htext hkey) (Option.map_injective htext hvalue)
  have hhead : (emptyText.toList.map fun c => UInt8.ofNat c.toNat).head? = some 0x7b := by decide +kernel
  intro fields fields' h
  unfold writeJson at h
  split at h
  · next hempty =>
      split at h
      · next hempty' => rw [hempty, hempty']
      · rw [h] at hhead
        exact absurd (Option.some.inj hhead) (by decide)
  · split at h
    · rw [← h] at hhead
      exact absurd (Option.some.inj hhead) (by decide)
    · exact List.map_injective_iff.mpr hfield
        (Encodable.encode_injective (List.replicate_left_injective _ (List.cons.inj h).2))

/-- The bytes of an envelope, and of nothing else. -/
def writePacked : Packed → Bytes
  | .map [(.inl "v", .int 1), (.inl "n", .bin n), (.inl "c", .bin c), (.inl "wh", .bin wh),
      (.inl "wo", .bin wo)] => writeFields (n, c, wh, wo)
  | _ => [0xc0]

theorem writePacked_packed (n c wh wo : Bytes) :
    writePacked (packed schemaVersion n c wh wo) = writeFields (n, c, wh, wo) := rfl

theorem writePacked_ne_nil (value : Packed) : writePacked value ≠ [] := by
  unfold writePacked
  split
  · unfold writeFields
    split <;> exact List.cons_ne_nil _ _
  · exact List.cons_ne_nil _ _

/-- Codecs for envelopes, and a cipher that hides nothing. -/
noncomputable def plainLibraries : Libraries where
  packb := writePacked
  unpackb b :=
    if b = versionless then .ok (.map versionlessMap)
    else (readBack writeFields b).elim (.error (.ValueError "Unpack failed: incomplete input")) fun f =>
      .ok (packed schemaVersion f.1 f.2.1 f.2.2.1 f.2.2.2)
  unpackb_packb n c wh wo := by
    rw [writePacked_packed, if_neg (writeFields_ne_versionless _), readBack_write writeFields_injective]
    rfl
  packb_ne_nil := writePacked_ne_nil
  dumps := writeJson
  loads b := (readBack writeJson b).elim (.error (.ValueError "Expecting value")) fun fields =>
    .ok (.dict (fields.map fun e => (e.1, e.2.elim .none .str)))
  loads_dumps fields _ := by
    rw [readBack_write writeJson_injective]
    rfl
  encrypt _ _ data := data ++ List.replicate 16 0
  decrypt _ _ data := if 16 ≤ data.length then .ok (data.take (data.length - 16)) else .error .InvalidTag
  decrypt_encrypt _ _ data _ _ := by
    rw [List.length_append, List.length_replicate, if_pos (Nat.le_add_left _ _), Nat.add_sub_cancel,
      List.take_left]
  length_encrypt _ _ data := by rw [List.length_append, List.length_replicate]
  int _ := none

def zeros (n : ℕ) : Bytes := List.replicate n 0

def zeroDraws : Drawn :=
  ⟨zeros 32, zeros 12, zeros 12, zeros 12, List.length_replicate, List.length_replicate,
    List.length_replicate, List.length_replicate⟩

/-- The payload with nothing in it. -/
theorem envelope_roundTrip_clean_empty :
    RoundTrips plainLibraries id zeroDraws (fun _ => none) (zeros 32) (zeros 32) ∧
      Clean (fromBytes plainLibraries []) := by
  have h := envelope_roundTrip_clean plainLibraries id (zeros 32) (zeros 32) List.length_replicate
    List.length_replicate
  exact ⟨h.1 zeroDraws fun _ => none, (h.2 []).mpr (Or.inl rfl)⟩

/-- The version is `nil`, and `int(None)` raises a `TypeError`. -/
theorem versionless_raises : ¬∀ L : Libraries, ∀ blob, Clean (fromBytes L blob) := by
  intro h
  have herror : fromBytes plainLibraries versionless = .error .TypeError := by
    show Except.mapError exceptKeyError (ofMap plainLibraries versionlessMap) = _
    rfl
  rcases h plainLibraries versionless with ⟨_, hok⟩ | ⟨_, hvalue⟩
  · rw [herror] at hok
    cases hok
  · rw [herror] at hvalue
    cases hvalue

end Sthrip.EnvelopeCodec
