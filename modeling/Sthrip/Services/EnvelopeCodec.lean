import Sthrip.Python.Values

set_option autoImplicit false

/-! # Sealed payloads

`services/envelope_crypto.py`: the payload of a payment as JSON under a fresh key, and that key under the
keys of the hub and of the operator, in a map of msgpack. What comes out of msgpack may be of any type. The
codecs and the cipher are parameters.
-/

namespace Sthrip.EnvelopeCodec

open Python (Value)

abbrev Bytes := List UInt8

inductive Exn
  | ValueError (message : String)
  | KeyError (key : String)
  | TypeError
  | OverflowError
  | InvalidTag
deriving DecidableEq

abbrev Py := Except Exn

/-! ## The libraries -/

/-- What `msgpack.unpackb` makes of some bytes; the keys of maps are texts or bytes. -/
inductive Packed
  | nil
  | bool (b : Bool)
  | int (n : ℤ)
  | float (x : ℚ)
  | nan
  | infinity (negative : Bool)
  | str (s : String)
  | bin (b : Bytes)
  | array (l : List Packed)
  | map (d : List ((String ⊕ Bytes) × Packed))
  | ext (code : ℤ) (data : Bytes)
  | timestamp (seconds : ℤ) (nanoseconds : ℕ)

/-- What `msgpack.unpackb` raises. -/
inductive UnpackError
  | ExtraData (detail : String)
  | UnpackException (detail : String)
  | ValueError (detail : String)

def UnpackError.detail : UnpackError → String
  | ExtraData detail => detail
  | UnpackException detail => detail
  | ValueError detail => detail

/-- The map of an envelope, in the order of `to_bytes`. -/
def packed (schema_version : ℤ) (nonce ciphertext dek_wrap_hub dek_wrap_op : Bytes) : Packed :=
  .map [(.inl "v", .int schema_version), (.inl "n", .bin nonce), (.inl "c", .bin ciphertext),
    (.inl "wh", .bin dek_wrap_hub), (.inl "wo", .bin dek_wrap_op)]

def schemaVersion : ℤ := 1

/-- The codecs and the cipher: what is packed, written or encrypted is got back. -/
structure Libraries where
  packb : Packed → Bytes
  unpackb : Bytes → Except UnpackError Packed
  unpackb_packb : ∀ nonce ciphertext dek_wrap_hub dek_wrap_op,
    unpackb (packb (packed schemaVersion nonce ciphertext dek_wrap_hub dek_wrap_op)) =
      .ok (packed schemaVersion nonce ciphertext dek_wrap_hub dek_wrap_op)
  packb_ne_nil : ∀ value, packb value ≠ []
  /-- `json.dumps`, and the bytes of the text. -/
  dumps : List (String × Option String) → Bytes
  /-- The text of the bytes, and `json.loads`. -/
  loads : Bytes → Py Value
  loads_dumps : ∀ fields, (fields.map Prod.fst).Nodup →
    loads (dumps fields) = .ok (.dict (fields.map fun e => (e.1, e.2.elim .none .str)))
  /-- `AESGCM(key).encrypt(nonce, data, None)` -/
  encrypt : Bytes → Bytes → Bytes → Bytes
  decrypt : Bytes → Bytes → Bytes → Py Bytes
  decrypt_encrypt : ∀ key nonce data, key.length = 32 → nonce.length = 12 →
    decrypt key nonce (encrypt key nonce data) = .ok data
  /-- The tag has 16 bytes. -/
  length_encrypt : ∀ key nonce data, (encrypt key nonce data).length = data.length + 16
  /-- `int` of a text, and of bytes. -/
  int : String ⊕ Bytes → Option ℤ

variable (L : Libraries)

/-- What `int` makes of what it reads. -/
def literal : Option ℤ → Py ℤ
  | some n => .ok n
  | none => .error (.ValueError "invalid literal for int()")

/-- `int(v)` -/
def toInt : Packed → Py ℤ
  | .bool b => .ok b.toNat
  | .int n => .ok n
  | .float x => .ok (Python.truncate x)
  | .nan => .error (.ValueError "cannot convert float NaN to integer")
  | .infinity _ => .error .OverflowError
  | .str s => literal (L.int (.inl s))
  | .bin b => literal (L.int (.inr b))
  | _ => .error .TypeError

/-- `len(v)` -/
def len : Packed → Py ℕ
  | .str s => .ok s.length
  | .bin b => .ok b.length
  | .array l => .ok l.length
  | .map d => .ok d.length
  | .ext _ _ => .ok 2
  | _ => .error .TypeError

/-- An argument of the cipher. -/
def asBytes : Packed → Py Bytes
  | .bin b => .ok b
  | _ => .error .TypeError

/-! ## Envelopes -/

/-- The fields are bytes, or whatever was read for them. -/
structure PaymentEnvelope (B : Type) where
  nonce : B
  ciphertext : B
  dek_wrap_hub : B
  dek_wrap_op : B
  schema_version : ℤ := schemaVersion

/-- `to_bytes` -/
def toBytes (envelope : PaymentEnvelope Bytes) : Bytes :=
  L.packb (packed envelope.schema_version envelope.nonce envelope.ciphertext envelope.dek_wrap_hub
    envelope.dek_wrap_op)

/-- `unpacked[key]` -/
def item (d : List ((String ⊕ Bytes) × Packed)) (key : String) : Py Packed :=
  match d.lookup (.inl key) with
  | some value => .ok value
  | none => .error (.KeyError key)

/-- The fields of a map. -/
def ofMap (d : List ((String ⊕ Bytes) × Packed)) : Py (PaymentEnvelope Packed) := do
  let nonce ← item d "n"
  let ciphertext ← item d "c"
  let dek_wrap_hub ← item d "wh"
  let dek_wrap_op ← item d "wo"
  let version ← item d "v"
  let schema_version ← toInt L version
  return { nonce, ciphertext, dek_wrap_hub, dek_wrap_op, schema_version }

/-- What `except KeyError` makes of an exception. -/
def exceptKeyError : Exn → Exn
  | .KeyError key => .ValueError s!"envelope blob missing field '{key}'"
  | e => e

/-- `from_bytes` -/
def fromBytes (blob : Bytes) : Py (PaymentEnvelope Packed) :=
  if blob = [] then .error (.ValueError "empty envelope blob")
  else
    match L.unpackb blob with
    | .error e => .error (.ValueError ("corrupt envelope blob: " ++ e.detail))
    | .ok (.map d) => (ofMap L d).mapError exceptKeyError
    | .ok _ => .error (.ValueError "envelope blob is not a dict")

/-! ## Payloads -/

/-- A value of a payload, with those of other types that `str` turns into a text. -/
inductive Item (V : Type)
  | none
  | decimal (value : V)
  | bytes (value : Bytes)
  | other (value : V)

def payloadKeys : List String := ["from_agent_id", "to_agent_id", "amount", "description"]

/-- `bytes.hex` -/
def hex (b : Bytes) : String :=
  String.ofList (b.flatMap fun x => [Nat.digitChar (x.toNat / 16), Nat.digitChar (x.toNat % 16)])

section Payload

variable {V : Type} (str : V → String)

def Item.text : Item V → Option String
  | none => .none
  | decimal value => some (str value)
  | bytes value => some (hex value)
  | other value => some (str value)

/-- `_normalize_payload`: the four keys, whatever else is there. -/
def normalizePayload (payload : String → Option (Item V)) : List (String × Option String) :=
  payloadKeys.map fun key => (key, (payload key).bind (Item.text str))

/-- `_encode_payload` -/
def encodePayload (payload : String → Option (Item V)) : Bytes := L.dumps (normalizePayload str payload)

end Payload

/-- `_decode_payload` -/
def decodePayload (blob : Bytes) : Py Value := do
  let decoded ← L.loads blob
  match decoded with
  | .dict _ => return decoded
  | _ => throw (.ValueError "payload did not decode to a dict")

/-! ## Encryption -/

/-- What `secrets.token_bytes` draws for an envelope. -/
structure Drawn where
  dek : Bytes
  nonce : Bytes
  hub_nonce : Bytes
  op_nonce : Bytes
  dek_length : dek.length = 32
  nonce_length : nonce.length = 12
  hub_nonce_length : hub_nonce.length = 12
  op_nonce_length : op_nonce.length = 12

/-- `_aes_seal`, with the nonce that is drawn. -/
def aesSeal (nonce key plaintext : Bytes) : Py Bytes :=
  if key.length ≠ 32 then .error (.ValueError "AES key must be 32 bytes")
  else .ok (nonce ++ L.encrypt key nonce plaintext)

/-- `_aes_open` -/
def aesOpen (key : Bytes) (blob : Packed) : Py Bytes := do
  if key.length ≠ 32 then throw (.ValueError "AES key must be 32 bytes")
  let n ← len blob
  if n < 12 + 16 then throw (.ValueError "ciphertext blob too short to contain nonce + tag")
  let blob ← asBytes blob
  L.decrypt key (blob.take 12) (blob.drop 12)

/-- `encrypt_envelope` -/
def encryptEnvelope {V : Type} (str : V → String) (drawn : Drawn) (payload : String → Option (Item V))
    (hub_kek op_kek : Bytes) : Py (PaymentEnvelope Bytes) := do
  if hub_kek.length ≠ 32 then throw (.ValueError "hub_kek must be 32 bytes")
  if op_kek.length ≠ 32 then throw (.ValueError "op_kek must be 32 bytes")
  let payload_blob := encodePayload L str payload
  let ciphertext := L.encrypt drawn.dek drawn.nonce payload_blob
  let dek_wrap_hub ← aesSeal L drawn.hub_nonce hub_kek drawn.dek
  let dek_wrap_op ← aesSeal L drawn.op_nonce op_kek drawn.dek
  return { nonce := drawn.nonce, ciphertext, dek_wrap_hub, dek_wrap_op }

/-- `decrypt_envelope` -/
def decryptEnvelope (envelope : PaymentEnvelope Packed) (hub_kek op_kek : Bytes) : Py Value := do
  if envelope.schema_version ≠ schemaVersion then
    throw (.ValueError ("unsupported envelope schema_version=" ++ toString envelope.schema_version ++
      "; this module supports v1"))
  if hub_kek.length ≠ 32 then throw (.ValueError "hub_kek must be 32 bytes")
  if op_kek.length ≠ 32 then throw (.ValueError "op_kek must be 32 bytes")
  let dek_via_hub ← aesOpen L hub_kek envelope.dek_wrap_hub
  let dek_via_op ← aesOpen L op_kek envelope.dek_wrap_op
  if dek_via_hub ≠ dek_via_op then
    throw (.ValueError "envelope DEK wrappers disagree — possible tampering")
  let nonce ← asBytes envelope.nonce
  let ciphertext ← asBytes envelope.ciphertext
  let payload_blob ← L.decrypt dek_via_hub nonce ciphertext
  decodePayload L payload_blob

end Sthrip.EnvelopeCodec
