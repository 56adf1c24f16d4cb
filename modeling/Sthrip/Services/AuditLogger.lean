import Sthrip.Chain.Linked
import Mathlib.Data.Nat.Digits.Defs

set_option autoImplicit false

/-! # The audit log

`sthrip/services/audit_logger.py`: an event is written as a row of `audit_log` that carries the
HMAC of the row before it (`prev_hmac`) and its own (`entry_hmac`), and `verify_chain` recomputes
them all. The HMAC itself is a parameter: nothing here depends on how it is computed.

Writers are serialised by the chain lock, which they hold from the reading of the last row to the
commit of the new one, so that the state between two calls is the table of committed rows.
-/

namespace Sthrip.Audit

/-! ## Values -/

abbrev UUID := ℕ

/-- Microseconds since the beginning of the year 1, in UTC. -/
abbrev DateTime := ℕ

/-- A 32-byte HMAC-SHA256. -/
abbrev Digest := BitVec 256

/-- The digits of `n` in lower-case hexadecimal, `len` of them. -/
def hexDigits : ℕ → ℕ → List Char
  | 0, _ => []
  | len + 1, n => hexDigits len (n / 16) ++ [Nat.digitChar (n % 16)]

def Digest.hex (d : Digest) : String := String.ofList (hexDigits 64 d.toNat)

/-- `str(uuid)`. -/
def uuidStr (u : UUID) : String :=
  let d := hexDigits 32 u
  String.ofList (d.take 8 ++ '-' :: (d.drop 8).take 4 ++ '-' :: (d.drop 12).take 4
    ++ '-' :: (d.drop 16).take 4 ++ '-' :: d.drop 20)

/-- `n` in decimal, filled up with zeros to `len` digits. -/
def padded (len n : ℕ) : String :=
  let d := Nat.toDigits 10 n
  String.ofList (List.replicate (len - d.length) '0' ++ d)

/-- Year, month and day of the day `n` days after the first of January of the year 1. -/
def civil (n : ℕ) : ℕ × ℕ × ℕ :=
  -- days are counted from the first of March of the year 0, so that a leap day ends its year
  let z := n + 306
  let era := z / 146097
  let doe := z % 146097
  let yoe := (doe - doe / 1460 + doe / 36524 - doe / 146096) / 365
  let doy := doe - (365 * yoe + yoe / 4 - yoe / 100)
  let mp := (5 * doy + 2) / 153
  let d := doy - (153 * mp + 2) / 5 + 1
  let m := if mp < 10 then mp + 3 else mp - 9
  (yoe + era * 400 + if m ≤ 2 then 1 else 0, m, d)

/-- `datetime.isoformat` of a naive datetime: the fraction is written only when there is one. -/
def tsIso (t : DateTime) : String :=
  let micros := t % 1000000
  let s := t / 1000000
  let (y, m, d) := civil (s / 86400)
  let time := s % 86400
  padded 4 y ++ "-" ++ padded 2 m ++ "-" ++ padded 2 d ++ "T" ++ padded 2 (time / 3600) ++ ":"
    ++ padded 2 (time / 60 % 60) ++ ":" ++ padded 2 (time % 60)
    ++ if micros = 0 then "" else "." ++ padded 6 micros

example : tsIso 63915465600000123 = "2026-05-27T08:00:00.000123" := by decide +kernel

/-- What a JSON column holds. A number is the text it is written with. -/
inductive Json
  | null
  | bool (b : Bool)
  | num (text : String)
  | str (s : String)
  | arr (items : List Json)
  | obj (entries : List (String × Json))

abbrev Dict := List (String × Json)

/-- A character of a string as `json.dumps` writes it, everything but ASCII escaped. -/
def dumpsChar (c : Char) : List Char :=
  let u (n : ℕ) : List Char := '\\' :: 'u' :: hexDigits 4 n
  if c = '"' then ['\\', '"']
  else if c = '\\' then ['\\', '\\']
  else if c = '\n' then ['\\', 'n']
  else if c = '\r' then ['\\', 'r']
  else if c = '\t' then ['\\', 't']
  else if c.toNat = 8 then ['\\', 'b']
  else if c.toNat = 12 then ['\\', 'f']
  else if 32 ≤ c.toNat ∧ c.toNat < 127 then [c]
  else if c.toNat = 127 then [c]
  else if c.toNat < 65536 then u c.toNat
  else u (55296 + (c.toNat - 65536) / 1024) ++ u (56320 + (c.toNat - 65536) % 1024)

def dumpsStr (s : String) : String := "\"" ++ String.ofList (s.toList.flatMap dumpsChar) ++ "\""

mutual

/-- `json.dumps(obj, sort_keys=True, separators=(",", ":"))`. -/
def dumps : Json → String
  | .null => "null"
  | .bool b => if b then "true" else "false"
  | .num text => text
  | .str s => dumpsStr s
  | .arr items => "[" ++ ",".intercalate (dumpsItems items) ++ "]"
  | .obj entries =>
      let sorted := (dumpsEntries entries).insertionSort fun a b => a.1 ≤ b.1
      "\x7b" ++ ",".intercalate (sorted.map fun e => dumpsStr e.1 ++ ":" ++ e.2) ++ "\x7d"

def dumpsItems : List Json → List String
  | [] => []
  | v :: items => dumps v :: dumpsItems items

def dumpsEntries : List (String × Json) → List (String × String)
  | [] => []
  | (k, v) :: entries => (k, dumps v) :: dumpsEntries entries

end

def canonicalJson : Option Json → String
  | none => "null"
  | some v => dumps v

/-! ## What is kept of the details -/

def SENSITIVE_KEYS : List String :=
  ["api_key", "password", "secret", "mnemonic", "seed", "webhook_secret", "admin_key", "token",
    "credentials"]

/-- `str.lower`, as far as a result in ASCII goes: besides the capital letters it is the Kelvin
sign that turns into one. -/
def lower (k : String) : String :=
  k.map fun c => if c.toNat = 0x212A then 'k' else c.toLower

mutual

/-- `_sanitize` of a dictionary. -/
def sanitize : Dict → Dict
  | [] => []
  | (k, v) :: data =>
      (k, if lower k ∈ SENSITIVE_KEYS then .str "***" else sanitizeValue v) :: sanitize data

def sanitizeValue : Json → Json
  | .obj d => .obj (sanitize d)
  | .arr items => .arr (sanitizeItems items)
  | v => v

/-- Only dictionaries that stand directly in the list are looked at. -/
def sanitizeItems : List Json → List Json
  | [] => []
  | .obj d :: items => .obj (sanitize d) :: sanitizeItems items
  | v :: items => v :: sanitizeItems items

end

def AUDIT_REQUEST_BODY_ALLOWLIST : List (String × List String) :=
  [("agent.registered", ["agent_name"]),
    ("agent.verified", ["agent_name"]),
    ("agent.disabled", ["agent_name"]),
    ("agent.settings_updated", ["old", "new"]),
    ("agent.key_rotated", []),
    ("auth.failed", ["reason"]),
    ("payment.hub_routing", ["payment_id", "to_agent", "amount"]),
    ("balance.deposit", ["mode", "amount"]),
    ("balance.withdraw", ["amount", "to_address", "mode"]),
    ("admin.stats_viewed", []),
    ("admin.action", ["target", "result"]),
    ("test.action", ["action"]),
    ("verify.action", ["action"])]

/-- `_apply_allowlist`: an action without an entry keeps nothing. -/
def applyAllowlist (action : String) (details : Option Dict) : Option Dict := do
  let details ← details
  let allowed ← AUDIT_REQUEST_BODY_ALLOWLIST.lookup action
  let filtered := details.filter fun e => e.1 ∈ allowed
  if filtered = [] then none else some (sanitize filtered)

/-! ## Rows and links -/

def GENESIS_HMAC : String := "aeebad4a796fcc2e15dc4c6061b45ed9b373f26adfc798ca7d2d8cc58182718e"

structure AuditLog where
  id : UUID
  agent_id : Option UUID
  action : String
  resource_type : Option String
  resource_id : Option UUID
  ip_hmac : Option Digest
  ip_salt_id : Option UUID
  request_method : Option String
  request_path : Option String
  request_body : Option Json
  success : Bool
  error_message : Option String
  created_at : DateTime
  prev_hmac : Option String
  entry_hmac : Option String

/-- The order in which rows are read: by `(created_at, id)`. -/
def AuditLog.le (a b : AuditLog) : Prop :=
  a.created_at < b.created_at ∨ a.created_at = b.created_at ∧ a.id ≤ b.id

instance : DecidableRel AuditLog.le := fun a b => by unfold AuditLog.le; infer_instance

/-- A row with an HMAC of its own. The others are markers, which a verification skips. -/
def AuditLog.linked (r : AuditLog) : Bool := r.entry_hmac.any (· ≠ "")

/-- The table with one more row; `none` when the primary key or the unique index on `entry_hmac`
refuses it. -/
def insertRow (r : AuditLog) (rows : List AuditLog) : Option (List AuditLog) :=
  if rows.any (·.id = r.id) then none
  else if r.entry_hmac.isSome && rows.any (·.entry_hmac = r.entry_hmac) then none
  else some (rows ++ [r])

section Hmac

/- HMAC-SHA256 of a key and a message. -/
variable (hmac : ByteArray → ByteArray → Digest)

/-- `_hash_chain_link`. -/
def hashChainLink (key prev_hmac action agent_id ip ts_iso details_json : String) : String :=
  let message := "\x00".intercalate [prev_hmac, action, agent_id, ip, ts_iso, details_json]
  (hmac key.toUTF8 message.toUTF8).hex

/-- `_get_prev_hmac`: a newest row without an HMAC counts like an empty table. -/
def getPrevHmac (rows : List AuditLog) : String :=
  match (rows.insertionSort AuditLog.le).getLast? with
  | none => GENESIS_HMAC
  | some last => last.entry_hmac.getD GENESIS_HMAC

/-! ## Writing -/

/-- The arguments of a call of `log_event`. -/
structure Event where
  action : String
  agent_id : Option UUID := none
  ip_address : Option String := none
  request_method : Option String := none
  request_path : Option String := none
  resource_type : Option String := none
  resource_id : Option UUID := none
  details : Option Dict := none
  success : Bool := true
  error_message : Option String := none

/-- What a call finds: the clock inside the lock, the id of the new row, the active salt (none when
the salt service fails), and whether the database fails. -/
structure Occasion where
  now : DateTime
  id : UUID
  salt : Option (UUID × ByteArray) := none
  fault : Bool := false

/-- `compute_ip_hmac` under the active salt, for a call that names an address. -/
def ipHmac (e : Event) (o : Occasion) : Option (UUID × Digest) := do
  let ip ← e.ip_address
  if ip = "" then none
  else
    let (salt_id, secret) ← o.salt
    some (salt_id, hmac secret ip.toUTF8)

/-- The row `_write_with_chain` builds. -/
def entry (key : String) (e : Event) (o : Occasion) (rows : List AuditLog) : AuditLog :=
  let sanitized := (applyAllowlist e.action e.details).map Json.obj
  let prev_hmac := getPrevHmac rows
  let ip := ipHmac hmac e o
  { id := o.id
    agent_id := e.agent_id
    action := e.action
    resource_type := e.resource_type
    resource_id := e.resource_id
    ip_hmac := ip.map Prod.snd
    ip_salt_id := ip.map Prod.fst
    request_method := e.request_method
    request_path := e.request_path
    request_body := sanitized
    success := e.success
    error_message := e.error_message
    created_at := o.now
    prev_hmac := some prev_hmac
    entry_hmac := some (hashChainLink hmac key prev_hmac e.action ((e.agent_id.map uuidStr).getD "")
      ((ip.map fun i => i.2.hex).getD "") (tsIso o.now) (canonicalJson sanitized)) }

/-- `log_event`: whatever goes wrong, the caller does not learn of it. -/
def logEvent (key : String) (e : Event) (o : Occasion) (rows : List AuditLog) : List AuditLog :=
  if o.fault then rows
  else (insertRow (entry hmac key e o rows) rows).getD rows

/-! ## Verifying -/

structure ChainStatus where
  ok : Bool
  first_bad_id : Option UUID
  total_checked : ℕ
  deriving DecidableEq

/-- The variables of the loop of `verify_chain`. -/
structure Check where
  expected_prev_hmac : String
  ok : Bool
  first_bad_id : Option UUID

/-- The HMAC that the audited fields of a row have after `prev_hmac`. -/
def AuditLog.recomputed (key prev_hmac : String) (r : AuditLog) : String :=
  hashChainLink hmac key prev_hmac r.action ((r.agent_id.map uuidStr).getD "")
    ((r.ip_hmac.map Digest.hex).getD "") (tsIso r.created_at) (canonicalJson r.request_body)

/-- `value or default` of a string that may be missing. -/
def orElse (value : Option String) (default : String) : String :=
  match value with
  | none => default
  | some s => if s = "" then default else s

def checkRow (key : String) (c : Check) (row : AuditLog) : Check :=
  let bad := if c.ok then some row.id else c.first_bad_id
  if row.prev_hmac ≠ some c.expected_prev_hmac then
    { expected_prev_hmac := orElse row.entry_hmac "", ok := false, first_bad_id := bad }
  else
    let recomputed := row.recomputed hmac key c.expected_prev_hmac
    let same := row.entry_hmac = some recomputed
    { expected_prev_hmac := orElse row.entry_hmac recomputed
      ok := c.ok && same
      first_bad_id := if same then c.first_bad_id else bad }

def verifyChain (key : String) (since : Option UUID) (rows : List AuditLog) : ChainStatus :=
  let rows := (rows.insertionSort AuditLog.le).filter AuditLog.linked
  let start : String × List AuditLog :=
    match since with
    | none => (GENESIS_HMAC, rows)
    | some since =>
        match rows.dropWhile (·.id ≠ since) with
        | [] => (GENESIS_HMAC, rows)
        | row :: rest => (orElse row.entry_hmac GENESIS_HMAC, rest)
  let c := start.2.foldl (checkRow hmac key)
    { expected_prev_hmac := start.1, ok := true, first_bad_id := none }
  { ok := c.ok, first_bad_id := c.first_bad_id, total_checked := start.2.length }

end Hmac

end Sthrip.Audit
