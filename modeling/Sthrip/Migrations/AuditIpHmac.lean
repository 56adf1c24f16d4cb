import Sthrip.Services.AuditLogger

set_option autoImplicit false

/-! # The migration of the audit log

`migrations/versions/q8r9s0t1u2v3_audit_ip_hmac.py`: the raw address of a row gives way to its HMAC under
a salt. The chain is signed anew, since the address is part of what is signed. The encoding helpers of the
migration are copies of those of `audit_logger.py`, and have no definitions of their own here.
-/

namespace Sthrip.Audit

/-- A row while the migration runs, with the old column and the new ones. -/
structure LegacyRow extends AuditLog where
  ip_address : Option String

structure IpSalt where
  salt_id : UUID
  secret : ByteArray
  created_at : DateTime
  retired_at : Option DateTime

inductive MigrationError
  | RuntimeError (message : String)
  | IntegrityError

def BOOTSTRAP_SALT_ID : UUID := 1

/-- `ip_address IS NOT NULL AND ip_hmac IS NULL` -/
def LegacyRow.pending (r : LegacyRow) : Bool := r.ip_address.isSome && r.ip_hmac.isNone

/-- The order `created_at ASC, id ASC`. -/
def LegacyRow.le (a b : LegacyRow) : Prop := a.toAuditLog.le b.toAuditLog

instance : DecidableRel LegacyRow.le := fun a b =>
  inferInstanceAs (Decidable (a.toAuditLog.le b.toAuditLog))

/-- `str(agent_id) if agent_id else ""` -/
def AuditLog.agentIdStr (r : AuditLog) : String := (r.agent_id.map uuidStr).getD ""

section Upgrade

variable (hmac : ByteArray → ByteArray → Digest) (key : String)
/- `json.loads`, or `None` when it fails. -/
variable (loads : String → Option Json)

/-- The body that is signed: a string is taken for a text of JSON. -/
def reparsed : Option Json → Option Json
  | some (.str s) => loads s
  | rb => rb

/-- What the loop computes for a row: its new columns, and the next `running_prev`. -/
def rehash (bootstrap_secret : ByteArray) (running_prev : String) (row : LegacyRow) : LegacyRow × String :=
  let ip_hmac := hmac bootstrap_secret (row.ip_address.getD "").toUTF8
  let salted := { row with ip_hmac := some ip_hmac, ip_salt_id := some BOOTSTRAP_SALT_ID }
  if row.entry_hmac.isSome = true ∧ key ≠ "" then
    let new_entry_hmac := hashChainLink hmac key running_prev row.action row.agentIdStr ip_hmac.hex
      (tsIso row.created_at) (canonicalJson (reparsed loads row.request_body))
    ({ salted with prev_hmac := some running_prev, entry_hmac := some new_entry_hmac }, new_entry_hmac)
  else (salted, running_prev)

/-- The `UPDATE` of a row. The unique index on `entry_hmac` may refuse it. -/
def updateRow (new : LegacyRow) (table : List LegacyRow) : Except MigrationError (List LegacyRow) :=
  if new.entry_hmac.isSome && table.any (fun r => r.id ≠ new.id && r.entry_hmac = new.entry_hmac) then
    .error .IntegrityError
  else
    .ok (table.map fun r =>
      if r.id = new.id then
        { r with
          ip_hmac := new.ip_hmac
          ip_salt_id := new.ip_salt_id
          prev_hmac := new.prev_hmac
          entry_hmac := new.entry_hmac }
      else r)

def backfillRow (bootstrap_secret : ByteArray) (st : String × List LegacyRow) (row : LegacyRow) :
    Except MigrationError (String × List LegacyRow) := do
  let new := rehash hmac key loads bootstrap_secret st.1 row
  let table ← updateRow new.1 st.2
  return (new.2, table)

/-- `_backfill_ip_hmac_and_rechain` -/
def backfill (bootstrap_secret : ByteArray) (table : List LegacyRow) :
    Except MigrationError (List LegacyRow) := do
  let pending := (table.filter LegacyRow.pending).length
  if pending ≠ 0 ∧ key = "" then
    throw (.RuntimeError (s!"AUDIT_HMAC_KEY must be set to backfill {pending} audit_log "
      ++ "rows that carry raw IPs.  Set the env var and re-run."))
  let rows := (table.insertionSort LegacyRow.le).filter LegacyRow.pending
  let st ← rows.foldlM (backfillRow hmac key loads bootstrap_secret) (GENESIS_HMAC, table)
  return st.2

/-- The loop of `_assert_chain_linked`. -/
def assertLinked : String → List AuditLog → Except MigrationError Unit
  | _, [] => .ok ()
  | expected_prev, row :: rows =>
      let row_prev := row.prev_hmac.getD ""
      if row_prev ≠ expected_prev then
        .error (.RuntimeError ("audit_log chain integrity broken at row id=UUID('" ++ uuidStr row.id
          ++ "'): prev_hmac='" ++ row_prev ++ "' expected='" ++ expected_prev ++ "'"))
      else assertLinked (row.entry_hmac.getD "") rows

def assertChainLinked (table : List AuditLog) : Except MigrationError Unit :=
  assertLinked GENESIS_HMAC ((table.insertionSort AuditLog.le).filter (·.entry_hmac.isSome))

/-- The salt of the migration, and the table of the salts with it. -/
def bootstrapSalt (urandom : ByteArray) (now : DateTime) (salts : List IpSalt) : ByteArray × List IpSalt :=
  match salts.find? (·.salt_id = BOOTSTRAP_SALT_ID) with
  | some salt => (salt.secret, salts)
  | none => (urandom, salts ++ [⟨BOOTSTRAP_SALT_ID, urandom, now, none⟩])

/-- The salt is retired. -/
def retire (now : DateTime) (salts : List IpSalt) : List IpSalt :=
  salts.map fun s =>
    if s.salt_id = BOOTSTRAP_SALT_ID ∧ s.retired_at = none then { s with retired_at := some now } else s

/-- `ADD COLUMN`, twice. -/
def addColumns (r : LegacyRow) : LegacyRow := { r with ip_hmac := none, ip_salt_id := none }

/-- `upgrade`, on a table that does not have the new columns yet. -/
def upgrade (urandom : ByteArray) (now now' : DateTime) (salts : List IpSalt) (table : List LegacyRow) :
    Except MigrationError (List IpSalt × List AuditLog) := do
  let salt := bootstrapSalt urandom now salts
  let table ← backfill hmac key loads salt.1 (table.map addColumns)
  -- the column `ip_address` is dropped
  let audit_log := table.map LegacyRow.toAuditLog
  assertChainLinked audit_log
  return (retire now' salt.2, audit_log)

end Upgrade

end Sthrip.Audit
