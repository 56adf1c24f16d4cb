import Mathlib.Algebra.Order.Field.Rat
import Sthrip.Python.Texts
import Sthrip.Redis.Collections

set_option autoImplicit false

/-! # Spending policies

`SpendingPolicyService` of `sthrip/services/spending_policy_service.py`. The amounts are exact; a clock
reading is a time in seconds, and Redis has the same clock and answers every call. Its keyspace is kept
apart by the types of the values, since the names of the keys of two types are never the same. The
texts of numbers are a parameter.
-/

namespace Sthrip

open Redis

/-- The columns of `spending_policies` that the service reads. -/
structure SpendingPolicy where
  agent_id : String
  max_per_tx : Option ℚ := none
  max_per_session : Option ℚ := none
  daily_limit : Option ℚ := none
  allowed_agents : Option (List String) := none
  blocked_agents : Option (List String) := none
  require_escrow_above : Option ℚ := none
  is_active : Bool := true

structure PolicyViolation where
  field : String
  message : String
  deriving DecidableEq

namespace SpendingPolicyService

/-- `str` of a `Decimal`, of a `float`, and `tostring` of a number in Lua. -/
structure NumberTexts where
  decimal : ℚ → String
  float : ℚ → String
  lua : ℚ → String

/-- What the scripts keep. -/
structure SpendingDb where
  /-- The sorted sets of spends, by time. -/
  times : Keyspace String ℚ (Pairs String ℚ) := Keyspace.empty
  /-- The hashes of the amounts. -/
  amounts : Keyspace String ℚ (Pairs String ℚ) := Keyspace.empty
  /-- The counters of the sessions. -/
  sessions : Keyspace String ℚ ℚ := Keyspace.empty

/-- `key .. ':amounts'` -/
def amountsKey (key : String) : String := key ++ ":amounts"

/-- `_DAILY_LIMIT_LUA` -/
def dailyLimitLua (key : String) (limit amount now : ℚ) (tx_id : String) (db : SpendingDb) :
    (Bool × ℚ) × SpendingDb :=
  let window := 86400
  let amounts_key := amountsKey key
  let times := db.times.keep now key fun score => now - window < score
  let old_members := ((times.whole now key).filter fun score => score ≤ now - window).names
  let amounts := old_members.foldl (fun amounts m => amounts.hdel now amounts_key m) db.amounts
  let times := times.keep now key fun score => now - window < score
  let total := (amounts.whole now amounts_key).values.sum
  if limit < total + amount then ((false, total), { db with times := times, amounts := amounts })
  else
    let times := (times.write now key tx_id now).expireAt now key (now + (window + 60))
    let amounts := (amounts.write now amounts_key tx_id amount).expireAt now amounts_key
      (now + (window + 60))
    ((true, total + amount), { db with times := times, amounts := amounts })

/-- `_SESSION_LIMIT_LUA` -/
def sessionLimitLua (key : String) (limit amount now : ℚ) (db : SpendingDb) :
    (Bool × ℚ) × SpendingDb :=
  let ttl := 3600
  let current := (db.sessions.get now key).getD 0
  if limit < current + amount then ((false, current), db)
  else
    let sessions := (db.sessions.put now key (current + amount)).expireAt now key (now + ttl)
    ((true, current + amount), { db with sessions := sessions })

/-- A check: it raises a `PolicyViolation` or does not, and what it has recorded stays. -/
abbrev Check := EStateM PolicyViolation SpendingDb Unit

/-- A check that records nothing. -/
def Check.ofExcept (x : Except PolicyViolation Unit) : Check := fun db =>
  match x with
  | .ok _ => .ok () db
  | .error e => .error e db

def checkMaxPerTx (texts : NumberTexts) (policy : SpendingPolicy) (amount : ℚ) :
    Except PolicyViolation Unit :=
  match policy.max_per_tx with
  | none => pure ()
  | some max_per_tx =>
      if max_per_tx < amount then
        throw ⟨"max_per_tx", s!"Amount {texts.decimal amount} exceeds per-transaction limit of " ++
          texts.decimal max_per_tx⟩
      else pure ()

def checkAllowedAgents (policy : SpendingPolicy) (recipient_name : String) :
    Except PolicyViolation Unit :=
  let patterns := policy.allowed_agents.getD []
  if patterns = [] then pure ()
  else if patterns.any fun pattern => Python.fnmatch recipient_name pattern then pure ()
  else
    throw ⟨"allowed_agents", s!"Recipient '{recipient_name}' does not match any allowed pattern"⟩

def checkBlockedAgents (policy : SpendingPolicy) (recipient_name : String) :
    Except PolicyViolation Unit :=
  match (policy.blocked_agents.getD []).find? fun pattern => Python.fnmatch recipient_name pattern with
  | none => pure ()
  | some pattern =>
      throw ⟨"blocked_agents", s!"Recipient '{recipient_name}' is blocked by pattern '{pattern}'"⟩

def dailyKey (agent_id : String) : String := s!"spending:daily:{agent_id}"

def sessionKey (agent_id session_id : String) : String := s!"spending:session:{agent_id}:{session_id}"

/-- `tx_id or f"tx:{time.time()}"` -/
def effectiveTxId (texts : NumberTexts) (drawn : ℚ) (tx_id : Option String) : String :=
  match tx_id with
  | some tx_id => if tx_id = "" then s!"tx:{texts.float drawn}" else tx_id
  | none => s!"tx:{texts.float drawn}"

/-- `_check_daily_limit`: the clock is read for the id of the transaction, and once more. -/
def checkDailyLimit (texts : NumberTexts) (redis : Bool) (policy : SpendingPolicy) (amount : ℚ)
    (tx_id : Option String) (drawn now : ℚ) : Check :=
  match policy.daily_limit with
  | none => pure ()
  | some daily_limit =>
      if redis then fun db =>
        let result := dailyLimitLua (dailyKey policy.agent_id) daily_limit amount now
          (effectiveTxId texts drawn tx_id) db
        if result.1.1 then .ok () result.2
        else
          .error ⟨"daily_limit",
            s!"Daily spending would reach {texts.lua result.1.2} + {texts.decimal amount}, " ++
              s!"exceeding limit of {texts.decimal daily_limit}"⟩ result.2
      else pure ()

/-- `_check_session_limit` -/
def checkSessionLimit (texts : NumberTexts) (redis : Bool) (policy : SpendingPolicy) (amount : ℚ)
    (session_id : String) (now : ℚ) : Check :=
  match policy.max_per_session with
  | none => pure ()
  | some max_per_session =>
      if redis then fun db =>
        let result := sessionLimitLua (sessionKey policy.agent_id session_id) max_per_session amount
          now db
        if result.1.1 then .ok () result.2
        else
          .error ⟨"max_per_session",
            s!"Session spending would reach {texts.lua result.1.2} + {texts.decimal amount}, " ++
              s!"exceeding session limit of {texts.decimal max_per_session}"⟩ result.2
      else pure ()

def checkRequireEscrowAbove (texts : NumberTexts) (policy : SpendingPolicy) (amount : ℚ)
    (is_escrow : Bool) : Except PolicyViolation Unit :=
  match policy.require_escrow_above with
  | none => pure ()
  | some threshold =>
      if threshold < amount ∧ is_escrow = false then
        throw ⟨"require_escrow_above",
          s!"Amount {texts.decimal amount} exceeds {texts.decimal threshold}; " ++
            "escrow is required for payments above this threshold"⟩
      else pure ()

/-- `validate` -/
def validate (texts : NumberTexts) (redis : Bool) (policy : SpendingPolicy) (amount : ℚ)
    (recipient_name session_id : String) (is_escrow : Bool) (tx_id : Option String)
    (drawn now : ℚ) : Check := do
  if policy.is_active = false then return
  Check.ofExcept (checkMaxPerTx texts policy amount)
  Check.ofExcept (checkAllowedAgents policy recipient_name)
  Check.ofExcept (checkBlockedAgents policy recipient_name)
  checkDailyLimit texts redis policy amount tx_id drawn now
  checkSessionLimit texts redis policy amount session_id now
  Check.ofExcept (checkRequireEscrowAbove texts policy amount is_escrow)

end SpendingPolicyService

end Sthrip
