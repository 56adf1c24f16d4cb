import Mathlib.Algebra.Order.Field.Rat
import Sthrip.Redis.Keyspace

set_option autoImplicit false

/-! # The rate limiter

`RateLimiter` of `sthrip/services/rate_limiter.py`: fixed windows, each with a count and the time at
which it ends, in Redis or in a map of one process. Each check is there twice, once for each of the two
backends. The clock readings of one request are one time, in seconds; Redis has the same clock. The
texts of numbers are left out, and so are the log messages.
-/

namespace Sthrip

open Redis

inductive RateLimitTier where
  | LOW | STANDARD | HIGH | UNLIMITED
  deriving DecidableEq, Repr

/-- `RateLimitTier(value)` -/
def RateLimitTier.ofValue : String → Option RateLimitTier
  | "low" => some .LOW
  | "standard" => some .STANDARD
  | "high" => some .HIGH
  | "unlimited" => some .UNLIMITED
  | _ => none

/-- `DEFAULT_LIMITS[tier].requests_per_minute` -/
def RateLimitTier.requestsPerMinute : RateLimitTier → ℤ
  | .LOW => 10
  | .STANDARD => 100
  | .HIGH => 1000
  | .UNLIMITED => 1000000

/-- A window: what was counted in it, and when it ends. -/
structure Window where
  count : ℤ
  reset_at : ℚ
  deriving DecidableEq

/-- What a check answers. -/
inductive Verdict where
  | allowed (remaining : ℤ) (reset_at : ℚ) (limit : ℤ)
  | allowedIp (ip_remaining global_remaining : ℤ)
  /-- `RateLimitExceeded(limit, reset_at)` -/
  | exceeded (limit : ℤ) (reset_at : ℚ)
  deriving DecidableEq

def Verdict.isAllowed : Verdict → Bool
  | .exceeded _ _ => false
  | _ => true

namespace RateLimiter

/-! ## Redis -/

inductive Field where
  | count | reset_at
  deriving DecidableEq

/-- The numbers in the fields. -/
abbrev Number : Field → Type
  | .count => ℤ
  | .reset_at => ℚ

abbrev RedisDb : Type := Keyspace String ℚ (Hash Field Number)

/-- `_RATE_LIMIT_LUA` -/
def rateLimitLua (key : String) (limit : ℤ) (window cost : ℤ) (now : ℚ) (db : RedisDb) :
    (ℤ × ℚ) × RedisDb :=
  let restart : (ℤ × ℚ) × RedisDb :=
    let reset_at := now + window
    let db := (db.hset now key .count cost).hset now key .reset_at reset_at
    ((cost, reset_at), db.expireAt now key (now + (window + 1)))
  match db.hget now key .count, db.hget now key .reset_at with
  | some count, some reset_at =>
      if reset_at < now then restart
      else if limit < count + cost then ((-1, reset_at), db)
      else ((count + cost, reset_at), db.hincrby now key .count cost)
  | _, _ => restart

/-- `_check_redis` -/
def checkRedis (key : String) (requests_per_minute cost : ℤ) (now : ℚ) (db : RedisDb) :
    Verdict × RedisDb :=
  let window := 60
  let result := rateLimitLua key requests_per_minute window cost now db
  let count := result.1.1
  let reset_at := result.1.2
  if count = -1 then (.exceeded requests_per_minute reset_at, result.2)
  else
    (.allowed (max 0 (requests_per_minute - count)) reset_at requests_per_minute, result.2)

/-- The count of a hash that is read before it is changed. -/
def peekCount (db : RedisDb) (now : ℚ) (key : String) : ℤ := (db.hget now key .count).getD 0

def peekReset (db : RedisDb) (now : ℚ) (key : String) : ℚ := (db.hget now key .reset_at).getD now

/-- `_peek_ip_limit`, with Redis. -/
def peekIpRedis (ip_key global_key : String) (per_ip_limit global_limit : ℤ) (now : ℚ)
    (db : RedisDb) : Verdict :=
  let ip_reset := peekReset db now ip_key
  let ip_count := if ip_reset < now then 0 else peekCount db now ip_key
  if per_ip_limit ≤ ip_count then .exceeded per_ip_limit ip_reset
  else
    let g_reset := peekReset db now global_key
    let g_count := if g_reset < now then 0 else peekCount db now global_key
    if global_limit ≤ g_count then .exceeded global_limit g_reset
    else .allowedIp (per_ip_limit - ip_count) (global_limit - g_count)

/-- `_check_ip_redis` -/
def checkIpRedis (ip_key global_key : String) (per_ip_limit global_limit window : ℤ) (now : ℚ)
    (db : RedisDb) : Verdict × RedisDb :=
  let g_reset_peek := peekReset db now global_key
  if now ≤ g_reset_peek ∧ global_limit < peekCount db now global_key + 1 then
    (.exceeded global_limit g_reset_peek, db)
  else
    let ip := rateLimitLua ip_key per_ip_limit window 1 now db
    if ip.1.1 = -1 then (.exceeded per_ip_limit ip.1.2, ip.2)
    else
      let g := rateLimitLua global_key global_limit window 1 now ip.2
      if g.1.1 = -1 then (.exceeded global_limit g.1.2, g.2)
      else (.allowedIp (per_ip_limit - ip.1.1) (global_limit - g.1.1), g.2)

/-! ## One process -/

/-- `_local_cache` and `_last_eviction`. -/
structure LocalState where
  cache : String → Option Window := fun _ => none
  last_eviction : ℚ := 0

/-- `_EVICTION_INTERVAL` -/
def evictionInterval : ℚ := 300

/-- `_evict_expired` -/
def evictExpired (now : ℚ) (cache : String → Option Window) : String → Option Window :=
  fun key => (cache key).filter fun entry => ¬entry.reset_at < now

/-- The periodic eviction at the start of `_check_local`. -/
def evictIfDue (now : ℚ) (st : LocalState) : LocalState :=
  if evictionInterval < now - st.last_eviction then ⟨evictExpired now st.cache, now⟩ else st

/-- `_check_local` -/
def checkLocal (key : String) (requests_per_minute cost : ℤ) (now : ℚ) (st : LocalState) :
    Verdict × LocalState :=
  let window : ℤ := 60
  let st := evictIfDue now st
  let answer (entry : Window) : Verdict × LocalState :=
    (.allowed (max 0 (requests_per_minute - entry.count)) entry.reset_at requests_per_minute,
      { st with cache := Function.update st.cache key (some entry) })
  match st.cache key with
  | none => answer ⟨cost, now + window⟩
  | some entry =>
      if entry.reset_at < now then answer ⟨cost, now + window⟩
      else if requests_per_minute < entry.count + cost then
        (.exceeded requests_per_minute entry.reset_at, st)
      else answer ⟨entry.count + cost, entry.reset_at⟩

/-- The window of an entry that has not ended, or a new one without a count. -/
def readEntry (cache : String → Option Window) (key : String) (window : ℤ) (now : ℚ) : Window :=
  match cache key with
  | none => ⟨0, now + window⟩
  | some entry => if entry.reset_at < now then ⟨0, now + window⟩ else entry

/-- `_peek_ip_limit`, with the map. -/
def peekIpLocal (ip_key global_key : String) (per_ip_limit global_limit : ℤ) (now : ℚ)
    (st : LocalState) : Verdict :=
  let ip := (st.cache ip_key).filter fun entry => now ≤ entry.reset_at
  let ip_count := ip.elim 0 Window.count
  if per_ip_limit ≤ ip_count then .exceeded per_ip_limit (ip.elim now Window.reset_at)
  else
    let g := (st.cache global_key).filter fun entry => now ≤ entry.reset_at
    let g_count := g.elim 0 Window.count
    match g with
    | some entry =>
        if global_limit ≤ entry.count then .exceeded global_limit entry.reset_at
        else .allowedIp (per_ip_limit - ip_count) (global_limit - g_count)
    | none => .allowedIp (per_ip_limit - ip_count) (global_limit - g_count)

/-- `_check_ip_local` -/
def checkIpLocal (ip_key global_key : String) (per_ip_limit global_limit window : ℤ) (now : ℚ)
    (st : LocalState) : Verdict × LocalState :=
  let ip := readEntry st.cache ip_key window now
  let g := readEntry st.cache global_key window now
  if per_ip_limit < ip.count + 1 then (.exceeded per_ip_limit ip.reset_at, st)
  else if global_limit < g.count + 1 then (.exceeded global_limit g.reset_at, st)
  else
    let cache := Function.update st.cache ip_key (some ⟨ip.count + 1, ip.reset_at⟩)
    let cache := Function.update cache global_key (some ⟨g.count + 1, g.reset_at⟩)
    (.allowedIp (per_ip_limit - (ip.count + 1)) (global_limit - (g.count + 1)),
      { st with cache := cache })

/-! ## Requests -/

/-- `_get_key` -/
def getKey (agent_id : String) (endpoint : Option String) : String :=
  match endpoint with
  | some endpoint => if endpoint = "" then s!"ratelimit:{agent_id}" else s!"ratelimit:{agent_id}:{endpoint}"
  | none => s!"ratelimit:{agent_id}"

/-- `_get_limit_config(tier).requests_per_minute`; an unknown tier is the default one. -/
def getLimit (default_tier : RateLimitTier) (tier : String) : ℤ :=
  ((RateLimitTier.ofValue tier.toLower).getD default_tier).requestsPerMinute

def ipKey (action ip_address : String) : String := s!"ratelimit:ip:{action}:{ip_address}"

def globalKey (action : String) : String := s!"ratelimit:global:{action}"

/-- `check_rate_limit` and `check_ip_rate_limit`, with their arguments. -/
inductive Request where
  | agent (agent_id tier : String) (endpoint : Option String) (cost : ℤ)
  | ip (ip_address action : String) (per_ip_limit global_limit window_seconds : ℤ)
      (check_only : Bool)

/-- The answer with Redis. -/
def Request.answerRedis (default_tier : RateLimitTier) (now : ℚ) (db : RedisDb) :
    Request → Verdict × RedisDb
  | .agent agent_id tier endpoint cost =>
      checkRedis (getKey agent_id endpoint) (getLimit default_tier tier) cost now db
  | .ip ip_address action per_ip_limit global_limit window_seconds check_only =>
      let ip_key := ipKey action ip_address
      let global_key := globalKey action
      if check_only then (peekIpRedis ip_key global_key per_ip_limit global_limit now db, db)
      else checkIpRedis ip_key global_key per_ip_limit global_limit window_seconds now db

/-- The answer without. -/
def Request.answerLocal (default_tier : RateLimitTier) (now : ℚ) (st : LocalState) :
    Request → Verdict × LocalState
  | .agent agent_id tier endpoint cost =>
      checkLocal (getKey agent_id endpoint) (getLimit default_tier tier) cost now st
  | .ip ip_address action per_ip_limit global_limit window_seconds check_only =>
      let ip_key := ipKey action ip_address
      let global_key := globalKey action
      if check_only then (peekIpLocal ip_key global_key per_ip_limit global_limit now st, st)
      else checkIpLocal ip_key global_key per_ip_limit global_limit window_seconds now st

/-! ## Failed authentications -/

def failedAuthKey (ip : String) : String := s!"ratelimit:ip:failed_auth:{ip}"

/-- `check_failed_auth`, with Redis: is the address blocked? -/
def checkFailedAuthRedis (ip : String) (limit window : ℤ) (now : ℚ) (db : RedisDb) : Bool :=
  let key := failedAuthKey ip
  let count := (db.hget now key .count).getD 0
  let reset_at := (db.hget now key .reset_at).getD (now + window)
  let count := if reset_at < now then 0 else count
  limit ≤ count

/-- `check_failed_auth`, with the map. -/
def checkFailedAuthLocal (ip : String) (limit : ℤ) (now : ℚ) (st : LocalState) : Bool :=
  match st.cache (failedAuthKey ip) with
  | some entry => now ≤ entry.reset_at ∧ limit ≤ entry.count
  | none => false

/-- `record_failed_auth`, with Redis. -/
def recordFailedAuthRedis (ip : String) (window : ℤ) (now : ℚ) (db : RedisDb) : RedisDb :=
  let key := failedAuthKey ip
  let db := db.hincrby now key .count 1
  let db := db.hsetnx now key .reset_at (now + window)
  db.expireAt now key (now + (window + 60))

/-- `record_failed_auth`, with the map. -/
def recordFailedAuthLocal (ip : String) (window : ℤ) (now : ℚ) (st : LocalState) : LocalState :=
  let key := failedAuthKey ip
  let entry : Window :=
    match st.cache key with
    | some entry =>
        if now ≤ entry.reset_at then ⟨entry.count + 1, entry.reset_at⟩ else ⟨1, now + window⟩
    | none => ⟨1, now + window⟩
  { st with cache := Function.update st.cache key (some entry) }

end RateLimiter

end Sthrip
