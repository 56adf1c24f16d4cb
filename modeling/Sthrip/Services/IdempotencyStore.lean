import Mathlib.Data.Int.Basic
import Mathlib.Data.Option.Basic

set_option autoImplicit false

/-! # The idempotency store

`IdempotencyStore` of `sthrip/services/idempotency.py`, for one key of one agent at one endpoint:
what Redis or the local map holds of the key, the row in `idempotency_keys`, and the methods. The
response is of any type. Keys are hashed before they are used, which is left out, and so are the log
messages.
-/

namespace Sthrip

/-- A row of `idempotency_keys`. -/
structure IdempotencyKey (R : Type) where
  request_hash : String
  response_status : ℕ
  response_body : R
  deriving DecidableEq

/-- What Redis holds of a key: the sentinel or a response. -/
inductive CacheEntry (R : Type) where
  | processing
  | response (r : R)
  deriving DecidableEq

/-- What the local map holds of a key. A response has a time at which it expires. -/
inductive LocalEntry (R : Type) where
  | processing
  | response (r : R) (expires_at : ℤ)
  deriving DecidableEq

/-- How `try_reserve` ends: the caller proceeds, gets a stored response, or is rejected with 409 or
422. -/
inductive Reserve (R : Type) where
  | reserved
  | cached (r : R)
  | conflict
  | keyReuse
  deriving DecidableEq

namespace IdempotencyStore

variable {R : Type}

/-- The check of the request body. An empty hash passes. -/
def mismatch (request_hash : Option String) (existing : IdempotencyKey R) : Bool :=
  request_hash.any fun h =>
    h ≠ "" ∧ existing.request_hash ≠ "" ∧ existing.request_hash ≠ h

/-- `_check_db_after_redis_miss`, with the row in the database. -/
def checkDb (row : Option (IdempotencyKey R)) (request_hash : Option String) : Reserve R :=
  match row with
  | none => .reserved
  | some existing =>
      if mismatch request_hash existing then .keyReuse else .cached existing.response_body

theorem checkDb_eq_reserved {row : Option (IdempotencyKey R)} {request_hash : Option String} :
    checkDb row request_hash = .reserved ↔ row = none := by
  cases row with
  | none => simp [checkDb]
  | some existing =>
      rw [checkDb]
      split
      · simp
      · simp

/-- `SET NX` of the sentinel: whether it was acquired, and what Redis holds then. -/
def setNx : Option (CacheEntry R) → Bool × Option (CacheEntry R)
  | none => (true, some .processing)
  | some entry => (false, some entry)

/-- `_try_reserve_redis`. Redis may change in between: `nx`, `get` and `retry` are what it holds at
the first `SET NX`, at the `GET` and at the second `SET NX`. -/
def tryReserveRedis (nx get retry : Option (CacheEntry R)) (row : Option (IdempotencyKey R))
    (request_hash : Option String) : Reserve R :=
  if (setNx nx).1 then checkDb row request_hash
  else
    match get with
    | some .processing => .conflict
    | some (.response r) => .cached r
    | none => if (setNx retry).1 then checkDb row request_hash else .conflict

/-- `_try_reserve_local` at the time `now`. -/
def tryReserveLocal (entry : Option (LocalEntry R)) (now : ℤ) (row : Option (IdempotencyKey R))
    (request_hash : Option String) : Reserve R :=
  match entry with
  | some .processing => .conflict
  | some (.response r expires_at) =>
      if now < expires_at then .cached r else checkDb row request_hash
  | none => checkDb row request_hash

/-- `release` clears the sentinel, whoever set it. -/
def release : Option (CacheEntry R) → Option (CacheEntry R)
  | some .processing => none
  | entry => entry

theorem release_of_ne {entry : Option (CacheEntry R)} (h : entry ≠ some .processing) :
    release entry = entry := by
  unfold release
  split
  · exact absurd rfl h
  · rfl

end IdempotencyStore

end Sthrip
