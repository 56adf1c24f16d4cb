import Sthrip.Audit.Chain
import Sthrip.Bitcoin.Script
import Sthrip.Python.Values
import Sthrip.Redis.Collections
import Mathlib.Data.Rat.Defs

set_option autoImplicit false

/-! # Sessions of the admins

`AdminSessionStore` of `api/session_store.py`, with the stores of `api/deps.py` and
`api/admin_ui/views.py`. A process has one store for the API and one for the dashboard, and each uses
Redis, which all processes share, or a dict of its own, which it found out on first use. Tokens are stored
under their SHA-256. A value of a session is `"1"` or a JSON object that `json.loads` gives back.

A call is one command of Redis, one transaction of Redis, or a few operations on a dict, and is taken as
one step.
-/

namespace Sthrip.Sessions

open Audit (Digest)
open Python (Py Exn)
open Redis (Keyspace)

/-! ## The stores -/

inductive Payload where
  | one
  | binding (ip ua_hash : String)
  deriving DecidableEq

/-- An entry of `_local`. -/
structure Entry where
  expires : ℚ
  value : Payload
  deriving DecidableEq

abbrev Local := Redis.Pairs String Entry

/-- `_admin_session_store` and `_session_store`. -/
inductive Consumer where
  | api | dashboard
  deriving DecidableEq

def Consumer.key_prefix : Consumer → String
  | .api => "admin_api_session:"
  | .dashboard => "admin_session:"

structure Store where
  consumer : Consumer
  /-- What `_ensure_redis` found. -/
  redis : Bool

variable (I : Type)

structure State where
  redis : Keyspace String ℚ Payload := Keyspace.empty
  loc : I → Local := fun _ => ∅

variable {I} [DecidableEq I] (sha256 : String → Digest) (stores : I → Store)

def MAX_LOCAL_ENTRIES : ℕ := 1000
def CSRF_TTL : ℕ := 600

def evictExpired (now : ℚ) (d : Local) : Local :=
  let expired_keys := (d.entries.filter fun x => x.2.expires < now).map Sigma.fst
  expired_keys.foldl (fun d k => d.erase k) d

def sessionKey (i : I) (token_hash : String) : String := (stores i).consumer.key_prefix ++ token_hash

def csrfKey (token_hash : String) : String := "csrf:" ++ token_hash

def storeToken (i : I) (redis_key local_key : String) (ttl : ℕ) (value : Payload) (now : ℚ)
    (s : State I) : State I :=
  if (stores i).redis then { s with redis := s.redis.setex redis_key value (now + ttl) }
  else
    let d := s.loc i
    let d := if MAX_LOCAL_ENTRIES ≤ d.entries.length then evictExpired now d else d
    { s with loc := Function.update s.loc i (d.insert local_key ⟨now + ttl, value⟩) }

def readToken (i : I) (redis_key local_key : String) (now : ℚ) (s : State I) :
    Option Payload × State I :=
  if (stores i).redis then (s.redis.get now redis_key, s)
  else
    match (s.loc i).lookup local_key with
    | none => (none, s)
    | some entry =>
        if entry.expires < now then
          (none, { s with loc := Function.update s.loc i ((s.loc i).erase local_key) })
        else (some entry.value, s)

def deleteToken (i : I) (redis_key local_key : String) (s : State I) : State I :=
  if (stores i).redis then { s with redis := s.redis.del redis_key }
  else { s with loc := Function.update s.loc i ((s.loc i).erase local_key) }

/-! ## The methods -/

/-- `hmac.compare_digest` of texts: a text that is not ASCII raises. -/
def compareDigest (a b : String) : Py Bool :=
  if a.toList.all (·.toNat < 128) && b.toList.all (·.toNat < 128) then .ok (a == b)
  else .error .TypeError

def uaHash (user_agent : Option String) : String :=
  match user_agent with
  | none => ""
  | some ua => if ua = "" then "" else (sha256 ua).hex

/-- `token` is the random token. -/
def createSession (i : I) (token : String) (ttl : ℕ) (client_ip user_agent : Option String) (now : ℚ)
    (s : State I) : State I :=
  let token_hash := (sha256 token).hex
  let payload := Payload.binding (client_ip.getD "") (uaHash sha256 user_agent)
  storeToken stores i (sessionKey stores i token_hash) token_hash ttl payload now s

/-- What is bound is compared, and with a difference the answer is `False`. -/
def requireSame (bound got : String) (rest : Py Bool) : Py Bool :=
  if bound = "" then rest
  else do
    let same ← compareDigest bound got
    if same = false then return false else rest

/-- The part of `validate_session` after the token was found. -/
def checkBinding (payload : Payload) (client_ip user_agent : Option String) : Py Bool :=
  match payload with
  | .one => .ok true
  | .binding bound_ip bound_ua_hash =>
      requireSame bound_ip (client_ip.getD "")
        (requireSame bound_ua_hash (uaHash sha256 user_agent) (.ok true))

def validateSession (i : I) (token : String) (client_ip user_agent : Option String) (now : ℚ)
    (s : State I) : Py Bool × State I :=
  if token = "" then (.ok false, s)
  else
    let token_hash := (sha256 token).hex
    match readToken stores i (sessionKey stores i token_hash) token_hash now s with
    | (none, s) => (.ok false, s)
    | (some payload, s) => (checkBinding sha256 payload client_ip user_agent, s)

def setSession (i : I) (token : String) (ttl : ℕ) (now : ℚ) (s : State I) : State I :=
  let token_hash := (sha256 token).hex
  storeToken stores i (sessionKey stores i token_hash) token_hash ttl .one now s

def getSession (i : I) (token : String) (now : ℚ) (s : State I) : Bool × State I :=
  if token = "" then (false, s)
  else
    let token_hash := (sha256 token).hex
    let r := readToken stores i (sessionKey stores i token_hash) token_hash now s
    (r.1.isSome, r.2)

def deleteSession (i : I) (token : String) (s : State I) : State I :=
  let token_hash := (sha256 token).hex
  deleteToken stores i (sessionKey stores i token_hash) token_hash s

def createCsrfToken (i : I) (token : String) (now : ℚ) (s : State I) : State I :=
  let key := csrfKey (sha256 token).hex
  storeToken stores i key key CSRF_TTL .one now s

/-- `str.isspace` of a character. -/
def isSpace (c : Char) : Bool :=
  c.toNat ∈ [0x20, 0x85, 0xa0, 0x1680, 0x2028, 0x2029, 0x202f, 0x205f, 0x3000]
    || (0x09 ≤ c.toNat && c.toNat ≤ 0x0d) || (0x1c ≤ c.toNat && c.toNat ≤ 0x1f)
    || (0x2000 ≤ c.toNat && c.toNat ≤ 0x200a)

/-- `not token or not token.strip()` -/
def blank (token : String) : Bool := token.toList.all isSpace

/-- With Redis, `GET` and `DEL` in one transaction. -/
def verifyCsrfToken (i : I) (token : String) (now : ℚ) (s : State I) : Bool × State I :=
  if blank token then (false, s)
  else
    let key := csrfKey (sha256 token).hex
    if (stores i).redis then ((s.redis.get now key).isSome, { s with redis := s.redis.del key })
    else
      let entry := (s.loc i).lookup key
      (entry.any fun e => now < e.expires,
        { s with loc := Function.update s.loc i ((s.loc i).erase key) })

/-! ## Runs -/

variable (I) in
inductive Call where
  | create_session (i : I) (token : String) (ttl : ℕ) (client_ip user_agent : Option String)
  | validate_session (i : I) (token : String) (client_ip user_agent : Option String)
  | set_session (i : I) (token : String) (ttl : ℕ)
  | get_session (i : I) (token : String)
  | delete_session (i : I) (token : String)
  | create_csrf_token (i : I) (token : String)
  | verify_csrf_token (i : I) (token : String)

/-- The state after a call at a time. -/
def step (s : State I) (c : ℚ × Call I) : State I :=
  match c.2 with
  | .create_session i token ttl ip ua => createSession sha256 stores i token ttl ip ua c.1 s
  | .validate_session i token ip ua => (validateSession sha256 stores i token ip ua c.1 s).2
  | .set_session i token ttl => setSession sha256 stores i token ttl c.1 s
  | .get_session i token => (getSession sha256 stores i token c.1 s).2
  | .delete_session i token => deleteSession sha256 stores i token s
  | .create_csrf_token i token => createCsrfToken sha256 stores i token c.1 s
  | .verify_csrf_token i token => (verifyCsrfToken sha256 stores i token c.1 s).2

/-- The state after calls of any processes, in any order. -/
def run (calls : List (ℚ × Call I)) : State I := calls.foldl (step sha256 stores) {}

/-! ## Cells -/

/-- Where a value is: in Redis, or in the dict of a store. -/
abbrev Cell (I : Type) := Option I × String

def State.cell (s : State I) : Cell I → Option (Redis.Stored ℚ Payload)
  | (none, k) => s.redis k
  | (some i, k) => ((s.loc i).lookup k).map fun e => ⟨e.value, some e.expires⟩

def cellOf (i : I) (redis_key local_key : String) : Cell I :=
  if (stores i).redis then (none, redis_key) else (some i, local_key)

section Cells

variable {stores} {i : I} {redis_key local_key : String} {now : ℚ} {s : State I} {c : Cell I}
  {v : Redis.Stored ℚ Payload}

omit [DecidableEq I] in
theorem lookup_foldl_erase {ks : List String} {d : Local} {k : String} :
    (ks.foldl (fun d k => d.erase k) d).lookup k = if k ∈ ks then none else d.lookup k := by
  induction ks generalizing d with
  | nil => rfl
  | cons k' ks ih =>
      rw [List.foldl_cons, ih]
      by_cases hk : k = k'
      · subst hk
        simp
      · rw [AList.lookup_erase_ne hk]
        simp [hk]

omit [DecidableEq I] in
/-- An eviction takes what has expired. -/
theorem lookup_evictExpired {d : Local} {k : String} {e : Entry} :
    (evictExpired now d).lookup k = some e ↔ d.lookup k = some e ∧ now ≤ e.expires := by
  have hmem : k ∈ (d.entries.filter fun x => x.2.expires < now).map Sigma.fst ↔
      ∃ e', d.lookup k = some e' ∧ e'.expires < now := by
    rw [List.mem_map]
    constructor
    · rintro ⟨⟨k', e'⟩, hx, rfl⟩
      obtain ⟨hentry, hexpired⟩ := List.mem_filter.mp hx
      exact ⟨e', AList.mem_lookup_iff.mpr hentry, of_decide_eq_true hexpired⟩
    · rintro ⟨e', he', hexpired⟩
      refine ⟨⟨k, e'⟩, List.mem_filter.mpr ⟨AList.mem_lookup_iff.mp he', ?_⟩, rfl⟩
      exact decide_eq_true hexpired
  rw [evictExpired, lookup_foldl_erase]
  split
  · next hk =>
      obtain ⟨e', he', hexpired⟩ := hmem.mp hk
      constructor
      · intro h
        cases h
      · rintro ⟨he, hlive⟩
        rw [he', Option.some.injEq] at he
        exact absurd hexpired (not_lt.mpr (he ▸ hlive))
  · next hk =>
      constructor
      · exact fun he => ⟨he, not_lt.mp fun hexpired => hk (hmem.mpr ⟨e, he, hexpired⟩)⟩
      · exact fun h => h.1

theorem cell_storeToken_self {ttl : ℕ} {value : Payload} :
    (storeToken stores i redis_key local_key ttl value now s).cell (cellOf stores i redis_key local_key)
      = some ⟨value, some (now + ttl)⟩ := by
  rw [storeToken, cellOf]
  split
  · exact Keyspace.setex_self
  · simp [State.cell]

/-- The other cells keep what has not expired. -/
theorem cell_storeToken_ne {ttl : ℕ} {value : Payload} (hc : c ≠ cellOf stores i redis_key local_key) :
    ((storeToken stores i redis_key local_key ttl value now s).cell c = some v → s.cell c = some v)
      ∧ (s.cell c = some v → v.alive now = true →
        (storeToken stores i redis_key local_key ttl value now s).cell c = some v) := by
  rw [storeToken]
  rw [cellOf] at hc
  split
  · next hredis =>
      rw [if_pos hredis] at hc
      obtain ⟨_ | j, k⟩ := c
      · have hk : k ≠ redis_key := fun h => hc (h ▸ rfl)
        simp only [State.cell, Keyspace.setex, Function.update_of_ne hk]
        exact ⟨id, fun h _ => h⟩
      · exact ⟨id, fun h _ => h⟩
  · next hredis =>
      rw [if_neg hredis] at hc
      obtain ⟨_ | j, k⟩ := c
      · exact ⟨id, fun h _ => h⟩
      · by_cases hj : j = i
        · subst hj
          have hk : k ≠ local_key := fun h => hc (h ▸ rfl)
          simp only [State.cell, Function.update_self, AList.lookup_insert_ne hk]
          split
          · constructor
            · intro h
              obtain ⟨e, he, hv⟩ := Option.map_eq_some_iff.mp h
              exact Option.map_eq_some_iff.mpr ⟨e, (lookup_evictExpired.mp he).1, hv⟩
            · intro h hlive
              obtain ⟨e, he, rfl⟩ := Option.map_eq_some_iff.mp h
              have hnow : now ≤ e.expires := of_decide_eq_true hlive
              exact Option.map_eq_some_iff.mpr ⟨e, lookup_evictExpired.mpr ⟨he, hnow⟩, rfl⟩
          · exact ⟨id, fun h _ => h⟩
        · simp only [State.cell, Function.update_of_ne hj]
          exact ⟨id, fun h _ => h⟩

theorem cell_deleteToken_self :
    (deleteToken stores i redis_key local_key s).cell (cellOf stores i redis_key local_key) = none := by
  rw [deleteToken, cellOf]
  split
  · exact Keyspace.del_self
  · simp [State.cell]

theorem cell_deleteToken_ne (hc : c ≠ cellOf stores i redis_key local_key) :
    (deleteToken stores i redis_key local_key s).cell c = s.cell c := by
  rw [deleteToken]
  rw [cellOf] at hc
  split
  · next hredis =>
      rw [if_pos hredis] at hc
      obtain ⟨_ | j, k⟩ := c
      · have hk : k ≠ redis_key := fun h => hc (h ▸ rfl)
        simp [State.cell, Keyspace.del, Function.update_of_ne hk]
      · rfl
  · next hredis =>
      rw [if_neg hredis] at hc
      obtain ⟨_ | j, k⟩ := c
      · rfl
      · by_cases hj : j = i
        · subst hj
          have hk : k ≠ local_key := fun h => hc (h ▸ rfl)
          simp [State.cell, AList.lookup_erase_ne hk]
        · simp [State.cell, Function.update_of_ne hj]

/-- A read may take what has expired. -/
theorem cell_readToken :
    ((readToken stores i redis_key local_key now s).2.cell c = some v → s.cell c = some v)
      ∧ (s.cell c = some v → v.alive now = true →
        (readToken stores i redis_key local_key now s).2.cell c = some v) := by
  rw [readToken]
  split
  · exact ⟨id, fun h _ => h⟩
  · next hredis =>
      split
      · exact ⟨id, fun h _ => h⟩
      · next entry hentry =>
          split
          · next hexpired =>
              have hdelete : { s with
                  loc := Function.update s.loc i ((s.loc i).erase local_key) }
                  = deleteToken stores i redis_key local_key s := by
                rw [deleteToken, if_neg hredis]
              rw [hdelete]
              by_cases hc : c = cellOf stores i redis_key local_key
              · rw [hc, cell_deleteToken_self]
                constructor
                · intro h
                  cases h
                · intro h hlive
                  rw [cellOf, if_neg hredis, State.cell, hentry] at h
                  cases h
                  exact absurd hexpired (not_lt.mpr (of_decide_eq_true hlive))
              · rw [cell_deleteToken_ne hc]
                exact ⟨id, fun h _ => h⟩
          · exact ⟨id, fun h _ => h⟩

theorem readToken_eq_some {payload : Payload} :
    (readToken stores i redis_key local_key now s).1 = some payload ↔
      ∃ v, s.cell (cellOf stores i redis_key local_key) = some v ∧ v.alive now = true
        ∧ v.value = payload := by
  rw [readToken, cellOf]
  split
  · constructor
    · exact Keyspace.stored_of_get
    · rintro ⟨v, hv, hlive, rfl⟩
      exact Keyspace.get_of_alive hv hlive
  · rw [State.cell]
    cases hentry : (s.loc i).lookup local_key with
    | none =>
        constructor
        · intro h
          cases h
        · rintro ⟨v, hv, -⟩
          cases hv
    | some entry =>
        simp only [Option.map_some, Option.some.injEq, exists_eq_left']
        split
        · next hexpired =>
            constructor
            · intro h
              cases h
            · intro h
              exact absurd hexpired (not_lt.mpr (of_decide_eq_true h.1))
        · next hlive =>
            rw [Option.some.injEq]
            exact ⟨fun h => ⟨decide_eq_true (not_lt.mp hlive), h⟩, fun h => h.2⟩

end Cells

/-! ## What a call writes and removes -/

def sessionCell (i : I) (token : String) : Cell I :=
  cellOf stores i (sessionKey stores i (sha256 token).hex) (sha256 token).hex

def csrfCell (i : I) (token : String) : Cell I :=
  cellOf stores i (csrfKey (sha256 token).hex) (csrfKey (sha256 token).hex)

def writes (c : ℚ × Call I) (k : Cell I) : Option (Redis.Stored ℚ Payload) :=
  match c.2 with
  | .create_session i token ttl ip ua =>
      if k = sessionCell sha256 stores i token then
        some ⟨.binding (ip.getD "") (uaHash sha256 ua), some (c.1 + ttl)⟩
      else none
  | .set_session i token ttl =>
      if k = sessionCell sha256 stores i token then some ⟨.one, some (c.1 + ttl)⟩ else none
  | .create_csrf_token i token =>
      if k = csrfCell sha256 stores i token then some ⟨.one, some (c.1 + CSRF_TTL)⟩ else none
  | _ => none

def removes (c : ℚ × Call I) (k : Cell I) : Prop :=
  match c.2 with
  | .delete_session i token => k = sessionCell sha256 stores i token
  | .verify_csrf_token i token => blank token = false ∧ k = csrfCell sha256 stores i token
  | _ => False

variable {sha256 stores}

theorem verifyCsrfToken_snd {i : I} {token : String} {now : ℚ} {s : State I} (hb : blank token = false) :
    (verifyCsrfToken sha256 stores i token now s).2
      = deleteToken stores i (csrfKey (sha256 token).hex) (csrfKey (sha256 token).hex) s := by
  rw [verifyCsrfToken, hb, deleteToken]
  split
  · next h => cases h
  · split <;> rfl

theorem validateSession_eq {i : I} {token : String} {ip ua : Option String} {now : ℚ} {s : State I}
    (ht : token ≠ "") :
    validateSession sha256 stores i token ip ua now s =
      let r := readToken stores i (sessionKey stores i (sha256 token).hex) (sha256 token).hex now s
      (r.1.elim (.ok false) fun payload => checkBinding sha256 payload ip ua, r.2) := by
  rw [validateSession, if_neg ht]
  dsimp only
  generalize readToken stores i (sessionKey stores i (sha256 token).hex) (sha256 token).hex now s = r
  obtain ⟨_ | payload, s'⟩ := r <;> rfl

/-- What the cells hold after a step that writes `w` and removes `r`. -/
structure Changes (now : ℚ) (w : Cell I → Option (Redis.Stored ℚ Payload)) (r : Cell I → Prop)
    (s s' : State I) : Prop where
  written : ∀ k v, w k = some v → s'.cell k = some v
  removed : ∀ k, r k → s'.cell k = none
  came : ∀ k v, w k = none → ¬ r k → s'.cell k = some v → s.cell k = some v
  kept : ∀ k v, w k = none → ¬ r k → s.cell k = some v → v.alive now = true → s'.cell k = some v

section Steps

variable {i : I} {redis_key local_key : String} {now : ℚ} {s : State I}

theorem changes_storeToken {ttl : ℕ} {value : Payload} :
    Changes now
      (fun k => if k = cellOf stores i redis_key local_key then some ⟨value, some (now + ttl)⟩ else none)
      (fun _ => False) s (storeToken stores i redis_key local_key ttl value now s) := by
  constructor
  · intro k v h
    obtain ⟨rfl, rfl⟩ := Option.ite_none_right_eq_some.mp h |>.imp id Option.some.inj
    exact cell_storeToken_self
  · exact fun k h => h.elim
  · intro k v h _
    refine (cell_storeToken_ne fun hk => ?_).1
    rw [if_pos hk] at h
    cases h
  · intro k v h _
    refine (cell_storeToken_ne fun hk => ?_).2
    rw [if_pos hk] at h
    cases h

theorem changes_deleteToken :
    Changes now (fun _ => none) (fun k => k = cellOf stores i redis_key local_key) s
      (deleteToken stores i redis_key local_key s) := by
  constructor
  · intro k v h
    cases h
  · intro k hk
    rw [hk]
    exact cell_deleteToken_self
  · intro k v _ hk h
    rwa [cell_deleteToken_ne hk] at h
  · intro k v _ hk h _
    rwa [cell_deleteToken_ne hk]

theorem changes_readToken :
    Changes now (fun _ => none) (fun _ => False) s
      (readToken stores i redis_key local_key now s).2 := by
  constructor
  · intro k v h
    cases h
  · exact fun k h => h.elim
  · exact fun k v _ _ => cell_readToken.1
  · exact fun k v _ _ => cell_readToken.2

omit [DecidableEq I] in
theorem changes_refl : Changes now (fun _ => none) (fun _ => False) s s := by
  constructor
  · intro k v h
    cases h
  · exact fun k h => h.elim
  · exact fun k v _ _ h => h
  · exact fun k v _ _ h _ => h

end Steps

theorem changes_step (s : State I) (c : ℚ × Call I) :
    Changes c.1 (writes sha256 stores c) (removes sha256 stores c) s (step sha256 stores s c) := by
  obtain ⟨now, call⟩ := c
  cases call with
  | create_session i token ttl ip ua => exact changes_storeToken
  | set_session i token ttl => exact changes_storeToken
  | create_csrf_token i token => exact changes_storeToken
  | delete_session i token => exact changes_deleteToken
  | validate_session i token ip ua =>
      show Changes now (fun _ => none) (fun _ => False) s
        (validateSession sha256 stores i token ip ua now s).2
      by_cases ht : token = ""
      · rw [validateSession, if_pos ht]
        exact changes_refl
      · rw [validateSession_eq ht]
        exact changes_readToken
  | get_session i token =>
      show Changes now (fun _ => none) (fun _ => False) s (getSession sha256 stores i token now s).2
      rw [getSession]
      split
      · exact changes_refl
      · exact changes_readToken
  | verify_csrf_token i token =>
      show Changes now (fun _ => none) (fun k => blank token = false ∧ k = csrfCell sha256 stores i token) s
        (verifyCsrfToken sha256 stores i token now s).2
      cases hb : blank token with
      | true =>
          rw [verifyCsrfToken, hb, if_pos rfl]
          simpa using changes_refl
      | false =>
          rw [verifyCsrfToken_snd hb]
          simp only [true_and]
          exact changes_deleteToken

/-! ## Keys -/

theorem length_hex (d : Digest) : d.hex.length = 64 := by
  rw [← String.length_toList, Digest.hex, String.toList_ofList, Audit.hexDigits_length]

omit [DecidableEq I] in
/-- The keys of sessions are as long as the prefix says, and no key of a CSRF token is. -/
theorem sessionCell_ne_csrfCell (i j : I) (token token' : String) :
    sessionCell sha256 stores i token ≠ csrfCell sha256 stores j token' := by
  intro h
  have hkey := congrArg (fun c : Cell I => c.2.length) h
  have hprefix (c : Consumer) : c.key_prefix.length = 14 ∨ c.key_prefix.length = 18 := by
    cases c
    · exact Or.inr rfl
    · exact Or.inl rfl
  have hcsrf : "csrf:".length = 5 := rfl
  rcases hprefix (stores i).consumer with hp | hp <;>
  simp only [sessionCell, csrfCell, cellOf, sessionKey, csrfKey] at hkey <;>
  split at hkey <;> split at hkey <;>
  simp only [String.length_append, length_hex, hp, hcsrf] at hkey <;> omega

/-- Two stores that have the same sessions. -/
def Shares (stores : I → Store) (i j : I) : Prop :=
  (stores i).consumer = (stores j).consumer ∧
    (i = j ∨ (stores i).redis = true ∧ (stores j).redis = true)

theorem key_prefix_append {c c' : Consumer} {d d' : Digest}
    (h : c.key_prefix ++ d.hex = c'.key_prefix ++ d'.hex) : c = c' ∧ d.hex = d'.hex := by
  have hlen := congrArg String.length h
  simp only [String.length_append, length_hex, Nat.add_right_cancel_iff] at hlen
  have hc : c = c' := by
    revert hlen
    cases c <;> cases c' <;> decide
  subst hc
  exact ⟨rfl, (String.append_right_inj _).mp h⟩

omit [DecidableEq I] in
theorem sessionCell_eq {i j : I} {token token' : String} :
    sessionCell sha256 stores i token = sessionCell sha256 stores j token' ↔
      Shares stores i j ∧ (sha256 token).hex = (sha256 token').hex := by
  rw [sessionCell, sessionCell, cellOf, cellOf, Shares]
  constructor
  · intro h
    split at h
    · next hi =>
        split at h
        · next hj =>
            obtain ⟨hc, hhex⟩ := key_prefix_append (Prod.mk.inj h).2
            exact ⟨⟨hc, Or.inr ⟨hi, hj⟩⟩, hhex⟩
        · cases (Prod.mk.inj h).1
    · split at h
      · cases (Prod.mk.inj h).1
      · have hij : i = j := Option.some.inj (Prod.mk.inj h).1
        exact ⟨⟨congrArg (fun i => (stores i).consumer) hij, Or.inl hij⟩, (Prod.mk.inj h).2⟩
  · rintro ⟨⟨hc, rfl | ⟨hi, hj⟩⟩, hhex⟩
    · rw [hhex]
    · rw [if_pos hi, if_pos hj, sessionKey, sessionKey, hc, hhex]

omit [DecidableEq I] in
/-- All stores with Redis have the same CSRF tokens. -/
theorem csrfCell_eq {i j : I} {token token' : String} :
    csrfCell sha256 stores i token = csrfCell sha256 stores j token' ↔
      (i = j ∨ (stores i).redis = true ∧ (stores j).redis = true)
        ∧ (sha256 token).hex = (sha256 token').hex := by
  have hcancel {a b : String} (h : csrfKey a = csrfKey b) : a = b := (String.append_right_inj _).mp h
  rw [csrfCell, csrfCell, cellOf, cellOf]
  constructor
  · intro h
    split at h
    · next hi =>
        split at h
        · next hj => exact ⟨Or.inr ⟨hi, hj⟩, hcancel (Prod.mk.inj h).2⟩
        · cases (Prod.mk.inj h).1
    · split at h
      · cases (Prod.mk.inj h).1
      · exact ⟨Or.inl (Option.some.inj (Prod.mk.inj h).1), hcancel (Prod.mk.inj h).2⟩
  · rintro ⟨rfl | ⟨hi, hj⟩, hhex⟩
    · rw [hhex]
    · rw [if_pos hi, if_pos hj, hhex]

/-! ## Every run -/

/-- The call hands out the token as a session of the store, with what it is bound to. -/
def Call.Opens (sha256 : String → Digest) (stores : I → Store) (i : I) (token : String) (ttl : ℕ)
    (payload : Payload) : Call I → Prop
  | .create_session j token' ttl' ip ua =>
      (Shares stores i j ∧ (sha256 token).hex = (sha256 token').hex) ∧ ttl' = ttl
        ∧ .binding (ip.getD "") (uaHash sha256 ua) = payload
  | .set_session j token' ttl' =>
      (Shares stores i j ∧ (sha256 token).hex = (sha256 token').hex) ∧ ttl' = ttl ∧ .one = payload
  | _ => False

/-- The call takes the session back. -/
def Call.Closes (sha256 : String → Digest) (stores : I → Store) (i : I) (token : String) :
    Call I → Prop
  | .delete_session j token' => Shares stores i j ∧ (sha256 token).hex = (sha256 token').hex
  | _ => False

/-- The calls handed out the token, which is not too old for `now` and was not taken back or replaced. -/
def Live (sha256 : String → Digest) (stores : I → Store) (calls : List (ℚ × Call I)) (i : I)
    (token : String) (now : ℚ) (payload : Payload) : Prop :=
  ∃ before t c after ttl, calls = before ++ (t, c) :: after
    ∧ c.Opens sha256 stores i token ttl payload ∧ now ≤ t + (ttl : ℕ)
    ∧ ∀ d ∈ after, ¬ d.2.Closes sha256 stores i token
      ∧ ∀ ttl' payload', ¬ d.2.Opens sha256 stores i token ttl' payload'

theorem writes_sessionCell {i : I} {token : String} {t : ℚ} {c : Call I} {v : Redis.Stored ℚ Payload} :
    writes sha256 stores (t, c) (sessionCell sha256 stores i token) = some v ↔
      ∃ ttl : ℕ, c.Opens sha256 stores i token ttl v.value ∧ v.expires = some (t + ttl) := by
  obtain ⟨value, expires⟩ := v
  cases c with
  | create_session j token' ttl ip ua =>
      simp only [writes, Option.ite_none_right_eq_some, Option.some.injEq, Redis.Stored.mk.injEq,
        sessionCell_eq, Call.Opens]
      constructor
      · rintro ⟨hsame, hvalue, hexpires⟩
        exact ⟨ttl, ⟨hsame, rfl, hvalue⟩, hexpires.symm⟩
      · rintro ⟨_, ⟨hsame, rfl, hvalue⟩, hexpires⟩
        exact ⟨hsame, hvalue, hexpires.symm⟩
  | set_session j token' ttl =>
      simp only [writes, Option.ite_none_right_eq_some, Option.some.injEq, Redis.Stored.mk.injEq,
        sessionCell_eq, Call.Opens]
      constructor
      · rintro ⟨hsame, hvalue, hexpires⟩
        exact ⟨ttl, ⟨hsame, rfl, hvalue⟩, hexpires.symm⟩
      · rintro ⟨_, ⟨hsame, rfl, hvalue⟩, hexpires⟩
        exact ⟨hsame, hvalue, hexpires.symm⟩
  | create_csrf_token j token' => simp [writes, Call.Opens, sessionCell_ne_csrfCell]
  | _ => simp [writes, Call.Opens]

omit [DecidableEq I] in
theorem removes_sessionCell {i : I} {token : String} {t : ℚ} {c : Call I} :
    removes sha256 stores (t, c) (sessionCell sha256 stores i token) ↔
      c.Closes sha256 stores i token := by
  cases c with
  | delete_session j token' => exact sessionCell_eq
  | verify_csrf_token j token' => simp [removes, Call.Closes, sessionCell_ne_csrfCell]
  | _ => exact Iff.rfl

theorem untouched_sessionCell {i : I} {token : String} {d : ℚ × Call I} :
    (writes sha256 stores d (sessionCell sha256 stores i token) = none
        ∧ ¬ removes sha256 stores d (sessionCell sha256 stores i token)) ↔
      ¬ d.2.Closes sha256 stores i token
        ∧ ∀ ttl payload, ¬ d.2.Opens sha256 stores i token ttl payload := by
  obtain ⟨t, c⟩ := d
  rw [removes_sessionCell, Option.eq_none_iff_forall_ne_some, and_comm]
  refine and_congr_right fun _ => ?_
  constructor
  · intro h ttl payload hopens
    exact h ⟨payload, some (t + ttl)⟩ (writes_sessionCell.mpr ⟨ttl, hopens, rfl⟩)
  · intro h v hv
    obtain ⟨ttl, hopens, -⟩ := writes_sessionCell.mp hv
    exact h ttl v.value hopens

omit [DecidableEq I] in
theorem cell_empty (k : Cell I) : ({} : State I).cell k = none := by
  obtain ⟨_ | i, k⟩ := k <;> rfl

theorem cell_step (s : State I) (c : ℚ × Call I) (k : Cell I) (v : Redis.Stored ℚ Payload)
    (h : (step sha256 stores s c).cell k = some v) :
    writes sha256 stores c k = some v ∨
      s.cell k = some v ∧ writes sha256 stores c k = none ∧ ¬ removes sha256 stores c k := by
  have hchanges : Changes c.1 (writes sha256 stores c) (removes sha256 stores c) s
      (step sha256 stores s c) := changes_step s c
  obtain ⟨hwritten, hremoved, hcame, -⟩ := hchanges
  have hgone : ¬ removes sha256 stores c k := by
    intro hr
    rw [hremoved k hr] at h
    cases h
  cases hw : writes sha256 stores c k with
  | some w => exact Or.inl ((hwritten k w hw).symm.trans h)
  | none => exact Or.inr ⟨hcame k v hw hgone h, rfl, hgone⟩

theorem cell_kept (now : ℚ) (s : State I) (c : ℚ × Call I) (k : Cell I) (v : Redis.Stored ℚ Payload)
    (hc : c.1 ≤ now) (hlive : v.alive now = true) (hv : s.cell k = some v)
    (hno : writes sha256 stores c k = none) (hremoves : ¬ removes sha256 stores c k) :
    (step sha256 stores s c).cell k = some v :=
  (changes_step s c).kept k v hno hremoves hv (Redis.Stored.alive_of_le hc hlive)

/-- What has not expired in a cell was written by the last call that touched it. The clock may go back,
but not behind `now`. -/
theorem cell_run {calls : List (ℚ × Call I)} {now : ℚ} (hnow : ∀ c ∈ calls, c.1 ≤ now) {k : Cell I}
    {v : Redis.Stored ℚ Payload} (hlive : v.alive now = true) :
    (run sha256 stores calls).cell k = some v ↔
      ∃ before c after, calls = before ++ c :: after ∧ writes sha256 stores c k = some v
        ∧ ∀ d ∈ after, writes sha256 stores d k = none ∧ ¬ removes sha256 stores d k := by
  constructor
  · exact Redis.last_write cell_empty cell_step calls
  · rintro ⟨before, c, after, rfl, hw, hafter⟩
    refine Redis.read_of_write (fun s c => (changes_step s c).written) (cell_kept now) hw hlive ?_ hafter
    exact fun d hd => hnow d (List.mem_append_right _ (List.mem_cons_of_mem _ hd))

/-- A session can be read iff it is live. -/
theorem read_session {calls : List (ℚ × Call I)} {now : ℚ} (hnow : ∀ c ∈ calls, c.1 ≤ now) {i : I}
    {token : String} {payload : Payload} :
    (readToken stores i (sessionKey stores i (sha256 token).hex) (sha256 token).hex now
      (run sha256 stores calls)).1 = some payload ↔ Live sha256 stores calls i token now payload := by
  rw [readToken_eq_some]
  change (∃ v, (run sha256 stores calls).cell (sessionCell sha256 stores i token) = some v ∧ _) ↔ _
  constructor
  · rintro ⟨v, hv, hlive, rfl⟩
    obtain ⟨before, ⟨t, c⟩, after, hcalls, hw, hafter⟩ := (cell_run hnow hlive).mp hv
    obtain ⟨ttl, hopens, hexpires⟩ := writes_sessionCell.mp hw
    rw [Redis.Stored.alive, hexpires] at hlive
    refine ⟨before, t, c, after, ttl, hcalls, hopens, of_decide_eq_true hlive, ?_⟩
    exact fun d hd => untouched_sessionCell.mp (hafter d hd)
  · rintro ⟨before, t, c, after, ttl, hcalls, hopens, hage, hafter⟩
    have hlive : Redis.Stored.alive ⟨payload, some (t + (ttl : ℚ))⟩ now = true := decide_eq_true hage
    refine ⟨⟨payload, some (t + ttl)⟩, (cell_run hnow hlive).mpr ?_, hlive, rfl⟩
    refine ⟨before, (t, c), after, hcalls, writes_sessionCell.mpr ⟨ttl, hopens, rfl⟩, ?_⟩
    exact fun d hd => untouched_sessionCell.mpr (hafter d hd)

/-- What the caller shows is what the session is bound to. -/
def Payload.Fits (sha256 : String → Digest) (ip ua : Option String) : Payload → Prop
  | .one => True
  | .binding bound_ip bound_ua =>
      (bound_ip = "" ∨ bound_ip = ip.getD "" ∧ bound_ip.toList.all (·.toNat < 128) = true)
        ∧ (bound_ua = "" ∨ bound_ua = uaHash sha256 ua ∧ bound_ua.toList.all (·.toNat < 128) = true)

theorem compareDigest_eq_true {a b : String} :
    compareDigest a b = .ok true ↔ a = b ∧ a.toList.all (·.toNat < 128) = true := by
  rw [compareDigest]
  split
  · next hascii =>
      obtain ⟨ha, -⟩ := Bool.and_eq_true_iff.mp hascii
      simp [ha]
  · next hascii =>
      constructor
      · intro h
        cases h
      · rintro ⟨rfl, ha⟩
        simp [ha] at hascii

theorem requireSame_eq_true {bound got : String} {rest : Py Bool} :
    requireSame bound got rest = .ok true ↔
      (bound = "" ∨ bound = got ∧ bound.toList.all (·.toNat < 128) = true) ∧ rest = .ok true := by
  rw [requireSame, ← compareDigest_eq_true]
  split
  · next hbound => simp [hbound]
  · next hbound =>
      rw [or_iff_right hbound]
      cases compareDigest bound got with
      | error e => simp [bind, Except.bind]
      | ok same => cases same <;> simp [bind, Except.bind, pure, Except.pure]

omit [DecidableEq I] in
theorem checkBinding_eq_true {payload : Payload} {ip ua : Option String} :
    checkBinding sha256 payload ip ua = .ok true ↔ payload.Fits sha256 ip ua := by
  cases payload with
  | one => simp [checkBinding, Payload.Fits]
  | binding bound_ip bound_ua =>
      rw [checkBinding, requireSame_eq_true, requireSame_eq_true, Payload.Fits, and_iff_left rfl]

theorem validate_iff (calls : List (ℚ × Call I)) {now : ℚ} (hnow : ∀ c ∈ calls, c.1 ≤ now) (i : I)
    {token : String} (ht : token ≠ "") (ip ua : Option String) :
    (validateSession sha256 stores i token ip ua now (run sha256 stores calls)).1 = .ok true ↔
      ∃ payload, Live sha256 stores calls i token now payload ∧ payload.Fits sha256 ip ua := by
  rw [validateSession_eq ht]
  simp only [← read_session hnow, ← checkBinding_eq_true]
  cases (readToken stores i (sessionKey stores i (sha256 token).hex) (sha256 token).hex now
    (run sha256 stores calls)).1 with
  | none => simp
  | some payload => simp

theorem get_iff (calls : List (ℚ × Call I)) {now : ℚ} (hnow : ∀ c ∈ calls, c.1 ≤ now) (i : I)
    {token : String} (ht : token ≠ "") :
    (getSession sha256 stores i token now (run sha256 stores calls)).1 = true ↔
      ∃ payload, Live sha256 stores calls i token now payload := by
  rw [getSession, if_neg ht]
  simp only [← read_session hnow]
  exact Option.isSome_iff_exists

/-- The store takes a token at `now`, after the calls, iff it is a live session and the caller is the one
that it is bound to. -/
structure Authentic (sha256 : String → Digest) (stores : I → Store) (calls : List (ℚ × Call I))
    (now : ℚ) (i : I) (token : String) : Prop where
  validate : ∀ ip ua,
    (validateSession sha256 stores i token ip ua now (run sha256 stores calls)).1 = .ok true ↔
      ∃ payload, Live sha256 stores calls i token now payload ∧ payload.Fits sha256 ip ua
  get : (getSession sha256 stores i token now (run sha256 stores calls)).1 = true ↔
    ∃ payload, Live sha256 stores calls i token now payload

/-- **A session is accepted iff it is live**: it was handed out for the same consumer, not longer ago than
its time to live, and neither taken back nor replaced since, by whatever processes in whatever order. -/
theorem sessions_authentic (calls : List (ℚ × Call I)) {now : ℚ} (hnow : ∀ c ∈ calls, c.1 ≤ now) (i : I)
    {token : String} (ht : token ≠ "") : Authentic sha256 stores calls now i token :=
  ⟨validate_iff calls hnow i ht, get_iff calls hnow i ht⟩

/-- Two processes with Redis, and one without. -/
def processes (i : ℕ) : Store := ⟨.api, i ≠ 2⟩

def sha (s : String) : Digest :=
  BitVec.ofNat 256 ((Bitcoin.sha256 s.toUTF8.toList).foldl (fun n b => 256 * n + b.toNat) 0)

/-- A session that is checked in another process, and one that is taken back. -/
def visits : List (ℚ × Call ℕ) :=
  [(0, .create_session 0 "token" 28800 (some "10.0.0.1") none), (10, .set_session 2 "other" 28800),
    (20, .create_csrf_token 0 "form"), (30, .delete_session 2 "other")]

theorem sessions_authentic_visits : Authentic sha processes visits 40 1 "token" := by
  have hnow : ∀ c ∈ visits, c.1 ≤ 40 := by
    simp only [visits, List.forall_mem_cons]
    norm_num
  exact sessions_authentic visits hnow 1 (by decide)

/-! ## CSRF tokens -/

/-- The call hands out the token to check forms with. -/
def Call.Offers (sha256 : String → Digest) (stores : I → Store) (i : I) (token : String) :
    Call I → Prop
  | .create_csrf_token j token' =>
      (i = j ∨ (stores i).redis = true ∧ (stores j).redis = true)
        ∧ (sha256 token).hex = (sha256 token').hex
  | _ => False

/-- The call is a form with the token. -/
def Call.Presents (sha256 : String → Digest) (stores : I → Store) (i : I) (token : String) :
    Call I → Prop
  | .verify_csrf_token j token' =>
      blank token' = false ∧ (i = j ∨ (stores i).redis = true ∧ (stores j).redis = true)
        ∧ (sha256 token).hex = (sha256 token').hex
  | _ => False

theorem writes_csrfCell {i : I} {token : String} {t : ℚ} {c : Call I} {v : Redis.Stored ℚ Payload} :
    writes sha256 stores (t, c) (csrfCell sha256 stores i token) = some v ↔
      c.Offers sha256 stores i token ∧ ⟨.one, some (t + CSRF_TTL)⟩ = v := by
  cases c with
  | create_csrf_token j token' =>
      simp only [writes, Option.ite_none_right_eq_some, Option.some.injEq, csrfCell_eq, Call.Offers]
  | create_session j token' ttl ip ua =>
      simp [writes, Call.Offers, (sessionCell_ne_csrfCell _ _ _ _).symm]
  | set_session j token' ttl => simp [writes, Call.Offers, (sessionCell_ne_csrfCell _ _ _ _).symm]
  | _ => simp [writes, Call.Offers]

omit [DecidableEq I] in
theorem removes_csrfCell {i : I} {token : String} {t : ℚ} {c : Call I} :
    removes sha256 stores (t, c) (csrfCell sha256 stores i token) ↔
      c.Presents sha256 stores i token := by
  cases c with
  | delete_session j token' =>
      simp [removes, Call.Presents, (sessionCell_ne_csrfCell _ _ _ _).symm]
  | verify_csrf_token j token' => exact and_congr_right fun _ => csrfCell_eq
  | _ => exact Iff.rfl

theorem untouched_csrfCell {i : I} {token : String} {d : ℚ × Call I} :
    (writes sha256 stores d (csrfCell sha256 stores i token) = none
        ∧ ¬ removes sha256 stores d (csrfCell sha256 stores i token)) ↔
      ¬ d.2.Offers sha256 stores i token ∧ ¬ d.2.Presents sha256 stores i token := by
  obtain ⟨t, c⟩ := d
  rw [removes_csrfCell, Option.eq_none_iff_forall_ne_some]
  refine and_congr_left fun _ => ?_
  constructor
  · exact fun h hoffers => h _ (writes_csrfCell.mpr ⟨hoffers, rfl⟩)
  · exact fun h v hv => h (writes_csrfCell.mp hv).1

/-- A dict does not give the token at the very moment at which Redis still has it. -/
theorem verify_eq_true {i : I} {token : String} (hb : blank token = false) {now : ℚ} {s : State I} :
    (verifyCsrfToken sha256 stores i token now s).1 = true ↔
      ∃ v, s.cell (csrfCell sha256 stores i token) = some v ∧ v.alive now = true
        ∧ ((stores i).redis = false → v.expires ≠ some now) := by
  rw [verifyCsrfToken, hb, if_neg Bool.false_ne_true, csrfCell, cellOf]
  split
  · next hredis =>
      simp only [hredis, Bool.true_eq_false, false_implies, and_true, Option.isSome_iff_exists]
      constructor
      · rintro ⟨payload, h⟩
        obtain ⟨v, hv, hlive, -⟩ := Keyspace.stored_of_get h
        exact ⟨v, hv, hlive⟩
      · rintro ⟨v, hv, hlive⟩
        exact ⟨v.value, Keyspace.get_of_alive hv hlive⟩
  · next hredis =>
      rw [Bool.not_eq_true] at hredis
      simp only [hredis, true_implies, State.cell]
      cases (s.loc i).lookup (csrfKey (sha256 token).hex) with
      | none => simp
      | some entry =>
          simp only [Option.any_some, Option.map_some, Option.some.injEq, exists_eq_left',
            Redis.Stored.alive, Option.all_some, decide_eq_true_iff, ne_eq]
          exact lt_iff_le_and_ne.trans (and_congr_right fun _ => ne_comm)

/-- The store takes a form at `now`, after the calls, iff its token was handed out not longer than ten
minutes ago and nobody has shown it, or had it handed out again, since. -/
def OneForm (sha256 : String → Digest) (stores : I → Store) (calls : List (ℚ × Call I)) (now : ℚ) (i : I)
    (token : String) : Prop :=
  (verifyCsrfToken sha256 stores i token now (run sha256 stores calls)).1 = true ↔
    ∃ (before : List (ℚ × Call I)) (t : ℚ) (c : Call I) (after : List (ℚ × Call I)),
      calls = before ++ (t, c) :: after ∧ c.Offers sha256 stores i token
        ∧ now ≤ t + CSRF_TTL ∧ ((stores i).redis = false → now ≠ t + CSRF_TTL)
        ∧ ∀ d ∈ after, ¬ d.2.Offers sha256 stores i token ∧ ¬ d.2.Presents sha256 stores i token

/-- **A CSRF token is good for one form**, shown to any process that shares the store. -/
theorem csrf_one_form (calls : List (ℚ × Call I)) {now : ℚ} (hnow : ∀ c ∈ calls, c.1 ≤ now) (i : I)
    {token : String} (hb : blank token = false) : OneForm sha256 stores calls now i token := by
  unfold OneForm
  rw [verify_eq_true hb]
  constructor
  · rintro ⟨v, hv, hlive, hstrict⟩
    obtain ⟨before, ⟨t, c⟩, after, hcalls, hw, hafter⟩ := (cell_run hnow hlive).mp hv
    obtain ⟨hoffers, rfl⟩ := writes_csrfCell.mp hw
    refine ⟨before, t, c, after, hcalls, hoffers, of_decide_eq_true hlive, ?_, ?_⟩
    · exact fun hlocal hsame => hstrict hlocal (congrArg some hsame.symm)
    · exact fun d hd => untouched_csrfCell.mp (hafter d hd)
  · rintro ⟨before, t, c, after, hcalls, hoffers, hage, hstrict, hafter⟩
    have hlive : Redis.Stored.alive ⟨Payload.one, some (t + (CSRF_TTL : ℚ))⟩ now = true :=
      decide_eq_true hage
    refine ⟨⟨.one, some (t + CSRF_TTL)⟩, (cell_run hnow hlive).mpr ?_, hlive, ?_⟩
    · refine ⟨before, (t, c), after, hcalls, writes_csrfCell.mpr ⟨hoffers, rfl⟩, ?_⟩
      exact fun d hd => untouched_csrfCell.mpr (hafter d hd)
    · exact fun hlocal hsame => hstrict hlocal (Option.some.inj hsame).symm

theorem csrf_one_form_visits : OneForm sha processes visits 40 1 "form" := by
  have hnow : ∀ c ∈ visits, c.1 ≤ 40 := by
    simp only [visits, List.forall_mem_cons]
    norm_num
  exact csrf_one_form visits hnow 1 (by decide)

end Sthrip.Sessions
