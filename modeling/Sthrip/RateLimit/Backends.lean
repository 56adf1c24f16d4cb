import Mathlib.Algebra.Order.Group.Unbundled.Int
import Mathlib.Tactic.Linarith
import Sthrip.Services.RateLimiter

set_option autoImplicit false

/-! # Two backends of one limiter

What the map of a process holds says what Redis shows: for each key the same window, as long as this
window runs (`Shows`). Redis forgets a hash a second after its window has ended, and the map drops ended
windows in its sweep; neither matters, since a window that has ended counts for nothing.

Every check comes down to charging a window (`Window.charge`). The two backends ask their limits in
different orders, and come to the same answer, since a request is let through only when each of its
windows can be charged.
-/

namespace Sthrip

open Redis

namespace RateLimiter

/-! ## Windows that run -/

/-- The window has not ended. -/
def Window.running (now : ℚ) (w : Option Window) : Option Window := w.filter fun w => ¬w.reset_at < now

/-- A request of this cost on a window that runs, or on none: the window after it, unless the limit
is exceeded. -/
def Window.charge (limit window cost : ℤ) (now : ℚ) : Option Window → Option Window
  | none => some ⟨cost, now + window⟩
  | some w => if limit < w.count + cost then none else some ⟨w.count + cost, w.reset_at⟩

/-- The window of a hash that has not ended. -/
def RedisDb.window (db : RedisDb) (now : ℚ) (key : String) : Option Window :=
  match db.hget now key .count, db.hget now key .reset_at with
  | some count, some reset_at => if reset_at < now then none else some ⟨count, reset_at⟩
  | _, _ => none

/-- From the time on, Redis shows the windows of the map. -/
def Shows (db : RedisDb) (now : ℚ) (cache : String → Option Window) : Prop :=
  ∀ t, now ≤ t → ∀ key, db.window t key = Window.running t (cache key)

variable {db : RedisDb} {now t : ℚ} {cache : String → Option Window} {key : String} {w : Window}
  {limit window cost : ℤ}

theorem running_eq_some {o : Option Window} :
    Window.running now o = some w ↔ o = some w ∧ now ≤ w.reset_at := by
  rw [Window.running, Option.filter_eq_some_iff]
  simp

theorem running_some : Window.running now (some w) = if w.reset_at < now then none else some w := by
  rw [Window.running, Option.filter_some]
  by_cases h : w.reset_at < now
  · simp [h]
  · simp [h]

theorem Shows.start : Shows Keyspace.empty now fun _ => none := fun _ _ _ => rfl

theorem Shows.later (h : Shows db now cache) (ht : now ≤ t) : Shows db t cache :=
  fun t' ht' => h t' (ht.trans ht')

/-- The sweep drops windows that have ended. -/
theorem Shows.evict (h : Shows db now cache) : Shows db now (evictExpired now cache) := by
  intro t ht key
  rw [h t ht, evictExpired]
  cases hw : cache key with
  | none => rfl
  | some w =>
      rw [Option.filter_some]
      by_cases hend : w.reset_at < now
      · have hend' : w.reset_at < t := lt_of_lt_of_le hend ht
        simp [hend, hend', Window.running]
      · simp [hend]

/-! ## The script -/

theorem window_eq_some_hget (hw : db.window now key = some w) :
    db.hget now key .count = some w.count ∧ db.hget now key .reset_at = some w.reset_at ∧
      now ≤ w.reset_at := by
  unfold RedisDb.window at hw
  split at hw
  · next count reset_at hcount hreset =>
      split at hw
      · cases hw
      · next hend =>
          obtain rfl := Option.some.inj hw
          exact ⟨hcount, hreset, not_lt.mp hend⟩
  · cases hw

theorem window_congr {db' : RedisDb} (h : db'.get t key = db.get t key) :
    db'.window t key = db.window t key := by
  unfold RedisDb.window Keyspace.hget Keyspace.hash
  rw [h]

/-- The hash of a new window. -/
def newHash (cost : ℤ) (reset_at : ℚ) : Hash Field Number
  | .count => some cost
  | .reset_at => some reset_at

theorem update_update_eq_newHash (h : Hash Field Number) (cost : ℤ) (reset_at : ℚ) :
    Function.update (Function.update h Field.count (some cost)) Field.reset_at (some reset_at) =
      newHash cost reset_at := by
  funext f
  cases f with
  | count => rfl
  | reset_at => rfl

/-- What the script leaves when it begins a window. -/
def restarted (key : String) (window cost : ℤ) (now : ℚ) (db : RedisDb) : RedisDb :=
  ((db.hset now key .count cost).hset now key .reset_at (now + window)).expireAt now key
    (now + (window + 1))

theorem get_restarted_self : (restarted key window cost now db).get t key =
    if t ≤ now + (window + 1) then some (newHash cost (now + window)) else none := by
  unfold restarted
  rw [Keyspace.get_expireAt_self, Keyspace.get_hset_self, Keyspace.hash_hset_self,
    update_update_eq_newHash]

theorem get_restarted_ne {k : String} (hk : k ≠ key) :
    (restarted key window cost now db).get t k = db.get t k := by
  rw [restarted, Keyspace.get_expireAt_ne hk, Keyspace.get_hset_ne hk, Keyspace.get_hset_ne hk]

/-- A window in Redis is the hash of a key that lives. -/
theorem exists_get_of_window (hw : db.window now key = some w) : ∃ h, db.get now key = some h := by
  cases hg : db.get now key with
  | none =>
      have hcount := (window_eq_some_hget hw).1
      rw [Keyspace.hget_of_get_none hg] at hcount
      cases hcount
  | some h => exact ⟨h, rfl⟩

theorem window_of_get_none (hg : db.get t key = none) : db.window t key = none := by
  rw [RedisDb.window, Keyspace.hget_of_get_none hg]

theorem get_counted (hw : db.window now key = some w) :
    (db.hincrby now key .count cost).get t key = (db.get t key).map fun _ =>
      Function.update (db.hash now key) Field.count (some (w.count + cost)) := by
  obtain ⟨h, hget⟩ := exists_get_of_window hw
  rw [Keyspace.hincrby, (window_eq_some_hget hw).1, Option.getD_some]
  exact Keyspace.get_put_of_get hget

theorem update_hash_count (hw : db.window now key = some w) :
    Function.update (db.hash now key) Field.count (some (w.count + cost)) =
      newHash (w.count + cost) w.reset_at := by
  funext f
  cases f with
  | count => rfl
  | reset_at => exact (window_eq_some_hget hw).2.1

/-- The script on a window that runs. -/
theorem rateLimitLua_some (hw : db.window now key = some w) :
    rateLimitLua key limit window cost now db =
      if limit < w.count + cost then ((-1, w.reset_at), db)
      else ((w.count + cost, w.reset_at), db.hincrby now key .count cost) := by
  obtain ⟨hcount, hreset, hend⟩ := window_eq_some_hget hw
  rw [rateLimitLua, hcount, hreset]
  simp only [if_neg (not_lt.mpr hend)]

/-- The script where no window runs. -/
theorem rateLimitLua_none (hw : db.window now key = none) :
    rateLimitLua key limit window cost now db =
      ((cost, now + window), restarted key window cost now db) := by
  unfold RedisDb.window at hw
  unfold rateLimitLua
  split
  · next count reset_at hcount hreset =>
      rw [hcount, hreset] at hw
      simp only [ite_eq_left_iff, reduceCtorEq, imp_false, not_not] at hw
      rw [if_pos hw]
      rfl
  · rfl

theorem Shows.count (h : Shows db now cache) (hw : db.window now key = some w) :
    Shows (db.hincrby now key .count cost) now
      (Function.update cache key (some ⟨w.count + cost, w.reset_at⟩)) := by
  intro t ht k
  by_cases hk : k = key
  · subst hk
    rw [Function.update_self]
    have hcache : cache k = some w := (running_eq_some.mp ((h now le_rfl k).symm.trans hw)).1
    have hold : db.window t k = Window.running t (some w) := hcache ▸ h t ht k
    have hput : (db.hincrby now k .count cost).get t k = _ := get_counted hw
    cases hlive : db.get t k with
    | none =>
        -- the key is gone, so its window has ended
        rw [hlive] at hput
        rw [window_of_get_none hlive, running_some] at hold
        rw [window_of_get_none hput, running_some]
        by_cases hend : w.reset_at < t
        · simp [hend]
        · simp [hend] at hold
    | some h₁ =>
        rw [hlive, Option.map_some, update_hash_count hw] at hput
        rw [RedisDb.window, Keyspace.hget, Keyspace.hget, Keyspace.hash_of_get hput, running_some]
        rfl
  · rw [Function.update_of_ne hk, ← h t ht]
    exact window_congr (Keyspace.get_hincrby_ne hk)

/-! ## What both backends hold -/

/-- A hash of the limiter has both of its fields. -/
def Whole (db : RedisDb) : Prop :=
  ∀ now key h, db.get now key = some h → ∃ w : Window, h = newHash w.count w.reset_at

/-- Redis and the map hold the same, and something is counted in every window. -/
structure Agrees (db : RedisDb) (now : ℚ) (cache : String → Option Window) : Prop where
  shows : Shows db now cache
  whole : Whole db
  counted : ∀ key w, cache key = some w → 1 ≤ w.count

theorem Whole.count (h : Whole db) (hw : db.window now key = some w) :
    Whole (db.hincrby now key .count cost) := by
  intro t k h₀ hget
  by_cases hk : k = key
  · subst hk
    rw [get_counted hw] at hget
    obtain ⟨h₁, -, rfl⟩ := Option.map_eq_some_iff.mp hget
    exact ⟨⟨w.count + cost, w.reset_at⟩, update_hash_count hw⟩
  · rw [Keyspace.get_hincrby_ne hk] at hget
    exact h t k h₀ hget

theorem Agrees.start : Agrees Keyspace.empty now fun _ => none where
  shows := Shows.start
  whole := by
    intro t key h hget
    cases hget
  counted := by
    intro key w hw
    cases hw

theorem Agrees.later (h : Agrees db now cache) (ht : now ≤ t) : Agrees db t cache :=
  ⟨h.shows.later ht, h.whole, h.counted⟩

theorem Agrees.window_eq (h : Agrees db now cache) (key : String) :
    db.window now key = Window.running now (cache key) := h.shows now le_rfl key

theorem counted_update {w' : Window} (h : ∀ key w, cache key = some w → 1 ≤ w.count)
    (hw' : 1 ≤ w'.count) (key : String) :
    ∀ k w, Function.update cache key (some w') k = some w → 1 ≤ w.count := by
  intro k w hk
  by_cases he : k = key
  · subst he
    rw [Function.update_self, Option.some.injEq] at hk
    exact hk ▸ hw'
  · rw [Function.update_of_ne he] at hk
    exact h k w hk

/-- A hash that lives at least as long as its window, in place of what the key had. -/
theorem Agrees.replace (h : Agrees db now cache) {db' : RedisDb} {expires : ℚ}
    (hself : ∀ t, db'.get t key = if t ≤ expires then some (newHash w.count w.reset_at) else none)
    (hne : ∀ t k, k ≠ key → db'.get t k = db.get t k) (hw : w.reset_at ≤ expires)
    (hcount : 1 ≤ w.count) : Agrees db' now (Function.update cache key (some w)) where
  shows := by
    intro t ht k
    by_cases hk : k = key
    · subst hk
      have hget := hself t
      rw [Function.update_self, running_some, RedisDb.window]
      by_cases hlive : t ≤ expires
      · rw [if_pos hlive] at hget
        rw [Keyspace.hget, Keyspace.hget, Keyspace.hash_of_get hget]
        rfl
      · rw [if_neg hlive] at hget
        rw [Keyspace.hget_of_get_none hget]
        have hend : w.reset_at < t := lt_of_le_of_lt hw (not_le.mp hlive)
        simp [hend]
    · rw [Function.update_of_ne hk, ← h.shows t ht]
      exact window_congr (hne t k hk)
  whole := by
    intro t k h₀ hget
    by_cases hk : k = key
    · subst hk
      rw [hself] at hget
      split at hget
      · exact ⟨w, (Option.some.inj hget).symm⟩
      · cases hget
    · rw [hne t k hk] at hget
      exact h.whole t k h₀ hget
  counted := counted_update h.counted hcount key

/-- The script refuses what cannot be charged. -/
theorem Agrees.refuse (h : Agrees db now cache)
    (hc : Window.charge limit window cost now (Window.running now (cache key)) = none) :
    ∃ reset_at, rateLimitLua key limit window cost now db = ((-1, reset_at), db) := by
  rw [← h.window_eq] at hc
  cases hw : db.window now key with
  | none =>
      rw [hw] at hc
      cases hc
  | some w =>
      rw [hw, Window.charge] at hc
      split at hc
      · next hover =>
          refine ⟨w.reset_at, ?_⟩
          rw [rateLimitLua_some hw, if_pos hover]
      · cases hc

/-- The script charges what can be charged. -/
theorem Agrees.charge (h : Agrees db now cache) (hcost : 1 ≤ cost) {w' : Window}
    (hc : Window.charge limit window cost now (Window.running now (cache key)) = some w') :
    ∃ db', rateLimitLua key limit window cost now db = ((w'.count, w'.reset_at), db') ∧
      Agrees db' now (Function.update cache key (some w')) ∧ 1 ≤ w'.count := by
  rw [← h.window_eq] at hc
  cases hw : db.window now key with
  | none =>
      rw [hw] at hc
      obtain rfl := Option.some.inj hc
      refine ⟨_, rateLimitLua_none hw, ?_, hcost⟩
      -- the key outlives its window by a second
      have hlive : now + window ≤ now + (window + 1) := by linarith
      exact h.replace (fun _ => get_restarted_self) (fun _ _ => get_restarted_ne) hlive hcost
  | some w =>
      rw [hw, Window.charge] at hc
      split at hc
      · cases hc
      · next hroom =>
          obtain rfl := Option.some.inj hc
          have hcache := (running_eq_some.mp ((h.window_eq key).symm.trans hw)).1
          have hcount : 1 ≤ w.count + cost := by
            have := h.counted key w hcache
            omega
          refine ⟨_, by rw [rateLimitLua_some hw, if_neg hroom], ⟨h.shows.count hw, h.whole.count hw, ?_⟩,
            hcount⟩
          exact counted_update h.counted hcount key

/-! ## Charges -/

/-- What was charged to a window, and under which limit; `opens` when the window began with it. -/
structure Charge where
  key : String
  cost : ℤ
  limit : ℤ
  opens : Bool
  deriving DecidableEq

/-- The charges, one after another. -/
inductive Charged (now : ℚ) :
    (String → Option Window) → List Charge → (String → Option Window) → Prop
  | nil (cache : String → Option Window) : Charged now cache [] cache
  | cons {cache cache' : String → Option Window} {charges : List Charge} {key : String}
      {limit window cost : ℤ} {w' : Window}
      (charge : Window.charge limit window cost now (Window.running now (cache key)) = some w')
      (within : cost ≤ limit)
      (rest : Charged now (Function.update cache key (some w')) charges cache') :
      Charged now cache
        (⟨key, cost, limit, (Window.running now (cache key)).isNone⟩ :: charges) cache'

/-- Both backends let a request through and charge it, or both refuse it and charge nothing. -/
inductive Same (now : ℚ) (cache : String → Option Window) (charges : List Charge)
    (redis : Verdict × RedisDb) (map : Verdict × LocalState) : Prop
  | allow (hredis : redis.1.isAllowed = true) (hmap : map.1.isAllowed = true)
      {cache₀ : String → Option Window}
      (hsame : ∀ key, Window.running now (cache₀ key) = Window.running now (cache key))
      (hcharged : Charged now cache₀ charges map.2.cache) (hagrees : Agrees redis.2 now map.2.cache)
  | refuse (hredis : redis.1.isAllowed = false) (hmap : map.1.isAllowed = false)
      (hsame : ∀ key, Window.running now (map.2.cache key) = Window.running now (cache key))
      (hagrees : Agrees redis.2 now map.2.cache)

/-! ## Agents -/

theorem running_evictIfDue (st : LocalState) (key : String) :
    Window.running now ((evictIfDue now st).cache key) = Window.running now (st.cache key) := by
  unfold evictIfDue
  split
  · show Window.running now (evictExpired now st.cache key) = _
    rw [evictExpired, Window.running, Window.running, Option.filter_filter]
    simp
  · rfl

theorem Agrees.evictIfDue {st : LocalState} (h : Agrees db now st.cache) :
    Agrees db now (evictIfDue now st).cache := by
  unfold RateLimiter.evictIfDue
  split
  · refine ⟨h.shows.evict, h.whole, fun key w hw => ?_⟩
    exact h.counted key w (Option.filter_eq_some_iff.mp hw).1
  · exact h

/-- The map where no window runs. -/
theorem checkLocal_none {st : LocalState}
    (hw : Window.running now ((RateLimiter.evictIfDue now st).cache key) = none) :
    checkLocal key limit cost now st =
      (.allowed (max 0 (limit - cost)) (now + (60 : ℤ)) limit,
        ⟨Function.update (RateLimiter.evictIfDue now st).cache key (some ⟨cost, now + (60 : ℤ)⟩),
          (RateLimiter.evictIfDue now st).last_eviction⟩) := by
  unfold checkLocal
  cases hc : (RateLimiter.evictIfDue now st).cache key with
  | none => simp only [hc]
  | some w =>
      have hend : w.reset_at < now := by
        rw [hc, running_some] at hw
        simpa using hw
      simp only [hc, if_pos hend]

/-- The map on a window that runs. -/
theorem checkLocal_some {st : LocalState}
    (hw : Window.running now ((RateLimiter.evictIfDue now st).cache key) = some w) :
    checkLocal key limit cost now st =
      if limit < w.count + cost then (.exceeded limit w.reset_at, RateLimiter.evictIfDue now st)
      else
        (.allowed (max 0 (limit - (w.count + cost))) w.reset_at limit,
          ⟨Function.update (RateLimiter.evictIfDue now st).cache key
              (some ⟨w.count + cost, w.reset_at⟩),
            (RateLimiter.evictIfDue now st).last_eviction⟩) := by
  obtain ⟨hc, hend⟩ := running_eq_some.mp hw
  unfold checkLocal
  simp only [hc, if_neg (not_lt.mpr hend)]

theorem checkRedis_refuse {db' : RedisDb} {reset_at : ℚ}
    (hlua : rateLimitLua key limit 60 cost now db = ((-1, reset_at), db')) :
    checkRedis key limit cost now db = (.exceeded limit reset_at, db') := by
  unfold checkRedis
  simp only [hlua, if_pos]

theorem checkRedis_charge {db' : RedisDb} {w' : Window}
    (hlua : rateLimitLua key limit 60 cost now db = ((w'.count, w'.reset_at), db'))
    (hcount : 1 ≤ w'.count) :
    checkRedis key limit cost now db =
      (.allowed (max 0 (limit - w'.count)) w'.reset_at limit, db') := by
  have hne : w'.count ≠ -1 := by omega
  unfold checkRedis
  simp only [hlua, if_neg hne]

/-- `check_rate_limit` on both backends. -/
theorem check_agrees {st : LocalState} (h : Agrees db now st.cache) (hcost : 1 ≤ cost)
    (hlimit : cost ≤ limit) :
    Same now st.cache
      [⟨key, cost, limit, (Window.running now (st.cache key)).isNone⟩]
      (checkRedis key limit cost now db) (checkLocal key limit cost now st) := by
  have h' : Agrees db now (RateLimiter.evictIfDue now st).cache := h.evictIfDue
  rw [← running_evictIfDue st key]
  cases hw : Window.running now ((RateLimiter.evictIfDue now st).cache key) with
  | none =>
      have hc : Window.charge limit 60 cost now
          (Window.running now ((RateLimiter.evictIfDue now st).cache key)) =
            some ⟨cost, now + (60 : ℤ)⟩ := by
        rw [hw]
        rfl
      obtain ⟨db', hlua, hagrees, hcount⟩ := h'.charge hcost hc
      rw [checkRedis_charge hlua hcount, checkLocal_none hw]
      have hcharged := Charged.cons hc hlimit (.nil _)
      rw [hw] at hcharged
      exact .allow rfl rfl (running_evictIfDue st) hcharged hagrees
  | some w =>
      rw [checkLocal_some hw]
      have hc : Window.charge limit 60 cost now
          (Window.running now ((RateLimiter.evictIfDue now st).cache key)) =
            if limit < w.count + cost then none else some ⟨w.count + cost, w.reset_at⟩ := by
        rw [hw]
        rfl
      by_cases hover : limit < w.count + cost
      · rw [if_pos hover] at hc
        obtain ⟨reset_at, hlua⟩ := h'.refuse hc
        rw [checkRedis_refuse hlua, if_pos hover]
        exact .refuse rfl rfl (running_evictIfDue st) h'
      · rw [if_neg hover] at hc
        obtain ⟨db', hlua, hagrees, hcount⟩ := h'.charge hcost hc
        rw [checkRedis_charge hlua hcount, if_neg hover]
        have hcharged := Charged.cons hc hlimit (.nil _)
        rw [hw] at hcharged
        exact .allow rfl rfl (running_evictIfDue st) hcharged hagrees

/-! ## Addresses -/

/-- What Redis is read to count, whatever is read where nothing is. -/
theorem Agrees.peek (h : Agrees db now cache) (key : String) (reset_at : ℚ) :
    (if (db.hget now key .reset_at).getD reset_at < now then 0
      else (db.hget now key .count).getD 0) =
      (Window.running now (cache key)).elim 0 Window.count := by
  rw [← h.window_eq]
  unfold RedisDb.window
  cases hget : db.get now key with
  | none =>
      rw [Keyspace.hget_of_get_none hget, Keyspace.hget_of_get_none hget]
      simp
  | some h₀ =>
      obtain ⟨w, rfl⟩ := h.whole now key h₀ hget
      rw [Keyspace.hget, Keyspace.hget, Keyspace.hash_of_get hget]
      show (if w.reset_at < now then 0 else w.count) =
        Option.elim (if w.reset_at < now then none else some ⟨w.count, w.reset_at⟩) 0 Window.count
      split
      · rfl
      · rfl

/-- A limit of at least one is exceeded by what is counted already. -/
theorem charge_one_eq_none (now : ℚ) (window : ℤ) (hlimit : 1 ≤ limit) {o : Option Window}
    (hover : limit < o.elim 0 Window.count + 1) : Window.charge limit window 1 now o = none := by
  cases o with
  | none =>
      have hlt : limit < 0 + 1 := hover
      omega
  | some w => exact if_pos hover

theorem readEntry_eq (key : String) (window : ℤ) :
    readEntry cache key window now = (Window.running now (cache key)).getD ⟨0, now + window⟩ := by
  unfold readEntry
  cases cache key with
  | none => rfl
  | some w =>
      rw [running_some]
      by_cases hend : w.reset_at < now
      · simp [hend]
      · simp [hend]

theorem charge_one_eq_some (now : ℚ) (window : ℤ) {o : Option Window}
    (hroom : ¬limit < o.elim 0 Window.count + 1) :
    Window.charge limit window 1 now o = some ⟨(o.getD ⟨0, now + window⟩).count + 1,
      (o.getD ⟨0, now + window⟩).reset_at⟩ := by
  cases o with
  | none => rfl
  | some w => exact if_neg hroom

theorem count_getD (o : Option Window) (reset_at : ℚ) :
    (o.getD ⟨0, reset_at⟩).count = o.elim 0 Window.count := by
  cases o with
  | none => rfl
  | some w => rfl

/-- `_peek_ip_limit` on both backends. -/
theorem peekIp_agrees {st : LocalState} {ip_key global_key : String} {per_ip_limit global_limit : ℤ}
    (h : Agrees db now st.cache) (hglobal : 1 ≤ global_limit) :
    Same now st.cache [] (peekIpRedis ip_key global_key per_ip_limit global_limit now db, db)
      (peekIpLocal ip_key global_key per_ip_limit global_limit now st, st) := by
  have hrun : ∀ key, (st.cache key).filter (fun entry => now ≤ entry.reset_at) =
      Window.running now (st.cache key) := by
    intro key
    simp only [Window.running, not_lt]
  have hpeek : ∀ key, (if peekReset db now key < now then 0 else peekCount db now key) =
      (Window.running now (st.cache key)).elim 0 Window.count := fun key => h.peek key now
  unfold peekIpRedis peekIpLocal
  simp only [hpeek, hrun]
  by_cases hip : per_ip_limit ≤ (Window.running now (st.cache ip_key)).elim 0 Window.count
  · rw [if_pos hip, if_pos hip]
    exact .refuse rfl rfl (fun _ => rfl) h
  · rw [if_neg hip, if_neg hip]
    cases Window.running now (st.cache global_key) with
    | none =>
        have hfree : ¬global_limit ≤ 0 := by omega
        simp only [Option.elim_none, hfree, if_false]
        exact .allow rfl rfl (fun _ => rfl) (.nil st.cache) h
    | some w =>
        by_cases hfull : global_limit ≤ w.count
        · simp only [Option.elim_some, hfull, if_true]
          exact .refuse rfl rfl (fun _ => rfl) h
        · simp only [Option.elim_some, hfull, if_false]
          exact .allow rfl rfl (fun _ => rfl) (.nil st.cache) h

theorem checkIpRedis_full {ip_key global_key : String} {per_ip_limit global_limit : ℤ}
    (hfull : now ≤ peekReset db now global_key ∧ global_limit < peekCount db now global_key + 1) :
    checkIpRedis ip_key global_key per_ip_limit global_limit window now db =
      (.exceeded global_limit (peekReset db now global_key), db) := if_pos hfull

theorem checkIpRedis_refuse {ip_key global_key : String} {per_ip_limit global_limit : ℤ}
    {db' : RedisDb} {reset_at : ℚ}
    (hroom : ¬(now ≤ peekReset db now global_key ∧
      global_limit < peekCount db now global_key + 1))
    (hip : rateLimitLua ip_key per_ip_limit window 1 now db = ((-1, reset_at), db')) :
    checkIpRedis ip_key global_key per_ip_limit global_limit window now db =
      (.exceeded per_ip_limit reset_at, db') := by
  unfold checkIpRedis
  simp only [if_neg hroom, hip, if_pos]

theorem checkIpRedis_charge {ip_key global_key : String} {per_ip_limit global_limit : ℤ}
    {db₁ db₂ : RedisDb} {w₁ w₂ : Window}
    (hroom : ¬(now ≤ peekReset db now global_key ∧
      global_limit < peekCount db now global_key + 1))
    (hip : rateLimitLua ip_key per_ip_limit window 1 now db = ((w₁.count, w₁.reset_at), db₁))
    (h₁ : 1 ≤ w₁.count)
    (hg : rateLimitLua global_key global_limit window 1 now db₁ = ((w₂.count, w₂.reset_at), db₂))
    (h₂ : 1 ≤ w₂.count) :
    checkIpRedis ip_key global_key per_ip_limit global_limit window now db =
      (.allowedIp (per_ip_limit - w₁.count) (global_limit - w₂.count), db₂) := by
  have hne₁ : w₁.count ≠ -1 := by omega
  have hne₂ : w₂.count ≠ -1 := by omega
  unfold checkIpRedis
  simp only [if_neg hroom, hip, if_neg hne₁, hg, if_neg hne₂]

/-- `_check_ip_redis` and `_check_ip_local`. -/
theorem checkIp_agrees {st : LocalState} {ip_key global_key : String}
    {per_ip_limit global_limit : ℤ} (h : Agrees db now st.cache) (hkeys : ip_key ≠ global_key)
    (hip : 1 ≤ per_ip_limit) (hglobal : 1 ≤ global_limit) :
    Same now st.cache
      [⟨ip_key, 1, per_ip_limit, (Window.running now (st.cache ip_key)).isNone⟩,
        ⟨global_key, 1, global_limit, (Window.running now (st.cache global_key)).isNone⟩]
      (checkIpRedis ip_key global_key per_ip_limit global_limit window now db)
      (checkIpLocal ip_key global_key per_ip_limit global_limit window now st) := by
  -- Redis asks the global limit first, the map last
  have hpeek : (now ≤ peekReset db now global_key ∧
      global_limit < peekCount db now global_key + 1) ↔
        global_limit < (Window.running now (st.cache global_key)).elim 0 Window.count + 1 := by
    rw [← h.peek global_key now]
    unfold peekReset peekCount
    split
    · next hend =>
        constructor
        · intro hc
          exact absurd hc.1 (not_le.mpr hend)
        · intro hc
          omega
    · next hend => exact and_iff_right (not_lt.mp hend)
  unfold checkIpLocal
  simp only [readEntry_eq, count_getD]
  by_cases hover : per_ip_limit < (Window.running now (st.cache ip_key)).elim 0 Window.count + 1
  · rw [if_pos hover]
    by_cases hfull : now ≤ peekReset db now global_key ∧
        global_limit < peekCount db now global_key + 1
    · rw [checkIpRedis_full hfull]
      exact .refuse rfl rfl (fun _ => rfl) h
    · obtain ⟨reset_at, hlua⟩ := h.refuse (charge_one_eq_none now window hip hover)
      rw [checkIpRedis_refuse hfull hlua]
      exact .refuse rfl rfl (fun _ => rfl) h
  · rw [if_neg hover]
    by_cases hfull : global_limit <
        (Window.running now (st.cache global_key)).elim 0 Window.count + 1
    · rw [if_pos hfull, checkIpRedis_full (hpeek.mpr hfull)]
      exact .refuse rfl rfl (fun _ => rfl) h
    · rw [if_neg hfull]
      have hc₁ := charge_one_eq_some now window hover
      have hc₂ := charge_one_eq_some now window hfull
      obtain ⟨db₁, hlua₁, h₁, hcount₁⟩ := h.charge le_rfl hc₁
      rw [← Function.update_of_ne (Ne.symm hkeys) _ st.cache] at hc₂
      obtain ⟨db₂, hlua₂, h₂, hcount₂⟩ := h₁.charge le_rfl hc₂
      rw [checkIpRedis_charge (mt hpeek.mp hfull) hlua₁ hcount₁ hlua₂ hcount₂]
      have hcharged := Charged.cons hc₁ hip (.cons hc₂ hglobal (.nil _))
      rw [Function.update_of_ne (Ne.symm hkeys)] at hcharged h₂
      simp only [count_getD] at hcharged h₂
      exact .allow rfl rfl (fun _ => rfl) hcharged h₂

end RateLimiter

end Sthrip
