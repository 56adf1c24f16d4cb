import Sthrip.RateLimit.Backends

set_option autoImplicit false

/-! # Failed authentications

An address is blocked while a window of its failures runs that has reached the limit. A window opens
with the first failure that no other window counts, and runs for the length this failure asks for
(`Failure.blocked`).

The map of a process blocks so. Redis does as long as no failure meets a hash that has outlived its
window, or leaves a hash that its window outlives (`timely`): such a failure counts for a window that
has ended, since the end of a window is written only once, and it keeps the hash for longer.
-/

namespace Sthrip

open Redis

namespace RateLimiter

/-- A failure that was recorded, and the length of the window it asked for. -/
structure Failure where
  time : ℚ
  window : ℤ

/-- The failures of the last window. -/
def Failure.last (failures : List Failure) : List Failure :=
  failures.foldl
    (fun current f =>
      match current with
      | [] => [f]
      | first :: rest => if f.time ≤ first.time + first.window then first :: (rest ++ [f]) else [f]) []

/-- The last window runs, and has reached the limit. -/
def Failure.blocked (limit : ℤ) (now : ℚ) (failures : List Failure) : Bool :=
  match Failure.last failures with
  | [] => false
  | first :: rest => now ≤ first.time + first.window ∧ limit ≤ (first :: rest).length

/-- `check_failed_auth` and `record_failed_auth`, with their arguments. -/
inductive Call where
  | check (ip : String) (limit window : ℤ)
  | record (ip : String) (window : ℤ)

/-- The failures of each address. -/
abbrev Failures := String → List Failure

def Failures.record (past : Failures) (ip : String) (f : Failure) : Failures :=
  Function.update past ip (past ip ++ [f])

/-- Whether each check blocks, with Redis. -/
def redisBlocks : RedisDb → List (ℚ × Call) → List Bool
  | _, [] => []
  | db, (now, .check ip limit window) :: rest =>
      checkFailedAuthRedis ip limit window now db :: redisBlocks db rest
  | db, (now, .record ip window) :: rest => redisBlocks (recordFailedAuthRedis ip window now db) rest

/-- Whether each check blocks, with the map. -/
def localBlocks : LocalState → List (ℚ × Call) → List Bool
  | _, [] => []
  | st, (now, .check ip limit _) :: rest =>
      checkFailedAuthLocal ip limit now st :: localBlocks st rest
  | st, (now, .record ip window) :: rest => localBlocks (recordFailedAuthLocal ip window now st) rest

/-- Whether each check ought to block. -/
def blocks : Failures → List (ℚ × Call) → List Bool
  | _, [] => []
  | past, (now, .check ip limit _) :: rest => Failure.blocked limit now (past ip) :: blocks past rest
  | past, (now, .record ip window) :: rest => blocks (past.record ip ⟨now, window⟩) rest

/-- The hash of the address, if there is one, has a window that runs, and that the hash outlives. -/
def timely (db : RedisDb) (now : ℚ) : Call → Bool
  | .check _ limit _ => 1 ≤ limit
  | .record ip window =>
      (db.hget now (failedAuthKey ip) .reset_at).all fun reset_at =>
        now ≤ reset_at ∧ reset_at ≤ now + (window + 60)

/-- Every call is timely. -/
def timelyRun : RedisDb → List (ℚ × Call) → Bool
  | _, [] => true
  | db, (now, .check ip limit window) :: rest =>
      timely db now (.check ip limit window) && timelyRun db rest
  | db, (now, .record ip window) :: rest =>
      timely db now (.record ip window) && timelyRun (recordFailedAuthRedis ip window now db) rest

theorem failedAuthKey_inj {a b : String} (h : failedAuthKey a = failedAuthKey b) : a = b := by
  unfold failedAuthKey at h
  exact (String.append_right_inj _).mp h

/-! ## One call -/

variable {db : RedisDb} {now : ℚ} {cache : String → Option Window} {ip : String}
  {limit window : ℤ} {w : Window}

theorem checkFailedAuthRedis_eq (h : Agrees db now cache) :
    checkFailedAuthRedis ip limit window now db = decide
      (limit ≤ (Window.running now (cache (failedAuthKey ip))).elim 0 Window.count) := by
  rw [← h.peek (failedAuthKey ip) (now + window)]
  rfl

theorem checkFailedAuthLocal_eq {st : LocalState} (hlimit : 1 ≤ limit) :
    checkFailedAuthLocal ip limit now st = decide
      (limit ≤ (Window.running now (st.cache (failedAuthKey ip))).elim 0 Window.count) := by
  unfold checkFailedAuthLocal
  cases st.cache (failedAuthKey ip) with
  | none =>
      have hfree : ¬limit ≤ 0 := by omega
      exact (decide_eq_false hfree).symm
  | some w =>
      rw [running_some]
      by_cases hend : w.reset_at < now
      · have hfree : ¬limit ≤ 0 := by omega
        simp [hend, hfree]
      · simp [hend, not_lt.mp hend]

/-- A failure counts in the window that runs, or opens one. -/
def Window.failed (now : ℚ) (window : ℤ) (w : Option Window) : Window :=
  w.elim ⟨1, now + window⟩ fun w => ⟨w.count + 1, w.reset_at⟩

theorem recordFailedAuthLocal_cache (st : LocalState) :
    (recordFailedAuthLocal ip window now st).cache =
      Function.update st.cache (failedAuthKey ip)
        (some (Window.failed now window (Window.running now (st.cache (failedAuthKey ip))))) := by
  cases hc : st.cache (failedAuthKey ip) with
  | none => simp [recordFailedAuthLocal, hc, Window.failed, Window.running]
  | some w =>
      rw [running_some]
      by_cases hend : w.reset_at < now
      · simp [recordFailedAuthLocal, hc, hend, not_le.mpr hend, Window.failed]
      · simp [recordFailedAuthLocal, hc, hend, not_lt.mp hend, Window.failed]

theorem get_recordFailedAuth_ne (t : ℚ) (k : String) (hk : k ≠ failedAuthKey ip) :
    (recordFailedAuthRedis ip window now db).get t k = db.get t k := by
  unfold recordFailedAuthRedis
  rw [Keyspace.get_expireAt_ne hk, Keyspace.get_hsetnx_ne hk, Keyspace.get_hincrby_ne hk]

/-- The first failure writes the end of its window. -/
theorem get_recordFailedAuth_none (hget : db.get now (failedAuthKey ip) = none) (t : ℚ) :
    (recordFailedAuthRedis ip window now db).get t (failedAuthKey ip) =
      if t ≤ now + (window + 60) then some (newHash 1 (now + window)) else none := by
  have hhash : (db.hincrby now (failedAuthKey ip) .count 1).hash now (failedAuthKey ip) =
      Function.update (db.hash now (failedAuthKey ip)) Field.count (some 1) := by
    rw [Keyspace.hincrby, Keyspace.hash_hset_self, Keyspace.hget_of_get_none hget]
    rfl
  have hunset : ¬((db.hincrby now (failedAuthKey ip) .count 1).hget now (failedAuthKey ip)
      .reset_at).isSome = true := by
    rw [Keyspace.hget, hhash, Keyspace.hash, hget]
    exact Bool.false_ne_true
  unfold recordFailedAuthRedis
  rw [Keyspace.get_expireAt_self, Keyspace.hsetnx, if_neg hunset, Keyspace.get_hset_self,
    hhash, update_update_eq_newHash]

/-- A further failure leaves the end as it is. -/
theorem get_recordFailedAuth_some
    (hget : db.get now (failedAuthKey ip) = some (newHash w.count w.reset_at)) (t : ℚ) :
    (recordFailedAuthRedis ip window now db).get t (failedAuthKey ip) =
      if t ≤ now + (window + 60) then some (newHash (w.count + 1) w.reset_at) else none := by
  have hcount : (db.hincrby now (failedAuthKey ip) .count 1).get now (failedAuthKey ip) =
      some (newHash (w.count + 1) w.reset_at) := by
    rw [Keyspace.hincrby, Keyspace.get_hset_self, Keyspace.hget, Keyspace.hash_of_get hget]
    congr 1
    funext f
    cases f with
    | count => rfl
    | reset_at => rfl
  have hset : ((db.hincrby now (failedAuthKey ip) .count 1).hget now (failedAuthKey ip)
      .reset_at).isSome = true := by
    rw [Keyspace.hget, Keyspace.hash_of_get hcount]
    rfl
  unfold recordFailedAuthRedis
  rw [Keyspace.get_expireAt_self, Keyspace.hsetnx, if_pos hset, hcount]

theorem record_agrees {st : LocalState} (h : Agrees db now st.cache)
    (htimely : timely db now (.record ip window) = true) :
    Agrees (recordFailedAuthRedis ip window now db) now
      (recordFailedAuthLocal ip window now st).cache := by
  rw [recordFailedAuthLocal_cache, ← h.window_eq]
  cases hget : db.get now (failedAuthKey ip) with
  | none =>
      rw [window_of_get_none hget]
      have hlive : now + window ≤ now + (window + 60) := by linarith
      exact h.replace (get_recordFailedAuth_none hget) get_recordFailedAuth_ne hlive le_rfl
  | some h₀ =>
      obtain ⟨w, rfl⟩ := h.whole now _ h₀ hget
      have hread : ∀ f, db.hget now (failedAuthKey ip) f = newHash w.count w.reset_at f := by
        intro f
        rw [Keyspace.hget, Keyspace.hash_of_get hget]
      rw [timely, hread] at htimely
      obtain ⟨hrun, hlive⟩ := of_decide_eq_true htimely
      have hw : db.window now (failedAuthKey ip) = some w := by
        rw [RedisDb.window, hread, hread]
        exact if_neg (not_lt.mpr hrun)
      have hcount : 1 ≤ w.count + 1 := by
        have := h.counted _ w (running_eq_some.mp ((h.window_eq _).symm.trans hw)).1
        omega
      rw [hw]
      exact h.replace (get_recordFailedAuth_some hget) get_recordFailedAuth_ne hlive hcount

/-! ## The history -/

/-- The last window of the failures, as the map has it. -/
def Failure.asWindow (failures : List Failure) : Option Window :=
  match Failure.last failures with
  | [] => none
  | first :: rest => some ⟨(first :: rest).length, first.time + first.window⟩

theorem Failure.last_concat (failures : List Failure) (f : Failure) :
    Failure.last (failures ++ [f]) =
      match Failure.last failures with
      | [] => [f]
      | first :: rest =>
          if f.time ≤ first.time + first.window then first :: (rest ++ [f]) else [f] := by
  rw [Failure.last, List.foldl_append, List.foldl_cons, List.foldl_nil, Failure.last]

theorem Failure.asWindow_concat (failures : List Failure) (f : Failure) :
    Failure.asWindow (failures ++ [f]) =
      some (Window.failed f.time f.window (Window.running f.time (Failure.asWindow failures))) := by
  unfold Failure.asWindow
  rw [Failure.last_concat]
  cases Failure.last failures with
  | nil => rfl
  | cons first rest =>
      simp only [running_some]
      by_cases hrun : f.time ≤ first.time + first.window
      · simp [hrun, not_lt.mpr hrun, Window.failed]
      · simp [hrun, not_le.mp hrun, Window.failed]

theorem Failure.blocked_eq {failures : List Failure} (hlimit : 1 ≤ limit) :
    Failure.blocked limit now failures = decide
      (limit ≤ (Window.running now (Failure.asWindow failures)).elim 0 Window.count) := by
  unfold Failure.blocked Failure.asWindow
  cases Failure.last failures with
  | nil =>
      have hfree : ¬limit ≤ 0 := by omega
      exact (decide_eq_false hfree).symm
  | cons first rest =>
      simp only [running_some]
      by_cases hend : first.time + first.window < now
      · have hfree : ¬limit ≤ 0 := by omega
        simp [hend, hfree]
      · simp [hend, not_lt.mp hend]

/-- The map holds the last window of each address. -/
def Recorded (cache : String → Option Window) (past : Failures) : Prop :=
  ∀ ip, cache (failedAuthKey ip) = Failure.asWindow (past ip)

theorem Recorded.record {st : LocalState} {past : Failures} (h : Recorded st.cache past) :
    Recorded (recordFailedAuthLocal ip window now st).cache (past.record ip ⟨now, window⟩) := by
  intro ip'
  rw [recordFailedAuthLocal_cache, Failures.record]
  by_cases hip : ip' = ip
  · subst hip
    rw [Function.update_self, Function.update_self, Failure.asWindow_concat, h ip']
  · rw [Function.update_of_ne hip, Function.update_of_ne (mt failedAuthKey_inj hip), h ip']

/-! ## Runs -/

theorem blocks_agree (calls : List (ℚ × Call)) :
    ∀ {db : RedisDb} {st : LocalState} {past : Failures} {now : ℚ},
      Agrees db now st.cache → Recorded st.cache past → calls.Pairwise (fun x y => x.1 ≤ y.1) →
      (∀ x ∈ calls, now ≤ x.1) → timelyRun db calls = true →
      redisBlocks db calls = blocks past calls ∧ localBlocks st calls = blocks past calls := by
  induction calls with
  | nil =>
      intro db st past now _ _ _ _ _
      exact ⟨rfl, rfl⟩
  | cons x rest ih =>
      intro db st past now hagrees hrecorded hsorted hnow htimely
      obtain ⟨t, call⟩ := x
      have ht : now ≤ t := hnow (t, call) List.mem_cons_self
      obtain ⟨hfirst, hrest⟩ := List.pairwise_cons.mp hsorted
      have hagrees' := hagrees.later ht
      cases call with
      | check ip limit window =>
          obtain ⟨hcheck, htimely⟩ := (Bool.and_eq_true _ _).mp htimely
          have hlimit : 1 ≤ limit := of_decide_eq_true hcheck
          obtain ⟨hredis, hlocal⟩ := ih hagrees' hrecorded hrest hfirst htimely
          rw [redisBlocks, localBlocks, blocks, hredis, hlocal, checkFailedAuthRedis_eq hagrees',
            checkFailedAuthLocal_eq hlimit, Failure.blocked_eq hlimit, hrecorded ip]
          exact ⟨rfl, rfl⟩
      | record ip window =>
          obtain ⟨hfailure, htimely⟩ := (Bool.and_eq_true _ _).mp htimely
          rw [redisBlocks, localBlocks, blocks]
          exact ih (record_agrees hagrees' hfailure) hrecorded.record hrest hfirst htimely

/-- In a run of timely calls both backends block an address in each window that has reached the
limit. -/
theorem failed_auth_blocks (calls : List (ℚ × Call)) (hsorted : calls.Pairwise fun x y => x.1 ≤ y.1)
    (htimely : timelyRun Keyspace.empty calls = true) :
    redisBlocks Keyspace.empty calls = blocks (fun _ => []) calls ∧
      localBlocks {} calls = blocks (fun _ => []) calls := by
  obtain ⟨now, hnow⟩ := exists_le_times Prod.fst calls
  have hrecorded : Recorded (LocalState.cache {}) fun _ => [] := fun _ => rfl
  exact blocks_agree calls Agrees.start hrecorded hsorted hnow htimely

/-- Two windows, the second after the hash of the first is gone. -/
theorem failed_auth_blocks_twice :
    let calls : List (ℚ × Call) :=
      [(0, .record "1.2.3.4" 60), (1, .record "1.2.3.4" 60), (2, .check "1.2.3.4" 2 60),
        (122, .record "1.2.3.4" 60), (123, .check "1.2.3.4" 2 60)]
    redisBlocks Keyspace.empty calls = blocks (fun _ => []) calls ∧
      localBlocks {} calls = blocks (fun _ => []) calls :=
  failed_auth_blocks _ (by decide +kernel) (by decide +kernel)

/-- A failure after the window has ended, and four more: the map blocks, and Redis does not. -/
theorem failed_auth_unblocked :
    let attempt (t : ℚ) : List (ℚ × Call) :=
      [(t, .check "1.2.3.4" 5 60), (t, .record "1.2.3.4" 60)]
    let calls : List (ℚ × Call) := attempt 0 ++ attempt 61 ++ attempt 62 ++ attempt 63 ++
      attempt 64 ++ attempt 65 ++ [(66, .check "1.2.3.4" 5 60)]
    redisBlocks Keyspace.empty calls = [false, false, false, false, false, false, false] ∧
      localBlocks {} calls = [false, false, false, false, false, false, true] ∧
      blocks (fun _ => []) calls = [false, false, false, false, false, false, true] := by
  decide +kernel

end RateLimiter

end Sthrip
