import Sthrip.Services.IdempotencyStore

set_option autoImplicit false

/-! # A key is bound to its request body

A key that is used again with another body is to be rejected. Only the look at the database compares
the hashes of the bodies: a response found in a cache is returned to whoever asks.
-/

namespace Sthrip

namespace IdempotencyStore

variable {R : Type}

/-- The cache that is asked, with what it holds of the key: Redis at each of the three moments, or
the local map. -/
inductive Cache (R : Type) where
  | redis (nx get retry : Option (CacheEntry R))
  | localMap (entry : Option (LocalEntry R)) (now : ℤ)

/-- `try_reserve`, with a session. -/
def tryReserve (cache : Cache R) (row : Option (IdempotencyKey R)) (request_hash : Option String) :
    Reserve R :=
  match cache with
  | .redis nx get retry => tryReserveRedis nx get retry row request_hash
  | .localMap entry now => tryReserveLocal entry now row request_hash

/-- The cache has nothing of the key when it is asked. -/
def Cache.Misses : Cache R → Prop
  | .redis nx get retry => nx = none ∨ get = none ∧ retry = none
  | .localMap entry now => ∀ e ∈ entry, ∃ r expires_at, e = .response r expires_at ∧ expires_at ≤ now

theorem checkDb_eq_keyReuse {row : Option (IdempotencyKey R)} {request_hash : Option String} :
    checkDb row request_hash = .keyReuse ↔ ∃ existing ∈ row, mismatch request_hash existing = true := by
  cases row with
  | none => simp [checkDb]
  | some existing =>
      rw [checkDb]
      split
      · next h => exact ⟨fun _ => ⟨existing, rfl, h⟩, fun _ => rfl⟩
      · next h =>
          refine ⟨fun hc => (by cases hc), ?_⟩
          rintro ⟨existing', hmem, hmis⟩
          obtain rfl := Option.mem_some_iff.mp hmem
          exact absurd hmis h

/-- When the cache misses, the database decides; otherwise the request is not rejected as a reuse. -/
theorem tryReserve_eq_keyReuse {cache : Cache R} {row : Option (IdempotencyKey R)}
    {request_hash : Option String} :
    tryReserve cache row request_hash = .keyReuse ↔
      cache.Misses ∧ checkDb row request_hash = .keyReuse := by
  cases cache with
  | redis nx get retry =>
      cases nx with
      | none => simp [tryReserve, tryReserveRedis, setNx, Cache.Misses]
      | some entry =>
          cases get with
          | none =>
              cases retry with
              | none => simp [tryReserve, tryReserveRedis, setNx, Cache.Misses]
              | some entry' => simp [tryReserve, tryReserveRedis, setNx, Cache.Misses]
          | some entry' =>
              cases entry' with
              | processing => simp [tryReserve, tryReserveRedis, setNx, Cache.Misses]
              | response r => simp [tryReserve, tryReserveRedis, setNx, Cache.Misses]
  | localMap entry now =>
      cases entry with
      | none => simp [tryReserve, tryReserveLocal, Cache.Misses]
      | some e =>
          cases e with
          | processing => simp [tryReserve, tryReserveLocal, Cache.Misses]
          | response r expires_at =>
              by_cases h : now < expires_at
              · simp [tryReserve, tryReserveLocal, Cache.Misses, h]
              · have hle : expires_at ≤ now := by omega
                simp only [tryReserve, tryReserveLocal, h, if_false]
                refine ⟨fun hout => ⟨fun e he => ?_, hout⟩, fun hboth => hboth.2⟩
                obtain rfl := Option.mem_some_iff.mp he
                exact ⟨r, expires_at, rfl, hle⟩

/-- **When a key is bound to its body.** A second request, whose body has another hash than the
row's, is rejected as a reuse iff the cache that is asked has nothing of the key, and the database
has the row. -/
theorem key_bound_iff (cache : Cache R) (row : Option (IdempotencyKey R)) {first second : String}
    (hfirst : first ≠ "") (hsecond : second ≠ "") (hne : first ≠ second)
    (hrow : ∀ existing ∈ row, existing.request_hash = first) :
    tryReserve cache row (some second) = .keyReuse ↔ cache.Misses ∧ row.isSome := by
  rw [tryReserve_eq_keyReuse, checkDb_eq_keyReuse]
  refine and_congr_right fun _ => ⟨?_, fun h => ?_⟩
  · rintro ⟨existing, hmem, -⟩
    rw [Option.mem_def.mp hmem]
    rfl
  · obtain ⟨existing, hmem⟩ := Option.isSome_iff_exists.mp h
    refine ⟨existing, hmem, ?_⟩
    have hhash := hrow existing hmem
    simp [mismatch, hhash, hfirst, hsecond, hne]

/-- Redis has forgotten the key, and the database has not. -/
theorem key_bound_iff_evicted :
    tryReserve (.redis none none none) (some ⟨"a", 200, ()⟩) (some "b") = .keyReuse :=
  (key_bound_iff (.redis none none none) (some ⟨"a", 200, ()⟩) (by decide : "a" ≠ "")
    (by decide : "b" ≠ "") (by decide) (by simp)).mpr ⟨.inl rfl, rfl⟩

/-- Redis returns the first response to a request with another body. -/
theorem key_reused_from_cache : ¬∀ (cache : Cache ℕ) (row : Option (IdempotencyKey ℕ))
    (first second : String), first ≠ "" → second ≠ "" → first ≠ second →
    (∀ existing ∈ row, existing.request_hash = first) → row.isSome →
    tryReserve cache row (some second) = .keyReuse := by
  intro h
  have hreuse := h (.redis (some (.response 7)) (some (.response 7)) (some (.response 7)))
    (some ⟨"a", 200, 7⟩) "a" "b" (by decide) (by decide) (by decide) (by simp) rfl
  exact absurd hreuse (by decide)

end IdempotencyStore

end Sthrip
