import Mathlib.Data.List.Induction
import Mathlib.Data.Option.Basic
import Mathlib.Data.Set.Finite.Lattice
import Mathlib.Logic.Function.Basic
import Mathlib.Order.Lattice

set_option autoImplicit false

/-! # Keys that expire

A store of keys with values, as Redis is: a key may carry a time after which it is gone. Every
operation is made at a time, and to it a key whose time has passed is a key that is not there. A write
to a key that lives leaves its expiry alone.

The values are of any type. For a key that holds a hash there are the operations on its fields; a
hash that is not there is an empty one.
-/

namespace Redis

variable {K V T : Type} [LinearOrder T]

/-- A value, with the last moment at which it lives. -/
structure Stored (T V : Type) where
  value : V
  expires : Option T

/-- The value lives at the time. -/
def Stored.alive (s : Stored T V) (now : T) : Bool := s.expires.all fun t => now ≤ t

theorem Stored.alive_of_le {s : Stored T V} {now t : T} (h : now ≤ t) (hs : s.alive t = true) :
    s.alive now = true := by
  unfold Stored.alive at hs ⊢
  rw [Option.all_eq_true] at hs ⊢
  intro t' ht'
  have hle : t ≤ t' := of_decide_eq_true (hs t' ht')
  exact decide_eq_true (h.trans hle)

/-- Calls have a time before all of them. -/
theorem exists_le_times [Nonempty T] {C : Type} (time : C → T) (calls : List C) :
    ∃ now, ∀ c ∈ calls, now ≤ time c := by
  obtain ⟨now, hnow⟩ := (calls.map time).finite_toSet.bddBelow
  exact ⟨now, fun c hc => hnow (List.mem_map_of_mem hc)⟩

abbrev Keyspace (K T V : Type) := K → Option (Stored T V)

namespace Keyspace

def empty : Keyspace K T V := fun _ => none

def lookup (db : Keyspace K T V) (now : T) (k : K) : Option (Stored T V) :=
  (db k).filter fun s => s.alive now

/-- `GET` -/
def get (db : Keyspace K T V) (now : T) (k : K) : Option V := (db.lookup now k).map Stored.value

section Reading

variable {db : Keyspace K T V} {now t : T} {k : K} {v : V}

@[simp] theorem get_empty : (empty : Keyspace K T V).get now k = none := rfl

theorem get_congr {db' : Keyspace K T V} (h : db' k = db k) : db'.get now k = db.get now k := by
  unfold get lookup
  rw [h]

/-- A key that is there was there before, with the same value. -/
theorem get_of_le (h : now ≤ t) (hv : db.get t k = some v) : db.get now k = some v := by
  obtain ⟨s, hs, rfl⟩ := Option.map_eq_some_iff.mp hv
  obtain ⟨hdb, halive⟩ := Option.filter_eq_some_iff.mp hs
  have hnow : db.lookup now k = some s :=
    Option.filter_eq_some_iff.mpr ⟨hdb, Stored.alive_of_le h halive⟩
  exact Option.map_eq_some_iff.mpr ⟨s, hnow, rfl⟩

end Reading

section Writing

variable [DecidableEq K] (db : Keyspace K T V) (now : T) (k : K)

/-- Write the value of a key. -/
def put (v : V) : Keyspace K T V :=
  Function.update db k (some ⟨v, (db.lookup now k).bind Stored.expires⟩)

/-- `SETEX`, with the last moment of the key. -/
def setex (v : V) (t : T) : Keyspace K T V := Function.update db k (some ⟨v, some t⟩)

/-- `EXPIRE`, with the moment itself. -/
def expireAt (t : T) : Keyspace K T V :=
  Function.update db k ((db.lookup now k).map fun s => { s with expires := some t })

/-- `DEL` -/
def del : Keyspace K T V := Function.update db k none

variable {db now k} {t : T} {k' : K} {v : V}

omit [LinearOrder T] in
theorem setex_self : db.setex k v t k = some ⟨v, some t⟩ := Function.update_self ..

omit [LinearOrder T] in
theorem del_self : db.del k k = none := Function.update_self ..

theorem get_put_ne (h : k' ≠ k) : (db.put now k v).get t k' = db.get t k' :=
  get_congr (Function.update_of_ne h _ _)

theorem get_expireAt_ne {t' : T} (h : k' ≠ k) : (db.expireAt now k t').get t k' = db.get t k' :=
  get_congr (Function.update_of_ne h _ _)

/-- What is written is there at once. -/
theorem get_put_self : (db.put now k v).get now k = some v := by
  have halive : (Stored.mk v ((db.lookup now k).bind Stored.expires)).alive now = true := by
    cases hl : db.lookup now k with
    | none => rfl
    | some s => exact (Option.filter_eq_some_iff.mp hl).2
  unfold get lookup put
  rw [Function.update_self, Option.filter_some, if_pos halive]
  rfl

/-- What is written to a key that lives, lives as long as the key. -/
theorem get_put_of_get {v₀ : V} (hv : db.get now k = some v₀) :
    (db.put now k v).get t k = (db.get t k).map fun _ => v := by
  obtain ⟨s, hs, -⟩ := Option.map_eq_some_iff.mp hv
  have hdb : db k = some s := (Option.filter_eq_some_iff.mp hs).1
  unfold get put
  rw [hs, lookup, Function.update_self, lookup, hdb, Option.filter_some, Option.filter_some]
  by_cases ht : s.alive t = true
  · rw [if_pos ht, if_pos (show Stored.alive ⟨v, (some s).bind Stored.expires⟩ t = true from ht)]
    rfl
  · rw [if_neg ht, if_neg (show ¬Stored.alive ⟨v, (some s).bind Stored.expires⟩ t = true from ht)]
    rfl

/-- With an expiry, the key has the value it has now, up to the expiry. -/
theorem get_expireAt_self {t' : T} :
    (db.expireAt now k t').get t k = if t ≤ t' then db.get now k else none := by
  unfold get expireAt
  rw [lookup, Function.update_self]
  cases hl : db.lookup now k with
  | none => simp
  | some s =>
      rw [Option.map_some, Option.filter_some]
      by_cases ht : t ≤ t'
      · simp [Stored.alive, ht]
      · simp [Stored.alive, ht]

end Writing

end Keyspace

/-! ## Hashes -/

section Hashes

variable {F : Type} {W : F → Type}

/-- The fields of a hash. -/
abbrev Hash (F : Type) (W : F → Type) := (f : F) → Option (W f)

namespace Keyspace

/-- `HGETALL` -/
def hash (db : Keyspace K T (Hash F W)) (now : T) (k : K) : Hash F W :=
  (db.get now k).getD fun _ => none

/-- `HGET` -/
def hget (db : Keyspace K T (Hash F W)) (now : T) (k : K) (f : F) : Option (W f) := db.hash now k f

theorem hash_of_get {db : Keyspace K T (Hash F W)} {now : T} {k : K} {h : Hash F W}
    (hk : db.get now k = some h) : db.hash now k = h := by
  rw [hash, hk, Option.getD_some]

theorem hget_of_get_none {db : Keyspace K T (Hash F W)} {now : T} {k : K} {f : F}
    (hk : db.get now k = none) : db.hget now k f = none := by
  rw [hget, hash, hk, Option.getD_none]

variable [DecidableEq K] [DecidableEq F] (db : Keyspace K T (Hash F W)) (now : T) (k : K)

/-- `HSET` -/
def hset (f : F) (w : W f) : Keyspace K T (Hash F W) :=
  db.put now k (Function.update (db.hash now k) f (some w))

/-- `HSETNX` -/
def hsetnx (f : F) (w : W f) : Keyspace K T (Hash F W) :=
  if (db.hget now k f).isSome then db else db.hset now k f w

/-- `HINCRBY` -/
def hincrby (f : F) [Zero (W f)] [Add (W f)] (n : W f) : Keyspace K T (Hash F W) :=
  db.hset now k f ((db.hget now k f).getD 0 + n)

variable {db now k} {t : T} {k' : K} {f : F} {w : W f}

theorem get_hset_ne (h : k' ≠ k) : (db.hset now k f w).get t k' = db.get t k' := get_put_ne h

theorem get_hset_self :
    (db.hset now k f w).get now k = some (Function.update (db.hash now k) f (some w)) := get_put_self

@[simp] theorem hash_hset_self :
    (db.hset now k f w).hash now k = Function.update (db.hash now k) f (some w) :=
  hash_of_get get_hset_self

theorem get_hincrby_ne [Zero (W f)] [Add (W f)] (h : k' ≠ k) :
    (db.hincrby now k f w).get t k' = db.get t k' := get_put_ne h

theorem get_hsetnx_ne (h : k' ≠ k) : (db.hsetnx now k f w).get t k' = db.get t k' := by
  unfold hsetnx
  split
  · rfl
  · exact get_hset_ne h

end Keyspace

end Hashes

end Redis

/-! ## Keys that are taken and given back

A key that is written only when it is not there, and deleted only when it has the value that one has
written.
-/

namespace Redis.Keyspace

variable {K V T : Type} [LinearOrder T] {db : Keyspace K T V} {now : T} {k : K} {v : V} {s : Stored T V}

theorem get_of_alive (h : db k = some s) (hs : s.alive now = true) : db.get now k = some s.value := by
  rw [get, lookup, h, Option.filter_some, if_pos hs]
  rfl

theorem stored_of_get (h : db.get now k = some v) :
    ∃ s, db k = some s ∧ s.alive now = true ∧ s.value = v := by
  obtain ⟨s, hs, rfl⟩ := Option.map_eq_some_iff.mp h
  obtain ⟨hdb, halive⟩ := Option.filter_eq_some_iff.mp hs
  exact ⟨s, hdb, halive, rfl⟩

variable [DecidableEq K]

/-- `SET` with `NX` and an expiry: nothing is done when the key is there. -/
def setNx (db : Keyspace K T V) (now : T) (k : K) (v : V) (expires : T) : Keyspace K T V :=
  if db.get now k = none then Function.update db k (some ⟨v, some expires⟩) else db

theorem setNx_self {expires : T} (h : db.get now k = none) :
    db.setNx now k v expires k = some ⟨v, some expires⟩ := by
  rw [setNx, if_pos h, Function.update_self]

/-- The script that compares and deletes. -/
def delEq [DecidableEq V] (db : Keyspace K T V) (now : T) (k : K) (v : V) : Keyspace K T V :=
  if db.get now k = some v then db.del k else db

variable [DecidableEq V]

theorem delEq_of_ne (h : db.get now k ≠ some v) : db.delEq now k v = db := if_neg h

/-- What is left was there. -/
theorem delEq_self (h : db.delEq now k v k = some s) : db k = some s := by
  unfold delEq at h
  split at h
  · rw [del, Function.update_self] at h
    cases h
  · exact h

end Redis.Keyspace

/-! ## Where a value comes from

A store that starts empty and is changed by calls. A call that leaves a value with a key has written it, or
the value was there and the call neither wrote nor removed the key.
-/

namespace Redis

variable {S C K V : Type} {step : S → C → S} {read : S → K → Option V} {writes : C → K → Option V}
  {removes : C → K → Prop}

/-- What a key holds was written by the last call that touched it. -/
theorem last_write {s : S} (hempty : ∀ k, read s k = none)
    (hstep : ∀ s c k v, read (step s c) k = some v →
      writes c k = some v ∨ read s k = some v ∧ writes c k = none ∧ ¬ removes c k)
    (calls : List C) {k : K} {v : V} (h : read (calls.foldl step s) k = some v) :
    ∃ before c after, calls = before ++ c :: after ∧ writes c k = some v
      ∧ ∀ d ∈ after, writes d k = none ∧ ¬ removes d k := by
  induction calls using List.reverseRecOn with
  | nil =>
      rw [List.foldl_nil, hempty] at h
      cases h
  | append_singleton calls c ih =>
      rw [List.foldl_append, List.foldl_cons, List.foldl_nil] at h
      rcases hstep _ c k v h with hc | ⟨hold, hno⟩
      · exact ⟨calls, c, [], rfl, hc, by simp⟩
      · obtain ⟨before, c', after, rfl, hc', hafter⟩ := ih hold
        refine ⟨before, c', after ++ [c], by simp, hc', ?_⟩
        intro d hd
        rcases List.mem_append.mp hd with hd | hd
        · exact hafter d hd
        · exact List.mem_singleton.mp hd ▸ hno

/-- What was written stays as long as no call touches it. -/
theorem read_of_write {s : S} {p : V → Prop} {q : C → Prop}
    (hwrite : ∀ s c k v, writes c k = some v → read (step s c) k = some v)
    (hkeep : ∀ s c k v, q c → p v → read s k = some v → writes c k = none → ¬ removes c k →
      read (step s c) k = some v)
    {before after : List C} {c : C} {k : K} {v : V} (hc : writes c k = some v) (hv : p v)
    (hq : ∀ d ∈ after, q d) (hafter : ∀ d ∈ after, writes d k = none ∧ ¬ removes d k) :
    read ((before ++ c :: after).foldl step s) k = some v := by
  rw [List.foldl_append, List.foldl_cons]
  have hstart := hwrite (before.foldl step s) c k v hc
  generalize step (before.foldl step s) c = s₁ at hstart
  induction after generalizing s₁ with
  | nil => exact hstart
  | cons d after ih =>
      obtain ⟨hno, hremoves⟩ := hafter d List.mem_cons_self
      have hnext := hkeep s₁ d k v (hq d List.mem_cons_self) hv hstart hno hremoves
      exact ih (fun e he => hq e (List.mem_cons_of_mem d he))
        (fun e he => hafter e (List.mem_cons_of_mem d he)) _ hnext

end Redis
