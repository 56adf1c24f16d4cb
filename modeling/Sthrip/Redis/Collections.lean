import Mathlib.Algebra.BigOperators.Group.List.Basic
import Mathlib.Data.List.AList
import Mathlib.Tactic.Abel
import Sthrip.Redis.Keyspace

set_option autoImplicit false

/-! # Collections that can be read whole

Sorted sets and hashes as lists of pairs, each member or field once: the member with its score, or the
field with its value. A collection that is left empty is gone from the keyspace.
-/

namespace Redis

/-- The members with their scores, or the fields with their values. -/
abbrev Pairs (F V : Type) := AList fun _ : F => V

namespace Pairs

variable {F V : Type}

/-- The pairs whose values are as asked for. -/
def filter (s : Pairs F V) (p : V → Bool) : Pairs F V :=
  ⟨s.entries.filter fun x => p x.2, s.nodupKeys.sublist List.filter_sublist⟩

/-- `ZRANGE`, `HKEYS`: in the order of the list. -/
def names (s : Pairs F V) : List F := s.entries.map Sigma.fst

/-- `HVALS` -/
def values (s : Pairs F V) : List V := s.entries.map Sigma.snd

@[simp] theorem filter_empty (p : V → Bool) : filter (∅ : Pairs F V) p = ∅ := rfl

theorem names_filter_eq_nil {s : Pairs F V} {p : V → Bool} (h : ∀ x ∈ s.entries, p x.2 = false) :
    (s.filter p).names = [] := by
  refine List.map_eq_nil_iff.mpr (List.filter_eq_nil_iff.mpr fun x hx => ?_)
  rw [h x hx]
  exact Bool.false_ne_true

variable [DecidableEq F]

/-- A pair of the filter was there, and passes. -/
theorem lookup_filter {s : Pairs F V} {p : V → Bool} {f : F} {v : V} :
    (s.filter p).lookup f = some v ↔ s.lookup f = some v ∧ p v = true := by
  rw [← Option.mem_def, ← Option.mem_def, AList.mem_lookup_iff, AList.mem_lookup_iff]
  exact List.mem_filter

theorem values_insert_of_notMem {s : Pairs F V} {f : F} {v : V} (h : f ∉ s) :
    values (s.insert f v) = v :: s.values := by
  rw [values, AList.entries_insert_of_notMem h]
  rfl

/-- The sum after a field is written: the value that the field had is out of it. -/
theorem sum_values_insert [AddCommGroup V] (s : Pairs F V) (f : F) (v : V) :
    (values (s.insert f v)).sum = s.values.sum - (s.lookup f).getD 0 + v := by
  by_cases hf : f ∈ s
  · obtain ⟨w, before, after, -, hs, herase⟩ := List.exists_of_kerase (AList.mem_keys.mp hf)
    have hw : s.lookup f = some w := by
      refine AList.mem_lookup_iff.mpr ?_
      rw [hs]
      simp
    rw [hw, values, values, AList.entries_insert, herase, hs]
    simp only [List.map_cons, List.map_append, List.sum_cons, List.sum_append, Option.getD_some]
    abel
  · rw [values_insert_of_notMem hf, AList.lookup_eq_none.mpr hf, List.sum_cons, Option.getD_none,
      sub_zero, add_comm]

end Pairs

namespace Keyspace

variable {K F V T : Type} [LinearOrder T]

/-- The whole collection; one that is not there is empty. -/
def whole (db : Keyspace K T (Pairs F V)) (now : T) (k : K) : Pairs F V := (db.get now k).getD ∅

section Reading

variable {db : Keyspace K T (Pairs F V)} {now t : T} {k : K}

theorem whole_congr {db' : Keyspace K T (Pairs F V)} (h : db'.get now k = db.get now k) :
    db'.whole now k = db.whole now k := by
  rw [whole, h, whole]

theorem whole_of_get {s : Pairs F V} (h : db.get now k = some s) : db.whole now k = s := by
  rw [whole, h, Option.getD_some]

/-- A collection stays, or is gone. -/
theorem whole_of_le (h : now ≤ t) : db.whole t k = db.whole now k ∨ db.whole t k = ∅ := by
  cases hget : db.get t k with
  | none =>
      right
      rw [whole, hget, Option.getD_none]
  | some s =>
      left
      rw [whole, whole, hget, get_of_le h hget]

end Reading

section Removing

variable [DecidableEq K] (db : Keyspace K T (Pairs F V)) (now : T) (k : K)

/-- What is left of a collection; an empty one is deleted. -/
def leave (s : Pairs F V) : Keyspace K T (Pairs F V) :=
  if s.entries = [] then db.del k else db.put now k s

/-- `ZREMRANGEBYSCORE`, with what is to stay. -/
def keep (p : V → Bool) : Keyspace K T (Pairs F V) := db.leave now k ((db.whole now k).filter p)

variable {db now k} {t : T} {p : V → Bool}

theorem whole_keep (h : now ≤ t) : (db.keep now k p).whole t k = (db.whole t k).filter p := by
  unfold keep leave
  cases hget : db.get now k with
  | none =>
      have hlater : db.get t k = none := by
        cases ht : db.get t k with
        | none => rfl
        | some s => rw [get_of_le h ht] at hget; cases hget
      have hempty : ((db.whole now k).filter p).entries = [] := by
        rw [whole, hget]
        rfl
      rw [if_pos hempty, whole, whole, hlater, del, get, lookup, Function.update_self]
      rfl
  | some s =>
      rw [whole_of_get hget]
      split
      · next hempty =>
          rw [whole, del, get, lookup, Function.update_self]
          rcases whole_of_le (k := k) h with hw | hw
          · rw [hw, whole_of_get hget]
            exact (AList.ext hempty).symm
          · rw [hw, Pairs.filter_empty]
            rfl
      · rw [whole, get_put_of_get hget]
        cases ht : db.get t k with
        | none =>
            rw [whole, ht]
            rfl
        | some s' =>
            obtain rfl := Option.some.inj ((get_of_le h ht).symm.trans hget)
            rw [whole_of_get ht]
            rfl

end Removing

section Writing

variable [DecidableEq K] [DecidableEq F] (db : Keyspace K T (Pairs F V)) (now : T) (k : K)

/-- `ZADD`, `HSET` -/
def write (f : F) (v : V) : Keyspace K T (Pairs F V) := db.put now k ((db.whole now k).insert f v)

/-- `HDEL` -/
def hdel (f : F) : Keyspace K T (Pairs F V) := db.leave now k ((db.whole now k).erase f)

variable {db now k} {t t' : T} {k' : K} {f : F} {v : V}

/-- A collection that is written and given an expiry. -/
theorem whole_expireAt_write : ((db.write now k f v).expireAt now k t').whole t k =
    if t ≤ t' then (db.whole now k).insert f v else ∅ := by
  rw [whole, get_expireAt_self, write, get_put_self]
  split
  · rfl
  · rfl

theorem whole_expireAt_write_ne (hk : k' ≠ k) :
    ((db.write now k f v).expireAt now k t').whole t k' = db.whole t k' := by
  refine whole_congr ?_
  rw [get_expireAt_ne hk, write, get_put_ne hk]

end Writing

end Keyspace

end Redis
