import Mathlib.Tactic.Linarith
import Sthrip.Services.SpendingPolicyService

set_option autoImplicit false

/-! # The daily limit

A spend is within the limit when it and the spends accepted in the last 24 hours are (`withinDay`). The
script decides so as long as the hash of amounts holds no spend that is older, and the id of a spend is
not in it yet (`fresh`). The script takes an old spend out of the sorted set before it looks for the
old ones whose amounts are to go, so that their amounts stay until the whole hash expires; and an amount
whose id is there already takes the place of the other one.
-/

namespace Sthrip

open Redis

namespace SpendingPolicyService

/-! ## The script -/

/-- The score is of the last 24 hours. -/
def recentAt (now score : ℚ) : Bool := now - 86400 < score

/-- The times without what is older than 24 hours. -/
def SpendingDb.prune (key : String) (now : ℚ) (db : SpendingDb) : SpendingDb :=
  { db with times := (db.times.keep now key (recentAt now)).keep now key (recentAt now) }

/-- What an accepted spend leaves. -/
def SpendingDb.record (key tx_id : String) (amount now : ℚ) (db : SpendingDb) : SpendingDb :=
  { db with
    times := ((db.prune key now).times.write now key tx_id now).expireAt now key (now + (86400 + 60))
    amounts := (db.amounts.write now (amountsKey key) tx_id amount).expireAt now (amountsKey key)
      (now + (86400 + 60)) }

variable {key tx_id : String} {limit amount now t : ℚ} {db : SpendingDb}

/-- The script takes no amount out of the hash. -/
theorem dailyLimitLua_eq (key tx_id : String) (limit amount now : ℚ) (db : SpendingDb) :
    dailyLimitLua key limit amount now tx_id db =
      let total := (db.amounts.whole now (amountsKey key)).values.sum
      if limit < total + amount then ((false, total), db.prune key now)
      else ((true, total + amount), db.record key tx_id amount now) := by
  -- what is old is no longer in the set
  have hnone : (((db.times.keep now key fun score => now - 86400 < score).whole now key).filter
      fun score => score ≤ now - 86400).names = [] := by
    rw [Keyspace.whole_keep le_rfl]
    refine Pairs.names_filter_eq_nil fun x hx => ?_
    have hrecent : now - 86400 < x.2 := of_decide_eq_true (List.mem_filter.mp hx).2
    exact decide_eq_false (not_le.mpr hrecent)
  unfold dailyLimitLua
  simp only [hnone, List.foldl_nil]
  rfl

section Checking

variable {texts : NumberTexts} {policy : SpendingPolicy} {given : Option String} {drawn : ℚ}

/-- `_check_daily_limit` raises when the hash leaves no room. -/
theorem checkDailyLimit_over (hlimit : policy.daily_limit = some limit)
    (hover : limit <
      (db.amounts.whole now (amountsKey (dailyKey policy.agent_id))).values.sum + amount) :
    ∃ e, checkDailyLimit texts true policy amount given drawn now db =
      .error e (db.prune (dailyKey policy.agent_id) now) := by
  have hlua := dailyLimitLua_eq (dailyKey policy.agent_id) (effectiveTxId texts drawn given) limit
    amount now db
  simp only [if_pos hover] at hlua
  unfold checkDailyLimit
  rw [hlimit]
  simp only [↓reduceIte, hlua, Bool.false_eq_true]
  exact ⟨_, rfl⟩

theorem checkDailyLimit_within (hlimit : policy.daily_limit = some limit)
    (hroom : ¬limit <
      (db.amounts.whole now (amountsKey (dailyKey policy.agent_id))).values.sum + amount) :
    checkDailyLimit texts true policy amount given drawn now db =
      .ok () (db.record (dailyKey policy.agent_id) (effectiveTxId texts drawn given) amount now) := by
  have hlua := dailyLimitLua_eq (dailyKey policy.agent_id) (effectiveTxId texts drawn given) limit
    amount now db
  simp only [if_neg hroom] at hlua
  unfold checkDailyLimit
  rw [hlimit]
  simp only [↓reduceIte, hlua]

end Checking

/-! ## Runs -/

/-- A spend: the readings of the clock for its id and for its time, the amount, and the id if the caller
passes one. -/
structure Spend where
  drawn : ℚ
  time : ℚ
  amount : ℚ
  tx_id : Option String := none

/-- What was accepted in the last 24 hours, of the times and amounts accepted so far. -/
def dayTotal (now : ℚ) (accepted : List (ℚ × ℚ)) : ℚ :=
  ((accepted.filter fun x => recentAt now x.1).map Prod.snd).sum

/-- The answers that keep to the limit. -/
def withinDay (limit : ℚ) : List (ℚ × ℚ) → List Spend → List Bool
  | _, [] => []
  | accepted, s :: rest =>
      if dayTotal s.time accepted + s.amount ≤ limit then
        true :: withinDay limit ((s.time, s.amount) :: accepted) rest
      else false :: withinDay limit accepted rest

variable (texts : NumberTexts) (policy : SpendingPolicy)

/-- The answers of `_check_daily_limit`. -/
def accepts : SpendingDb → List Spend → List Bool
  | _, [] => []
  | db, s :: rest =>
      match checkDailyLimit texts true policy s.amount s.tx_id s.drawn s.time db with
      | .ok _ db => true :: accepts db rest
      | .error _ db => false :: accepts db rest

/-- Each amount in the hash is of a spend in the last 24 hours, and the id is not there yet. -/
def fresh (db : SpendingDb) (s : Spend) : Bool :=
  let amounts := db.amounts.whole s.time (amountsKey (dailyKey policy.agent_id))
  let times := db.times.whole s.time (dailyKey policy.agent_id)
  amounts.names.all (fun id => (times.lookup id).any (recentAt s.time)) &&
    !decide (effectiveTxId texts s.drawn s.tx_id ∈ amounts)

/-- Every spend is fresh. -/
def freshRun : SpendingDb → List Spend → Bool
  | _, [] => true
  | db, s :: rest =>
      fresh texts policy db s &&
        match checkDailyLimit texts true policy s.amount s.tx_id s.drawn s.time db with
        | .ok _ db => freshRun db rest
        | .error _ db => freshRun db rest

/-- A spend of the hash. -/
structure Recorded where
  id : String
  time : ℚ
  amount : ℚ

/-- The hash holds the amounts of these spends, the last one first, or is gone; the sorted set holds
times of them. All that is accepted and not among them is older than 24 hours. -/
structure Follows (key : String) (db : SpendingDb) (now : ℚ) (accepted : List (ℚ × ℚ))
    (recorded : List Recorded) : Prop where
  amounts : ∀ t, now ≤ t → db.amounts.whole t (amountsKey key) = ∅ ∨
    (db.amounts.whole t (amountsKey key)).entries = recorded.map fun r => ⟨r.id, r.amount⟩
  times : ∀ t, now ≤ t → ∀ id score, (db.times.whole t key).lookup id = some score →
    ∃ r ∈ recorded, r.id = id ∧ r.time = score
  gone : ∀ t, now ≤ t → db.amounts.whole t (amountsKey key) = ∅ →
    db.times.whole t key = ∅ ∧ ∀ x ∈ accepted, recentAt t x.1 = false
  past : ∀ x ∈ accepted, x.1 ≤ now
  same : ∀ t, now ≤ t → dayTotal t accepted = dayTotal t (recorded.map fun r => (r.time, r.amount))

variable {texts policy} {accepted : List (ℚ × ℚ)} {recorded : List Recorded}

theorem dayTotal_eq_zero (h : ∀ x ∈ accepted, recentAt t x.1 = false) : dayTotal t accepted = 0 := by
  have hnone : accepted.filter (fun x => recentAt t x.1) = [] := by
    refine List.filter_eq_nil_iff.mpr fun x hx => ?_
    rw [h x hx]
    exact Bool.false_ne_true
  rw [dayTotal, hnone]
  rfl

theorem dayTotal_cons (x : ℚ × ℚ) (accepted : List (ℚ × ℚ)) :
    dayTotal t (x :: accepted) = (if recentAt t x.1 then x.2 else 0) + dayTotal t accepted := by
  unfold dayTotal
  by_cases h : recentAt t x.1 = true
  · simp [h]
  · simp [h]

theorem Follows.start (now : ℚ) : Follows key {} now [] [] where
  amounts := fun _ _ => Or.inl rfl
  times := by
    intro t _ id score h
    cases h
  gone := fun _ _ _ => ⟨rfl, fun _ hx => absurd hx List.not_mem_nil⟩
  past := fun _ hx => absurd hx List.not_mem_nil
  same := fun _ _ => rfl

/-- The hash sums up what was accepted in the last 24 hours. -/
theorem Follows.total (h : Follows key db now accepted recorded) (ht : now ≤ t)
    (hfresh : ∀ id ∈ (db.amounts.whole t (amountsKey key)).names,
      ((db.times.whole t key).lookup id).any (recentAt t) = true) :
    (db.amounts.whole t (amountsKey key)).values.sum = dayTotal t accepted := by
  rcases h.amounts t ht with hempty | hentries
  · rw [hempty, dayTotal_eq_zero (h.gone t ht hempty).2]
    rfl
  · have hids : (recorded.map Recorded.id).Nodup := by
      have hkeys := (db.amounts.whole t (amountsKey key)).keys_nodup
      rw [AList.keys, hentries, List.keys, List.map_map] at hkeys
      exact hkeys
    have hrecent : ∀ r ∈ recorded, recentAt t r.time = true := by
      intro r hr
      have hname : r.id ∈ (db.amounts.whole t (amountsKey key)).names := by
        rw [Pairs.names, hentries, List.map_map]
        exact List.mem_map_of_mem hr
      obtain ⟨score, hscore, hday⟩ := (Option.any_eq_true _ _).mp (hfresh r.id hname)
      obtain ⟨r', hr', hid, htime⟩ := h.times t ht r.id score hscore
      obtain rfl := List.inj_on_of_nodup_map hids hr' hr hid
      rw [htime]
      exact hday
    have hall : (recorded.map fun r => (r.time, r.amount)).filter (fun x => recentAt t x.1) =
        recorded.map fun r => (r.time, r.amount) := by
      refine List.filter_eq_self.mpr fun x hx => ?_
      obtain ⟨r, hr, rfl⟩ := List.mem_map.mp hx
      exact hrecent r hr
    rw [h.same t ht, dayTotal, hall, Pairs.values, hentries, List.map_map, List.map_map]
    rfl

theorem Follows.later (h : Follows key db now accepted recorded) (ht : now ≤ t) :
    Follows key db t accepted recorded where
  amounts := fun t' ht' => h.amounts t' (ht.trans ht')
  times := fun t' ht' => h.times t' (ht.trans ht')
  gone := fun t' ht' => h.gone t' (ht.trans ht')
  past := fun x hx => (h.past x hx).trans ht
  same := fun t' ht' => h.same t' (ht.trans ht')

/-- What the script leaves of the times. -/
theorem whole_prune (ht : now ≤ t) : (db.prune key now).times.whole t key =
    ((db.times.whole t key).filter (recentAt now)).filter (recentAt now) := by
  rw [SpendingDb.prune, Keyspace.whole_keep ht, Keyspace.whole_keep ht]

theorem lookup_prune {id : String} {score : ℚ} (ht : now ≤ t)
    (h : ((db.prune key now).times.whole t key).lookup id = some score) :
    (db.times.whole t key).lookup id = some score := by
  rw [whole_prune ht] at h
  exact (Pairs.lookup_filter.mp (Pairs.lookup_filter.mp h).1).1

/-- A spend that is refused. -/
theorem Follows.refuse (h : Follows key db now accepted recorded) :
    Follows key (db.prune key now) now accepted recorded where
  amounts := h.amounts
  times := fun t ht id score hs => h.times t ht id score (lookup_prune ht hs)
  gone := by
    intro t ht hempty
    obtain ⟨hset, hold⟩ := h.gone t ht hempty
    refine ⟨?_, hold⟩
    rw [whole_prune ht, hset]
    rfl
  past := h.past
  same := h.same

/-- A spend that is accepted: it comes first in the hash, before what was there. -/
theorem Follows.accept (h : Follows key db now accepted recorded)
    (hentries : (db.amounts.whole now (amountsKey key)).entries =
      recorded.map fun r => ⟨r.id, r.amount⟩)
    (hid : tx_id ∉ db.amounts.whole now (amountsKey key)) :
    Follows key (db.record key tx_id amount now) now
      ((now, amount) :: accepted) (⟨tx_id, now, amount⟩ :: recorded) where
  amounts := by
    intro t ht
    rw [SpendingDb.record, Keyspace.whole_expireAt_write]
    split
    · right
      rw [AList.entries_insert_of_notMem hid, hentries]
      rfl
    · exact Or.inl rfl
  times := by
    intro t ht id score hs
    rw [SpendingDb.record, Keyspace.whole_expireAt_write] at hs
    split at hs
    · by_cases he : id = tx_id
      · subst he
        rw [AList.lookup_insert] at hs
        exact ⟨_, List.mem_cons_self, rfl, Option.some.inj hs⟩
      · rw [AList.lookup_insert_ne he] at hs
        obtain ⟨r, hr, hrid, hrtime⟩ := h.times now le_rfl id score (lookup_prune le_rfl hs)
        exact ⟨r, List.mem_cons_of_mem _ hr, hrid, hrtime⟩
    · cases hs
  gone := by
    intro t ht hempty
    rw [SpendingDb.record, Keyspace.whole_expireAt_write] at hempty ⊢
    by_cases hlive : t ≤ now + (86400 + 60)
    · rw [if_pos hlive] at hempty
      have hmem : tx_id ∈ (db.amounts.whole now (amountsKey key)).insert tx_id amount :=
        (AList.mem_insert _).mpr (Or.inl rfl)
      rw [hempty] at hmem
      exact absurd hmem (AList.notMem_empty tx_id)
    · rw [if_neg hlive]
      refine ⟨rfl, fun x hx => ?_⟩
      have hx : x.1 ≤ now := by
        rcases List.mem_cons.mp hx with rfl | hx
        · exact le_rfl
        · exact h.past x hx
      exact decide_eq_false (by linarith)
  past := by
    intro x hx
    rcases List.mem_cons.mp hx with rfl | hx
    · exact le_rfl
    · exact h.past x hx
  same := by
    intro t ht
    rw [List.map_cons, dayTotal_cons, dayTotal_cons, h.same t ht]

/-- Where the hash is gone, nothing is left of what was accepted. -/
theorem Follows.forget (h : Follows key db now accepted recorded)
    (hempty : db.amounts.whole now (amountsKey key) = ∅) : Follows key db now accepted [] := by
  have hlater : ∀ t, now ≤ t → db.amounts.whole t (amountsKey key) = ∅ := by
    intro t ht
    rcases Keyspace.whole_of_le ht with hw | hw
    · exact hw.trans hempty
    · exact hw
  refine ⟨fun t ht => Or.inl (hlater t ht), ?_, h.gone, h.past, ?_⟩
  · intro t ht id score hs
    rw [(h.gone t ht (hlater t ht)).1] at hs
    cases hs
  · intro t ht
    exact dayTotal_eq_zero (h.gone t ht (hlater t ht)).2

/-! ## The limit -/

theorem accepts_eq (hlimit : policy.daily_limit = some limit) (spends : List Spend) :
    ∀ {db : SpendingDb} {now : ℚ} {accepted : List (ℚ × ℚ)} {recorded : List Recorded},
      Follows (dailyKey policy.agent_id) db now accepted recorded →
      spends.Pairwise (fun x y => x.time ≤ y.time) → (∀ s ∈ spends, now ≤ s.time) →
      freshRun texts policy db spends = true →
      accepts texts policy db spends = withinDay limit accepted spends := by
  induction spends with
  | nil =>
      intro db now accepted recorded _ _ _ _
      rfl
  | cons s rest ih =>
      intro db now accepted recorded hfollows hsorted hnow hfresh
      obtain ⟨hfirst, hrest⟩ := List.pairwise_cons.mp hsorted
      have ht : now ≤ s.time := hnow s List.mem_cons_self
      obtain ⟨hs, hlater⟩ := (Bool.and_eq_true _ _).mp hfresh
      obtain ⟨hnames, hid⟩ := (Bool.and_eq_true _ _).mp hs
      have htotal := hfollows.total ht (List.all_eq_true.mp hnames)
      have h := hfollows.later ht
      rw [accepts, withinDay, ← htotal]
      by_cases hover : limit <
          (db.amounts.whole s.time (amountsKey (dailyKey policy.agent_id))).values.sum + s.amount
      · obtain ⟨e, hcheck⟩ := checkDailyLimit_over hlimit hover
        rw [hcheck] at hlater ⊢
        rw [if_neg (not_le.mpr hover)]
        exact congrArg (List.cons false) (ih h.refuse hrest hfirst hlater)
      · rw [checkDailyLimit_within hlimit hover] at hlater ⊢
        rw [if_pos (not_lt.mp hover)]
        refine congrArg (List.cons true) ?_
        have hid : effectiveTxId texts s.drawn s.tx_id ∉
            db.amounts.whole s.time (amountsKey (dailyKey policy.agent_id)) := by
          simpa using hid
        rcases h.amounts s.time le_rfl with hempty | hentries
        · have h' := h.forget hempty
          exact ih (h'.accept (by rw [hempty]; rfl) hid) hrest hfirst hlater
        · exact ih (h.accept hentries hid) hrest hfirst hlater

/-- In a run of fresh spends the daily limit is the sum of the last 24 hours. -/
theorem daily_limit_exact (texts : NumberTexts) (policy : SpendingPolicy) (limit : ℚ)
    (hlimit : policy.daily_limit = some limit) (spends : List Spend)
    (hsorted : spends.Pairwise fun x y => x.time ≤ y.time)
    (hfresh : freshRun texts policy {} spends = true) :
    accepts texts policy {} spends = withinDay limit [] spends := by
  obtain ⟨now, hnow⟩ := exists_le_times Spend.time spends
  exact accepts_eq hlimit spends (Follows.start now) hsorted hnow hfresh

/-- Texts that tell the clock readings apart. -/
def plainTexts : NumberTexts where
  decimal := fun x => toString x.num
  float := fun x => toString x.num
  lua := fun x => toString x.num

def dailyTen : SpendingPolicy where
  agent_id := "a"
  daily_limit := some 10

/-- The limit is reached, and a day after the hash is gone it is free again. -/
theorem daily_limit_exact_ten :
    let spends : List Spend := [{ drawn := 0, time := 0, amount := 6 },
      { drawn := 1, time := 1, amount := 5 }, { drawn := 2, time := 2, amount := 4 },
      { drawn := 90000, time := 90000, amount := 10 }]
    accepts plainTexts dailyTen {} spends = withinDay 10 [] spends :=
  daily_limit_exact plainTexts dailyTen 10 rfl _ (by decide +kernel) (by decide +kernel)

/-- Two spends that reach the limit, and one when the first is older than 24 hours. -/
def staleSpends : List Spend :=
  [{ drawn := 0, time := 0, amount := 6 }, { drawn := 86000, time := 86000, amount := 4 },
    { drawn := 86401, time := 86401, amount := 6 }]

/-- Three spends at one reading of the clock. -/
def collidingSpends : List Spend :=
  [{ drawn := 0, time := 0, amount := 4 }, { drawn := 0, time := 0, amount := 4 },
    { drawn := 0, time := 0, amount := 4 }]

/-- The amount of a spend that is older than 24 hours still counts; and of spends with one reading of
the clock only the last one does. -/
theorem daily_limit_inexact :
    accepts plainTexts dailyTen {} staleSpends = [true, true, false] ∧
      withinDay 10 [] staleSpends = [true, true, true] ∧
      accepts plainTexts dailyTen {} collidingSpends = [true, true, true] ∧
      withinDay 10 [] collidingSpends = [true, true, false] := by
  decide +kernel

end SpendingPolicyService

end Sthrip
