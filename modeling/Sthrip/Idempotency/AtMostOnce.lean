import Sthrip.Api.Withdraw

set_option autoImplicit false

/-! # At most one withdrawal for a key

The sentinel that reserves a key is the same for all requests, and `store.release` clears it whoever
has set it. It is also run by a request that was refused because another one holds the sentinel, and
then the key is free while the other request still works on it.

`Rightful` is the condition that this does not happen: a request that has not set the sentinel does
not find it when it releases. Under it, requests that share one cache debit at most once.
-/

namespace Sthrip

open IdempotencyStore

variable {R : Type}

namespace WithdrawPhase

/-- The request has set the sentinel, and has not left. -/
def Reserved : WithdrawPhase R → Prop
  | .checkDb | .deduct | .deducted _ | .process | .storing | .stored => True
  | .releasing reserved => reserved = true
  | .reserve | .get | .retry | .answered _ | .failed => False

/-- The request has found no row, and has not debited yet. -/
def Due : WithdrawPhase R → Prop
  | .deduct | .deducted _ => True
  | _ => False

theorem Due.reserved {p : WithdrawPhase R} (h : p.Due) : p.Reserved := by
  cases p with
  | deduct => trivial
  | deducted found => trivial
  | _ => cases h

end WithdrawPhase

namespace WithdrawConfig

variable {reqs : ℕ → WithdrawRequest R} {c : WithdrawConfig R} {k : ℕ}

/-- The condition on a step of request `i`. -/
def Rightful (reqs : ℕ → WithdrawRequest R) (c : WithdrawConfig R) (i : ℕ) : Prop :=
  c.phase i = .releasing false → c.state.slot (reqs i).cache ≠ some .processing

/-- What the cache `k` guarantees: one request at a time has the key, and the database tells the
next one whether there was a debit. -/
structure Guarded (k : ℕ) (c : WithdrawConfig R) : Prop where
  alone : ∀ i j, (c.phase i).Reserved → (c.phase j).Reserved → i = j
  free : c.state.slot k = none → ∀ i, ¬(c.phase i).Reserved
  due : ∀ i, (c.phase i).Due → c.state.debits = 0
  recorded : c.state.row = none → c.state.debits = 0
  once : c.state.debits ≤ 1

theorem guarded_start : ({} : WithdrawConfig R).Guarded k :=
  ⟨fun _ _ h => h.elim, fun _ _ h => h, fun _ h => h.elim, fun _ => rfl, Nat.zero_le 1⟩

/-- The request that moves stays out, or leaves. -/
theorem Guarded.out (h : c.Guarded k) {i : ℕ} {p : WithdrawPhase R} {s : WithdrawState R}
    (hp : ¬p.Reserved) (hslot : s.slot k = none → ∀ j, j ≠ i → ¬(c.phase j).Reserved)
    (hrow : s.row = none → c.state.row = none) (hdebits : s.debits = c.state.debits) :
    Guarded k { phase := Function.update c.phase i p, state := s } := by
  have hothers : ∀ j, (Function.update c.phase i p j).Reserved → j ≠ i ∧ (c.phase j).Reserved := by
    intro j hj
    by_cases hji : j = i
    · subst hji
      rw [Function.update_self] at hj
      exact absurd hj hp
    · rw [Function.update_of_ne hji] at hj
      exact ⟨hji, hj⟩
  refine ⟨fun j j' hj hj' => h.alone j j' (hothers j hj).2 (hothers j' hj').2,
    fun hnone j hj => hslot hnone j (hothers j hj).1 (hothers j hj).2, fun j hj => ?_,
    fun hnone => hdebits.trans (h.recorded (hrow hnone)), hdebits ▸ h.once⟩
  have hji := (hothers j hj.reserved).1
  change (Function.update c.phase i p j).Due at hj
  rw [Function.update_of_ne hji] at hj
  exact hdebits.trans (h.due j hj)

/-- The request that moves has the key, and nobody else has. -/
theorem Guarded.work {i : ℕ} {p : WithdrawPhase R} {s : WithdrawState R}
    (halone : ∀ j, j ≠ i → ¬(c.phase j).Reserved) (hslot : s.slot k ≠ none)
    (hdue : p.Due → s.debits = 0) (hrecorded : s.row = none → s.debits = 0)
    (honce : s.debits ≤ 1) :
    Guarded k { phase := Function.update c.phase i p, state := s } := by
  have hself : ∀ j, (Function.update c.phase i p j).Reserved → j = i := by
    intro j hj
    by_contra hji
    rw [Function.update_of_ne hji] at hj
    exact halone j hji hj
  refine ⟨fun j j' hj hj' => (hself j hj).trans (hself j' hj').symm,
    fun hnone => absurd hnone hslot, fun j hj => ?_, hrecorded, honce⟩
  obtain rfl := hself j hj.reserved
  change (Function.update c.phase j p j).Due at hj
  rw [Function.update_self] at hj
  exact hdue hj

/-! ### The cache -/

section Cache

variable {req : WithdrawRequest R} {s : WithdrawState R}

theorem setSlot_slot (hk : req.cache = k) (entry : Option (CacheEntry R)) :
    (req.setSlot s entry).slot k = entry := by
  subst hk
  exact Function.update_self ..

@[simp] theorem write_row (out : StepOutcome) (r : R) : (req.write out s r).row = s.row := by
  unfold WithdrawRequest.write
  split
  · rfl
  · rfl

@[simp] theorem write_debits (out : StepOutcome) (r : R) :
    (req.write out s r).debits = s.debits := by
  unfold WithdrawRequest.write
  split
  · rfl
  · rfl

/-- A write does not free the key. -/
theorem write_slot_ne (hk : req.cache = k) (out : StepOutcome) (r : R) (h : s.slot k ≠ none) :
    (req.write out s r).slot k ≠ none := by
  unfold WithdrawRequest.write
  split
  · exact h
  · rw [setSlot_slot hk]
    exact Option.some_ne_none _

end Cache

/-- The request sets the sentinel. -/
theorem Guarded.acquire (h : c.Guarded k) {i : ℕ} (hk : (reqs i).cache = k)
    (hnone : c.state.slot k = none) :
    Guarded k { phase := Function.update c.phase i .checkDb
                state := (reqs i).setSlot c.state (some .processing) } := by
  refine .work (fun j _ => h.free hnone j) ?_ (fun hd => hd.elim) h.recorded h.once
  rw [setSlot_slot hk]
  exact Option.some_ne_none _

/-- The request goes on without a change to what requests share. -/
theorem Guarded.goOn (h : c.Guarded k) {i : ℕ} {p : WithdrawPhase R} (hi : (c.phase i).Reserved)
    (hdue : p.Due → c.state.debits = 0) :
    Guarded k { phase := Function.update c.phase i p, state := c.state } :=
  .work (fun j hj hr => hj (h.alone j i hr hi)) (fun hnone => h.free hnone i hi) hdue h.recorded
    h.once

/-- The request goes on and writes to the cache. -/
theorem Guarded.goOnWriting (h : c.Guarded k) {i : ℕ} {p : WithdrawPhase R}
    (hk : (reqs i).cache = k) (hi : (c.phase i).Reserved) (out : StepOutcome) (r : R)
    (hdue : p.Due → c.state.debits = 0) :
    Guarded k { phase := Function.update c.phase i p, state := (reqs i).write out c.state r } := by
  refine .work (fun j hj hr => hj (h.alone j i hr hi))
    (write_slot_ne hk out r fun hnone => h.free hnone i hi) ?_ ?_ ?_
  · rwa [write_debits]
  · rw [write_debits, write_row]
    exact h.recorded
  · rw [write_debits]
    exact h.once

/-- **The step lemma.** -/
theorem Guarded.step (h : c.Guarded k) (hcache : ∀ i, (reqs i).cache = k) {i : ℕ}
    (out : StepOutcome) (hok : Rightful reqs c i) : (c.step reqs i out).Guarded k := by
  have hk := hcache i
  -- a request that has not set the sentinel changes nothing
  have houtside : ∀ {p : WithdrawPhase R}, ¬p.Reserved →
      Guarded k { phase := Function.update c.phase i p, state := c.state } :=
    fun hp => h.out hp (fun hnone j _ => h.free hnone j) (fun hr => hr) rfl
  have hrefused : ¬(WithdrawPhase.releasing false : WithdrawPhase R).Reserved := fun hr => by cases hr
  unfold WithdrawConfig.step
  cases hp : c.phase i with
  | reserve =>
      simp only [WithdrawRequest.step, hk]
      split
      · exact houtside hrefused
      · split
        · next hnone => exact h.acquire hk hnone
        · split
          · exact houtside fun hr => hr
          · split
            · exact houtside hrefused
            · exact houtside fun hr => hr
  | get =>
      simp only [WithdrawRequest.step, hk]
      split
      · exact houtside hrefused
      · split
        · exact houtside hrefused
        · exact houtside fun hr => hr
        · exact houtside fun hr => hr
  | retry =>
      simp only [WithdrawRequest.step, hk]
      split
      · exact houtside hrefused
      · split
        · next hnone => exact h.acquire hk hnone
        · exact houtside hrefused
  | checkDb =>
      have hi : (c.phase i).Reserved := by rw [hp]; trivial
      simp only [WithdrawRequest.step]
      split
      · exact h.goOn hi fun hd => hd.elim
      · split
        · next hdb => exact h.goOn hi fun _ => h.recorded (checkDb_eq_reserved.mp hdb)
        · exact h.goOnWriting hk hi _ _ fun hd => hd.elim
        · exact h.goOn hi fun hd => hd.elim
        · exact h.goOn hi fun hd => hd.elim
  | deduct =>
      have hi : (c.phase i).Reserved := by rw [hp]; trivial
      simp only [WithdrawRequest.step]
      split
      · exact h.goOn hi fun hd => hd.elim
      · exact h.goOnWriting hk hi _ _ fun _ => h.due i (by rw [hp]; trivial)
  | deducted found =>
      have hi : (c.phase i).Reserved := by rw [hp]; trivial
      have hzero : c.state.debits = 0 := h.due i (by rw [hp]; trivial)
      simp only [WithdrawRequest.step]
      split
      · exact h.goOn hi fun hd => hd.elim
      · refine .work (fun j hj hr => hj (h.alone j i hr hi)) (fun hnone => h.free hnone i hi)
          (fun hd => hd.elim) (fun hnone => absurd hnone (WithdrawRequest.upsert_ne_none _ _ _)) ?_
        show c.state.debits + 1 ≤ 1
        omega
  | process =>
      have hi : (c.phase i).Reserved := by rw [hp]; trivial
      simp only [WithdrawRequest.step]
      split
      · exact h.goOn hi fun hd => hd.elim
      · exact h.goOn hi fun hd => hd.elim
  | storing =>
      have hi : (c.phase i).Reserved := by rw [hp]; trivial
      simp only [WithdrawRequest.step]
      split
      · exact h.goOn hi fun hd => hd.elim
      · exact h.goOnWriting hk hi _ _ fun hd => hd.elim
  | stored =>
      have hi : (c.phase i).Reserved := by rw [hp]; trivial
      simp only [WithdrawRequest.step]
      split
      · exact h.goOn hi fun hd => hd.elim
      · exact .work (fun j hj hr => hj (h.alone j i hr hi)) (fun hnone => h.free hnone i hi)
          (fun hd => hd.elim) (fun hnone => by cases hnone) h.once
  | releasing reserved =>
      simp only [WithdrawRequest.step, hk]
      split
      · refine h.out (fun hr => hr) (fun hnone j _ => h.free hnone j) (fun hr => hr) rfl
      · refine h.out (fun hr => hr) (fun hnone j hj hr => ?_) (fun hr => hr) rfl
        rw [setSlot_slot hk] at hnone
        cases reserved with
        | true => exact hj (h.alone j i hr (by rw [hp]; rfl))
        | false =>
            -- the sentinel is not there, so nothing is cleared
            rw [release_of_ne (hk ▸ hok hp)] at hnone
            exact h.free hnone j hr
  | answered r => exact houtside fun hr => hr
  | failed => exact houtside fun hr => hr

/-- The run lemma. -/
theorem guarded_of_reaches (hcache : ∀ i, (reqs i).cache = k) (h : Reaches reqs (Rightful reqs) c) :
    c.Guarded k := by
  induction h with
  | refl => exact guarded_start
  | step i out _ hok ih => exact ih.step hcache out hok

/-- **At most one withdrawal for a key.** When all requests ask one cache, and no request that has
not set the sentinel clears it, the debit is committed at most once. -/
theorem debits_le_one (hcache : ∀ i, (reqs i).cache = k) (h : Reaches reqs (Rightful reqs) c) :
    c.state.debits ≤ 1 :=
  (guarded_of_reaches hcache h).once

section Runs

/-- The same request, sent again and again. -/
def resent (_ : ℕ) : WithdrawRequest ℕ := { request_hash := "a", in_progress := 202, response := 200 }

/-- The first request debits while the second one is refused, and the second one releases when the
response is already stored. -/
theorem debits_le_one_refused : (steps resent [0, 1, 1, 0, 0, 0, 1]).state.debits ≤ 1 := by
  refine debits_le_one (show ∀ i, (resent i).cache = 0 from fun _ => rfl) ?_
  unfold steps
  simp only [List.foldl]
  refine .step _ _ (.step _ _ (.step _ _ (.step _ _ (.step _ _ (.step _ _ (.step _ _ .refl ?_) ?_) ?_)
    ?_) ?_) ?_) ?_
  all_goals
    unfold Rightful
    decide

/-- The second request is refused and clears the sentinel of the first one, which the third one then
sets again. The first and the third both debit. -/
theorem debits_twice : ¬∀ (reqs : ℕ → WithdrawRequest ℕ) (c : WithdrawConfig ℕ),
    (∀ i j, (reqs i).request_hash = (reqs j).request_hash) → (∀ i, (reqs i).cache = 0) →
    Reaches reqs (fun _ _ => True) c → c.state.debits ≤ 1 := by
  intro h
  have hle := h resent (steps resent [0, 1, 1, 1, 2, 2, 0, 0, 0, 2, 2]) (fun _ _ => rfl)
    (fun _ => rfl) (reaches_steps _)
  have htwo : (steps resent [0, 1, 1, 1, 2, 2, 0, 0, 0, 2, 2]).state.debits = 2 := by decide
  omega

end Runs

end WithdrawConfig

end Sthrip
