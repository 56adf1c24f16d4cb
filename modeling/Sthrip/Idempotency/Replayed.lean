import Sthrip.Api.HubRouting

set_option autoImplicit false

/-! # Whose response is replayed

`store_response` writes the response of a payment to the cache before the session of the payment
commits, and `release` takes back only the sentinel. When that commit fails, the cache keeps the response
of a payment that was rolled back, and every retry is answered with it.
-/

namespace Sthrip

/-- Before the commit of the session. -/
def HubPhase.committing {R : Type} : HubPhase R → Bool
  | .commit _ => true
  | _ => false

namespace HubConfig

variable {R : Type} {reqs : ℕ → HubRequest R} {c : HubConfig R}

/-- A stored response is that of a committed payment; and when all requests so far were rolled back, the
next one is executed. -/
structure Honest (reqs : ℕ → HubRequest R) (c : HubConfig R) : Prop where
  replayed : ∀ i r, c.phase i = .answered true r → r.producer ∈ c.state.committed
  retried : c.state.committed = [] → (∀ j, c.phase j = .reserve ∨ c.phase j = .failed) →
    ∀ i, c.phase i = .reserve → ((c.step reqs i .ok).step reqs i .ok).phase i = .route

/-- The response that a cache holds. -/
def response? (c : HubConfig R) (k : ℕ) : Option (Produced R) :=
  match c.state.slot k with
  | some (.response r) => some r
  | _ => none

/-- The cache does not hold the response of a request that is still before its commit. -/
def Settled (c : HubConfig R) (k : ℕ) : Prop :=
  ∀ r ∈ c.response? k, (c.phase r.producer).committing = false

/-- The condition on a step of request `i`: it does not look into a cache between the write of another
request and its commit, its commit does not fail while the cache has its response, and `release` does not
fail. -/
def Meets (reqs : ℕ → HubRequest R) (c : HubConfig R) (i : ℕ) (out : HubOutcome) : Prop :=
  match c.phase i with
  | .reserve => (reqs i).use_redis = false → c.Settled (reqs i).cache
  | .get => c.Settled (reqs i).cache
  | .commit _ => out = .raises → ∀ r ∈ c.response? (reqs i).cache, r.producer ≠ i
  | .releasing => (reqs i).use_redis = true → out = .ok
  | _ => True

instance (c : HubConfig R) (k : ℕ) : Decidable (c.Settled k) := by
  unfold Settled
  infer_instance

instance (reqs : ℕ → HubRequest R) (c : HubConfig R) (i : ℕ) (out : HubOutcome) :
    Decidable (Meets reqs c i out) := by
  unfold Meets
  split <;> infer_instance

theorem response?_eq {k : ℕ} {r : Produced R} (h : c.state.slot k = some (.response r)) :
    c.response? k = some r := by
  unfold response?
  rw [h]

/-- What holds while the steps meet the condition. -/
structure Inv (reqs : ℕ → HubRequest R) (c : HubConfig R) : Prop where
  cached : ∀ k r, c.state.slot k = some (.response r) → r.producer ∈ c.state.committed ∨
    ((reqs r.producer).cache = k ∧ ∃ found, c.phase r.producer = .commit found)
  row : ∀ existing, c.state.row = some existing → existing.response_body.producer ∈ c.state.committed
  found : ∀ i r, c.phase i = .replay r ∨ c.phase i = .answered true r → r.producer ∈ c.state.committed
  /-- Who has set the sentinel has not left. -/
  held : ∀ k, c.state.slot k = some .processing →
    ∃ j, (reqs j).cache = k ∧ c.phase j ≠ .reserve ∧ c.phase j ≠ .failed

theorem inv_start : Inv reqs {} := by
  refine ⟨fun k r h => ?_, fun existing h => ?_, fun i r h => ?_, fun k h => ?_⟩
  · cases h
  · cases h
  · exact h.elim nofun nofun
  · cases h

/-- Request `i` goes to the phase `p`, and what is shared to `s`. -/
theorem Inv.move (h : Inv reqs c) {i : ℕ} {p : HubPhase R} {s : HubState R}
    (hslot : ∀ k, s.slot k = c.state.slot k ∨ (k = (reqs i).cache ∧ ∀ r, s.slot k = some (.response r) →
      r.producer ∈ s.committed ∨ (r.producer = i ∧ ∃ found, p = .commit found)))
    (hcommitted : c.state.committed ⊆ s.committed)
    (hrow : ∀ existing, s.row = some existing → existing.response_body.producer ∈ s.committed)
    (hfound : ∀ r, p = .replay r ∨ p = .answered true r → r.producer ∈ s.committed)
    (hheld : (p ≠ .reserve ∧ p ≠ .failed) ∨ s.slot (reqs i).cache ≠ some .processing)
    (hleave : ∀ found, c.phase i = .commit found → i ∈ s.committed ∨
      ∀ r, s.slot (reqs i).cache = some (.response r) → r.producer ≠ i) :
    Inv reqs { phase := Function.update c.phase i p, state := s } := by
  refine ⟨fun k r hr => ?_, hrow, fun j r hj => ?_, fun k hk => ?_⟩
  · rcases hslot k with hsame | ⟨rfl, hnew⟩
    · rcases h.cached k r (hsame ▸ hr) with hc | ⟨hcache, found, hphase⟩
      · exact .inl (hcommitted hc)
      · by_cases hi : r.producer = i
        · rw [hi] at hcache hphase
          rcases hleave found hphase with hc | hne
          · exact .inl (hi ▸ hc)
          · rw [hcache] at hne
            exact absurd hi (hne r hr)
        · refine .inr ⟨hcache, found, ?_⟩
          show Function.update c.phase i p r.producer = _
          rw [Function.update_of_ne hi]
          exact hphase
    · rcases hnew r hr with hc | ⟨hi, found, hp⟩
      · exact .inl hc
      · refine .inr ⟨by rw [hi], found, ?_⟩
        show Function.update c.phase i p r.producer = _
        rw [hi, Function.update_self]
        exact hp
  · change Function.update c.phase i p j = _ ∨ Function.update c.phase i p j = _ at hj
    by_cases hji : j = i
    · rw [hji, Function.update_self] at hj
      exact hfound r hj
    · rw [Function.update_of_ne hji] at hj
      exact hcommitted (h.found j r hj)
  · have hself : k = (reqs i).cache → p ≠ .reserve ∧ p ≠ .failed := by
      rintro rfl
      exact hheld.resolve_right fun hne => hne hk
    have hmoved : k = (reqs i).cache → ∃ j, (reqs j).cache = k ∧
        Function.update c.phase i p j ≠ .reserve ∧ Function.update c.phase i p j ≠ .failed := by
      intro hkey
      refine ⟨i, hkey.symm, ?_⟩
      rw [Function.update_self]
      exact hself hkey
    rcases hslot k with hsame | ⟨hkey, -⟩
    · obtain ⟨j, hj, hphase⟩ := h.held k (hsame ▸ hk)
      by_cases hji : j = i
      · exact hmoved (hji ▸ hj).symm
      · refine ⟨j, hj, ?_⟩
        show Function.update c.phase i p j ≠ _ ∧ Function.update c.phase i p j ≠ _
        rw [Function.update_of_ne hji]
        exact hphase
    · exact hmoved hkey

/-- Request `i` goes on without a change to what requests share. -/
theorem Inv.goOn (h : Inv reqs c) {i : ℕ} {p : HubPhase R} (hp : p ≠ .reserve ∧ p ≠ .failed)
    (hfound : ∀ r, p = .replay r ∨ p = .answered true r → r.producer ∈ c.state.committed)
    (hleave : ∀ found, c.phase i = .commit found →
      ∀ r, c.state.slot (reqs i).cache = some (.response r) → r.producer ≠ i) :
    Inv reqs { phase := Function.update c.phase i p, state := c.state } :=
  h.move (fun _ => .inl rfl) (List.Subset.refl _) h.row hfound (.inl hp)
    fun found hf => .inr (hleave found hf)

/-- A response that a request finds in a cache is that of a committed payment. -/
theorem Inv.committed_of_settled (h : Inv reqs c) {k : ℕ} (hsettled : c.Settled k) {r : Produced R}
    (hr : c.state.slot k = some (.response r)) : r.producer ∈ c.state.committed := by
  rcases h.cached k r hr with hc | ⟨-, found, hphase⟩
  · exact hc
  · have hnot := hsettled r (response?_eq hr)
    rw [hphase] at hnot
    cases hnot

section Cache

open IdempotencyStore

theorem setSlot_slot (req : HubRequest R) (s : HubState R) (entry : Option (CacheEntry (Produced R)))
    (k : ℕ) : (req.setSlot s entry).slot k = s.slot k ∨
      (k = req.cache ∧ (req.setSlot s entry).slot k = entry) := by
  by_cases hk : k = req.cache
  · rw [hk]
    exact .inr ⟨rfl, Function.update_self ..⟩
  · exact .inl (Function.update_of_ne hk ..)

theorem write_slot (req : HubRequest R) (out : HubOutcome) (s : HubState R) (r : Produced R) (k : ℕ) :
    (req.write out s r).slot k = s.slot k ∨
      (k = req.cache ∧ (req.write out s r).slot k = some (.response r)) := by
  unfold HubRequest.write
  split_ifs
  · exact .inl rfl
  · exact setSlot_slot req s _ k

theorem write_row (req : HubRequest R) (out : HubOutcome) (s : HubState R) (r : Produced R) :
    (req.write out s r).row = s.row := by
  unfold HubRequest.write
  split_ifs <;> rfl

theorem write_committed (req : HubRequest R) (out : HubOutcome) (s : HubState R) (r : Produced R) :
    (req.write out s r).committed = s.committed := by
  unfold HubRequest.write
  split_ifs <;> rfl

theorem release_ne_processing (entry : Option (CacheEntry (Produced R))) :
    release entry ≠ some .processing := by
  unfold release
  split
  · exact nofun
  · next h => exact h

/-- The row is that of the request that answers. -/
theorem cached_of_checkDb {row : Option (IdempotencyKey R)} {request_hash : Option String} {r : R}
    (h : checkDb row request_hash = .cached r) :
    ∃ existing, row = some existing ∧ existing.response_body = r := by
  cases row with
  | none => cases h
  | some existing =>
      unfold checkDb at h
      dsimp only at h
      split_ifs at h
      exact ⟨existing, rfl, Reserve.cached.inj h⟩

end Cache

/-- The request sets the sentinel. -/
theorem Inv.acquire (h : Inv reqs c) {i : ℕ} (hi : ∀ found, c.phase i ≠ .commit found) :
    Inv reqs { phase := Function.update c.phase i .checkDb
               state := (reqs i).setSlot c.state (some .processing) } := by
  refine h.move (fun k => ?_) (List.Subset.refl _) h.row (fun r hr => hr.elim nofun nofun)
    (.inl ⟨nofun, nofun⟩) fun found hf => absurd hf (hi found)
  rcases setSlot_slot (reqs i) c.state (some .processing) k with hsame | ⟨hk, hnew⟩
  · exact .inl hsame
  · refine .inr ⟨hk, fun r hr => ?_⟩
    rw [hnew] at hr
    cases hr

/-- The request writes a response to its cache. -/
theorem Inv.writes (h : Inv reqs c) {i : ℕ} {p : HubPhase R} (hi : ∀ found, c.phase i ≠ .commit found)
    (hp : p ≠ .reserve ∧ p ≠ .failed) (out : HubOutcome) {r : Produced R}
    (hfound : ∀ r', p = .replay r' ∨ p = .answered true r' → r'.producer ∈ c.state.committed)
    (hr : r.producer ∈ c.state.committed ∨ (r.producer = i ∧ ∃ found, p = .commit found)) :
    Inv reqs { phase := Function.update c.phase i p, state := (reqs i).write out c.state r } := by
  have hcommitted := write_committed (reqs i) out c.state r
  refine h.move (fun k => ?_) (by rw [hcommitted]; exact List.Subset.refl _) ?_ ?_ (.inl hp)
    fun found hf => absurd hf (hi found)
  · rcases write_slot (reqs i) out c.state r k with hsame | ⟨hk, hnew⟩
    · exact .inl hsame
    · refine .inr ⟨hk, fun r' hr' => ?_⟩
      rw [hnew] at hr'
      cases hr'
      rw [hcommitted]
      exact hr
  · rw [write_row, hcommitted]
    exact h.row
  · rw [hcommitted]
    exact hfound

/-- The payment commits, with the row of its key. -/
theorem Inv.commits (h : Inv reqs c) {i : ℕ} (found : Bool) {row : IdempotencyKey (Produced R)}
    (hrow : row.response_body.producer = i) :
    Inv reqs { phase := Function.update c.phase i .finish
               state := { c.state with
                 row := WithdrawRequest.upsert found c.state.row (some row)
                 committed := i :: c.state.committed } } := by
  refine h.move (fun _ => .inl rfl) (fun j hj => List.mem_cons_of_mem i hj) (fun existing hex => ?_)
    (fun r hr => hr.elim nofun nofun) (.inl ⟨nofun, nofun⟩) fun _ _ => .inl List.mem_cons_self
  change WithdrawRequest.upsert found c.state.row (some row) = some existing at hex
  unfold WithdrawRequest.upsert at hex
  split_ifs at hex
  · cases hex
    rw [hrow]
    exact List.mem_cons_self
  · cases hold : c.state.row with
    | none =>
        rw [hold] at hex
        cases hex
        rw [hrow]
        exact List.mem_cons_self
    | some old =>
        rw [hold] at hex
        have heq : old = existing := Option.some.inj hex
        rw [← heq]
        exact List.mem_cons_of_mem i (h.row old hold)

/-- The request has left, and the sentinel is cleared. -/
theorem Inv.releases (h : Inv reqs c) {i : ℕ} (hi : ∀ found, c.phase i ≠ .commit found) :
    Inv reqs { phase := Function.update c.phase i .failed
               state := (reqs i).setSlot c.state
                 (IdempotencyStore.release (c.state.slot (reqs i).cache)) } := by
  refine h.move (fun k => ?_) (List.Subset.refl _) h.row (fun r hr => hr.elim nofun nofun) (.inr ?_)
    fun found hf => absurd hf (hi found)
  · rcases setSlot_slot (reqs i) c.state
      (IdempotencyStore.release (c.state.slot (reqs i).cache)) k with hsame | ⟨hk, hnew⟩
    · exact .inl hsame
    · by_cases hentry : c.state.slot (reqs i).cache = some .processing
      · refine .inr ⟨hk, fun r hr => ?_⟩
        rw [hnew, hentry] at hr
        cases hr
      · have hsame := IdempotencyStore.release_of_ne hentry
        exact .inl (hnew.trans (hsame.trans (congrArg c.state.slot hk.symm)))
  · show Function.update c.state.slot (reqs i).cache _ (reqs i).cache ≠ _
    rw [Function.update_self]
    exact release_ne_processing _

theorem Inv.expire (h : Inv reqs c) (k : ℕ) : Inv reqs (c.expire k) := by
  have hslot : ∀ k' entry, (c.expire k).state.slot k' = some entry → c.state.slot k' = some entry := by
    intro k' entry hentry
    by_cases hk : k' = k
    · have hnone : (c.expire k).state.slot k' = none := by
        rw [hk]
        exact Function.update_self ..
      rw [hnone] at hentry
      cases hentry
    · exact (Function.update_of_ne hk ..).symm.trans hentry
  exact ⟨fun k' r hr => h.cached k' r (hslot k' _ hr), h.row, h.found,
    fun k' hk' => h.held k' (hslot k' _ hk')⟩

theorem ne_commit {i : ℕ} {p : HubPhase R} (hp : c.phase i = p) (hcommitting : p.committing = false) :
    ∀ found, c.phase i ≠ .commit found := by
  intro found hf
  rw [← hp, hf] at hcommitting
  cases hcommitting

/-- A request that is not before its commit has nothing to lose. -/
theorem Inv.advances (h : Inv reqs c) {i : ℕ} {p : HubPhase R} (hi : ∀ found, c.phase i ≠ .commit found)
    (hp : p ≠ .reserve ∧ p ≠ .failed) (hsilent : ∀ r, p ≠ .replay r ∧ p ≠ .answered true r) :
    Inv reqs { phase := Function.update c.phase i p, state := c.state } := by
  refine h.goOn hp (fun r hr => ?_) fun found hf => absurd hf (hi found)
  rcases hr with hr | hr
  · exact absurd hr (hsilent r).1
  · exact absurd hr (hsilent r).2

theorem Inv.replays (h : Inv reqs c) {i : ℕ} (hi : ∀ found, c.phase i ≠ .commit found) {r : Produced R}
    (hr : r.producer ∈ c.state.committed) :
    Inv reqs { phase := Function.update c.phase i (.replay r), state := c.state } := by
  refine h.goOn ⟨nofun, nofun⟩ (fun r' hr' => ?_) fun found hf => absurd hf (hi found)
  rcases hr' with hr' | hr'
  · cases hr'
    exact hr
  · cases hr'

theorem Inv.answers (h : Inv reqs c) {i : ℕ} (hi : ∀ found, c.phase i ≠ .commit found) {stored : Bool}
    {r : Produced R} (hr : stored = true → r.producer ∈ c.state.committed) :
    Inv reqs { phase := Function.update c.phase i (.answered stored r), state := c.state } := by
  refine h.goOn ⟨nofun, nofun⟩ (fun r' hr' => ?_) fun found hf => absurd hf (hi found)
  rcases hr' with hr' | hr'
  · cases hr'
  · cases hr'
    exact hr rfl

/-- An exception was raised. -/
theorem Inv.raises (h : Inv reqs c) {i : ℕ} (hi : ∀ found, c.phase i ≠ .commit found) :
    Inv reqs { phase := Function.update c.phase i .releasing, state := c.state } :=
  h.advances hi ⟨nofun, nofun⟩ fun _ => ⟨nofun, nofun⟩

/-- **The step lemma.** -/
theorem Inv.step (h : Inv reqs c) {i : ℕ} {out : HubOutcome} (hmeets : Meets reqs c i out) :
    Inv reqs (c.step reqs i out) := by
  unfold Meets at hmeets
  unfold HubConfig.step
  cases hp : c.phase i with
  | reserve =>
      have hi := ne_commit hp rfl
      rw [hp] at hmeets
      simp only [HubRequest.step]
      split
      · exact h.raises hi
      · split
        · exact h.acquire hi
        · next entry hentry =>
            split
            · exact h.advances hi ⟨nofun, nofun⟩ fun _ => ⟨nofun, nofun⟩
            · next hredis =>
                split
                · exact h.raises hi
                · exact h.replays hi
                    (h.committed_of_settled (hmeets (Bool.eq_false_iff.mpr hredis)) hentry)
  | get =>
      have hi := ne_commit hp rfl
      rw [hp] at hmeets
      simp only [HubRequest.step]
      split
      · exact h.raises hi
      · split
        · exact h.raises hi
        · next r hentry => exact h.replays hi (h.committed_of_settled hmeets hentry)
        · exact h.advances hi ⟨nofun, nofun⟩ fun _ => ⟨nofun, nofun⟩
  | retry =>
      have hi := ne_commit hp rfl
      simp only [HubRequest.step]
      split
      · exact h.raises hi
      · split
        · exact h.acquire hi
        · exact h.raises hi
  | checkDb =>
      have hi := ne_commit hp rfl
      simp only [HubRequest.step]
      split
      · exact h.raises hi
      · split
        · exact h.advances hi ⟨nofun, nofun⟩ fun _ => ⟨nofun, nofun⟩
        · next r hcached =>
            obtain ⟨existing, hrow, rfl⟩ := cached_of_checkDb hcached
            have hc := h.row existing hrow
            have hfound : ∀ r', HubPhase.replay existing.response_body = .replay r' ∨
                HubPhase.replay existing.response_body = .answered true r' →
                r'.producer ∈ c.state.committed := by
              rintro r' (hr' | hr')
              · cases hr'
                exact hc
              · cases hr'
            exact h.writes (p := .replay existing.response_body) hi ⟨nofun, nofun⟩ out hfound (.inl hc)
        · exact h.raises hi
        · exact h.raises hi
  | replay r =>
      have hi := ne_commit hp rfl
      simp only [HubRequest.step]
      split
      · exact h.raises hi
      · exact h.answers hi fun _ => h.found i r (.inl hp)
  | route =>
      have hi := ne_commit hp rfl
      simp only [HubRequest.step]
      split
      · exact h.raises hi
      · split
        · exact h.advances hi ⟨nofun, nofun⟩ fun _ => ⟨nofun, nofun⟩
        · exact h.advances hi ⟨nofun, nofun⟩ fun _ => ⟨nofun, nofun⟩
  | store =>
      have hi := ne_commit hp rfl
      simp only [HubRequest.step]
      split
      · exact h.raises hi
      · exact h.advances hi ⟨nofun, nofun⟩ fun _ => ⟨nofun, nofun⟩
  | cache found =>
      have hfound : ∀ r, (HubPhase.commit found : HubPhase R) = .replay r ∨
          (HubPhase.commit found : HubPhase R) = .answered true r → r.producer ∈ c.state.committed :=
        fun r hr => hr.elim nofun nofun
      exact h.writes (p := .commit found) (ne_commit hp rfl) ⟨nofun, nofun⟩ out hfound
        (.inr ⟨rfl, found, rfl⟩)
  | commit found =>
      -- the one phase in which the cache may have the response of a payment that is not there yet
      rw [hp] at hmeets
      simp only [HubRequest.step]
      split
      · next hraises =>
          exact h.goOn ⟨nofun, nofun⟩ (fun r hr => hr.elim nofun nofun) fun _ _ r hr =>
            hmeets hraises r (response?_eq hr)
      · exact h.commits found rfl
  | finish =>
      have hi := ne_commit hp rfl
      simp only [HubRequest.step]
      split
      · exact h.raises hi
      · exact h.answers hi nofun
  | releasing =>
      rw [hp] at hmeets
      simp only [HubRequest.step]
      split
      · next hfails => exact absurd (hmeets hfails.1) hfails.2
      · exact h.releases (ne_commit hp rfl)
  | answered stored r =>
      refine h.answers (ne_commit hp rfl) fun hstored => h.found i r (.inr ?_)
      rw [hp, hstored]
  | duplicate => exact h.advances (ne_commit hp rfl) ⟨nofun, nofun⟩ fun _ => ⟨nofun, nofun⟩
  | failed =>
      have hsame : Function.update c.phase i .failed = c.phase := by
        rw [← hp, Function.update_eq_self]
      simp only [HubRequest.step]
      rw [hsame]
      exact h

/-- The run lemma. -/
theorem inv_of_reaches (h : Reaches reqs (Meets reqs) c) : Inv reqs c := by
  induction h with
  | refl => exact inv_start
  | step i out _ hmeets ih => exact ih.step hmeets
  | expire k _ ih => exact ih.expire k

/-- When all requests so far were rolled back, nothing is left of the key. -/
theorem Inv.vacant (h : Inv reqs c) (hcommitted : c.state.committed = [])
    (hleft : ∀ j, c.phase j = .reserve ∨ c.phase j = .failed) (k : ℕ) :
    c.state.slot k = none ∧ c.state.row = none := by
  constructor
  · cases hslot : c.state.slot k with
    | none => rfl
    | some entry =>
        cases entry with
        | processing =>
            obtain ⟨j, -, hreserve, hfailed⟩ := h.held k hslot
            exact absurd (hleft j) (not_or.mpr ⟨hreserve, hfailed⟩)
        | response r =>
            rcases h.cached k r hslot with hc | ⟨-, found, hphase⟩
            · rw [hcommitted] at hc
              cases hc
            · have hor := hleft r.producer
              rw [hphase] at hor
              exact hor.elim nofun nofun
  · cases hrow : c.state.row with
    | none => rfl
    | some existing =>
        have hc := h.row existing hrow
        rw [hcommitted] at hc
        cases hc

/-- A request that finds the cache free takes it. -/
theorem step_reserve {i : ℕ} (hi : c.phase i = .reserve) (hslot : c.state.slot (reqs i).cache = none) :
    c.step reqs i .ok =
      { phase := Function.update c.phase i .checkDb
        state := (reqs i).setSlot c.state (some .processing) } := by
  unfold HubConfig.step
  rw [hi]
  simp only [HubRequest.step, hslot]
  rfl

/-- A request that finds no row of the key goes on. -/
theorem step_checkDb {i : ℕ} (hi : c.phase i = .checkDb) (hrow : c.state.row = none) :
    (c.step reqs i .ok).phase i = .route := by
  have hdb : IdempotencyStore.checkDb c.state.row (some (reqs i).request_hash) = .reserved :=
    IdempotencyStore.checkDb_eq_reserved.mpr hrow
  unfold HubConfig.step
  dsimp only
  rw [Function.update_self, hi]
  simp only [HubRequest.step]
  rw [if_neg nofun, hdb]

theorem Inv.honest (h : Inv reqs c) : Honest reqs c := by
  constructor
  · intro i r hr
    exact h.found i r (.inr hr)
  · intro hcommitted hleft i hi
    obtain ⟨hslot, hrow⟩ := h.vacant hcommitted hleft (reqs i).cache
    rw [step_reserve hi hslot]
    apply step_checkDb
    · exact Function.update_self ..
    · exact hrow

/-- **When a replay is honest**: when no request looks into a cache between the write of another request
and its commit, no commit fails while the cache has its response, and `release` does not fail. -/
theorem replays_honest (h : Reaches reqs (Meets reqs) c) : Honest reqs c := (inv_of_reaches h).honest

section Runs

/-- Let requests make steps. -/
def run (reqs : ℕ → HubRequest R) (schedule : List (ℕ × HubOutcome)) (c : HubConfig R) : HubConfig R :=
  schedule.foldl (fun c s => c.step reqs s.1 s.2) c

/-- Does every step of a schedule meet the condition? -/
def passes (reqs : ℕ → HubRequest R) : List (ℕ × HubOutcome) → HubConfig R → Bool
  | [], _ => true
  | s :: schedule, c => Meets reqs c s.1 s.2 && passes reqs schedule (c.step reqs s.1 s.2)

theorem reaches_run {c₀ : HubConfig R} {schedule : List (ℕ × HubOutcome)}
    (h : Reaches reqs (Meets reqs) c₀) (hpasses : passes reqs schedule c₀ = true) :
    Reaches reqs (Meets reqs) (run reqs schedule c₀) := by
  induction schedule generalizing c₀ with
  | nil => exact h
  | cons s schedule ih =>
      obtain ⟨hs, hrest⟩ := Bool.and_eq_true_iff.mp hpasses
      exact ih (.step s.1 s.2 h (of_decide_eq_true hs)) hrest

theorem reaches_any {c₀ : HubConfig R} (schedule : List (ℕ × HubOutcome))
    (h : Reaches reqs (fun _ _ _ => True) c₀) :
    Reaches reqs (fun _ _ _ => True) (run reqs schedule c₀) := by
  induction schedule generalizing c₀ with
  | nil => exact h
  | cons s schedule ih => exact ih (.step s.1 s.2 h trivial)

/-- The same payment, sent again and again. -/
def paidAgain (_ : ℕ) : HubRequest ℕ := { request_hash := "a", response := 200 }

/-- The first request fails before its response is stored, the second pays, and the third is answered with
what the second has paid. -/
def rolledBackFirst : List (ℕ × HubOutcome) :=
  [(0, .ok), (0, .ok), (0, .raises), (0, .ok), (1, .ok), (1, .ok), (1, .ok), (1, .ok), (1, .ok), (1, .ok),
    (1, .ok), (2, .ok), (2, .ok), (2, .ok)]

theorem replays_honest_retried : Honest paidAgain (run paidAgain rolledBackFirst {}) :=
  replays_honest (reaches_run .refl (by decide +kernel))

/-- The commit of the first request fails when its response is in the cache, and the second request is
answered with it. -/
theorem replayed_uncommitted : ¬∀ (reqs : ℕ → HubRequest ℕ) (c : HubConfig ℕ),
    Reaches reqs (fun _ _ _ => True) c → Honest reqs c := by
  intro h
  have hhonest := h paidAgain _ (reaches_any [(0, .ok), (0, .ok), (0, .ok), (0, .ok), (0, .ok),
    (0, .raises), (0, .ok), (1, .ok), (1, .ok), (1, .ok)] .refl)
  have hmem := hhonest.replayed 1 ⟨0, 200⟩ (by decide +kernel)
  exact absurd hmem (by decide +kernel)

end Runs

end HubConfig

end Sthrip
