import Sthrip.Txn.Interleave

set_option autoImplicit false

/-! # Proving an invariant of all interleavings, one program at a time

A proof about interleaved sessions fixes an invariant of the store and checks each program on
its own: `Prog.safe` walks down the program, and at every statement the store may be any one
that satisfies the invariant and still has the committed versions of the rows the session has
locked. Nothing else is remembered about the database between two statements, because the
other sessions may have changed it. The obligation is at the commit: the invariant must hold
again.

Threads may carry a *ghost*: a value `γ i` of their own that the invariant can speak of (that
thread `i` holds a reservation, say). A statement may change the ghost of its own thread only.

`Config.invariant` is the soundness theorem: if every thread's program is safe, the invariant
holds in every configuration every run reaches.
-/

namespace Txn

variable {S : Schema} {α β G : Type}

/-! ## What a statement can do -/

/-- The session's locked rows are committed as they were when it locked them. -/
def Session.Agrees (σ : Session S) (db : DB S) : Prop :=
  ∀ k h, σ.held k = some h → db.rows k = h.base

namespace Session

theorem start_agrees (db : DB S) : (start : Session S).Agrees db := by
  intro k h hk
  cases hk

theorem base_of_agrees {σ : Session S} {db : DB S} (h : σ.Agrees db) (k : S.Key) :
    σ.base db k = db.rows k := by
  unfold base
  cases hk : σ.held k with
  | none => rfl
  | some hd => exact (h k hd hk).symm

theorem view_of_not_held {σ : Session S} {k : S.Key} (h : σ.held k = none) (db : DB S) :
    σ.view db k = db.rows k := by
  simp [view, h]

theorem view_of_held {σ : Session S} {k : S.Key} {hd : Held (S.Row k)}
    (h : σ.held k = some hd) (db : DB S) : σ.view db k = hd.own := by
  simp [view, h]

@[simp] theorem load_held (σ : Session S) (db : DB S) (k : S.Key) :
    (σ.load db k).held = σ.held := by
  unfold load
  split <;> rfl

@[simp] theorem load_created (σ : Session S) (db : DB S) (k : S.Key) :
    (σ.load db k).created = σ.created := by
  unfold load
  split <;> rfl

@[simp] theorem load_inserted (σ : Session S) (db : DB S) (k : S.Key) :
    (σ.load db k).inserted = σ.inserted := by
  unfold load
  split <;> rfl

@[simp] theorem touch_held (σ : Session S) (k : S.Key) (f : S.Row k → S.Row k) :
    (σ.touch k f).held = σ.held := rfl

@[simp] theorem touch_created (σ : Session S) (k : S.Key) (f : S.Row k → S.Row k) :
    (σ.touch k f).created = σ.created := rfl

@[simp] theorem touch_inserted (σ : Session S) (k : S.Key) (f : S.Row k → S.Row k) :
    (σ.touch k f).inserted = σ.inserted := rfl

theorem lock_of_view {σ : Session S} {db : DB S} {k : S.Key} {r : S.Row k}
    (h : σ.view db k = some r) : σ.lock db k = σ.write db k r := by
  simp only [lock, write, h]

theorem lock_of_no_view {σ : Session S} {db : DB S} {k : S.Key} (h : σ.view db k = none) :
    σ.lock db k = σ := by
  simp only [lock, h]

@[simp] theorem lock_created (σ : Session S) (db : DB S) (k : S.Key) :
    (σ.lock db k).created = σ.created := by
  unfold lock
  split <;> rfl

@[simp] theorem lock_inserted (σ : Session S) (db : DB S) (k : S.Key) :
    (σ.lock db k).inserted = σ.inserted := by
  unfold lock
  split <;> rfl

@[simp] theorem lock_loaded (σ : Session S) (db : DB S) (k : S.Key) :
    (σ.lock db k).loaded = σ.loaded := by
  unfold lock
  split <;> rfl

@[simp] theorem write_inserted (σ : Session S) (db : DB S) (k : S.Key) (r : S.Row k) :
    (σ.write db k r).inserted = σ.inserted := rfl

@[simp] theorem write_created (σ : Session S) (db : DB S) (k : S.Key) (r : S.Row k) :
    (σ.write db k r).created = σ.created := rfl

@[simp] theorem write_loaded (σ : Session S) (db : DB S) (k : S.Key) (r : S.Row k) :
    (σ.write db k r).loaded = σ.loaded := rfl

@[simp] theorem write_held_self (σ : Session S) (db : DB S) (k : S.Key) (r : S.Row k) :
    (σ.write db k r).held k = some ⟨σ.base db k, some r⟩ := by
  simp [write]

theorem write_held_ne (σ : Session S) (db : DB S) {k k' : S.Key} (r : S.Row k) (h : k' ≠ k) :
    (σ.write db k r).held k' = σ.held k' := by
  simp [write, Function.update_of_ne h]

/-- Locking changes no row the session sees. -/
@[simp] theorem lock_view (σ : Session S) (db : DB S) (k k' : S.Key) :
    (σ.lock db k).view db k' = σ.view db k' := by
  cases hv : σ.view db k with
  | none => rw [lock_of_no_view hv]
  | some r =>
      rw [lock_of_view hv]
      by_cases hk : k' = k
      · subst hk
        rw [view_of_held (write_held_self ..), hv]
      · simp only [view, write_held_ne σ db r hk]

end Session

/-- The rows a session holds after it got the lock of `k`: those it held, with the same base,
and perhaps `k`, as committed. -/
private theorem held_of_update {σ : Session S} {db : DB S} {k k' : S.Key} {own : Option (S.Row k)}
    {h : Held (S.Row k')}
    (hk : Function.update σ.held k (some ⟨σ.base db k, own⟩) k' = some h) :
    (∃ h₀, σ.held k' = some h₀ ∧ h₀.base = h.base) ∨
      (σ.held k' = none ∧ k' = k ∧ h.base = db.rows k') := by
  by_cases hkk : k' = k
  · subst hkk
    rw [Function.update_self, Option.some.injEq] at hk
    subst hk
    cases h₀ : σ.held k' with
    | none => exact .inr ⟨rfl, rfl, by simp [Session.base, h₀]⟩
    | some h₀' => exact .inl ⟨h₀', rfl, by simp [Session.base, h₀]⟩
  · rw [Function.update_of_ne hkk] at hk
    exact .inl ⟨h, hk, rfl⟩

/-- After a statement, a session holds rows it held before or the one row it had to lock. -/
theorem Stmt.held_exec (s : Stmt S) (x : Input S) (st : Store S) (σ : Session S) (k : S.Key)
    {h : Held (S.Row k)} (hk : (s.exec x st σ).2.2.held k = some h) :
    (∃ h₀, σ.held k = some h₀ ∧ h₀.base = h.base) ∨
      (σ.held k = none ∧ s.needs st.db σ = some k ∧ h.base = st.db.rows k) := by
  have keep : ∀ {σ' : Session S}, σ'.held = σ.held → σ'.held k = some h →
      (∃ h₀, σ.held k = some h₀ ∧ h₀.base = h.base) ∨
        (σ.held k = none ∧ s.needs st.db σ = some k ∧ h.base = st.db.rows k) := by
    intro σ' he hk'
    exact .inl ⟨h, he ▸ hk', rfl⟩
  have take : ∀ {k₀ : S.Key} {own : Option (S.Row k₀)}, s.needs st.db σ = some k₀ →
      Function.update σ.held k₀ (some ⟨σ.base st.db k₀, own⟩) k = some h →
      (∃ h₀, σ.held k = some h₀ ∧ h₀.base = h.base) ∨
        (σ.held k = none ∧ s.needs st.db σ = some k ∧ h.base = st.db.rows k) := by
    intro k₀ own hn hk'
    rcases held_of_update hk' with hold | ⟨hnone, hkk, hb⟩
    · exact .inl hold
    · exact .inr ⟨hnone, by rw [hn, hkk], hb⟩
  cases s with
  | now => exact keep rfl hk
  | ask => exact keep rfl hk
  | select k₀ => exact keep (Session.load_held ..) hk
  | selectForUpdate k₀ =>
      simp only [exec, Session.load_held] at hk
      cases hv : σ.view st.db k₀ with
      | none =>
          rw [Session.lock_of_no_view hv] at hk
          exact keep rfl hk
      | some r =>
          rw [Session.lock_of_view hv] at hk
          exact take (by simp [needs, hv]) hk
  | scan p => exact keep rfl hk
  | update k₀ guard set =>
      simp only [exec] at hk
      split at hk
      · next r hv =>
          split at hk
          · next hg => exact take (by simp [needs, hv, hg]) hk
          · exact keep rfl hk
      · exact keep rfl hk
  | assign k₀ set =>
      simp only [exec] at hk
      split at hk
      · next hv => exact take (by simp [needs, hv]) hk
      · exact keep rfl hk
  | create k₀ row =>
      simp only [exec] at hk
      split at hk
      · exact keep rfl hk
      · next hv => exact take (by simp [needs, hv]) hk
  | insert e => exact keep rfl hk
  | expireAll => exact keep rfl hk
  | call op => exact keep rfl hk
  | commit =>
      simp only [exec] at hk
      split at hk <;> cases hk
  | rollback => cases hk

/-- What holds of every session a program builds: it sees the rows it holds, and the rows it
created are those it holds without a committed version. -/
structure Session.Sound (σ : Session S) : Prop where
  nodup : σ.created.Nodup
  created : ∀ k, k ∈ σ.created ↔ ∃ h, σ.held k = some h ∧ h.base = none
  own : ∀ k h, σ.held k = some h → h.own.isSome

namespace Session.Sound

variable {σ : Session S} {db : DB S}

theorem start : (Session.start : Session S).Sound :=
  ⟨List.nodup_nil, fun k => by simp [Session.start], fun k h hk => by cases hk⟩

theorem congr {σ' : Session S} (h : σ.Sound) (hheld : σ'.held = σ.held)
    (hcreated : σ'.created = σ.created) : σ'.Sound :=
  ⟨hcreated ▸ h.nodup, fun k => by rw [hcreated, hheld, h.created],
    fun k hd hk => h.own k hd (hheld ▸ hk)⟩

/-- Writing a row that is there. -/
theorem write (h : σ.Sound) {k : S.Key} {r : S.Row k} (hv : σ.view db k = some r)
    (row : S.Row k) : (σ.write db k row).Sound := by
  refine ⟨h.nodup, fun k' => ?_, fun k' hd hk' => ?_⟩
  · rw [write_created, h.created]
    by_cases hkk : k' = k
    · subst hkk
      rw [write_held_self]
      cases hd : σ.held k' with
      | none =>
          rw [view_of_not_held hd] at hv
          simp [base, hd, hv]
      | some h₀ => simp [base, hd]
    · rw [write_held_ne _ _ _ hkk]
  · by_cases hkk : k' = k
    · subst hkk
      rw [write_held_self, Option.some.injEq] at hk'
      exact hk' ▸ rfl
    · rw [write_held_ne _ _ _ hkk] at hk'
      exact h.own k' hd hk'

/-- Writing a row that is not there yet. -/
theorem create (h : σ.Sound) {k : S.Key} (hv : σ.view db k = none) (row : S.Row k)
    {σ' : Session S} (hheld : σ'.held = (σ.write db k row).held)
    (hcreated : σ'.created = σ.created ++ [k]) : σ'.Sound := by
  have hnone : σ.held k = none := by
    cases hd : σ.held k with
    | none => rfl
    | some h₀ =>
        have := h.own k h₀ hd
        rw [view_of_held hd] at hv
        simp [hv] at this
  rw [view_of_not_held hnone] at hv
  refine ⟨?_, fun k' => ?_, fun k' hd hk' => ?_⟩
  · rw [hcreated]
    refine List.nodup_append.mpr ⟨h.nodup, List.pairwise_singleton _ k, ?_⟩
    rintro a ha b hb rfl
    rw [List.mem_singleton.mp hb, h.created, hnone] at ha
    simp at ha
  · rw [hcreated, hheld, List.mem_append, List.mem_singleton, h.created]
    by_cases hkk : k' = k
    · subst hkk
      rw [write_held_self]
      simp [base, hnone, hv]
    · rw [write_held_ne _ _ _ hkk]
      simp [hkk]
  · rw [hheld] at hk'
    by_cases hkk : k' = k
    · subst hkk
      rw [write_held_self, Option.some.injEq] at hk'
      exact hk' ▸ rfl
    · rw [write_held_ne _ _ _ hkk] at hk'
      exact h.own k' hd hk'

theorem lock (h : σ.Sound) (k : S.Key) : (σ.lock db k).Sound := by
  cases hv : σ.view db k with
  | none => rwa [lock_of_no_view hv]
  | some r => rw [lock_of_view hv]; exact h.write hv r

/-- A commit keeps the table of primary keys in order. -/
theorem apply_wf (h : σ.Sound) (ha : σ.Agrees db) (hdb : db.WF) : (db.apply σ).WF := by
  have hcr : ∀ k, k ∈ σ.created → db.rows k = none := by
    intro k hk
    obtain ⟨hd, hh, hb⟩ := (h.created k).mp hk
    rw [ha k hd hh, hb]
  refine ⟨List.nodup_append.mpr ⟨hdb.nodup, h.nodup, ?_⟩, fun k => ?_⟩
  · rintro a hdb' b hb rfl
    rw [hdb.mem_keys, hcr a hb] at hdb'
    cases hdb'
  · show k ∈ db.keys ++ σ.created ↔ (σ.view db k).isSome
    rw [List.mem_append, hdb.mem_keys, h.created]
    cases hd : σ.held k with
    | none => simp [view_of_not_held hd]
    | some h₀ =>
        rw [view_of_held hd, ha k h₀ hd]
        have := h.own k h₀ hd
        cases hb : h₀.base <;> simp [hb, this]

end Session.Sound

theorem Stmt.sound_exec (s : Stmt S) (x : Input S) (st : Store S) {σ : Session S}
    (h : σ.Sound) : (s.exec x st σ).2.2.Sound := by
  cases s with
  | select k => exact h.congr (Session.load_held ..) (Session.load_created ..)
  | selectForUpdate k =>
      exact (h.lock k).congr (Session.load_held ..) (Session.load_created ..)
  | update k guard set =>
      simp only [exec]
      split
      · next hv =>
          split
          · exact (h.write hv _).congr rfl rfl
          · exact h.congr rfl rfl
      · exact h.congr rfl rfl
  | assign k set =>
      simp only [exec]
      split
      · next hv => exact (h.write hv _).congr rfl rfl
      · exact h
  | create k row =>
      simp only [exec]
      split
      · exact h
      · next hv => exact h.create hv row rfl rfl
  | commit =>
      simp only [exec]
      split <;> exact .start
  | rollback => exact .start
  | _ => exact h.congr rfl rfl

/-- Only a commit changes the database, and only in the rows the session holds. -/
theorem Stmt.db_exec (s : Stmt S) (x : Input S) (st : Store S) (σ : Session S) :
    (s.exec x st σ).2.1.db = st.db ∨
      ((s.exec x st σ).2.1.db = st.db.apply σ ∧ (s.exec x st σ).2.2 = Session.start) := by
  cases s with
  | update k guard set =>
      simp only [exec]
      split
      · split <;> exact .inl rfl
      · exact .inl rfl
  | assign k set =>
      simp only [exec]
      split <;> exact .inl rfl
  | create k row =>
      simp only [exec]
      split <;> exact .inl rfl
  | commit =>
      simp only [exec]
      split
      · exact .inr ⟨rfl, rfl⟩
      · exact .inl rfl
  | _ => exact .inl rfl

/-! ## The obligation of a program -/

/-- What a proof fixes: the invariant of the store and the ghosts, and the statements a run may
execute. -/
structure Protocol (S : Schema) (G : Type) where
  Inv : Store S → (ℕ → G) → Prop
  Ok : Store S → Session S → Stmt S → Input S → Prop

/-- What thread `i`, in session `σ` with ghost `g`, knows of the store. -/
structure Protocol.Sees (P : Protocol S G) (i : ℕ) (σ : Session S) (g : G) (st : Store S)
    (γ : ℕ → G) : Prop where
  inv : P.Inv st γ
  ghost : γ i = g
  agrees : σ.Agrees st.db
  sound : σ.Sound
  wf : st.db.WF

/-- Thread `i` can run the program from session `σ` and ghost `g` without breaking the
invariant; it returns in a state that satisfies `Q`, or raises in one that satisfies `R`. -/
def Prog.safe (P : Protocol S G) (i : ℕ) : Prog S α → (α → Session S → G → Prop) →
    (S.Err → Session S → G → Prop) → Session S → G → Prop
  | .ret a, Q, _, σ, g => Q a σ g
  | .raise e, _, R, σ, g => R e σ g
  | .step s next, Q, R, σ, g => ∀ st γ x, P.Sees i σ g st γ → P.Ok st σ s x →
      ∃ g', P.Inv (s.exec x st σ).2.1 (Function.update γ i g') ∧
        (next (s.exec x st σ).1).safe P i Q R (s.exec x st σ).2.2 g'

/-! ## Soundness -/

namespace Config

/-- The lock table lists exactly the rows the sessions hold, and the sessions agree with the
database. -/
structure Consistent (c : Config S α) : Prop where
  locks : ∀ i k, ((c.sess i).held k).isSome ↔ c.locks k = some i
  agrees : ∀ i, (c.sess i).Agrees c.store.db
  sound : ∀ i, (c.sess i).Sound
  wf : c.store.db.WF

theorem start_consistent {st : Store S} (h : st.db.WF) (p : ℕ → Prog S α) :
    (start st p).Consistent where
  locks i k := by simp [start, Session.start]
  agrees i := Session.start_agrees _
  sound i := .start
  wf := h

/-- The lock table after a step, when the stepping thread only took free locks. -/
private theorem relock_iff {locks : S.Key → Option ℕ} {i : ℕ} {σ σ' : Session S}
    {sess : ℕ → Session S} (hσ : sess i = σ)
    (h : ∀ j k, ((sess j).held k).isSome ↔ locks k = some j)
    (hfree : ∀ k, (σ'.held k).isSome → locks k = none ∨ locks k = some i) (j : ℕ) (k : S.Key) :
    ((Function.update sess i σ' j).held k).isSome ↔ relock locks i σ' k = some j := by
  unfold relock
  by_cases hji : j = i
  · subst hji
    rw [Function.update_self]
    by_cases hk : (σ'.held k).isSome
    · simp [hk]
    · simp only [hk, if_false, Bool.false_eq_true, false_iff]
      split
      · simp
      · next hl => exact hl
  · rw [Function.update_of_ne hji, h j k]
    have hij : i ≠ j := fun e => hji e.symm
    by_cases hk : (σ'.held k).isSome
    · rcases hfree k hk with hl | hl <;> simp [hk, hl, hij]
    · by_cases hl : locks k = some i <;> simp [hk, hl, hij]

theorem exec_consistent {c c' : Config S α} {i : ℕ} {x : Input S} (h : c.Consistent)
    (hc : c.exec i x = some c') : c'.Consistent := by
  unfold exec at hc
  split at hc
  · next s next hp =>
      split at hc
      · next hfree =>
          rw [Option.some.injEq] at hc
          subst hc
          -- the rows held after the step were held before or were free
          have hold : ∀ k hd, (s.exec x c.store (c.sess i)).2.2.held k = some hd →
              (c.locks k = some i ∨ c.locks k = none) ∧ c.store.db.rows k = hd.base := by
            intro k hd hk
            rcases s.held_exec x c.store (c.sess i) k hk with ⟨h₀, hh, hb⟩ | ⟨hn, hs, hb⟩
            · exact ⟨.inl ((h.locks i k).mp (by simp [hh])), (h.agrees i k h₀ hh).trans hb⟩
            · rw [hs, Option.all_some] at hfree
              simp only [free, Bool.or_eq_true, beq_iff_eq] at hfree
              exact ⟨hfree.symm, hb.symm⟩
          refine ⟨fun j k => relock_iff rfl h.locks (fun k hk => ?_) j k, fun j => ?_,
            fun j => ?_, ?_⟩
          · obtain ⟨hd, hhd⟩ := Option.isSome_iff_exists.mp hk
            exact (hold k hd hhd).1.symm
          · by_cases hji : j = i
            · subst hji
              simp only [Function.update_self]
              intro k hd hk
              rcases s.db_exec x c.store (c.sess j) with hdb | ⟨-, hst⟩
              · rw [hdb]; exact (hold k hd hk).2
              · rw [hst] at hk; cases hk
            · simp only [Function.update_of_ne hji]
              intro k hd hk
              rcases s.db_exec x c.store (c.sess i) with hdb | ⟨hdb, -⟩
              · rw [hdb]; exact h.agrees j k hd hk
              · -- thread `j` holds `k`, so the committing thread does not
                have hlj : c.locks k = some j := (h.locks j k).mp (by simp [hk])
                have hni : (c.sess i).held k = none := by
                  by_contra hne
                  have := (h.locks i k).mp (Option.isSome_iff_ne_none.mpr hne)
                  rw [hlj, Option.some.injEq] at this
                  exact hji this
                rw [hdb]
                show (c.sess i).view c.store.db k = hd.base
                rw [Session.view_of_not_held hni]
                exact h.agrees j k hd hk
          · by_cases hji : j = i
            · subst hji
              simp only [Function.update_self]
              exact s.sound_exec x _ (h.sound j)
            · simp only [Function.update_of_ne hji]
              exact h.sound j
          · rcases s.db_exec x c.store (c.sess i) with hdb | ⟨hdb, -⟩
            · exact hdb ▸ h.wf
            · exact hdb ▸ (h.sound i).apply_wf (h.agrees i) h.wf
      · cases hc
  · cases hc

theorem crash_consistent {c : Config S α} (h : c.Consistent) (i : ℕ) :
    (c.crash i).Consistent where
  locks j k := relock_iff rfl h.locks (fun k hk => by simp [Session.start] at hk) j k
  agrees j := by
    by_cases hji : j = i
    · subst hji
      simp only [crash, Function.update_self]
      exact Session.start_agrees _
    · simp only [crash, Function.update_of_ne hji]
      exact h.agrees j
  sound j := by
    by_cases hji : j = i
    · subst hji
      simp only [crash, Function.update_self]
      exact .start
    · simp only [crash, Function.update_of_ne hji]
      exact h.sound j
  wf := h.wf

/-- The invariant together with the remaining obligations of the threads. -/
def Holds (P : Protocol S G) (c : Config S α) (γ : ℕ → G) : Prop :=
  P.Inv c.store γ ∧ c.Consistent ∧
    ∀ i, (c.prog i).safe P i (fun _ _ _ => True) (fun _ _ _ => True) (c.sess i) (γ i)

theorem exec_holds {P : Protocol S G} {c c' : Config S α} {γ : ℕ → G} {i : ℕ} {x : Input S}
    {s : Stmt S} {next : s.Res → Prog S α} (h : Holds P c γ) (hp : c.prog i = .step s next)
    (hok : P.Ok c.store (c.sess i) s x) (hc : c.exec i x = some c') :
    ∃ γ', Holds P c' γ' := by
  obtain ⟨hinv, hcons, hsafe⟩ := h
  have hcons' := exec_consistent hcons hc
  have hs := hsafe i
  rw [hp] at hs
  obtain ⟨g', hinv', hnext⟩ := hs c.store γ x
    ⟨hinv, rfl, hcons.agrees i, hcons.sound i, hcons.wf⟩ hok
  unfold exec at hc
  rw [hp] at hc
  simp only at hc
  split at hc
  · rw [Option.some.injEq] at hc
    subst hc
    refine ⟨Function.update γ i g', hinv', hcons', fun j => ?_⟩
    by_cases hji : j = i
    · subst hji
      simpa only [Function.update_self] using hnext
    · simpa only [Function.update_of_ne hji] using hsafe j
  · cases hc

theorem crash_holds {P : Protocol S G} {c : Config S α} {γ : ℕ → G} (h : Holds P c γ) (i : ℕ) :
    Holds P (c.crash i) γ := by
  obtain ⟨hinv, hcons, hsafe⟩ := h
  refine ⟨hinv, crash_consistent hcons i, fun j => ?_⟩
  by_cases hji : j = i
  · subst hji
    simp only [crash, Function.update_self]
    trivial
  · simpa only [crash, Function.update_of_ne hji] using hsafe j

/-- **Soundness.** If the invariant holds at the start and every thread's program is safe, then
the invariant holds in every configuration every run reaches. -/
theorem invariant {P : Protocol S G} {st : Store S} {p : ℕ → Prog S α} {γ : ℕ → G}
    (hst : st.db.WF) (hinv : P.Inv st γ)
    (hsafe : ∀ i, (p i).safe P i (fun _ _ _ => True) (fun _ _ _ => True) Session.start (γ i))
    {c : Config S α} (hc : Reaches P.Ok (start st p) c) : ∃ γ', P.Inv c.store γ' := by
  have hholds : ∃ γ', Holds P c γ' := by
    induction hc with
    | refl => exact ⟨γ, hinv, start_consistent hst p, hsafe⟩
    | exec _ hp hok hx ih =>
        obtain ⟨γ', h⟩ := ih
        exact exec_holds h hp hok hx
    | crash i _ ih =>
        obtain ⟨γ', h⟩ := ih
        exact ⟨γ', crash_holds h i⟩
  obtain ⟨γ', h, -⟩ := hholds
  exact ⟨γ', h⟩

end Config

/-! ## Composing programs -/

namespace Prog

variable {P : Protocol S G} {i : ℕ}

theorem safe_mono {p : Prog S α} {Q Q' : α → Session S → G → Prop}
    {R R' : S.Err → Session S → G → Prop} {σ : Session S} {g : G} (h : p.safe P i Q R σ g)
    (hQ : ∀ a σ g, Q a σ g → Q' a σ g) (hR : ∀ e σ g, R e σ g → R' e σ g) :
    p.safe P i Q' R' σ g := by
  induction p generalizing σ g with
  | ret a => exact hQ _ _ _ h
  | raise e => exact hR _ _ _ h
  | step s next ih =>
      intro st γ x hs hok
      obtain ⟨g', hinv, hnext⟩ := h st γ x hs hok
      exact ⟨g', hinv, ih _ hnext⟩

theorem safe_bind {p : Prog S α} {f : α → Prog S β} {Q : β → Session S → G → Prop}
    {R : S.Err → Session S → G → Prop} {σ : Session S} {g : G}
    (h : p.safe P i (fun a σ g => (f a).safe P i Q R σ g) R σ g) :
    (p.bind f).safe P i Q R σ g := by
  induction p generalizing σ g with
  | ret a => exact h
  | raise e => exact h
  | step s next ih =>
      intro st γ x hs hok
      obtain ⟨g', hinv, hnext⟩ := h st γ x hs hok
      exact ⟨g', hinv, ih _ hnext⟩

theorem safe_tryCatch {p : Prog S α} {h : S.Err → Prog S α} {Q : α → Session S → G → Prop}
    {R : S.Err → Session S → G → Prop} {σ : Session S} {g : G}
    (hp : p.safe P i Q (fun e σ g => (h e).safe P i Q R σ g) σ g) :
    (p.tryCatch h).safe P i Q R σ g := by
  induction p generalizing σ g with
  | ret a => exact hp
  | raise e => exact hp
  | step s next ih =>
      intro st γ x hs hok
      obtain ⟨g', hinv, hnext⟩ := hp st γ x hs hok
      exact ⟨g', hinv, ih _ hnext⟩

/-- A loop over a list: `Inv l` holds with `l` still to do. -/
theorem safe_forEach {γ : Type} {f : γ → Prog S Unit} (Inv : List γ → Session S → G → Prop)
    {R : S.Err → Session S → G → Prop}
    (hf : ∀ a l σ g, Inv (a :: l) σ g → (f a).safe P i (fun _ σ g => Inv l σ g) R σ g)
    (l : List γ) {σ : Session S} {g : G} (h : Inv l σ g) :
    (forEach l f).safe P i (fun _ σ g => Inv [] σ g) R σ g := by
  induction l generalizing σ g with
  | nil => exact h
  | cons a l ih => exact safe_bind (safe_mono (hf a l σ g h) (fun _ _ _ h' => ih h') fun _ _ _ h' => h')

/-- A loop that keeps an invariant, whatever it counts. -/
theorem safe_tally {γ : Type} {f : γ → Prog S Bool} (Inv : Session S → G → Prop)
    {R : S.Err → Session S → G → Prop} (l : List γ)
    (hf : ∀ a σ g, Inv σ g → (f a).safe P i (fun _ σ g => Inv σ g) R σ g)
    {σ : Session S} {g : G} (h : Inv σ g) :
    (tally l f).safe P i (fun _ σ g => Inv σ g) R σ g := by
  induction l generalizing σ g with
  | nil => exact h
  | cons a l ih =>
      refine safe_bind (safe_mono (hf a σ g h) (fun _ σ' g' h' => ?_) fun _ _ _ h' => h')
      exact safe_bind (safe_mono (ih h') (fun _ _ _ h'' => h'') fun _ _ _ h'' => h'')

/-! ## Single statements -/

/-- A statement that leaves the store and the ghost alone. -/
theorem safe_silent {s : Stmt S} {Q : s.Res → Session S → G → Prop}
    {R : S.Err → Session S → G → Prop} {σ : Session S} {g : G}
    (hstore : ∀ x st, (s.exec x st σ).2.1 = st)
    (h : ∀ st γ x, P.Sees i σ g st γ → P.Ok st σ s x →
      Q (s.exec x st σ).1 (s.exec x st σ).2.2 g) :
    (stmt s).safe P i Q R σ g := by
  intro st γ x hs hok
  refine ⟨g, ?_, h st γ x hs hok⟩
  rw [hstore, ← hs.ghost, Function.update_eq_self]
  exact hs.inv

section Statements

variable {R : S.Err → Session S → G → Prop} {σ : Session S} {g : G}

theorem safe_now {Q : ℤ → Session S → G → Prop} (h : ∀ t, Q t σ g) :
    now.safe P i Q R σ g :=
  safe_silent (s := .now) (fun _ _ => rfl) fun _ _ x _ _ => h x.time

theorem safe_select {k : S.Key} {Q : Option (S.Row k) → Session S → G → Prop}
    (h : ∀ st γ, P.Sees i σ g st γ → Q (σ.object st.db k) (σ.load st.db k) g) :
    (select k).safe P i Q R σ g :=
  safe_silent (s := .select k) (fun _ _ => rfl) fun st γ _ hs _ => h st γ hs

theorem safe_selectForUpdate {k : S.Key} {Q : Option (S.Row k) → Session S → G → Prop}
    (h : ∀ st γ x, P.Sees i σ g st γ → P.Ok st σ (.selectForUpdate k) x →
      Q (σ.object st.db k) ((σ.lock st.db k).load st.db k) g) :
    (selectForUpdate k).safe P i Q R σ g :=
  safe_silent (s := .selectForUpdate k) (fun _ _ => rfl) fun st γ x hs hok => h st γ x hs hok

theorem safe_scan {p : (k : S.Key) → S.Row k → Bool} {Q : List S.Key → Session S → G → Prop}
    (h : ∀ st γ l, P.Sees i σ g st γ → l.Perm (σ.matching st.db p) →
      Q l (σ.loadAll st.db l) g) :
    (scan p).safe P i Q R σ g :=
  safe_silent (s := .scan p) (fun _ _ => rfl) fun st γ x hs _ =>
    h st γ _ hs (x.arrange_perm _)

/-- A guarded update either matches, and then locks and changes the row, or does nothing to the
database. In both cases the loaded object follows its own guard. -/
theorem safe_update {k : S.Key} {guard : S.Row k → Bool} {set : S.Row k → S.Row k}
    {Q : Bool → Session S → G → Prop}
    (hit : ∀ st γ x r, P.Sees i σ g st γ → P.Ok st σ (.update k guard set) x →
      σ.view st.db k = some r → guard r = true →
      Q true ((σ.write st.db k (set r)).touch k fun o => if guard o then set o else o) g)
    (miss : ∀ st γ x, P.Sees i σ g st γ → P.Ok st σ (.update k guard set) x →
      (∀ r, σ.view st.db k = some r → guard r = false) →
      Q false (σ.touch k fun o => if guard o then set o else o) g) :
    (update k guard set).safe P i Q R σ g := by
  refine safe_silent (s := .update k guard set) (fun x st => ?_) fun st γ x hs hok => ?_
  · simp only [Stmt.exec]
    split
    · split <;> rfl
    · rfl
  · simp only [Stmt.exec]
    split
    · next r hv =>
        split
        · next hg => exact hit st γ x r hs hok hv hg
        · next hg =>
            refine miss st γ x hs hok fun r' hr' => ?_
            rw [hv, Option.some.injEq] at hr'
            subst hr'
            simpa using hg
    · next hv => exact miss st γ x hs hok fun r' hr' => by rw [hv] at hr'; cases hr'

theorem safe_assign {k : S.Key} {set : S.Row k → S.Row k} {Q : Unit → Session S → G → Prop}
    (hit : ∀ st γ x r, P.Sees i σ g st γ → P.Ok st σ (.assign k set) x →
      σ.view st.db k = some r → Q () ((σ.write st.db k (set r)).touch k set) g)
    (miss : ∀ st γ x, P.Sees i σ g st γ → P.Ok st σ (.assign k set) x →
      σ.view st.db k = none → Q () σ g) :
    (assign k set).safe P i Q R σ g := by
  refine safe_silent (s := .assign k set) (fun x st => ?_) fun st γ x hs hok => ?_
  · simp only [Stmt.exec]
    split <;> rfl
  · simp only [Stmt.exec]
    split
    · next r hv => exact hit st γ x r hs hok hv
    · next hv => exact miss st γ x hs hok hv

theorem safe_create {k : S.Key} {row : S.Row k} {Q : Bool → Session S → G → Prop}
    (hit : ∀ st γ, P.Sees i σ g st γ → σ.view st.db k = none →
      Q true { σ.write st.db k row with
        loaded := Function.update σ.loaded k (some row), created := σ.created ++ [k] } g)
    (miss : ∀ st γ r, P.Sees i σ g st γ → σ.view st.db k = some r → Q false σ g) :
    (create k row).safe P i Q R σ g := by
  refine safe_silent (s := .create k row) (fun x st => ?_) fun st γ x hs _ => ?_
  · simp only [Stmt.exec]
    split <;> rfl
  · simp only [Stmt.exec]
    split
    · next r hv => exact miss st γ r hs hv
    · next hv => exact hit st γ hs hv

theorem safe_insert {e : S.Entry} {Q : Unit → Session S → G → Prop}
    (h : Q () { σ with inserted := σ.inserted ++ [e] } g) :
    (insert e).safe P i Q R σ g :=
  safe_silent (s := .insert e) (fun _ _ => rfl) fun _ _ _ _ _ => h

theorem safe_expireAll {Q : Unit → Session S → G → Prop}
    (h : Q () { σ with loaded := fun _ => none } g) :
    expireAll.safe P i Q R σ g :=
  safe_silent (s := .expireAll) (fun _ _ => rfl) fun _ _ _ _ _ => h

theorem safe_rollback {Q : Unit → Session S → G → Prop} (h : Q () Session.start g) :
    rollback.safe P i Q R σ g :=
  safe_silent (s := .rollback) (fun _ _ => rfl) fun _ _ _ _ _ => h

/-- A query whose answer does not matter: it only loads objects. -/
theorem safe_query_any {p : (k : S.Key) → S.Row k → Bool}
    {Q : List (Σ k, S.Row k) → Session S → G → Prop}
    (h : ∀ l loaded, Q l { σ with loaded := loaded } g) : (query p).safe P i Q R σ g := by
  refine safe_bind (safe_scan fun st γ ks _ _ => ?_)
  have hall : ∀ (ks : List S.Key) (Q : List (Σ k, S.Row k) → Session S → G → Prop) (loaded),
      (∀ l loaded, Q l { σ with loaded := loaded } g) →
      (selectAll ks).safe P i Q R { σ with loaded := loaded } g := by
    intro ks
    induction ks with
    | nil => exact fun Q loaded hQ => hQ [] loaded
    | cons k ks ih =>
        intro Q loaded hQ
        refine safe_bind (safe_select fun st γ _ => safe_bind ?_)
        unfold Session.load
        split
        · exact ih _ _ fun l loaded' => hQ _ loaded'
        · exact ih _ _ fun l loaded' => hQ _ loaded'
  exact hall ks Q _ h

theorem safe_raiseIf {c : Prop} [Decidable c] {e : S.Err} {Q : Unit → Session S → G → Prop}
    (hc : c → R e σ g) (h : ¬c → Q () σ g) : (raiseIf c e).safe P i Q R σ g := by
  unfold raiseIf
  split
  · next h' => exact hc h'
  · next h' => exact h h'

theorem safe_onlyIf {c : Prop} [Decidable c] {p : Prog S α} {Q : Unit → Session S → G → Prop}
    (hc : c → p.safe P i (fun _ σ g => Q () σ g) R σ g) (h : ¬c → Q () σ g) :
    (onlyIf c p).safe P i Q R σ g := by
  unfold onlyIf
  split
  · next h' => exact safe_bind (hc h')
  · next h' => exact h h'

theorem safe_orRaise {e : S.Err} {o : Option α} {Q : α → Session S → G → Prop}
    (hn : o = none → R e σ g) (h : ∀ a, o = some a → Q a σ g) :
    (orRaise e o).safe P i Q R σ g := by
  cases o with
  | none => exact hn rfl
  | some a => exact h a rfl

end Statements

/-! ## Sessions -/

/-- The session may commit: the database it would leave satisfies the invariant, for some new
ghost, and then `Q` holds. -/
def CommitsTo (P : Protocol S G) (i : ℕ) (Q : G → Prop) (σ : Session S) (g : G) : Prop :=
  ∀ st γ x, P.Sees i σ g st γ → P.Ok st σ .commit x → x.choice = 0 →
    ∃ g', P.Inv { st with db := st.db.apply σ } (Function.update γ i g') ∧ Q g'

/-- The exceptional end of a body: its session is rolled back. -/
abbrev Raised : S.Err → Session S → G → Prop := fun _ _ _ => True

/-- A session is safe when its body ends in a session that may commit. Rolling back needs
nothing; the exception of a failed commit leaves the ghost as it was. -/
theorem safe_withSession {p : Prog S α} {Q : α → Session S → G → Prop}
    {R : S.Err → Session S → G → Prop} {g : G}
    (h : p.safe P i
      (fun a σ g => CommitsTo P i (fun g' => Q a Session.start g') σ g ∧
        R S.commitErr Session.start g)
      (fun e _ g => R e Session.start g) Session.start g) :
    p.withSession.safe P i Q R Session.start g := by
  refine safe_tryCatch (safe_bind (safe_mono h (fun a σ g ⟨hc, hr⟩ => ?_)
    fun e σ g hr => safe_bind (safe_rollback hr)))
  refine safe_bind fun st γ x hs hok => ?_
  simp only [Stmt.exec]
  split
  · next hx =>
      obtain ⟨g', hinv, hq⟩ := hc st γ x hs hok hx
      exact ⟨g', hinv, hq⟩
  · refine ⟨g, ?_, safe_bind (safe_rollback hr)⟩
    rw [← hs.ghost, Function.update_eq_self]
    exact hs.inv

end Prog

end Txn
