import Sthrip.Txn.Footprint

set_option autoImplicit false

/-! # What a committed row does not lose

A property of the rows may be lost by some writes and not by others. When no statement of a run
writes a row that its session sees with the property in a way that loses it, then a committed row
that has the property has it from then on (`Config.lasts`). A session that holds a row got it as it
is committed, so that what it sees of the row is what the others see, up to its own writes.
-/

namespace Txn

variable {S : Schema} {α : Type} {P : (k : S.Key) → S.Row k → Prop}

/-- The statement does not write a row so that it loses `P`. -/
def Stmt.Maintains (P : (k : S.Key) → S.Row k → Prop) (st : Store S) (σ : Session S) :
    Stmt S → Prop
  | .update k guard set => ∀ r, σ.view st.db k = some r → guard r = true → P k r → P k (set r)
  | .assign k set => ∀ r, σ.view st.db k = some r → P k r → P k (set r)
  | _ => True

/-- What the session holds of a row that is committed with `P` has `P`. -/
def Session.Maintained (P : (k : S.Key) → S.Row k → Prop) (σ : Session S) : Prop :=
  ∀ k h r, σ.held k = some h → h.base = some r → P k r → ∃ r', h.own = some r' ∧ P k r'

namespace Session

variable {σ σ' : Session S} {db : DB S}

theorem start_maintained : (start : Session S).Maintained P := by
  intro k h r hk
  cases hk

theorem Maintained.congr (h : σ.Maintained P) (hheld : σ'.held = σ.held) :
    σ'.Maintained P := by
  intro k hd r hk
  rw [hheld] at hk
  exact h k hd r hk

theorem Maintained.view (h : σ.Maintained P) {k : S.Key} {r : S.Row k}
    (hr : σ.base db k = some r) (hP : P k r) : ∃ r', σ.view db k = some r' ∧ P k r' := by
  unfold Session.base at hr
  cases hk : σ.held k with
  | none =>
      rw [hk] at hr
      rw [view_of_not_held hk]
      exact ⟨r, hr, hP⟩
  | some hd =>
      rw [hk] at hr
      rw [view_of_held hk]
      exact h k hd r hk hr hP

theorem Maintained.write (h : σ.Maintained P) {k : S.Key} {row : S.Row k}
    (hrow : ∀ r, σ.view db k = some r → P k r → P k row) :
    (σ.write db k row).Maintained P := by
  intro k' hd r hk hbase hP
  by_cases hkk : k' = k
  · subst hkk
    rw [write_held_self, Option.some.injEq] at hk
    subst hk
    -- the row had the property before the write, in the eyes of the session
    obtain ⟨r', hr', hP'⟩ := h.view hbase hP
    exact ⟨row, rfl, hrow r' hr' hP'⟩
  · rw [write_held_ne _ _ _ hkk] at hk
    exact h k' hd r hk hbase hP

theorem Maintained.lock (h : σ.Maintained P) (k : S.Key) : (σ.lock db k).Maintained P := by
  cases hv : σ.view db k with
  | none => rwa [lock_of_no_view hv]
  | some r =>
      rw [lock_of_view hv]
      refine h.write fun r' hr' hP => ?_
      rw [hv, Option.some.injEq] at hr'
      exact hr' ▸ hP

end Session

/-- The step lemma. -/
theorem Stmt.exec_maintained (s : Stmt S) (x : Input S) (st : Store S) {σ : Session S}
    (h : σ.Maintained P) (hs : s.Maintains P st σ) : (s.exec x st σ).2.2.Maintained P := by
  cases s with
  | now => exact h
  | ask => exact h
  | select k => exact h.congr (Session.load_held ..)
  | selectForUpdate k => exact (h.lock k).congr (Session.load_held ..)
  | scan p => exact h.congr rfl
  | update k guard set =>
      simp only [exec]
      split
      · next r hv =>
          split
          · next hg =>
              refine (h.write fun r' hr' hP => ?_).congr (Session.touch_held ..)
              rw [hv, Option.some.injEq] at hr'
              exact hs r hv hg (hr' ▸ hP)
          · exact h.congr rfl
      · exact h.congr rfl
  | assign k set =>
      simp only [exec]
      split
      · next r hv =>
          refine (h.write fun r' hr' hP => ?_).congr (Session.touch_held ..)
          rw [hv, Option.some.injEq] at hr'
          exact hs r hv (hr' ▸ hP)
      · exact h
  | create k row =>
      simp only [exec]
      split
      · exact h
      · next hv =>
          have hwrite : (σ.write st.db k row).Maintained P := by
            refine h.write fun r hr => ?_
            rw [hv] at hr
            cases hr
          exact hwrite.congr rfl
  | insert e => exact h.congr rfl
  | expireAll => exact h.congr rfl
  | call op => exact h
  | commit =>
      simp only [exec]
      split
      · exact Session.start_maintained
      · exact Session.start_maintained
  | rollback => exact Session.start_maintained

namespace Config

/-- The sessions hold what is committed, and what they have made of it has `P` where it had it. -/
structure Maintained (P : (k : S.Key) → S.Row k → Prop) (c : Config S α) : Prop where
  consistent : c.Consistent
  sess : ∀ i, (c.sess i).Maintained P

theorem start_maintained {st : Store S} (h : st.db.WF) (p : ℕ → Prog S α) :
    (start st p).Maintained P where
  consistent := start_consistent h p
  sess _ := Session.start_maintained

variable {c c₀ c' : Config S α} {i : ℕ} {x : Input S} {s : Stmt S} {next : s.Res → Prog S α}

theorem exec_eq (hp : c.prog i = .step s next) (hc : c.exec i x = some c') :
    c'.store = (s.exec x c.store (c.sess i)).2.1 ∧
      c'.sess = Function.update c.sess i (s.exec x c.store (c.sess i)).2.2 ∧
      c'.prog = Function.update c.prog i (next (s.exec x c.store (c.sess i)).1) := by
  unfold exec at hc
  rw [hp] at hc
  simp only at hc
  split at hc
  · rw [Option.some.injEq] at hc
    subst hc
    exact ⟨rfl, rfl, rfl⟩
  · cases hc

/-- Only a commit changes the database. -/
theorem commit_of_db_ne {st : Store S} {σ : Session S} (h : (s.exec x st σ).2.1.db ≠ st.db) :
    s = .commit := by
  cases s with
  | commit => rfl
  | update k guard set =>
      simp only [Stmt.exec] at h
      split at h
      · split at h
        · exact absurd rfl h
        · exact absurd rfl h
      · exact absurd rfl h
  | assign k set =>
      simp only [Stmt.exec] at h
      split at h
      · exact absurd rfl h
      · exact absurd rfl h
  | create k row =>
      simp only [Stmt.exec] at h
      split at h
      · exact absurd rfl h
      · exact absurd rfl h
  | _ => exact absurd rfl h

/-- A step leaves the database as it is, or commits. -/
theorem store_exec_cases (hp : c.prog i = .step s next) (hc : c.exec i x = some c') :
    c'.store.db = c.store.db ∨ s = .commit ∧ c'.store.db = c.store.db.apply (c.sess i) := by
  rw [(exec_eq hp hc).1]
  by_cases hsame : (s.exec x c.store (c.sess i)).2.1.db = c.store.db
  · exact Or.inl hsame
  · refine Or.inr ⟨commit_of_db_ne hsame, ?_⟩
    rcases s.db_exec x c.store (c.sess i) with hdb | ⟨hdb, -⟩
    · exact absurd hdb hsame
    · exact hdb

/-- A step changes one thread. -/
theorem forall_threads_exec (T : Prog S α → Session S → Prop) (h : ∀ j, T (c.prog j) (c.sess j))
    (hp : c.prog i = .step s next) (hc : c.exec i x = some c')
    (hi : T (next (s.exec x c.store (c.sess i)).1) (s.exec x c.store (c.sess i)).2.2) (j : ℕ) :
    T (c'.prog j) (c'.sess j) := by
  rw [(exec_eq hp hc).2.1, (exec_eq hp hc).2.2]
  by_cases hji : j = i
  · subst hji
    rw [Function.update_self, Function.update_self]
    exact hi
  · rw [Function.update_of_ne hji, Function.update_of_ne hji]
    exact h j

/-- A thread that dies has nothing left to do, and its session is gone. -/
theorem forall_threads_crash (T : Prog S α → Session S → Prop) (h : ∀ j, T (c.prog j) (c.sess j))
    (i : ℕ) (hi : T (.raise S.commitErr) Session.start) (j : ℕ) :
    T ((c.crash i).prog j) ((c.crash i).sess j) := by
  by_cases hji : j = i
  · subst hji
    simp only [Config.crash, Function.update_self]
    exact hi
  · simp only [Config.crash, Function.update_of_ne hji]
    exact h j

theorem Maintained.exec (h : c.Maintained P) (hp : c.prog i = .step s next)
    (hs : s.Maintains P c.store (c.sess i)) (hc : c.exec i x = some c') : c'.Maintained P where
  consistent := exec_consistent h.consistent hc
  sess := forall_threads_exec (fun _ σ => σ.Maintained P) h.sess hp hc
    (s.exec_maintained x c.store (h.sess i) hs)

theorem Maintained.crash (h : c.Maintained P) (i : ℕ) : (c.crash i).Maintained P where
  consistent := crash_consistent h.consistent i
  sess := forall_threads_crash (fun _ σ => σ.Maintained P) h.sess i Session.start_maintained

/-- A commit leaves `P` to a row that has it. -/
theorem Maintained.row (h : c.Maintained P) (hp : c.prog i = .step s next)
    (hc : c.exec i x = some c') {k : S.Key} {r : S.Row k} (hrow : c.store.db.rows k = some r)
    (hP : P k r) : ∃ r', c'.store.db.rows k = some r' ∧ P k r' := by
  rcases store_exec_cases hp hc with hdb | ⟨-, hdb⟩
  · rw [hdb]
    exact ⟨r, hrow, hP⟩
  · rw [hdb]
    have hbase : (c.sess i).base c.store.db k = some r := by
      rw [Session.base_of_agrees (h.consistent.agrees i), hrow]
    exact (h.sess i).view hbase hP

variable {Ok : Store S → Session S → Stmt S → Input S → Prop}

theorem Reaches.maintained (h : Reaches Ok c₀ c) (hc : c₀.Maintained P)
    (hok : ∀ st σ s x, Ok st σ s x → s.Maintains P st σ) : c.Maintained P := by
  induction h with
  | refl => exact hc
  | exec _ hp ho hx ih => exact ih.exec hp (hok _ _ _ _ ho) hx
  | crash i _ ih => exact ih.crash i

/-- The run lemma: a committed row that has `P` has it from then on. -/
theorem lasts (h : Reaches Ok c₀ c) (hc : c₀.Maintained P)
    (hok : ∀ st σ s x, Ok st σ s x → s.Maintains P st σ) {k : S.Key} {r : S.Row k}
    (hrow : c₀.store.db.rows k = some r) (hP : P k r) :
    ∃ r', c.store.db.rows k = some r' ∧ P k r' := by
  induction h with
  | refl => exact ⟨r, hrow, hP⟩
  | exec hreach hp ho hx ih =>
      obtain ⟨r', hr', hP'⟩ := ih
      exact (hreach.maintained hc hok).row hp hx hr' hP'
  | crash i _ ih => exact ih

/-- A run executes statements that the texts of its programs allow. -/
theorem Reaches.only {ok : Stmt S → Prop} (h : Reaches Ok c₀ c) (hp : ∀ i, (c₀.prog i).only ok) :
    Reaches (fun st σ s x => Ok st σ s x ∧ ok s) c₀ c ∧ ∀ i, (c.prog i).only ok := by
  induction h with
  | refl => exact ⟨.refl, hp⟩
  | @exec c c' i x s next _ hprog ho hx ih =>
      have hs := ih.2 i
      rw [hprog] at hs
      exact ⟨.exec ih.1 hprog ⟨ho, hs.1⟩ hx,
        forall_threads_exec (fun p _ => p.only ok) ih.2 hprog hx (hs.2 _)⟩
  | crash i _ ih =>
      exact ⟨.crash i ih.1, forall_threads_crash (fun p _ => p.only ok) ih.2 i trivial⟩

end Config

end Txn
