import Sthrip.Txn.Lasts

set_option autoImplicit false

/-! # Two properties of rows that exclude each other

Rows with the property `A` and rows with the property `B` must not be committed at the same time, and
no session gives rows both properties. Then it is enough that a session does not commit a new row with
one of them while a row with the other is committed (`Config.apart`).
-/

namespace Txn

variable {S : Schema} {α : Type} {A B : (k : S.Key) → S.Row k → Prop}

/-- Is there a row with the property? -/
def DB.Has (A : (k : S.Key) → S.Row k → Prop) (db : DB S) : Prop :=
  ∃ k r, db.rows k = some r ∧ A k r

/-- Has the session given a row the property that is committed without it? -/
def Session.Brings (A : (k : S.Key) → S.Row k → Prop) (σ : Session S) : Prop :=
  ∃ k h r, σ.held k = some h ∧ h.own = some r ∧ A k r ∧ ∀ r₀, h.base = some r₀ → ¬A k r₀

/-- The statement gives no row the property. -/
def Stmt.Avoids (A : (k : S.Key) → S.Row k → Prop) : Stmt S → Prop
  | .update k guard set => ∀ r, guard r = true → ¬A k r → ¬A k (set r)
  | .assign k set => ∀ r, ¬A k r → ¬A k (set r)
  | .create k row => ¬A k row
  | _ => True

namespace Session

variable {σ σ' : Session S} {db : DB S}

theorem start_brings : ¬(start : Session S).Brings A := by
  rintro ⟨k, h, r, hk, -⟩
  cases hk

theorem Brings.congr (h : σ'.Brings A) (hheld : σ'.held = σ.held) : σ.Brings A := by
  unfold Brings at h ⊢
  rwa [hheld] at h

/-- What a session sees with the property is committed with it, if the session has not brought it. -/
theorem exists_base_of_view (h : ¬σ.Brings A) {k : S.Key} {r : S.Row k}
    (hv : σ.view db k = some r) (hA : A k r) : ∃ r₀, σ.base db k = some r₀ ∧ A k r₀ := by
  unfold Session.base
  cases hk : σ.held k with
  | none =>
      rw [view_of_not_held hk] at hv
      exact ⟨r, hv, hA⟩
  | some hd =>
      rw [view_of_held hk] at hv
      -- an object that has the property was loaded with it
      by_contra hno
      apply h
      refine ⟨k, hd, r, hk, hv, hA, ?_⟩
      intro r₀ hr₀ hA₀
      exact hno ⟨r₀, hr₀, hA₀⟩

theorem write_brings (h : ¬σ.Brings A) {k : S.Key} {row : S.Row k}
    (hrow : A k row → ∃ r, σ.view db k = some r ∧ A k r) : ¬(σ.write db k row).Brings A := by
  rintro ⟨k', hd, r, hk, hown, hA, hbase⟩
  by_cases hkk : k' = k
  · subst hkk
    rw [write_held_self, Option.some.injEq] at hk
    subst hk
    obtain rfl : row = r := Option.some.inj hown
    obtain ⟨r', hr', hA'⟩ := hrow hA
    -- the row had the property before, so it is committed with it
    obtain ⟨r₀, hr₀, hA₀⟩ := exists_base_of_view h hr' hA'
    exact hbase r₀ hr₀ hA₀
  · rw [write_held_ne _ _ _ hkk] at hk
    exact h ⟨k', hd, r, hk, hown, hA, hbase⟩

theorem lock_brings (h : ¬σ.Brings A) (k : S.Key) : ¬(σ.lock db k).Brings A := by
  cases hv : σ.view db k with
  | none => rwa [lock_of_no_view hv]
  | some r =>
      rw [lock_of_view hv]
      exact write_brings h fun hA => ⟨r, hv, hA⟩

end Session

/-- The step lemma. -/
theorem Stmt.exec_brings (s : Stmt S) (x : Input S) (st : Store S) {σ : Session S}
    (h : ¬σ.Brings A) (hs : s.Avoids A) : ¬(s.exec x st σ).2.2.Brings A := by
  have of_view : ∀ {k : S.Key} {r row : S.Row k}, σ.view st.db k = some r →
      (¬A k r → ¬A k row) → A k row → ∃ r, σ.view st.db k = some r ∧ A k r := by
    intro k r row hv himp hA
    refine ⟨r, hv, ?_⟩
    by_contra hno
    exact himp hno hA
  cases s with
  | now => exact h
  | ask => exact h
  | select k => exact fun hb => h (hb.congr (Session.load_held ..))
  | selectForUpdate k =>
      exact fun hb => Session.lock_brings h k (hb.congr (Session.load_held ..))
  | scan p => exact fun hb => h (hb.congr rfl)
  | update k guard set =>
      simp only [exec]
      split
      · next r hv =>
          split
          · next hg =>
              have hwrite : ¬(σ.write st.db k (set r)).Brings A :=
                Session.write_brings h (of_view hv (hs r hg))
              exact fun hb => hwrite (hb.congr (Session.touch_held ..))
          · exact fun hb => h (hb.congr rfl)
      · exact fun hb => h (hb.congr rfl)
  | assign k set =>
      simp only [exec]
      split
      · next r hv =>
          have hwrite : ¬(σ.write st.db k (set r)).Brings A :=
            Session.write_brings h (of_view hv (hs r))
          exact fun hb => hwrite (hb.congr (Session.touch_held ..))
      · exact h
  | create k row =>
      simp only [exec]
      split
      · exact h
      · have hwrite : ¬(σ.write st.db k row).Brings A :=
          Session.write_brings h fun hA => absurd hA hs
        exact fun hb => hwrite (hb.congr rfl)
  | insert e => exact fun hb => h (hb.congr rfl)
  | expireAll => exact fun hb => h (hb.congr rfl)
  | call op => exact h
  | commit =>
      simp only [exec]
      split
      · exact Session.start_brings
      · exact Session.start_brings
  | rollback => exact Session.start_brings

/-- A session does not commit a new row with one of the properties while a row with the other is
committed. -/
def Stmt.KeepsApart (A B : (k : S.Key) → S.Row k → Prop) (st : Store S) (σ : Session S) :
    Stmt S → Prop
  | .commit => (σ.Brings A → ¬st.db.Has B) ∧ (σ.Brings B → ¬st.db.Has A)
  | _ => True

namespace Config

/-- A thread that leaves one of the properties alone. -/
def OneSided (A B : (k : S.Key) → S.Row k → Prop) (p : Prog S α) (σ : Session S) : Prop :=
  (p.only (Stmt.Avoids A) ∧ ¬σ.Brings A) ∨ (p.only (Stmt.Avoids B) ∧ ¬σ.Brings B)

/-- No two rows with the two properties are committed, and every thread leaves one of them alone. -/
structure Apart (A B : (k : S.Key) → S.Row k → Prop) (c : Config S α) : Prop where
  consistent : c.Consistent
  rows : ¬(c.store.db.Has A ∧ c.store.db.Has B)
  sess : ∀ i, OneSided A B (c.prog i) (c.sess i)

variable {c c₀ c' : Config S α} {i : ℕ} {x : Input S} {s : Stmt S} {next : s.Res → Prog S α}

theorem start_apart {st : Store S} {p : ℕ → Prog S α} (hwf : st.db.WF)
    (hrows : ¬(st.db.Has A ∧ st.db.Has B))
    (hp : ∀ i, (p i).only (Stmt.Avoids A) ∨ (p i).only (Stmt.Avoids B)) :
    (start st p).Apart A B := by
  refine ⟨start_consistent hwf p, hrows, fun i => ?_⟩
  rcases hp i with h | h
  · exact Or.inl ⟨h, Session.start_brings⟩
  · exact Or.inr ⟨h, Session.start_brings⟩

theorem OneSided.exec {p : Prog S α} {σ : Session S} {st : Store S} (h : OneSided A B p σ)
    (hp : p = .step s next) : OneSided A B (next (s.exec x st σ).1) (s.exec x st σ).2.2 := by
  subst hp
  rcases h with ⟨honly, hno⟩ | ⟨honly, hno⟩
  · exact Or.inl ⟨honly.2 _, s.exec_brings x st hno honly.1⟩
  · exact Or.inr ⟨honly.2 _, s.exec_brings x st hno honly.1⟩

/-- A commit has a row with the property only if there was one, or the session has brought it. -/
theorem has_of_apply {db : DB S} {σ : Session S} (ha : σ.Agrees db) (h : ¬σ.Brings A)
    (hhas : (db.apply σ).Has A) : db.Has A := by
  obtain ⟨k, r, hr, hA⟩ := hhas
  have hv : σ.view db k = some r := hr
  obtain ⟨r₀, hr₀, hA₀⟩ := Session.exists_base_of_view h hv hA
  rw [Session.base_of_agrees ha] at hr₀
  exact ⟨k, r₀, hr₀, hA₀⟩

/-- The step lemma. The cases are by what the session brings, which is not both. -/
theorem Apart.rows_exec (h : c.Apart A B) (hp : c.prog i = .step s next)
    (hs : s.KeepsApart A B c.store (c.sess i)) (hc : c.exec i x = some c') :
    ¬(c'.store.db.Has A ∧ c'.store.db.Has B) := by
  rcases store_exec_cases hp hc with hdb | ⟨rfl, hdb⟩
  · rw [hdb]
    exact h.rows
  · obtain ⟨hsA, hsB⟩ := hs
    rw [hdb]
    have ha := h.consistent.agrees i
    rintro ⟨hA, hB⟩
    by_cases hbA : (c.sess i).Brings A
    · have hnB : ¬(c.sess i).Brings B := by
        rcases h.sess i with ⟨-, hno⟩ | ⟨-, hno⟩
        · exact absurd hbA hno
        · exact hno
      exact hsA hbA (has_of_apply ha hnB hB)
    · have hA₀ : c.store.db.Has A := has_of_apply ha hbA hA
      by_cases hbB : (c.sess i).Brings B
      · exact hsB hbB hA₀
      · exact h.rows ⟨hA₀, has_of_apply ha hbB hB⟩

theorem Apart.exec (h : c.Apart A B) (hp : c.prog i = .step s next)
    (hs : s.KeepsApart A B c.store (c.sess i)) (hc : c.exec i x = some c') : c'.Apart A B where
  consistent := exec_consistent h.consistent hc
  rows := h.rows_exec hp hs hc
  sess := forall_threads_exec (OneSided A B) h.sess hp hc ((h.sess i).exec hp)

theorem Apart.crash (h : c.Apart A B) (i : ℕ) : (c.crash i).Apart A B where
  consistent := crash_consistent h.consistent i
  rows := h.rows
  sess := forall_threads_crash (OneSided A B) h.sess i (Or.inl ⟨trivial, Session.start_brings⟩)

variable {Ok : Store S → Session S → Stmt S → Input S → Prop}

/-- The run lemma. -/
theorem Reaches.apart (h : Reaches Ok c₀ c) (hc : c₀.Apart A B)
    (hok : ∀ st σ s x, Ok st σ s x → s.KeepsApart A B st σ) : c.Apart A B := by
  induction h with
  | refl => exact hc
  | exec _ hp ho hx ih => exact ih.exec hp (hok _ _ _ _ ho) hx
  | crash i _ ih => exact ih.crash i

end Config

end Txn
