import Sthrip.Txn.Rules

set_option autoImplicit false

/-! # A lone session is a session whose neighbours are idle

`Prog.eval` has no identity map, no locks and no pending writes; the interleaved semantics has
all three. When no other session holds a lock, the two agree: the objects a session has loaded
are then the rows it sees (`Mirrors`), each statement keeps it so (`mirrors_exec`), and a whole
program runs in the interleaved semantics to the result and the store `Prog.eval` computes
(`Config.trace_eval`).
-/

namespace Txn

variable {S : Schema} {α : Type}

/-- The session `σ` on the store `st` sees what the lone session `v` sees. -/
structure Mirrors (st : Store S) (σ : Session S) (v : Solo S) : Prop where
  saved : v.saved = st.db
  ext : v.ext = st.ext
  rows : ∀ k, v.db.rows k = σ.view st.db k
  keys : v.db.keys = st.db.keys ++ σ.created
  log : v.db.log = st.db.log ++ σ.inserted
  loaded : ∀ k r, σ.loaded k = some r → σ.view st.db k = some r

namespace Mirrors

variable {st : Store S} {σ : Session S} {v : Solo S}

theorem start (st : Store S) : Mirrors st Session.start (Solo.ofStore st) where
  saved := rfl
  ext := rfl
  rows _ := rfl
  keys := (List.append_nil _).symm
  log := (List.append_nil _).symm
  loaded k r h := by cases h

theorem object (h : Mirrors st σ v) (k : S.Key) : σ.object st.db k = v.db.rows k := by
  rw [h.rows, Session.object]
  cases hv : σ.view st.db k with
  | none => rfl
  | some r =>
      cases hl : σ.loaded k with
      | none => rfl
      | some o =>
          have := h.loaded k o hl
          rw [hv, Option.some.injEq] at this
          simp [this]

theorem matching (h : Mirrors st σ v) (p : (k : S.Key) → S.Row k → Bool) :
    σ.matching st.db p = v.db.matching p := by
  simp only [Session.matching, DB.matching, h.keys, h.rows]

/-- Loading the row the session sees keeps the objects in line. -/
theorem load (h : Mirrors st σ v) (k : S.Key) : Mirrors st (σ.load st.db k) v where
  saved := h.saved
  ext := h.ext
  rows k' := by rw [h.rows]; simp only [Session.view, Session.load_held]
  keys := by rw [h.keys, Session.load_created]
  log := by rw [h.log, Session.load_inserted]
  loaded k' r hl := by
    have hview : (σ.load st.db k).view st.db k' = σ.view st.db k' := by
      simp only [Session.view, Session.load_held]
    rw [hview]
    unfold Session.load at hl
    split at hl
    · next o ho =>
        by_cases hkk : k' = k
        · subst hkk
          simp only [Function.update_self, Option.some.injEq] at hl
          rw [← hl, ← h.rows, ← h.object, ho]
        · simp only [Function.update_of_ne hkk] at hl
          exact h.loaded k' r hl
    · exact h.loaded k' r hl

theorem lock (h : Mirrors st σ v) (k : S.Key) : Mirrors st (σ.lock st.db k) v where
  saved := h.saved
  ext := h.ext
  rows k' := by rw [h.rows, Session.lock_view]
  keys := by rw [h.keys, Session.lock_created]
  log := by rw [h.log, Session.lock_inserted]
  loaded k' r hl := by
    rw [Session.lock_view]
    exact h.loaded k' r (by rwa [Session.lock_loaded] at hl)

/-- Writing a row and the loaded object alike. -/
theorem write (h : Mirrors st σ v) {k : S.Key} {row : S.Row k} {σ' : Session S} {v' : Solo S}
    (hheld : σ'.held = (σ.write st.db k row).held)
    (hloaded : ∀ o, σ'.loaded k = some o → o = row)
    (hother : ∀ k', k' ≠ k → σ'.loaded k' = σ.loaded k')
    (hins : σ'.inserted = σ.inserted) (hv : v' = { v with db := v.db.put k row })
    (hkeys : v'.db.keys = st.db.keys ++ σ'.created) : Mirrors st σ' v' where
  saved := by rw [hv]; exact h.saved
  ext := by rw [hv]; exact h.ext
  keys := hkeys
  log := by rw [hv, hins]; exact h.log
  rows k' := by
    rw [hv]
    by_cases hkk : k' = k
    · subst hkk
      have hk : σ'.held k' = some ⟨σ.base st.db k', some row⟩ := by
        rw [hheld, Session.write_held_self]
      rw [DB.put_rows_self, Session.view_of_held hk]
    · rw [DB.put_rows_ne _ _ hkk, h.rows]
      simp only [Session.view, hheld, Session.write_held_ne σ st.db row hkk]
  loaded k' r hl := by
    by_cases hkk : k' = k
    · subst hkk
      have hk : σ'.held k' = some ⟨σ.base st.db k', some row⟩ := by
        rw [hheld, Session.write_held_self]
      rw [Session.view_of_held hk, hloaded r hl]
    · rw [hother k' hkk] at hl
      simp only [Session.view, hheld, Session.write_held_ne σ st.db row hkk]
      exact h.loaded k' r hl

/-- An object that follows a guard the row does not pass stays as it is. -/
theorem touch_miss (h : Mirrors st σ v) {k : S.Key} {guard : S.Row k → Bool}
    {set : S.Row k → S.Row k} (hg : ∀ r, σ.view st.db k = some r → guard r = false) :
    Mirrors st (σ.touch k fun o => if guard o then set o else o) v :=
  { h with
    loaded := fun k' r hl => by
      refine h.loaded k' r ?_
      by_cases hkk : k' = k
      · subst hkk
        simp only [Session.touch, Function.update_self, Option.map_eq_some_iff] at hl
        obtain ⟨o, ho, hr⟩ := hl
        rw [hg o (h.loaded k' o ho)] at hr
        simp only [Bool.false_eq_true, if_false] at hr
        rw [ho, hr]
      · simpa only [Session.touch, Function.update_of_ne hkk] using hl }

end Mirrors

/-- Each statement gives a lone session and its mirror the same answer, and keeps them mirrors
of each other. -/
theorem Stmt.mirrors_exec (s : Stmt S) (x : Input S) {st : Store S} {σ : Session S} {v : Solo S}
    (h : Mirrors st σ v) :
    (s.exec x st σ).1 = (s.eval x v).1 ∧
      Mirrors (s.exec x st σ).2.1 (s.exec x st σ).2.2 (s.eval x v).2 := by
  cases s with
  | now => exact ⟨rfl, h⟩
  | ask => exact ⟨rfl, h⟩
  | select k => exact ⟨h.object k, h.load k⟩
  | selectForUpdate k =>
      refine ⟨h.object k, ?_⟩
      exact (h.lock k).load k
  | scan p =>
      refine ⟨congrArg x.arrange (h.matching p), ?_⟩
      refine { h with loaded := fun k r hl => ?_ }
      simp only [exec, Session.loadAll] at hl
      show σ.view st.db k = some r
      split at hl
      · rw [h.object, h.rows] at hl
        exact hl
      · exact h.loaded k r hl
  | update k guard set =>
      simp only [exec, eval, h.rows]
      cases hv : σ.view st.db k with
      | none => exact ⟨rfl, h.touch_miss fun r hr => by rw [hv] at hr; cases hr⟩
      | some r =>
          by_cases hg : guard r = true
          · simp only [hg, if_true]
            refine ⟨rfl, h.write rfl (fun o ho => ?_) (fun k' hk' => ?_) rfl rfl ?_⟩
            · simp only [Session.touch, Session.write_loaded, Function.update_self,
                Option.map_eq_some_iff] at ho
              obtain ⟨o', ho', hr⟩ := ho
              have := h.loaded k o' ho'
              rw [hv, Option.some.injEq] at this
              rw [← hr, ← this, if_pos hg]
            · simp only [Session.touch, Function.update_of_ne hk', Session.write_loaded]
            · rw [DB.put_keys_of_some _ (by rw [h.rows, hv])]
              exact h.keys
          · simp only [hg, Bool.false_eq_true, if_false]
            refine ⟨rfl, h.touch_miss fun r' hr' => ?_⟩
            rw [hv, Option.some.injEq] at hr'
            exact hr' ▸ by simpa using hg
  | assign k set =>
      simp only [exec, eval, h.rows]
      cases hv : σ.view st.db k with
      | none => exact ⟨rfl, h⟩
      | some r =>
          refine ⟨rfl, h.write rfl (fun o ho => ?_) (fun k' hk' => ?_) rfl rfl ?_⟩
          · simp only [Session.touch, Session.write_loaded, Function.update_self,
              Option.map_eq_some_iff] at ho
            obtain ⟨o', ho', hr⟩ := ho
            have := h.loaded k o' ho'
            rw [hv, Option.some.injEq] at this
            rw [← hr, ← this]
          · simp only [Session.touch, Function.update_of_ne hk', Session.write_loaded]
          · rw [DB.put_keys_of_some _ (by rw [h.rows, hv])]
            exact h.keys
  | create k row =>
      simp only [exec, eval, h.rows]
      cases hv : σ.view st.db k with
      | some r => exact ⟨rfl, h⟩
      | none =>
          refine ⟨rfl, h.write rfl (fun o ho => ?_) (fun k' hk' => ?_) rfl rfl ?_⟩
          · simp only [Function.update_self, Option.some.injEq] at ho
            exact ho.symm
          · simp only [Function.update_of_ne hk']
          · rw [DB.put_keys_of_none _ (by rw [h.rows, hv]), h.keys, List.append_assoc]
  | insert e =>
      exact ⟨rfl, { h with log := by simp only [eval, exec, DB.append_log, h.log, List.append_assoc] }⟩
  | expireAll => exact ⟨rfl, { h with loaded := fun k r hl => by cases hl }⟩
  | call op =>
      simp only [exec, eval, h.ext]
      exact ⟨rfl, { h with ext := rfl }⟩
  | commit =>
      simp only [exec, eval]
      split
      · refine ⟨rfl, ?_⟩
        have hdb : v.db = st.db.apply σ := by
          cases hv : v.db with
          | mk rows keys log =>
              have h₁ : rows = σ.view st.db := funext fun k => by rw [← h.rows k, hv]
              have h₂ : keys = st.db.keys ++ σ.created := by rw [← h.keys, hv]
              have h₃ : log = st.db.log ++ σ.inserted := by rw [← h.log, hv]
              rw [h₁, h₂, h₃]
              rfl
        have := Mirrors.start (S := S) { st with db := st.db.apply σ }
        simpa only [Solo.ofStore, hdb, h.ext] using this
      · refine ⟨rfl, ?_⟩
        have := Mirrors.start (S := S) st
        simpa only [Solo.ofStore, h.saved, h.ext] using this
  | rollback =>
      refine ⟨rfl, ?_⟩
      have := Mirrors.start (S := S) st
      simpa only [Solo.ofStore, exec, eval, h.saved, h.ext] using this

/-- The finished program that carries a result. -/
def Prog.ofResult : Except S.Err α → Prog S α
  | .ok a => .ret a
  | .error e => .raise e

namespace Config

/-- No thread but `i` holds a lock. -/
def Alone (c : Config S α) (i : ℕ) : Prop := ∀ k j, c.locks k = some j → j = i

theorem Alone.free {c : Config S α} {i : ℕ} (h : c.Alone i) (k : S.Key) : c.free i k = true := by
  unfold Config.free
  cases hk : c.locks k with
  | none => rfl
  | some j => simp [h k j hk]

theorem Alone.exec {c c' : Config S α} {i : ℕ} {x : Input S} (h : c.Alone i)
    (hc : c.exec i x = some c') : c'.Alone i := by
  unfold Config.exec at hc
  split at hc
  · split at hc
    · rw [Option.some.injEq] at hc
      subst hc
      intro k j hk
      simp only [relock] at hk
      split at hk
      · exact (Option.some.inj hk).symm
      · split at hk
        · cases hk
        · exact h k j hk
    · cases hc
  · cases hc

/-- **Refinement.** A program that runs while no other thread holds a lock runs, in the
interleaved semantics, to the result and the store of `Prog.eval`. -/
theorem trace_eval {i : ℕ} (p : Prog S α) (x : ℕ → Input S) {c : Config S α} {v : Solo S}
    (hp : c.prog i = p) (hc : c.Alone i) (hm : Mirrors c.store (c.sess i) v) :
    ∃ l c', trace l c = some c' ∧ c'.prog i = Prog.ofResult (p.eval x v).1 ∧ c'.Alone i ∧
      Mirrors c'.store (c'.sess i) (p.eval x v).2 ∧ ∀ j, j ≠ i → c'.prog j = c.prog j := by
  induction p generalizing x c v with
  | ret a => exact ⟨[], c, rfl, hp, hc, hm, fun _ _ => rfl⟩
  | raise e => exact ⟨[], c, rfl, hp, hc, hm, fun _ _ => rfl⟩
  | step s next ih =>
      obtain ⟨hres, hm'⟩ := s.mirrors_exec (x 0) hm
      have hfree : (s.needs c.store.db (c.sess i)).all (c.free i) = true := by
        cases s.needs c.store.db (c.sess i) with
        | none => rfl
        | some k => exact hc.free k
      obtain ⟨c₁, hex, hprog, hsess, hstore⟩ : ∃ c₁, c.exec i (x 0) = some c₁ ∧
          c₁.prog = Function.update c.prog i (next (s.exec (x 0) c.store (c.sess i)).1) ∧
          c₁.sess = Function.update c.sess i (s.exec (x 0) c.store (c.sess i)).2.2 ∧
          c₁.store = (s.exec (x 0) c.store (c.sess i)).2.1 := by
        refine ⟨⟨_, relock c.locks i (s.exec (x 0) c.store (c.sess i)).2.2, _, _⟩, ?_,
          rfl, rfl, rfl⟩
        unfold Config.exec
        rw [hp]
        exact if_pos hfree
      obtain ⟨l, c', hl, hp', hc', hm'', hj⟩ :=
        ih (s.eval (x 0) v).1 (fun n => x (n + 1)) (v := (s.eval (x 0) v).2) (c := c₁)
          (by rw [hprog, Function.update_self, hres]) (hc.exec hex)
          (by rw [hstore, hsess, Function.update_self]; exact hm')
      refine ⟨(i, x 0) :: l, c', ?_, hp', hc', hm'', fun j hji => ?_⟩
      · simp only [trace, hex, Option.bind_some]
        exact hl
      · rw [hj j hji, hprog]
        exact Function.update_of_ne hji _ _

end Config

end Txn
