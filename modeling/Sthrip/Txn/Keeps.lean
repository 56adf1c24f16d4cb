import Sthrip.Txn.Record

set_option autoImplicit false

/-! # What every row of a table satisfies

`Stmt.keeps G` says of one statement that the rows it writes satisfy `G` when the row it finds
does. When this is true of all statements of all threads, by their text, then every row and every
object in every reachable configuration satisfies `G` (`Config.kept`), and a proof about the runs
may take it for granted at each statement (`Config.Reaches.kept`). With a `G` that is false of some
keys, these keys never get a row.
-/

namespace Txn

variable {S : Schema} {α : Type} {G : (k : S.Key) → S.Row k → Prop}

/-- The statement writes rows that satisfy `G`. -/
def Stmt.keeps (G : (k : S.Key) → S.Row k → Prop) : Stmt S → Prop
  | .update k guard set => ∀ r, G k r → guard r = true → G k (set r)
  | .assign k set => ∀ r, G k r → G k (set r)
  | .create k row => G k row
  | _ => True

def DB.Kept (G : (k : S.Key) → S.Row k → Prop) (db : DB S) : Prop :=
  ∀ k r, db.rows k = some r → G k r

/-- The session's rows and objects satisfy `G`. -/
structure Session.Kept (G : (k : S.Key) → S.Row k → Prop) (σ : Session S) : Prop where
  own : ∀ k h r, σ.held k = some h → h.own = some r → G k r
  loaded : ∀ k o, σ.loaded k = some o → G k o

namespace Session.Kept

variable {σ : Session S} {db : DB S}

theorem start : (Session.start : Session S).Kept G :=
  ⟨fun _ _ _ h => (by cases h), fun _ _ h => (by cases h)⟩

theorem view (h : σ.Kept G) (hdb : db.Kept G) {k : S.Key} {r : S.Row k}
    (hr : σ.view db k = some r) : G k r := by
  unfold Session.view at hr
  split at hr
  · next hd hh => exact h.own k hd r hh hr
  · exact hdb k r hr

theorem object (h : σ.Kept G) (hdb : db.Kept G) {k : S.Key} {r : S.Row k}
    (hr : σ.object db k = some r) : G k r := by
  rcases Session.object_eq_some hr with hl | hv
  · exact h.loaded k r hl
  · exact h.view hdb hv

theorem load (h : σ.Kept G) (hdb : db.Kept G) (k : S.Key) : (σ.load db k).Kept G := by
  refine ⟨fun k' hd r hh hr => ?_, Session.loaded_of_load (fun r hr => h.object hdb hr) h.loaded⟩
  rw [Session.load_held] at hh
  exact h.own k' hd r hh hr

/-- The session writes a row that satisfies `G`. -/
theorem write (h : σ.Kept G) {k : S.Key} {row : S.Row k} (hrow : G k row) :
    (σ.write db k row).Kept G := by
  refine ⟨fun k' hd r hh hr => ?_, h.loaded⟩
  by_cases hk : k' = k
  · subst hk
    rw [Session.write_held_self, Option.some.injEq] at hh
    subst hh
    exact Option.some.inj hr ▸ hrow
  · rw [Session.write_held_ne _ _ _ hk] at hh
    exact h.own k' hd r hh hr

theorem lock (h : σ.Kept G) (hdb : db.Kept G) (k : S.Key) : (σ.lock db k).Kept G := by
  cases hv : σ.view db k with
  | none => rwa [Session.lock_of_no_view hv]
  | some r =>
      rw [Session.lock_of_view hv]
      exact h.write (h.view hdb hv)

theorem touch (h : σ.Kept G) {k : S.Key} {f : S.Row k → S.Row k} (hf : ∀ o, G k o → G k (f o)) :
    (σ.touch k f).Kept G := by
  refine ⟨h.own, fun k' o ho => ?_⟩
  replace ho : Function.update σ.loaded k ((σ.loaded k).map f) k' = some o := ho
  by_cases hk : k' = k
  · subst hk
    rw [Function.update_self] at ho
    obtain ⟨o', ho', rfl⟩ := Option.map_eq_some_iff.mp ho
    exact hf o' (h.loaded k' o' ho')
  · rw [Function.update_of_ne hk] at ho
    exact h.loaded k' o ho

end Session.Kept

/-- What a statement leaves behind satisfies `G`. -/
theorem Stmt.exec_kept (s : Stmt S) (x : Input S) (st : Store S) {σ : Session S}
    (hs : s.keeps G) (hdb : st.db.Kept G) (h : σ.Kept G) :
    (s.exec x st σ).2.1.db.Kept G ∧ (s.exec x st σ).2.2.Kept G := by
  cases s with
  | now => exact ⟨hdb, h⟩
  | ask => exact ⟨hdb, h⟩
  | select k => exact ⟨hdb, h.load hdb k⟩
  | selectForUpdate k => exact ⟨hdb, (h.lock hdb k).load hdb k⟩
  | scan p =>
      refine ⟨hdb, h.own, fun k o ho => ?_⟩
      simp only [exec, Session.loadAll] at ho
      split at ho
      · exact h.object hdb ho
      · exact h.loaded k o ho
  | update k guard set =>
      have hobject : ∀ o, G k o → G k (if guard o = true then set o else o) := by
        intro o ho
        split
        · next hg => exact hs o ho hg
        · exact ho
      simp only [exec]
      split
      · next r hv =>
          split
          · next hg => exact ⟨hdb, (h.write (hs r (h.view hdb hv) hg)).touch hobject⟩
          · exact ⟨hdb, h.touch hobject⟩
      · exact ⟨hdb, h.touch hobject⟩
  | assign k set =>
      simp only [exec]
      split
      · next r hv => exact ⟨hdb, (h.write (hs r (h.view hdb hv))).touch hs⟩
      · exact ⟨hdb, h⟩
  | create k row =>
      simp only [exec]
      split
      · exact ⟨hdb, h⟩
      · refine ⟨hdb, (h.write hs).own, fun k' o ho => ?_⟩
        replace ho : Function.update σ.loaded k (some row) k' = some o := ho
        by_cases hk : k' = k
        · subst hk
          rw [Function.update_self, Option.some.injEq] at ho
          exact ho ▸ hs
        · rw [Function.update_of_ne hk] at ho
          exact h.loaded k' o ho
  | insert e => exact ⟨hdb, h.own, h.loaded⟩
  | expireAll => exact ⟨hdb, h.own, fun _ _ ho => (by cases ho)⟩
  | call op => exact ⟨hdb, h⟩
  | commit =>
      simp only [exec]
      split
      · exact ⟨fun k r hr => h.view hdb hr, .start⟩
      · exact ⟨hdb, .start⟩
  | rollback => exact ⟨hdb, .start⟩

namespace Config

/-- The rows, the objects and what the threads will still write satisfy `G`. -/
structure Kept (G : (k : S.Key) → S.Row k → Prop) (c : Config S α) : Prop where
  db : c.store.db.Kept G
  sess : ∀ i, (c.sess i).Kept G
  prog : ∀ i, (c.prog i).only (Stmt.keeps G)

theorem Kept.exec {c c' : Config S α} {i : ℕ} {x : Input S} (h : c.Kept G)
    (hc : c.exec i x = some c') : c'.Kept G := by
  unfold Config.exec at hc
  split at hc
  · next s next hp =>
      split at hc
      · rw [Option.some.injEq] at hc
        subst hc
        have hprog := h.prog i
        rw [hp] at hprog
        have hkept := s.exec_kept x c.store hprog.1 h.db (h.sess i)
        refine ⟨hkept.1, fun j => ?_, fun j => ?_⟩
        · by_cases hji : j = i
          · subst hji
            simpa only [Function.update_self] using hkept.2
          · simpa only [Function.update_of_ne hji] using h.sess j
        · by_cases hji : j = i
          · subst hji
            simpa only [Function.update_self] using hprog.2 _
          · simpa only [Function.update_of_ne hji] using h.prog j
      · cases hc
  · cases hc

theorem Kept.crash {c : Config S α} (h : c.Kept G) (i : ℕ) : (c.crash i).Kept G := by
  refine ⟨h.db, fun j => ?_, fun j => ?_⟩
  · by_cases hji : j = i
    · subst hji
      simpa only [Config.crash, Function.update_self] using .start
    · simpa only [Config.crash, Function.update_of_ne hji] using h.sess j
  · by_cases hji : j = i
    · subst hji
      simp only [Config.crash, Function.update_self]
      trivial
    · simpa only [Config.crash, Function.update_of_ne hji] using h.prog j

variable {Ok : Store S → Session S → Stmt S → Input S → Prop} {st : Store S} {p : ℕ → Prog S α}
  {c : Config S α}

/-- **Soundness** of `Stmt.keeps`. -/
theorem kept (hst : st.db.Kept G) (hp : ∀ i, (p i).only (Stmt.keeps G))
    (hc : Reaches Ok (start st p) c) : c.Kept G := by
  induction hc with
  | refl => exact ⟨hst, fun _ => .start, hp⟩
  | exec _ _ _ hx ih => exact ih.exec hx
  | crash i _ ih => exact ih.crash i

/-- Each statement of a run finds rows and objects that satisfy `G`. -/
theorem Reaches.kept (hst : st.db.Kept G) (hp : ∀ i, (p i).only (Stmt.keeps G))
    (hc : Reaches Ok (start st p) c) :
    Reaches (fun st σ s x => Ok st σ s x ∧ st.db.Kept G ∧ σ.Kept G) (start st p) c := by
  induction hc with
  | refl => exact .refl
  | exec hreach hprog hok hx ih =>
      have h := Config.kept hst hp hreach
      exact .exec ih hprog ⟨hok, h.db, h.sess _⟩ hx
  | crash i _ ih => exact .crash i ih

end Config

end Txn
