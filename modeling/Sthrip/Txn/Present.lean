import Sthrip.Txn.Record

set_option autoImplicit false

/-! # Rows that are there stay

No statement deletes a row. A thread that has once found a row may count on it, also when it does
not hold it. `Protocol.remembering P` is the protocol `P` in which each thread remembers the keys it
has found: what is safe under `P` is safe under it (`safe_remembering`), and a program that would
raise only if such a row were gone never raises (`Calm`).
-/

namespace Txn

variable {S : Schema} {α β : Type}

/-- A row that is there stays. -/
theorem Stmt.exec_present (s : Stmt S) (x : Input S) (st : Store S) {σ : Session S}
    (hσ : σ.Sound) {k : S.Key} (h : (st.db.rows k).isSome) :
    ((s.exec x st σ).2.1.db.rows k).isSome := by
  rcases s.db_exec x st σ with hdb | ⟨hdb, -⟩
  · rwa [hdb]
  · rw [hdb]
    show (σ.view st.db k).isSome
    cases hk : σ.held k with
    | none => rwa [Session.view_of_not_held hk]
    | some hd =>
        rw [Session.view_of_held hk]
        exact hσ.own k hd hk

/-- The keys a thread has found. -/
abbrev Found (S : Schema) := S.Key → Prop

def Protocol.remembering (P : Protocol S Unit) : Protocol S (Found S) where
  Inv st γ := P.Inv st (fun _ => ()) ∧ ∀ i k, γ i k → (st.db.rows k).isSome
  Ok := P.Ok

section

variable {P : Protocol S Unit} {i : ℕ} {σ : Session S} {g : Found S} {st : Store S}
  {γ : ℕ → Found S}

theorem Protocol.Sees.forget (h : P.remembering.Sees i σ g st γ) :
    P.Sees i σ () st (fun _ => ()) :=
  ⟨h.inv.1, rfl, h.agrees, h.sound, h.wf⟩

theorem Protocol.Sees.present (h : P.remembering.Sees i σ g st γ) {k : S.Key} (hk : g k) :
    (st.db.rows k).isSome := h.inv.2 i k (h.ghost ▸ hk)

/-- A session sees the rows its thread has found. -/
theorem Protocol.Sees.view_isSome (h : P.remembering.Sees i σ g st γ) {k : S.Key} (hk : g k) :
    (σ.view st.db k).isSome := by
  cases hh : σ.held k with
  | none =>
      rw [Session.view_of_not_held hh]
      exact h.present hk
  | some hd =>
      rw [Session.view_of_held hh]
      exact h.sound.own k hd hh

theorem Protocol.Sees.object_isSome (h : P.remembering.Sees i σ g st γ) {k : S.Key} (hk : g k) :
    (σ.object st.db k).isSome := by
  rw [Session.object, Option.isSome_map]
  exact h.view_isSome hk

/-- The invariant after a statement, when the thread has found the keys `g'`. -/
theorem Protocol.Sees.remember (h : P.remembering.Sees i σ g st γ) (s : Stmt S) (x : Input S)
    (g' : Found S) (hP : P.Inv (s.exec x st σ).2.1 (fun _ => ()))
    (hg : ∀ k, g' k → g k ∨ (st.db.rows k).isSome) :
    P.remembering.Inv (s.exec x st σ).2.1 (Function.update γ i g') := by
  refine ⟨hP, fun j k hk => s.exec_present x st h.sound ?_⟩
  by_cases hj : j = i
  · subst hj
    rw [Function.update_self] at hk
    exact (hg k hk).elim h.present id
  · rw [Function.update_of_ne hj] at hk
    exact h.inv.2 j k hk

namespace Prog

/-- What is safe without remembering is safe. -/
theorem safe_remembering {p : Prog S α} {Q : α → Session S → Unit → Prop}
    {R : S.Err → Session S → Unit → Prop} (h : p.safe P i Q R σ ()) :
    p.safe P.remembering i (fun a σ' g' => Q a σ' () ∧ g' = g)
      (fun e σ' g' => R e σ' () ∧ g' = g) σ g := by
  induction p generalizing σ with
  | ret a => exact ⟨h, rfl⟩
  | raise e => exact ⟨h, rfl⟩
  | step s next ih =>
      intro st γ x hs hok
      obtain ⟨_, hinv, hnext⟩ := h st (fun _ => ()) x hs.forget hok
      exact ⟨g, hs.remember _ _ _ hinv fun _ hk => .inl hk, ih _ hnext⟩

/-- Two facts about the runs of a program. -/
theorem safe_and {p : Prog S α} {Q : α → Session S → Unit → Prop}
    {R : S.Err → Session S → Unit → Prop} {Q' : α → Session S → Found S → Prop}
    {R' : S.Err → Session S → Found S → Prop} (h : p.safe P i Q R σ ())
    (h' : p.safe P.remembering i Q' R' σ g) :
    p.safe P.remembering i (fun a σ' g' => Q a σ' () ∧ Q' a σ' g')
      (fun e σ' g' => R e σ' () ∧ R' e σ' g') σ g := by
  induction p generalizing σ g with
  | ret a => exact ⟨h, h'⟩
  | raise e => exact ⟨h, h'⟩
  | step s next ih =>
      intro st γ x hs hok
      obtain ⟨_, -, hnext⟩ := h st (fun _ => ()) x hs.forget hok
      obtain ⟨g', hinv', hnext'⟩ := h' st γ x hs hok
      exact ⟨g', hinv', ih _ hnext hnext'⟩

theorem commits_remembering (h : CommitsTo P i (fun _ => True) σ ()) :
    CommitsTo P.remembering i (fun _ => True) σ g := by
  intro st γ x hs hok hx
  obtain ⟨_, hinv, -⟩ := h st (fun _ => ()) x hs.forget hok hx
  have hstep : (Stmt.exec .commit x st σ).2.1 = { st with db := st.db.apply σ } := by
    rw [Stmt.exec, if_pos hx]
  have hrest := hs.remember .commit x g (hstep ▸ hinv) fun _ hk => .inl hk
  exact ⟨g, hstep ▸ hrest, trivial⟩

/-! ## Programs that do not raise -/

/-- A thread that has found the keys `K` runs the program without raising. -/
structure Calm (P : Protocol S Unit) (i : ℕ) (K : Found S) (p : Prog S α) : Prop where
  safe : ∀ (σ : Session S) (g : Found S), (∀ k, K k → g k) →
    p.safe P.remembering i (fun _ _ g' => ∀ k, K k → g' k) (fun _ _ _ => False) σ g

variable {K : Found S}

theorem calm_ret (a : α) : Calm P i K (ret a : Prog S α) := ⟨fun _ _ hK => hK⟩

theorem calm_bind {p : Prog S α} {f : α → Prog S β} (hp : Calm P i K p)
    (hf : ∀ a, Calm P i K (f a)) : Calm P i K (p.bind f) := ⟨fun σ g hK =>
  safe_bind (safe_mono (hp.safe σ g hK) (fun a σ' g' hK' => (hf a).safe σ' g' hK') fun _ _ _ h => h)⟩

theorem calm_stmt {s : Stmt S} (h : s.off (fun _ => False) fun _ => (none : Option Unit)) :
    Calm P i K (stmt s) := by
  refine ⟨fun σ g hK st γ x hs _ => ?_⟩
  obtain ⟨hst, -⟩ := s.exec_off x st σ h
  refine ⟨g, hs.remember _ _ _ ?_ fun _ hk => .inl hk, hK⟩
  rw [hst]
  exact hs.forget.inv

theorem calm_onlyIf {c : Prop} [Decidable c] {p : Prog S α} (h : Calm P i K p) :
    Calm P i K (onlyIf c p) := by
  unfold onlyIf
  split
  · exact calm_bind h fun _ => calm_ret ()
  · exact calm_ret ()

/-- A row that was found is found again. -/
theorem calm_select {k : S.Key} (hk : K k) {f : Option (S.Row k) → Prog S β}
    (hf : ∀ r, Calm P i K (f (some r))) : Calm P i K ((select k).bind f) := by
  refine ⟨fun σ g hK st γ x hs _ => ?_⟩
  obtain ⟨r, hr⟩ := Option.isSome_iff_exists.mp (hs.object_isSome (hK k hk))
  refine ⟨g, hs.remember _ _ _ hs.forget.inv fun _ h => .inl h, ?_⟩
  show (f (σ.object st.db k)).safe _ _ _ _ _ _
  rw [hr]
  exact (hf r).safe _ g hK

theorem calm_selectForUpdate {k : S.Key} (hk : K k) {f : Option (S.Row k) → Prog S β}
    (hf : ∀ r, Calm P i K (f (some r))) : Calm P i K ((selectForUpdate k).bind f) := by
  refine ⟨fun σ g hK st γ x hs _ => ?_⟩
  obtain ⟨r, hr⟩ := Option.isSome_iff_exists.mp (hs.object_isSome (hK k hk))
  refine ⟨g, hs.remember _ _ _ hs.forget.inv fun _ h => .inl h, ?_⟩
  show (f (σ.object st.db k)).safe _ _ _ _ _ _
  rw [hr]
  exact (hf r).safe _ g hK

/-- A row that is asked for under its lock, made when it is not there, and asked for again when the
key turns out to be taken. -/
theorem calm_getOrCreate {k : S.Key} {row row' : S.Row k} {e : S.Err}
    {f : Option (S.Row k) → Prog S (S.Row k)} (hsome : ∀ r, Calm P i K (f (some r)))
    (hnone : f none = (create k row).bind fun inserted => if inserted then ret row'
      else (selectForUpdate k).bind fun o => orRaise e o) :
    Calm P i K ((selectForUpdate k).bind f) := by
  refine ⟨fun σ g hK st γ x hs _ => ⟨g, hs.remember _ _ _ hs.forget.inv fun _ h => .inl h, ?_⟩⟩
  show (f (σ.object st.db k)).safe _ _ _ _ ((σ.lock st.db k).load st.db k) _
  cases hv : σ.view st.db k with
  | some r =>
      have hob : σ.object st.db k = some ((σ.loaded k).getD r) := by rw [Session.object, hv]; rfl
      rw [hob]
      exact (hsome _).safe _ g hK
  | none =>
      have hob : σ.object st.db k = none := by rw [Session.object, hv]; rfl
      have hheld : σ.held k = none := by
        cases hd : σ.held k with
        | none => rfl
        | some h₀ =>
            rw [Session.view_of_held hd] at hv
            exact absurd (hs.sound.own k h₀ hd) (by simp [hv])
      have hsame : (σ.lock st.db k).load st.db k = σ := by
        rw [Session.lock_of_no_view hv, Session.load, hob]
      rw [hob, hsame, hnone]
      intro st₁ γ₁ x₁ hs₁ _
      cases hv₁ : σ.view st₁.db k with
      | none =>
          simp only [Stmt.exec, hv₁]
          refine ⟨g, ?_, hK⟩
          have := hs₁.remember (.create k row) x₁ g ?_ fun _ h => .inl h
          · simpa only [Stmt.exec, hv₁] using this
          · simpa only [Stmt.exec, hv₁] using hs₁.forget.inv
      | some r₁ =>
          -- the key is taken: from now on the row is there
          have hpresent : (st₁.db.rows k).isSome := by
            rw [Session.view_of_not_held hheld] at hv₁
            rw [hv₁]
            rfl
          simp only [Stmt.exec, hv₁]
          refine ⟨fun k' => g k' ∨ k' = k, ?_, ?_⟩
          · have := hs₁.remember (.create k row) x₁ (fun k' => g k' ∨ k' = k) ?_ ?_
            · simpa only [Stmt.exec, hv₁] using this
            · simpa only [Stmt.exec, hv₁] using hs₁.forget.inv
            · rintro k' (h | rfl)
              · exact .inl h
              · exact .inr hpresent
          · intro st₂ γ₂ x₂ hs₂ _
            obtain ⟨r₂, hr₂⟩ := Option.isSome_iff_exists.mp (hs₂.object_isSome (.inr rfl))
            refine ⟨fun k' => g k' ∨ k' = k, hs₂.remember _ _ _ hs₂.forget.inv fun _ h => .inl h, ?_⟩
            show (orRaise e (σ.object st₂.db k)).safe _ _ _ _ _ _
            rw [hr₂]
            exact fun k' hk' => .inl (hK k' hk')

/-! ## A loop that comes to one element once -/

/-- `I` holds until the loop comes to the element `me`, and `J` from then on. -/
theorem safe_tally_once {G γ κ : Type} [DecidableEq κ] {P : Protocol S G} {i : ℕ}
    {R : S.Err → Session S → G → Prop} (name : γ → κ) (me : κ) {body : γ → Prog S Bool}
    {I J : Session S → G → Prop} (hIJ : ∀ σ g, I σ g → J σ g) {l : List γ}
    (hnodup : (l.map name).Nodup)
    (hother : ∀ a, name a ≠ me → ∀ σ g,
      (I σ g → (body a).safe P i (fun _ => I) R σ g) ∧
      (J σ g → (body a).safe P i (fun _ => J) R σ g))
    (hself : ∀ a ∈ l, name a = me → ∀ σ g, I σ g → (body a).safe P i (fun _ => J) R σ g)
    {σ : Session S} {g : G} (h : I σ g) : (tally l body).safe P i (fun _ => J) R σ g := by
  -- the rest of the list, when `me` has been handled
  have rest : ∀ l' : List γ, me ∉ l'.map name → ∀ σ g, J σ g →
      (tally l' body).safe P i (fun _ => J) R σ g := by
    intro l'
    induction l' with
    | nil => exact fun _ _ _ h => h
    | cons a l' ih =>
        intro hme σ g h
        rw [List.map_cons, List.mem_cons, not_or] at hme
        refine safe_bind (safe_mono ((hother a (Ne.symm hme.1) σ g).2 h) (fun _ σ' g' h' => ?_)
          fun _ _ _ h => h)
        exact safe_bind (safe_mono (ih hme.2 σ' g' h') (fun _ _ _ h => h) fun _ _ _ h => h)
  induction l generalizing σ g with
  | nil => exact hIJ σ g h
  | cons a l ih =>
      rw [List.map_cons, List.nodup_cons] at hnodup
      by_cases ha : name a = me
      · refine safe_bind (safe_mono (hself a List.mem_cons_self ha σ g h) (fun _ σ' g' h' => ?_)
          fun _ _ _ h => h)
        exact safe_bind (safe_mono (rest l (ha ▸ hnodup.1) σ' g' h') (fun _ _ _ h => h)
          fun _ _ _ h => h)
      · refine safe_bind (safe_mono ((hother a ha σ g).1 h) (fun _ σ' g' h' => ?_) fun _ _ _ h => h)
        exact safe_bind (safe_mono (ih hnodup.2 (fun b hb => hself b (List.mem_cons_of_mem _ hb)) h')
          (fun _ _ _ h => h) fun _ _ _ h => h)

end Prog

end

end Txn
