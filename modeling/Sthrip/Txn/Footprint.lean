import Sthrip.Txn.Rules

set_option autoImplicit false

/-! # What a program leaves alone

A proof about one row has to look at every program, also at those that have nothing to do with the
row. `Prog.only ok` says of a program, from its text alone, that all statements it can run satisfy
`ok`; it follows the program with one rule for each combinator. When they all leave some rows and
entries alone (`Stmt.off`), so does the program (`safe_off`).

The second part is about the rows a query returns in a session that runs with others: the objects
it lists have what is known of every row of the table, and none of the rows that stay is missing
(`safe_query`).
-/

namespace Txn

variable {S : Schema} {α β G : Type}

/-! ## The statements of a program -/

/-- All statements the program can run satisfy `ok`. -/
def Prog.only (ok : Stmt S → Prop) : Prog S α → Prop
  | .ret _ => True
  | .raise _ => True
  | .step s next => ok s ∧ ∀ r, (next r).only ok

namespace Prog

variable {ok : Stmt S → Prop}

theorem only_stmt {s : Stmt S} (h : ok s) : (stmt s).only ok := ⟨h, fun _ => trivial⟩

theorem only_mono {ok ok' : Stmt S → Prop} {p : Prog S α} (h : p.only ok)
    (himp : ∀ s, ok s → ok' s) : p.only ok' := by
  induction p with
  | ret a => trivial
  | raise e => trivial
  | step s next ih => exact ⟨himp s h.1, fun x => ih x (h.2 x)⟩

theorem only_bind {p : Prog S α} {f : α → Prog S β} (h : p.only ok) (hf : ∀ a, (f a).only ok) :
    (p.bind f).only ok := by
  induction p with
  | ret a => exact hf a
  | raise e => trivial
  | step s next ih => exact ⟨h.1, fun r => ih r (h.2 r)⟩

theorem only_raiseIf {c : Prop} [Decidable c] {e : S.Err} : (raiseIf c e).only ok := by
  unfold raiseIf
  split
  · trivial
  · trivial

theorem only_orRaise {e : S.Err} {o : Option α} : (orRaise e o).only ok := by
  cases o with
  | none => trivial
  | some a => trivial

theorem only_onlyIf {c : Prop} [Decidable c] {p : Prog S α} (h : p.only ok) :
    (onlyIf c p).only ok := by
  unfold onlyIf
  split
  · exact only_bind h fun _ => trivial
  · trivial

theorem only_forEach {γ : Type} {f : γ → Prog S Unit} (l : List γ) (h : ∀ a, (f a).only ok) :
    (forEach l f).only ok := by
  induction l with
  | nil => trivial
  | cons a l ih => exact only_bind (h a) fun _ => ih

theorem only_tally {γ : Type} {f : γ → Prog S Bool} (l : List γ) (h : ∀ a, (f a).only ok) :
    (tally l f).only ok := by
  induction l with
  | nil => trivial
  | cons a l ih => exact only_bind (h a) fun _ => only_bind ih fun _ => trivial

theorem only_tryCatch {p : Prog S α} {h : S.Err → Prog S α} (hp : p.only ok)
    (hh : ∀ e, (h e).only ok) : (p.tryCatch h).only ok := by
  induction p with
  | ret a => trivial
  | raise e => exact hh e
  | step s next ih => exact ⟨hp.1, fun r => ih r (hp.2 r)⟩

theorem only_withSession {p : Prog S α} (hcommit : ok .commit) (hrollback : ok .rollback)
    (hp : p.only ok) : (withSession p).only ok := by
  refine only_tryCatch (only_bind hp fun a => only_bind (only_stmt hcommit) fun committed => ?_)
    fun e => only_bind (only_stmt hrollback) fun _ => trivial
  split
  · trivial
  · trivial

theorem only_query {p : (k : S.Key) → S.Row k → Bool} (hscan : ok (.scan p))
    (hselect : ∀ k, ok (.select k)) : (query p).only ok := by
  refine only_bind (only_stmt hscan) fun ks => ?_
  induction ks with
  | nil => trivial
  | cons k ks ih =>
      exact only_bind (only_stmt (hselect k)) fun row => only_bind ih fun rows => trivial

/-- What every statement keeps, the program keeps. -/
theorem always_of_only {ok : Stmt S → Prop} {I : DB S → Prop} {Ok : StepCond S}
    (hI : ∀ s x (v : Solo S), ok s → I v.db →
      I (s.eval x v).2.db ∧ (s.eval x v).2.saved = v.saved)
    {p : Prog S α} (hp : p.only ok) {v : Solo S} (hv : I v.db) :
    p.always Ok (fun _ v' => I v'.db ∧ v'.saved = v.saved)
      (fun _ v' => I v'.db ∧ v'.saved = v.saved) v := by
  induction p generalizing v with
  | ret a => exact ⟨hv, rfl⟩
  | raise e => exact ⟨hv, rfl⟩
  | step s next ih =>
      intro x _ _
      obtain ⟨hdb, hsaved⟩ := hI s x v hp.1 hv
      exact always_mono (ih _ (hp.2 _) hdb) (fun _ _ h => ⟨h.1, h.2.trans hsaved⟩)
        fun _ _ h => ⟨h.1, h.2.trans hsaved⟩

end Prog

/-! ## Rows and entries left alone -/

/-- The statement does not lock or write the rows `K`, inserts no entry that `f` reads, and does
not end the session. -/
def Stmt.off {ρ : Type} (K : S.Key → Prop) (f : S.Entry → Option ρ) : Stmt S → Prop
  | .selectForUpdate k => ¬K k
  | .update k _ _ => ¬K k
  | .assign k _ => ¬K k
  | .create k _ => ¬K k
  | .insert e => f e = none
  | .call _ => False
  | .commit => False
  | .rollback => False
  | _ => True

/-- Two sessions hold the same of the rows `K`, and have inserted the same of what `f` reads. -/
structure Session.Same {ρ : Type} (K : S.Key → Prop) (f : S.Entry → Option ρ)
    (σ σ' : Session S) : Prop where
  held : ∀ k, K k → σ'.held k = σ.held k
  inserted : σ'.inserted.filterMap f = σ.inserted.filterMap f

section Off

variable {ρ : Type} {K : S.Key → Prop} {f : S.Entry → Option ρ}

theorem Session.Same.refl (σ : Session S) : σ.Same K f σ := ⟨fun _ _ => rfl, rfl⟩

theorem Session.Same.trans {σ σ' σ'' : Session S} (h : σ.Same K f σ') (h' : σ'.Same K f σ'') :
    σ.Same K f σ'' :=
  ⟨fun k hk => (h'.held k hk).trans (h.held k hk), h'.inserted.trans h.inserted⟩

/-- A change of the session in one row, which is not among `K`. -/
theorem Session.Same.of_row {σ σ' : Session S} {k : S.Key} (hk : ¬K k)
    (hheld : ∀ k', k' ≠ k → σ'.held k' = σ.held k') (hins : σ'.inserted = σ.inserted) :
    σ.Same K f σ' :=
  ⟨fun k' hk' => hheld k' fun he => hk (he ▸ hk'), by rw [hins]⟩

theorem Stmt.exec_off (s : Stmt S) (x : Input S) (st : Store S) (σ : Session S)
    (h : s.off K f) : (s.exec x st σ).2.1 = st ∧ σ.Same K f (s.exec x st σ).2.2 := by
  cases s with
  | now => exact ⟨rfl, .refl σ⟩
  | ask => exact ⟨rfl, .refl σ⟩
  | select k =>
      refine ⟨rfl, fun k' _ => ?_, ?_⟩
      · simp only [exec, Session.load_held]
      · simp only [exec, Session.load_inserted]
  | selectForUpdate k =>
      refine ⟨rfl, .of_row h (fun k' hk' => ?_) ?_⟩
      · simp only [exec, Session.load_held]
        unfold Session.lock
        split
        · exact Function.update_of_ne hk' ..
        · rfl
      · simp only [exec, Session.load_inserted, Session.lock_inserted]
  | scan p => exact ⟨rfl, fun _ _ => rfl, rfl⟩
  | update k guard set =>
      simp only [exec]
      split
      · split
        · exact ⟨rfl, .of_row h (fun k' hk' => Function.update_of_ne hk' ..) rfl⟩
        · exact ⟨rfl, fun _ _ => rfl, rfl⟩
      · exact ⟨rfl, fun _ _ => rfl, rfl⟩
  | assign k set =>
      simp only [exec]
      split
      · exact ⟨rfl, .of_row h (fun k' hk' => Function.update_of_ne hk' ..) rfl⟩
      · exact ⟨rfl, .refl σ⟩
  | create k row =>
      simp only [exec]
      split
      · exact ⟨rfl, .refl σ⟩
      · exact ⟨rfl, .of_row h (fun k' hk' => Function.update_of_ne hk' ..) rfl⟩
  | insert e =>
      have hnone : f e = none := h
      refine ⟨rfl, fun _ _ => rfl, ?_⟩
      simp [exec, hnone]
  | expireAll => exact ⟨rfl, fun _ _ => rfl, rfl⟩
  | call op => exact h.elim
  | commit => exact h.elim
  | rollback => exact h.elim

/-- What every statement leaves alone, the program leaves alone. -/
theorem Prog.safe_off {P : Protocol S G} {i : ℕ} {p : Prog S α} (h : p.only (Stmt.off K f))
    {σ : Session S} {g : G} :
    p.safe P i (fun _ σ' g' => σ.Same K f σ' ∧ g' = g) (fun _ _ g' => g' = g) σ g := by
  induction p generalizing σ with
  | ret a => exact ⟨.refl σ, rfl⟩
  | raise e => rfl
  | step s next ih =>
      intro st γ x hs _
      obtain ⟨hst, hsame⟩ := s.exec_off x st σ h.1
      refine ⟨g, ?_, ?_⟩
      · rw [hst, ← hs.ghost, Function.update_eq_self]
        exact hs.inv
      · refine safe_mono (ih _ (h.2 _)) (fun _ σ' g' h' => ?_) fun _ _ _ h' => h'
        exact ⟨hsame.trans h'.1, h'.2⟩

/-- Two databases have the same rows `K`, in the same order, and the same of what `f` reads. -/
structure DB.Same (K : S.Key → Prop) (f : S.Entry → Option ρ) (db db' : DB S) : Prop where
  rows : ∀ k, K k → db'.rows k = db.rows k
  matching : ∀ p : (k : S.Key) → S.Row k → Bool, (∀ k r, ¬K k → p k r = false) →
    db'.matching p = db.matching p
  entries : db'.log.filterMap f = db.log.filterMap f

theorem DB.Same.refl (db : DB S) : db.Same K f db := ⟨fun _ _ => rfl, fun _ _ => rfl, rfl⟩

theorem DB.Same.trans {db db' db'' : DB S} (h : db.Same K f db') (h' : db'.Same K f db'') :
    db.Same K f db'' :=
  ⟨fun k hk => (h'.rows k hk).trans (h.rows k hk),
    fun p hp => (h'.matching p hp).trans (h.matching p hp), h'.entries.trans h.entries⟩

theorem DB.Same.put (db : DB S) {k : S.Key} (hk : ¬K k) (row : S.Row k) : db.Same K f (db.put k row) :=
  ⟨fun _ hk' => DB.put_rows_ne db row fun he => hk (he ▸ hk'),
    fun _ hp => DB.matching_put_of_not (fun r => hp k r hk) db row, rfl⟩

/-- A session that runs alone leaves them alone in the database it sees. -/
theorem Stmt.eval_off (s : Stmt S) (x : Input S) (v : Solo S) (h : s.off K f) :
    v.db.Same K f (s.eval x v).2.db ∧ (s.eval x v).2.saved = v.saved := by
  cases s with
  | update k guard set =>
      simp only [eval]
      split
      · split
        · exact ⟨.put _ h _, rfl⟩
        · exact ⟨.refl _, rfl⟩
      · exact ⟨.refl _, rfl⟩
  | assign k set =>
      simp only [eval]
      split
      · exact ⟨.put _ h _, rfl⟩
      · exact ⟨.refl _, rfl⟩
  | create k row =>
      simp only [eval]
      split
      · exact ⟨.refl _, rfl⟩
      · exact ⟨.put _ h _, rfl⟩
  | insert e =>
      have hnone : f e = none := h
      refine ⟨⟨fun _ _ => rfl, fun _ _ => rfl, ?_⟩, rfl⟩
      simp [eval, hnone]
  | call op => exact h.elim
  | commit => exact h.elim
  | rollback => exact h.elim
  | _ => exact ⟨.refl _, rfl⟩

theorem Prog.always_off {Ok : StepCond S} {p : Prog S α} (h : p.only (Stmt.off K f)) (v : Solo S) :
    p.always Ok (fun _ v' => v.db.Same K f v'.db ∧ v'.saved = v.saved)
      (fun _ v' => v'.saved = v.saved) v := by
  refine always_mono (always_of_only (I := fun db => v.db.Same K f db) (fun s x v₁ hs hv₁ => ?_) h
    (.refl _)) (fun _ _ h' => h') fun _ _ h' => h'.2
  obtain ⟨hsame, hsaved⟩ := s.eval_off x v₁ hs
  exact ⟨hv₁.trans hsame, hsaved⟩

end Off

/-! ## The rows of a query -/

theorem Session.Sound.of_loaded {σ : Session S} (h : σ.Sound)
    (loaded : (k : S.Key) → Option (S.Row k)) : { σ with loaded := loaded }.Sound :=
  h.congr rfl rfl

/-- What a thread knows does not depend on the objects it has loaded. -/
theorem Protocol.Sees.of_loaded {P : Protocol S G} {i : ℕ} {σ : Session S} {g : G} {st : Store S}
    {γ : ℕ → G} {loaded : (k : S.Key) → Option (S.Row k)}
    (h : P.Sees i { σ with loaded := loaded } g st γ) : P.Sees i σ g st γ :=
  ⟨h.inv, h.ghost, h.agrees, h.sound.of_loaded σ.loaded, h.wf⟩

/-- What a thread knows about every row it can see. -/
def Protocol.Knows (P : Protocol S G) (i : ℕ) (σ : Session S) (g : G)
    (Good : (k : S.Key) → S.Row k → Prop) : Prop :=
  ∀ st γ, P.Sees i σ g st γ → ∀ k r, σ.view st.db k = some r → Good k r

theorem Protocol.Knows.of_loaded {P : Protocol S G} {i : ℕ} {σ : Session S} {g : G}
    {Good : (k : S.Key) → S.Row k → Prop} (h : P.Knows i σ g Good)
    (loaded : (k : S.Key) → Option (S.Row k)) : P.Knows i { σ with loaded := loaded } g Good :=
  fun st γ hs => h st γ hs.of_loaded

/-- The object of a row is the row, or an object loaded before. -/
theorem Protocol.Knows.object {P : Protocol S G} {i : ℕ} {σ : Session S} {g : G} {st : Store S}
    {γ : ℕ → G} {Good : (k : S.Key) → S.Row k → Prop} (h : P.Knows i σ g Good)
    (hs : P.Sees i σ g st γ) (hloaded : ∀ k o, σ.loaded k = some o → Good k o) {k : S.Key}
    {r : S.Row k} (hr : σ.object st.db k = some r) : Good k r := by
  obtain ⟨r', hr', hget⟩ := Option.map_eq_some_iff.mp hr
  cases ho : σ.loaded k with
  | none =>
      rw [ho, Option.getD_none] at hget
      exact hget ▸ h st γ hs k r' hr'
  | some o =>
      rw [ho, Option.getD_some] at hget
      exact hget ▸ hloaded k o ho

/-- The row of `k` is there, matches `p`, and nobody can change that. -/
def Protocol.Stays (P : Protocol S G) (i : ℕ) (σ : Session S) (g : G)
    (p : (k : S.Key) → S.Row k → Bool) (k : S.Key) : Prop :=
  ∀ st γ, P.Sees i σ g st γ → ∃ r, σ.view st.db k = some r ∧ p k r = true

/-- Loading an object of which something is known. -/
theorem Session.loaded_of_load {σ : Session S} {db : DB S} {k : S.Key}
    {Good : (k : S.Key) → S.Row k → Prop} (hobj : ∀ r, σ.object db k = some r → Good k r)
    (hloaded : ∀ k o, σ.loaded k = some o → Good k o) (k' : S.Key) (o : S.Row k')
    (h : (σ.load db k).loaded k' = some o) : Good k' o := by
  unfold Session.load at h
  split at h
  · next r hr =>
      replace h : Function.update σ.loaded k (some r) k' = some o := h
      by_cases hk : k' = k
      · subst hk
        rw [Function.update_self, Option.some.injEq] at h
        exact h ▸ hobj r hr
      · rw [Function.update_of_ne hk] at h
        exact hloaded k' o h
  · exact hloaded k' o h

theorem Session.lock_object (σ : Session S) (db : DB S) (k k' : S.Key) :
    (σ.lock db k).object db k' = σ.object db k' := by
  unfold Session.object
  rw [Session.lock_view, Session.lock_loaded]

namespace Prog

variable {P : Protocol S G} {i : ℕ} {R : S.Err → Session S → G → Prop} {σ : Session S} {g : G}

/-- The objects of the rows with the keys `ks`. -/
theorem safe_selectAll {p : (k : S.Key) → S.Row k → Bool}
    {Good : (k : S.Key) → S.Row k → Prop} (hknows : P.Knows i σ g Good) (ks : List S.Key)
    {Q : List (Σ k, S.Row k) → Session S → G → Prop} (loaded : (k : S.Key) → Option (S.Row k))
    (hloaded : ∀ k o, loaded k = some o → Good k o)
    (h : ∀ l loaded, (l.map Sigma.fst).Sublist ks → (∀ x ∈ l, Good x.1 x.2) →
      (∀ k ∈ ks, P.Stays i σ g p k → k ∈ l.map Sigma.fst) →
      (∀ k o, loaded k = some o → Good k o) → Q l { σ with loaded := loaded } g) :
    (selectAll ks).safe P i Q R { σ with loaded := loaded } g := by
  induction ks generalizing loaded Q with
  | nil => exact h [] loaded (List.Sublist.refl []) (by simp) (by simp) hloaded
  | cons k ks ih =>
      refine safe_bind (safe_select fun st γ hs => ?_)
      have hs' : P.Sees i σ g st γ := hs.of_loaded
      cases hk : Session.object { σ with loaded := loaded } st.db k with
      | none =>
          -- a row that stays cannot be missing
          have hgone : ¬P.Stays i σ g p k := by
            intro hstays
            obtain ⟨r, hr, -⟩ := hstays st γ hs'
            have hv : Session.view { σ with loaded := loaded } st.db k = some r := hr
            simp [Session.object, hv] at hk
          simp only [Session.load, hk]
          refine safe_bind (ih loaded hloaded fun l loaded' hsub hl hstay hload => ?_)
          refine h l loaded' (hsub.cons k) hl (fun k' hk' hstays => ?_) hload
          rcases List.mem_cons.mp hk' with rfl | hk'
          · exact absurd hstays hgone
          · exact hstay k' hk' hstays
      | some r =>
          simp only [Session.load, hk]
          have hgood := (hknows.of_loaded loaded).object hs hloaded hk
          have hload : ∀ k' o, Function.update loaded k (some r) k' = some o → Good k' o := by
            have := Session.loaded_of_load (fun r' hr' => by
              obtain rfl := Option.some.inj (hk.symm.trans hr')
              exact hgood) hloaded
            simpa only [Session.load, hk] using this
          refine safe_bind (ih _ hload fun l loaded' hsub hl hstay hload' => ?_)
          refine h (⟨k, r⟩ :: l) loaded' (hsub.cons_cons k) (fun x hx => ?_)
            (fun k' hk' hstays => ?_) hload'
          · rcases List.mem_cons.mp hx with rfl | hx
            · exact hgood
            · exact hl x hx
          · rcases List.mem_cons.mp hk' with rfl | hk'
            · simp
            · exact List.mem_cons_of_mem _ (hstay k' hk' hstays)

/-- A query lists objects of which is known what is known of every row, each once; their rows
matched when it ran, and none of the rows that stay is missing. -/
theorem safe_query {p : (k : S.Key) → S.Row k → Bool} {Good : (k : S.Key) → S.Row k → Prop}
    {Q : List (Σ k, S.Row k) → Session S → G → Prop} (hknows : P.Knows i σ g Good)
    (hloaded : ∀ k o, σ.loaded k = some o → Good k o)
    (h : ∀ l loaded, (l.map Sigma.fst).Nodup → (∀ x ∈ l, Good x.1 x.2) →
      (∀ x ∈ l, ∃ st γ r, P.Sees i σ g st γ ∧ σ.view st.db x.1 = some r ∧ p x.1 r = true) →
      (∀ k, P.Stays i σ g p k → k ∈ l.map Sigma.fst) →
      (∀ k o, loaded k = some o → Good k o) → Q l { σ with loaded := loaded } g) :
    (query p).safe P i Q R σ g := by
  refine safe_bind (safe_scan fun st γ ks hs hperm => ?_)
  -- the session sees the table as its commit would leave it
  have hwf : (st.db.apply σ).WF := hs.sound.apply_wf hs.agrees hs.wf
  have hperm' : ks.Perm ((st.db.apply σ).matching p) := hperm
  refine safe_selectAll (p := p) hknows ks _ (fun k o ho => ?_) fun l loaded hsub hl hstay hload =>
    h l loaded (hsub.nodup (hwf.nodup_of_perm hperm')) hl (fun x hx => ?_) (fun k hk => ?_) hload
  · split at ho
    · exact hknows.object hs hloaded ho
    · exact hloaded k o ho
  · obtain ⟨r, hr, hp⟩ := (hwf.mem_of_perm hperm').mp (hsub.subset (List.mem_map_of_mem hx))
    exact ⟨st, γ, r, hs, hr, hp⟩
  · exact hstay k ((hwf.mem_of_perm hperm').mpr (hk st γ hs)) hk

end Prog

end Txn
