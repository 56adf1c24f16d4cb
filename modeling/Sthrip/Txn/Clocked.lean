import Sthrip.Txn.Keeps

set_option autoImplicit false

/-! # What is true when a statement runs

An invariant of the committed database says nothing about the moment at which a statement runs.
`Prog.asserts` follows one session and collects what it knows when it comes to a statement: the
rows it holds, the objects it has loaded, and that the clock, which all threads share, does not go
back. `Config.asserted` is its soundness: the assertion holds at every statement of every clocked
run.

A statement is apart from a row when it neither locks, writes nor forgets it; such a statement
changes nothing of what the session knows of the row (`asserts_apart`).
-/

namespace Txn

variable {S : Schema} {α β : Type}

/-! ## Runs with a clock -/

/-- The configurations that runs lead to whose clock does not go back, with the clock at the last
statement. -/
inductive Config.Clocked (Ok : Store S → Session S → Stmt S → Input S → Prop) (c₀ : Config S α) :
    ℤ → Config S α → Prop where
  | refl (t : ℤ) : Clocked Ok c₀ t c₀
  | exec {t : ℤ} {c c' : Config S α} {i : ℕ} {x : Input S} {s : Stmt S} {next : s.Res → Prog S α} :
      Clocked Ok c₀ t c → c.prog i = .step s next → t ≤ x.time → Ok c.store (c.sess i) s x →
      c.exec i x = some c' → Clocked Ok c₀ x.time c'
  | crash {t : ℤ} {c : Config S α} (i : ℕ) : Clocked Ok c₀ t c → Clocked Ok c₀ t (c.crash i)

theorem Config.Clocked.reaches {Ok : Store S → Session S → Stmt S → Input S → Prop}
    {c₀ c : Config S α} {t : ℤ} (h : Clocked Ok c₀ t c) : Reaches Ok c₀ c := by
  induction h with
  | refl t => exact .refl
  | exec _ hp _ hok hx ih => exact .exec ih hp hok hx
  | crash i _ ih => exact .crash i ih

/-! ## Assertions -/

/-- The session and the store fit together. -/
structure Session.Fit (σ : Session S) (st : Store S) : Prop where
  agrees : σ.Agrees st.db
  sound : σ.Sound
  wf : st.db.WF

/-- `A` holds at every statement, from the clock `t` on; the program returns with `Q` or raises
with `R`. -/
def Prog.asserts (Ok A : Store S → Session S → Stmt S → Input S → Prop) : Prog S α →
    (α → ℤ → Session S → Prop) → (S.Err → ℤ → Session S → Prop) → ℤ → Session S → Prop
  | .ret a, Q, _, t, σ => Q a t σ
  | .raise e, _, R, t, σ => R e t σ
  | .step s next, Q, R, t, σ => ∀ st x, t ≤ x.time → σ.Fit st → Ok st σ s x →
      A st σ s x ∧ (next (s.exec x st σ).1).asserts Ok A Q R x.time (s.exec x st σ).2.2

namespace Prog

variable {Ok A : Store S → Session S → Stmt S → Input S → Prop} {R : S.Err → ℤ → Session S → Prop}
  {t : ℤ} {σ : Session S}

theorem asserts_mono {p : Prog S α} {Q Q' : α → ℤ → Session S → Prop}
    {R' : S.Err → ℤ → Session S → Prop} (h : p.asserts Ok A Q R t σ)
    (hQ : ∀ a t σ, Q a t σ → Q' a t σ) (hR : ∀ e t σ, R e t σ → R' e t σ) :
    p.asserts Ok A Q' R' t σ := by
  induction p generalizing t σ with
  | ret a => exact hQ _ _ _ h
  | raise e => exact hR _ _ _ h
  | step s next ih =>
      intro st x ht hfit hok
      obtain ⟨hA, hnext⟩ := h st x ht hfit hok
      exact ⟨hA, ih _ hnext⟩

theorem asserts_bind {p : Prog S α} {f : α → Prog S β} {Q : β → ℤ → Session S → Prop}
    (h : p.asserts Ok A (fun a t σ => (f a).asserts Ok A Q R t σ) R t σ) :
    (p.bind f).asserts Ok A Q R t σ := by
  induction p generalizing t σ with
  | ret a => exact h
  | raise e => exact h
  | step s next ih =>
      intro st x ht hfit hok
      obtain ⟨hA, hnext⟩ := h st x ht hfit hok
      exact ⟨hA, ih _ hnext⟩

theorem asserts_tryCatch {p : Prog S α} {h : S.Err → Prog S α} {Q : α → ℤ → Session S → Prop}
    (hp : p.asserts Ok A Q (fun e t σ => (h e).asserts Ok A Q R t σ) t σ) :
    (p.tryCatch h).asserts Ok A Q R t σ := by
  induction p generalizing t σ with
  | ret a => exact hp
  | raise e => exact hp
  | step s next ih =>
      intro st x ht hfit hok
      obtain ⟨hA, hnext⟩ := hp st x ht hfit hok
      exact ⟨hA, ih _ hnext⟩

theorem asserts_now {Q : ℤ → ℤ → Session S → Prop}
    (h : ∀ st x, t ≤ x.time → A st σ .now x ∧ Q x.time x.time σ) :
    now.asserts Ok A Q R t σ := fun st x ht _ _ => h st x ht

theorem asserts_selectForUpdate {k : S.Key} {Q : Option (S.Row k) → ℤ → Session S → Prop}
    (h : ∀ st x, t ≤ x.time → σ.Fit st → Ok st σ (.selectForUpdate k) x →
      A st σ (.selectForUpdate k) x ∧
        Q (σ.object st.db k) x.time ((σ.lock st.db k).load st.db k)) :
    (selectForUpdate k).asserts Ok A Q R t σ := h

theorem asserts_scan {p : (k : S.Key) → S.Row k → Bool} {Q : List S.Key → ℤ → Session S → Prop}
    (h : ∀ st x l, t ≤ x.time → σ.Fit st → Ok st σ (.scan p) x → l.Perm (σ.matching st.db p) →
      A st σ (.scan p) x ∧ Q l x.time (σ.loadAll st.db l)) :
    (scan p).asserts Ok A Q R t σ := fun st x ht hfit hok =>
  h st x _ ht hfit hok (x.arrange_perm _)

/-- Statements about which there is nothing to assert. -/
theorem asserts_only {ok : Stmt S → Prop} (hA : ∀ st σ s x, ok s → A st σ s x) {p : Prog S α}
    (h : p.only ok) :
    p.asserts Ok A (fun _ _ _ => True) (fun _ _ _ => True) t σ := by
  induction p generalizing t σ with
  | ret a => trivial
  | raise e => trivial
  | step s next ih => exact fun st x _ _ _ => ⟨hA st σ s x h.1, ih _ (h.2 _)⟩

theorem asserts_withSession (hcommit : ∀ st σ x, A st σ .commit x)
    (hrollback : ∀ st σ x, A st σ .rollback x) {p : Prog S α}
    (h : p.asserts Ok A (fun _ _ _ => True) (fun _ _ _ => True) t σ) :
    (withSession p).asserts Ok A (fun _ _ _ => True) (fun _ _ _ => True) t σ := by
  have hraise : ∀ (e : S.Err) (t : ℤ) (σ : Session S), (rollback.bind fun _ =>
      (raise e : Prog S α)).asserts Ok A (fun _ _ _ => True) (fun _ _ _ => True) t σ :=
    fun e t σ st x _ _ _ => ⟨hrollback st σ x, trivial⟩
  have hdone : ∀ (t : ℤ) (σ : Session S), commit.asserts Ok A (fun _ _ _ => True)
      (fun _ _ _ => True) t σ := fun t σ st x _ _ _ => ⟨hcommit st σ x, trivial⟩
  refine asserts_tryCatch (asserts_bind (asserts_mono h (fun a t σ _ => ?_)
    fun e t σ _ => hraise e t σ))
  refine asserts_bind (asserts_mono (hdone t σ) (fun committed t σ _ => ?_)
    fun e t σ _ => hraise e t σ)
  split
  · trivial
  · exact hraise _ _ _

end Prog

/-! ## Statements apart from a row -/

section Apart

variable {k : S.Key}

/-- The statement neither locks, writes nor forgets the row. -/
def Stmt.apart (k : S.Key) (s : Stmt S) : Prop :=
  s.off (· = k) (fun _ => (none : Option Unit)) ∧ s ≠ .expireAll

/-- An object that is loaded stays as it is. -/
theorem Session.load_loaded {σ : Session S} {db : DB S} {k k' : S.Key} {o : S.Row k}
    (ho : σ.loaded k = some o) : (σ.load db k').loaded k = some o := by
  unfold Session.load
  split
  · next r hr =>
      show Function.update σ.loaded k' (some r) k = some o
      by_cases hk : k = k'
      · subst hk
        obtain ⟨r', -, hr'⟩ := Option.map_eq_some_iff.mp hr
        rw [ho, Option.getD_some] at hr'
        rw [Function.update_self, hr']
      · rw [Function.update_of_ne hk]
        exact ho
  · exact ho

/-- Scanning loads the objects of rows that are there. -/
theorem Session.loadAll_loaded {σ : Session S} {db : DB S} {ks : List S.Key} {k : S.Key}
    {o : S.Row k} (ho : σ.loaded k = some o) (hks : k ∈ ks → (σ.view db k).isSome) :
    (σ.loadAll db ks).loaded k = some o := by
  show (if k ∈ ks then σ.object db k else σ.loaded k) = some o
  split
  · next hk =>
      obtain ⟨r, hr⟩ := Option.isSome_iff_exists.mp (hks hk)
      rw [Session.object, hr, ho]
      rfl
  · exact ho

theorem Stmt.exec_apart {s : Stmt S} (h : s.apart k) (x : Input S) (st : Store S) (σ : Session S) :
    (s.exec x st σ).2.2.held k = σ.held k ∧
      ∀ o, σ.loaded k = some o → (s.exec x st σ).2.2.loaded k = some o := by
  obtain ⟨hoff, hne⟩ := h
  refine ⟨(s.exec_off x st σ hoff).2.held k rfl, fun o ho => ?_⟩
  have hother : ∀ {k' : S.Key} {v : Option (S.Row k')}, k' ≠ k →
      Function.update σ.loaded k' v k = some o := by
    intro k' v hk'
    rw [Function.update_of_ne (Ne.symm hk')]
    exact ho
  cases s with
  | now => exact ho
  | ask => exact ho
  | select k' => exact Session.load_loaded ho
  | selectForUpdate k' => exact Session.load_loaded ((Session.lock_loaded ..).symm ▸ ho)
  | scan p =>
      refine Session.loadAll_loaded ho fun hk => ?_
      have hmatch := (x.arrange_perm _).mem_iff.mp hk
      have hany := (List.mem_filter.mp hmatch).2
      obtain ⟨r, hr, -⟩ := (Option.any_eq_true ..).mp hany
      exact Option.isSome_iff_exists.mpr ⟨r, hr⟩
  | update k' guard set =>
      simp only [exec]
      split
      · split
        · exact hother hoff
        · exact hother hoff
      · exact hother hoff
  | assign k' set =>
      simp only [exec]
      split
      · exact hother hoff
      · exact ho
  | create k' row =>
      simp only [exec]
      split
      · exact ho
      · exact hother hoff
  | insert e => exact ho
  | expireAll => exact absurd rfl hne
  | call op => exact hoff.elim
  | commit => exact hoff.elim
  | rollback => exact hoff.elim

namespace Prog

variable {Ok A : Store S → Session S → Stmt S → Input S → Prop} {R : S.Err → ℤ → Session S → Prop}
  {t : ℤ} {σ : Session S}

/-- What a session knows of a row: nothing is held yet, and the object that is loaded. -/
structure Knows (k : S.Key) (I : S.Row k → ℤ → Prop) (t : ℤ) (σ : Session S) : Prop where
  held : σ.held k = none
  loaded : ∃ o, σ.loaded k = some o ∧ I o t

/-- A program apart from the row. -/
theorem asserts_apart {I : S.Row k → ℤ → Prop} (hI : ∀ o t t', t ≤ t' → I o t → I o t')
    (hA : ∀ st σ s x, s.apart k → A st σ s x) {p : Prog S α} (h : p.only (Stmt.apart k))
    (hk : Knows k I t σ) :
    p.asserts Ok A (fun _ => Knows k I) (fun _ => Knows k I) t σ := by
  induction p generalizing t σ with
  | ret a => exact hk
  | raise e => exact hk
  | step s next ih =>
      intro st x ht _ _
      refine ⟨hA st σ s x h.1, ih _ (h.2 _) ?_⟩
      obtain ⟨hheld, hloaded⟩ := s.exec_apart h.1 x st σ
      obtain ⟨o, ho, hIo⟩ := hk.loaded
      exact ⟨hheld.trans hk.held, o, hloaded o ho, hI o t _ ht hIo⟩

/-- The answer to a query names keys of `ks` only. -/
theorem asserts_selectAll (hA : ∀ st σ k' x, A st σ (.select k') x) {J : ℤ → Session S → Prop}
    (hJ : ∀ (st : Store S) t t' σ k', t ≤ t' → J t σ → J t' (σ.load st.db k')) (ks : List S.Key) (h : J t σ) :
    (selectAll ks).asserts Ok A (fun l t σ => (l.map Sigma.fst).Sublist ks ∧ J t σ) R t σ := by
  induction ks generalizing t σ with
  | nil => exact ⟨List.Sublist.refl [], h⟩
  | cons k ks ih =>
      refine asserts_bind fun st x ht _ _ => ⟨hA st σ k x, ?_⟩
      refine asserts_bind (asserts_mono (ih (hJ st t _ σ k ht h)) (fun l t' σ' h' => ?_)
        fun _ _ _ h => h)
      show (List.map _ ((σ.object st.db k).elim l fun r => ⟨k, r⟩ :: l)).Sublist _ ∧ _
      cases σ.object st.db k with
      | none => exact ⟨h'.1.cons k, h'.2⟩
      | some r => exact ⟨h'.1.cons_cons k, h'.2⟩

end Prog

end Apart

/-! ## Soundness -/

namespace Config

variable {Ok A : Store S → Session S → Stmt S → Input S → Prop} {st : Store S} {p : ℕ → Prog S α}
  {c : Config S α} {t : ℤ}

/-- Each thread still has its assertions to make. -/
def Asserts (Ok A : Store S → Session S → Stmt S → Input S → Prop) (t : ℤ) (c : Config S α) : Prop :=
  ∀ i, (c.prog i).asserts Ok A (fun _ _ _ => True) (fun _ _ _ => True) t (c.sess i)

theorem Asserts.later {t' : ℤ} (h : Asserts Ok A t c) (ht : t ≤ t') : Asserts Ok A t' c := by
  intro i
  have hi := h i
  cases hp : c.prog i with
  | ret a => trivial
  | raise e => trivial
  | step s next =>
      rw [hp] at hi
      exact fun st x hx => hi st x (Int.le_trans ht hx)

/-- **Soundness** of `Prog.asserts`: a statement that is about to run satisfies its assertion. -/
theorem asserted (hst : st.db.WF)
    (hp : ∀ i t, (p i).asserts Ok A (fun _ _ _ => True) (fun _ _ _ => True) t Session.start)
    (hc : Clocked Ok (start st p) t c) : c.Consistent ∧ Asserts Ok A t c := by
  induction hc with
  | refl t => exact ⟨start_consistent hst p, fun i => hp i t⟩
  | exec hc hprog ht hok hx ih =>
      rename_i t c c' i x s next
      obtain ⟨hcons, hasserts⟩ := ih
      refine ⟨exec_consistent hcons hx, ?_⟩
      have hi := hasserts i
      rw [hprog] at hi
      obtain ⟨-, hnext⟩ := hi c.store x ht ⟨hcons.agrees i, hcons.sound i, hcons.wf⟩ hok
      unfold Config.exec at hx
      rw [hprog] at hx
      simp only at hx
      split at hx
      · rw [Option.some.injEq] at hx
        subst hx
        intro j
        by_cases hji : j = i
        · subst hji
          simpa only [Function.update_self] using hnext
        · simpa only [Function.update_of_ne hji] using hasserts.later ht j
      · cases hx
  | crash i hc ih =>
      refine ⟨crash_consistent ih.1 i, fun j => ?_⟩
      by_cases hji : j = i
      · subst hji
        simp only [crash, Function.update_self]
        trivial
      · simpa only [crash, Function.update_of_ne hji] using ih.2 j

/-- The assertion of the next statement of a thread. -/
theorem Clocked.assertion (hst : st.db.WF)
    (hp : ∀ i t, (p i).asserts Ok A (fun _ _ _ => True) (fun _ _ _ => True) t Session.start)
    (hc : Clocked Ok (start st p) t c) {i : ℕ} {s : Stmt S} {next : s.Res → Prog S α}
    (hprog : c.prog i = .step s next) {x : Input S} (ht : t ≤ x.time)
    (hok : Ok c.store (c.sess i) s x) : A c.store (c.sess i) s x := by
  obtain ⟨hcons, hasserts⟩ := asserted hst hp hc
  have hi := hasserts i
  rw [hprog] at hi
  exact (hi c.store x ht ⟨hcons.agrees i, hcons.sound i, hcons.wf⟩ hok).1

/-- Each statement of a run finds rows and objects that satisfy `G`. -/
theorem Clocked.kept {G : (k : S.Key) → S.Row k → Prop} (hst : st.db.Kept G)
    (hp : ∀ i, (p i).only (Stmt.keeps G)) (hc : Clocked Ok (start st p) t c) :
    Clocked (fun st σ s x => Ok st σ s x ∧ st.db.Kept G ∧ σ.Kept G) (start st p) t c := by
  induction hc with
  | refl t => exact .refl t
  | exec hc hprog ht hok hx ih =>
      have h := Config.kept hst hp hc.reaches
      exact .exec ih hprog ht ⟨hok, h.db, h.sess _⟩ hx
  | crash i _ ih => exact .crash i ih

/-- The times of the schedule do not go back. -/
def ticks : ℤ → List (ℕ × Input S) → Bool
  | _, [] => true
  | t, (_, x) :: l => decide (t ≤ x.time) && ticks x.time l

/-- What such a schedule leads to. -/
theorem clocked_of_trace (ok : Store S → Session S → Stmt S → Input S → Bool)
    (hok : ∀ st σ s x, ok st σ s x = true → Ok st σ s x) {c₀ : Config S α}
    (l : List (ℕ × Input S)) {t : ℤ} {c c' : Config S α} (h : Clocked Ok c₀ t c)
    (ht : ticks t l = true) (hp : passes ok l c = true) (hl : trace l c = some c') :
    ∃ t', Clocked Ok c₀ t' c' := by
  induction l generalizing t c with
  | nil =>
      simp only [trace, Option.some.injEq] at hl
      exact ⟨t, hl ▸ h⟩
  | cons a l ih =>
      obtain ⟨i, x⟩ := a
      simp only [trace, Option.bind_eq_some_iff] at hl
      obtain ⟨c₁, hc₁, hl⟩ := hl
      simp only [ticks, Bool.and_eq_true, decide_eq_true_eq] at ht
      cases hprog : c.prog i with
      | ret a => simp [exec, hprog] at hc₁
      | raise e => simp [exec, hprog] at hc₁
      | step s next =>
          simp only [passes, hprog, hc₁, Option.all_some, Bool.and_eq_true] at hp
          exact ih (.exec h hprog ht.1 (hok _ _ _ _ hp.1) hc₁) ht.2 hp.2 hl

end Config

end Txn
