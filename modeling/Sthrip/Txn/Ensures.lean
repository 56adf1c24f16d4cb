import Sthrip.Txn.Undone
import Sthrip.Txn.Clocked

set_option autoImplicit false

/-! # What a session ensures

`Prog.ensures Ok A Q R σ` follows one session from `σ`: `A` holds at every statement, and the program
returns with `Q` or raises with `R`. It is `Prog.asserts` without the clock, so that it says something
of every run (`Config.Reaches.ensured`).

Most statements of a program have nothing to do with what is to be shown. `ensures_keep` passes over
them: it asks of each statement only that it keeps a property `J` of the session.
-/

namespace Txn

variable {S : Schema} {α β : Type}

def Prog.ensures (Ok A : Store S → Session S → Stmt S → Input S → Prop) : Prog S α →
    (α → Session S → Prop) → (S.Err → Session S → Prop) → Session S → Prop
  | .ret a, Q, _, σ => Q a σ
  | .raise e, _, R, σ => R e σ
  | .step s next, Q, R, σ => ∀ st x, σ.Fit st → Ok st σ s x →
      A st σ s x ∧ (next (s.exec x st σ).1).ensures Ok A Q R (s.exec x st σ).2.2

namespace Prog

variable {Ok A : Store S → Session S → Stmt S → Input S → Prop} {R : S.Err → Session S → Prop}
  {J : Session S → Prop} {σ : Session S}

/-! ## The rules -/

theorem ensures_mono {p : Prog S α} {Q Q' : α → Session S → Prop} {R' : S.Err → Session S → Prop}
    (h : p.ensures Ok A Q R σ) (hQ : ∀ a σ, Q a σ → Q' a σ) (hR : ∀ e σ, R e σ → R' e σ) :
    p.ensures Ok A Q' R' σ := by
  induction p generalizing σ with
  | ret a => exact hQ _ _ h
  | raise e => exact hR _ _ h
  | step s next ih =>
      intro st x hfit hok
      obtain ⟨hA, hnext⟩ := h st x hfit hok
      exact ⟨hA, ih _ hnext⟩

theorem ensures_bind {p : Prog S α} {f : α → Prog S β} {Q : β → Session S → Prop}
    (h : p.ensures Ok A (fun a σ => (f a).ensures Ok A Q R σ) R σ) :
    (p.bind f).ensures Ok A Q R σ := by
  induction p generalizing σ with
  | ret a => exact h
  | raise e => exact h
  | step s next ih =>
      intro st x hfit hok
      obtain ⟨hA, hnext⟩ := h st x hfit hok
      exact ⟨hA, ih _ hnext⟩

/-- Sequencing with what holds between the two programs. -/
theorem ensures_seq {p : Prog S α} {f : α → Prog S β} {Q' : α → Session S → Prop}
    {Q : β → Session S → Prop} (h : p.ensures Ok A Q' R σ)
    (hf : ∀ a σ, Q' a σ → (f a).ensures Ok A Q R σ) : (p.bind f).ensures Ok A Q R σ :=
  ensures_bind (ensures_mono h hf fun _ _ h => h)

theorem ensures_tryCatch {p : Prog S α} {h : S.Err → Prog S α} {Q : α → Session S → Prop}
    (hp : p.ensures Ok A Q (fun e σ => (h e).ensures Ok A Q R σ) σ) :
    (p.tryCatch h).ensures Ok A Q R σ := by
  induction p generalizing σ with
  | ret a => exact hp
  | raise e => exact hp
  | step s next ih =>
      intro st x hfit hok
      obtain ⟨hA, hnext⟩ := hp st x hfit hok
      exact ⟨hA, ih _ hnext⟩

/-- A program whose statements keep `J`, with what its text says of its result. -/
theorem ensures_keep {ok : Stmt S → Prop} {Q : α → Prop} {E : S.Err → Prop}
    (hstep : ∀ st σ s x, ok s → J σ → σ.Fit st → Ok st σ s x → A st σ s x ∧ J (s.exec x st σ).2.2)
    {p : Prog S α} (hp : p.shape ok Q E) (hσ : J σ) :
    p.ensures Ok A (fun a σ => Q a ∧ J σ) (fun _ => J) σ := by
  induction p generalizing σ with
  | ret a => exact ⟨hp, hσ⟩
  | raise e => exact hσ
  | step s next ih =>
      intro st x hfit hok
      obtain ⟨hA, hJ⟩ := hstep st σ s x hp.1 hσ hfit hok
      exact ⟨hA, ih _ (hp.2 _) hJ⟩

/-- A loop that keeps `J`. -/
theorem ensures_forEach {γ : Type} {f : γ → Prog S Unit} (l : List γ)
    (hf : ∀ a ∈ l, ∀ σ, J σ → (f a).ensures Ok A (fun _ => J) R σ) (hσ : J σ) :
    (forEach l f).ensures Ok A (fun _ => J) R σ := by
  induction l generalizing σ with
  | nil => exact hσ
  | cons a l ih =>
      exact ensures_seq (hf a List.mem_cons_self σ hσ) fun _ _ h =>
        ih (fun a' ha' => hf a' (List.mem_cons_of_mem a ha')) h

theorem ensures_tally {γ : Type} {f : γ → Prog S Bool} (l : List γ)
    (hf : ∀ a ∈ l, ∀ σ, J σ → (f a).ensures Ok A (fun _ => J) R σ) (hσ : J σ) :
    (tally l f).ensures Ok A (fun _ => J) R σ := by
  induction l generalizing σ with
  | nil => exact hσ
  | cons a l ih =>
      refine ensures_seq (hf a List.mem_cons_self σ hσ) fun b σ' h => ?_
      exact ensures_seq (ih (fun a' ha' => hf a' (List.mem_cons_of_mem a ha')) h) fun _ _ h => h

theorem ensures_onlyIf {c : Prop} [Decidable c] {p : Prog S α}
    (h : c → p.ensures Ok A (fun _ => J) R σ) (hσ : J σ) :
    (onlyIf c p).ensures Ok A (fun _ => J) R σ := by
  unfold onlyIf
  split
  · next hc => exact ensures_seq (h hc) fun _ _ h => h
  · exact hσ

/-- A query loads rows that match, and these have their keys in `K`. -/
theorem ensures_query {p : (k : S.Key) → S.Row k → Bool} {K : S.Key → Prop}
    (hK : ∀ k r, p k r = true → K k)
    (hscan : ∀ st σ x l, (∀ k ∈ l, K k) → J σ → A st σ (.scan p) x ∧ J (σ.loadAll st.db l))
    (hload : ∀ st σ x k, K k → J σ → A st σ (.select k) x ∧ J (σ.load st.db k)) (hσ : J σ) :
    (query p).ensures Ok A (fun _ => J) R σ := by
  have hselect : ∀ (ks : List S.Key), (∀ k ∈ ks, K k) → ∀ σ, J σ →
      (selectAll ks).ensures Ok A (fun _ => J) R σ := by
    intro ks
    induction ks with
    | nil => exact fun _ σ hσ => hσ
    | cons k ks ih =>
        intro hks σ hσ
        refine ensures_bind fun st x _ _ => ?_
        obtain ⟨hA, hJ⟩ := hload st σ x k (hks k List.mem_cons_self) hσ
        have hrest := ih (fun k' hk' => hks k' (List.mem_cons_of_mem k hk')) _ hJ
        exact ⟨hA, ensures_seq hrest fun _ _ h => h⟩
  intro st x hfit _
  have hl : ∀ k ∈ x.arrange (σ.matching st.db p), K k := by
    intro k hk
    have hmatch := (List.mem_filter.mp ((x.arrange_perm _).mem_iff.mp hk)).2
    obtain ⟨r, -, hr⟩ := (Option.any_eq_true ..).mp hmatch
    exact hK k r hr
  obtain ⟨hA, hJ⟩ := hscan st σ x _ hl hσ
  exact ⟨hA, hselect _ hl _ hJ⟩

/-- A session commits in a state that its body has left. -/
theorem ensures_withSession {p : Prog S α}
    (hcommit : ∀ st σ x, J σ → σ.Fit st → Ok st σ .commit x → A st σ .commit x)
    (hrollback : ∀ st σ x, A st σ .rollback x)
    (h : p.ensures Ok A (fun _ => J) (fun _ _ => True) σ) :
    (withSession p).ensures Ok A (fun _ _ => True) (fun _ _ => True) σ := by
  have hraise : ∀ (e : S.Err) (σ : Session S), (rollback.bind fun _ =>
      (raise e : Prog S α)).ensures Ok A (fun _ _ => True) (fun _ _ => True) σ :=
    fun e σ st x _ _ => ⟨hrollback st σ x, trivial⟩
  refine ensures_tryCatch (ensures_bind (ensures_mono h (fun a σ hσ => ?_)
    fun e σ _ => hraise e σ))
  have hdone : commit.ensures Ok A (fun _ _ => True) (fun _ _ => True) σ :=
    fun st x hfit hok => ⟨hcommit st σ x hσ hfit hok, trivial⟩
  refine ensures_bind (ensures_mono hdone (fun committed σ _ => ?_) fun e σ _ => hraise e σ)
  split
  · trivial
  · exact hraise _ _

/-- A program that never comes to its commit, when only commits matter. -/
theorem ensures_of_fails {E : S.Err → Prop} (hA : ∀ st σ s x, s.NotCommit → A st σ s x)
    {p : Prog S α} (hp : p.fails E) : p.ensures Ok A (fun _ _ => True) (fun _ _ => True) σ := by
  refine ensures_mono (ensures_keep (J := fun _ => True) ?_ hp trivial) (fun _ _ _ => trivial)
    fun _ _ _ => trivial
  exact fun st σ s x hs _ _ _ => ⟨hA st σ s x hs, trivial⟩

end Prog

/-! ## Soundness -/

namespace Config

variable {Ok A : Store S → Session S → Stmt S → Input S → Prop} {st : Store S} {p : ℕ → Prog S α}
  {c : Config S α}

theorem Reaches.trans {c₀ c' : Config S α} (h : Reaches Ok c₀ c) (h' : Reaches Ok c c') :
    Reaches Ok c₀ c' := by
  induction h' with
  | refl => exact h
  | exec _ hp hok hx ih => exact .exec ih hp hok hx
  | crash i _ ih => exact .crash i ih

theorem Reaches.mono {Ok' : Store S → Session S → Stmt S → Input S → Prop} {c₀ : Config S α}
    (h : Reaches Ok c₀ c) (hok : ∀ st σ s x, Ok st σ s x → Ok' st σ s x) : Reaches Ok' c₀ c := by
  induction h with
  | refl => exact .refl
  | exec _ hp ho hx ih => exact .exec ih hp (hok _ _ _ _ ho) hx
  | crash i _ ih => exact .crash i ih

/-- What a thread still has to ensure. -/
def Ensures (Ok A : Store S → Session S → Stmt S → Input S → Prop) (p : Prog S α) (σ : Session S) :
    Prop := p.ensures Ok A (fun _ _ => True) (fun _ _ => True) σ

/-- The run lemma. -/
theorem Reaches.ensures (hst : st.db.WF) (hp : ∀ i, Ensures Ok A (p i) Session.start)
    (hc : Reaches Ok (start st p) c) : c.Consistent ∧ ∀ i, Ensures Ok A (c.prog i) (c.sess i) := by
  induction hc with
  | refl => exact ⟨start_consistent hst p, hp⟩
  | @exec c c' i x s next _ hprog hok hx ih =>
      obtain ⟨hcons, hens⟩ := ih
      refine ⟨exec_consistent hcons hx, fun j => thread_exec (hens j) hprog hx fun hij => ?_⟩
      have hi := hens i
      rw [hprog] at hi
      exact (hi c.store x ⟨hcons.agrees i, hcons.sound i, hcons.wf⟩ hok).2
  | crash i _ ih => exact ⟨crash_consistent ih.1 i, fun j => thread_crash (ih.2 j) i trivial⟩

/-- **Soundness**: what a session ensures holds at each of its statements in every run. -/
theorem Reaches.ensured (hst : st.db.WF) (hp : ∀ i, Ensures Ok A (p i) Session.start)
    (hc : Reaches Ok (start st p) c) {i : ℕ} {s : Stmt S} {next : s.Res → Prog S α} {x : Input S}
    (hprog : c.prog i = .step s next) (hok : Ok c.store (c.sess i) s x) :
    A c.store (c.sess i) s x := by
  obtain ⟨hcons, hens⟩ := hc.ensures hst hp
  have hi := hens i
  rw [hprog] at hi
  exact (hi c.store x ⟨hcons.agrees i, hcons.sound i, hcons.wf⟩ hok).1

end Config

/-! ## Invariants of the database -/

/-- A commit leaves a database with `I`. -/
def Stmt.CommitKeeps (I : DB S → Prop) (st : Store S) (σ : Session S) : Stmt S → Prop
  | .commit => I (st.db.apply σ)
  | _ => True

theorem Stmt.commitKeeps_of_notCommit {I : DB S → Prop} {s : Stmt S} (h : s.NotCommit)
    (st : Store S) (σ : Session S) : s.CommitKeeps I st σ := by
  cases s with
  | commit => exact h.elim
  | _ => trivial

/-- What the statement appends satisfies `P`. -/
def Stmt.Appends (P : S.Entry → Prop) : Stmt S → Prop
  | .insert e => P e
  | _ => True

/-- Only `insert` adds to the entries that a session will append. -/
theorem Stmt.Appends.exec {P : S.Entry → Prop} {s : Stmt S} (hs : s.Appends P) (x : Input S)
    (st : Store S) {σ : Session S} (h : ∀ e ∈ σ.inserted, P e) :
    ∀ e ∈ (s.exec x st σ).2.2.inserted, P e := by
  cases s with
  | insert e' =>
      intro e he
      rcases List.mem_append.mp he with he | he
      · exact h e he
      · rw [List.mem_singleton.mp he]
        exact hs
  | select k =>
      rw [Stmt.exec, Session.load_inserted]
      exact h
  | selectForUpdate k =>
      rw [Stmt.exec, Session.load_inserted, Session.lock_inserted]
      exact h
  | update k guard set =>
      simp only [Stmt.exec]
      split
      · split <;> exact h
      · exact h
  | assign k set =>
      simp only [Stmt.exec]
      split <;> exact h
  | create k row =>
      simp only [Stmt.exec]
      split <;> exact h
  | commit =>
      simp only [Stmt.exec]
      split <;> exact fun _ he => absurd he List.not_mem_nil
  | rollback => exact fun _ he => absurd he List.not_mem_nil
  | _ => exact h

namespace Config

variable {st : Store S} {p : ℕ → Prog S α} {c : Config S α} {I : DB S → Prop}

/-- **Soundness** for invariants: each session may rely on the invariant, and has to keep it when it
commits. -/
theorem Reaches.ensured_invariant (hst : st.db.WF) (hI : I st.db)
    (hp : ∀ i, Ensures (fun st _ _ _ => I st.db) (fun st σ s _ => s.CommitKeeps I st σ) (p i)
      Session.start)
    (hc : Reaches (fun _ _ _ _ => True) (start st p) c) : I c.store.db := by
  have h : Reaches (fun st _ _ _ => I st.db) (start st p) c ∧ I c.store.db := by
    induction hc with
    | refl => exact ⟨.refl, hI⟩
    | @exec c c' i x s next _ hprog _ hx ih =>
        obtain ⟨hreach, hdb⟩ := ih
        refine ⟨.exec hreach hprog hdb hx, ?_⟩
        have hkeeps := hreach.ensured hst hp (x := x) hprog hdb
        rcases store_exec_cases hprog hx with he | ⟨rfl, he⟩
        · exact he ▸ hdb
        · exact he ▸ hkeeps
    | crash i _ ih => exact ⟨.crash i ih.1, ih.2⟩
  exact h.2

end Config

end Txn
