import Sthrip.Txn.Refine
import Sthrip.Txn.Lasts

set_option autoImplicit false

/-! # What the text of a program says

`Prog.shape ok Q E` says of a program, from its text alone, that its statements satisfy `ok`, its
results `Q` and its exceptions `E`. It refines `Prog.only`, as a loop can use what the query before it
returns.

A program that raises on every path before it commits (`Prog.fails`) changes nothing, in whatever
order its statements run among those of the others: no step of it changes the database
(`Config.exec_fails`), and what is left of it fails as well (`Config.Reaches.fails`). While the others
wait it runs to its end, which is an exception in `E` (`Config.exists_raised`).
-/

namespace Txn

variable {S : Schema} {α β : Type}

def Prog.shape (ok : Stmt S → Prop) (Q : α → Prop) (E : S.Err → Prop) : Prog S α → Prop
  | .ret a => Q a
  | .raise e => E e
  | .step s next => ok s ∧ ∀ r, (next r).shape ok Q E

def Stmt.NotCommit : Stmt S → Prop
  | .commit => False
  | _ => True

/-- The program commits nothing, never returns, and raises exceptions in `E`. -/
def Prog.fails (E : S.Err → Prop) (p : Prog S α) : Prop := p.shape Stmt.NotCommit (fun _ => False) E

namespace Prog

variable {ok : Stmt S → Prop} {Q : α → Prop} {E : S.Err → Prop}

/-! ## The rules -/

theorem shape_mono {Q' : α → Prop} {E' : S.Err → Prop} {p : Prog S α} (h : p.shape ok Q E)
    (hQ : ∀ a, Q a → Q' a) (hE : ∀ e, E e → E' e) : p.shape ok Q' E' := by
  induction p with
  | ret a => exact hQ a h
  | raise e => exact hE e h
  | step s next ih => exact ⟨h.1, fun r => ih r (h.2 r)⟩

theorem shape_of_only {p : Prog S α} (h : p.only ok) :
    p.shape ok (fun _ => True) (fun _ => True) := by
  induction p with
  | ret a => trivial
  | raise e => trivial
  | step s next ih => exact ⟨h.1, fun r => ih r (h.2 r)⟩

theorem shape_stmt {s : Stmt S} (h : ok s) : (stmt s).shape ok (fun _ => True) E :=
  ⟨h, fun _ => trivial⟩

theorem shape_bind {p : Prog S α} {f : α → Prog S β} {Q' : β → Prop} (h : p.shape ok Q E)
    (hf : ∀ a, Q a → (f a).shape ok Q' E) : (p.bind f).shape ok Q' E := by
  induction p with
  | ret a => exact hf a h
  | raise e => exact h
  | step s next ih => exact ⟨h.1, fun r => ih r (h.2 r)⟩

/-- Sequencing where nothing is known of the first result. -/
theorem shape_seq {p : Prog S α} {f : α → Prog S β} {Q : β → Prop}
    (h : p.shape ok (fun _ => True) E) (hf : ∀ a, (f a).shape ok Q E) : (p.bind f).shape ok Q E :=
  shape_bind h fun a _ => hf a

theorem shape_tryCatch {p : Prog S α} {h : S.Err → Prog S α} {E' : S.Err → Prop}
    (hp : p.shape ok Q E') (hh : ∀ e, E' e → (h e).shape ok Q E) : (p.tryCatch h).shape ok Q E := by
  induction p with
  | ret a => exact hp
  | raise e => exact hh e hp
  | step s next ih => exact ⟨hp.1, fun r => ih r (hp.2 r)⟩

theorem shape_raiseIf {c : Prop} [Decidable c] {e : S.Err} (h : E e) :
    (raiseIf c e).shape ok (fun _ => True) E := by
  unfold raiseIf
  split
  · exact h
  · trivial

theorem shape_orRaise {e : S.Err} {o : Option α} (h : E e) :
    (orRaise e o).shape ok (fun _ => True) E := by
  cases o with
  | none => exact h
  | some a => trivial

theorem shape_tally {γ : Type} {f : γ → Prog S Bool} (l : List γ)
    (h : ∀ a ∈ l, (f a).shape ok (fun _ => True) E) :
    (tally l f).shape ok (fun _ => True) E := by
  induction l with
  | nil => trivial
  | cons a l ih =>
      refine shape_bind (h a List.mem_cons_self) fun b _ => ?_
      exact shape_seq (ih fun a' ha' => h a' (List.mem_cons_of_mem a ha')) fun _ => trivial

/-- A session commits only when its body returns. -/
theorem shape_withSession {p : Prog S α} (hcommit : ∀ a, Q a → ok .commit ∧ E S.commitErr)
    (hrollback : ok .rollback) (h : p.shape ok Q E) : (withSession p).shape ok Q E := by
  refine shape_tryCatch (shape_bind h fun a ha => ?_) fun e he => ?_
  · refine shape_seq (shape_stmt (hcommit a ha).1) fun committed => ?_
    split
    · exact ha
    · exact (hcommit a ha).2
  · exact shape_seq (shape_stmt hrollback) fun _ => he

theorem fails_withSession {p : Prog S α} (h : p.fails E) : (withSession p).fails E :=
  shape_withSession (fun _ => False.elim) trivial h

/-- What follows a program that fails does not matter. -/
theorem fails_bind {p : Prog S α} {f : α → Prog S β} (h : p.fails E) : (p.bind f).fails E :=
  shape_bind h fun _ => False.elim

/-- A program that fails ends with an exception. -/
theorem eval_fails {p : Prog S α} (h : p.fails E) (x : ℕ → Input S) (v : Solo S) :
    ∃ e, E e ∧ (p.eval x v).1 = .error e := by
  induction p generalizing x v with
  | ret a => exact h.elim
  | raise e => exact ⟨e, h, rfl⟩
  | step s next ih => exact ih _ (h.2 _) _ _

end Prog

/-! ## In an interleaving -/

namespace Config

variable {Ok : Store S → Session S → Stmt S → Input S → Prop} {E : S.Err → Prop}
  {c c₀ c' : Config S α} {i : ℕ} {x : Input S}

/-- What holds of a thread and its session holds after a step, if it does when the step is its own. -/
theorem thread_exec {T : Prog S α → Session S → Prop} {j : ℕ} {s : Stmt S}
    {next : s.Res → Prog S α} (h : T (c.prog i) (c.sess i)) (hp : c.prog j = .step s next)
    (hx : c.exec j x = some c')
    (hi : i = j → T (next (s.exec x c.store (c.sess j)).1) (s.exec x c.store (c.sess j)).2.2) :
    T (c'.prog i) (c'.sess i) := by
  rw [(exec_eq hp hx).2.1, (exec_eq hp hx).2.2]
  by_cases hij : i = j
  · subst hij
    rw [Function.update_self, Function.update_self]
    exact hi rfl
  · rwa [Function.update_of_ne hij, Function.update_of_ne hij]

theorem thread_crash {T : Prog S α → Session S → Prop} (h : T (c.prog i) (c.sess i)) (j : ℕ)
    (hi : T (.raise S.commitErr) Session.start) : T ((c.crash j).prog i) ((c.crash j).sess i) := by
  by_cases hij : i = j
  · subst hij
    simp only [Config.crash, Function.update_self]
    exact hi
  · simpa only [Config.crash, Function.update_of_ne hij] using h

/-- What is left of a program that fails also fails, and a thread that dies has raised. -/
theorem Reaches.fails (h : Reaches Ok c₀ c) (hE : E S.commitErr) (hi : (c₀.prog i).fails E) :
    (c.prog i).fails E := by
  induction h with
  | refl => exact hi
  | @exec c c' j x s next _ hp _ hx ih =>
      refine thread_exec (T := fun p _ => p.fails E) ih hp hx fun hij => ?_
      rw [hij, hp] at ih
      exact ih.2 _
  | crash j _ ih => exact thread_crash (T := fun p _ => p.fails E) ih j hE

/-- The step lemma: a statement of such a program leaves the database as it is. -/
theorem exec_fails (hi : (c.prog i).fails E) (hx : c.exec i x = some c') :
    c'.store.db = c.store.db := by
  cases hp : c.prog i with
  | ret a =>
      rw [Config.exec, hp] at hx
      cases hx
  | raise e =>
      rw [Config.exec, hp] at hx
      cases hx
  | step s next =>
      rw [hp] at hi
      rcases store_exec_cases hp hx with hdb | ⟨hs, -⟩
      · exact hdb
      · subst hs
        exact hi.1.elim

/-- Every schedule is a run in which nothing is asked of the statements. -/
theorem reaches_trace {l : List (ℕ × Input S)} (h : Reaches (fun _ _ _ _ => True) c₀ c)
    (hl : trace l c = some c') : Reaches (fun _ _ _ _ => True) c₀ c' := by
  induction l generalizing c with
  | nil =>
      simp only [trace, Option.some.injEq] at hl
      exact hl ▸ h
  | cons a l ih =>
      obtain ⟨i, x⟩ := a
      simp only [trace, Option.bind_eq_some_iff] at hl
      obtain ⟨c₁, hc₁, hl⟩ := hl
      cases hp : c.prog i with
      | ret a => simp [Config.exec, hp] at hc₁
      | raise e => simp [Config.exec, hp] at hc₁
      | step s next => exact ih (.exec h hp trivial hc₁) hl

/-- In the run in which the others wait, the program comes to its end. -/
theorem exists_raised (st : Store S) (p : ℕ → Prog S α) (i : ℕ) (hi : (p i).fails E) :
    ∃ c e, Reaches (fun _ _ _ _ => True) (start st p) c ∧ E e ∧ c.prog i = .raise e := by
  have halone : (start st p).Alone i := fun k j hk => by cases hk
  obtain ⟨l, c, hl, hprog, -, -, -⟩ :=
    trace_eval (p i) (fun _ => {}) rfl halone (Mirrors.start st)
  obtain ⟨e, he, heval⟩ := Prog.eval_fails hi (fun _ => {}) (Solo.ofStore st)
  refine ⟨c, e, reaches_trace .refl hl, he, ?_⟩
  rw [hprog, heval]
  rfl

end Config

end Txn
