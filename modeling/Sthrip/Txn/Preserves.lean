import Sthrip.Txn.Keeps

set_option autoImplicit false

/-! # What a program preserves by what it reads

`Stmt.keeps G` judges a statement by its text alone. A program that writes what it has computed from
rows that it read keeps `G` because those rows satisfied `G`. `Prog.preserves G p Q` follows the program:
at each statement it may use that what it is given satisfies `G`, and it returns with `Q`.

As `G` is about single rows, an object that is older than its row satisfies it as well, so that nothing is
said here of the order of the sessions (`Config.preserved`).
-/

namespace Txn

variable {S : Schema} {α β : Type} {G : (k : S.Key) → S.Row k → Prop}

/-- What the statement gives to its program satisfies `G`. -/
def Stmt.Gives (G : (k : S.Key) → S.Row k → Prop) : (s : Stmt S) → s.Res → Prop
  | .select k => fun row : Option (S.Row k) => ∀ r, row = some r → G k r
  | .selectForUpdate k => fun row : Option (S.Row k) => ∀ r, row = some r → G k r
  | _ => fun _ => True

def Prog.preserves (G : (k : S.Key) → S.Row k → Prop) : Prog S α → (α → Prop) → Prop
  | .ret a, Q => Q a
  | .raise _, _ => True
  | .step s next, Q => s.keeps G ∧ ∀ res, s.Gives G res → (next res).preserves G Q

theorem Stmt.exec_gives (s : Stmt S) (x : Input S) (st : Store S) {σ : Session S}
    (hdb : st.db.Kept G) (h : σ.Kept G) : s.Gives G (s.exec x st σ).1 := by
  cases s with
  | select k => exact fun r hr => h.object hdb hr
  | selectForUpdate k => exact fun r hr => h.object hdb hr
  | _ => trivial

namespace Prog

variable {Q : β → Prop}

/-! ## The rules -/

theorem preserves_seq {p : Prog S α} {f : α → Prog S β} {Q' : α → Prop} (h : p.preserves G Q')
    (hf : ∀ a, Q' a → (f a).preserves G Q) : (p.bind f).preserves G Q := by
  induction p with
  | ret a => exact hf a h
  | raise e => trivial
  | step s next ih => exact ⟨h.1, fun res hres => ih res (h.2 res hres)⟩

theorem preserves_then {p : Prog S α} {f : α → Prog S β} (h : p.preserves G fun _ => True)
    (hf : ∀ a, (f a).preserves G Q) : (p.bind f).preserves G Q :=
  preserves_seq h fun a _ => hf a

/-- A program whose text keeps `G`. -/
theorem preserves_of_only {p : Prog S α} (h : p.only (Stmt.keeps G)) :
    p.preserves G fun _ => True := by
  induction p with
  | ret a => trivial
  | raise e => trivial
  | step s next ih => exact ⟨h.1, fun res _ => ih res (h.2 res)⟩

theorem preserves_pass {p : Prog S α} {f : α → Prog S β} (h : p.only (Stmt.keeps G))
    (hf : ∀ a, (f a).preserves G Q) : (p.bind f).preserves G Q :=
  preserves_then (preserves_of_only h) hf

/-- A row that is read, or read and locked. -/
theorem preserves_select {k : S.Key} {f : Option (S.Row k) → Prog S β}
    (hf : ∀ row, (∀ r, row = some r → G k r) → (f row).preserves G Q) :
    ((select k).bind f).preserves G Q := ⟨trivial, hf⟩

theorem preserves_lock {k : S.Key} {f : Option (S.Row k) → Prog S β}
    (hf : ∀ row, (∀ r, row = some r → G k r) → (f row).preserves G Q) :
    ((selectForUpdate k).bind f).preserves G Q := ⟨trivial, hf⟩

theorem preserves_orRaise {e : S.Err} {o : Option α} {Q : α → Prop} (h : ∀ a, o = some a → Q a) :
    (orRaise e o).preserves G Q := by
  cases o with
  | none => trivial
  | some a => exact h a rfl

/-- The row is there, or nothing more happens. -/
theorem preserves_fetch {k : S.Key} {e : S.Err} {f : S.Row k → Prog S β}
    (hf : ∀ r, G k r → (f r).preserves G Q) :
    ((selectForUpdate k).bind fun row => (orRaise e row).bind f).preserves G Q :=
  preserves_lock fun _ hrow => preserves_seq (preserves_orRaise hrow) hf

theorem preserves_raiseIf {c : Prop} [Decidable c] {e : S.Err} {f : Unit → Prog S β}
    (hf : ¬c → (f ()).preserves G Q) : ((raiseIf c e).bind f).preserves G Q := by
  unfold raiseIf
  split
  · trivial
  · next hc => exact hf hc

theorem preserves_onlyIf {c : Prop} [Decidable c] {p : Prog S α}
    (h : c → p.preserves G fun _ => True) : (onlyIf c p).preserves G fun _ => True := by
  unfold onlyIf
  split
  · next hc => exact preserves_seq (h hc) fun _ _ => trivial
  · trivial

theorem preserves_forEach {γ : Type} {f : γ → Prog S Unit} (l : List γ)
    (h : ∀ a ∈ l, (f a).preserves G fun _ => True) : (forEach l f).preserves G fun _ => True := by
  induction l with
  | nil => trivial
  | cons a l ih =>
      exact preserves_seq (h a List.mem_cons_self) fun _ _ =>
        ih fun a' ha' => h a' (List.mem_cons_of_mem a ha')

theorem preserves_tally {γ : Type} {f : γ → Prog S Bool} (l : List γ)
    (h : ∀ a ∈ l, (f a).preserves G fun _ => True) : (tally l f).preserves G fun _ => True := by
  induction l with
  | nil => trivial
  | cons a l ih =>
      refine preserves_seq (h a List.mem_cons_self) fun b _ => ?_
      exact preserves_seq (ih fun a' ha' => h a' (List.mem_cons_of_mem a ha')) fun _ _ => trivial

theorem preserves_tryCatch {p : Prog S α} {h : S.Err → Prog S α} {Q : α → Prop}
    (hp : p.preserves G Q) (hh : ∀ e, (h e).preserves G Q) : (p.tryCatch h).preserves G Q := by
  induction p with
  | ret a => exact hp
  | raise e => exact hh e
  | step s next ih => exact ⟨hp.1, fun res hres => ih res (hp.2 res hres)⟩

theorem preserves_withSession {p : Prog S α} (hp : p.preserves G fun _ => True) :
    (withSession p).preserves G fun _ => True := by
  refine preserves_tryCatch (preserves_seq hp fun a _ => ⟨trivial, fun (committed : Bool) _ => ?_⟩)
    fun e => ⟨trivial, fun _ _ => trivial⟩
  cases committed with
  | true => trivial
  | false => trivial

theorem preserves_selectAll (ks : List S.Key) :
    (selectAll ks).preserves G fun rows => ∀ row ∈ rows, G row.1 row.2 := by
  induction ks with
  | nil =>
      intro row hrow
      cases hrow
  | cons k ks ih =>
      refine preserves_select fun row hrow => preserves_seq ih fun rows hrows => ?_
      cases row with
      | none => exact hrows
      | some r =>
          intro row' hrow'
          rcases List.mem_cons.mp hrow' with rfl | hmem
          · exact hrow r rfl
          · exact hrows row' hmem

/-- The rows of a query satisfy `G`. -/
theorem preserves_query {p : (k : S.Key) → S.Row k → Bool} :
    (query p).preserves G fun rows => ∀ row ∈ rows, G row.1 row.2 :=
  ⟨trivial, fun ks _ => preserves_selectAll ks⟩

end Prog

/-! ## Soundness -/

namespace Config

variable {Ok : Store S → Session S → Stmt S → Input S → Prop} {st : Store S} {p : ℕ → Prog S α}
  {c c' : Config S α} {i : ℕ} {x : Input S}

/-- The rows and the objects satisfy `G`, and the threads go on so. -/
structure Preserved (G : (k : S.Key) → S.Row k → Prop) (c : Config S α) : Prop where
  db : c.store.db.Kept G
  sess : ∀ i, (c.sess i).Kept G
  prog : ∀ i, (c.prog i).preserves G fun _ => True

theorem Preserved.exec (h : c.Preserved G) (hc : c.exec i x = some c') : c'.Preserved G := by
  unfold Config.exec at hc
  split at hc
  · next s next hp =>
      split at hc
      · rw [Option.some.injEq] at hc
        subst hc
        have hprog := h.prog i
        rw [hp] at hprog
        have hkept := s.exec_kept x c.store hprog.1 h.db (h.sess i)
        have hgives := s.exec_gives x c.store h.db (h.sess i)
        refine ⟨hkept.1, fun j => ?_, fun j => ?_⟩
        · by_cases hji : j = i
          · subst hji
            simpa only [Function.update_self] using hkept.2
          · simpa only [Function.update_of_ne hji] using h.sess j
        · by_cases hji : j = i
          · subst hji
            simpa only [Function.update_self] using hprog.2 _ hgives
          · simpa only [Function.update_of_ne hji] using h.prog j
      · cases hc
  · cases hc

theorem Preserved.crash (h : c.Preserved G) (i : ℕ) : (c.crash i).Preserved G := by
  refine ⟨h.db, fun j => ?_, fun j => ?_⟩
  · by_cases hji : j = i
    · subst hji
      simpa only [Config.crash, Function.update_self] using .start
    · simpa only [Config.crash, Function.update_of_ne hji] using h.sess j
  · by_cases hji : j = i
    · subst hji
      simp only [Config.crash, Function.update_self]
      trivial
    · simpa only [Config.crash, Function.update_of_ne hji] using h.prog j

/-- **Soundness** of `Prog.preserves`. -/
theorem preserved (hst : st.db.Kept G) (hp : ∀ i, (p i).preserves G fun _ => True)
    (hc : Reaches Ok (start st p) c) : c.Preserved G := by
  induction hc with
  | refl => exact ⟨hst, fun _ => .start, hp⟩
  | exec _ _ _ hx ih => exact ih.exec hx
  | crash i _ ih => exact ih.crash i

end Config

end Txn
