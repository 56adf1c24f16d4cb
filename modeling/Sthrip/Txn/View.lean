import Sthrip.Txn.Solo

set_option autoImplicit false

/-! # What a database says about one thing

A database holds the rows and entries of many things of one kind: deals, channels, payments. A
*view* maps each of them to what the database says about it. An operation on one of them moves
its value and leaves the others alone (`Moves`), so that a proof about one of them has nothing
to say about the rest.
-/

namespace Txn

variable {S : Schema} {ι V : Type} [DecidableEq ι] {view : DB S → ι → V}

/-- From `db` to `db'`, the thing `e` becomes `E` and the others stay as they are. -/
def Moves (view : DB S → ι → V) (db db' : DB S) (e : ι) (E : V) : Prop :=
  view db' = Function.update (view db) e E

namespace Moves

variable {db db₁ db₂ : DB S} {e : ι} {E E₁ E₂ : V}

theorem refl (h : view db e = E) : Moves view db db e E := by
  rw [Moves, ← h, Function.update_eq_self]

theorem trans (h₁ : Moves view db db₁ e E₁) (h₂ : Moves view db₁ db₂ e E₂) :
    Moves view db db₂ e E₂ := by
  rw [Moves, h₂, h₁, Function.update_idem]

theorem self (h : Moves view db db₁ e E) : view db₁ e = E := by
  rw [h, Function.update_self]

theorem other (h : Moves view db db₁ e E) {d : ι} (hd : d ≠ e) : view db₁ d = view db d := by
  rw [h, Function.update_of_ne hd]

/-- What the thing that moves keeps, all of them keep. -/
theorem keeps {P : V → Prop} (h : Moves view db db₁ e E) {d : ι}
    (hself : e = d → P (view db e) → P E) (hP : P (view db d)) : P (view db₁ d) := by
  by_cases hd : d = e
  · subst hd
    rw [h.self]
    exact hself rfl hP
  · rw [h.other hd]
    exact hP

/-- Nothing changes. -/
theorem of_same (hsame : ∀ d, view db₁ d = view db d) (h : view db e = E) :
    Moves view db db₁ e E := by
  rw [Moves, ← h, Function.update_eq_self]
  exact funext hsame

/-- One thing changes. -/
theorem of_change (hself : view db₁ e = E) (hne : ∀ d, d ≠ e → view db₁ d = view db d) :
    Moves view db db₁ e E := by
  funext d
  by_cases hd : d = e
  · subst hd
    rw [Function.update_self, hself]
  · rw [Function.update_of_ne hd, hne d hd]

end Moves

end Txn
