import Mathlib.Data.Nat.Notation

set_option autoImplicit false

/-! # Endless loops

A loop `while True:` whose body may break. How many turns it takes is not known beforehand, so the loop is
run with fuel: that it ends means that some fuel is enough.
-/

namespace Python

variable {σ : Type} {turn : σ → σ × Bool} {s s' : σ} {fuel : ℕ}

/-- The state after the loop, whose turns say whether they break. Nothing, when the fuel runs out. -/
def whileTrue (turn : σ → σ × Bool) : ℕ → σ → Option σ
  | 0, _ => none
  | fuel + 1, s => if (turn s).2 then some (turn s).1 else whileTrue turn fuel (turn s).1

theorem whileTrue_of_break (h : (turn s).2 = true) : whileTrue turn (fuel + 1) s = some (turn s).1 :=
  if_pos h

theorem whileTrue_of_not_break (h : (turn s).2 = false) :
    whileTrue turn (fuel + 1) s = whileTrue turn fuel (turn s).1 :=
  if_neg (by rw [h]; exact Bool.false_ne_true)

/-- More fuel changes nothing. -/
theorem whileTrue_mono {more : ℕ} (hle : fuel ≤ more) (h : whileTrue turn fuel s = some s') :
    whileTrue turn more s = some s' := by
  induction fuel generalizing s more with
  | zero => cases h
  | succ fuel ih =>
      obtain ⟨more, rfl⟩ : ∃ m, more = m + 1 := ⟨more - 1, by omega⟩
      cases hturn : (turn s).2 with
      | true => rwa [whileTrue_of_break hturn] at h ⊢
      | false =>
          rw [whileTrue_of_not_break hturn] at h ⊢
          exact ih (Nat.le_of_succ_le_succ hle) h

variable {I : σ → Prop}

/-- What the turns keep holds before the turn that breaks. -/
theorem whileTrue_last (hkeep : ∀ s, I s → (turn s).2 = false → I (turn s).1) (hs : I s)
    (h : whileTrue turn fuel s = some s') : ∃ last, I last ∧ (turn last).2 = true ∧ s' = (turn last).1 := by
  induction fuel generalizing s with
  | zero => cases h
  | succ fuel ih =>
      cases hturn : (turn s).2 with
      | true =>
          rw [whileTrue_of_break hturn] at h
          exact ⟨s, hs, hturn, (Option.some.inj h).symm⟩
      | false =>
          rw [whileTrue_of_not_break hturn] at h
          exact ih (hkeep s hs hturn) h

/-- A loop ends when every turn that does not break makes a measure less. -/
theorem whileTrue_ends (μ : σ → ℕ) (hkeep : ∀ s, I s → (turn s).2 = false → I (turn s).1)
    (hless : ∀ s, I s → (turn s).2 = false → μ (turn s).1 < μ s) (hs : I s) :
    ∃ s', whileTrue turn (μ s + 1) s = some s' := by
  induction hn : μ s using Nat.strongRecOn generalizing s with
  | _ n ih =>
      cases hturn : (turn s).2 with
      | true => exact ⟨_, whileTrue_of_break hturn⟩
      | false =>
          have hlt := hless s hs hturn
          rw [hn] at hlt
          obtain ⟨s', hs'⟩ := ih _ hlt (hkeep s hs hturn) rfl
          rw [whileTrue_of_not_break hturn]
          exact ⟨s', whileTrue_mono hlt hs'⟩

/-- A loop that never breaks never ends. -/
theorem whileTrue_eq_none (hnever : ∀ s, I s → (turn s).2 = false ∧ I (turn s).1) (hs : I s) (fuel : ℕ) :
    whileTrue turn fuel s = none := by
  induction fuel generalizing s with
  | zero => rfl
  | succ fuel ih =>
      rw [whileTrue_of_not_break (hnever s hs).1]
      exact ih (hnever s hs).2

end Python
