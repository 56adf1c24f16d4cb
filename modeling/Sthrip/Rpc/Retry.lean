import Mathlib.Data.List.Count
import Mathlib.Tactic.Cases

set_option autoImplicit false

/-! # Calls whose reply may be lost

A remote call can be executed without the caller learning of it: the reply times out, or the
connection drops. `Attempt` is what happens to one request, executed or not and with whatever
reply, and `tries` is what a caller does that repeats a request while its reply is lost. How often
the request is executed then depends on the attempts; `executed_le_one` says exactly when it is
at most once.
-/

namespace Rpc

variable {ε α : Type}

/-- What happens to a request: is it executed, and what does the caller hear? -/
structure Attempt (ε α : Type) where
  executed : Bool
  reply : Except ε α

/-- The caller hears nothing but an error after which it repeats the request. -/
def Attempt.lost (transient : ε → Bool) (a : Attempt ε α) : Bool :=
  match a.reply with
  | .error e => transient e
  | .ok _ => false

/-- The attempts a caller makes that may repeat its request `n` times. -/
def tries (transient : ε → Bool) : ℕ → (ℕ → Attempt ε α) → List (Attempt ε α)
  | 0, o => [o 0]
  | n + 1, o => o 0 :: if (o 0).lost transient then tries transient n fun i => o (i + 1) else []

variable {transient : ε → Bool}

/-- The attempt `j` is made, and it is executed. -/
def Hits (transient : ε → Bool) (n : ℕ) (o : ℕ → Attempt ε α) (j : ℕ) : Prop :=
  j ≤ n ∧ (∀ k < j, (o k).lost transient = true) ∧ (o j).executed = true

theorem hits_zero {n : ℕ} {o : ℕ → Attempt ε α} :
    Hits transient n o 0 ↔ (o 0).executed = true := by
  constructor
  · rintro ⟨-, -, h⟩
    exact h
  · intro h
    exact ⟨Nat.zero_le n, fun k hk => by omega, h⟩

theorem hits_succ {n j : ℕ} {o : ℕ → Attempt ε α} :
    Hits transient (n + 1) o (j + 1) ↔
      (o 0).lost transient = true ∧ Hits transient n (fun i => o (i + 1)) j := by
  constructor
  · rintro ⟨hj, hlost, hex⟩
    refine ⟨hlost 0 (by omega), by omega, fun k hk => ?_, hex⟩
    exact hlost (k + 1) (by omega)
  · rintro ⟨h₀, hj, hlost, hex⟩
    refine ⟨by omega, fun k hk => ?_, hex⟩
    cases k with
    | zero => exact h₀
    | succ k => exact hlost k (by omega)

theorem not_executed_iff (n : ℕ) (o : ℕ → Attempt ε α) :
    (tries transient n o).countP (·.executed) = 0 ↔ ∀ j, ¬Hits transient n o j := by
  induction n generalizing o with
  | zero =>
      rw [tries, List.countP_eq_zero]
      constructor
      · rintro h j ⟨hj, -, hex⟩
        obtain rfl : j = 0 := by omega
        exact h (o 0) (List.mem_singleton_self _) hex
      · intro h a ha hex
        obtain rfl := List.mem_singleton.mp ha
        exact h 0 (hits_zero.mpr hex)
  | succ n ih =>
      have hrest : (if (o 0).lost transient then tries transient n fun i => o (i + 1)
          else []).countP (·.executed) = 0 ↔ ∀ j, ¬Hits transient (n + 1) o (j + 1) := by
        by_cases h₀ : (o 0).lost transient = true
        · rw [if_pos h₀, ih]
          exact forall_congr' fun j => not_congr (by rw [hits_succ, and_iff_right h₀])
        · rw [if_neg h₀]
          exact ⟨fun _ j hj => h₀ (hits_succ.mp hj).1, fun _ => rfl⟩
      rw [tries, List.countP_cons, Nat.add_eq_zero_iff, hrest]
      constructor
      · rintro ⟨hrest, hhead⟩ j hj
        cases j with
        | zero =>
            rw [if_pos (hits_zero.mp hj)] at hhead
            omega
        | succ j => exact hrest j hj
      · intro h
        refine ⟨fun j => h (j + 1), ?_⟩
        rw [if_neg fun hex => h 0 (hits_zero.mpr hex)]

/-- **At most once.** A repeated request is executed at most once iff no attempt that is executed
is followed by another that is. -/
theorem executed_le_one (n : ℕ) (o : ℕ → Attempt ε α) :
    (tries transient n o).countP (·.executed) ≤ 1 ↔
      ∀ i j, i < j → (o i).executed = true → ¬Hits transient n o j := by
  induction n generalizing o with
  | zero =>
      constructor
      · rintro - i j hij - ⟨hj, -⟩
        omega
      · intro _
        rw [tries]
        exact List.countP_le_length
  | succ n ih =>
      by_cases h₀ : (o 0).lost transient = true
      · have hcount : (tries transient (n + 1) o).countP (·.executed)
            = (tries transient n fun i => o (i + 1)).countP (·.executed)
              + if (o 0).executed then 1 else 0 := by
          rw [tries, if_pos h₀, List.countP_cons]
        rw [hcount]
        by_cases hex : (o 0).executed = true
        · -- the first attempt is executed, so that none of the others may be
          have hzero : (tries transient n fun i => o (i + 1)).countP (·.executed) = 0 ↔
              ∀ j, ¬Hits transient n (fun i => o (i + 1)) j := not_executed_iff n _
          rw [if_pos hex]
          constructor
          · intro h i j hij hi hj
            obtain ⟨j, rfl⟩ : ∃ m, j = m + 1 := ⟨j - 1, by omega⟩
            exact hzero.mp (by omega) j (hits_succ.mp hj).2
          · intro h
            have := hzero.mpr fun j hj => h 0 (j + 1) (by omega) hex (hits_succ.mpr ⟨h₀, hj⟩)
            omega
        · rw [if_neg hex, Nat.add_zero, ih]
          constructor
          · intro h i j hij hi hj
            obtain ⟨j, rfl⟩ : ∃ m, j = m + 1 := ⟨j - 1, by omega⟩
            cases i with
            | zero => exact hex hi
            | succ i => exact h i j (by omega) hi (hits_succ.mp hj).2
          · intro h i j hij hi hj
            exact h (i + 1) (j + 1) (by omega) hi (hits_succ.mpr ⟨h₀, hj⟩)
      · have hcount : (tries transient (n + 1) o).countP (·.executed) ≤ 1 := by
          rw [tries, if_neg h₀]
          exact List.countP_le_length
        refine ⟨fun _ i j hij _ hj => ?_, fun _ => hcount⟩
        obtain ⟨j, rfl⟩ : ∃ m, j = m + 1 := ⟨j - 1, by omega⟩
        exact h₀ (hits_succ.mp hj).1

end Rpc
