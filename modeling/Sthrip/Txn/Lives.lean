import Mathlib.Logic.Relation
import Sthrip.Txn.Ensures

set_option autoImplicit false

/-! # Rows that go through a machine

`R` says how a row of a table may change, and `New` how it begins. When each statement that writes a
row makes one move of `R`, or a new row, then from any state of a run to any later one each row has
made a path of moves, began in a new row, or is still not there (`Config.lived`). No row is deleted.

Only one session writes a row at a time, but its object may be older than the row. The moves are those
of the row that the statement finds, not of what the session knows.
-/

namespace Txn

variable {S : Schema} {α : Type}
variable {R : (k : S.Key) → S.Row k → S.Row k → Prop} {New : (k : S.Key) → S.Row k → Prop}

/-- The statement moves a row by `R`, or makes a new one. -/
def Stmt.lives (R : (k : S.Key) → S.Row k → S.Row k → Prop) (New : (k : S.Key) → S.Row k → Prop) :
    Stmt S → Prop
  | .update k guard set => ∀ r, guard r = true → R k r (set r)
  | .assign k set => ∀ r, R k r (set r)
  | .create k row => New k row
  | _ => True

/-- What has become of a row that was `a`. -/
inductive Lived {ρ : Type} (R : ρ → ρ → Prop) (New : ρ → Prop) : Option ρ → Option ρ → Prop where
  | absent : Lived R New none none
  | born {r₀ r : ρ} : New r₀ → Relation.ReflTransGen R r₀ r → Lived R New none (some r)
  | went {r r' : ρ} : Relation.ReflTransGen R r r' → Lived R New (some r) (some r')

/-- A row `r` of the key `k` has come here by moves. -/
def CameFrom (R : (k : S.Key) → S.Row k → S.Row k → Prop) {k : S.Key} (r : S.Row k) (k' : S.Key)
    (r' : S.Row k') : Prop := ∀ e : k' = k, Relation.ReflTransGen (R k) r (e ▸ r')

theorem Stmt.lives.maintains {s : Stmt S} (h : s.lives R New) {k : S.Key} (r : S.Row k)
    (st : Store S) (σ : Session S) : s.Maintains (CameFrom R r) st σ := by
  cases s with
  | update k' guard set =>
      intro r' _ hguard hcame e
      subst e
      exact (hcame rfl).tail (h r' hguard)
  | assign k' set =>
      intro r' _ hcame e
      subst e
      exact (hcame rfl).tail (h r')
  | _ => trivial

/-- The row is one of the database at the start, or has come from a new one. -/
def Begun (R : (k : S.Key) → S.Row k → S.Row k → Prop) (New : (k : S.Key) → S.Row k → Prop)
    (db : DB S) (k : S.Key) (r : S.Row k) : Prop :=
  (db.rows k).isSome ∨ ∃ r₀, New k r₀ ∧ Relation.ReflTransGen (R k) r₀ r

theorem Stmt.lives.keeps {s : Stmt S} (h : s.lives R New) (db : DB S) : s.keeps (Begun R New db) := by
  cases s with
  | update k guard set =>
      rintro r (hold | ⟨r₀, hnew, hpath⟩) hguard
      · exact Or.inl hold
      · exact Or.inr ⟨r₀, hnew, hpath.tail (h r hguard)⟩
  | assign k set =>
      rintro r (hold | ⟨r₀, hnew, hpath⟩)
      · exact Or.inl hold
      · exact Or.inr ⟨r₀, hnew, hpath.tail (h r)⟩
  | create k row => exact Or.inr ⟨row, h, .refl⟩
  | _ => trivial

namespace Config

variable {st : Store S} {p : ℕ → Prog S α} {c₁ c₂ : Config S α}
  {Ok : Store S → Session S → Stmt S → Input S → Prop}

/-- A row moves by `R`, and is not deleted. -/
theorem went (hwf : st.db.WF) (hp : ∀ i, (p i).only (Stmt.lives R New))
    (h₁ : Reaches Ok (start st p) c₁) (h₂ : Reaches Ok c₁ c₂) {k : S.Key} {r : S.Row k}
    (hrow : c₁.store.db.rows k = some r) :
    ∃ r', c₂.store.db.rows k = some r' ∧ Relation.ReflTransGen (R k) r r' := by
  have hok : ∀ st σ s x, (Ok st σ s x ∧ Stmt.lives R New s) →
      s.Maintains (CameFrom R r) st σ := fun st σ _ _ h => h.2.maintains r st σ
  obtain ⟨h₁, hp₁⟩ := h₁.only hp
  obtain ⟨h₂, -⟩ := h₂.only hp₁
  have hmaintained : c₁.Maintained (CameFrom R r) := h₁.maintained (start_maintained hwf p) hok
  obtain ⟨r', hr', hcame⟩ := lasts h₂ hmaintained hok hrow (fun _ => .refl)
  exact ⟨r', hr', hcame rfl⟩

/-- The run lemma: from a state to a later one every row has lived. -/
theorem lived (hwf : st.db.WF) (hp : ∀ i, (p i).only (Stmt.lives R New))
    (h₁ : Reaches Ok (start st p) c₁) (h₂ : Reaches Ok c₁ c₂) (k : S.Key) :
    Lived (R k) (New k) (c₁.store.db.rows k) (c₂.store.db.rows k) := by
  cases hrow : c₁.store.db.rows k with
  | some r =>
      obtain ⟨r', hr', hpath⟩ := went hwf hp h₁ h₂ hrow
      rw [hr']
      exact .went hpath
  | none =>
      -- a row of the start would still be there
      have hnone : st.db.rows k = none := by
        cases hst : st.db.rows k with
        | none => rfl
        | some r =>
            obtain ⟨r', hr', -⟩ := went hwf hp .refl h₁ hst
            rw [hrow] at hr'
            cases hr'
      have hkept : c₂.Kept (Begun R New st.db) := by
        refine kept (fun k r hr => Or.inl (by rw [hr]; rfl)) (fun i => ?_) (h₁.trans h₂)
        exact Prog.only_mono (hp i) fun s hs => hs.keeps st.db
      cases hr : c₂.store.db.rows k with
      | none => exact .absent
      | some r =>
          rcases hkept.db k r hr with hold | ⟨r₀, hnew, hpath⟩
          · rw [hnone] at hold
            cases hold
          · exact .born hnew hpath

end Config

end Txn
