import Sthrip.Txn.Program
import Mathlib.Data.List.Nodup

set_option autoImplicit false

/-! # One session running alone

`Prog.eval` runs a program with nobody else touching the database. With a single session the
objects it has loaded agree with the rows it sees, so the state is just two copies of the
database: the committed one and the one the session sees.

`Prog.always Ok p Q R v` says that every such run of `p` from `v` whose statements all meet the
condition `Ok` returns with `Q` or raises with `R`, whatever the environment answers. Its rules
follow a program statement by statement; `Prog.always_serve` is its soundness.

`Txn/Refine.lean` shows that this is what the interleaved semantics does with one session.
-/

namespace Txn

variable {S : Schema} {α β : Type}

/-! ## The state of a lone session -/

/-- The committed database, the database as the session sees it, and the outside stores. -/
structure Solo (S : Schema) where
  saved : DB S
  db : DB S
  ext : S.Ext

/-- A session that starts on a store. -/
def Solo.ofStore (st : Store S) : Solo S := ⟨st.db, st.db, st.ext⟩

/-- What is left when the session is over: only the committed database counts. -/
def Solo.store (v : Solo S) : Store S := ⟨v.saved, v.ext⟩

/-- Write a row; a new primary key goes to the end of the table. -/
def DB.put (db : DB S) (k : S.Key) (row : S.Row k) : DB S :=
  { db with
    rows := Function.update db.rows k (some row)
    keys := if (db.rows k).isSome then db.keys else db.keys ++ [k] }

/-- Append a row to an append-only table. -/
def DB.append (db : DB S) (e : S.Entry) : DB S := { db with log := db.log ++ [e] }

/-- The keys of the rows that match, in storage order. -/
def DB.matching (db : DB S) (p : (k : S.Key) → S.Row k → Bool) : List S.Key :=
  db.keys.filter fun k => (db.rows k).any (p k)

/-- A query without `ORDER BY` returns its rows in an order the environment chooses. -/
def Input.arrange (x : Input S) (ks : List S.Key) : List S.Key :=
  if x.order.isPerm ks then x.order else ks

theorem Input.arrange_perm (x : Input S) (ks : List S.Key) : (x.arrange ks).Perm ks := by
  unfold Input.arrange
  split
  · next h => exact List.isPerm_iff.mp h
  · exact List.Perm.refl ks

@[simp] theorem DB.put_rows_self (db : DB S) (k : S.Key) (row : S.Row k) :
    (db.put k row).rows k = some row := by
  simp [DB.put]

theorem DB.put_rows_ne (db : DB S) {k k' : S.Key} (row : S.Row k) (h : k' ≠ k) :
    (db.put k row).rows k' = db.rows k' := by
  simp [DB.put, Function.update_of_ne h]

@[simp] theorem DB.put_log (db : DB S) (k : S.Key) (row : S.Row k) :
    (db.put k row).log = db.log := rfl

@[simp] theorem DB.append_rows (db : DB S) (e : S.Entry) : (db.append e).rows = db.rows := rfl
@[simp] theorem DB.append_keys (db : DB S) (e : S.Entry) : (db.append e).keys = db.keys := rfl
@[simp] theorem DB.append_log (db : DB S) (e : S.Entry) :
    (db.append e).log = db.log ++ [e] := rfl

theorem DB.put_keys_of_some {db : DB S} {k : S.Key} {r : S.Row k} (row : S.Row k)
    (h : db.rows k = some r) : (db.put k row).keys = db.keys := by
  simp [DB.put, h]

theorem DB.put_keys_of_none {db : DB S} {k : S.Key} (row : S.Row k)
    (h : db.rows k = none) : (db.put k row).keys = db.keys ++ [k] := by
  simp [DB.put, h]

@[simp] theorem DB.put_put (db : DB S) (k : S.Key) (row row' : S.Row k) :
    (db.put k row).put k row' = db.put k row' := by
  refine DB.ext (Function.update_idem _ _ _) ?_ rfl
  have hkeys : ((db.put k row).put k row').keys = (db.put k row).keys := by
    rw [DB.put, DB.put_rows_self]
    rfl
  exact hkeys

/-- The table of primary keys lists every row once. -/
structure DB.WF (db : DB S) : Prop where
  nodup : db.keys.Nodup
  mem_keys : ∀ k, k ∈ db.keys ↔ (db.rows k).isSome

theorem DB.WF.put {db : DB S} (h : db.WF) (k : S.Key) (row : S.Row k) : (db.put k row).WF := by
  have hrow : ∀ k', ((db.put k row).rows k').isSome ↔ k' = k ∨ (db.rows k').isSome := by
    intro k'
    by_cases hk : k' = k
    · subst hk
      simp
    · rw [DB.put_rows_ne db row hk]
      simp [hk]
  cases hk : db.rows k with
  | some r =>
      refine ⟨by rw [DB.put_keys_of_some row hk]; exact h.nodup, fun k' => ?_⟩
      rw [hrow, DB.put_keys_of_some row hk, h.mem_keys]
      exact ⟨Or.inr, fun h' => h'.elim (fun e => by rw [e, hk]; rfl) id⟩
  | none =>
      have hnot : k ∉ db.keys := by rw [h.mem_keys, hk]; simp
      refine ⟨?_, fun k' => ?_⟩
      · rw [DB.put_keys_of_none row hk]
        refine List.nodup_append.mpr ⟨h.nodup, List.pairwise_singleton _ k, ?_⟩
        rintro a ha b hb rfl
        exact hnot (List.mem_singleton.mp hb ▸ ha)
      · rw [hrow, DB.put_keys_of_none row hk, List.mem_append, List.mem_singleton, h.mem_keys,
          or_comm]

theorem DB.WF.append {db : DB S} (h : db.WF) (e : S.Entry) : (db.append e).WF :=
  ⟨h.nodup, h.mem_keys⟩

/-- A row that the query does not find, before or after. -/
theorem DB.matching_put_of_false {p : (k : S.Key) → S.Row k → Bool} {k : S.Key} {db : DB S}
    {row : S.Row k} (hrow : p k row = false) (hold : ∀ r, db.rows k = some r → p k r = false) :
    (db.put k row).matching p = db.matching p := by
  have hrows : ∀ k', ((db.put k row).rows k').any (p k') = (db.rows k').any (p k') := by
    intro k'
    by_cases hk : k' = k
    · subst hk
      rw [DB.put_rows_self]
      cases hr : db.rows k' with
      | none => simp [hrow]
      | some r => simp [hrow, hold r hr]
    · rw [DB.put_rows_ne db row hk]
  unfold DB.matching
  simp only [hrows]
  cases hr : db.rows k with
  | some r => rw [DB.put_keys_of_some row hr]
  | none => simp [DB.put_keys_of_none row hr, hr]

/-- A row that the query does not look at. -/
theorem DB.matching_put_of_not {p : (k : S.Key) → S.Row k → Bool} {k : S.Key}
    (hp : ∀ r, p k r = false) (db : DB S) (row : S.Row k) :
    (db.put k row).matching p = db.matching p := matching_put_of_false (hp row) fun r _ => hp r

/-- A new row. -/
theorem DB.WF.matching_put_new {db : DB S} (h : db.WF) (p : (k : S.Key) → S.Row k → Bool) {k : S.Key}
    (hnew : db.rows k = none) (row : S.Row k) :
    (db.put k row).matching p = db.matching p ++ if p k row then [k] else [] := by
  have hk : ∀ k' ∈ db.keys, ((db.put k row).rows k').any (p k') = (db.rows k').any (p k') := by
    intro k' hk'
    have hne : k' ≠ k := by
      rintro rfl
      have := (h.mem_keys k').mp hk'
      rw [hnew] at this
      cases this
    rw [DB.put_rows_ne db row hne]
  unfold DB.matching
  rw [DB.put_keys_of_none row hnew, List.filter_append, List.filter_congr hk]
  simp [List.filter_cons]

theorem DB.mem_matching {db : DB S} {p : (k : S.Key) → S.Row k → Bool} {k : S.Key} :
    k ∈ db.matching p ↔ k ∈ db.keys ∧ ∃ r, db.rows k = some r ∧ p k r = true := by
  simp only [DB.matching, List.mem_filter, Option.any_eq_true]

/-- What a query returns: every row that matches, once. -/
theorem DB.WF.mem_of_perm {db : DB S} (h : db.WF) {p : (k : S.Key) → S.Row k → Bool}
    {l : List S.Key} (hl : l.Perm (db.matching p)) {k : S.Key} :
    k ∈ l ↔ ∃ r, db.rows k = some r ∧ p k r = true := by
  rw [hl.mem_iff, DB.mem_matching, h.mem_keys]
  exact ⟨fun h => h.2, fun ⟨r, hr, hp⟩ => ⟨by simp [hr], r, hr, hp⟩⟩

/-- The rows that match, in storage order. -/
def DB.found (db : DB S) (p : (k : S.Key) → S.Row k → Bool) : List (Σ k, S.Row k) :=
  (db.matching p).filterMap fun k => (db.rows k).map (Sigma.mk k)

theorem DB.WF.mem_found {db : DB S} (h : db.WF) {p : (k : S.Key) → S.Row k → Bool} {k : S.Key}
    {r : S.Row k} : ⟨k, r⟩ ∈ db.found p ↔ db.rows k = some r ∧ p k r = true := by
  simp only [DB.found, List.mem_filterMap, Option.map_eq_some_iff, h.mem_of_perm (List.Perm.refl _)]
  constructor
  · rintro ⟨k', ⟨r', hr', hp⟩, r'', hr'', he⟩
    cases he
    obtain rfl := Option.some.inj (hr'.symm.trans hr'')
    exact ⟨hr', hp⟩
  · rintro ⟨hr, hp⟩
    exact ⟨k, ⟨r, hr, hp⟩, r, hr, rfl⟩

theorem DB.WF.nodup_found {db : DB S} (h : db.WF) (p : (k : S.Key) → S.Row k → Bool) :
    ((db.found p).map Sigma.fst).Nodup := by
  rw [DB.found, List.map_filterMap]
  refine (h.nodup.filter _).filterMap fun k k' x hx hx' => ?_
  simp only [Option.mem_def, Option.map_map, Option.map_eq_some_iff] at hx hx'
  obtain ⟨r, -, rfl⟩ := hx
  obtain ⟨r', -, hr'⟩ := hx'
  exact hr'.symm

theorem DB.found_put_of_false {p : (k : S.Key) → S.Row k → Bool} {k : S.Key} {db : DB S}
    {row : S.Row k} (hrow : p k row = false) (hold : ∀ r, db.rows k = some r → p k r = false) :
    (db.put k row).found p = db.found p := by
  unfold DB.found
  rw [DB.matching_put_of_false hrow hold]
  refine List.filterMap_congr fun k' hk' => ?_
  have hne : k' ≠ k := by
    rintro rfl
    obtain ⟨-, r, hr, hp⟩ := DB.mem_matching.mp hk'
    rw [hold r hr] at hp
    cases hp
  rw [DB.put_rows_ne db row hne]

theorem DB.WF.nodup_of_perm {db : DB S} (h : db.WF) {p : (k : S.Key) → S.Row k → Bool}
    {l : List S.Key} (hl : l.Perm (db.matching p)) : l.Nodup :=
  hl.nodup_iff.mpr (h.nodup.filter _)

/-! ## Running a program -/

/-- One statement of a lone session. -/
def Stmt.eval : (s : Stmt S) → Input S → Solo S → s.Res × Solo S
  | .now, x, v => (x.time, v)
  | .ask, x, v => (x.choice, v)
  | .select k, _, v => (v.db.rows k, v)
  | .selectForUpdate k, _, v => (v.db.rows k, v)
  | .scan p, x, v => (x.arrange (v.db.matching p), v)
  | .update k guard set, _, v =>
      match v.db.rows k with
      | some r => if guard r then (true, { v with db := v.db.put k (set r) }) else (false, v)
      | none => (false, v)
  | .assign k set, _, v =>
      match v.db.rows k with
      | some r => ((), { v with db := v.db.put k (set r) })
      | none => ((), v)
  | .create k row, _, v =>
      match v.db.rows k with
      | some _ => (false, v)
      | none => (true, { v with db := v.db.put k row })
  | .insert e, _, v => ((), { v with db := v.db.append e })
  | .expireAll, _, v => ((), v)
  | .call op, x, v =>
      ((S.perform op x.time x.choice v.ext).1,
        { v with ext := (S.perform op x.time x.choice v.ext).2 })
  | .commit, x, v =>
      if x.choice = 0 then (true, { v with saved := v.db }) else (false, { v with db := v.saved })
  | .rollback, _, v => ((), { v with db := v.saved })

/-- Run a program; `x n` is the environment's input to its `n`-th statement. -/
def Prog.eval : Prog S α → (ℕ → Input S) → Solo S → Except S.Err α × Solo S
  | .ret a, _, v => (.ok a, v)
  | .raise e, _, v => (.error e, v)
  | .step s next, x, v =>
      (next (s.eval (x 0) v).1).eval (fun n => x (n + 1)) (s.eval (x 0) v).2

/-- A whole request running alone on a store. -/
def Prog.serve (p : Prog S α) (x : ℕ → Input S) (st : Store S) : Except S.Err α × Store S :=
  ((p.eval x (Solo.ofStore st)).1, (p.eval x (Solo.ofStore st)).2.store)

/-- The inputs that a program leaves over. -/
def Prog.rest : Prog S α → (ℕ → Input S) → Solo S → ℕ → Input S
  | .ret _, x, _ => x
  | .raise _, x, _ => x
  | .step s next, x, v =>
      (next (s.eval (x 0) v).1).rest (fun n => x (n + 1)) (s.eval (x 0) v).2

/-- The program returns `a` in the state `v'`, and leaves the inputs `x'` over. -/
def Prog.Returns (p : Prog S α) (x : ℕ → Input S) (v : Solo S) (a : α) (x' : ℕ → Input S)
    (v' : Solo S) : Prop :=
  p.eval x v = (.ok a, v') ∧ p.rest x v = x'

namespace Prog

variable {x x' : ℕ → Input S} {v v' : Solo S} {a : α}

theorem returns_ret {b : α} (h : (ret b : Prog S α).Returns x v a x' v') :
    a = b ∧ x' = x ∧ v' = v := by
  obtain ⟨hb, hv⟩ := Prod.mk.inj h.1
  exact ⟨(Except.ok.inj hb).symm, h.2.symm, hv.symm⟩

theorem returns_stmt {s : Stmt S} {r : s.Res} (h : (stmt s).Returns x v r x' v') :
    r = (s.eval (x 0) v).1 ∧ x' = (fun n => x (n + 1)) ∧ v' = (s.eval (x 0) v).2 := by
  obtain ⟨hr, hv⟩ := Prod.mk.inj h.1
  exact ⟨(Except.ok.inj hr).symm, h.2.symm, hv.symm⟩

/-- A program that returns has returned from its first part. -/
theorem returns_bind {p : Prog S α} {f : α → Prog S β} {b : β}
    (h : (p.bind f).Returns x v b x' v') :
    ∃ a x₁ v₁, p.Returns x v a x₁ v₁ ∧ (f a).Returns x₁ v₁ b x' v' := by
  induction p generalizing x v with
  | ret a => exact ⟨a, x, v, ⟨rfl, rfl⟩, h⟩
  | raise e => cases (Prod.mk.inj h.1).1
  | step s next ih => exact ih _ h

theorem returns_orRaise {e : S.Err} {o : Option α} (h : (orRaise e o).Returns x v a x' v') :
    o = some a ∧ x' = x ∧ v' = v := by
  cases o with
  | none => cases (Prod.mk.inj h.1).1
  | some b =>
      obtain ⟨rfl, hx, hv⟩ := returns_ret h
      exact ⟨rfl, hx, hv⟩

theorem returns_raiseIf {c : Prop} [Decidable c] {e : S.Err} {u : Unit}
    (h : (raiseIf c e).Returns x v u x' v') : ¬c ∧ x' = x ∧ v' = v := by
  unfold raiseIf at h
  split at h
  · cases (Prod.mk.inj h.1).1
  · next hc => exact ⟨hc, (returns_ret h).2⟩

/-- A session that returns has committed what its body did. -/
theorem eval_withSession_ok {p : Prog S α} (h : p.withSession.eval x v = (.ok a, v')) :
    ∃ x₁ v₁, p.Returns x v a x₁ v₁ ∧ v'.saved = v₁.db := by
  induction p generalizing x v with
  | ret b =>
      by_cases hc : (x 0).choice = 0
      · have hcommit : (withSession (.ret b)).eval x v = (.ok b, { v with saved := v.db }) := by
          simp [withSession, Prog.bind, Prog.tryCatch, commit, stmt, Prog.eval, Stmt.eval, hc]
        obtain ⟨hb, rfl⟩ := Prod.mk.inj (hcommit.symm.trans h)
        exact ⟨x, v, ⟨by rw [← hb]; rfl, rfl⟩, rfl⟩
      · have hfail : ((withSession (.ret b)).eval x v).1 = .error S.commitErr := by
          simp [withSession, Prog.bind, Prog.tryCatch, commit, rollback, stmt, Prog.eval, Stmt.eval,
            hc]
        rw [h] at hfail
        cases hfail
  | raise e => cases (Prod.mk.inj h).1
  | step s next ih => exact ih _ h

/-- The objects of the rows with the keys `ks`. -/
theorem returns_selectAll {ks : List S.Key} {rows : List (Σ k, S.Row k)}
    (h : (selectAll ks).Returns x v rows x' v') :
    rows = (ks.filterMap fun k => (v.db.rows k).map (Sigma.mk k)) ∧ v' = v := by
  induction ks generalizing x x' v v' rows with
  | nil =>
      obtain ⟨hrows, -, hv⟩ := returns_ret h
      exact ⟨hrows, hv⟩
  | cons k ks ih =>
      obtain ⟨row, x₁, v₁, h₁, h⟩ := returns_bind h
      obtain ⟨hrow, -, hv⟩ := returns_stmt h₁
      replace hv : v₁ = v := hv
      replace hrow : row = v.db.rows k := hrow
      obtain ⟨rest, x₂, v₂, h₂, h⟩ := returns_bind h
      obtain ⟨hrest, hv₂⟩ := ih h₂
      obtain ⟨hrows, -, hv'⟩ := returns_ret h
      refine ⟨?_, hv'.trans (hv₂.trans hv)⟩
      rw [hrows, hrest, hrow, hv]
      cases hk : v.db.rows k with
      | none => simp [hk]
      | some r => simp [hk]

theorem returns_query {p : (k : S.Key) → S.Row k → Bool} {rows : List (Σ k, S.Row k)}
    (h : (query p).Returns x v rows x' v') :
    rows = (((x 0).arrange (v.db.matching p)).filterMap fun k => (v.db.rows k).map (Sigma.mk k)) ∧
      v' = v := by
  obtain ⟨ks, x₁, v₁, h₁, h⟩ := returns_bind h
  obtain ⟨rfl, rfl, rfl⟩ := returns_stmt h₁
  exact returns_selectAll h

end Prog

/-- Both copies of the database are well formed. -/
structure Solo.WF (v : Solo S) : Prop where
  saved : v.saved.WF
  db : v.db.WF

theorem Solo.ofStore_wf {st : Store S} (h : st.db.WF) : (Solo.ofStore st).WF := ⟨h, h⟩

theorem Stmt.eval_wf (s : Stmt S) (x : Input S) {v : Solo S} (h : v.WF) :
    (s.eval x v).2.WF := by
  cases s with
  | update k guard set =>
      simp only [eval]
      split
      · split
        · exact ⟨h.saved, h.db.put _ _⟩
        · exact h
      · exact h
  | assign k set =>
      simp only [eval]
      split
      · exact ⟨h.saved, h.db.put _ _⟩
      · exact h
  | create k row =>
      simp only [eval]
      split
      · exact h
      · exact ⟨h.saved, h.db.put _ _⟩
  | insert e => exact ⟨h.saved, h.db.append e⟩
  | commit =>
      simp only [eval]
      split
      · exact ⟨h.db, h.db⟩
      · exact ⟨h.saved, h.saved⟩
  | rollback => exact ⟨h.saved, h.saved⟩
  | _ => exact ⟨h.saved, h.db⟩

theorem Prog.eval_wf (p : Prog S α) (x : ℕ → Input S) {v : Solo S} (h : v.WF) : (p.eval x v).2.WF := by
  induction p generalizing x v with
  | ret a => exact h
  | raise e => exact h
  | step s next ih => exact ih _ _ (s.eval_wf (x 0) h)

theorem Prog.serve_wf (p : Prog S α) (x : ℕ → Input S) {st : Store S} (h : st.db.WF) :
    (p.serve x st).2.db.WF :=
  (p.eval_wf x (Solo.ofStore_wf h)).saved

/-! ## What every run does -/

/-- A condition on the steps of a lone session: the state, the statement and the environment's
input to it. -/
abbrev StepCond (S : Schema) := Solo S → Stmt S → Input S → Prop

/-- Every statement of the run meets the condition. -/
def Prog.meets (Ok : StepCond S) : Prog S α → (ℕ → Input S) → Solo S → Prop
  | .ret _, _, _ => True
  | .raise _, _, _ => True
  | .step s next, x, v =>
      Ok v s (x 0) ∧ (next (s.eval (x 0) v).1).meets Ok (fun n => x (n + 1)) (s.eval (x 0) v).2

theorem Prog.meets_true (p : Prog S α) (x : ℕ → Input S) (v : Solo S) :
    p.meets (fun _ _ _ => True) x v := by
  induction p generalizing x v with
  | ret a => trivial
  | raise e => trivial
  | step s next ih => exact ⟨trivial, ih ..⟩

theorem Prog.meets_of_inputs {Ok : StepCond S} {x : ℕ → Input S} (h : ∀ v s n, Ok v s (x n))
    (p : Prog S α) (v : Solo S) : p.meets Ok x v := by
  induction p generalizing x v with
  | ret a => trivial
  | raise e => trivial
  | step s next ih => exact ⟨h v s 0, ih _ (fun v s n => h v s (n + 1)) _⟩

/-- Every run whose statements meet `Ok` returns with `Q` or raises with `R`. -/
def Prog.always (Ok : StepCond S) : Prog S α → (α → Solo S → Prop) → (S.Err → Solo S → Prop) →
    Solo S → Prop
  | .ret a, Q, _, v => Q a v
  | .raise e, _, R, v => R e v
  | .step s next, Q, R, v =>
      ∀ x, v.WF → Ok v s x → (next (s.eval x v).1).always Ok Q R (s.eval x v).2

/-- The exceptional end of a session that has not committed: what it did will be rolled back. -/
abbrev Unsaved (v : Solo S) : S.Err → Solo S → Prop := fun _ v' => v'.saved = v.saved

/-- The postcondition of a result. -/
def Ends (Q : α → Solo S → Prop) (R : S.Err → Solo S → Prop) : Except S.Err α → Solo S → Prop
  | .ok a, v => Q a v
  | .error e, v => R e v

/-- **Soundness** of `always`. -/
theorem Prog.always_eval {Ok : StepCond S} {p : Prog S α} {Q : α → Solo S → Prop}
    {R : S.Err → Solo S → Prop} {v : Solo S} (h : p.always Ok Q R v) (hv : v.WF)
    {x : ℕ → Input S} (hx : p.meets Ok x v) :
    Ends Q R (p.eval x v).1 (p.eval x v).2 ∧ (p.eval x v).2.WF := by
  induction p generalizing x v with
  | ret a => exact ⟨h, hv⟩
  | raise e => exact ⟨h, hv⟩
  | step s next ih => exact ih _ (h (x 0) hv hx.1) (s.eval_wf (x 0) hv) hx.2

/-- What every run ensures, a run that returns ensures. -/
theorem Prog.Returns.always {p : Prog S α} {x x' : ℕ → Input S} {v v' : Solo S} {a : α}
    (hr : p.Returns x v a x' v') (hv : v.WF) {Q : α → Solo S → Prop}
    {R : S.Err → Solo S → Prop} (h : p.always (fun _ _ _ => True) Q R v) : Q a v' ∧ v'.WF := by
  have hends := always_eval h hv (p.meets_true x v)
  rw [hr.1] at hends
  exact hends

theorem Prog.always_serve {Ok : StepCond S} {p : Prog S α} {Q : α → Solo S → Prop}
    {R : S.Err → Solo S → Prop} {st : Store S} (h : p.always Ok Q R (Solo.ofStore st))
    (hst : st.db.WF) {x : ℕ → Input S} (hx : p.meets Ok x (Solo.ofStore st)) :
    (∃ v, (p.serve x st).2 = v.store ∧ v.WF ∧ Ends Q R (p.serve x st).1 v) :=
  have := always_eval h (Solo.ofStore_wf hst) hx
  ⟨_, rfl, this.2, this.1⟩

namespace Prog

variable {Ok : StepCond S} {R : S.Err → Solo S → Prop} {v : Solo S}

/-! ## Composing programs -/

theorem always_mono {p : Prog S α} {Q Q' : α → Solo S → Prop} {R' : S.Err → Solo S → Prop}
    (h : p.always Ok Q R v) (hQ : ∀ a v, Q a v → Q' a v) (hR : ∀ e v, R e v → R' e v) :
    p.always Ok Q' R' v := by
  induction p generalizing v with
  | ret a => exact hQ _ _ h
  | raise e => exact hR _ _ h
  | step s next ih => exact fun x hv hx => ih _ (h x hv hx)

/-- Both postconditions. -/
theorem always_and {Ok : StepCond S} {p : Prog S α} {Q Q' : α → Solo S → Prop}
    {R R' : S.Err → Solo S → Prop} {v : Solo S} (h : p.always Ok Q R v)
    (h' : p.always Ok Q' R' v) :
    p.always Ok (fun a v => Q a v ∧ Q' a v) (fun e v => R e v ∧ R' e v) v := by
  induction p generalizing v with
  | ret a => exact ⟨h, h'⟩
  | raise e => exact ⟨h, h'⟩
  | step s next ih => exact fun x hv hx => ih _ (h x hv hx) (h' x hv hx)

/-- A stronger condition on the steps. -/
theorem always_weaken {Ok Ok' : StepCond S} (hok : ∀ v s x, Ok' v s x → Ok v s x) {p : Prog S α}
    {Q : α → Solo S → Prop} {R : S.Err → Solo S → Prop} {v : Solo S} (h : p.always Ok Q R v) :
    p.always Ok' Q R v := by
  induction p generalizing v with
  | ret a => exact h
  | raise e => exact h
  | step s next ih => exact fun x hv hx => ih _ (h x hv (hok v s x hx))

theorem always_bind {p : Prog S α} {f : α → Prog S β} {Q : β → Solo S → Prop}
    (h : p.always Ok (fun a v => (f a).always Ok Q R v) R v) : (p.bind f).always Ok Q R v := by
  induction p generalizing v with
  | ret a => exact h
  | raise e => exact h
  | step s next ih => exact fun x hv hx => ih _ (h x hv hx)

/-- An exception handler runs in the state the exception left behind. -/
theorem always_tryCatch {p : Prog S α} {h : S.Err → Prog S α} {Q : α → Solo S → Prop}
    (hp : p.always Ok Q (fun e v => (h e).always Ok Q R v) v) :
    (p.tryCatch h).always Ok Q R v := by
  induction p generalizing v with
  | ret a => exact hp
  | raise e => exact hp
  | step s next ih => exact fun x hv hx => ih _ (hp x hv hx)

/-- A loop over a list: `Inv l` holds with `l` still to do. -/
theorem always_forEach {γ : Type} {f : γ → Prog S Unit} (Inv : List γ → Solo S → Prop)
    (hf : ∀ a l v, Inv (a :: l) v → (f a).always Ok (fun _ v => Inv l v) R v)
    (l : List γ) (h : Inv l v) : (forEach l f).always Ok (fun _ v => Inv [] v) R v := by
  induction l generalizing v with
  | nil => exact h
  | cons a l ih =>
      exact always_bind (always_mono (hf a l v h) (fun _ _ h' => ih h') fun _ _ h' => h')

/-- A loop that counts: `Inv l` holds with `l` still to do. -/
theorem always_tallyOver {γ : Type} {f : γ → Prog S Bool} (Inv : List γ → Solo S → Prop)
    (hf : ∀ a l v, Inv (a :: l) v → (f a).always Ok (fun _ v => Inv l v) R v)
    (l : List γ) (h : Inv l v) : (tally l f).always Ok (fun _ v => Inv [] v) R v := by
  induction l generalizing v with
  | nil => exact h
  | cons a l ih =>
      refine always_bind (always_mono (hf a l v h) (fun _ v' h' => ?_) fun _ _ h' => h')
      exact always_bind (always_mono (ih h') (fun _ _ h'' => h'') fun _ _ h'' => h'')

/-- A loop that keeps an invariant, whatever it counts. -/
theorem always_tally {γ : Type} {f : γ → Prog S Bool} (Inv : Solo S → Prop) (l : List γ)
    (hf : ∀ a ∈ l, ∀ v, Inv v → (f a).always Ok (fun _ v => Inv v) R v) (h : Inv v) :
    (tally l f).always Ok (fun _ v => Inv v) R v := by
  have hone : ∀ a l' v', ((∀ b ∈ a :: l', b ∈ l) ∧ Inv v') →
      (f a).always Ok (fun _ v => (∀ b ∈ l', b ∈ l) ∧ Inv v) R v' := by
    intro a l' v' ⟨hmem, hv'⟩
    refine always_mono (hf a (hmem a List.mem_cons_self) v' hv') (fun _ _ h' => ⟨?_, h'⟩) fun _ _ h' => h'
    exact fun b hb => hmem b (List.mem_cons_of_mem a hb)
  exact always_mono (always_tallyOver (fun l' v => (∀ b ∈ l', b ∈ l) ∧ Inv v) hone l ⟨fun _ hb => hb, h⟩)
    (fun _ _ h' => h'.2) fun _ _ h' => h'

/-! ## Single statements -/

theorem always_stmt {s : Stmt S} {Q : s.Res → Solo S → Prop}
    (h : ∀ x, v.WF → Ok v s x → Q (s.eval x v).1 (s.eval x v).2) :
    (stmt s).always Ok Q R v := h

theorem always_now {Q : ℤ → Solo S → Prop} (h : ∀ t, Q t v) : now.always Ok Q R v :=
  fun x _ _ => h x.time

theorem always_select {k : S.Key} {Q : Option (S.Row k) → Solo S → Prop}
    (h : Q (v.db.rows k) v) : (select k).always Ok Q R v :=
  fun _ _ _ => h

theorem always_selectForUpdate {k : S.Key} {Q : Option (S.Row k) → Solo S → Prop}
    (h : Q (v.db.rows k) v) : (selectForUpdate k).always Ok Q R v :=
  fun _ _ _ => h

theorem always_scan {p : (k : S.Key) → S.Row k → Bool} {Q : List S.Key → Solo S → Prop}
    (h : ∀ l, l.Perm (v.db.matching p) → v.db.WF → Q l v) : (scan p).always Ok Q R v :=
  fun x hv _ => h _ (x.arrange_perm _) hv.db

theorem always_update {k : S.Key} {guard : S.Row k → Bool} {set : S.Row k → S.Row k}
    {Q : Bool → Solo S → Prop}
    (hit : ∀ r x, v.db.rows k = some r → guard r = true → Ok v (.update k guard set) x →
      Q true { v with db := v.db.put k (set r) })
    (miss : (∀ r, v.db.rows k = some r → guard r = false) → Q false v) :
    (update k guard set).always Ok Q R v := by
  refine always_stmt fun x _ hx => ?_
  cases hk : v.db.rows k with
  | none =>
      simp only [Stmt.eval, hk]
      exact miss fun r hr => by rw [hk] at hr; cases hr
  | some r =>
      by_cases hg : guard r = true
      · simp only [Stmt.eval, hk, hg, if_true]
        exact hit r x hk hg hx
      · simp only [Stmt.eval, hk, hg, Bool.false_eq_true, if_false]
        refine miss fun r' hr' => ?_
        rw [hk, Option.some.injEq] at hr'
        exact hr' ▸ by simpa using hg

theorem always_assign {k : S.Key} {set : S.Row k → S.Row k} {Q : Unit → Solo S → Prop}
    {r : S.Row k} (hk : v.db.rows k = some r)
    (h : Q () { v with db := v.db.put k (set r) }) : (assign k set).always Ok Q R v := by
  refine always_stmt fun x _ _ => ?_
  simp only [Stmt.eval, hk]
  exact h

theorem always_create {k : S.Key} {row : S.Row k} {Q : Bool → Solo S → Prop}
    (hit : ∀ x, v.db.rows k = none → Ok v (.create k row) x →
      Q true { v with db := v.db.put k row })
    (miss : ∀ r, v.db.rows k = some r → Q false v) : (create k row).always Ok Q R v := by
  refine always_stmt fun x _ hx => ?_
  cases hk : v.db.rows k with
  | none =>
      simp only [Stmt.eval, hk]
      exact hit x hk hx
  | some r =>
      simp only [Stmt.eval, hk]
      exact miss r hk

theorem always_insert {e : S.Entry} {Q : Unit → Solo S → Prop}
    (h : Q () { v with db := v.db.append e }) : (insert e).always Ok Q R v :=
  fun _ _ _ => h

theorem always_expireAll {Q : Unit → Solo S → Prop} (h : Q () v) :
    expireAll.always Ok Q R v :=
  fun _ _ _ => h

theorem always_commit {Q : Bool → Solo S → Prop}
    (hit : Q true { v with saved := v.db })
    (miss : ∀ x, x.choice ≠ 0 → Ok v .commit x → Q false { v with db := v.saved }) :
    commit.always Ok Q R v := by
  refine always_stmt fun x _ hx => ?_
  simp only [Stmt.eval]
  split
  · exact hit
  · next hc => exact miss x hc hx

theorem always_rollback {Q : Unit → Solo S → Prop} (h : Q () { v with db := v.saved }) :
    rollback.always Ok Q R v :=
  fun _ _ _ => h

theorem always_selectAll {ks : List S.Key} {Q : List (Σ k, S.Row k) → Solo S → Prop}
    (h : Q (ks.filterMap fun k => (v.db.rows k).map (Sigma.mk k)) v) :
    (selectAll ks).always Ok Q R v := by
  induction ks generalizing Q with
  | nil => exact h
  | cons k ks ih =>
      refine always_bind (always_select (always_bind (ih ?_)))
      cases hk : v.db.rows k with
      | none =>
          simp only [List.filterMap_cons, hk, Option.map_none] at h
          exact h
      | some r =>
          simp only [List.filterMap_cons, hk, Option.map_some] at h
          exact h

/-- The answer to a query lists the rows that match, in some order. -/
theorem always_query_perm {p : (k : S.Key) → S.Row k → Bool}
    {Q : List (Σ k, S.Row k) → Solo S → Prop} (h : ∀ l, l.Perm (v.db.found p) → v.db.WF → Q l v) :
    (query p).always Ok Q R v :=
  always_bind (always_scan fun _ hks hwf => always_selectAll (h _ (hks.filterMap _) hwf))

/-- The answer to a query lists every row that matches, once. -/
theorem always_query {p : (k : S.Key) → S.Row k → Bool}
    {Q : List (Σ k, S.Row k) → Solo S → Prop}
    (h : ∀ l : List (Σ k, S.Row k), (l.map Sigma.fst).Nodup →
      (∀ k r, ⟨k, r⟩ ∈ l ↔ v.db.rows k = some r ∧ p k r = true) → Q l v) :
    (query p).always Ok Q R v := by
  refine always_query_perm fun l hl hwf => ?_
  exact h l ((hl.map _).nodup_iff.mpr (hwf.nodup_found p)) fun k r => hl.mem_iff.trans hwf.mem_found

/-- Objects read off the rows of a query: `f` reads `a` off the row `obj a`. -/
theorem mem_filterMap_rows {γ : Type} {f : (Σ k, S.Row k) → Option γ} {obj : γ → Σ k, S.Row k}
    (hf : ∀ x a, f x = some a ↔ x = obj a) {l : List (Σ k, S.Row k)} {a : γ} :
    a ∈ l.filterMap f ↔ obj a ∈ l := by
  simp only [List.mem_filterMap, hf]
  exact ⟨fun ⟨x, hx, he⟩ => he ▸ hx, fun h => ⟨_, h, rfl⟩⟩

/-- When they name the keys of their rows, no name comes twice. -/
theorem nodup_filterMap_rows {ι ρ : Type} {f : (Σ k, S.Row k) → Option (ι × ρ)}
    {obj : ι × ρ → Σ k, S.Row k} (hf : ∀ x a, f x = some a ↔ x = obj a)
    (hobj : ∀ a b : ι × ρ, a.1 = b.1 → (obj a).1 = (obj b).1) {l : List (Σ k, S.Row k)}
    (hnodup : (l.map Sigma.fst).Nodup) : ((l.filterMap f).map Prod.fst).Nodup := by
  have hinj : ∀ x y : Σ k, S.Row k, ∀ b ∈ f x, b ∈ f y → x = y :=
    fun x y b hx hy => ((hf x b).mp hx).trans ((hf y b).mp hy).symm
  refine ((List.Nodup.of_map _ hnodup).filterMap hinj).map_on fun a ha b hb hab => ?_
  have hsame : obj a = obj b := List.inj_on_of_nodup_map hnodup ((mem_filterMap_rows hf).mp ha)
    ((mem_filterMap_rows hf).mp hb) (hobj a b hab)
  have hfa := (hf (obj b) a).mpr hsame.symm
  rw [(hf (obj b) b).mpr rfl, Option.some.injEq] at hfa
  exact hfa.symm

/-- Names of rows that tell their keys do not come twice. -/
theorem nodup_filterMap_keys {ι : Type} {f : (Σ k, S.Row k) → Option ι} (key : ι → S.Key)
    (hf : ∀ x a, f x = some a → x.1 = key a) {l : List (Σ k, S.Row k)}
    (hnodup : (l.map Sigma.fst).Nodup) : (l.filterMap f).Nodup := by
  induction l with
  | nil => exact List.nodup_nil
  | cons x l ih =>
      rw [List.map_cons, List.nodup_cons] at hnodup
      cases hx : f x with
      | none =>
          rw [List.filterMap_cons_none hx]
          exact ih hnodup.2
      | some a =>
          rw [List.filterMap_cons_some hx, List.nodup_cons]
          refine ⟨fun ha => ?_, ih hnodup.2⟩
          obtain ⟨y, hy, hya⟩ := List.mem_filterMap.mp ha
          have hsame : y.1 = x.1 := (hf y a hya).trans (hf x a hx).symm
          exact hnodup.1 (hsame ▸ List.mem_map_of_mem hy)

theorem always_raiseIf {c : Prop} [Decidable c] {e : S.Err} {Q : Unit → Solo S → Prop}
    (hc : c → R e v) (h : ¬c → Q () v) : (raiseIf c e).always Ok Q R v := by
  unfold raiseIf
  split
  · next h' => exact hc h'
  · next h' => exact h h'

theorem always_onlyIf {c : Prop} [Decidable c] {p : Prog S α} {Q : Unit → Solo S → Prop}
    (hc : c → p.always Ok (fun _ v => Q () v) R v) (h : ¬c → Q () v) :
    (onlyIf c p).always Ok Q R v := by
  unfold onlyIf
  split
  · next h' => exact always_bind (hc h')
  · next h' => exact h h'

theorem always_orRaise {e : S.Err} {o : Option α} {Q : α → Solo S → Prop}
    (hn : o = none → R e v) (h : ∀ a, o = some a → Q a v) :
    (orRaise e o).always Ok Q R v := by
  cases o with
  | none => exact hn rfl
  | some a => exact h a rfl

/-- A session commits when its body returns, unless the commit fails, and rolls back when its
body raises. -/
theorem always_withSession {p : Prog S α} {Q : α → Solo S → Prop}
    (h : p.always Ok
      (fun a v' => Q a { v' with saved := v'.db } ∧
        ∀ x, x.choice ≠ 0 → Ok v' .commit x → R S.commitErr { v' with db := v'.saved })
      (fun e v' => R e { v' with db := v'.saved }) v) :
    p.withSession.always Ok Q R v := by
  refine always_tryCatch (always_bind (always_mono h (fun a v' ⟨hc, hr⟩ => ?_) fun e v' hr => ?_))
  · refine always_bind (always_commit hc fun x hx hok => ?_)
    exact always_bind (always_rollback (hr x hx hok))
  · exact always_bind (always_rollback hr)

/-- A session whose body keeps an invariant of the database. -/
theorem always_session {p : Prog S α} (Inv : DB S → Prop) (hv : Inv v.saved)
    (h : p.always Ok (fun _ v' => Inv v'.db ∧ v'.saved = v.saved) (fun _ v' => v'.saved = v.saved)
      v) :
    p.withSession.always Ok (fun _ v' => Inv v'.saved) (fun _ v' => Inv v'.saved) v := by
  refine always_withSession (always_mono h (fun a v' ⟨hdb, hsaved⟩ => ⟨hdb, fun _ _ _ => ?_⟩)
    fun e v' hsaved => ?_)
  · exact hsaved ▸ hv
  · exact hsaved ▸ hv

/-- A session has at least one step, and what the condition on it says may be assumed. -/
theorem always_session_assuming {Ok : StepCond S} {p : Prog S α} {Q : α → Solo S → Prop}
    {R : S.Err → Solo S → Prop} {v : Solo S} {c : Prop} (hok : ∀ v s x, Ok v s x → c)
    (h : c → p.withSession.always Ok Q R v) : p.withSession.always Ok Q R v := by
  cases p with
  | ret a => exact fun x hv hx => h (hok v _ x hx) x hv hx
  | raise e => exact fun x hv hx => h (hok v _ x hx) x hv hx
  | step s next => exact fun x hv hx => h (hok v _ x hx) x hv hx

end Prog

/-! ## One request after another -/

/-- The stores that requests out of `p`, served one after another, lead to, when every statement
of a request `i` that runs meets `Ok i`. -/
inductive Served {ι : Type} (Ok : ι → StepCond S) (p : ι → Prog S α) (st₀ : Store S) :
    Store S → Prop where
  | refl : Served Ok p st₀ st₀
  | serve {st : Store S} (i : ι) (x : ℕ → Input S) : Served Ok p st₀ st →
      (p i).meets (Ok i) x (Solo.ofStore st) → Served Ok p st₀ ((p i).serve x st).2

/-- Serve a list of requests, each with the environment's inputs to it. -/
def serveAll {ι : Type} (p : ι → Prog S α) : List (ι × (ℕ → Input S)) → Store S → Store S
  | [], st => st
  | (i, x) :: l, st => serveAll p l ((p i).serve x st).2

/-- What `P` says of each request of a list, with the store it finds and the one it leaves. -/
def Each {ι : Type} (p : ι → Prog S α) (P : ι → (ℕ → Input S) → Store S → Store S → Prop) :
    List (ι × (ℕ → Input S)) → Store S → Prop
  | [], _ => True
  | (i, x) :: l, st => P i x st ((p i).serve x st).2 ∧ Each p P l ((p i).serve x st).2

/-- Does every statement of the run pass the test? -/
def Prog.passes (ok : Solo S → Stmt S → Input S → Bool) : Prog S α → (ℕ → Input S) → Solo S → Bool
  | .ret _, _, _ => true
  | .raise _, _, _ => true
  | .step s next, x, v =>
      ok v s (x 0) && (next (s.eval (x 0) v).1).passes ok (fun n => x (n + 1)) (s.eval (x 0) v).2

theorem Prog.meets_of_passes {Ok : StepCond S} {ok : Solo S → Stmt S → Input S → Bool}
    (hok : ∀ v s x, ok v s x = true → Ok v s x) {p : Prog S α} {x : ℕ → Input S} {v : Solo S}
    (h : p.passes ok x v = true) : p.meets Ok x v := by
  induction p generalizing x v with
  | ret a => trivial
  | raise e => trivial
  | step s next ih =>
      simp only [passes, Bool.and_eq_true] at h
      exact ⟨hok _ _ _ h.1, ih _ h.2⟩

/-- Does every statement of every request pass the test? -/
def passesAll {ι : Type} (ok : ι → Solo S → Stmt S → Input S → Bool) (p : ι → Prog S α) :
    List (ι × (ℕ → Input S)) → Store S → Bool
  | [], _ => true
  | (i, x) :: l, st =>
      (p i).passes (ok i) x (Solo.ofStore st) && passesAll ok p l ((p i).serve x st).2

theorem served_of_passesAll {ι : Type} {Ok : ι → StepCond S}
    (ok : ι → Solo S → Stmt S → Input S → Bool)
    (hok : ∀ i v s x, ok i v s x = true → Ok i v s x) {p : ι → Prog S α} {st₀ st : Store S}
    (l : List (ι × (ℕ → Input S))) (h₀ : Served Ok p st₀ st) (h : passesAll ok p l st = true) :
    Served Ok p st₀ (serveAll p l st) := by
  induction l generalizing st with
  | nil => exact h₀
  | cons a l ih =>
      simp only [passesAll, Bool.and_eq_true] at h
      exact ih (.serve a.1 a.2 h₀ (Prog.meets_of_passes (hok a.1) h.1)) h.2

/-- What every request keeps holds of every store a run reaches. -/
theorem Served.invariant {ι : Type} {Ok : ι → StepCond S} {p : ι → Prog S α} {st₀ st : Store S}
    (Inv : Store S → Prop) (h₀ : Inv st₀) (hwf : st₀.db.WF)
    (hp : ∀ i st, Inv st → (p i).always (Ok i) (fun _ v => Inv v.store) (fun _ v => Inv v.store)
      (Solo.ofStore st))
    (h : Served Ok p st₀ st) : Inv st ∧ st.db.WF := by
  induction h with
  | refl => exact ⟨h₀, hwf⟩
  | serve i x _ hx ih =>
      obtain ⟨v, hv, hvwf, hends⟩ := Prog.always_serve (hp i _ ih.1) ih.2 hx
      rw [hv]
      refine ⟨?_, hvwf.saved⟩
      cases hr : ((p i).serve x _).1 with
      | ok a => rw [hr] at hends; exact hends
      | error e => rw [hr] at hends; exact hends

end Txn
