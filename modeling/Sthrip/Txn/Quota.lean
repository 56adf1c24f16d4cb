import Mathlib.Algebra.Order.BigOperators.Group.List
import Sthrip.Txn.Lasts

set_option autoImplicit false

/-! # Drawing on a limit

Some entries of the journal draw an amount on a limit, until the row that they name is closed. A row
that is closed stays closed. Then what is drawn stays within the limit when every session that draws
finds at its commit that what the others have left is enough (`Config.within`).
-/

namespace Txn

variable {S : Schema} {α M : Type}

/-- What an entry draws, by the row that it names, and which rows are closed. -/
structure Quota (S : Schema) (M : Type) where
  draw : S.Entry → Option (S.Key × M)
  closed : (k : S.Key) → S.Row k → Bool

namespace Quota

variable (Q : Quota S M)

def draws (log : List S.Entry) : List (S.Key × M) := log.filterMap Q.draw

variable {rows rows' : (k : S.Key) → Option (S.Row k)} {log log' : List S.Entry}

theorem draws_append : Q.draws (log ++ log') = Q.draws log ++ Q.draws log' :=
  List.filterMap_append

variable [AddCommMonoid M]

/-- What a draw still takes. -/
def taken (rows : (k : S.Key) → Option (S.Row k)) (d : S.Key × M) : M :=
  if (rows d.1).any (Q.closed d.1) then 0 else d.2

/-- What all the draws of a journal still take. -/
def outstanding (rows : (k : S.Key) → Option (S.Row k)) (log : List S.Entry) : M :=
  ((Q.draws log).map (Q.taken rows)).sum

/-- What all the draws of a journal take at first. -/
def drawn (log : List S.Entry) : M := ((Q.draws log).map Prod.snd).sum

theorem outstanding_append :
    Q.outstanding rows (log ++ log') = Q.outstanding rows log + Q.outstanding rows log' := by
  rw [outstanding, draws_append, List.map_append, List.sum_append]
  rfl

variable [PartialOrder M]

/-- The statement closes rows but opens none, and draws no negative amount. -/
def Orderly : Stmt S → Prop
  | .update k guard set => ∀ r, guard r = true → Q.closed k r = true → Q.closed k (set r) = true
  | .assign k set => ∀ r, Q.closed k r = true → Q.closed k (set r) = true
  | .insert e => ∀ d, Q.draw e = some d → 0 ≤ d.2
  | _ => True

/-- A session that draws finds at its commit that enough is left. -/
def Fits (limit : M) (st : Store S) (σ : Session S) : Stmt S → Prop
  | .commit => Q.draws σ.inserted ≠ [] →
      Q.outstanding st.db.rows st.db.log + Q.drawn σ.inserted ≤ limit
  | _ => True

/-- The draws of the journal are not negative. -/
def Positive (log : List S.Entry) : Prop := ∀ d ∈ Q.draws log, 0 ≤ d.2

variable {Q}

theorem Positive.append (h : Q.Positive log) (h' : Q.Positive log') :
    Q.Positive (log ++ log') := by
  intro d hd
  rw [draws_append, List.mem_append] at hd
  rcases hd with hd | hd
  · exact h d hd
  · exact h' d hd

theorem Orderly.maintains {s : Stmt S} (h : Q.Orderly s) (st : Store S) (σ : Session S) :
    s.Maintains (fun k r => Q.closed k r = true) st σ := by
  cases s with
  | update k guard set => exact fun r _ hg => h r hg
  | assign k set => exact fun r _ => h r
  | _ => trivial

/-- The step lemma for the journal of a session. -/
theorem exec_positive (s : Stmt S) (x : Input S) (st : Store S) {σ : Session S}
    (h : Q.Positive σ.inserted) (hs : Q.Orderly s) :
    Q.Positive (s.exec x st σ).2.2.inserted := by
  have hempty : Q.Positive [] := by
    intro d hd
    cases hd
  cases s with
  | select k =>
      rw [Stmt.exec, Session.load_inserted]
      exact h
  | selectForUpdate k =>
      rw [Stmt.exec, Session.load_inserted, Session.lock_inserted]
      exact h
  | update k guard set =>
      simp only [Stmt.exec]
      split
      · split
        · exact h
        · exact h
      · exact h
  | assign k set =>
      simp only [Stmt.exec]
      split
      · exact h
      · exact h
  | create k row =>
      simp only [Stmt.exec]
      split
      · exact h
      · exact h
  | insert e =>
      refine h.append fun d hd => ?_
      obtain ⟨e', he', hdraw⟩ := List.mem_filterMap.mp hd
      obtain rfl := List.mem_singleton.mp he'
      exact hs d hdraw
  | commit =>
      simp only [Stmt.exec]
      split
      · exact hempty
      · exact hempty
  | rollback => exact hempty
  | _ => exact h

variable [IsOrderedAddMonoid M]

theorem outstanding_le_drawn (h : Q.Positive log) : Q.outstanding rows log ≤ Q.drawn log := by
  apply List.sum_le_sum
  intro d hd
  unfold taken
  split
  · exact h d hd
  · exact le_rfl

/-- Closing rows leaves less. -/
theorem outstanding_mono (h : Q.Positive log)
    (hclosed : ∀ k, (rows k).any (Q.closed k) = true → (rows' k).any (Q.closed k) = true) :
    Q.outstanding rows' log ≤ Q.outstanding rows log := by
  apply List.sum_le_sum
  intro d hd
  by_cases hc : (rows d.1).any (Q.closed d.1) = true
  · rw [taken, taken, if_pos hc, if_pos (hclosed d.1 hc)]
  · have hfull : Q.taken rows d = d.2 := if_neg hc
    rw [hfull, taken]
    split
    · exact h d hd
    · exact le_rfl

end Quota

namespace Config

variable [AddCommMonoid M] [PartialOrder M]

/-- What is drawn is within the limit. -/
structure Within (Q : Quota S M) (limit : M) (c : Config S α) : Prop where
  maintained : c.Maintained fun k r => Q.closed k r = true
  sess : ∀ i, Q.Positive (c.sess i).inserted
  log : Q.Positive c.store.db.log
  outstanding : Q.outstanding c.store.db.rows c.store.db.log ≤ limit

variable {Q : Quota S M} {limit : M} {c c₀ c' : Config S α} {i : ℕ} {x : Input S} {s : Stmt S}
  {next : s.Res → Prog S α}

theorem start_within {st : Store S} {p : ℕ → Prog S α} (hwf : st.db.WF)
    (hlog : Q.Positive st.db.log) (h : Q.outstanding st.db.rows st.db.log ≤ limit) :
    (start st p).Within Q limit where
  maintained := start_maintained hwf p
  sess _ d hd := by cases hd
  log := hlog
  outstanding := h

theorem Within.crash (h : c.Within Q limit) (i : ℕ) : (c.crash i).Within Q limit where
  maintained := h.maintained.crash i
  sess := forall_threads_crash (fun _ σ => Q.Positive σ.inserted) h.sess i
    fun d hd => by cases hd
  log := h.log
  outstanding := h.outstanding

variable [IsOrderedAddMonoid M]

/-- What a commit leaves of what was outstanding before. -/
theorem Maintained.outstanding_apply (h : c.Maintained fun k r => Q.closed k r = true)
    (hlog : Q.Positive c.store.db.log) (i : ℕ) :
    Q.outstanding ((c.sess i).view c.store.db) c.store.db.log
      ≤ Q.outstanding c.store.db.rows c.store.db.log := by
  apply Quota.outstanding_mono hlog
  intro k hk
  rw [Option.any_eq_true] at hk
  obtain ⟨r, hr, hclosed⟩ := hk
  have hbase : (c.sess i).base c.store.db k = some r := by
    rw [Session.base_of_agrees (h.consistent.agrees i), hr]
  obtain ⟨r', hr', hclosed'⟩ := (h.sess i).view hbase hclosed
  rw [hr', Option.any_some]
  exact hclosed'

/-- The step lemma for the store. -/
theorem Within.store_exec (h : c.Within Q limit) (hp : c.prog i = .step s next)
    (hs : Q.Fits limit c.store (c.sess i) s) (hc : c.exec i x = some c') :
    Q.Positive c'.store.db.log ∧ Q.outstanding c'.store.db.rows c'.store.db.log ≤ limit := by
  rcases store_exec_cases hp hc with hdb | ⟨rfl, hdb⟩
  · rw [hdb]
    exact ⟨h.log, h.outstanding⟩
  · rw [hdb]
    have hold := h.maintained.outstanding_apply h.log i
    have hnew : Q.outstanding ((c.sess i).view c.store.db) (c.sess i).inserted
        ≤ Q.drawn (c.sess i).inserted := Quota.outstanding_le_drawn (h.sess i)
    have htotal : Q.outstanding (c.store.db.apply (c.sess i)).rows (c.store.db.apply (c.sess i)).log
        = Q.outstanding ((c.sess i).view c.store.db) c.store.db.log
          + Q.outstanding ((c.sess i).view c.store.db) (c.sess i).inserted :=
      Q.outstanding_append
    refine ⟨h.log.append (h.sess i), ?_⟩
    rw [htotal]
    by_cases hdraws : Q.draws (c.sess i).inserted = []
    · have hzero : Q.outstanding ((c.sess i).view c.store.db) (c.sess i).inserted = 0 := by
        rw [Quota.outstanding, hdraws]
        rfl
      rw [hzero, add_zero]
      exact hold.trans h.outstanding
    · exact (add_le_add hold hnew).trans (hs hdraws)

theorem Within.exec (h : c.Within Q limit) (hp : c.prog i = .step s next) (ho : Q.Orderly s)
    (hs : Q.Fits limit c.store (c.sess i) s) (hc : c.exec i x = some c') : c'.Within Q limit := by
  obtain ⟨hlog, hout⟩ := h.store_exec hp hs hc
  exact ⟨h.maintained.exec hp (ho.maintains _ _) hc,
    forall_threads_exec (fun _ σ => Q.Positive σ.inserted) h.sess hp hc
      (Quota.exec_positive s x c.store (h.sess i) ho), hlog, hout⟩

variable {Ok : Store S → Session S → Stmt S → Input S → Prop}

/-- The run lemma. -/
theorem Reaches.within (h : Reaches Ok c₀ c) (hc : c₀.Within Q limit)
    (hp : ∀ i, (c₀.prog i).only Q.Orderly)
    (hok : ∀ st σ s x, Ok st σ s x → Q.Fits limit st σ s) : c.Within Q limit := by
  obtain ⟨hreach, -⟩ := h.only hp
  clear h
  induction hreach with
  | refl => exact hc
  | exec _ hprog ho hx ih => exact ih.exec hprog ho.2 (hok _ _ _ _ ho.1) hx
  | crash i _ ih => exact ih.crash i

end Config

end Txn
