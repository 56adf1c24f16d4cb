import Sthrip.Txn.Solo

set_option autoImplicit false

/-! # Interleaved sessions under READ COMMITTED

Any number of threads run programs against one store. Statements are atomic; between two
statements of one thread the others may do anything. The isolation is that of READ COMMITTED
with row locks, seen through an object mapper:

* a query sees the rows committed when it runs, and the session's own writes;
* `SELECT … FOR UPDATE` and every write lock the row until the session ends, and wait while
  another session holds it; a statement that finds no row locks nothing;
* a session keeps one object per row it has loaded (the *identity map*): a later query of the
  row, also a locking one, returns the object with the attribute values loaded first;
* a guarded `UPDATE` also changes the loaded object, by evaluating the guard on the object;
* a key without a row can be locked too: this is how the unique index makes a second `INSERT`
  of the key wait for the first.
-/

namespace Txn

variable {S : Schema} {α : Type}

/-! ## Sessions -/

/-- A row a session has locked: as it was committed, and as the session sees it. -/
structure Held (R : Type) where
  base : Option R
  own : Option R

/-- The private state of a session. -/
structure Session (S : Schema) where
  held : (k : S.Key) → Option (Held (S.Row k))
  /-- The identity map: the attribute values of the objects the session has loaded. -/
  loaded : (k : S.Key) → Option (S.Row k)
  created : List S.Key
  inserted : List S.Entry

namespace Session

def start : Session S := ⟨fun _ => none, fun _ => none, [], []⟩

/-- The row as the session sees it in the database. -/
def view (σ : Session S) (db : DB S) (k : S.Key) : Option (S.Row k) :=
  match σ.held k with
  | some h => h.own
  | none => db.rows k

/-- The row as a query returns it: the loaded object, if there is one. -/
def object (σ : Session S) (db : DB S) (k : S.Key) : Option (S.Row k) :=
  (σ.view db k).map fun r => (σ.loaded k).getD r

/-- The row's committed version, as of the lock if the session holds one. -/
def base (σ : Session S) (db : DB S) (k : S.Key) : Option (S.Row k) :=
  match σ.held k with
  | some h => h.base
  | none => db.rows k

/-- Lock the row, if the session sees one. -/
def lock (σ : Session S) (db : DB S) (k : S.Key) : Session S :=
  match σ.view db k with
  | some r => { σ with held := Function.update σ.held k (some ⟨σ.base db k, some r⟩) }
  | none => σ

def write (σ : Session S) (db : DB S) (k : S.Key) (row : S.Row k) : Session S :=
  { σ with held := Function.update σ.held k (some ⟨σ.base db k, some row⟩) }

/-- Put the object a query returned into the identity map. -/
def load (σ : Session S) (db : DB S) (k : S.Key) : Session S :=
  match σ.object db k with
  | some r => { σ with loaded := Function.update σ.loaded k (some r) }
  | none => σ

def loadAll (σ : Session S) (db : DB S) (ks : List S.Key) : Session S :=
  { σ with loaded := fun k => if k ∈ ks then σ.object db k else σ.loaded k }

/-- Change the loaded object of `k`, if there is one. -/
def touch (σ : Session S) (k : S.Key) (f : S.Row k → S.Row k) : Session S :=
  { σ with loaded := Function.update σ.loaded k ((σ.loaded k).map f) }

/-- The keys of the rows that match, as the session sees them. -/
def matching (σ : Session S) (db : DB S) (p : (k : S.Key) → S.Row k → Bool) : List S.Key :=
  (db.keys ++ σ.created).filter fun k => (σ.view db k).any (p k)

end Session

/-- The database after a session commits. -/
def DB.apply (db : DB S) (σ : Session S) : DB S where
  rows := σ.view db
  keys := db.keys ++ σ.created
  log := db.log ++ σ.inserted

/-- One statement of a session. -/
def Stmt.exec : (s : Stmt S) → Input S → Store S → Session S → s.Res × Store S × Session S
  | .now, x, st, σ => (x.time, st, σ)
  | .ask, x, st, σ => (x.choice, st, σ)
  | .select k, _, st, σ => (σ.object st.db k, st, σ.load st.db k)
  | .selectForUpdate k, _, st, σ =>
      (σ.object st.db k, st, (σ.lock st.db k).load st.db k)
  | .scan p, x, st, σ =>
      (x.arrange (σ.matching st.db p), st,
        σ.loadAll st.db (x.arrange (σ.matching st.db p)))
  | .update k guard set, _, st, σ =>
      match σ.view st.db k with
      | some r =>
          if guard r then
            (true, st, (σ.write st.db k (set r)).touch k fun o => if guard o then set o else o)
          else (false, st, σ.touch k fun o => if guard o then set o else o)
      | none => (false, st, σ.touch k fun o => if guard o then set o else o)
  | .assign k set, _, st, σ =>
      match σ.view st.db k with
      | some r => ((), st, (σ.write st.db k (set r)).touch k set)
      | none => ((), st, σ)
  | .create k row, _, st, σ =>
      match σ.view st.db k with
      | some _ => (false, st, σ)
      | none =>
          (true, st, { σ.write st.db k row with
            loaded := Function.update σ.loaded k (some row)
            created := σ.created ++ [k] })
  | .insert e, _, st, σ => ((), st, { σ with inserted := σ.inserted ++ [e] })
  | .expireAll, _, st, σ => ((), st, { σ with loaded := fun _ => none })
  | .call op, x, st, σ =>
      ((S.perform op x.time x.choice st.ext).1,
        { st with ext := (S.perform op x.time x.choice st.ext).2 }, σ)
  | .commit, x, st, σ =>
      if x.choice = 0 then (true, { st with db := st.db.apply σ }, Session.start)
      else (false, st, Session.start)
  | .rollback, _, st, _ => ((), st, Session.start)

/-- The key whose lock a statement has to get. -/
def Stmt.needs (db : DB S) (σ : Session S) : Stmt S → Option S.Key
  | .selectForUpdate k => if (σ.view db k).isSome then some k else none
  | .update k guard _ => if (σ.view db k).any guard then some k else none
  | .assign k _ => if (σ.view db k).isSome then some k else none
  | .create k _ => if (σ.view db k).isNone then some k else none
  | _ => none

/-! ## Threads -/

/-- A store with the threads that use it. `locks` is the lock table of the database. -/
structure Config (S : Schema) (α : Type) where
  store : Store S
  locks : S.Key → Option ℕ
  prog : ℕ → Prog S α
  sess : ℕ → Session S

namespace Config

/-- Thread `i` is about to run `p i` on the store `st`. -/
def start (st : Store S) (p : ℕ → Prog S α) : Config S α :=
  ⟨st, fun _ => none, p, fun _ => Session.start⟩

/-- May thread `i` have the lock of `k`? -/
def free (c : Config S α) (i : ℕ) (k : S.Key) : Bool :=
  c.locks k == none || c.locks k == some i

/-- The lock table after thread `i` has moved to the session `σ`. -/
def relock (locks : S.Key → Option ℕ) (i : ℕ) (σ : Session S) : S.Key → Option ℕ :=
  fun k => if (σ.held k).isSome then some i else if locks k = some i then none else locks k

/-- Thread `i` runs its next statement; `none` when it is finished or has to wait. -/
def exec (c : Config S α) (i : ℕ) (x : Input S) : Option (Config S α) :=
  match c.prog i with
  | .step s next =>
      if (s.needs c.store.db (c.sess i)).all (c.free i) then
        some
          { store := (s.exec x c.store (c.sess i)).2.1
            locks := relock c.locks i (s.exec x c.store (c.sess i)).2.2
            prog := Function.update c.prog i (next (s.exec x c.store (c.sess i)).1)
            sess := Function.update c.sess i (s.exec x c.store (c.sess i)).2.2 }
      else none
  | _ => none

/-- Thread `i` dies; the database rolls its session back. -/
def crash (c : Config S α) (i : ℕ) : Config S α :=
  { store := c.store
    locks := relock c.locks i Session.start
    prog := Function.update c.prog i (.raise S.commitErr)
    sess := Function.update c.sess i Session.start }

/-- The configurations that runs lead to, when every statement that runs satisfies `Ok` of the
store, the session, the statement and the environment's input. -/
inductive Reaches (Ok : Store S → Session S → Stmt S → Input S → Prop) (c₀ : Config S α) :
    Config S α → Prop where
  | refl : Reaches Ok c₀ c₀
  | exec {c c' : Config S α} {i : ℕ} {x : Input S} {s : Stmt S} {next : s.Res → Prog S α} :
      Reaches Ok c₀ c → c.prog i = .step s next → Ok c.store (c.sess i) s x →
      c.exec i x = some c' → Reaches Ok c₀ c'
  | crash {c : Config S α} (i : ℕ) : Reaches Ok c₀ c → Reaches Ok c₀ (c.crash i)

/-- Run the statements of a schedule: at each entry a thread and the environment's input. -/
def trace : List (ℕ × Input S) → Config S α → Option (Config S α)
  | [], c => some c
  | (i, x) :: l, c => (c.exec i x).bind (trace l)

/-- Does every statement of the schedule pass the test? -/
def passes (ok : Store S → Session S → Stmt S → Input S → Bool) :
    List (ℕ × Input S) → Config S α → Bool
  | [], _ => true
  | (i, x) :: l, c =>
      match c.prog i with
      | .step s _ => ok c.store (c.sess i) s x && (c.exec i x).all (passes ok l)
      | _ => false

/-- What a schedule leads to is reachable. -/
theorem reaches_of_trace {Ok : Store S → Session S → Stmt S → Input S → Prop}
    (ok : Store S → Session S → Stmt S → Input S → Bool)
    (hok : ∀ st σ s x, ok st σ s x = true → Ok st σ s x) {c₀ : Config S α}
    (l : List (ℕ × Input S)) {c c' : Config S α} (h : Reaches Ok c₀ c)
    (hp : passes ok l c = true) (hl : trace l c = some c') : Reaches Ok c₀ c' := by
  induction l generalizing c with
  | nil =>
      simp only [trace, Option.some.injEq] at hl
      exact hl ▸ h
  | cons a l ih =>
      obtain ⟨i, x⟩ := a
      simp only [trace, Option.bind_eq_some_iff] at hl
      obtain ⟨c₁, hc₁, hl⟩ := hl
      cases hprog : c.prog i with
      | ret a => simp [exec, hprog] at hc₁
      | raise e => simp [exec, hprog] at hc₁
      | step s next =>
          simp only [passes, hprog, Bool.and_eq_true, hc₁, Option.all_some] at hp
          exact ih (.exec h hprog (hok _ _ _ _ hp.1) hc₁) hp.2 hl

end Config

end Txn
