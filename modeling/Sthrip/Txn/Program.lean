import Mathlib.Logic.Function.Basic
import Mathlib.Data.Int.Notation
import Mathlib.Data.List.Perm.Basic

set_option autoImplicit false

/-! # Programs over a transactional store

A request handler of a database application is a sequence of statements: queries, row locks,
updates, inserts, commits, and calls to stores outside the database (a cache, a wallet). The
control flow between two statements is ordinary code that looks at their answers. `Prog` is
that shape: a tree whose nodes are statements (`Stmt`) and whose branches are their answers.

Nothing here says how statements of different sessions interleave; that is
`Txn/Interleave.lean`. One session running alone is `Txn/Solo.lean`.
-/

namespace Txn

/-! ## The tables and the outside world -/

/-- What a program is written over: the tables, keyed by primary key, the append-only tables
(`Entry`), the stores outside the database with their operations, and the exceptions. -/
structure Schema where
  Key : Type
  [keyEq : DecidableEq Key]
  Row : Key → Type
  Entry : Type
  /-- The state of the stores outside the database. They have no transactions. -/
  Ext : Type
  Op : Type
  Res : Op → Type
  /-- One atomic operation; the time and the number are the environment's choice. -/
  perform : (op : Op) → ℤ → ℕ → Ext → Res op × Ext
  Err : Type
  /-- The exception of a failed commit. -/
  commitErr : Err

instance (S : Schema) : DecidableEq S.Key := S.keyEq

/-- What the environment decides when a statement runs: the clock, the order in which a query
returns its rows, and any other answer that is not determined by the stores. -/
structure Input (S : Schema) where
  time : ℤ := 0
  order : List S.Key := []
  choice : ℕ := 0

/-- The database: the rows, the primary keys of the rows in storage order, and the rows of the
append-only tables. -/
@[ext] structure DB (S : Schema) where
  rows : (k : S.Key) → Option (S.Row k)
  keys : List S.Key
  log : List S.Entry

/-- Everything the sessions share: the database and the stores outside it. -/
structure Store (S : Schema) where
  db : DB S
  ext : S.Ext

/-! ## Statements -/

/-- The statements of a session. -/
inductive Stmt (S : Schema) where
  /-- Read the clock. -/
  | now
  /-- Take an answer from code outside the program (an exception it may raise, an outcome). -/
  | ask
  /-- `SELECT` by primary key. -/
  | select (k : S.Key)
  /-- `SELECT … FOR UPDATE` by primary key. -/
  | selectForUpdate (k : S.Key)
  /-- `SELECT` of every row that matches. -/
  | scan (p : (k : S.Key) → S.Row k → Bool)
  /-- `UPDATE … SET set WHERE id = k AND guard`; the answer is whether a row matched. -/
  | update (k : S.Key) (guard : S.Row k → Bool) (set : S.Row k → S.Row k)
  /-- Attributes set on a loaded object, written back by primary key. -/
  | assign (k : S.Key) (set : S.Row k → S.Row k)
  /-- `INSERT` with a primary key; the answer is `false` when the key is taken. -/
  | create (k : S.Key) (row : S.Row k)
  /-- `INSERT` into an append-only table. -/
  | insert (e : S.Entry)
  /-- Forget the attribute values of the loaded objects. -/
  | expireAll
  /-- An operation of a store outside the database. -/
  | call (op : S.Op)
  /-- Commit; the answer is `false` when the commit fails. -/
  | commit
  | rollback

/-- The answer of a statement. -/
def Stmt.Res {S : Schema} : Stmt S → Type
  | .now => ℤ
  | .ask => ℕ
  | .select k => Option (S.Row k)
  | .selectForUpdate k => Option (S.Row k)
  | .scan _ => List S.Key
  | .update _ _ _ => Bool
  | .assign _ _ => Unit
  | .create _ _ => Bool
  | .insert _ => Unit
  | .expireAll => Unit
  | .call op => S.Res op
  | .commit => Bool
  | .rollback => Unit

/-! ## Programs -/

/-- A program: it returns, raises, or runs a statement and continues with its answer. -/
inductive Prog (S : Schema) (α : Type) where
  | ret (a : α)
  | raise (e : S.Err)
  | step (s : Stmt S) (next : s.Res → Prog S α)

namespace Prog

variable {S : Schema} {α β : Type}

/-- Sequencing. -/
def bind : Prog S α → (α → Prog S β) → Prog S β
  | ret a, f => f a
  | raise e, _ => raise e
  | step s next, f => step s fun r => (next r).bind f

instance : Monad (Prog S) where
  pure := ret
  bind := bind

/-- `try p except e: h e`. What `p` did to the session before it raised stays done. -/
def tryCatch : Prog S α → (S.Err → Prog S α) → Prog S α
  | ret a, _ => ret a
  | raise e, h => h e
  | step s next, h => step s fun r => (next r).tryCatch h

/-- A single statement as a program. -/
def stmt (s : Stmt S) : Prog S s.Res := step s ret

def now : Prog S ℤ := stmt .now
def ask : Prog S ℕ := stmt .ask
def select (k : S.Key) : Prog S (Option (S.Row k)) := stmt (.select k)
def selectForUpdate (k : S.Key) : Prog S (Option (S.Row k)) := stmt (.selectForUpdate k)
def scan (p : (k : S.Key) → S.Row k → Bool) : Prog S (List S.Key) := stmt (.scan p)
def update (k : S.Key) (guard : S.Row k → Bool) (set : S.Row k → S.Row k) : Prog S Bool :=
  stmt (.update k guard set)
def assign (k : S.Key) (set : S.Row k → S.Row k) : Prog S Unit := stmt (.assign k set)
def create (k : S.Key) (row : S.Row k) : Prog S Bool := stmt (.create k row)
def insert (e : S.Entry) : Prog S Unit := stmt (.insert e)
def expireAll : Prog S Unit := stmt .expireAll
def call (op : S.Op) : Prog S (S.Res op) := stmt (.call op)
def commit : Prog S Bool := stmt .commit
def rollback : Prog S Unit := stmt .rollback

/-- `if c: raise e`. -/
def raiseIf (c : Prop) [Decidable c] (e : S.Err) : Prog S Unit := if c then raise e else ret ()

/-- `if c: p`, where nobody looks at what `p` returns. -/
def onlyIf (c : Prop) [Decidable c] (p : Prog S α) : Prog S Unit :=
  if c then p.bind fun _ => ret () else ret ()

/-- `if a is None: raise e`. -/
def orRaise (e : S.Err) : Option α → Prog S α
  | some a => ret a
  | none => raise e

/-- `for a in l: f a`. -/
def forEach {γ : Type} : List γ → (γ → Prog S Unit) → Prog S Unit
  | [], _ => ret ()
  | a :: l, f => (f a).bind fun _ => forEach l f

/-- `for a in l: if f a: n += 1`; the answer is `n`. -/
def tally {γ : Type} : List γ → (γ → Prog S Bool) → Prog S ℕ
  | [], _ => ret 0
  | a :: l, f => (f a).bind fun b => (tally l f).bind fun n => ret (if b then n + 1 else n)

/-- The objects of the rows with the given keys. -/
def selectAll : List S.Key → Prog S (List (Σ k, S.Row k))
  | [] => ret []
  | k :: ks =>
      (select k).bind fun row => (selectAll ks).bind fun rows =>
        ret (row.elim rows fun r => ⟨k, r⟩ :: rows)

/-- `SELECT` of every row that matches, as objects. -/
def query (p : (k : S.Key) → S.Row k → Bool) : Prog S (List (Σ k, S.Row k)) :=
  (scan p).bind selectAll

/-- Run `p` in a session of its own: commit when it returns, roll back when it raises. -/
def withSession (p : Prog S α) : Prog S α :=
  tryCatch
    (p.bind fun a => commit.bind fun ok => if ok then ret a else raise S.commitErr)
    (fun e => rollback.bind fun _ => raise e)

end Prog

end Txn
