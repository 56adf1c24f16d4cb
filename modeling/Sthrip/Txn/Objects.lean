import Sthrip.Txn.Footprint

set_option autoImplicit false

/-! # Objects whose attributes are not what is stored

An object mapper keeps one object for each row that a session has loaded, and writes its changed attributes
back before the next statement. A `Mapper` says how attributes and columns are related: a column may keep
less than the attribute says, and some reads change the attributes of the objects they return.

`Prog.evalLive` runs a program in a lone session with its objects. When the rows are `Settled`, that is,
when writing back and reading change nothing, it does what `Prog.eval` does.
-/

namespace Txn

variable {S : Schema} {α : Type}

/-- How an object mapper moves attributes between objects and rows. -/
structure Mapper (S : Schema) where
  /-- The row that is inserted for a new object. -/
  insert : (k : S.Key) → S.Row k → S.Row k
  /-- The row after the changed attributes of the object `o` are written back. -/
  flush : (k : S.Key) → (o row : S.Row k) → S.Row k
  /-- What some reads do to the object. -/
  read : (k : S.Key) → S.Row k → S.Row k

/-- Neither writing back nor reading changes anything. -/
structure Mapper.Settled (M : Mapper S) (k : S.Key) (r : S.Row k) : Prop where
  insert : M.insert k r = r
  flush : M.flush k r r = r
  read : M.read k r = r

/-! ## Sessions with objects -/

/-- A lone session: the committed database, the database as the session sees it, and its objects. -/
structure Live (S : Schema) where
  saved : DB S
  db : DB S
  objects : (k : S.Key) → Option (S.Row k)
  ext : S.Ext

namespace Live

def ofStore (st : Store S) : Live S := ⟨st.db, st.db, fun _ => none, st.ext⟩

def store (v : Live S) : Store S := ⟨v.saved, v.ext⟩

/-- Write the attributes of the objects back. -/
def flush (M : Mapper S) (v : Live S) : Live S :=
  { v with
    db := { v.db with
      rows := fun k => (v.db.rows k).map fun r => (v.objects k).elim r fun o => M.flush k o r } }

/-- The object of a row: the loaded one, if there is one. -/
def object (v : Live S) (k : S.Key) : Option (S.Row k) :=
  (v.db.rows k).map fun r => (v.objects k).getD r

def load (v : Live S) (k : S.Key) (o : S.Row k) : Live S :=
  { v with objects := Function.update v.objects k (some o) }

/-- Query a row and do `f` to its object. -/
def fetch (v : Live S) (k : S.Key) (f : S.Row k → S.Row k) : Option (S.Row k) × Live S :=
  match v.object k with
  | some o => (some (f o), v.load k (f o))
  | none => (none, v)

def touch (v : Live S) (k : S.Key) (f : S.Row k → S.Row k) : Live S :=
  { v with objects := Function.update v.objects k ((v.objects k).map f) }

/-- A rollback expires the objects. -/
def rollback (v : Live S) : Live S := { v with db := v.saved, objects := fun _ => none }

@[simp] theorem load_objects_self (v : Live S) (k : S.Key) (o : S.Row k) :
    (v.load k o).objects k = some o := Function.update_self ..

theorem load_objects_ne (v : Live S) {k k' : S.Key} (o : S.Row k) (h : k' ≠ k) :
    (v.load k o).objects k' = v.objects k' := Function.update_of_ne h ..

@[simp] theorem touch_objects_self (v : Live S) (k : S.Key) (f : S.Row k → S.Row k) :
    (v.touch k f).objects k = (v.objects k).map f := Function.update_self ..

theorem touch_objects_ne (v : Live S) {k k' : S.Key} (f : S.Row k → S.Row k) (h : k' ≠ k) :
    (v.touch k f).objects k' = v.objects k' := Function.update_of_ne h ..

end Live

/-- One statement; `dual` says whether this read is one that changes the object. -/
def Stmt.evalLive (M : Mapper S) (dual : Bool) : (s : Stmt S) → Input S → Live S → s.Res × Live S
  | .now, x, v => (x.time, v)
  | .ask, x, v => (x.choice, v)
  | .select k, _, v => (v.flush M).fetch k (if dual then M.read k else id)
  | .selectForUpdate k, _, v => (v.flush M).fetch k id
  | .scan p, x, v =>
      let v := v.flush M
      let ks := x.arrange (v.db.matching p)
      (ks, { v with objects := fun k => if ks.contains k then v.object k else v.objects k })
  | .update k guard set, _, v =>
      let v := v.flush M
      match v.db.rows k with
      | some r =>
          if guard r then
            (true, { v with db := v.db.put k (set r) }.touch k fun o => if guard o then set o else o)
          else (false, v.touch k fun o => if guard o then set o else o)
      | none => (false, v)
  | .assign k set, _, v =>
      match v.db.rows k with
      | some r => ((), { v with db := v.db.put k (set r) }.touch k set)
      | none => ((), v)
  | .create k row, _, v =>
      let v := v.flush M
      match v.db.rows k with
      | some _ => (false, v)
      -- the object keeps the attributes it was made with
      | none => (true, { v with db := v.db.put k (M.insert k row) }.load k row)
  | .insert e, _, v => ((), { v with db := v.db.append e })
  | .expireAll, _, v => ((), { v with objects := fun _ => none })
  | .call op, x, v =>
      ((S.perform op x.time x.choice v.ext).1,
        { v with ext := (S.perform op x.time x.choice v.ext).2 })
  | .commit, x, v =>
      let v := v.flush M
      -- a commit does not expire the objects
      if x.choice = 0 then (true, { v with saved := v.db }) else (false, v.rollback)
  | .rollback, _, v => ((), v.rollback)

/-- Run a program; `dual n` says whether the read at its `n`-th statement changes the object. -/
def Prog.evalLive (M : Mapper S) : Prog S α → (ℕ → Bool) → (ℕ → Input S) → Live S →
    Except S.Err α × Live S
  | .ret a, _, _, v => (.ok a, v)
  | .raise e, _, _, v => (.error e, v)
  | .step s next, dual, x, v =>
      (next (s.evalLive M (dual 0) (x 0) v).1).evalLive M (fun n => dual (n + 1)) (fun n => x (n + 1))
        (s.evalLive M (dual 0) (x 0) v).2

/-- Every statement of the run satisfies `ok`. -/
def Prog.meetsLive (M : Mapper S) (ok : Stmt S → Prop) : Prog S α → (ℕ → Bool) → (ℕ → Input S) →
    Live S → Prop
  | .ret _, _, _, _ => True
  | .raise _, _, _, _ => True
  | .step s next, dual, x, v =>
      ok s ∧ (next (s.evalLive M (dual 0) (x 0) v).1).meetsLive M ok (fun n => dual (n + 1))
        (fun n => x (n + 1)) (s.evalLive M (dual 0) (x 0) v).2

theorem Prog.meetsLive_of_only {M : Mapper S} {ok : Stmt S → Prop} {p : Prog S α} (h : p.only ok)
    {dual : ℕ → Bool} {x : ℕ → Input S} {v : Live S} : p.meetsLive M ok dual x v := by
  induction p generalizing dual x v with
  | ret a => trivial
  | raise e => trivial
  | step s next ih => exact ⟨h.1, ih _ (h.2 _)⟩

theorem Prog.meetsLive_and {M : Mapper S} {ok ok' : Stmt S → Prop} {p : Prog S α} {dual : ℕ → Bool}
    {x : ℕ → Input S} {v : Live S} (h : p.meetsLive M ok dual x v) (h' : p.meetsLive M ok' dual x v) :
    p.meetsLive M (fun s => ok s ∧ ok' s) dual x v := by
  induction p generalizing dual x v with
  | ret a => trivial
  | raise e => trivial
  | step s next ih => exact ⟨⟨h.1, h'.1⟩, ih _ h.2 h'.2⟩

theorem Prog.meetsLive_mono {M : Mapper S} {ok ok' : Stmt S → Prop} (himp : ∀ s, ok s → ok' s)
    {p : Prog S α} {dual : ℕ → Bool} {x : ℕ → Input S} {v : Live S}
    (h : p.meetsLive M ok dual x v) : p.meetsLive M ok' dual x v := by
  induction p generalizing dual x v with
  | ret a => trivial
  | raise e => trivial
  | step s next ih => exact ⟨himp s h.1, ih _ h.2⟩

/-! ## Settled rows -/

/-- What the statement writes is in `I`. -/
def Stmt.Keeps (I : (k : S.Key) → S.Row k → Prop) : Stmt S → Prop
  | .update k _ set => ∀ r, I k r → I k (set r)
  | .assign k set => ∀ r, I k r → I k (set r)
  | .create k row => I k row
  | _ => True

/-- The session `v` sees what the lone session `u` sees, its objects are the rows, and all rows are
in `I`. -/
structure Level (I : (k : S.Key) → S.Row k → Prop) (v : Live S) (u : Solo S) : Prop where
  saved : v.saved = u.saved
  db : v.db = u.db
  ext : v.ext = u.ext
  objects : ∀ k o, v.objects k = some o → u.db.rows k = some o
  rows : ∀ k r, u.db.rows k = some r → I k r
  savedRows : ∀ k r, u.saved.rows k = some r → I k r

namespace Level

variable {I : (k : S.Key) → S.Row k → Prop} {M : Mapper S} {v : Live S} {u : Solo S}

theorem ofStore {st : Store S} (h : ∀ k r, st.db.rows k = some r → I k r) :
    Level I (Live.ofStore st) (Solo.ofStore st) where
  saved := rfl
  db := rfl
  ext := rfl
  objects _ _ ho := by cases ho
  rows := h
  savedRows := h

theorem store (h : Level I v u) : v.store = u.store := by
  rw [Live.store, Solo.store, h.saved, h.ext]

/-- An object is like its row. -/
theorem object_eq (h : Level I v u) {k : S.Key} {o r : S.Row k} (ho : v.objects k = some o)
    (hr : u.db.rows k = some r) : o = r :=
  Option.some.inj ((h.objects k o ho).symm.trans hr)

/-- There is nothing to write back. -/
theorem flush (hM : ∀ k r, I k r → M.Settled k r) (h : Level I v u) : v.flush M = v := by
  have hrows : (fun k => (v.db.rows k).map fun r => (v.objects k).elim r fun o => M.flush k o r)
      = v.db.rows := by
    funext k
    cases hr : v.db.rows k with
    | none => rfl
    | some r =>
        cases ho : v.objects k with
        | none => rfl
        | some o =>
            have hrow : u.db.rows k = some r := by rw [← h.db, hr]
            obtain rfl := h.object_eq ho hrow
            have hI : I k o := h.rows k o hrow
            exact congrArg some (hM k o hI).flush
  unfold Live.flush
  rw [hrows]

theorem object (h : Level I v u) (k : S.Key) : v.object k = u.db.rows k := by
  rw [Live.object, h.db]
  cases hr : u.db.rows k with
  | none => rfl
  | some r =>
      cases ho : v.objects k with
      | none => rfl
      | some o => exact congrArg some (h.object_eq ho hr)

/-- An object like its row. -/
theorem load (h : Level I v u) {k : S.Key} {o : S.Row k} (ho : u.db.rows k = some o) :
    Level I (v.load k o) u where
  saved := h.saved
  db := h.db
  ext := h.ext
  rows := h.rows
  savedRows := h.savedRows
  objects k' o' ho' := by
    by_cases hk : k' = k
    · subst hk
      rw [Live.load_objects_self, Option.some.injEq] at ho'
      rw [ho, ho']
    · rw [Live.load_objects_ne _ _ hk] at ho'
      exact h.objects k' o' ho'

/-- A read that does nothing to rows in `I`. -/
theorem fetch (h : Level I v u) (k : S.Key) {f : S.Row k → S.Row k} (hf : ∀ r, I k r → f r = r) :
    (v.fetch k f).1 = u.db.rows k ∧ Level I (v.fetch k f).2 u := by
  rw [Live.fetch, h.object]
  cases hr : u.db.rows k with
  | none => exact ⟨rfl, h⟩
  | some r =>
      have hsame : f r = r := hf r (h.rows k r hr)
      show some (f r) = some r ∧ Level I (v.load k (f r)) u
      rw [hsame]
      exact ⟨rfl, h.load hr⟩

/-- A row that is written, and its object alike. -/
theorem put (h : Level I v u) {k : S.Key} {row : S.Row k} (hrow : I k row)
    {objects : (k : S.Key) → Option (S.Row k)} (ho : ∀ o, objects k = some o → o = row)
    (hother : ∀ k', k' ≠ k → objects k' = v.objects k') :
    Level I { v with db := v.db.put k row, objects := objects } { u with db := u.db.put k row } where
  saved := h.saved
  db := congrArg (fun db : DB S => db.put k row) h.db
  ext := h.ext
  savedRows := h.savedRows
  objects k' o ho' := by
    by_cases hk : k' = k
    · subst hk
      rw [DB.put_rows_self, ho o ho']
    · rw [DB.put_rows_ne _ _ hk]
      exact h.objects k' o (by rw [← hother k' hk]; exact ho')
  rows k' r hr := by
    by_cases hk : k' = k
    · subst hk
      rw [DB.put_rows_self, Option.some.injEq] at hr
      rwa [← hr]
    · rw [DB.put_rows_ne _ _ hk] at hr
      exact h.rows k' r hr

theorem rollback (h : Level I v u) : Level I v.rollback { u with db := u.saved } where
  saved := h.saved
  db := h.saved
  ext := h.ext
  objects _ _ ho := by cases ho
  rows := h.savedRows
  savedRows := h.savedRows

/-- An `UPDATE` of a row, and of its object alike. -/
theorem update (h : Level I v u) {k : S.Key} {r : S.Row k} (hr : u.db.rows k = some r)
    {set f : S.Row k → S.Row k} (hset : I k (set r)) (hf : f r = set r) :
    Level I ({ v with db := v.db.put k (set r) }.touch k f) { u with db := u.db.put k (set r) } := by
  refine h.put hset (fun o ho => ?_) fun k' hk => Function.update_of_ne hk ..
  rw [Function.update_self, Option.map_eq_some_iff] at ho
  obtain ⟨o', ho', rfl⟩ := ho
  rw [h.object_eq ho' hr, hf]

/-- An `UPDATE` whose guard fails leaves the object as it is. -/
theorem touch_miss (h : Level I v u) {k : S.Key} {r : S.Row k} (hr : u.db.rows k = some r)
    {f : S.Row k → S.Row k} (hf : f r = r) : Level I (v.touch k f) u where
  saved := h.saved
  db := h.db
  ext := h.ext
  rows := h.rows
  savedRows := h.savedRows
  objects k' o ho := by
    by_cases hk : k' = k
    · subst hk
      rw [Live.touch_objects_self, Option.map_eq_some_iff] at ho
      obtain ⟨o', ho', rfl⟩ := ho
      rw [h.object_eq ho' hr, hf, hr]
    · rw [Live.touch_objects_ne _ _ hk] at ho
      exact h.objects k' o ho

end Level

section Settled

variable {I : (k : S.Key) → S.Row k → Prop} {M : Mapper S} (hM : ∀ k r, I k r → M.Settled k r)
include hM

/-- An `UPDATE` does to the object what it does to the row. -/
theorem Stmt.evalLive_update {k : S.Key} {guard : S.Row k → Bool} {set : S.Row k → S.Row k}
    (hset : ∀ r, I k r → I k (set r)) (dual : Bool) (x : Input S) {v : Live S} {u : Solo S}
    (h : Level I v u) :
    ((Stmt.update k guard set).evalLive M dual x v).1 = ((Stmt.update k guard set).eval x u).1 ∧
      Level I ((Stmt.update k guard set).evalLive M dual x v).2
        ((Stmt.update k guard set).eval x u).2 := by
  have hdb : v.db.rows k = u.db.rows k := by rw [h.db]
  simp only [evalLive, eval, h.flush hM]
  cases hr : u.db.rows k with
  | none =>
      rw [hr] at hdb
      simp only [hdb]
      exact ⟨rfl, h⟩
  | some r =>
      rw [hr] at hdb
      simp only [hdb]
      split
      · next hg => exact ⟨rfl, h.update hr (hset r (h.rows k r hr)) (by simp [hg])⟩
      · next hg => exact ⟨rfl, h.touch_miss hr (by simp [hg])⟩

omit hM in
theorem Stmt.evalLive_assign {k : S.Key} {set : S.Row k → S.Row k} (hset : ∀ r, I k r → I k (set r))
    (dual : Bool) (x : Input S) {v : Live S} {u : Solo S} (h : Level I v u) :
    Level I ((Stmt.assign k set).evalLive M dual x v).2 ((Stmt.assign k set).eval x u).2 := by
  have hdb : v.db.rows k = u.db.rows k := by rw [h.db]
  simp only [evalLive, eval]
  cases hr : u.db.rows k with
  | none =>
      rw [hr] at hdb
      simp only [hdb]
      exact h
  | some r =>
      rw [hr] at hdb
      simp only [hdb]
      exact h.update hr (hset r (h.rows k r hr)) rfl

/-- The row that is inserted is the object. -/
theorem Stmt.evalLive_create {k : S.Key} {row : S.Row k} (hrow : I k row) (dual : Bool) (x : Input S)
    {v : Live S} {u : Solo S} (h : Level I v u) :
    ((Stmt.create k row).evalLive M dual x v).1 = ((Stmt.create k row).eval x u).1 ∧
      Level I ((Stmt.create k row).evalLive M dual x v).2 ((Stmt.create k row).eval x u).2 := by
  have hdb : v.db.rows k = u.db.rows k := by rw [h.db]
  simp only [evalLive, eval, h.flush hM]
  cases hr : u.db.rows k with
  | some r =>
      rw [hr] at hdb
      simp only [hdb]
      exact ⟨rfl, h⟩
  | none =>
      have hinsert : M.insert k row = row := (hM k row hrow).insert
      rw [hr] at hdb
      simp only [hdb, hinsert]
      refine ⟨rfl, h.put hrow (fun o ho => ?_) fun k' hk => Live.load_objects_ne _ _ hk⟩
      rw [Function.update_self, Option.some.injEq] at ho
      exact ho.symm

/-- **One statement** does the same with objects and without them, when it keeps rows in `I`. -/
theorem Stmt.evalLive_level (s : Stmt S) (hs : s.Keeps I) (dual : Bool) (x : Input S) {v : Live S}
    {u : Solo S} (h : Level I v u) :
    (s.evalLive M dual x v).1 = (s.eval x u).1 ∧
      Level I (s.evalLive M dual x v).2 (s.eval x u).2 := by
  have hflush := h.flush hM
  cases s with
  | now => exact ⟨rfl, h⟩
  | ask => exact ⟨rfl, h⟩
  | select k =>
      simp only [evalLive, eval, hflush]
      refine h.fetch k fun r hr => ?_
      split
      · exact (hM k r hr).read
      · rfl
  | selectForUpdate k =>
      simp only [evalLive, eval, hflush]
      exact h.fetch k fun r _ => rfl
  | scan p =>
      have hks : x.arrange (v.db.matching p) = x.arrange (u.db.matching p) := by rw [h.db]
      simp only [evalLive, eval, hflush]
      refine ⟨hks, h.saved, h.db, h.ext, fun k o ho => ?_, h.rows, h.savedRows⟩
      simp only at ho
      split at ho
      · rwa [h.object] at ho
      · exact h.objects k o ho
  | update k guard set => exact evalLive_update hM hs dual x h
  | assign k set => exact ⟨rfl, evalLive_assign hs dual x h⟩
  | create k row => exact evalLive_create hM hs dual x h
  | insert e =>
      exact ⟨rfl, { h with db := congrArg (fun db : DB S => db.append e) h.db }⟩
  | expireAll => exact ⟨rfl, { h with objects := fun _ _ ho => by cases ho }⟩
  | call op =>
      simp only [evalLive, eval, h.ext]
      exact ⟨rfl, { h with ext := rfl }⟩
  | commit =>
      simp only [evalLive, eval, hflush]
      split
      · exact ⟨rfl, { h with saved := h.db, savedRows := h.rows }⟩
      · exact ⟨rfl, h.rollback⟩
  | rollback => exact ⟨rfl, h.rollback⟩

/-- **A run** does the same with objects and without them. -/
theorem Prog.evalLive_level (p : Prog S α) (dual : ℕ → Bool) {x : ℕ → Input S} {v : Live S}
    {u : Solo S} (h : Level I v u) (hp : p.meets (fun _ s _ => s.Keeps I) x u) :
    (p.evalLive M dual x v).1 = (p.eval x u).1 ∧
      Level I (p.evalLive M dual x v).2 (p.eval x u).2 := by
  induction p generalizing dual x v u with
  | ret a => exact ⟨rfl, h⟩
  | raise e => exact ⟨rfl, h⟩
  | step s next ih =>
      obtain ⟨hres, hlevel⟩ := s.evalLive_level hM hp.1 (dual 0) (x 0) h
      rw [evalLive, hres]
      exact ih _ _ hlevel hp.2

/-- A condition on a run with objects is one on the run without them. -/
theorem Prog.meets_of_meetsLive {p : Prog S α} {dual : ℕ → Bool} {x : ℕ → Input S} {v : Live S}
    {u : Solo S} (h : Level I v u) (hp : p.meetsLive M (Stmt.Keeps I) dual x v) :
    p.meets (fun _ s _ => s.Keeps I) x u := by
  induction p generalizing dual x v u with
  | ret a => trivial
  | raise e => trivial
  | step s next ih =>
      obtain ⟨hres, hlevel⟩ := s.evalLive_level hM hp.1 (dual 0) (x 0) h
      have htail := hp.2
      rw [hres] at htail
      exact ⟨hp.1, ih _ hlevel htail⟩

end Settled

/-! ## One request after another -/

/-- What one session does after another. -/
inductive Request (S : Schema) where
  /-- Run a program; the environment's inputs, and which of its reads change objects. -/
  | run (prog : Prog S Unit) (input : ℕ → Input S) (dual : ℕ → Bool)
  /-- `DELETE` of the rows that `keep` does not want. -/
  | purge (keep : DB S → S.Key → Bool)

def DB.purge (db : DB S) (keep : S.Key → Bool) : DB S :=
  { db with
    rows := fun k => if keep k then db.rows k else none
    keys := db.keys.filter keep }

namespace Request

/-- Each request has a session of its own. -/
def serve (M : Mapper S) : Request S → Store S → Store S
  | run prog input dual, st => (prog.evalLive M dual input (Live.ofStore st)).2.store
  | purge keep, st => { st with db := st.db.purge (keep st.db) }

/-- All statements of the program satisfy `ok`. -/
def only (ok : Stmt S → Prop) : Request S → Prop
  | run prog _ _ => prog.only ok
  | purge _ => True

/-- All statements that are run satisfy `ok`. -/
def meets (M : Mapper S) (ok : Stmt S → Prop) : Request S → Store S → Prop
  | run prog input dual, st => prog.meetsLive M ok dual input (Live.ofStore st)
  | purge _, _ => True

theorem only_mono {ok ok' : Stmt S → Prop} {q : Request S} (h : q.only ok) (himp : ∀ s, ok s → ok' s) :
    q.only ok' := by
  cases q with
  | run prog input dual => exact Prog.only_mono h himp
  | purge keep => trivial

theorem meets_of_only {M : Mapper S} {ok : Stmt S → Prop} {q : Request S} {st : Store S}
    (h : q.only ok) : q.meets M ok st := by
  cases q with
  | run prog input dual => exact Prog.meetsLive_of_only h
  | purge keep => trivial

theorem meets_and {M : Mapper S} {ok ok' : Stmt S → Prop} {q : Request S} {st : Store S}
    (h : q.meets M ok st) (h' : q.meets M ok' st) : q.meets M (fun s => ok s ∧ ok' s) st := by
  cases q with
  | run prog input dual => exact Prog.meetsLive_and h h'
  | purge keep => trivial

theorem meets_mono {M : Mapper S} {ok ok' : Stmt S → Prop} (himp : ∀ s, ok s → ok' s) {q : Request S}
    {st : Store S} (h : q.meets M ok st) : q.meets M ok' st := by
  cases q with
  | run prog input dual => exact Prog.meetsLive_mono himp h
  | purge keep => trivial

/-- One request, served by two mappers that do nothing to rows in `I`. -/
theorem serve_eq {I : (k : S.Key) → S.Row k → Prop} {M M' : Mapper S}
    (hM : ∀ k r, I k r → M.Settled k r) (hM' : ∀ k r, I k r → M'.Settled k r) {st : Store S}
    (hst : ∀ k r, st.db.rows k = some r → I k r) {q : Request S} (h : q.meets M (Stmt.Keeps I) st) :
    q.serve M' st = q.serve M st ∧ ∀ k r, (q.serve M st).db.rows k = some r → I k r := by
  cases q with
  | run prog input dual =>
      have hlevel : Level I (Live.ofStore st) (Solo.ofStore st) := .ofStore hst
      have hmeets := Prog.meets_of_meetsLive hM hlevel h
      have hend := (prog.evalLive_level hM dual hlevel hmeets).2
      have hend' := (prog.evalLive_level hM' dual hlevel hmeets).2
      refine ⟨hend'.store.trans hend.store.symm, fun k r hr => ?_⟩
      rw [serve, hend.store] at hr
      exact hend.savedRows k r hr
  | purge keep =>
      refine ⟨rfl, fun k r hr => ?_⟩
      simp only [serve, DB.purge] at hr
      split at hr
      · exact hst k r hr
      · cases hr

end Request

def serveLive (M : Mapper S) : List (Request S) → Store S → Store S
  | [], st => st
  | q :: l, st => serveLive M l (q.serve M st)

/-- All statements of all requests satisfy `ok`. -/
def meetsLiveAll (M : Mapper S) (ok : Stmt S → Prop) : List (Request S) → Store S → Prop
  | [], _ => True
  | q :: l, st => q.meets M ok st ∧ meetsLiveAll M ok l (q.serve M st)

section Requests

variable {M : Mapper S} {ok ok' : Stmt S → Prop} {l : List (Request S)} {st : Store S}

theorem meetsLiveAll_of_only (h : ∀ q ∈ l, q.only ok) : meetsLiveAll M ok l st := by
  induction l generalizing st with
  | nil => trivial
  | cons q l ih =>
      have hq : q.only ok := h q (List.mem_cons_self ..)
      exact ⟨Request.meets_of_only hq, ih fun q' hq' => h q' (List.mem_cons_of_mem q hq')⟩

theorem meetsLiveAll_and (h : meetsLiveAll M ok l st) (h' : meetsLiveAll M ok' l st) :
    meetsLiveAll M (fun s => ok s ∧ ok' s) l st := by
  induction l generalizing st with
  | nil => trivial
  | cons q l ih => exact ⟨Request.meets_and h.1 h'.1, ih h.2 h'.2⟩

theorem meetsLiveAll_mono (himp : ∀ s, ok s → ok' s) (h : meetsLiveAll M ok l st) :
    meetsLiveAll M ok' l st := by
  induction l generalizing st with
  | nil => trivial
  | cons q l ih => exact ⟨Request.meets_mono himp h.1, ih h.2⟩

/-- **Two mappers do the same** to requests that keep rows on which neither does anything. -/
theorem serveLive_eq {I : (k : S.Key) → S.Row k → Prop} {M' : Mapper S}
    (hM : ∀ k r, I k r → M.Settled k r) (hM' : ∀ k r, I k r → M'.Settled k r)
    (hst : ∀ k r, st.db.rows k = some r → I k r) (h : meetsLiveAll M (Stmt.Keeps I) l st) :
    serveLive M' l st = serveLive M l st := by
  induction l generalizing st with
  | nil => rfl
  | cons q l ih =>
      obtain ⟨hsame, hrows⟩ := Request.serve_eq hM hM' hst h.1
      rw [serveLive, serveLive, hsame]
      exact ih hrows h.2

end Requests

end Txn
