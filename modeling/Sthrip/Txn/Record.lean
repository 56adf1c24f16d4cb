import Sthrip.Txn.Footprint

set_option autoImplicit false

/-! # One row and the entries about it

Many invariants speak of one row of a table and of the entries of the log that belong to it: an
order and its payments, a message and its deliveries. `Record` is that part of a database, and
`Draft` is what a session has of it: the row if the session holds it, the object it has loaded,
and the entries it will add. `Protocol.ofRecord` is the protocol whose invariant is a condition on
the record, and the rules below follow a program by what it does to the draft.
-/

namespace Txn

variable {S : Schema} {ρ α : Type} {k : S.Key} {f : S.Entry → Option ρ}

/-! ## Records and drafts -/

/-- The row `k` of a database, and what is read of the entries about it. -/
structure Record (S : Schema) (k : S.Key) (ρ : Type) where
  row : Option (S.Row k)
  entries : List ρ

def DB.record (db : DB S) (k : S.Key) (f : S.Entry → Option ρ) : Record S k ρ :=
  ⟨db.rows k, db.log.filterMap f⟩

/-- What a session has of a record. -/
structure Draft (S : Schema) (k : S.Key) (ρ : Type) where
  held : Option (Held (S.Row k))
  loaded : Option (S.Row k)
  entries : List ρ

def Session.draft (σ : Session S) (k : S.Key) (f : S.Entry → Option ρ) : Draft S k ρ :=
  ⟨σ.held k, σ.loaded k, σ.inserted.filterMap f⟩

namespace Draft

/-- The draft of a session that has not come to the row. -/
def blank : Draft S k ρ := ⟨none, none, []⟩

variable (D : Draft S k ρ) (E : Record S k ρ)

def view : Option (S.Row k) :=
  match D.held with
  | some h => h.own
  | none => E.row

def object : Option (S.Row k) := (D.view E).map fun r => D.loaded.getD r

def base : Option (S.Row k) :=
  match D.held with
  | some h => h.base
  | none => E.row

/-- The row is locked, and loaded. -/
def lock : Draft S k ρ :=
  match D.view E with
  | some r => { D with held := some ⟨D.base E, some r⟩, loaded := some (D.loaded.getD r) }
  | none => D

/-- The row is written, and the object changed. -/
def write (r : S.Row k) (g : S.Row k → S.Row k) : Draft S k ρ :=
  { D with held := some ⟨D.base E, some r⟩, loaded := D.loaded.map g }

/-- The object is changed. -/
def touch (g : S.Row k → S.Row k) : Draft S k ρ := { D with loaded := D.loaded.map g }

/-- Entries are added. -/
def post (l : List ρ) : Draft S k ρ := { D with entries := D.entries ++ l }

/-- The row is locked as it is committed. -/
def Agrees : Prop := ∀ h, D.held = some h → E.row = h.base

/-- The record after the session commits. -/
def onto : Record S k ρ := ⟨D.view E, E.entries ++ D.entries⟩

end Draft

section Sessions

variable (σ : Session S) (db : DB S)

@[simp] theorem draft_start : (Session.start : Session S).draft k f = .blank := rfl

theorem DB.record_apply : (db.apply σ).record k f = (σ.draft k f).onto (db.record k f) := by
  show Record.mk _ ((db.log ++ σ.inserted).filterMap f) = Record.mk _ _
  rw [List.filterMap_append]
  rfl

theorem Session.Agrees.draft {σ : Session S} {db : DB S} (h : σ.Agrees db) :
    (σ.draft k f).Agrees (db.record k f) := fun hd hh => h k hd hh

/-- The object of a row is the one loaded before, or the row. -/
theorem Session.object_eq_some {σ : Session S} {db : DB S} {o : S.Row k}
    (h : σ.object db k = some o) : σ.loaded k = some o ∨ σ.view db k = some o := by
  obtain ⟨r, hr, hget⟩ := Option.map_eq_some_iff.mp h
  cases hl : σ.loaded k with
  | none =>
      rw [hl, Option.getD_none] at hget
      exact .inr (hget ▸ hr)
  | some o' =>
      rw [hl, Option.getD_some] at hget
      exact .inl (hget ▸ rfl)

theorem draft_load : (σ.load db k).draft k f
    = { σ.draft k f with loaded := (σ.object db k).or (σ.loaded k) } := by
  unfold Session.load
  cases h : σ.object db k with
  | none => rfl
  | some r => simp only [Session.draft, Function.update_self, Option.some_or]

theorem draft_lock : ((σ.lock db k).load db k).draft k f = (σ.draft k f).lock (db.record k f) := by
  rw [draft_load, Session.lock_object, Session.lock_loaded]
  cases h : σ.view db k with
  | none =>
      have hv : (σ.draft k f).view (db.record k f) = none := h
      rw [Session.lock_of_no_view h, Session.object, h, Draft.lock, hv]
      rfl
  | some r =>
      have hv : (σ.draft k f).view (db.record k f) = some r := h
      rw [Session.lock_of_view h, Session.object, h, Draft.lock, hv]
      simp only [Session.draft, Session.write_held_self, Session.write_inserted]
      rfl

theorem draft_write (r : S.Row k) (g : S.Row k → S.Row k) :
    ((σ.write db k r).touch k g).draft k f = (σ.draft k f).write (db.record k f) r g := by
  simp only [Session.draft, Session.touch_held, Session.write_held_self, Session.touch_inserted,
    Session.write_inserted]
  show Draft.mk _ _ _ = Draft.mk _ _ _
  simp only [Session.touch, Function.update_self, Session.write_loaded]
  rfl

theorem draft_touch (g : S.Row k → S.Row k) :
    (σ.touch k g).draft k f = (σ.draft k f).touch g := by
  show Draft.mk _ _ _ = Draft.mk _ _ _
  simp only [Session.touch, Function.update_self]
  rfl

end Sessions

/-! ## The protocol of a record -/

/-- The invariant is a condition on the record. -/
def Protocol.ofRecord (k : S.Key) (f : S.Entry → Option ρ) (Fits : Record S k ρ → Prop)
    (Ok : Store S → Session S → Stmt S → Input S → Prop) : Protocol S Unit where
  Inv st _ := Fits (st.db.record k f)
  Ok := Ok

/-- What a session with the draft `D` knows of the committed record. -/
structure Draft.Sees (Fits : Record S k ρ → Prop) (D : Draft S k ρ) (E : Record S k ρ) :
    Prop where
  fits : Fits E
  agrees : D.Agrees E

/-- A commit of the draft keeps the invariant. -/
def Draft.Ready (Fits : Record S k ρ → Prop) (D : Draft S k ρ) : Prop :=
  ∀ E, D.Sees Fits E → Fits (D.onto E)

/-- All that is known of the rows and of the objects satisfies `G`. -/
structure Draft.Good (G : S.Row k → Prop) (D : Draft S k ρ) : Prop where
  own : ∀ h r, D.held = some h → h.own = some r → G r
  loaded : ∀ o, D.loaded = some o → G o

/-- The session has done nothing about the record: at most it has locked the row. -/
structure Draft.Fresh (D : Draft S k ρ) : Prop where
  entries : D.entries = []
  held : ∀ h, D.held = some h → h.own = h.base

/-- The object is one the session had loaded, or it can see such a row. -/
def Draft.Seen (Fits : Record S k ρ → Prop) (D : Draft S k ρ) (o : S.Row k) : Prop :=
  D.loaded = some o ∨ ∃ E, D.Sees Fits E ∧ D.view E = some o

/-- Other statements may run between two drafts: at most an object has been loaded. -/
structure Draft.Later (Fits : Record S k ρ → Prop) (D D' : Draft S k ρ) : Prop where
  held : D'.held = D.held
  entries : D'.entries = D.entries
  loaded : ∀ o, D'.loaded = some o → D.Seen Fits o

namespace Draft

variable {Fits : Record S k ρ → Prop} {Ok : Store S → Session S → Stmt S → Input S → Prop}
  {D D' D'' : Draft S k ρ} {G : S.Row k → Prop}

theorem fresh_blank : (blank : Draft S k ρ).Fresh := ⟨rfl, fun _ h => (by cases h)⟩

theorem Fresh.view (h : D.Fresh) {E : Record S k ρ} (hs : D.Sees Fits E) : D.view E = E.row := by
  unfold Draft.view
  split
  · next hd hh => rw [h.held hd hh, hs.agrees hd hh]
  · rfl

theorem Sees.base {E : Record S k ρ} (hs : D.Sees Fits E) : D.base E = E.row := by
  unfold Draft.base
  split
  · next hd hh => rw [hs.agrees hd hh]
  · rfl

theorem Fresh.ready (h : D.Fresh) : D.Ready Fits := by
  intro E hs
  have honto : D.onto E = E := by
    show Record.mk _ _ = E
    rw [h.view hs, h.entries, List.append_nil]
  exact honto.symm ▸ hs.fits

theorem Fresh.lock (h : D.Fresh) {E : Record S k ρ} (hs : D.Sees Fits E) : (D.lock E).Fresh := by
  cases hv : D.view E with
  | none => rwa [Draft.lock, hv]
  | some r =>
      rw [Draft.lock, hv]
      refine ⟨h.entries, fun hd hh => ?_⟩
      obtain rfl := Option.some.inj hh
      show some r = D.base E
      rw [← hv, h.view hs, hs.base]

theorem good_blank : (blank : Draft S k ρ).Good G :=
  ⟨fun _ _ h => (by cases h), fun _ h => (by cases h)⟩

theorem Later.refl (D : Draft S k ρ) : D.Later Fits D := ⟨rfl, rfl, fun _ h => .inl h⟩

theorem Later.sees (h : D.Later Fits D') {E : Record S k ρ} (hs : D'.Sees Fits E) :
    D.Sees Fits E :=
  ⟨hs.fits, fun hd hh => hs.agrees hd (h.held.trans hh)⟩

theorem Later.view (h : D.Later Fits D') (E : Record S k ρ) : D'.view E = D.view E := by
  unfold Draft.view
  rw [h.held]

theorem Later.trans (h : D.Later Fits D') (h' : D'.Later Fits D'') : D.Later Fits D'' := by
  refine ⟨h'.held.trans h.held, h'.entries.trans h.entries, fun o ho => ?_⟩
  rcases h'.loaded o ho with ho | ⟨E, hs, ho⟩
  · exact h.loaded o ho
  · exact .inr ⟨E, h.sees hs, (h.view E).symm.trans ho⟩

theorem Later.fresh (h : D.Later Fits D') (hf : D.Fresh) : D'.Fresh :=
  ⟨h.entries.trans hf.entries, fun hd hh => hf.held hd (h.held.symm.trans hh)⟩

theorem Later.ready (h : D.Later Fits D') (hr : D.Ready Fits) : D'.Ready Fits := by
  intro E hs
  have honto : D'.onto E = D.onto E := by
    show Record.mk _ _ = Record.mk _ _
    rw [h.view, h.entries]
  exact honto ▸ hr E (h.sees hs)

section Good

variable (hgood : ∀ E, Fits E → ∀ r, E.row = some r → G r)
include hgood

theorem Good.view (h : D.Good G) {E : Record S k ρ} (hs : D.Sees Fits E) {r : S.Row k}
    (hr : D.view E = some r) : G r := by
  unfold Draft.view at hr
  split at hr
  · next hd hh => exact h.own hd r hh hr
  · exact hgood E hs.fits r hr

theorem Good.object (h : D.Good G) {E : Record S k ρ} (hs : D.Sees Fits E) {r : S.Row k}
    (hr : D.object E = some r) : G r := by
  obtain ⟨r', hv, hget⟩ := Option.map_eq_some_iff.mp hr
  cases ho : D.loaded with
  | none =>
      rw [ho, Option.getD_none] at hget
      exact hget ▸ h.view hgood hs hv
  | some o =>
      rw [ho, Option.getD_some] at hget
      exact hget ▸ h.loaded o ho

theorem Good.seen (h : D.Good G) {o : S.Row k} (ho : D.Seen Fits o) : G o := by
  rcases ho with ho | ⟨E, hs, hv⟩
  · exact h.loaded o ho
  · exact h.view hgood hs hv

theorem Good.later (h : D.Good G) (hl : D.Later Fits D') : D'.Good G where
  own hd r hh := h.own hd r (hl.held.symm.trans hh)
  loaded o ho := h.seen hgood (hl.loaded o ho)

theorem Good.lock (h : D.Good G) {E : Record S k ρ} (hs : D.Sees Fits E) : (D.lock E).Good G := by
  cases hv : D.view E with
  | none => rwa [Draft.lock, hv]
  | some r =>
      rw [Draft.lock, hv]
      refine ⟨fun hd r' hh hr' => ?_, fun o ho => ?_⟩
      · obtain rfl := Option.some.inj hh
        obtain rfl := Option.some.inj hr'
        exact h.view hgood hs hv
      · obtain rfl := Option.some.inj ho
        exact h.object hgood hs (by rw [Draft.object, hv]; rfl)

end Good

theorem Good.write (h : D.Good G) (E : Record S k ρ) {r : S.Row k} {g : S.Row k → S.Row k}
    (hr : G r) (hg : ∀ o, G o → G (g o)) : (D.write E r g).Good G where
  own hd r' hh hr' := by
    obtain rfl := Option.some.inj hh
    obtain rfl := Option.some.inj hr'
    exact hr
  loaded o ho := by
    obtain ⟨o', ho', rfl⟩ := Option.map_eq_some_iff.mp ho
    exact hg o' (h.loaded o' ho')

theorem Good.touch (h : D.Good G) {g : S.Row k → S.Row k} (hg : ∀ o, G o → G (g o)) :
    (D.touch g).Good G where
  own := h.own
  loaded o ho := by
    obtain ⟨o', ho', rfl⟩ := Option.map_eq_some_iff.mp ho
    exact hg o' (h.loaded o' ho')

theorem Good.post (h : D.Good G) (l : List ρ) : (D.post l).Good G := ⟨h.own, h.loaded⟩

end Draft

/-! ## Following a program -/

namespace Prog

variable {Fits : Record S k ρ → Prop} {Ok : Store S → Session S → Stmt S → Input S → Prop} {i : ℕ}
  {R : S.Err → Session S → Unit → Prop} {σ : Session S} {D : Draft S k ρ}

theorem sees_record {st : Store S} {γ : ℕ → Unit}
    (h : (Protocol.ofRecord k f Fits Ok).Sees i σ () st γ) :
    (σ.draft k f).Sees Fits (st.db.record k f) := ⟨h.inv, h.agrees.draft⟩

theorem view_record {db : DB S} {E : Record S k ρ} (hD : σ.draft k f = D)
    (hE : db.record k f = E) : σ.view db k = D.view E := by
  rw [← hD, ← hE]
  rfl

theorem record_commits (h : (σ.draft k f).Ready Fits) :
    CommitsTo (Protocol.ofRecord k f Fits Ok) i (fun _ => True) σ () := by
  intro st γ x hs _ _
  refine ⟨(), ?_, trivial⟩
  show Fits ((st.db.apply σ).record k f)
  rw [DB.record_apply]
  exact h _ (sees_record hs)

theorem safe_recordLock {Q : Option (S.Row k) → Session S → Unit → Prop} (hD : σ.draft k f = D)
    (h : ∀ (st : Store S) (E : Record S k ρ) (x : Input S) (σ' : Session S),
      st.db.record k f = E → D.Sees Fits E → Ok st σ (.selectForUpdate k) x →
      σ'.draft k f = D.lock E → Q (D.object E) σ' ()) :
    (selectForUpdate k).safe (.ofRecord k f Fits Ok) i Q R σ () := by
  subst hD
  exact safe_selectForUpdate fun st _ x hs hok =>
    h st _ x _ rfl (sees_record hs) hok (draft_lock σ st.db)

theorem safe_recordUpdate {guard : S.Row k → Bool} {set : S.Row k → S.Row k}
    {Q : Bool → Session S → Unit → Prop} (hD : σ.draft k f = D)
    (hit : ∀ (st : Store S) (E : Record S k ρ) (x : Input S) (σ' : Session S) (r : S.Row k),
      st.db.record k f = E → D.Sees Fits E → Ok st σ (.update k guard set) x →
      D.view E = some r → guard r = true →
      σ'.draft k f = D.write E (set r) (fun o => if guard o then set o else o) → Q true σ' ())
    (miss : ∀ (st : Store S) (E : Record S k ρ) (x : Input S) (σ' : Session S),
      st.db.record k f = E → D.Sees Fits E → Ok st σ (.update k guard set) x →
      (∀ r, D.view E = some r → guard r = false) →
      σ'.draft k f = D.touch (fun o => if guard o then set o else o) → Q false σ' ()) :
    (update k guard set).safe (.ofRecord k f Fits Ok) i Q R σ () := by
  subst hD
  exact safe_update
    (fun st _ x r hs hok hv hg => hit st _ x _ r rfl (sees_record hs) hok hv hg
      (draft_write σ st.db _ _))
    fun st _ x hs hok hmiss => miss st _ x _ rfl (sees_record hs) hok hmiss (draft_touch σ _)

theorem later_load {db : DB S} (hs : (σ.draft k f).Sees Fits (db.record k f)) :
    (σ.draft k f).Later Fits ((σ.load db k).draft k f) := by
  rw [draft_load]
  refine ⟨rfl, rfl, fun o ho => ?_⟩
  cases hob : σ.object db k with
  | none =>
      rw [hob] at ho
      exact .inl ho
  | some o' =>
      rw [hob, Option.some_or] at ho
      exact (Session.object_eq_some (hob.trans ho)).imp id fun hv => ⟨_, hs, hv⟩

theorem safe_recordSelect {Q : Option (S.Row k) → Session S → Unit → Prop} (hD : σ.draft k f = D)
    (h : ∀ (st : Store S) (E : Record S k ρ) (σ' : Session S), st.db.record k f = E →
      D.Sees Fits E → D.Later Fits (σ'.draft k f) → Q (D.object E) σ' ()) :
    (select k).safe (.ofRecord k f Fits Ok) i Q R σ () := by
  subst hD
  exact safe_select fun st _ hs => h st _ _ rfl (sees_record hs) (later_load (sees_record hs))

/-- Entries are added, and no row or object of the record is touched. -/
theorem draft_append {σ' : Session S} {l : List S.Entry} (hheld : σ'.held k = σ.held k)
    (hloaded : σ'.loaded k = σ.loaded k) (hins : σ'.inserted = σ.inserted ++ l) :
    σ'.draft k f = (σ.draft k f).post (l.filterMap f) := by
  unfold Session.draft Draft.post
  rw [hheld, hloaded, hins, List.filterMap_append]

/-- An object is loaded as the session sees its row. -/
theorem loaded_exec {s : Stmt S} (h : s.off (· = k) f) (x : Input S) (st : Store S)
    (σ : Session S) (o : S.Row k) (ho : (s.exec x st σ).2.2.loaded k = some o) :
    σ.loaded k = some o ∨ σ.view st.db k = some o := by
  have hload : ∀ {σ' : Session S} {k' : S.Key}, σ'.loaded = σ.loaded →
      σ'.object st.db k' = σ.object st.db k' → (σ'.load st.db k').loaded k = some o →
      σ.loaded k = some o ∨ σ.view st.db k = some o := by
    intro σ' k' hl hob hk
    unfold Session.load at hk
    split at hk
    · next r hr =>
        replace hk : Function.update σ'.loaded k' (some r) k = some o := hk
        by_cases hkk : k = k'
        · subst hkk
          rw [Function.update_self] at hk
          exact Session.object_eq_some ((hob.symm.trans hr).trans hk)
        · rw [Function.update_of_ne hkk, hl] at hk
          exact .inl hk
    · exact .inl (hl ▸ hk)
  have hother : ∀ {k' : S.Key} {v : Option (S.Row k')}, k' ≠ k →
      Function.update σ.loaded k' v k = some o → σ.loaded k = some o := by
    intro k' v hk' h
    rwa [Function.update_of_ne (Ne.symm hk')] at h
  cases s with
  | now => exact .inl ho
  | ask => exact .inl ho
  | select k' => exact hload rfl rfl ho
  | selectForUpdate k' => exact hload (Session.lock_loaded ..) (Session.lock_object ..) ho
  | scan p =>
      simp only [Stmt.exec, Session.loadAll] at ho
      split at ho
      · exact Session.object_eq_some ho
      · exact .inl ho
  | update k' guard set =>
      simp only [Stmt.exec] at ho
      split at ho
      · split at ho
        · exact .inl (hother h ho)
        · exact .inl (hother h ho)
      · exact .inl (hother h ho)
  | assign k' set =>
      simp only [Stmt.exec] at ho
      split at ho
      · exact .inl (hother h ho)
      · exact .inl ho
  | create k' row =>
      simp only [Stmt.exec] at ho
      split at ho
      · exact .inl ho
      · exact .inl (hother h ho)
  | insert e => exact .inl ho
  | expireAll => cases ho
  | call op => exact h.elim
  | commit => exact h.elim
  | rollback => exact h.elim

/-- A program that leaves the record alone. -/
theorem safe_apart {p : Prog S α} (h : p.only (Stmt.off (· = k) f))
    {Q : α → Session S → Unit → Prop} (hD : σ.draft k f = D)
    (hQ : ∀ a σ', D.Later Fits (σ'.draft k f) → Q a σ' ())
    (hR : ∀ e σ', R e σ' ()) : p.safe (.ofRecord k f Fits Ok) i Q R σ () := by
  subst hD
  induction p generalizing σ with
  | ret a => exact hQ a σ (.refl _)
  | raise e => exact hR e σ
  | step s next ih =>
      intro st γ x hs _
      obtain ⟨hst, hsame⟩ := s.exec_off x st σ h.1
      refine ⟨(), ?_, ih _ (h.2 _) fun a σ' hl => hQ a σ' (.trans ?_ hl)⟩
      · rw [hst]
        exact hs.inv
      refine ⟨hsame.held k rfl, hsame.inserted, fun o ho => ?_⟩
      exact (loaded_exec h.1 x st σ o ho).imp id fun hv => ⟨_, sees_record hs, hv⟩

theorem safe_recordAssign {set : S.Row k → S.Row k} {Q : Unit → Session S → Unit → Prop}
    (hD : σ.draft k f = D)
    (hit : ∀ (st : Store S) (E : Record S k ρ) (x : Input S) (σ' : Session S) (r : S.Row k),
      st.db.record k f = E → D.Sees Fits E → Ok st σ (.assign k set) x → D.view E = some r →
      σ'.draft k f = D.write E (set r) set → Q () σ' ())
    (miss : ∀ (st : Store S) (E : Record S k ρ) (x : Input S), st.db.record k f = E →
      D.Sees Fits E → Ok st σ (.assign k set) x → D.view E = none → Q () σ ()) :
    (assign k set).safe (.ofRecord k f Fits Ok) i Q R σ () := by
  subst hD
  exact safe_assign
    (fun st _ x r hs hok hv => hit st _ x _ r rfl (sees_record hs) hok hv (draft_write σ st.db _ _))
    fun st _ x hs hok hv => miss st _ x rfl (sees_record hs) hok hv

/-- The object of the row, which stays in the session. -/
theorem safe_recordFetch {Q : Option (S.Row k) → Session S → Unit → Prop} (hD : σ.draft k f = D)
    (h : ∀ (E : Record S k ρ) (σ' : Session S), D.Sees Fits E → D.Later Fits (σ'.draft k f) →
      (∀ o, D.object E = some o → σ'.loaded k = some o) → Q (D.object E) σ' ()) :
    (select k).safe (.ofRecord k f Fits Ok) i Q R σ () := by
  subst hD
  refine safe_select fun st _ hs => h _ _ (sees_record hs) (later_load (sees_record hs)) fun o ho => ?_
  have hload := congrArg Draft.loaded (draft_load (k := k) (f := f) σ st.db)
  have hob : σ.object st.db k = some o := ho
  rw [hob, Option.some_or] at hload
  exact hload

/-- A row that is not there is made, or the key turns out to be taken. -/
theorem safe_recordCreate {row : S.Row k} {Q : Bool → Session S → Unit → Prop}
    (hD : σ.draft k f = D)
    (hit : ∀ (E : Record S k ρ) (σ' : Session S), D.Sees Fits E → D.view E = none →
      σ'.draft k f = { D with held := some ⟨D.base E, some row⟩, loaded := some row } →
      Q true σ' ())
    (miss : ∀ (E : Record S k ρ) (r : S.Row k), D.Sees Fits E → D.view E = some r → Q false σ ()) :
    (create k row).safe (.ofRecord k f Fits Ok) i Q R σ () := by
  subst hD
  refine safe_create (fun st _ hs hv => hit _ _ (sees_record hs) hv ?_)
    fun st _ r hs hv => miss _ r (sees_record hs) hv
  show Draft.mk _ _ _ = Draft.mk _ _ _
  simp only [Function.update_self, Session.write_held_self, Session.write_inserted]
  rfl

section Good

variable {G : S.Row k → Prop} (hG : ∀ E, Fits E → ∀ r, E.row = some r → G r)
include hG

/-- A guarded update that keeps what is known of the rows. -/
theorem safe_recordTransition {guard : S.Row k → Bool} {set : S.Row k → S.Row k}
    {Q : Bool → Session S → Unit → Prop} (hset : ∀ r, G r → G (set r)) (hD : σ.draft k f = D)
    (hgood : D.Good G)
    (hit : ∀ (E : Record S k ρ) (r : S.Row k) (σ' : Session S), D.Sees Fits E →
      D.view E = some r → guard r = true → (σ'.draft k f).Good G →
      (σ'.draft k f).held = some ⟨E.row, some (set r)⟩ → (σ'.draft k f).entries = D.entries →
      Q true σ' ())
    (miss : ∀ (st : Store S) (E : Record S k ρ) (x : Input S) (σ' : Session S),
      st.db.record k f = E → D.Sees Fits E → Ok st σ (.update k guard set) x →
      (∀ r, D.view E = some r → guard r = false) → (σ'.draft k f).Good G →
      (σ'.draft k f).held = D.held → (σ'.draft k f).entries = D.entries → Q false σ' ()) :
    (update k guard set).safe (.ofRecord k f Fits Ok) i Q R σ () := by
  have hobject : ∀ o, G o → G (if guard o then set o else o) := by
    intro o ho
    split
    · exact hset o ho
    · exact ho
  refine safe_recordUpdate hD (fun st E x σ' r _ hs _ hv hg hdraft => ?_)
    fun st E x σ' hE hs hok hmiss hdraft => ?_
  · have hgood' := hgood.write E (hset r (hgood.view hG hs hv)) hobject
    rw [← hdraft] at hgood'
    refine hit E r σ' hs hv hg hgood' ?_ (congrArg Draft.entries hdraft :)
    rw [← hs.base]
    exact (congrArg Draft.held hdraft :)
  · have hgood' := hgood.touch hobject
    rw [← hdraft] at hgood'
    exact miss st E x σ' hE hs hok hmiss hgood' (congrArg Draft.held hdraft :)
      (congrArg Draft.entries hdraft :)

/-- A session that begins by locking the row. -/
theorem safe_recordLockFirst {Q : Option (S.Row k) → Session S → Unit → Prop}
    (hD : σ.draft k f = .blank)
    (hnone : ∀ (E : Record S k ρ) (σ' : Session S), Fits E → E.row = none →
      σ'.draft k f = .blank → Q none σ' ())
    (hsome : ∀ (r : S.Row k) (σ' : Session S), G r → (σ'.draft k f).Good G →
      (σ'.draft k f).held = some ⟨some r, some r⟩ → (σ'.draft k f).entries = [] →
      Q (some r) σ' ()) :
    (selectForUpdate k).safe (.ofRecord k f Fits Ok) i Q R σ () := by
  refine safe_recordLock hD fun st E x σ' _ hs _ hdraft => ?_
  have hview : (Draft.blank : Draft S k ρ).view E = E.row := rfl
  cases hrow : E.row with
  | none =>
      rw [Draft.lock, hview, hrow] at hdraft
      rw [Draft.object, hview, hrow]
      exact hnone E σ' hs.fits hrow hdraft
  | some r =>
      have hgood := Draft.good_blank.lock hG hs
      rw [← hdraft] at hgood
      rw [Draft.lock, hview, hrow, hs.base, hrow] at hdraft
      rw [Draft.object, hview, hrow]
      exact hsome r σ' (hG E hs.fits r hrow) hgood (congrArg Draft.held hdraft :)
        (congrArg Draft.entries hdraft :)

end Good

/-- The objects a query lists are those of rows that the session sees. If it lists the record, the
row matched when the query ran. -/
theorem safe_recordQuery {p : (k : S.Key) → S.Row k → Bool}
    {Q : List (Σ k, S.Row k) → Session S → Unit → Prop} (hD : σ.draft k f = D)
    (h : ∀ l σ', D.Later Fits (σ'.draft k f) → (l.map Sigma.fst).Nodup →
      (∀ r, ⟨k, r⟩ ∈ l → D.Seen Fits r ∧
        ∃ E r', D.Sees Fits E ∧ D.view E = some r' ∧ p k r' = true) →
      Q l σ' ()) :
    (query p).safe (.ofRecord k f Fits Ok) i Q R σ () := by
  subst hD
  let Good : (k' : S.Key) → S.Row k' → Prop := fun k' r =>
    ∀ hk : k' = k, (σ.draft k f).Seen Fits (hk ▸ r)
  have hknows : (Protocol.ofRecord k f Fits Ok).Knows i σ () Good := by
    rintro st γ hs k' r hv rfl
    exact .inr ⟨_, sees_record hs, hv⟩
  have hloaded : ∀ k' o, σ.loaded k' = some o → Good k' o := by
    rintro k' o ho rfl
    exact .inl ho
  refine safe_query hknows hloaded fun l loaded hnodup hl hmatched _ hload => ?_
  refine h l _ ⟨rfl, rfl, fun o ho => hload k o ho rfl⟩ hnodup fun r hr => ⟨hl _ hr rfl, ?_⟩
  obtain ⟨st, γ, r', hs, hv, hp⟩ := hmatched _ hr
  exact ⟨_, r', sees_record hs, hv, hp⟩

/-- A loop over a list that has the record at most once: it comes to the record as the draft was
before the loop. -/
theorem safe_sweep {γ κ : Type} [DecidableEq κ] (name : γ → κ) (me : κ) {body : γ → Prog S Bool}
    {E : Draft S k ρ → Prop} {l : List γ} (hnodup : (l.map name).Nodup)
    (hD : σ.draft k f = D)
    (hlater : ∀ D D', E D → D.Later Fits D' → E D')
    (hother : ∀ a, name a ≠ me → (body a).only (Stmt.off (· = k) f))
    (hself : ∀ a ∈ l, name a = me → ∀ σ' : Session S, D.Later Fits (σ'.draft k f) →
      (body a).safe (.ofRecord k f Fits Ok) i (fun _ σ'' _ => E (σ''.draft k f)) R σ' ())
    (hdone : E D) (hR : ∀ e σ', R e σ' ()) :
    (tally l body).safe (.ofRecord k f Fits Ok) i (fun _ σ' _ => E (σ'.draft k f)) R σ () := by
  have main : ∀ (l' : List γ) (σ' : Session S), (∀ a ∈ l', a ∈ l) → (l'.map name).Nodup →
      E (σ'.draft k f) → (me ∈ l'.map name → D.Later Fits (σ'.draft k f)) →
      (tally l' body).safe (.ofRecord k f Fits Ok) i (fun _ σ'' _ => E (σ''.draft k f)) R
        σ' () := by
    intro l'
    induction l' with
    | nil => exact fun σ' _ _ hd _ => hd
    | cons a l' ih =>
        intro σ' hsub hnd hd hfresh
        rw [List.map_cons, List.nodup_cons] at hnd
        have hsub' : ∀ b ∈ l', b ∈ l := fun b hb => hsub b (List.mem_cons_of_mem _ hb)
        by_cases ha : name a = me
        · refine safe_bind (safe_mono (hself a (hsub a List.mem_cons_self) ha σ'
            (hfresh (by simp [ha]))) (fun _ σ'' _ hd' => safe_bind ?_) fun _ _ _ h => h)
          refine safe_mono (ih σ'' hsub' hnd.2 hd' fun hmem => ?_) (fun _ _ _ h => h)
            fun _ _ _ h => h
          exact absurd (ha ▸ hmem) hnd.1
        · refine safe_bind (safe_apart (hother a ha) rfl (fun _ σ'' hl => safe_bind ?_) hR)
          refine safe_mono (ih σ'' hsub' hnd.2 (hlater _ _ hd hl) fun hmem => ?_)
            (fun _ _ _ h => h) fun _ _ _ h => h
          exact (hfresh (List.mem_cons_of_mem _ hmem)).trans hl
  exact main l σ (fun _ h => h) hnodup (hD.symm ▸ hdone) fun _ => hD ▸ .refl _

end Prog

end Txn
