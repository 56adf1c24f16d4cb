import Sthrip.Audit.Encoding

set_option autoImplicit false

/-! # Tampering with the audit log

What an edit of the table does to the verification of a chain that was only ever appended to. A
table verifies iff its rows are linked and each carries the HMAC of its own fields (`check_ok`). A
changed field breaks the HMAC, and a row that is gone or out of its place breaks the links: the HMACs
in the table are all different, so only the chain as it was written, or a front part of it, is linked.
-/

namespace Sthrip.Audit

open Chain

variable {hmac : ByteArray → ByteArray → Digest} {key : String} {rows : List AuditLog}

/-! ## What a verification says -/

variable (hmac key) in
/-- The verification has found a bad row. -/
theorem check_bad (c : Check) (hc : c.ok = false) (l : List AuditLog) :
    (l.foldl (checkRow hmac key) c).ok = false ∧
      (l.foldl (checkRow hmac key) c).first_bad_id = c.first_bad_id := by
  induction l generalizing c with
  | nil => exact ⟨hc, rfl⟩
  | cons r l ih =>
      have hstep : (checkRow hmac key c r).ok = false ∧
          (checkRow hmac key c r).first_bad_id = c.first_bad_id := by
        by_cases hp : r.prev_hmac = some c.expected_prev_hmac
        · simp [checkRow, hc, hp]
        · simp [checkRow, hc, hp]
      obtain ⟨hok, hid⟩ := ih _ hstep.1
      exact ⟨hok, hid.trans hstep.2⟩

/-- A row that names what is expected and carries its own HMAC passes. -/
theorem check_good {g : String} {r : AuditLog} (hp : r.prev_hmac = some g)
    (he : r.entry_hmac = some (r.recomputed hmac key g)) :
    checkRow hmac key ⟨g, true, none⟩ r = ⟨r.recomputed hmac key g, true, none⟩ := by
  have hne : r.recomputed hmac key g ≠ "" := Digest.hex_ne_empty _
  simp [checkRow, hp, he, orElse, hne]

/-- A row that names something else, or carries another HMAC, is found. -/
theorem check_wrong {g : String} {r : AuditLog}
    (h : ¬(r.prev_hmac = some g ∧ r.entry_hmac = some (r.recomputed hmac key g))) :
    (checkRow hmac key ⟨g, true, none⟩ r).ok = false ∧
      (checkRow hmac key ⟨g, true, none⟩ r).first_bad_id = some r.id := by
  by_cases hp : r.prev_hmac = some g
  · have he : ¬r.entry_hmac = some (r.recomputed hmac key g) := fun he => h ⟨hp, he⟩
    simp [checkRow, hp, he]
  · simp [checkRow, hp]

/-- A list of rows that verifies is linked and sealed. -/
theorem check_ok {g : String} {l : List AuditLog}
    (h : (l.foldl (checkRow hmac key) ⟨g, true, none⟩).ok = true) :
    Chain.Linked AuditLog.prev_hmac AuditLog.entry_hmac (some g) l ∧ ∀ r ∈ l, Sealed hmac key r := by
  induction l generalizing g with
  | nil => exact ⟨trivial, fun r hr => by cases hr⟩
  | cons r l ih =>
      by_cases hr : r.prev_hmac = some g ∧ r.entry_hmac = some (r.recomputed hmac key g)
      · rw [List.foldl_cons, check_good hr.1 hr.2] at h
        obtain ⟨hl, hs⟩ := ih h
        refine ⟨⟨hr.1, hr.2 ▸ hl⟩, fun r' hr' => ?_⟩
        rcases List.mem_cons.mp hr' with rfl | hr'
        · exact ⟨g, hr.1, hr.2⟩
        · exact hs r' hr'
      · have hbad := (check_bad hmac key _ (check_wrong hr).1 l).1
        rw [List.foldl_cons, hbad] at h
        cases h

/-- Where the verification of a good front part ends. -/
theorem check_front {g : String} {l : List AuditLog}
    (h : Chain.Linked AuditLog.prev_hmac AuditLog.entry_hmac (some g) l)
    (hs : ∀ r ∈ l, Sealed hmac key r) :
    ∃ e, l.foldl (checkRow hmac key) ⟨g, true, none⟩ = ⟨e, true, none⟩ ∧
      some e = tip AuditLog.entry_hmac (some g) l := by
  induction l generalizing g with
  | nil => exact ⟨g, rfl, rfl⟩
  | cons r l ih =>
      obtain ⟨hprev, hlink⟩ := h
      obtain ⟨p, hp, he⟩ := hs r List.mem_cons_self
      obtain rfl : p = g := Option.some.inj (hp.symm.trans hprev)
      rw [he] at hlink
      obtain ⟨e, hfold, htip⟩ := ih hlink fun r hr => hs r (List.mem_cons_of_mem _ hr)
      refine ⟨e, ?_, ?_⟩
      · rw [List.foldl_cons, check_good hp he, hfold]
      · rw [tip_cons, he, htip]

variable (hmac key) in
/-- The first bad row comes after a good front part. -/
theorem check_first {front : List AuditLog} (r : AuditLog) (rest : List AuditLog) {g : String}
    (h : Chain.Linked AuditLog.prev_hmac AuditLog.entry_hmac (some g) front)
    (hs : ∀ r ∈ front, Sealed hmac key r)
    (hr : ∀ p, some p = tip AuditLog.entry_hmac (some g) front →
      ¬(r.prev_hmac = some p ∧ r.entry_hmac = some (r.recomputed hmac key p))) :
    ((front ++ r :: rest).foldl (checkRow hmac key) ⟨g, true, none⟩).ok = false ∧
      ((front ++ r :: rest).foldl (checkRow hmac key) ⟨g, true, none⟩).first_bad_id = some r.id := by
  obtain ⟨e, hfold, htip⟩ := check_front h hs
  obtain ⟨hok, hid⟩ := check_wrong (hr e htip)
  rw [List.foldl_append, hfold, List.foldl_cons]
  obtain ⟨hok', hid'⟩ := check_bad hmac key _ hok rest
  exact ⟨hok', hid'.trans hid⟩

/-! ## A chain that was only appended to -/

/-- The rows that `log_event` has written, in the order in which it wrote them. -/
structure Logged (hmac : ByteArray → ByteArray → Digest) (key : String) (rows : List AuditLog) :
    Prop where
  chain : Chain.Linked AuditLog.prev_hmac AuditLog.entry_hmac (some GENESIS_HMAC) rows
  increasing : rows.Pairwise (·.created_at < ·.created_at)
  sealed : ∀ r ∈ rows, Sealed hmac key r
  ids : (rows.map (·.id)).Nodup
  hmacs : (rows.map (·.entry_hmac)).Nodup

theorem Logged.linked (h : Logged hmac key rows) : ∀ r ∈ rows, r.linked = true :=
  fun r hr => (h.sealed r hr).linked

theorem Logged.links_eq (h : Logged hmac key rows) : links rows = rows :=
  List.filter_eq_self.mpr h.linked

theorem Logged.intact (h : Logged hmac key rows) : Intact hmac key rows where
  chain := by rw [h.links_eq]; exact h.chain
  increasing := by rw [h.links_eq]; exact h.increasing
  sealed := fun r hr => .inr (h.sealed r hr)

/-- An event is appended, or refused. -/
theorem Logged.log (h : Logged hmac key rows) {e : Event} {o : Occasion}
    (hlt : ∀ r ∈ rows, r.created_at < o.now) : Logged hmac key (logEvent hmac key e o rows) := by
  unfold logEvent
  split
  · exact h
  · unfold insertRow
    split
    · exact h
    · next hid =>
        split
        · exact h
        · next hhmac =>
            have hharmless : (Op.log e o).Harmless rows := by
              rintro ⟨r, hr, -⟩
              have hlast : newest rows ≠ none := by
                rw [newest, Ne, List.getLast?_eq_none_iff]
                intro hnil
                have hmem := (List.mem_insertionSort AuditLog.le).mpr hr
                rw [hnil] at hmem
                cases hmem
              obtain ⟨last, hlast⟩ := Option.ne_none_iff_exists'.mp hlast
              rw [hlast]
              have hmem : last ∈ rows :=
                (List.mem_insertionSort AuditLog.le).mp (List.mem_of_getLast? hlast)
              exact h.linked last hmem
            have hnew := h.intact.log hharmless fun r hr _ => hlt r hr
            have hseal : ∀ r ∈ rows ++ [entry hmac key e o rows], Sealed hmac key r := by
              intro r hr
              refine (hnew.sealed r hr).resolve_left fun hnone => ?_
              rcases List.mem_append.mp hr with hr | hr
              · have := h.linked r hr
                rw [AuditLog.linked, hnone] at this
                cases this
              · rw [List.mem_singleton.mp hr] at hnone
                cases hnone
            have hall : links (rows ++ [entry hmac key e o rows])
                = rows ++ [entry hmac key e o rows] :=
              List.filter_eq_self.mpr fun r hr => (hseal r hr).linked
            have hchain := hnew.chain
            have hinc := hnew.increasing
            rw [hall] at hchain hinc
            rw [List.any_eq_true, not_exists] at hid
            rw [Bool.and_eq_true, not_and, List.any_eq_true, not_exists] at hhmac
            refine ⟨hchain, hinc, hseal, ?_, ?_⟩
            · show ((rows ++ [entry hmac key e o rows]).map (·.id)).Nodup
              rw [List.map_append, List.nodup_append]
              refine ⟨h.ids, List.nodup_singleton _, fun a ha b hb hab => ?_⟩
              obtain ⟨r, hr, rfl⟩ := List.mem_map.mp ha
              rw [List.map_singleton, List.mem_singleton] at hb
              exact hid r ⟨hr, decide_eq_true (hab.trans hb)⟩
            · show ((rows ++ [entry hmac key e o rows]).map (·.entry_hmac)).Nodup
              rw [List.map_append, List.nodup_append]
              refine ⟨h.hmacs, List.nodup_singleton _, fun a ha b hb hab => ?_⟩
              obtain ⟨r, hr, rfl⟩ := List.mem_map.mp ha
              rw [List.map_singleton, List.mem_singleton] at hb
              exact hhmac rfl r ⟨hr, decide_eq_true (hab.trans hb)⟩

/-- The events of a chain. -/
def eventsOf (events : List (Event × Occasion)) : List Op := events.map fun x => .log x.1 x.2

theorem Logged.created {e : Event} {o : Occasion} {r : AuditLog}
    (hr : r ∈ logEvent hmac key e o rows) : r ∈ rows ∨ r.created_at = o.now := by
  unfold logEvent insertRow at hr
  split at hr
  · exact .inl hr
  · split at hr
    · exact .inl hr
    · split at hr
      · exact .inl hr
      · rcases List.mem_append.mp hr with hr | hr
        · exact .inl hr
        · rw [List.mem_singleton.mp hr]
          exact .inr rfl

/-- The run lemma: a chain of events with increasing timestamps. -/
theorem Logged.events {events : List (Event × Occasion)} (h : Logged hmac key rows)
    (hinc : (events.map (·.2.now)).Pairwise (· < ·))
    (hlt : ∀ x ∈ events, ∀ r ∈ rows, r.created_at < x.2.now) :
    Logged hmac key ((eventsOf events).foldl (Op.run hmac key) rows) := by
  induction events generalizing rows with
  | nil => exact h
  | cons x events ih =>
      obtain ⟨hx, hinc⟩ := List.pairwise_cons.mp hinc
      have hnext : Logged hmac key (logEvent hmac key x.1 x.2 rows) :=
        h.log fun r hr => hlt x (List.mem_cons_self ..) r hr
      refine ih hnext hinc fun y hy r hr => ?_
      rcases Logged.created hr with hr | hr
      · exact hlt y (List.mem_cons_of_mem _ hy) r hr
      · rw [hr]
        exact hx y.2.now (List.mem_map_of_mem hy)

theorem logged_tableAfter (hmac : ByteArray → ByteArray → Digest) (key : String)
    {events : List (Event × Occasion)} (hinc : (events.map (·.2.now)).Pairwise (· < ·)) :
    Logged hmac key (tableAfter hmac key (eventsOf events)) := by
  have hempty : Logged hmac key [] :=
    ⟨trivial, List.Pairwise.nil, fun r hr => (by cases hr), List.nodup_nil, List.nodup_nil⟩
  exact hempty.events hinc fun x _ r hr => by cases hr

/-! ## Edits -/

/-- A field of a row gets another value. -/
inductive FieldEdit
  | action (value : String)
  | agent_id (value : Option UUID)
  | ip_hmac (value : Option Digest)
  | request_body (value : Option Json)
  | created_at (value : DateTime)

def FieldEdit.apply : FieldEdit → AuditLog → AuditLog
  | .action value, r => { r with action := value }
  | .agent_id value, r => { r with agent_id := value }
  | .ip_hmac value, r => { r with ip_hmac := value }
  | .request_body value, r => { r with request_body := value }
  | .created_at value, r => { r with created_at := value }

/-- An edit of the table, on rows named by their ids. -/
inductive Edit
  | field (id : UUID) (edit : FieldEdit)
  | delete (id : UUID)
  | exchange (a b : AuditLog)
  | clearPrev (id : UUID)
  | clearEntry (id : UUID)

/-- Change the row with the id. -/
def onRow (id : UUID) (f : AuditLog → AuditLog) (rows : List AuditLog) : List AuditLog :=
  rows.map fun r => if r.id = id then f r else r

def Edit.apply (rows : List AuditLog) : Edit → List AuditLog
  | .field id edit => onRow id edit.apply rows
  | .delete id => rows.filter fun r => r.id ≠ id
  | .exchange a b =>
      rows.map fun r =>
        if r.id = a.id then { r with created_at := b.created_at }
        else if r.id = b.id then { r with created_at := a.created_at }
        else r
  | .clearPrev id => onRow id (fun r => { r with prev_hmac := none }) rows
  | .clearEntry id => onRow id (fun r => { r with entry_hmac := none }) rows

/-- The edits the claim is about: a field gets a value with another encoding, the row that is deleted
or loses its HMAC is not the last one, two rows exchange their timestamps. -/
def Edit.Tampers (rows : List AuditLog) : Edit → Prop
  | .field id edit => ∃ r ∈ rows, r.id = id ∧ (edit.apply r).fields ≠ r.fields
  | .delete id => ∃ front r next rest, rows = front ++ r :: next :: rest ∧ r.id = id
  | .exchange a b => a ∈ rows ∧ b ∈ rows ∧ a.id ≠ b.id
  | .clearPrev id => ∃ r ∈ rows, r.id = id
  | .clearEntry id => ∃ front r next rest, rows = front ++ r :: next :: rest ∧ r.id = id

/-- The row that a verification is to name: a changed one that is still read in its place, and the
successor of a deleted one. -/
def Edit.Names (rows : List AuditLog) (bad : UUID) : Edit → Prop
  | .field id edit =>
      bad = id ∧ (onRow id edit.apply rows).insertionSort AuditLog.le = onRow id edit.apply rows
  | .delete id => ∃ front r next rest, rows = front ++ r :: next :: rest ∧ r.id = id ∧ bad = next.id
  | .exchange _ _ => False
  | .clearPrev _ => False
  | .clearEntry _ => False

/-- The messages signed for the rows of a table. -/
def messages (rows : List AuditLog) : List ByteArray :=
  rows.filterMap fun r => r.prev_hmac.map fun p => r.message p

/-- What is asked of the HMAC: on the messages `l` it has no collision, and does not give the genesis
sentinel. -/
structure Ideal (hmac : ByteArray → ByteArray → Digest) (key : String) (l : List ByteArray) : Prop where
  inj : ∀ m ∈ l, ∀ m' ∈ l, hmac key.toUTF8 m = hmac key.toUTF8 m' → m = m'
  genesis : ∀ m ∈ l, (hmac key.toUTF8 m).hex ≠ GENESIS_HMAC

theorem mem_messages {r : AuditLog} {p : String} (hr : r ∈ rows) (hp : r.prev_hmac = some p) :
    r.message p ∈ messages rows :=
  List.mem_filterMap.mpr ⟨r, hr, by rw [hp]; rfl⟩

/-- The links of the chain are different from each other, and from the genesis sentinel. -/
theorem Logged.distinct (h : Logged hmac key rows) (hideal : Ideal hmac key (messages rows)) :
    (some GENESIS_HMAC :: rows.map (·.entry_hmac)).Nodup := by
  refine List.nodup_cons.mpr ⟨fun hmem => ?_, h.hmacs⟩
  obtain ⟨r, hr, heq⟩ := List.mem_map.mp hmem
  obtain ⟨p, hp, he⟩ := h.sealed r hr
  rw [he, Option.some.injEq, recomputed_eq] at heq
  exact hideal.genesis _ (mem_messages hr hp) heq

/-- What a row names has no NUL. -/
theorem Logged.prev_noNul (h : Logged hmac key rows) {r : AuditLog} (hr : r ∈ rows) {p : String}
    (hp : r.prev_hmac = some p) : NoNul p := by
  rcases h.chain.prev_mem hr with heq | hmem
  · rw [hp, Option.some.injEq] at heq
    rw [heq]
    unfold NoNul
    decide
  · obtain ⟨r', hr', heq⟩ := List.mem_map.mp hmem
    obtain ⟨p', -, he⟩ := h.sealed r' hr'
    rw [he, hp, Option.some.injEq] at heq
    rw [← heq]
    exact Digest.hex_noNul _

/-! ### Changed fields -/

theorem onRow_eq {id : UUID} {f : AuditLog → AuditLog} {front rest : List AuditLog} {r : AuditLog}
    (hids : ((front ++ r :: rest).map (·.id)).Nodup) (hr : r.id = id) :
    onRow id f (front ++ r :: rest) = front ++ f r :: rest := by
  rw [List.map_append, List.map_cons, List.nodup_append, List.nodup_cons] at hids
  obtain ⟨-, ⟨hrest, -⟩, hfront⟩ := hids
  have hsame : ∀ l : List AuditLog, (∀ r' ∈ l, r'.id ≠ id) → onRow id f l = l := by
    intro l hl
    refine (List.map_congr_left fun r' hr' => if_neg (hl r' hr')).trans (List.map_id l)
  have hfront' : onRow id f front = front := by
    refine hsame front fun r' hr' heq => ?_
    exact hfront r'.id (List.mem_map_of_mem hr') r.id (List.mem_cons_self ..) (heq.trans hr.symm)
  have hrest' : onRow id f rest = rest := by
    refine hsame rest fun r' hr' heq => ?_
    exact hrest (hr ▸ heq ▸ List.mem_map_of_mem hr')
  unfold onRow at hfront' hrest' ⊢
  rw [List.map_append, List.map_cons, hfront', hrest', if_pos hr]

theorem delete_eq {id : UUID} {front rest : List AuditLog} {r : AuditLog}
    (hids : ((front ++ r :: rest).map (·.id)).Nodup) (hr : r.id = id) :
    (Edit.delete id).apply (front ++ r :: rest) = front ++ rest := by
  rw [List.map_append, List.map_cons, List.nodup_append, List.nodup_cons] at hids
  obtain ⟨-, ⟨hrest, -⟩, hfront⟩ := hids
  rw [Edit.apply, List.filter_append, List.filter_cons, if_neg (by simp [hr])]
  congr 1
  · refine List.filter_eq_self.mpr fun r' hr' => decide_eq_true fun heq => ?_
    exact hfront r'.id (List.mem_map_of_mem hr') r.id (List.mem_cons_self ..) (heq.trans hr.symm)
  · refine List.filter_eq_self.mpr fun r' hr' => decide_eq_true fun heq => ?_
    exact hrest (hr ▸ heq ▸ List.mem_map_of_mem hr')

theorem FieldEdit.apply_prev (edit : FieldEdit) (r : AuditLog) :
    (edit.apply r).prev_hmac = r.prev_hmac := by cases edit <;> rfl

theorem FieldEdit.apply_entry (edit : FieldEdit) (r : AuditLog) :
    (edit.apply r).entry_hmac = r.entry_hmac := by cases edit <;> rfl

theorem FieldEdit.apply_id (edit : FieldEdit) (r : AuditLog) : (edit.apply r).id = r.id := by
  cases edit <;> rfl

/-- A row whose fields are encoded otherwise does not carry its own HMAC any more. -/
theorem Logged.field_unsealed (h : Logged hmac key rows) {r r' : AuditLog} (hr : r ∈ rows)
    {l : List ByteArray} (hideal : Ideal hmac key l) (hmem : messages rows ⊆ l)
    (hmem' : ∀ p, r'.prev_hmac = some p → r'.message p ∈ l) (hclean : r.Clean) (hclean' : r'.Clean)
    (hprev : r'.prev_hmac = r.prev_hmac) (hentry : r'.entry_hmac = r.entry_hmac)
    (hfields : r'.fields ≠ r.fields) {p : String} (hp : r'.prev_hmac = some p) :
    r'.entry_hmac ≠ some (r'.recomputed hmac key p) := by
  intro he'
  obtain ⟨p₀, hp₀, he⟩ := h.sealed r hr
  obtain rfl : p₀ = p := by
    rw [hprev, hp₀, Option.some.injEq] at hp
    exact hp
  rw [hentry, he, Option.some.injEq, recomputed_eq, recomputed_eq] at he'
  have hmsg := hideal.inj _ (hmem (mem_messages hr hp₀)) _ (hmem' p₀ hp) (Digest.hex_inj he')
  exact hfields (message_inj (h.prev_noNul hr hp₀) (h.prev_noNul hr hp₀) hclean hclean' hmsg).symm

/-- An edit that leaves a row with its old entry, and without its seal, is noticed. -/
theorem noticed {rows' : List AuditLog} {r' : AuditLog} (hr' : r' ∈ rows') (hl : r'.linked = true)
    (hs : ¬Sealed hmac key r') : (verifyChain hmac key none rows').ok = false := by
  by_contra hok
  rw [Bool.not_eq_false] at hok
  have hread : r' ∈ (rows'.insertionSort AuditLog.le).filter AuditLog.linked :=
    List.mem_filter.mpr ⟨(List.mem_insertionSort AuditLog.le).mpr hr', hl⟩
  exact hs ((check_ok hok).2 r' hread)

/-! ### Rows that are gone -/

/-- What is read of a table whose chain keeps the order of its timestamps. -/
theorem read_eq {rows' l : List AuditLog} (hl : rows'.filter AuditLog.linked = l)
    (hinc : l.Pairwise (·.created_at < ·.created_at)) :
    (rows'.insertionSort AuditLog.le).filter AuditLog.linked = l := by
  subst hl
  refine filter_insertionSort rows' (hinc.imp fun {a b} hab => ⟨.inl hab, ?_⟩)
  rintro (hba | ⟨hba, -⟩)
  · exact absurd hab (Nat.lt_asymm hba)
  · exact absurd hba.symm (Nat.ne_of_lt hab)

/-- When a row is not read any more, its successor is found. -/
theorem Logged.gap {front rest rows' : List AuditLog} {r next : AuditLog}
    (h : Logged hmac key (front ++ r :: next :: rest))
    (hideal : Ideal hmac key (messages (front ++ r :: next :: rest)))
    (hread : rows'.filter AuditLog.linked = front ++ next :: rest) :
    (verifyChain hmac key none rows').ok = false ∧
      (verifyChain hmac key none rows').first_bad_id = some next.id := by
  have hsub : (front ++ next :: rest).Sublist (front ++ r :: next :: rest) :=
    (List.Sublist.refl front).append (List.sublist_cons_self r _)
  have hsealed : ∀ r' ∈ front, Sealed hmac key r' :=
    fun r' hr' => h.sealed r' (List.mem_append_left _ hr')
  obtain ⟨hfront, -, hnext, -⟩ := linked_append.mp h.chain
  have hdistinct := h.distinct hideal
  rw [List.map_append, List.map_cons, ← List.cons_append] at hdistinct
  have hout : r.entry_hmac ∉ some GENESIS_HMAC :: front.map (·.entry_hmac) :=
    fun hmem => (List.nodup_append.mp hdistinct).2.2 _ hmem _ (List.mem_cons_self ..) rfl
  have hfirst := check_first hmac key next rest hfront hsealed <| by
    rintro p htip ⟨hp, -⟩
    apply hout
    rw [← hnext, hp, htip]
    exact tip_mem
  rw [← read_eq hread (h.increasing.sublist hsub)] at hfirst
  exact hfirst

/-! ### Rows out of their places -/

/-- In a table that verifies, rows whose links are as they were are read in the order in which they
were written. -/
theorem Logged.order (h : Logged hmac key rows) (hideal : Ideal hmac key (messages rows))
    {f : AuditLog → AuditLog} (hprev : ∀ r, (f r).prev_hmac = r.prev_hmac)
    (hentry : ∀ r, (f r).entry_hmac = r.entry_hmac)
    (hok : (verifyChain hmac key none (rows.map f)).ok = true) {x y : AuditLog}
    (hxy : [x, y].Sublist rows) : (f x).le (f y) := by
  have hall : ∀ r' ∈ rows.map f, r'.linked = true := by
    intro r' hr'
    obtain ⟨r, hr, rfl⟩ := List.mem_map.mp hr'
    rw [AuditLog.linked, hentry]
    exact h.linked r hr
  have hread : ((rows.map f).insertionSort AuditLog.le).filter AuditLog.linked
      = (rows.map f).insertionSort AuditLog.le :=
    List.filter_eq_self.mpr fun r' hr' => hall r' ((List.mem_insertionSort AuditLog.le).mp hr')
  have hlinked := (check_ok hok).1
  rw [hread] at hlinked
  have hprefix := h.chain.prefix hlinked (fun r' hr' => by
    obtain ⟨r, hr, rfl⟩ := List.mem_map.mp ((List.mem_insertionSort AuditLog.le).mp hr')
    exact ⟨r, hr, (hprev r).symm, (hentry r).symm⟩) (h.distinct hideal)
  have hlength : (((rows.map f).insertionSort AuditLog.le).map (·.entry_hmac)).length
      = (rows.map (·.entry_hmac)).length := by
    rw [List.length_map, List.length_insertionSort, List.length_map, List.length_map]
  have hsame := hprefix.eq_of_length hlength
  have hpair := hxy.map (·.entry_hmac)
  rw [← hsame, List.sublist_map_iff] at hpair
  obtain ⟨l, hl, heq⟩ := hpair
  obtain ⟨x', l, rfl, hx', htail⟩ := List.map_eq_cons_iff.mp heq.symm
  obtain ⟨y', l, rfl, hy', hnil⟩ := List.map_eq_cons_iff.mp htail
  obtain rfl := List.map_eq_nil_iff.mp hnil
  -- a row that is read is determined by its entry
  have hdet : ∀ z ∈ rows, ∀ z' ∈ [x', y'], z'.entry_hmac = z.entry_hmac → z' = f z := by
    intro z hz z' hz' hzz
    obtain ⟨w, hw, rfl⟩ :=
      List.mem_map.mp ((List.mem_insertionSort AuditLog.le).mp (hl.subset hz'))
    rw [hentry] at hzz
    rw [List.inj_on_of_nodup_map h.hmacs hw hz hzz]
  have hx : x' = f x := hdet x (hxy.subset (by simp)) x' (by simp) hx'
  have hy : y' = f y := hdet y (hxy.subset (by simp)) y' (by simp) hy'
  have hsorted := (List.pairwise_insertionSort AuditLog.le (rows.map f)).sublist hl
  rw [← hx, ← hy]
  exact List.rel_of_pairwise_cons hsorted (List.mem_singleton_self y')

/-- Two rows of a list, in the order in which they stand. -/
theorem sublist_or {a b : AuditLog} (ha : a ∈ rows) (hb : b ∈ rows) (hne : a ≠ b) :
    [a, b].Sublist rows ∨ [b, a].Sublist rows := by
  obtain ⟨front, rest, rfl⟩ := List.append_of_mem ha
  rcases List.mem_append.mp hb with hb | hb
  · refine .inr ?_
    exact (List.singleton_sublist.mpr hb).append (List.singleton_sublist.mpr (List.mem_cons_self ..))
  · have hb : b ∈ rest := (List.mem_cons.mp hb).resolve_left fun h => hne h.symm
    refine .inl (List.Sublist.trans ?_ (List.sublist_append_right ..))
    exact (List.singleton_sublist.mpr hb).cons_cons a

/-! ## Every edit is noticed -/

section Cases

variable (h : Logged hmac key rows)
include h

theorem Logged.field_noticed {id : UUID} {edit : FieldEdit}
    (htamper : (Edit.field id edit).Tampers rows) (hclean : ∀ r ∈ rows, r.Clean)
    (hclean' : ∀ r ∈ (Edit.field id edit).apply rows, r.Clean)
    (hideal : Ideal hmac key (messages rows ++ messages ((Edit.field id edit).apply rows))) :
    (verifyChain hmac key none ((Edit.field id edit).apply rows)).ok = false ∧
      ∀ bad, (Edit.field id edit).Names rows bad →
        (verifyChain hmac key none ((Edit.field id edit).apply rows)).first_bad_id = some bad := by
  obtain ⟨r, hr, hid, hfields⟩ := htamper
  have hr' : edit.apply r ∈ onRow id edit.apply rows :=
    List.mem_map.mpr ⟨r, hr, if_pos hid⟩
  have hl : (edit.apply r).linked = true := by
    rw [AuditLog.linked, FieldEdit.apply_entry]
    exact h.linked r hr
  have hunsealed : ∀ p, (edit.apply r).prev_hmac = some p →
      (edit.apply r).entry_hmac ≠ some ((edit.apply r).recomputed hmac key p) := by
    intro p hp
    refine h.field_unsealed hr hideal (List.subset_append_left _ _) ?_ (hclean r hr)
      (hclean' _ hr') (edit.apply_prev r) (edit.apply_entry r) hfields hp
    exact fun q hq => List.mem_append_right _ (mem_messages hr' hq)
  have hseal : ¬Sealed hmac key (edit.apply r) := by
    rintro ⟨p, hp, he⟩
    exact hunsealed p hp he
  refine ⟨noticed hr' hl hseal, ?_⟩
  rintro bad ⟨rfl, hplace⟩
  obtain ⟨front, rest, hrows⟩ := List.append_of_mem hr
  have hids := h.ids
  have hchain := h.chain
  rw [hrows] at hids hchain
  have hfront : ∀ r' ∈ front, Sealed hmac key r' := by
    intro r' hr'
    exact h.sealed r' (hrows ▸ List.mem_append_left _ hr')
  have hlinked : ∀ r' ∈ onRow bad edit.apply rows, r'.linked = true := by
    intro r' hr'
    obtain ⟨r₀, hr₀, rfl⟩ := List.mem_map.mp hr'
    split
    · rw [AuditLog.linked, FieldEdit.apply_entry]
      exact h.linked r₀ hr₀
    · exact h.linked r₀ hr₀
  have hread : ((onRow bad edit.apply rows).insertionSort AuditLog.le).filter AuditLog.linked
      = front ++ edit.apply r :: rest := by
    rw [hplace, List.filter_eq_self.mpr hlinked, hrows]
    exact onRow_eq hids hid
  obtain ⟨-, hbad⟩ := check_first hmac key (edit.apply r) rest
    (linked_append.mp hchain).1 hfront fun p _ hp => hunsealed p hp.1 hp.2
  rw [← hread, FieldEdit.apply_id, hid] at hbad
  exact hbad

theorem Logged.delete_noticed {id : UUID} (htamper : (Edit.delete id).Tampers rows)
    (hideal : Ideal hmac key (messages rows)) :
    (verifyChain hmac key none ((Edit.delete id).apply rows)).ok = false ∧
      ∀ bad, (Edit.delete id).Names rows bad →
        (verifyChain hmac key none ((Edit.delete id).apply rows)).first_bad_id = some bad := by
  have hgone : ∀ front r next rest, rows = front ++ r :: next :: rest → r.id = id →
      (verifyChain hmac key none ((Edit.delete id).apply rows)).ok = false ∧
        (verifyChain hmac key none ((Edit.delete id).apply rows)).first_bad_id = some next.id := by
    intro front r next rest hrows hid
    have hread : ((Edit.delete id).apply rows).filter AuditLog.linked = front ++ next :: rest := by
      have hlinked : ∀ r' ∈ (Edit.delete id).apply rows, r'.linked = true :=
        fun r' hr' => h.linked r' (List.mem_of_mem_filter hr')
      rw [List.filter_eq_self.mpr hlinked, hrows]
      exact delete_eq (hrows ▸ h.ids) hid
    subst hrows
    exact h.gap hideal hread
  obtain ⟨front, r, next, rest, hrows, hid⟩ := htamper
  refine ⟨(hgone front r next rest hrows hid).1, ?_⟩
  rintro bad ⟨front', r', next', rest', hrows', hid', rfl⟩
  exact (hgone front' r' next' rest' hrows' hid').2

theorem Logged.clearEntry_noticed {id : UUID} (htamper : (Edit.clearEntry id).Tampers rows)
    (hideal : Ideal hmac key (messages rows)) :
    (verifyChain hmac key none ((Edit.clearEntry id).apply rows)).ok = false := by
  obtain ⟨front, r, next, rest, rfl, hid⟩ := htamper
  refine (h.gap hideal ?_).1
  have hfront : front.filter AuditLog.linked = front :=
    List.filter_eq_self.mpr fun r' hr' => h.linked r' (List.mem_append_left _ hr')
  have hrest : (next :: rest).filter AuditLog.linked = next :: rest :=
    List.filter_eq_self.mpr fun r' hr' =>
      h.linked r' (List.mem_append_right _ (List.mem_cons_of_mem _ hr'))
  rw [Edit.apply, onRow_eq h.ids hid, List.filter_append,
    List.filter_cons_of_neg (by simp [AuditLog.linked]), hfront, hrest]

theorem Logged.clearPrev_noticed {id : UUID} (htamper : (Edit.clearPrev id).Tampers rows) :
    (verifyChain hmac key none ((Edit.clearPrev id).apply rows)).ok = false := by
  obtain ⟨r, hr, hid⟩ := htamper
  refine noticed (List.mem_map.mpr ⟨r, hr, if_pos hid⟩) ?_ ?_
  · exact h.linked r hr
  · rintro ⟨p, hp, -⟩
    cases hp

theorem Logged.exchange_noticed {a b : AuditLog} (htamper : (Edit.exchange a b).Tampers rows)
    (hideal : Ideal hmac key (messages rows)) :
    (verifyChain hmac key none ((Edit.exchange a b).apply rows)).ok = false := by
  obtain ⟨ha, hb, hne⟩ := htamper
  by_contra hok
  rw [Bool.not_eq_false] at hok
  have horder := fun {x y : AuditLog} => h.order hideal (x := x) (y := y)
    (f := fun r => if r.id = a.id then { r with created_at := b.created_at }
      else if r.id = b.id then { r with created_at := a.created_at } else r)
    (fun r => by split; rfl; split <;> rfl) (fun r => by split; rfl; split <;> rfl) hok
  have hle : ∀ {x y : AuditLog}, x.le y → x.created_at ≤ y.created_at := by
    rintro x y (hlt | ⟨heq, -⟩)
    · exact Nat.le_of_lt hlt
    · exact Nat.le_of_eq heq
  rcases sublist_or ha hb (fun hab => hne (hab ▸ rfl)) with hab | hba
  · have hbefore := List.rel_of_pairwise_cons (h.increasing.sublist hab) (List.mem_singleton_self b)
    have hafter := hle (horder hab)
    rw [if_pos rfl, if_neg (Ne.symm hne), if_pos rfl] at hafter
    exact absurd hbefore (Nat.not_lt.mpr hafter)
  · have hbefore := List.rel_of_pairwise_cons (h.increasing.sublist hba) (List.mem_singleton_self a)
    have hafter := hle (horder hba)
    rw [if_pos rfl, if_neg (Ne.symm hne), if_pos rfl] at hafter
    exact absurd hbefore (Nat.not_lt.mpr hafter)

end Cases

theorem Ideal.mono {l l' : List ByteArray} (h : Ideal hmac key l') (hsub : l ⊆ l') : Ideal hmac key l where
  inj := fun m hm m' hm' => h.inj m (hsub hm) m' (hsub hm')
  genesis := fun m hm => h.genesis m (hsub hm)

/-- No edit of a chain of events with increasing timestamps passes the verification, which names the
row that was changed in its place, and the successor of a row that was deleted. -/
theorem tampering_detected (hmac : ByteArray → ByteArray → Digest) (key : String)
    {events : List (Event × Occasion)} (hinc : (events.map (·.2.now)).Pairwise (· < ·))
    {edit : Edit} (htamper : edit.Tampers (tableAfter hmac key (eventsOf events)))
    (hclean : ∀ r ∈ tableAfter hmac key (eventsOf events), r.Clean)
    (hclean' : ∀ r ∈ edit.apply (tableAfter hmac key (eventsOf events)), r.Clean)
    (hideal : Ideal hmac key (messages (tableAfter hmac key (eventsOf events)) ++
      messages (edit.apply (tableAfter hmac key (eventsOf events))))) :
    (verifyChain hmac key none (edit.apply (tableAfter hmac key (eventsOf events)))).ok = false ∧
      ∀ bad, edit.Names (tableAfter hmac key (eventsOf events)) bad →
        (verifyChain hmac key none
          (edit.apply (tableAfter hmac key (eventsOf events)))).first_bad_id = some bad := by
  have h := logged_tableAfter hmac key hinc
  have hideal' := hideal.mono (List.subset_append_left _ _)
  cases edit with
  | field id edit => exact h.field_noticed htamper hclean hclean' hideal
  | delete id => exact h.delete_noticed htamper hideal'
  | exchange a b => exact ⟨h.exchange_noticed htamper hideal', fun _ => False.elim⟩
  | clearPrev id => exact ⟨h.clearPrev_noticed htamper, fun _ => False.elim⟩
  | clearEntry id => exact ⟨h.clearEntry_noticed htamper hideal', fun _ => False.elim⟩

/-- An event on the first of January 2026 and one on the first of April. -/
def twoOccasions : List (Event × Occasion) :=
  [({ action := "admin.stats_viewed" }, { now := 63902822400000000, id := 1 }),
    ({ action := "agent.key_rotated" }, { now := 63910598400000000, id := 2 })]

/-- The first of the two events is given another action. -/
def renamed : Edit := .field 1 (.action "admin.stats")

/-- HMAC-SHA256 under `sampleKey`, also of the message of the renamed row. -/
def renamedHmac (key message : ByteArray) : Digest :=
  if message.size = 103 then 0xbdef8886ed50497b26c1d9f69c10892782724de938e7e03463232ef14230fbb7
  else sampleHmac key message

theorem tampering_detected_renamed :
    (verifyChain renamedHmac sampleKey none
      (renamed.apply (tableAfter renamedHmac sampleKey (eventsOf twoOccasions)))).ok = false := by
  have hclean : ∀ r ∈ tableAfter renamedHmac sampleKey (eventsOf twoOccasions), r.Clean := by
    unfold AuditLog.Clean NoNul
    decide +kernel
  have hclean' : ∀ r ∈ renamed.apply (tableAfter renamedHmac sampleKey (eventsOf twoOccasions)),
      r.Clean := by
    unfold AuditLog.Clean NoNul
    decide +kernel
  have htamper : renamed.Tampers (tableAfter renamedHmac sampleKey (eventsOf twoOccasions)) := by
    unfold renamed Edit.Tampers
    decide +kernel
  have hideal : Ideal renamedHmac sampleKey
      (messages (tableAfter renamedHmac sampleKey (eventsOf twoOccasions)) ++
        messages (renamed.apply (tableAfter renamedHmac sampleKey (eventsOf twoOccasions)))) := by
    constructor <;> decide +kernel
  exact (tampering_detected renamedHmac sampleKey (by decide) htamper hclean hclean' hideal).1

end Sthrip.Audit
