import Sthrip.Services.PurgeService
import Mathlib.Data.Prod.Lex

set_option autoImplicit false

/-! # Whether the audit chain verifies

A row of the audit log names the HMAC of the row before it, and `verify_chain` follows these names
from the genesis sentinel on. Logging appends to the chain. Purging cuts a front part off, which
leaves rows that name a deleted one, and it leaves a marker without an HMAC, which the next event
takes for the beginning of a new chain. `Op.Harmless` says when neither matters: a purge takes all
of the chain or nothing of it, and an event finds a marker last only when there is no chain.
-/

namespace Sthrip.Audit

open Chain

variable {hmac : ByteArray → ByteArray → Digest} {key : String} {rows : List AuditLog}

/-! ## Runs -/

/-- A call that changes the table. -/
inductive Op
  | log (e : Event) (o : Occasion)
  | purge (retention_days : ℤ) (now : DateTime) (reset_id : UUID)

/-- A purge that raises is rolled back. -/
def Op.run (hmac : ByteArray → ByteArray → Digest) (key : String) (rows : List AuditLog) :
    Op → List AuditLog
  | .log e o => logEvent hmac key e o rows
  | .purge retention_days now reset_id =>
      match purgeAuditLog retention_days now reset_id rows with
      | .ok (_, rows) => rows
      | .error _ => rows

/-- The table after a sequence of calls on an empty one. -/
def tableAfter (hmac : ByteArray → ByteArray → Digest) (key : String) (ops : List Op) :
    List AuditLog :=
  ops.foldl (Op.run hmac key) []

/-- The timestamp of an event. -/
def Op.logged : Op → Option DateTime
  | .log _ o => some o.now
  | .purge .. => none

/-- Events have strictly increasing timestamps; the clock of a purge is not compared to them. -/
def Increasing (ops : List Op) : Prop := (ops.filterMap Op.logged).Pairwise (· < ·)

instance (ops : List Op) : Decidable (Increasing ops) :=
  inferInstanceAs (Decidable ((ops.filterMap Op.logged).Pairwise (· < ·)))

/-- The row an event chains from. -/
def newest (rows : List AuditLog) : Option AuditLog := (rows.insertionSort AuditLog.le).getLast?

/-- An event finds a row of the chain last, unless there is no chain; and either all of the chain
is old enough for a purge, or nothing of it. -/
def Op.Harmless (rows : List AuditLog) : Op → Prop
  | .log .. => (∃ r ∈ rows, r.linked = true) → (newest rows).any AuditLog.linked = true
  | .purge retention_days now _ =>
      match cutoff retention_days now with
      | .error _ => True
      | .ok cut => (∀ r ∈ rows, r.linked = true → r.created_at < cut) ∨
          ∀ r ∈ rows, r.linked = true → cut ≤ r.created_at

/-- Each call of the run is harmless where it is made. -/
def HarmlessRun (hmac : ByteArray → ByteArray → Digest) (key : String) :
    List AuditLog → List Op → Prop
  | _, [] => True
  | rows, op :: ops => op.Harmless rows ∧ HarmlessRun hmac key (op.run hmac key rows) ops

/-! ## The order of the rows -/

theorem AuditLog.le_iff {a b : AuditLog} :
    a.le b ↔ toLex ((a.created_at, a.id) : ℕ × ℕ) ≤ toLex ((b.created_at, b.id) : ℕ × ℕ) := by
  rw [Prod.Lex.toLex_le_toLex]
  rfl

instance : Std.Total AuditLog.le where
  total a b := by
    rw [AuditLog.le_iff, AuditLog.le_iff]
    exact le_total _ _

instance : IsTrans AuditLog AuditLog.le where
  trans a b c hab hbc := by
    rw [AuditLog.le_iff] at hab hbc ⊢
    exact hab.trans hbc

/-- The rows of the chain. -/
def links (rows : List AuditLog) : List AuditLog := rows.filter AuditLog.linked

/-- `r` carries the HMAC of its own fields. -/
def Sealed (hmac : ByteArray → ByteArray → Digest) (key : String) (r : AuditLog) : Prop :=
  ∃ p, r.prev_hmac = some p ∧ r.entry_hmac = some (r.recomputed hmac key p)

/-- The rows of the chain are linked from the genesis sentinel on, in the order of their
timestamps, and what else is in the table has no HMAC. -/
structure Intact (hmac : ByteArray → ByteArray → Digest) (key : String) (rows : List AuditLog) :
    Prop where
  chain : Chain.Linked AuditLog.prev_hmac AuditLog.entry_hmac (some GENESIS_HMAC) (links rows)
  increasing : (links rows).Pairwise (·.created_at < ·.created_at)
  sealed : ∀ r ∈ rows, r.entry_hmac = none ∨ Sealed hmac key r

theorem hexDigits_length (len n : ℕ) : (hexDigits len n).length = len := by
  induction len generalizing n with
  | zero => rfl
  | succ len ih => rw [hexDigits, List.length_append, ih, List.length_singleton]

theorem Digest.hex_ne_empty (d : Digest) : d.hex ≠ "" := by
  intro h
  have hlen : d.hex.toList.length = 64 := by
    rw [Digest.hex, String.toList_ofList, hexDigits_length]
  rw [h] at hlen
  exact absurd hlen (by decide)

theorem Sealed.linked {r : AuditLog} (h : Sealed hmac key r) : r.linked = true := by
  obtain ⟨p, -, he⟩ := h
  rw [AuditLog.linked, he, Option.any_some]
  exact decide_eq_true (Digest.hex_ne_empty _)

/-- A row outside the chain has no HMAC at all. -/
theorem Intact.marker (h : Intact hmac key rows) {r : AuditLog} (hr : r ∈ rows)
    (hl : ¬r.linked = true) : r.entry_hmac = none :=
  (h.sealed r hr).resolve_right fun hs => hl hs.linked

/-- The chain is read in the order in which it was written. -/
theorem Intact.read (h : Intact hmac key rows) :
    (rows.insertionSort AuditLog.le).filter AuditLog.linked = links rows := by
  refine filter_insertionSort rows (h.increasing.imp fun {a b} hab => ⟨.inl hab, ?_⟩)
  rintro (hba | ⟨hba, -⟩)
  · exact absurd hab (Nat.lt_asymm hba)
  · exact absurd hba.symm (Nat.ne_of_lt hab)

/-! ## Verification -/

/-- The loop of `verify_chain` runs through a chain of sealed rows without a complaint. -/
theorem check_linked {g : String} {l : List AuditLog}
    (h : Chain.Linked AuditLog.prev_hmac AuditLog.entry_hmac (some g) l)
    (hs : ∀ r ∈ l, Sealed hmac key r) :
    ∃ e, l.foldl (checkRow hmac key) ⟨g, true, none⟩ = ⟨e, true, none⟩ := by
  induction l generalizing g with
  | nil => exact ⟨g, rfl⟩
  | cons r l ih =>
      obtain ⟨hprev, hlink⟩ := h
      obtain ⟨p, hp, he⟩ := hs r List.mem_cons_self
      obtain rfl : p = g := Option.some.inj (hp.symm.trans hprev)
      have hcheck : checkRow hmac key ⟨p, true, none⟩ r
          = ⟨r.recomputed hmac key p, true, none⟩ := by
        have hne : r.recomputed hmac key p ≠ "" := Digest.hex_ne_empty _
        simp [checkRow, hp, he, orElse, hne]
      rw [List.foldl_cons, hcheck]
      rw [he] at hlink
      exact ih hlink fun r hr => hs r (List.mem_cons_of_mem _ hr)

theorem Intact.verifies (h : Intact hmac key rows) :
    (verifyChain hmac key none rows).ok = true := by
  have hs : ∀ r ∈ links rows, Sealed hmac key r := by
    intro r hr
    obtain ⟨hr, hl⟩ := List.mem_filter.mp hr
    refine (h.sealed r hr).resolve_left fun hn => ?_
    rw [AuditLog.linked, hn] at hl
    exact absurd hl (by decide)
  obtain ⟨e, he⟩ := check_linked h.chain hs
  rw [verifyChain, h.read]
  dsimp only
  rw [he]

/-! ## Steps -/

/-- A harmless event chains from the last row of the chain. -/
theorem Intact.prev_eq_tip (h : Intact hmac key rows)
    (hn : (∃ r ∈ rows, r.linked = true) → (newest rows).any AuditLog.linked = true) :
    some (getPrevHmac rows) = tip AuditLog.entry_hmac (some GENESIS_HMAC) (links rows) := by
  unfold getPrevHmac
  cases hlast : (rows.insertionSort AuditLog.le).getLast? with
  | none =>
      rw [← h.read, List.getLast?_eq_none_iff.mp hlast]
      rfl
  | some last =>
      obtain ⟨init, hinit⟩ := List.getLast?_eq_some_iff.mp hlast
      by_cases hl : last.linked = true
      · rw [← h.read, hinit, List.filter_append, List.filter_cons_of_pos hl, List.filter_nil,
          tip_concat]
        cases he : last.entry_hmac with
        | none =>
            rw [AuditLog.linked, he] at hl
            exact absurd hl (by decide)
        | some e => exact congrArg some (congrArg (Option.getD · GENESIS_HMAC) he)
      · have hmem : last ∈ rows := by
          rw [← (List.perm_insertionSort AuditLog.le rows).mem_iff, hinit]
          exact List.mem_concat_self
        have hnone : links rows = [] := by
          rw [links, List.filter_eq_nil_iff]
          intro r hr hrl
          have hany := hn ⟨r, hr, hrl⟩
          rw [newest, hlast, Option.any_some] at hany
          exact hl hany
        rw [hnone, tip_nil]
        exact congrArg some (congrArg (Option.getD · GENESIS_HMAC) (h.marker hmem hl))

theorem Intact.empty : Intact hmac key [] where
  chain := trivial
  increasing := List.Pairwise.nil
  sealed := fun _ hr => absurd hr List.not_mem_nil

/-- An event that is newer than the chain extends it. -/
theorem Intact.log (h : Intact hmac key rows) {e : Event} {o : Occasion}
    (hn : (Op.log e o).Harmless rows)
    (hlt : ∀ r ∈ rows, r.linked = true → r.created_at < o.now) :
    Intact hmac key (rows ++ [entry hmac key e o rows]) := by
  have hseal : Sealed hmac key (entry hmac key e o rows) := by
    refine ⟨getPrevHmac rows, rfl, ?_⟩
    cases hip : ipHmac hmac e o with
    | none => simp [entry, AuditLog.recomputed, hip]
    | some ip => simp [entry, AuditLog.recomputed, hip]
  have hlinks : links (rows ++ [entry hmac key e o rows])
      = links rows ++ [entry hmac key e o rows] := by
    rw [links, List.filter_append, List.filter_cons_of_pos hseal.linked, List.filter_nil, links]
  refine ⟨?_, ?_, ?_⟩
  · rw [hlinks, linked_concat]
    exact ⟨h.chain, h.prev_eq_tip hn⟩
  · rw [hlinks, List.pairwise_append]
    refine ⟨h.increasing, List.pairwise_singleton _ _, ?_⟩
    intro r hr r' hr'
    obtain rfl := List.mem_singleton.mp hr'
    obtain ⟨hr, hl⟩ := List.mem_filter.mp hr
    exact hlt r hr hl
  · intro r hr
    rcases List.mem_append.mp hr with hr | hr
    · exact h.sealed r hr
    · exact .inr (List.mem_singleton.mp hr ▸ hseal)

/-- A table that keeps all of the chain or nothing of it. -/
theorem Intact.keep (h : Intact hmac key rows) {p : AuditLog → Bool} {m : AuditLog}
    (hm : m.entry_hmac = none)
    (hp : (∀ r ∈ rows, r.linked = true → p r = false) ∨ ∀ r ∈ rows, r.linked = true → p r = true) :
    Intact hmac key (rows.filter p ++ [m]) := by
  have hml : ¬m.linked = true := by
    rw [AuditLog.linked, hm]
    decide
  have hlinks : links (rows.filter p ++ [m]) = (links rows).filter p := by
    rw [links, List.filter_append, List.filter_cons_of_neg hml, List.filter_nil, List.append_nil,
      List.filter_comm, links]
  have hsealed : ∀ r ∈ rows.filter p ++ [m], r.entry_hmac = none ∨ Sealed hmac key r := by
    intro r hr
    rcases List.mem_append.mp hr with hr | hr
    · exact h.sealed r (List.mem_filter.mp hr).1
    · exact .inl (List.mem_singleton.mp hr ▸ hm)
  rcases hp with hp | hp
  · have hnil : links (rows.filter p ++ [m]) = [] := by
      rw [hlinks, List.filter_eq_nil_iff]
      intro r hr
      rw [hp r (List.mem_filter.mp hr).1 (List.mem_filter.mp hr).2]
      decide
    refine ⟨?_, ?_, hsealed⟩
    · rw [hnil]
      trivial
    · rw [hnil]
      exact List.Pairwise.nil
  · have hsame : links (rows.filter p ++ [m]) = links rows := by
      rw [hlinks, List.filter_eq_self]
      exact fun r hr => hp r (List.mem_filter.mp hr).1 (List.mem_filter.mp hr).2
    exact ⟨hsame ▸ h.chain, hsame ▸ h.increasing, hsealed⟩

variable (hmac key rows) in
/-- A call leaves the table as it is, or with one row more, or with a marker in the place of the
rows it deletes. -/
theorem Op.run_cases (op : Op) :
    op.run hmac key rows = rows ∨
    (∃ e o, op = .log e o ∧ op.run hmac key rows = rows ++ [entry hmac key e o rows]) ∨
    ∃ retention_days now reset_id cut, op = .purge retention_days now reset_id ∧
      cutoff retention_days now = .ok cut ∧
      op.run hmac key rows
        = (rows.filter fun r => !(r.created_at < cut)) ++ [resetRow reset_id now] := by
  have hinsert : ∀ (r : AuditLog) (l l' : List AuditLog), insertRow r l = some l' →
      l' = l ++ [r] := by
    intro r l l' h
    unfold insertRow at h
    split at h
    · cases h
    · split at h
      · cases h
      · exact (Option.some.inj h).symm
  cases op with
  | log e o =>
      simp only [Op.run, logEvent]
      split
      · exact .inl rfl
      · cases h : insertRow (entry hmac key e o rows) rows with
        | none => exact .inl rfl
        | some l => exact .inr (.inl ⟨e, o, rfl, hinsert _ _ _ h⟩)
  | purge retention_days now reset_id =>
      simp only [Op.run, purgeAuditLog]
      cases hcut : cutoff retention_days now with
      | error e => exact .inl rfl
      | ok cut =>
          simp only [bind, Except.bind]
          by_cases hnone : (rows.filter fun r => decide (r.created_at < cut)).length = 0
          · rw [if_pos hnone]
            exact .inl rfl
          · rw [if_neg hnone]
            cases h : insertRow (resetRow reset_id now)
              (rows.filter fun r => !(r.created_at < cut)) with
            | none => exact .inl rfl
            | some l => exact .inr (.inr ⟨_, _, _, cut, rfl, hcut, hinsert _ _ _ h⟩)

theorem Op.Harmless.intact {op : Op} (hop : op.Harmless rows) (h : Intact hmac key rows)
    (hlt : ∀ t, op.logged = some t → ∀ r ∈ rows, r.linked = true → r.created_at < t) :
    Intact hmac key (op.run hmac key rows) := by
  rcases Op.run_cases hmac key rows op with
    heq | ⟨e, o, rfl, heq⟩ | ⟨retention_days, now, reset_id, cut, rfl, hcut, heq⟩
  · rw [heq]
    exact h
  · rw [heq]
    exact h.log hop (hlt o.now rfl)
  · rw [heq]
    refine h.keep rfl ?_
    rw [Op.Harmless, hcut] at hop
    rcases hop with hall | hnone
    · exact .inl fun r hr hl => by simp [hall r hr hl]
    · exact .inr fun r hr hl => by simpa using hnone r hr hl

/-- What a call adds to the chain has the timestamp of the call. -/
theorem Op.run_created (op : Op) {r : AuditLog} (hr : r ∈ op.run hmac key rows)
    (hl : r.linked = true) : r ∈ rows ∨ op.logged = some r.created_at := by
  rcases Op.run_cases hmac key rows op with
    heq | ⟨e, o, rfl, heq⟩ | ⟨retention_days, now, reset_id, cut, rfl, -, heq⟩
  · exact .inl (heq ▸ hr)
  · rcases List.mem_append.mp (heq ▸ hr) with hr | hr
    · exact .inl hr
    · rw [List.mem_singleton.mp hr]
      exact .inr rfl
  · rcases List.mem_append.mp (heq ▸ hr) with hr | hr
    · exact .inl (List.mem_filter.mp hr).1
    · rw [List.mem_singleton.mp hr] at hl
      exact absurd hl (by simp [resetRow, AuditLog.linked])

/-- The run lemma: harmless calls keep the chain intact, as long as events are newer than it. -/
theorem HarmlessRun.intact {ops : List Op} (h : HarmlessRun hmac key rows ops)
    (hrows : Intact hmac key rows) (hinc : Increasing ops)
    (hlt : ∀ t ∈ ops.filterMap Op.logged, ∀ r ∈ rows, r.linked = true → r.created_at < t) :
    Intact hmac key (ops.foldl (Op.run hmac key) rows) := by
  induction ops generalizing rows with
  | nil => exact hrows
  | cons op ops ih =>
      have hnext : Intact hmac key (op.run hmac key rows) :=
        h.1.intact hrows fun t ht => hlt t (List.mem_filterMap.mpr ⟨op, List.mem_cons_self, ht⟩)
      refine ih h.2 hnext ?_ fun t ht r hr hl => ?_
      · rw [Increasing, List.filterMap_cons] at hinc
        split at hinc
        · exact hinc
        · exact hinc.of_cons
      · rcases op.run_created hr hl with hr | hnow
        · refine hlt t ?_ r hr hl
          rw [List.filterMap_cons]
          split
          · exact ht
          · exact List.mem_cons_of_mem _ ht
        · rw [Increasing, List.filterMap_cons_some hnow] at hinc
          exact List.rel_of_pairwise_cons hinc ht

/-- The audit chain verifies after every run of harmless calls. -/
theorem chain_verifies (hmac : ByteArray → ByteArray → Digest) (key : String) (ops : List Op)
    (hinc : Increasing ops) (h : HarmlessRun hmac key [] ops) :
    (verifyChain hmac key none (tableAfter hmac key ops)).ok = true :=
  (h.intact Intact.empty hinc fun _ _ _ hr => absurd hr List.not_mem_nil).verifies

/-! ## A purge that keeps part of the chain -/

/-- The key of the runs below. -/
def sampleKey : String := "kkkkkkkkkkkkkkkkkkkkkkkkkkkkkkkk"

/-- HMAC-SHA256 under `sampleKey` of the two messages of `twoEvents`, told apart by their length. -/
def sampleHmac (_ message : ByteArray) : Digest :=
  if message.size = 110 then 0xbd7d2abb94a496255abc80171d096c3d5ac9fdd0cd386789300ac5921ff736f3
  else 0x861eb382a3534675a8591bd889369e257d315913bf70a7b2da5dc15e77ba9fa7

/-- An event on the first of January 2026 and one on the first of April. -/
def twoEvents : List Op :=
  [.log { action := "admin.stats_viewed" } { now := 63902822400000000, id := 1 },
    .log { action := "agent.key_rotated" } { now := 63910598400000000, id := 2 }]

/-- Two events, a purge on the fourth of April that takes both, and a third event. -/
theorem chain_verifies_purged :
    (verifyChain sampleHmac sampleKey none (tableAfter sampleHmac sampleKey
      (twoEvents ++ [.purge 1 63910857600000000 3,
        .log { action := "agent.key_rotated" } { now := 63910944000000000, id := 4 }]))).ok
      = true := by
  refine chain_verifies sampleHmac sampleKey _ (by decide +kernel) ?_
  refine ⟨?_, ?_, ?_, ?_, trivial⟩
  · rintro ⟨r, hr, -⟩
    exact absurd hr List.not_mem_nil
  · exact fun _ => by decide +kernel
  · have hcut : cutoff 1 63910857600000000 = .ok 63910771200000000 := rfl
    rw [Op.Harmless, hcut]
    exact .inl (by decide +kernel)
  · intro hlinked
    exact absurd hlinked (by decide +kernel)

/-- The purge of the second of April, with 60 days of retention, takes the first event only, and
the second one still names it. -/
theorem chain_broken_by_purge : ¬∀ (hmac : ByteArray → ByteArray → Digest) (key : String)
    (ops : List Op), Increasing ops →
    (∀ retention_days now reset_id, .purge retention_days now reset_id ∈ ops →
      1 ≤ retention_days) →
    (verifyChain hmac key none (tableAfter hmac key ops)).ok = true := by
  intro h
  have hok := h sampleHmac sampleKey (twoEvents ++ [.purge 60 63910684800000000 3])
    (by decide +kernel) (by simp +contextual [twoEvents])
  have hbroken : (verifyChain sampleHmac sampleKey none (tableAfter sampleHmac sampleKey
      (twoEvents ++ [.purge 60 63910684800000000 3]))).ok = false := by
    decide +kernel
  rw [hbroken] at hok
  exact absurd hok (by decide)

end Sthrip.Audit
