import Sthrip.Audit.Resign

set_option autoImplicit false

/-! # What the audit migration preserves

The chain verifies after the migration iff all of its rows have a raw address, or none has.
-/

namespace Sthrip.Audit

open Chain

variable {hmac : ByteArray → ByteArray → Digest} {key : String} {loads : String → Option Json}
  {secret : ByteArray} {rows : List LegacyRow} {r : LegacyRow} {p prev : String}

/-! ## What is found afterwards -/

/-- Where every row of the table comes from. -/
theorem mem_resign {r' : LegacyRow} (h : r' ∈ resign hmac key loads secret prev rows) :
    ∃ r ∈ rows, r' = r ∧ r.pending = false ∨
      ∃ p, r' = (rehash hmac key loads secret p r).1 ∧ r.pending = true := by
  induction rows generalizing prev with
  | nil => cases h
  | cons r rows ih =>
      cases hp : r.pending with
      | true =>
          rw [resign_pending hp] at h
          rcases List.mem_cons.mp h with rfl | h
          · exact ⟨r, List.mem_cons_self, .inr ⟨prev, rfl, hp⟩⟩
          · obtain ⟨r₀, hr₀, hcases⟩ := ih h
            exact ⟨r₀, List.mem_cons_of_mem _ hr₀, hcases⟩
      | false =>
          rw [resign_kept hp] at h
          rcases List.mem_cons.mp h with rfl | h
          · exact ⟨r', List.mem_cons_self, .inl ⟨rfl, hp⟩⟩
          · obtain ⟨r₀, hr₀, hcases⟩ := ih h
            exact ⟨r₀, List.mem_cons_of_mem _ hr₀, hcases⟩

variable (hmac key loads secret prev) in
/-- Every row with an address is signed anew, after some row. -/
theorem rehash_mem_resign (hr : r ∈ rows) (hp : r.pending = true) :
    ∃ p, (rehash hmac key loads secret p r).1 ∈ resign hmac key loads secret prev rows := by
  induction rows generalizing prev with
  | nil => cases hr
  | cons r₀ rows ih =>
      rcases List.mem_cons.mp hr with rfl | hr
      · rw [resign_pending hp]
        exact ⟨prev, List.mem_cons_self⟩
      · cases hp₀ : r₀.pending with
        | true =>
            rw [resign_pending hp₀]
            obtain ⟨p, hmem⟩ := ih _ hr
            exact ⟨p, List.mem_cons_of_mem _ hmem⟩
        | false =>
            rw [resign_kept hp₀]
            obtain ⟨p, hmem⟩ := ih _ hr
            exact ⟨p, List.mem_cons_of_mem _ hmem⟩

variable (hmac key loads secret prev rows) in
/-- A map of the rows that the loop does not affect. -/
theorem map_resign {α : Type} (f : LegacyRow → α)
    (hf : ∀ p r, f (rehash hmac key loads secret p r).1 = f r) :
    (resign hmac key loads secret prev rows).map f = rows.map f := by
  induction rows generalizing prev with
  | nil => rfl
  | cons r rows ih =>
      cases hp : r.pending with
      | true => rw [resign_pending hp, List.map_cons, List.map_cons, ih, hf]
      | false => rw [resign_kept hp, List.map_cons, List.map_cons, ih]

theorem length_chained_resign (hkey : key ≠ "") :
    ((resign hmac key loads secret prev rows).filter LegacyRow.chained).length
      = (rows.filter LegacyRow.chained).length := by
  have hmap := map_resign hmac key loads secret rows prev
    LegacyRow.chained fun _ _ => rehash_chained_eq hkey
  have hcount : ∀ l : List LegacyRow,
      (l.filter LegacyRow.chained).length = (l.map LegacyRow.chained).countP id := by
    intro l
    rw [List.countP_map, List.countP_eq_length_filter]
    rfl
  rw [hcount, hcount, hmap]

/-- The chain is as before when none of its rows is signed anew. -/
theorem filter_resign_none (hkey : key ≠ "")
    (hnone : ∀ r ∈ rows, r.chained = true → r.pending = false) :
    (resign hmac key loads secret prev rows).filter LegacyRow.chained
      = rows.filter LegacyRow.chained := by
  induction rows generalizing prev with
  | nil => rfl
  | cons r rows ih =>
      obtain ⟨hkept, hnone⟩ := List.forall_mem_cons.mp hnone
      cases hp : r.pending with
      | true =>
          have hr : r.chained = false := by
            by_contra hne
            rw [hkept (Bool.eq_true_of_not_eq_false hne)] at hp
            cases hp
          rw [resign_pending hp, List.filter_cons_of_neg (ne_true_of_eq_false hr),
            List.filter_cons_of_neg (ne_true_of_eq_false ((rehash_chained_eq hkey).trans hr)), ih hnone]
      | false =>
          rw [resign_kept hp, List.filter_cons, List.filter_cons, ih hnone]

/-- The chain is linked when all of its rows are signed anew. -/
theorem linked_resign_all (hkey : key ≠ "") (hall : ∀ r ∈ rows, r.chained = true → r.pending = true) :
    Chain.Linked (fun r : LegacyRow => r.prev_hmac) (fun r => r.entry_hmac) (some prev)
      ((resign hmac key loads secret prev rows).filter LegacyRow.chained) := by
  induction rows generalizing prev with
  | nil => trivial
  | cons r rows ih =>
      obtain ⟨hpending, hall⟩ := List.forall_mem_cons.mp hall
      cases hr : r.chained with
      | true =>
          have hlinks := rehash_chained hmac loads secret prev hkey hr
          rw [resign_pending (hpending hr),
            List.filter_cons_of_pos ((rehash_chained_eq hkey).trans hr)]
          refine ⟨hlinks.1, ?_⟩
          simp only [hlinks.2.1]
          exact ih hall
      | false =>
          cases hp : r.pending with
          | true =>
              rw [resign_pending hp, (rehash_marker hr).2.2,
                List.filter_cons_of_neg (ne_true_of_eq_false ((rehash_chained_eq hkey).trans hr))]
              exact ih hall
          | false =>
              rw [resign_kept hp, List.filter_cons_of_neg (ne_true_of_eq_false hr)]
              exact ih hall

section Table

variable {M : List ByteArray}

/-- The rows of the chain are those that a verification reads. -/
theorem Hashed.links_resign (h : Hashed hmac key loads secret M prev rows) (hkey : key ≠ "") :
    links ((resign hmac key loads secret prev rows).map LegacyRow.toAuditLog)
      = ((resign hmac key loads secret prev rows).filter LegacyRow.chained).map LegacyRow.toAuditLog := by
  rw [links, List.filter_map]
  congr 1
  refine List.filter_congr fun r' hr' => ?_
  have hlinked : ∀ d : Digest, r'.entry_hmac = some d.hex → r'.toAuditLog.linked = r'.chained := by
    intro d hd
    rw [LegacyRow.chained, AuditLog.linked, hd, Option.any_some]
    exact decide_eq_true (Digest.hex_ne_empty d)
  have hmarker : r'.entry_hmac = none → r'.toAuditLog.linked = r'.chained := by
    intro hnone
    rw [LegacyRow.chained, AuditLog.linked, hnone]
    rfl
  show r'.toAuditLog.linked = r'.chained
  obtain ⟨r, hr, ⟨rfl, -⟩ | ⟨p, rfl, -⟩⟩ := mem_resign hr'
  · cases hchained : r'.chained with
    | true =>
        obtain ⟨p, -, hentry⟩ := h.sealed r' hr hchained
        exact (hlinked _ hentry).trans hchained
    | false => exact (hmarker (by simpa [LegacyRow.chained] using hchained)).trans hchained
  · cases hchained : r.chained with
    | true =>
        obtain ⟨-, hentry, hlink⟩ := rehash_chained hmac loads secret p hkey hchained
        rw [hlink] at hentry
        exact hlinked _ hentry
    | false => exact hmarker (rehash_marker hchained).2.1

theorem sorted_resign (hinc : rows.Pairwise (·.created_at < ·.created_at)) :
    ((resign hmac key loads secret prev rows).map LegacyRow.toAuditLog).insertionSort AuditLog.le
      = (resign hmac key loads secret prev rows).map LegacyRow.toAuditLog := by
  have htimes := map_resign hmac key loads secret rows prev (fun r => r.created_at) fun p r => by
    rw [rehash_columns]
  have hpairs : ((resign hmac key loads secret prev rows).map fun r => r.created_at).Pairwise (· < ·) := by
    rw [htimes, List.pairwise_map]
    exact hinc
  refine List.Pairwise.insertionSort_eq (List.pairwise_map.mpr ?_)
  exact (List.pairwise_map.mp hpairs).imp fun hlt => .inl hlt

theorem assertLinked_ok {g : String} {l : List AuditLog} (hsome : ∀ r ∈ l, r.entry_hmac.isSome = true)
    (h : Chain.Linked AuditLog.prev_hmac AuditLog.entry_hmac (some g) l) : assertLinked g l = .ok () := by
  induction l generalizing g with
  | nil => rfl
  | cons r l ih =>
      obtain ⟨hr, hl⟩ := h
      obtain ⟨hentry, hsome⟩ := List.forall_mem_cons.mp hsome
      obtain ⟨e, he⟩ := Option.isSome_iff_exists.mp hentry
      rw [assertLinked, hr, Option.getD_some, if_neg (not_not.mpr rfl), he, Option.getD_some]
      rw [he] at hl
      exact ih hsome hl

/-- The loop on a table whose times increase. -/
theorem backfill_eq (hkey : key ≠ "") (hinc : rows.Pairwise (·.created_at < ·.created_at)) :
    backfill hmac key loads secret rows = (fun st => st.2) <$>
      (rows.filter LegacyRow.pending).foldlM (backfillRow hmac key loads secret) (GENESIS_HMAC, rows) := by
  have hsorted : rows.insertionSort LegacyRow.le = rows :=
    List.Pairwise.insertionSort_eq (hinc.imp fun hlt => .inl hlt)
  have hguard : ¬ ((rows.filter LegacyRow.pending).length ≠ 0 ∧ key = "") := fun h => hkey h.2
  simp only [backfill, if_neg hguard, hsorted]
  rfl

/-! ## The table after the migration -/

variable (hmac key loads) in
/-- A table with times that increase, whose chain verifies in the old format. -/
structure LegacyTable (rows : List LegacyRow) : Prop where
  ids : (rows.map (·.id)).Nodup
  increasing : rows.Pairwise (·.created_at < ·.created_at)
  stored : ∀ r ∈ rows, r.Stored loads
  old : OldChain hmac key rows

variable (hmac key loads secret) in
/-- All that the HMAC is computed of: by the old rows, by the migration, and by a verification. -/
def hashed (rows : List LegacyRow) : List ByteArray :=
  rows.filterMap (fun r => r.prev_hmac.map fun p => r.oldMessage p)
    ++ (messages ((resign hmac key loads secret GENESIS_HMAC rows).map (LegacyRow.signed loads))
      ++ messages ((resign hmac key loads secret GENESIS_HMAC rows).map LegacyRow.toAuditLog))

theorem OldChain.names (h : OldChain hmac key rows) (hr : r ∈ rows) (hchained : r.chained = true)
    (hnames : r.prev_hmac = some p) : NoNul p := by
  rcases h.linked.prev_mem (List.mem_filter.mpr ⟨hr, hchained⟩) with heq | hmem
  · rw [hnames, Option.some.injEq] at heq
    rw [heq]
    exact genesis_noNul
  · obtain ⟨r', hr', heq⟩ := List.mem_map.mp hmem
    obtain ⟨hr', hchained'⟩ := List.mem_filter.mp hr'
    obtain ⟨p', -, hentry⟩ := h.sealed r' hr' hchained'
    rw [hentry, hnames, Option.some.injEq] at heq
    rw [← heq]
    exact Digest.hex_noNul _

variable (secret) in
theorem LegacyTable.hashed (h : LegacyTable hmac key loads rows) :
    Hashed hmac key loads secret (hashed hmac key loads secret rows) GENESIS_HMAC rows where
  stored := h.stored
  sealed := h.old.sealed
  names _ hr hchained _ hnames := h.old.names hr hchained hnames
  old r hr p hnames := by
    refine List.mem_append_left _ (List.mem_filterMap.mpr ⟨r, hr, ?_⟩)
    rw [hnames, Option.map_some]
  signed r hr p hnames := by
    refine List.mem_append_right _ (List.mem_append_left _ ?_)
    exact mem_messages (List.mem_map_of_mem hr) hnames

/-- A row that is signed with its own body. -/
theorem signed_message (hbody : r.BodyKept loads) (p' : String) :
    ((rehash hmac key loads secret p r).1.signed loads).message p'
      = (rehash hmac key loads secret p r).1.message p' := by
  have hfields : ((rehash hmac key loads secret p r).1.signed loads).fields
      = (rehash hmac key loads secret p r).1.fields := by
    rw [rehash_columns]
    simp only [AuditLog.fields, LegacyRow.signed]
    rw [hbody]
  rw [AuditLog.message, hfields]
  rfl

/-- A row without an address is signed alike in both formats. -/
theorem oldMessage_eq (hip : r.ip_address = none) (hnew : r.ip_hmac = none) (p : String) :
    r.oldMessage p = r.toAuditLog.message p := by
  rw [LegacyRow.oldMessage, LegacyRow.oldFields, AuditLog.message, AuditLog.fields, hip, hnew]
  rfl

variable (secret) in
/-- The migrated chain verifies when the condition holds. -/
theorem LegacyTable.intact (h : LegacyTable hmac key loads rows) (hkey : key ≠ "")
    (hnew : ∀ r ∈ rows, r.ip_hmac = none) (huniform : Uniform loads rows) :
    Intact hmac key ((resign hmac key loads secret GENESIS_HMAC rows).map LegacyRow.toAuditLog) := by
  have hpending : ∀ r ∈ rows, r.pending = r.ip_address.isSome := by
    intro r hr
    rw [LegacyRow.pending, hnew r hr, Option.isNone_none, Bool.and_true]
  have hlinks := (h.hashed secret).links_resign hkey
  have hincreasing : (links ((resign hmac key loads secret GENESIS_HMAC rows).map
      LegacyRow.toAuditLog)).Pairwise (·.created_at < ·.created_at) := by
    refine List.Pairwise.filter _ (List.pairwise_map.mpr ?_)
    have htimes := map_resign hmac key loads secret rows GENESIS_HMAC (fun r => r.created_at) fun p r => by
      rw [rehash_columns]
    have hpairs : ((resign hmac key loads secret GENESIS_HMAC rows).map
        fun r => r.created_at).Pairwise (· < ·) := by
      rw [htimes, List.pairwise_map]
      exact h.increasing
    exact List.pairwise_map.mp hpairs
  refine ⟨?_, hincreasing, ?_⟩
  · rw [hlinks, linked_map]
    rcases huniform with hall | hnone
    · refine linked_resign_all hkey fun r hr hchained => ?_
      rw [hpending r hr]
      exact (hall r hr hchained).1
    · rw [filter_resign_none hkey]
      · exact h.old.linked
      · intro r hr hchained
        rw [hpending r hr, hnone r hr hchained]
        rfl
  · intro a ha
    obtain ⟨r', hr', rfl⟩ := List.mem_map.mp ha
    obtain ⟨r, hr, ⟨rfl, hkept⟩ | ⟨p, rfl, hp⟩⟩ := mem_resign hr'
    · cases hchained : r'.chained with
      | true =>
          have hip : r'.ip_address = none := by
            rw [hpending r' hr] at hkept
            simpa using hkept
          obtain ⟨p, hnames, hentry⟩ := h.old.sealed r' hr hchained
          rw [oldMessage_eq hip (hnew r' hr)] at hentry
          exact .inr ⟨p, hnames, hentry⟩
      | false => exact .inl (by simpa [LegacyRow.chained] using hchained)
    · cases hchained : r.chained with
      | true =>
          have hbody : r.BodyKept loads := by
            rcases huniform with hall | hnone
            · exact (hall r hr hchained).2
            · rw [hpending r hr, hnone r hr hchained] at hp
              cases hp
          obtain ⟨hnames, hentry, hlink⟩ := rehash_chained hmac loads secret p hkey hchained
          rw [hlink, signed_message hbody] at hentry
          exact .inr ⟨p, hnames, hentry⟩
      | false => exact .inl (rehash_marker hchained).2.1

/-- What the rows of a verified chain name has no NUL. -/
theorem names_of_sealed {l : List AuditLog}
    (h : Chain.Linked AuditLog.prev_hmac AuditLog.entry_hmac (some GENESIS_HMAC) l)
    (hsealed : ∀ a ∈ l, Sealed hmac key a) {a : AuditLog} (ha : a ∈ l) (hnames : a.prev_hmac = some p) :
    NoNul p := by
  rcases h.prev_mem ha with heq | hmem
  · rw [hnames, Option.some.injEq] at heq
    rw [heq]
    exact genesis_noNul
  · obtain ⟨b, hb, heq⟩ := List.mem_map.mp hmem
    obtain ⟨p', -, hentry⟩ := hsealed b hb
    rw [hentry, hnames, Option.some.injEq] at heq
    rw [← heq]
    exact Digest.hex_noNul _

/-- A verified row that was signed anew was signed with its own body. -/
theorem LegacyTable.bodyKept (h : LegacyTable hmac key loads rows) (hkey : key ≠ "")
    (hideal : Ideal hmac key (Audit.hashed hmac key loads secret rows))
    (hlinked : Chain.Linked AuditLog.prev_hmac AuditLog.entry_hmac (some GENESIS_HMAC)
      (links ((resign hmac key loads secret GENESIS_HMAC rows).map LegacyRow.toAuditLog)))
    (hsealed : ∀ a ∈ links ((resign hmac key loads secret GENESIS_HMAC rows).map LegacyRow.toAuditLog),
      Sealed hmac key a) (hr : r ∈ rows) (hchained : r.chained = true) (hp : r.pending = true) :
    r.BodyKept loads := by
  obtain ⟨p, hmem⟩ := rehash_mem_resign hmac key loads secret GENESIS_HMAC hr hp
  set new := (rehash hmac key loads secret p r).1 with hnew
  obtain ⟨hnames, hentry, hlink⟩ := rehash_chained hmac loads secret p hkey hchained
  have hread : new.toAuditLog
      ∈ links ((resign hmac key loads secret GENESIS_HMAC rows).map LegacyRow.toAuditLog) := by
    rw [(h.hashed secret).links_resign hkey]
    exact List.mem_map_of_mem (List.mem_filter.mpr ⟨hmem, (rehash_chained_eq hkey).trans hchained⟩)
  obtain ⟨p', hnames', hentry'⟩ := hsealed _ hread
  obtain rfl : p' = p := Option.some.inj (hnames'.symm.trans hnames)
  have hnul := names_of_sealed hlinked hsealed hread hnames
  have hclean : new.toAuditLog.Clean := by
    rw [hnew, rehash_columns]
    exact ⟨(h.stored r hr).action, (h.stored r hr).body⟩
  have hsame : (new.signed loads).message p' = new.toAuditLog.message p' := by
    refine hideal.hex_inj ?_ ?_ ?_
    · exact List.mem_append_right _ (List.mem_append_left _
        (mem_messages (List.mem_map_of_mem hmem) hnames))
    · exact List.mem_append_right _ (List.mem_append_right _
        (mem_messages (List.mem_map_of_mem hmem) hnames))
    · rw [← hlink]
      exact Option.some.inj (hentry.symm.trans hentry')
  have hfields := message_inj hnul hnul (signed_clean hmac key secret p' (h.stored r hr)) hclean hsame
  have hbody := congrArg List.getLast? hfields
  rw [hnew, rehash_columns] at hbody
  simpa [AuditLog.fields, LegacyRow.signed, LegacyRow.BodyKept] using hbody

variable (hmac key) in
/-- The migrated table verifies, with as many rows as before, and all else in it is as before. -/
structure Preserved (rows : List LegacyRow) (out : List AuditLog) : Prop where
  verifies : verifyChain hmac key none out = ⟨true, none, (rows.filter LegacyRow.chained).length⟩
  recorded : out.map AuditLog.recorded = rows.map fun r => r.toAuditLog.recorded

theorem LegacyTable.preserved_iff (h : LegacyTable hmac key loads rows) (hkey : key ≠ "")
    (hnew : ∀ r ∈ rows, r.ip_hmac = none)
    (hideal : Ideal hmac key (Audit.hashed hmac key loads secret rows)) :
    (∃ table, backfill hmac key loads secret rows = .ok table ∧
      assertChainLinked (table.map LegacyRow.toAuditLog) = .ok () ∧
      Preserved hmac key rows (table.map LegacyRow.toAuditLog)) ↔ Uniform loads rows := by
  have hhashed := h.hashed secret
  have hpending : ∀ r ∈ rows, r.pending = r.ip_address.isSome := by
    intro r hr
    rw [LegacyRow.pending, hnew r hr, Option.isNone_none, Bool.and_true]
  have htable : ∀ table, backfill hmac key loads secret rows = .ok table →
      table = resign hmac key loads secret GENESIS_HMAC rows := by
    intro table hrun
    rw [backfill_eq hkey h.increasing] at hrun
    obtain ⟨st, hst, hst'⟩ := Python.bind_eq_ok.mp hrun
    rw [← Except.ok.inj hst']
    have hids : (([] ++ rows).map fun r : LegacyRow => r.id).Nodup := h.ids
    exact foldlM_resign hids hst
  constructor
  · rintro ⟨table, hrun, -, hpreserved⟩
    obtain rfl := htable table hrun
    have hverify := hpreserved.verifies
    have hok : (verifyChain hmac key none
        ((resign hmac key loads secret GENESIS_HMAC rows).map LegacyRow.toAuditLog)).ok = true := by
      rw [hverify]
    rw [verifyChain, sorted_resign h.increasing] at hok
    obtain ⟨hlinked, hsealed⟩ := check_ok hok
    have hlinked' := hlinked
    rw [← links, hhashed.links_resign hkey, linked_map] at hlinked'
    refine (hhashed.all_or_none hideal hkey h.old.linked hlinked').imp (fun hall r hr hchained => ?_)
      fun hnone r hr hchained => ?_
    · have hp := hall r hr hchained
      exact ⟨(hpending r hr).symm.trans hp, h.bodyKept hkey hideal hlinked hsealed hr hchained hp⟩
    · have hp := (hpending r hr).symm.trans (hnone r hr hchained)
      simpa using hp
  · intro huniform
    have hrun : ∃ st, (rows.filter LegacyRow.pending).foldlM (backfillRow hmac key loads secret)
        (GENESIS_HMAC, [] ++ rows) = .ok st := by
      have hids : (([] ++ rows).map fun r : LegacyRow => r.id).Nodup := h.ids
      rcases huniform with hall | hnone
      · have hstart : Relinked hmac key (Audit.hashed hmac key loads secret rows) GENESIS_HMAC [] :=
          ⟨trivial, rfl, List.nodup_singleton _, fun r hr => absurd hr List.not_mem_nil, genesis_noNul⟩
        refine hstart.foldlM_ok hhashed hideal hkey hids fun r hr hchained => ?_
        rw [hpending r hr]
        exact (hall r hr hchained).1
      · refine foldlM_markers hids fun r hr hchained => ?_
        rw [hpending r hr, hnone r hr hchained]
        rfl
    obtain ⟨st, hst⟩ := hrun
    have hbackfill : backfill hmac key loads secret rows = .ok st.2 := by
      rw [backfill_eq hkey h.increasing]
      exact Python.bind_eq_ok.mpr ⟨st, hst, rfl⟩
    have hst' := htable _ hbackfill
    have hintact := h.intact secret hkey hnew huniform
    refine ⟨st.2, hbackfill, ?_, ?_, ?_⟩
    · rw [hst', assertChainLinked, sorted_resign h.increasing]
      have hsame : ((resign hmac key loads secret GENESIS_HMAC rows).map LegacyRow.toAuditLog).filter
            (·.entry_hmac.isSome)
          = links ((resign hmac key loads secret GENESIS_HMAC rows).map LegacyRow.toAuditLog) := by
        rw [hhashed.links_resign hkey, List.filter_map]
        rfl
      rw [hsame]
      refine assertLinked_ok (fun a ha => ?_) hintact.chain
      rw [← hsame] at ha
      exact (List.mem_filter.mp ha).2
    · have hsealed : ∀ a ∈ links ((resign hmac key loads secret GENESIS_HMAC rows).map
          LegacyRow.toAuditLog), Sealed hmac key a := by
        intro a ha
        obtain ⟨hmem, hlinked⟩ := List.mem_filter.mp ha
        refine (hintact.sealed a hmem).resolve_left fun hnone => ?_
        rw [AuditLog.linked, hnone] at hlinked
        cases hlinked
      obtain ⟨e, he⟩ := check_linked hintact.chain hsealed
      rw [hst', verifyChain, sorted_resign h.increasing]
      dsimp only
      rw [← links, he, hhashed.links_resign hkey, List.length_map, length_chained_resign hkey]
    · rw [hst', List.map_map]
      refine map_resign hmac key loads secret rows GENESIS_HMAC _ fun p r => ?_
      show (rehash hmac key loads secret p r).1.toAuditLog.recorded = r.toAuditLog.recorded
      rw [rehash_columns]
      rfl

/-! ## The migration -/

theorem filter_chained_addColumns (rows : List LegacyRow) :
    (rows.map addColumns).filter LegacyRow.chained = (rows.filter LegacyRow.chained).map addColumns :=
  List.filter_map ..

/-- The new columns matter to nothing of the old table. -/
theorem LegacyTable.addColumns (h : LegacyTable hmac key loads rows) :
    LegacyTable hmac key loads (rows.map addColumns) where
  ids := by
    rw [List.map_map]
    exact h.ids
  increasing := List.pairwise_map.mpr h.increasing
  stored r hr := by
    obtain ⟨old, hold, rfl⟩ := List.mem_map.mp hr
    obtain ⟨haction, hbody, hreparsed, hip, hlength⟩ := h.stored old hold
    exact ⟨haction, hbody, hreparsed, hip, hlength⟩
  old := by
    constructor
    · rw [filter_chained_addColumns, linked_map]
      exact h.old.linked
    · intro r hr
      obtain ⟨old, hold, rfl⟩ := List.mem_map.mp hr
      exact h.old.sealed old hold

theorem uniform_addColumns : Uniform loads (rows.map Audit.addColumns) ↔ Uniform loads rows := by
  unfold Uniform
  simp only [List.forall_mem_map]
  exact Iff.rfl

theorem preserved_addColumns {out : List AuditLog} :
    Preserved hmac key (rows.map Audit.addColumns) out ↔ Preserved hmac key rows out := by
  have hlength : ((rows.map Audit.addColumns).filter LegacyRow.chained).length
      = (rows.filter LegacyRow.chained).length := by
    rw [filter_chained_addColumns, List.length_map]
  have hrecorded : (rows.map Audit.addColumns).map (fun r => r.toAuditLog.recorded)
      = rows.map fun r => r.toAuditLog.recorded := by
    rw [List.map_map]
    rfl
  constructor
  · rintro ⟨hverifies, hsame⟩
    exact ⟨hlength ▸ hverifies, hsame.trans hrecorded⟩
  · rintro ⟨hverifies, hsame⟩
    exact ⟨hlength.symm ▸ hverifies, hsame.trans hrecorded.symm⟩

/-- **What the migration preserves.** It runs to its end and leaves a verified chain iff all rows of the
chain have a raw address (and bodies that it reads as they are), or none has. -/
theorem migration_preserves_iff (hmac : ByteArray → ByteArray → Digest) (key : String) (hkey : key ≠ "")
    (loads : String → Option Json) (urandom : ByteArray) (now now' : DateTime) (salts : List IpSalt)
    (rows : List LegacyRow) (h : LegacyTable hmac key loads rows)
    (hideal : Ideal hmac key
      (Audit.hashed hmac key loads (bootstrapSalt urandom now salts).1 (rows.map Audit.addColumns))) :
    (∃ salts' out, upgrade hmac key loads urandom now now' salts rows = .ok (salts', out) ∧
      Preserved hmac key rows out) ↔ Uniform loads rows := by
  have hnew : ∀ r ∈ rows.map Audit.addColumns, r.ip_hmac = none := by
    intro r hr
    obtain ⟨r, -, rfl⟩ := List.mem_map.mp hr
    rfl
  rw [← uniform_addColumns, ← h.addColumns.preserved_iff hkey hnew hideal]
  constructor
  · rintro ⟨salts', out, hrun, hpreserved⟩
    obtain ⟨table, hbackfill, hrun⟩ := Python.bind_eq_ok.mp hrun
    obtain ⟨_, hassert, hrun⟩ := Python.bind_eq_ok.mp hrun
    cases hrun
    exact ⟨table, hbackfill, hassert, preserved_addColumns.mpr hpreserved⟩
  · rintro ⟨table, hbackfill, hassert, hpreserved⟩
    refine ⟨_, _, Python.bind_eq_ok.mpr ⟨table, hbackfill, Python.bind_eq_ok.mpr ⟨(), hassert, rfl⟩⟩, ?_⟩
    exact preserved_addColumns.mp hpreserved

/-! ### Two events, one without an address -/

/-- HMAC-SHA256 of the messages below, told apart by their length. -/
def eventHmac (_ message : ByteArray) : Digest :=
  if message.size = 127 then 0xe6e7f9c70b44679eb68ad3bfadd7be7f4bd2989e0f6c16f77baa2a506c8d2fee
  else if message.size = 126 then 0xefa9e47424c8fa5cfe675a6a9a86da7d1f83d5d5ad7eb31dffacb50f938fccc9
  else if message.size = 8 then 0xb035afc3c4c3bd13e2b4c91286d845014d3203ce110ff0d3509691228e7b4547
  else 0x9ad3a68c1975bed7dd6d7914449a5bd84b9db08e0396f49fb09e51199d082dda

def sampleSecret : ByteArray := ⟨(List.replicate 32 7).toArray⟩

/-- A row of the old chain, after the link `prev`. -/
def oldRow (id : UUID) (created_at : DateTime) (ip_address : Option String) (prev : String) : LegacyRow :=
  let row : LegacyRow :=
    { id, agent_id := none, action := "auth.failed", resource_type := none, resource_id := none
      ip_hmac := none, ip_salt_id := none, request_method := none, request_path := none
      request_body := some (.obj [("reason", .str "expired")]), success := false, error_message := none
      created_at, prev_hmac := some prev, entry_hmac := none, ip_address }
  { row with entry_hmac := some (eventHmac sampleKey.toUTF8 (row.oldMessage prev)).hex }

theorem oldRow_stored {loads : String → Option Json} (id : UUID) (created_at : DateTime)
    (ip : Option String) (hip : NoNul (ip.getD "") ∧ (ip.getD "").toList.length ≤ 45) (prev : String) :
    (oldRow id created_at ip prev).Stored loads := by
  have haction : NoNul "auth.failed" := by
    unfold NoNul
    decide
  have hbody : NoNul (canonicalJson (some (.obj [("reason", .str "expired")]))) := by
    unfold NoNul
    decide +kernel
  exact ⟨haction, hbody, hbody, hip.1, hip.2⟩

/-- An event with an address. -/
def withIp : LegacyRow := oldRow 1 63902822400000000 (some "10.0.0.1") GENESIS_HMAC

/-- A later event without one. -/
def withoutIp : LegacyRow := oldRow 2 63910598400000001 none (withIp.entry_hmac.getD "")

theorem withIp_stored {loads : String → Option Json} : withIp.Stored loads := by
  have hip : NoNul "10.0.0.1" ∧ "10.0.0.1".toList.length ≤ 45 := by
    unfold NoNul
    decide
  exact oldRow_stored 1 _ (some "10.0.0.1") hip _

theorem withoutIp_stored {loads : String → Option Json} : withoutIp.Stored loads := by
  have hempty : NoNul "" := by simp [NoNul]
  exact oldRow_stored 2 _ none ⟨hempty, Nat.zero_le _⟩ _

theorem migration_preserves_iff_one :
    (∃ salts' out, upgrade eventHmac sampleKey (fun _ => none) sampleSecret 0 0 [] [withIp]
        = .ok (salts', out) ∧ Preserved eventHmac sampleKey [withIp] out) ↔
      Uniform (fun _ => none) [withIp] := by
  have htable : LegacyTable eventHmac sampleKey (fun _ => none) [withIp] := by
    refine ⟨List.nodup_singleton _, List.pairwise_singleton _ _, ?_, ⟨⟨rfl, trivial⟩, ?_⟩⟩
    · exact List.forall_mem_singleton.mpr withIp_stored
    · exact List.forall_mem_singleton.mpr fun _ => ⟨_, rfl, rfl⟩
  -- the old message and the new one, which is what a verification reads too
  let new := (rehash eventHmac sampleKey (fun _ => none) sampleSecret GENESIS_HMAC (addColumns withIp)).1
  have hlist : Audit.hashed eventHmac sampleKey (fun _ => none) (bootstrapSalt sampleSecret 0 []).1
      ([withIp].map Audit.addColumns)
      = [withIp.oldMessage GENESIS_HMAC, new.message GENESIS_HMAC, new.message GENESIS_HMAC] := rfl
  have hdiffer : eventHmac sampleKey.toUTF8 (withIp.oldMessage GENESIS_HMAC)
      ≠ eventHmac sampleKey.toUTF8 (new.message GENESIS_HMAC) := by decide +kernel
  have hideal : Ideal eventHmac sampleKey (Audit.hashed eventHmac sampleKey (fun _ => none)
      (bootstrapSalt sampleSecret 0 []).1 ([withIp].map Audit.addColumns)) := by
    rw [hlist]
    constructor
    · intro m hm m' hm' heq
      simp only [List.mem_cons, List.not_mem_nil, or_false, or_self] at hm hm'
      rcases hm with rfl | rfl
      · exact hm'.elim Eq.symm fun hnew => absurd (heq.trans (by rw [hnew])) hdiffer
      · exact hm'.elim (fun hold => absurd (heq.trans (by rw [hold])) hdiffer.symm) Eq.symm
    · decide +kernel
  exact migration_preserves_iff eventHmac sampleKey (by decide) _ _ 0 0 [] _ htable hideal

/-- An event with an address and one without: the migration refuses its own result. -/
theorem mixed_chain_refused :
    LegacyTable eventHmac sampleKey (fun _ => none) [withIp, withoutIp] ∧
    ¬ ∃ salts' out, upgrade eventHmac sampleKey (fun _ => none) sampleSecret 0 0 [] [withIp, withoutIp]
      = .ok (salts', out) := by
  have htable : LegacyTable eventHmac sampleKey (fun _ => none) [withIp, withoutIp] := by
    refine ⟨?_, List.pairwise_pair.mpr ?_, ?_, ⟨⟨rfl, rfl, trivial⟩, ?_⟩⟩
    · show [1, 2].Nodup
      decide
    · show 63902822400000000 < 63910598400000001
      decide
    · exact List.forall_mem_cons.mpr ⟨withIp_stored, List.forall_mem_singleton.mpr withoutIp_stored⟩
    · refine List.forall_mem_cons.mpr ⟨fun _ => ⟨_, rfl, rfl⟩, ?_⟩
      exact List.forall_mem_singleton.mpr fun _ => ⟨_, rfl, rfl⟩
  have hrefused : (upgrade eventHmac sampleKey (fun _ => none) sampleSecret 0 0 []
      [withIp, withoutIp]).toOption.isNone = true := by decide +kernel
  refine ⟨htable, ?_⟩
  rintro ⟨salts', out, hrun⟩
  rw [hrun] at hrefused
  cases hrefused

end Table

end Sthrip.Audit
