import Sthrip.Audit.Tamper
import Sthrip.Migrations.AuditIpHmac
import Sthrip.Python.Values

set_option autoImplicit false

/-! # The loop of the audit migration

The loop goes through the rows that have a raw address and links each to the one before it among them
(`resign`). Between a row that is signed anew and one that is not, a link is broken
(`Hashed.all_or_none`). The unique index is in the way of no row when all rows of the chain are signed
anew: no new link is an old one, and the new ones are all different (`Relinked.foldlM_ok`).
-/

namespace Sthrip.Audit

open Chain

variable {hmac : ByteArray → ByteArray → Digest} {key : String} {loads : String → Option Json}
  {secret : ByteArray} {rows : List LegacyRow} {r : LegacyRow} {p prev : String}

/-! ## The old format -/

/-- The row belongs to the chain. -/
def LegacyRow.chained (r : LegacyRow) : Bool := r.entry_hmac.isSome

/-- What was signed of a row, with the raw address. -/
def LegacyRow.oldFields (r : LegacyRow) : List String :=
  [r.action, r.agentIdStr, r.ip_address.getD "", tsIso r.created_at, canonicalJson r.request_body]

def LegacyRow.oldMessage (p : String) (r : LegacyRow) : ByteArray :=
  ("\x00".intercalate (p :: r.oldFields)).toUTF8

variable (hmac key) in
/-- The rows of the chain verify in the old format. -/
structure OldChain (rows : List LegacyRow) : Prop where
  linked : Chain.Linked (fun r : LegacyRow => r.prev_hmac) (fun r => r.entry_hmac) (some GENESIS_HMAC)
    (rows.filter LegacyRow.chained)
  sealed : ∀ r ∈ rows, r.chained = true →
    ∃ p, r.prev_hmac = some p ∧ r.entry_hmac = some (hmac key.toUTF8 (r.oldMessage p)).hex

/-- What the columns hold: an address of at most 45 characters, and no NUL. -/
structure LegacyRow.Stored (loads : String → Option Json) (r : LegacyRow) : Prop where
  action : NoNul r.action
  body : NoNul (canonicalJson r.request_body)
  reparsed : NoNul (canonicalJson (reparsed loads r.request_body))
  ip : NoNul (r.ip_address.getD "")
  length : (r.ip_address.getD "").toList.length ≤ 45

/-- The text of the body stays the same when it is read by the migration. -/
def LegacyRow.BodyKept (loads : String → Option Json) (r : LegacyRow) : Prop :=
  canonicalJson (reparsed loads r.request_body) = canonicalJson r.request_body

/-- All rows of the chain have a raw address, or none has. -/
def Uniform (loads : String → Option Json) (rows : List LegacyRow) : Prop :=
  (∀ r ∈ rows, r.chained = true → r.ip_address.isSome = true ∧ r.BodyKept loads) ∨
    ∀ r ∈ rows, r.chained = true → r.ip_address = none

/-! ## One row -/

/-- The row as it is signed by the migration. -/
def LegacyRow.signed (loads : String → Option Json) (r : LegacyRow) : AuditLog :=
  { r.toAuditLog with request_body := Audit.reparsed loads r.request_body }

/-- What is recorded in a row besides the address and the links. -/
def AuditLog.recorded (r : AuditLog) : AuditLog :=
  { r with ip_hmac := none, ip_salt_id := none, prev_hmac := none, entry_hmac := none }

variable (hmac loads secret prev) in
theorem rehash_chained (hkey : key ≠ "") (hr : r.chained = true) :
    (rehash hmac key loads secret prev r).1.prev_hmac = some prev ∧
    (rehash hmac key loads secret prev r).1.entry_hmac = some (rehash hmac key loads secret prev r).2 ∧
    (rehash hmac key loads secret prev r).2
      = (hmac key.toUTF8 (((rehash hmac key loads secret prev r).1.signed loads).message prev)).hex := by
  have hguard : r.entry_hmac.isSome = true ∧ key ≠ "" := ⟨hr, hkey⟩
  rw [rehash, if_pos hguard]
  exact ⟨rfl, rfl, rfl⟩

theorem rehash_marker (hr : r.chained = false) :
    (rehash hmac key loads secret prev r).1.prev_hmac = r.prev_hmac ∧
    (rehash hmac key loads secret prev r).1.entry_hmac = none ∧
    (rehash hmac key loads secret prev r).2 = prev := by
  have hguard : ¬ (r.entry_hmac.isSome = true ∧ key ≠ "") := fun h => by
    rw [LegacyRow.chained, h.1] at hr
    cases hr
  rw [rehash, if_neg hguard]
  exact ⟨rfl, by simpa [LegacyRow.chained] using hr, rfl⟩

/-- The loop changes the address and the links only. -/
theorem rehash_columns : (rehash hmac key loads secret prev r).1 =
    { r with
      ip_hmac := (rehash hmac key loads secret prev r).1.ip_hmac
      ip_salt_id := (rehash hmac key loads secret prev r).1.ip_salt_id
      prev_hmac := (rehash hmac key loads secret prev r).1.prev_hmac
      entry_hmac := (rehash hmac key loads secret prev r).1.entry_hmac } := by
  unfold rehash
  split
  · rfl
  · rfl

theorem rehash_ip_hmac : (rehash hmac key loads secret prev r).1.ip_hmac
    = some (hmac secret (r.ip_address.getD "").toUTF8) := by
  unfold rehash
  split
  · rfl
  · rfl

theorem rehash_id : (rehash hmac key loads secret prev r).1.id = r.id := by
  rw [rehash_columns]

theorem rehash_chained_eq (hkey : key ≠ "") :
    (rehash hmac key loads secret prev r).1.chained = r.chained := by
  cases hr : r.chained with
  | true => rw [LegacyRow.chained, (rehash_chained _ _ _ _ hkey hr).2.1, Option.isSome_some]
  | false => rw [LegacyRow.chained, (rehash_marker hr).2.1, Option.isSome_none]

/-! ## The loop -/

variable (hmac key loads secret) in
/-- The rows with an address are linked to each other. -/
def resign (prev : String) : List LegacyRow → List LegacyRow
  | [] => []
  | r :: rows =>
      if r.pending = true then
        (rehash hmac key loads secret prev r).1 :: resign (rehash hmac key loads secret prev r).2 rows
      else r :: resign prev rows

theorem resign_pending (hr : r.pending = true) :
    resign hmac key loads secret prev (r :: rows) = (rehash hmac key loads secret prev r).1
      :: resign hmac key loads secret (rehash hmac key loads secret prev r).2 rows := if_pos hr

theorem resign_kept (hr : r.pending = false) :
    resign hmac key loads secret prev (r :: rows) = r :: resign hmac key loads secret prev rows :=
  if_neg (ne_true_of_eq_false hr)

theorem updateRow_eq {new : LegacyRow} {done rest table : List LegacyRow}
    (hids : ((done ++ r :: rest).map (·.id)).Nodup) (hid : new.id = r.id)
    (hnew : new = { r with
      ip_hmac := new.ip_hmac, ip_salt_id := new.ip_salt_id
      prev_hmac := new.prev_hmac, entry_hmac := new.entry_hmac })
    (h : updateRow new (done ++ r :: rest) = .ok table) : table = done ++ new :: rest := by
  rw [updateRow] at h
  split at h
  · cases h
  · rw [List.map_append, List.map_cons, List.nodup_append, List.nodup_cons] at hids
    obtain ⟨-, ⟨hrest, -⟩, hdone⟩ := hids
    rw [← Except.ok.inj h, List.map_append, List.map_cons, if_pos hid.symm, ← hnew]
    have hother : ∀ l : List LegacyRow, (∀ r' ∈ l, r'.id ≠ r.id) → (l.map fun r' =>
        if r'.id = new.id then
          { r' with
            ip_hmac := new.ip_hmac, ip_salt_id := new.ip_salt_id
            prev_hmac := new.prev_hmac, entry_hmac := new.entry_hmac }
        else r') = l := by
      intro l hl
      refine (List.map_congr_left fun r' hr' => if_neg ?_).trans (List.map_id l)
      rw [hid]
      exact hl r' hr'
    rw [hother done fun r' hr' => hdone _ (List.mem_map_of_mem hr') _ List.mem_cons_self,
      hother rest fun r' hr' heq => hrest (heq ▸ List.mem_map_of_mem hr')]

/-- A loop that runs to its end. -/
theorem foldlM_resign {done rest : List LegacyRow} {st : String × List LegacyRow}
    (hids : ((done ++ rest).map (·.id)).Nodup)
    (h : (rest.filter LegacyRow.pending).foldlM (backfillRow hmac key loads secret) (prev, done ++ rest)
      = .ok st) : st.2 = done ++ resign hmac key loads secret prev rest := by
  induction rest generalizing prev done with
  | nil => exact congrArg Prod.snd (Except.ok.inj h).symm
  | cons r rest ih =>
      cases hr : r.pending with
      | false =>
          rw [List.filter_cons_of_neg (ne_true_of_eq_false hr)] at h
          rw [resign_kept hr]
          have hsplit : done ++ r :: rest = done ++ [r] ++ rest := by simp
          rw [hsplit] at h hids
          rw [ih hids h]
          simp
      | true =>
          rw [List.filter_cons_of_pos hr, List.foldlM_cons] at h
          obtain ⟨st', hstep, h⟩ := Python.bind_eq_ok.mp h
          obtain ⟨table, hupdate, hst'⟩ := Python.bind_eq_ok.mp hstep
          have htable := updateRow_eq hids rehash_id rehash_columns hupdate
          rw [← Except.ok.inj hst', htable] at h
          rw [resign_pending hr]
          have hsplit : done ++ (rehash hmac key loads secret prev r).1 :: rest
              = done ++ [(rehash hmac key loads secret prev r).1] ++ rest := by simp
          have hids' : ((done ++ [(rehash hmac key loads secret prev r).1] ++ rest).map (·.id)).Nodup := by
            simpa [rehash_id] using hids
          rw [hsplit] at h
          rw [ih hids' h]
          simp

/-! ## Messages -/

theorem genesis_noNul : NoNul GENESIS_HMAC := by
  unfold NoNul
  decide

theorem Ideal.hex_inj {l : List ByteArray} (h : Ideal hmac key l) {m m' : ByteArray} (hm : m ∈ l)
    (hm' : m' ∈ l) (heq : (hmac key.toUTF8 m).hex = (hmac key.toUTF8 m').hex) : m = m' :=
  h.inj m hm m' hm' (Digest.hex_inj heq)

/-- The message determines what is named. -/
theorem message_prev_inj {p' : String} {a b : AuditLog} (hp : NoNul p) (hp' : NoNul p') (ha : a.Clean)
    (hb : b.Clean) (h : a.message p = b.message p') : p = p' := by
  have hstr : "\x00".intercalate (p :: a.fields) = "\x00".intercalate (p' :: b.fields) :=
    String.toByteArray_inj.mp h
  have hlist := intercalate_inj (List.forall_mem_cons.mpr ⟨hp, ha.fields⟩)
    (List.forall_mem_cons.mpr ⟨hp', hb.fields⟩) (List.cons_ne_nil _ _) (List.cons_ne_nil _ _) hstr
  exact (List.cons.inj hlist).1

theorem LegacyRow.Stored.oldFields (h : r.Stored loads) : ∀ s ∈ r.oldFields, NoNul s := by
  intro s hs
  simp only [LegacyRow.oldFields, List.mem_cons, List.not_mem_nil, or_false] at hs
  rcases hs with rfl | rfl | rfl | rfl | rfl
  · exact h.action
  · rw [AuditLog.agentIdStr]
    cases r.agent_id with
    | none => simp [NoNul]
    | some u => exact uuidStr_noNul u
  · exact h.ip
  · exact tsIso_noNul _
  · exact h.body

/-- A raw address is no HMAC, so no message of the old format is one of the new. -/
theorem oldMessage_ne {p' : String} {a : AuditLog} {d : Digest} (hr : r.Stored loads) (hp : NoNul p)
    (hp' : NoNul p') (ha : a.Clean) (hip : a.ip_hmac = some d) : r.oldMessage p ≠ a.message p' := by
  intro h
  have hstr : "\x00".intercalate (p :: r.oldFields) = "\x00".intercalate (p' :: a.fields) :=
    String.toByteArray_inj.mp h
  have hlist := intercalate_inj (List.forall_mem_cons.mpr ⟨hp, hr.oldFields⟩)
    (List.forall_mem_cons.mpr ⟨hp', ha.fields⟩) (List.cons_ne_nil _ _) (List.cons_ne_nil _ _) hstr
  have haddress : r.ip_address.getD "" = d.hex := by
    have hfields := (List.cons.inj hlist).2
    rw [LegacyRow.oldFields, AuditLog.fields, hip] at hfields
    exact (List.cons.inj (List.cons.inj (List.cons.inj hfields).2).2).1
  have hlength := hr.length
  rw [haddress, Digest.hex, String.toList_ofList, hexDigits_length] at hlength
  omega

variable (hmac key secret prev) in
theorem signed_clean (hr : r.Stored loads) :
    ((rehash hmac key loads secret prev r).1.signed loads).Clean := by
  rw [rehash_columns]
  exact ⟨hr.action, hr.reparsed⟩

variable (hmac key loads secret) in
/-- What the HMAC is computed of for the rows, when the loop has come to `prev`. -/
structure Hashed (M : List ByteArray) (prev : String) (rows : List LegacyRow) : Prop where
  stored : ∀ r ∈ rows, r.Stored loads
  sealed : ∀ r ∈ rows, r.chained = true →
    ∃ p, r.prev_hmac = some p ∧ r.entry_hmac = some (hmac key.toUTF8 (r.oldMessage p)).hex
  names : ∀ r ∈ rows, r.chained = true → ∀ p, r.prev_hmac = some p → NoNul p
  old : ∀ r ∈ rows, ∀ p, r.prev_hmac = some p → r.oldMessage p ∈ M
  signed : ∀ r ∈ resign hmac key loads secret prev rows, ∀ p, r.prev_hmac = some p →
    (r.signed loads).message p ∈ M

section Links

variable {M : List ByteArray} {g g' : String}

theorem Hashed.tail_pending (h : Hashed hmac key loads secret M prev (r :: rows))
    (hr : r.pending = true) :
    Hashed hmac key loads secret M (rehash hmac key loads secret prev r).2 rows where
  stored r' hr' := h.stored r' (List.mem_cons_of_mem _ hr')
  sealed r' hr' := h.sealed r' (List.mem_cons_of_mem _ hr')
  names r' hr' := h.names r' (List.mem_cons_of_mem _ hr')
  old r' hr' := h.old r' (List.mem_cons_of_mem _ hr')
  signed r' hr' := h.signed r' (by
    rw [resign_pending hr]
    exact List.mem_cons_of_mem _ hr')

theorem Hashed.tail_kept (h : Hashed hmac key loads secret M prev (r :: rows))
    (hr : r.pending = false) : Hashed hmac key loads secret M prev rows where
  stored r' hr' := h.stored r' (List.mem_cons_of_mem _ hr')
  sealed r' hr' := h.sealed r' (List.mem_cons_of_mem _ hr')
  names r' hr' := h.names r' (List.mem_cons_of_mem _ hr')
  old r' hr' := h.old r' (List.mem_cons_of_mem _ hr')
  signed r' hr' := h.signed r' (by
    rw [resign_kept hr]
    exact List.mem_cons_of_mem _ hr')

/-- The message of a row that is signed anew. -/
theorem Hashed.signed_mem (h : Hashed hmac key loads secret M prev (r :: rows)) (hkey : key ≠ "")
    (hr : r.chained = true) (hp : r.pending = true) :
    ((rehash hmac key loads secret prev r).1.signed loads).message prev ∈ M := by
  refine h.signed _ ?_ prev (rehash_chained _ _ _ _ hkey hr).1
  rw [resign_pending hp]
  exact List.mem_cons_self

/-- The new link of a row is not the old one of any row. -/
theorem Hashed.link_ne (h : Hashed hmac key loads secret M prev (r :: rows)) (hideal : Ideal hmac key M)
    (hkey : key ≠ "") (hr : r.chained = true) (hp : r.pending = true) (hprev : NoNul prev)
    {r' : LegacyRow} (hr' : r' ∈ r :: rows) (hg : NoNul g) (hnames : r'.prev_hmac = some g) :
    (hmac key.toUTF8 (r'.oldMessage g)).hex ≠ (rehash hmac key loads secret prev r).2 := by
  intro heq
  rw [(rehash_chained _ _ _ _ hkey hr).2.2] at heq
  have hmessage := hideal.hex_inj (h.old r' hr' g hnames) (h.signed_mem hkey hr hp) heq
  have hclean := signed_clean hmac key secret prev (h.stored r List.mem_cons_self)
  exact oldMessage_ne (h.stored r' hr') hg hprev hclean rehash_ip_hmac hmessage

/-- After a row that was signed anew all rows are. -/
theorem Hashed.pending_of_ne (h : Hashed hmac key loads secret M prev rows) (hideal : Ideal hmac key M)
    (hkey : key ≠ "") (hprev : NoNul prev) (hg : NoNul g) (hne : g ≠ g')
    (hold : Chain.Linked (fun r : LegacyRow => r.prev_hmac) (fun r => r.entry_hmac) (some g)
      (rows.filter LegacyRow.chained))
    (hnew : Chain.Linked (fun r : LegacyRow => r.prev_hmac) (fun r => r.entry_hmac) (some g')
      ((resign hmac key loads secret prev rows).filter LegacyRow.chained)) :
    ∀ r ∈ rows, r.chained = true → r.pending = true := by
  induction rows generalizing prev g g' with
  | nil => exact fun r hr => absurd hr List.not_mem_nil
  | cons r rows ih =>
      cases hp : r.pending with
      | true =>
          have htail := h.tail_pending hp
          rw [resign_pending hp] at hnew
          have hlater : ∀ r ∈ rows, r.chained = true → r.pending = true := by
            cases hr : r.chained with
            | true =>
                obtain ⟨p, hnames, hentry⟩ := h.sealed r List.mem_cons_self hr
                rw [List.filter_cons_of_pos hr] at hold
                rw [List.filter_cons_of_pos ((rehash_chained_eq hkey).trans hr)] at hnew
                obtain ⟨hfirst, hold⟩ := hold
                obtain rfl : p = g := Option.some.inj (hnames.symm.trans hfirst)
                have hlink := h.link_ne hideal hkey hr hp hprev List.mem_cons_self hg hnames
                have hnew' := hnew.2
                simp only [hentry] at hold
                simp only [(rehash_chained _ _ _ _ hkey hr).2.1] at hnew'
                refine ih htail ?_ (Digest.hex_noNul _) hlink hold hnew'
                rw [(rehash_chained _ _ _ _ hkey hr).2.2]
                exact Digest.hex_noNul _
            | false =>
                rw [(rehash_marker hr).2.2] at htail hnew
                rw [List.filter_cons_of_neg (ne_true_of_eq_false hr)] at hold
                rw [List.filter_cons_of_neg
                  (ne_true_of_eq_false ((rehash_chained_eq hkey).trans hr))] at hnew
                exact ih htail hprev hg hne hold hnew
          exact List.forall_mem_cons.mpr ⟨fun _ => hp, hlater⟩
      | false =>
          have htail := h.tail_kept hp
          rw [resign_kept hp] at hnew
          cases hr : r.chained with
          | true =>
              -- the row still names the old link
              rw [List.filter_cons_of_pos hr] at hold hnew
              exact absurd (Option.some.inj (hold.1.symm.trans hnew.1)) hne
          | false =>
              rw [List.filter_cons_of_neg (ne_true_of_eq_false hr)] at hold hnew
              have hlater := ih htail hprev hg hne hold hnew
              exact List.forall_mem_cons.mpr ⟨fun h => absurd h (ne_true_of_eq_false hr), hlater⟩

/-- After a row that was not signed anew no row is. -/
theorem Hashed.kept_of_eq (h : Hashed hmac key loads secret M GENESIS_HMAC rows)
    (hideal : Ideal hmac key M) (hkey : key ≠ "") (hne : g ≠ GENESIS_HMAC)
    (hnew : Chain.Linked (fun r : LegacyRow => r.prev_hmac) (fun r => r.entry_hmac) (some g)
      ((resign hmac key loads secret GENESIS_HMAC rows).filter LegacyRow.chained)) :
    ∀ r ∈ rows, r.chained = true → r.pending = false := by
  induction rows generalizing g with
  | nil => exact fun r hr => absurd hr List.not_mem_nil
  | cons r rows ih =>
      have hlater : (r.chained = true → r.pending = false) ∧
          ∀ r ∈ rows, r.chained = true → r.pending = false := by
        cases hp : r.pending with
        | true =>
            have htail := h.tail_pending hp
            rw [resign_pending hp] at hnew
            cases hr : r.chained with
            | true =>
                -- the loop begins at the genesis sentinel
                rw [List.filter_cons_of_pos ((rehash_chained_eq hkey).trans hr)] at hnew
                have hnames := (rehash_chained hmac loads secret GENESIS_HMAC hkey hr).1
                exact absurd (Option.some.inj (hnames.symm.trans hnew.1)).symm hne
            | false =>
                rw [(rehash_marker hr).2.2] at htail hnew
                rw [List.filter_cons_of_neg
                  (ne_true_of_eq_false ((rehash_chained_eq hkey).trans hr))] at hnew
                refine ⟨fun hchained => ?_, ih htail hne hnew⟩
                cases hchained
        | false =>
            have htail := h.tail_kept hp
            rw [resign_kept hp] at hnew
            refine ⟨fun _ => rfl, ?_⟩
            cases hr : r.chained with
            | true =>
                obtain ⟨p, hnames, hentry⟩ := h.sealed r List.mem_cons_self hr
                rw [List.filter_cons_of_pos hr] at hnew
                have hnew' := hnew.2
                simp only [hentry] at hnew'
                exact ih htail (hideal.genesis _ (h.old r List.mem_cons_self p hnames)) hnew'
            | false =>
                rw [List.filter_cons_of_neg (ne_true_of_eq_false hr)] at hnew
                exact ih htail hne hnew
      exact List.forall_mem_cons.mpr hlater

/-- **A chain that is linked afterwards** was signed anew in all of its rows, or in none. -/
theorem Hashed.all_or_none (h : Hashed hmac key loads secret M GENESIS_HMAC rows)
    (hideal : Ideal hmac key M) (hkey : key ≠ "")
    (hold : Chain.Linked (fun r : LegacyRow => r.prev_hmac) (fun r => r.entry_hmac) (some GENESIS_HMAC)
      (rows.filter LegacyRow.chained))
    (hnew : Chain.Linked (fun r : LegacyRow => r.prev_hmac) (fun r => r.entry_hmac) (some GENESIS_HMAC)
      ((resign hmac key loads secret GENESIS_HMAC rows).filter LegacyRow.chained)) :
    (∀ r ∈ rows, r.chained = true → r.pending = true) ∨
      ∀ r ∈ rows, r.chained = true → r.pending = false := by
  induction rows with
  | nil => exact .inl fun r hr => absurd hr List.not_mem_nil
  | cons r rows ih =>
      cases hr : r.chained with
      | false =>
          have hmem : ∀ {b : Bool}, (∀ r ∈ rows, r.chained = true → r.pending = b) →
              ∀ r' ∈ r :: rows, r'.chained = true → r'.pending = b := by
            intro b hall
            exact List.forall_mem_cons.mpr ⟨fun h => absurd h (ne_true_of_eq_false hr), hall⟩
          rw [List.filter_cons_of_neg (ne_true_of_eq_false hr)] at hold
          cases hp : r.pending with
          | true =>
              have htail := h.tail_pending hp
              rw [resign_pending hp] at hnew
              rw [(rehash_marker hr).2.2] at htail hnew
              rw [List.filter_cons_of_neg (ne_true_of_eq_false ((rehash_chained_eq hkey).trans hr))] at hnew
              exact (ih htail hold hnew).imp hmem hmem
          | false =>
              have htail := h.tail_kept hp
              rw [resign_kept hp, List.filter_cons_of_neg (ne_true_of_eq_false hr)] at hnew
              exact (ih htail hold hnew).imp hmem hmem
      | true =>
          obtain ⟨p, hnames, hentry⟩ := h.sealed r List.mem_cons_self hr
          rw [List.filter_cons_of_pos hr] at hold
          obtain ⟨hfirst, hold⟩ := hold
          obtain rfl : p = GENESIS_HMAC := Option.some.inj (hnames.symm.trans hfirst)
          simp only [hentry] at hold
          cases hp : r.pending with
          | true =>
              have htail := h.tail_pending hp
              rw [resign_pending hp,
                List.filter_cons_of_pos ((rehash_chained_eq hkey).trans hr)] at hnew
              have hnew' := hnew.2
              simp only [(rehash_chained _ _ _ _ hkey hr).2.1] at hnew'
              have hlink := h.link_ne hideal hkey hr hp genesis_noNul List.mem_cons_self genesis_noNul
                hnames
              have hlater : ∀ r ∈ rows, r.chained = true → r.pending = true := by
                refine htail.pending_of_ne hideal hkey ?_ (Digest.hex_noNul _) hlink hold hnew'
                rw [(rehash_chained _ _ _ _ hkey hr).2.2]
                exact Digest.hex_noNul _
              exact .inl (List.forall_mem_cons.mpr ⟨fun _ => hp, hlater⟩)
          | false =>
              have htail := h.tail_kept hp
              rw [resign_kept hp, List.filter_cons_of_pos hr] at hnew
              have hnew' := hnew.2
              simp only [hentry] at hnew'
              have hlater := htail.kept_of_eq hideal hkey
                (hideal.genesis _ (h.old r List.mem_cons_self _ hnames)) hnew'
              exact .inr (List.forall_mem_cons.mpr ⟨fun _ => hp, hlater⟩)

/-! ## The unique index -/

variable (hmac key loads secret prev) in
/-- The step is made when the index has the new link only once. -/
theorem backfillRow_ok {done rest : List LegacyRow} (hids : ((done ++ r :: rest).map (·.id)).Nodup)
    (hunique : (rehash hmac key loads secret prev r).1.entry_hmac.isSome = true →
      ∀ r' ∈ done ++ r :: rest, r'.entry_hmac ≠ (rehash hmac key loads secret prev r).1.entry_hmac) :
    backfillRow hmac key loads secret (prev, done ++ r :: rest) r
      = .ok ((rehash hmac key loads secret prev r).2,
        done ++ [(rehash hmac key loads secret prev r).1] ++ rest) := by
  have hupdate : ∃ table, updateRow (rehash hmac key loads secret prev r).1 (done ++ r :: rest)
      = .ok table := by
    refine ⟨_, if_neg ?_⟩
    rw [Bool.and_eq_true, List.any_eq_true]
    rintro ⟨hsome, r', hr', hsame⟩
    rw [Bool.and_eq_true, decide_eq_true_eq, decide_eq_true_eq] at hsame
    exact hunique hsome r' hr' hsame.2
  obtain ⟨table, hupdate⟩ := hupdate
  have htable := updateRow_eq hids rehash_id rehash_columns hupdate
  rw [backfillRow, List.append_assoc, List.singleton_append, ← htable]
  exact Python.bind_eq_ok.mpr ⟨table, hupdate, rfl⟩

variable (hmac key M) in
/-- The rows that the loop has behind it, with their new links. -/
structure Relinked (prev : String) (done : List LegacyRow) : Prop where
  linked : Chain.Linked (fun r : LegacyRow => r.prev_hmac) (fun r => r.entry_hmac) (some GENESIS_HMAC)
    (done.filter LegacyRow.chained)
  tip : tip (fun r : LegacyRow => r.entry_hmac) (some GENESIS_HMAC) (done.filter LegacyRow.chained)
    = some prev
  nodup : (some GENESIS_HMAC :: (done.filter LegacyRow.chained).map fun r => r.entry_hmac).Nodup
  sealed : ∀ r ∈ done, r.chained = true → ∃ p, ∃ a : AuditLog, r.prev_hmac = some p ∧
    r.entry_hmac = some (hmac key.toUTF8 (a.message p)).hex ∧ a.message p ∈ M ∧ a.Clean ∧ NoNul p
  noNul : NoNul prev

variable {done rest : List LegacyRow}

theorem Relinked.marker (h : Relinked hmac key M prev done) (hr : r.chained = false) :
    Relinked hmac key M prev (done ++ [r]) := by
  have hfilter : (done ++ [r]).filter LegacyRow.chained = done.filter LegacyRow.chained := by
    rw [List.filter_append, List.filter_cons_of_neg (ne_true_of_eq_false hr), List.filter_nil,
      List.append_nil]
  refine ⟨?_, ?_, ?_, fun r' hr' hchained => ?_, h.noNul⟩
  · rw [hfilter]
    exact h.linked
  · rw [hfilter]
    exact h.tip
  · rw [hfilter]
    exact h.nodup
  · rcases List.mem_append.mp hr' with hr' | hr'
    · exact h.sealed r' hr' hchained
    · rw [List.mem_singleton.mp hr', hr] at hchained
      cases hchained

/-- The next link is a new one. -/
theorem Relinked.fresh (h : Relinked hmac key M prev done)
    (hrest : Hashed hmac key loads secret M prev (r :: rest)) (hideal : Ideal hmac key M) (hkey : key ≠ "")
    (hr : r.chained = true) (hp : r.pending = true) :
    some (rehash hmac key loads secret prev r).2
      ∉ some GENESIS_HMAC :: (done.filter LegacyRow.chained).map fun r => r.entry_hmac := by
  have hmem := hrest.signed_mem hkey hr hp
  have hlink := (rehash_chained hmac loads secret prev hkey hr).2.2
  rw [List.mem_cons, not_or]
  constructor
  · rw [hlink, Option.some.injEq]
    exact hideal.genesis _ hmem
  · intro hold
    obtain ⟨r', hr', hentry⟩ := List.mem_map.mp hold
    obtain ⟨hdone, hchained⟩ := List.mem_filter.mp hr'
    obtain ⟨p, a, hnames, hsealed, ha, hclean, hnul⟩ := h.sealed r' hdone hchained
    -- the two rows would name the same link, which is the last one
    rw [hsealed, hlink, Option.some.injEq] at hentry
    have hmessage := hideal.hex_inj ha hmem hentry
    have hclean' := signed_clean hmac key secret prev (hrest.stored r List.mem_cons_self)
    have hsame : p = prev := message_prev_inj hnul h.noNul hclean hclean' hmessage
    refine h.linked.prev_ne_tip h.nodup hr' ?_
    rw [hnames, h.tip, hsame]

theorem Relinked.signed (h : Relinked hmac key M prev done)
    (hrest : Hashed hmac key loads secret M prev (r :: rest)) (hideal : Ideal hmac key M) (hkey : key ≠ "")
    (hr : r.chained = true) (hp : r.pending = true) :
    Relinked hmac key M (rehash hmac key loads secret prev r).2
      (done ++ [(rehash hmac key loads secret prev r).1]) := by
  obtain ⟨hnames, hentry, hlink⟩ := rehash_chained hmac loads secret prev hkey hr
  have hfresh := h.fresh hrest hideal hkey hr hp
  have hfilter : (done ++ [(rehash hmac key loads secret prev r).1]).filter LegacyRow.chained
      = done.filter LegacyRow.chained ++ [(rehash hmac key loads secret prev r).1] := by
    rw [List.filter_append, List.filter_cons_of_pos ((rehash_chained_eq hkey).trans hr), List.filter_nil]
  refine ⟨?_, ?_, ?_, fun r' hr' hchained => ?_, ?_⟩
  · rw [hfilter, linked_concat]
    exact ⟨h.linked, hnames.trans h.tip.symm⟩
  · rw [hfilter, tip_concat]
    exact hentry
  · rw [hfilter, List.map_append, ← List.cons_append]
    refine List.Nodup.append h.nodup (List.nodup_singleton _) ?_
    rw [List.map_singleton, hentry, List.disjoint_singleton]
    exact hfresh
  · rcases List.mem_append.mp hr' with hr' | hr'
    · exact h.sealed r' hr' hchained
    · rw [List.mem_singleton.mp hr']
      refine ⟨prev, _, hnames, hentry.trans (congrArg some hlink), hrest.signed_mem hkey hr hp, ?_, h.noNul⟩
      exact signed_clean hmac key secret prev (hrest.stored r List.mem_cons_self)
  · rw [hlink]
    exact Digest.hex_noNul _

/-- **The loop runs to its end** when it signs all rows of the chain. -/
theorem Relinked.foldlM_ok (h : Relinked hmac key M prev done)
    (hrest : Hashed hmac key loads secret M prev rest) (hideal : Ideal hmac key M) (hkey : key ≠ "")
    (hids : ((done ++ rest).map (·.id)).Nodup) (hall : ∀ r ∈ rest, r.chained = true → r.pending = true) :
    ∃ st, (rest.filter LegacyRow.pending).foldlM (backfillRow hmac key loads secret) (prev, done ++ rest)
      = .ok st := by
  induction rest generalizing prev done with
  | nil => exact ⟨_, rfl⟩
  | cons r rest ih =>
      obtain ⟨hpending, hall⟩ := List.forall_mem_cons.mp hall
      cases hp : r.pending with
      | false =>
          have hr : r.chained = false := by
            by_contra hne
            rw [hpending (Bool.eq_true_of_not_eq_false hne)] at hp
            cases hp
          have hsplit : done ++ r :: rest = done ++ [r] ++ rest := by simp
          rw [List.filter_cons_of_neg (ne_true_of_eq_false hp), hsplit]
          rw [hsplit] at hids
          exact ih (h.marker hr) (hrest.tail_kept hp) hids hall
      | true =>
          rw [List.filter_cons_of_pos hp, List.foldlM_cons]
          have hnext : Relinked hmac key M (rehash hmac key loads secret prev r).2
              (done ++ [(rehash hmac key loads secret prev r).1]) := by
            cases hr : r.chained with
            | true => exact h.signed hrest hideal hkey hr hp
            | false =>
                rw [(rehash_marker hr).2.2]
                exact h.marker ((rehash_chained_eq hkey).trans hr)
          have hunique : (rehash hmac key loads secret prev r).1.entry_hmac.isSome = true →
              ∀ r' ∈ done ++ r :: rest,
                r'.entry_hmac ≠ (rehash hmac key loads secret prev r).1.entry_hmac := by
            intro hsome r' hr' hsame
            have hr : r.chained = true := (rehash_chained_eq hkey).symm.trans hsome
            have hchained : r'.chained = true := by
              rw [LegacyRow.chained, hsame]
              exact hsome
            have hentry := (rehash_chained hmac loads secret prev hkey hr).2.1
            rw [hentry] at hsame
            rcases List.mem_append.mp hr' with hr' | hr'
            · refine h.fresh hrest hideal hkey hr hp (List.mem_cons_of_mem _ ?_)
              exact List.mem_map.mpr ⟨r', List.mem_filter.mpr ⟨hr', hchained⟩, hsame⟩
            · obtain ⟨p, hnames, hold⟩ := hrest.sealed r' hr' hchained
              rw [hold, Option.some.injEq] at hsame
              have hnul : NoNul p := hrest.names r' hr' hchained p hnames
              exact hrest.link_ne hideal hkey hr hp h.noNul hr' hnul hnames hsame
          have hstep := backfillRow_ok hmac key loads secret prev hids hunique
          rw [hstep]
          exact ih hnext (hrest.tail_pending hp) (by simpa [rehash_id] using hids) hall

/-- The loop runs to its end when it signs no row of the chain. -/
theorem foldlM_markers (hids : ((done ++ rest).map (·.id)).Nodup)
    (hnone : ∀ r ∈ rest, r.chained = true → r.pending = false) :
    ∃ st, (rest.filter LegacyRow.pending).foldlM (backfillRow hmac key loads secret) (prev, done ++ rest)
      = .ok st := by
  induction rest generalizing prev done with
  | nil => exact ⟨_, rfl⟩
  | cons r rest ih =>
      obtain ⟨hkept, hnone⟩ := List.forall_mem_cons.mp hnone
      cases hp : r.pending with
      | false =>
          have hsplit : done ++ r :: rest = done ++ [r] ++ rest := by simp
          rw [List.filter_cons_of_neg (ne_true_of_eq_false hp), hsplit]
          rw [hsplit] at hids
          exact ih hids hnone
      | true =>
          have hr : r.chained = false := by
            by_contra hne
            rw [hkept (Bool.eq_true_of_not_eq_false hne)] at hp
            cases hp
          rw [List.filter_cons_of_pos hp, List.foldlM_cons]
          have hstep := backfillRow_ok hmac key loads secret prev hids fun hsome => by
            rw [(rehash_marker hr).2.1] at hsome
            cases hsome
          rw [hstep]
          exact ih (by simpa [rehash_id] using hids) hnone

end Links

end Sthrip.Audit
