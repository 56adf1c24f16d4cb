import Sthrip.Envelope.DualRead
import Sthrip.Scripts.BackfillPaymentEnvelope

set_option autoImplicit false

/-! # What the backfill covers

A batch fills the rows that it can and skips the milestones without a deal, which are read again by the next
batch. So the loop over a table ends when a batch has room for one row more than those that it skips, and
then it leaves only these without an envelope.
-/

namespace Sthrip.Backfill

variable {E : EnvelopeCrypto} {T T' T'' : Tables E} {t : Table} {batch_size : ℕ} {draws : Draws}

/-! ## What an envelope has to say -/

def deals (T : Tables E) : List (Id × EscrowDeal) := (T .escrow_deals).map fun p => (p.id, p.row)

/-- The participants, the amount and the description of a row. Nothing for a parentless milestone. -/
def payload (T : Tables E) : (t : Table) → t.Row → Option Payload
  | .transactions, tx => some (normalizePayload tx.from_agent_id tx.to_agent_id (some tx.amount) tx.memo)
  | .escrow_deals, deal =>
      some (normalizePayload (some deal.buyer_id) (some deal.seller_id) (some deal.amount)
        (some deal.description))
  | .escrow_milestones, ms =>
      ((deals T).lookup ms.escrow_id).map fun deal =>
        normalizePayload (some deal.buyer_id) (some deal.seller_id) (some ms.amount) (some ms.description)
  | .message_relays, relay =>
      some (normalizePayload (some relay.from_agent_id) (some relay.to_agent_id) none relay.payment_id)

/-- The row afterwards is the row before, or has an envelope with what it has to say. -/
structure Filled (T : Tables E) (t : Table) (r r' : Stored E t.Row) : Prop where
  id : r'.id = r.id
  row : r'.row = r.row
  kept : r.participant_envelope ≠ none → r' = r
  right : r.participant_envelope = none → ∀ envelope ∈ r'.participant_envelope,
    ∃ p, payload T t r.row = some p ∧ E.decryptEnvelope envelope = some p

/-- The rows are those before, each of them filled or not. -/
def Grown (T T' : Tables E) : Prop :=
  ∀ t, ∃ fill : Stored E t.Row → Stored E t.Row, T' t = (T t).map fill ∧ ∀ r, Filled T t r (fill r)

/-- Every row other than a parentless milestone has an envelope. -/
def Done (T : Tables E) (t : Table) : Prop :=
  ∀ r ∈ T t, (payload T t r.row).isSome → r.participant_envelope.isSome

/-- The envelopes that are there say what they have to. -/
def Right (T : Tables E) : Prop :=
  ∀ t, ∀ r ∈ T t, ∀ envelope ∈ r.participant_envelope, ∀ p ∈ payload T t r.row,
    E.decryptEnvelope envelope = some p

/-- What the backfill has to make of the tables. -/
structure Covers (T T' : Tables E) : Prop where
  grown : Grown T T'
  done : ∀ t, Done T' t
  right : Right T → Right T'

theorem Filled.refl (T : Tables E) (t : Table) (r : Stored E t.Row) : Filled T t r r where
  id := rfl
  row := rfl
  kept _ := rfl
  right hnone envelope henvelope := by
    rw [hnone] at henvelope
    cases henvelope

namespace Grown

theorem refl (T : Tables E) : Grown T T := fun t => ⟨id, (List.map_id _).symm, Filled.refl T t⟩

theorem deals_eq (h : Grown T T') : deals T' = deals T := by
  obtain ⟨fill, hfill, hfilled⟩ := h .escrow_deals
  unfold deals
  rw [hfill, List.map_map]
  refine List.map_congr_left fun p _ => ?_
  rw [Function.comp_apply, (hfilled p).id, (hfilled p).row]

theorem payload_eq (h : Grown T T') (t : Table) (row : t.Row) : payload T' t row = payload T t row := by
  cases t with
  | escrow_milestones => simp only [payload, h.deals_eq]
  | _ => rfl

theorem trans (h : Grown T T') (h' : Grown T' T'') : Grown T T'' := by
  intro t
  obtain ⟨fill, hfill, hfilled⟩ := h t
  obtain ⟨fill', hfill', hfilled'⟩ := h' t
  refine ⟨fill' ∘ fill, by rw [hfill', hfill, List.map_map], fun r => ?_⟩
  have hr := hfilled r
  have hr' := hfilled' (fill r)
  refine ⟨hr'.id.trans hr.id, hr'.row.trans hr.row, ?_, ?_⟩
  · intro hsome
    have hsame := hr.kept hsome
    rw [Function.comp_apply, hr'.kept (by rwa [hsame]), hsame]
  · intro hnone envelope henvelope
    by_cases hfirst : (fill r).participant_envelope = none
    · obtain ⟨p, hp, hdecrypt⟩ := hr'.right hfirst envelope henvelope
      rw [h.payload_eq, hr.row] at hp
      exact ⟨p, hp, hdecrypt⟩
    · rw [Function.comp_apply, hr'.kept hfirst] at henvelope
      exact hr.right hnone envelope henvelope

theorem done (h : Grown T T') (hdone : Done T t) : Done T' t := by
  obtain ⟨fill, hfill, hfilled⟩ := h t
  intro r' hr' hpayload
  rw [hfill] at hr'
  obtain ⟨r, hr, rfl⟩ := List.mem_map.mp hr'
  rw [h.payload_eq, (hfilled r).row] at hpayload
  have hsome := hdone r hr hpayload
  rwa [(hfilled r).kept (Option.isSome_iff_ne_none.mp hsome)]

theorem right (h : Grown T T') (hright : Right T) : Right T' := by
  intro t r' hr' envelope henvelope p hp
  obtain ⟨fill, hfill, hfilled⟩ := h t
  rw [hfill] at hr'
  obtain ⟨r, hr, rfl⟩ := List.mem_map.mp hr'
  rw [h.payload_eq, (hfilled r).row] at hp
  by_cases hnone : r.participant_envelope = none
  · obtain ⟨p', hp', hdecrypt⟩ := (hfilled r).right hnone envelope henvelope
    rw [Option.mem_def, hp'] at hp
    rwa [← Option.some.inj hp]
  · rw [(hfilled r).kept hnone] at henvelope
    exact hright t r hr envelope henvelope p hp

end Grown

/-! ## What a batch does -/

theorem lookup_resolveMilestoneParents (ds : List (Stored E EscrowDeal))
    (milestones : List (Stored E MilestoneRow)) (escrow_id : Id) :
    (resolveMilestoneParents ds milestones).lookup escrow_id =
      if escrow_id ∈ milestones.map fun ms => ms.row.escrow_id then
        ((ds.map fun p => (p.id, p.row)).lookup escrow_id).map fun deal => (deal.buyer_id, deal.seller_id)
      else none := by
  unfold resolveMilestoneParents
  dsimp only
  generalize milestones.map (fun ms => ms.row.escrow_id) = escrow_ids
  induction ds with
  | nil => simp
  | cons p ds ih =>
      rw [List.filter_cons, List.map_cons, List.lookup_cons]
      by_cases hid : escrow_id = p.id
      · subst hid
        by_cases hmem : p.id ∈ escrow_ids
        · simp [hmem]
        · rw [if_neg (by simpa using hmem), ih, if_neg hmem, if_neg hmem]
      · have hne : (escrow_id == p.id) = false := beq_false_of_ne hid
        rw [hne]
        dsimp only
        rw [← ih]
        by_cases hmem : p.id ∈ escrow_ids
        · rw [if_pos (by simpa using hmem), List.map_cons, List.lookup_cons, hne]
        · rw [if_neg (by simpa using hmem)]

/-- Whom a batch names in an envelope are those of the payload. -/
theorem payload_of_participants {rows : List (Stored E t.Row)} {row : t.Row} {from_id to_id : Option Id}
    (h : participants (parentMap T t rows) t row = some (from_id, to_id)) :
    payload T t row = some (normalizePayload from_id to_id (t.spec.amount_attr.map fun attr => attr row)
      (t.spec.description_attr.bind fun attr => attr row)) := by
  cases t with
  | escrow_milestones =>
      have h : ((resolveMilestoneParents (T .escrow_deals) rows).lookup row.escrow_id).map
          (fun who => (some who.1, some who.2)) = some (from_id, to_id) := h
      rw [lookup_resolveMilestoneParents] at h
      split_ifs at h with hmem
      · cases hdeal : ((T .escrow_deals).map fun p => (p.id, p.row)).lookup row.escrow_id with
        | none => rw [hdeal] at h; cases h
        | some deal =>
            rw [hdeal] at h
            cases h
            simp [payload, deals, hdeal, Table.spec]
      · cases h
  | _ =>
      cases h
      rfl

/-- A batch skips none of its rows that can have an envelope. -/
theorem participants_isSome {rows : List (Stored E t.Row)} {r : Stored E t.Row} (hr : r ∈ rows)
    (h : (payload T t r.row).isSome) : (participants (parentMap T t rows) t r.row).isSome := by
  cases t with
  | escrow_milestones =>
      have hmem : r.row.escrow_id ∈ rows.map fun ms => ms.row.escrow_id := List.mem_map_of_mem hr
      have hlookup := lookup_resolveMilestoneParents (T .escrow_deals) rows r.row.escrow_id
      rw [if_pos hmem] at hlookup
      simpa [participants, parentMap, hlookup, payload, deals] using h
  | _ => rfl

/-- What a batch makes of a row of its table. -/
def fill (batch_size : ℕ) (draws : Draws) (T : Tables E) (t : Table) (row : Stored E t.Row) :
    Stored E t.Row :=
  let rows := batch batch_size (T t)
  if row.id ∈ rows.map Stored.id then
    (backfillRow t (draws t row.id) row (parentMap T t rows) false).1
  else row

theorem fill_filled (batch_size : ℕ) (draws : Draws) (T : Tables E) (t : Table) (row : Stored E t.Row) :
    Filled T t row (fill batch_size draws T t row) := by
  unfold fill
  dsimp only
  split_ifs
  · unfold backfillRow
    by_cases hsome : row.participant_envelope.isSome
    · rw [if_pos hsome]
      exact Filled.refl T t row
    rw [if_neg hsome]
    cases hwho : participants (parentMap T t (batch batch_size (T t))) t row.row with
    | none => exact Filled.refl T t row
    | some who =>
        dsimp only
        unfold applyEnvelope
        rw [if_neg hsome]
        refine ⟨rfl, rfl, fun h => ?_, fun _ envelope henvelope => ?_⟩
        · exact absurd (Option.isSome_iff_ne_none.mpr h) hsome
        · cases henvelope
          exact ⟨_, payload_of_participants hwho, E.decrypt_encrypt _ _⟩
  · exact Filled.refl T t row

theorem fill_isSome (draws : Draws) {row : Stored E t.Row} (hrow : row ∈ batch batch_size (T t))
    (h : (payload T t row.row).isSome) : (fill batch_size draws T t row).participant_envelope.isSome := by
  obtain ⟨who, hwho⟩ := Option.isSome_iff_exists.mp (participants_isSome hrow h)
  unfold fill
  dsimp only
  rw [if_pos (List.mem_map_of_mem hrow)]
  unfold backfillRow
  by_cases hsome : row.participant_envelope.isSome
  · rwa [if_pos hsome]
  rw [if_neg hsome, hwho]
  dsimp only
  unfold applyEnvelope
  rw [if_neg hsome]
  rfl

/-- A turn of the loop finds no row, or fills those of a batch. -/
theorem backfillTurn_cases (batch_size : ℕ) (draws : Draws) (t : Table) (T : Tables E) (stats : Stats) :
    (batch batch_size (T t) = [] ∧ backfillTurn batch_size false draws t (T, stats) = ((T, stats), true)) ∨
      ∃ stats', backfillTurn batch_size false draws t (T, stats) =
        ((Function.update T t ((T t).map (fill batch_size draws T t)), stats'),
          decide ((batch batch_size (T t)).length < batch_size)) := by
  unfold backfillTurn
  dsimp only
  by_cases hempty : (batch batch_size (T t)).isEmpty
  · exact .inl ⟨List.isEmpty_iff.mp hempty, if_pos hempty⟩
  · rw [if_neg hempty]
    exact .inr ⟨_, rfl⟩

theorem grown_update : Grown T (Function.update T t ((T t).map (fill batch_size draws T t))) := by
  intro t'
  by_cases ht : t' = t
  · subst ht
    exact ⟨_, Function.update_self .., fill_filled batch_size draws T t'⟩
  · exact ⟨id, by rw [Function.update_of_ne ht, List.map_id], Filled.refl T t'⟩

theorem grown_backfillTurn (batch_size : ℕ) (draws : Draws) (t : Table) (T : Tables E) (stats : Stats) :
    Grown T (backfillTurn batch_size false draws t (T, stats)).1.1 := by
  rcases backfillTurn_cases batch_size draws t T stats with ⟨-, heq⟩ | ⟨stats', heq⟩
  · rw [heq]
    exact Grown.refl T
  · rw [heq]
    exact grown_update

/-- When not all rows that wait fill a batch, it reads them all. -/
theorem mem_batch (hlt : (batch batch_size (T t)).length < batch_size) {r : Stored E t.Row} (hr : r ∈ T t)
    (hnone : r.participant_envelope = none) : r ∈ batch batch_size (T t) := by
  have hmem : r ∈ (T t).filter fun row => row.participant_envelope.isNone :=
    List.mem_filter.mpr ⟨hr, by rw [hnone]; rfl⟩
  unfold batch at hlt ⊢
  rw [List.length_take] at hlt
  rwa [List.take_of_length_le (by omega)]

/-- When the loop over a table ends, all that is left in it are parentless milestones. -/
theorem done_of_break {stats : Stats} (hpos : 1 ≤ batch_size)
    (h : (backfillTurn batch_size false draws t (T, stats)).2 = true) :
    Done (backfillTurn batch_size false draws t (T, stats)).1.1 t := by
  rcases backfillTurn_cases batch_size draws t T stats with ⟨hempty, heq⟩ | ⟨stats', heq⟩
  · rw [heq]
    intro r hr _
    by_contra hnone
    have hmem : r ∈ batch batch_size (T t) :=
      mem_batch (by rw [hempty]; exact hpos) hr (Option.not_isSome_iff_eq_none.mp hnone)
    rw [hempty] at hmem
    cases hmem
  · rw [heq] at h ⊢
    have hlt := of_decide_eq_true h
    intro r' hr' hpayload
    dsimp only at hr'
    rw [Function.update_self] at hr'
    obtain ⟨r, hr, rfl⟩ := List.mem_map.mp hr'
    have hfilled := fill_filled batch_size draws T t r
    rw [grown_update.payload_eq, hfilled.row] at hpayload
    by_cases hnone : r.participant_envelope = none
    · exact fill_isSome draws (mem_batch hlt hr hnone) hpayload
    · rw [hfilled.kept hnone]
      exact Option.isSome_iff_ne_none.mpr hnone

/-! ## When the loop over a table ends -/

theorem countP_map_lt {α : Type} {f : α → α} {p q : α → Bool} {l : List α} {a : α}
    (himp : ∀ b ∈ l, p (f b) = true → q b = true) (ha : a ∈ l) (hq : q a = true) (hp : p (f a) = false) :
    (l.map f).countP p < l.countP q := by
  obtain ⟨l₁, l₂, rfl⟩ := List.append_of_mem ha
  have hle : ∀ l' : List α, (∀ b ∈ l', b ∈ l₁ ++ a :: l₂) → (l'.map f).countP p ≤ l'.countP q := by
    intro l' hl'
    rw [List.countP_map]
    exact List.countP_mono_left fun b hb => himp b (hl' b hb)
  have h₁ := hle l₁ fun b hb => List.mem_append_left _ hb
  have h₂ := hle l₂ fun b hb => List.mem_append_right _ (List.mem_cons_of_mem a hb)
  simp only [List.map_append, List.map_cons, List.countP_append, List.countP_cons, hq, hp, if_true,
    Bool.false_eq_true, if_false]
  omega

/-- The rows that still get an envelope. -/
def left (T : Tables E) (t : Table) : ℕ :=
  (T t).countP fun r => r.participant_envelope.isNone && (payload T t r.row).isSome

/-- The rows that every batch can only skip. -/
def stuck (T : Tables E) (t : Table) : ℕ :=
  (T t).countP fun r => r.participant_envelope.isNone && (payload T t r.row).isNone

theorem Grown.stuck_eq (h : Grown T T') : stuck T' t = stuck T t := by
  obtain ⟨fill, hfill, hfilled⟩ := h t
  unfold stuck
  rw [hfill, List.countP_map]
  refine List.countP_congr fun r _ => ?_
  have hr := hfilled r
  rw [Function.comp_apply, h.payload_eq, hr.row]
  by_cases hnone : r.participant_envelope = none
  · cases henvelope : (fill r).participant_envelope with
    | none => rw [hnone]
    | some envelope =>
        obtain ⟨p, hp, -⟩ := hr.right hnone envelope henvelope
        rw [hp]
        simp
  · rw [hr.kept hnone]

/-- A full batch that has room for a row that it does not skip fills such a row. -/
theorem left_lt {stats : Stats} (hroom : stuck T t < batch_size)
    (h : (backfillTurn batch_size false draws t (T, stats)).2 = false) :
    left (backfillTurn batch_size false draws t (T, stats)).1.1 t < left T t := by
  rcases backfillTurn_cases batch_size draws t T stats with ⟨-, heq⟩ | ⟨stats', heq⟩
  · rw [heq] at h
    cases h
  rw [heq] at h ⊢
  have hfull : batch_size ≤ (batch batch_size (T t)).length := by
    simpa using h
  have hsub : (batch batch_size (T t)).Sublist ((T t).filter fun row => row.participant_envelope.isNone) :=
    List.take_sublist _ _
  have hnone : ∀ r ∈ batch batch_size (T t), r ∈ T t ∧ r.participant_envelope.isNone = true :=
    fun r hr => List.mem_filter.mp (hsub.subset hr)
  -- otherwise the rows of the batch would all be among those that are skipped
  obtain ⟨r, hr, hpayload⟩ : ∃ r ∈ batch batch_size (T t), (payload T t r.row).isSome = true := by
    by_contra hskip
    push Not at hskip
    have hall : (batch batch_size (T t)).countP
        (fun r => r.participant_envelope.isNone && (payload T t r.row).isNone)
          = (batch batch_size (T t)).length := by
      refine List.countP_eq_length.mpr fun r hr => ?_
      have := hskip r hr
      simp [(hnone r hr).2, Option.not_isSome_iff_eq_none.mp this]
    have hle := (hsub.trans List.filter_sublist).countP_le
      (p := fun r => r.participant_envelope.isNone && (payload T t r.row).isNone)
    unfold stuck at hroom
    omega
  have hfilled := fill_isSome draws hr hpayload
  unfold left
  dsimp only
  rw [Function.update_self]
  refine countP_map_lt (fun b _ hb => ?_) (hnone r hr).1 ?_ ?_
  · have hb' := fill_filled batch_size draws T t b
    rw [grown_update.payload_eq, hb'.row] at hb
    by_cases hnone : b.participant_envelope = none
    · rw [hnone]
      exact (Bool.and_eq_true _ _ ▸ hb).2
    · rwa [hb'.kept hnone] at hb
  · rw [(hnone r hr).2, hpayload]
    rfl
  · rw [Option.isNone_eq_false_iff.mpr hfilled]
    rfl

/-- A batch is always full while there are enough rows to skip. -/
theorem not_break {stats : Stats} (hpos : 1 ≤ batch_size) (hstuck : batch_size ≤ stuck T t) :
    (backfillTurn batch_size false draws t (T, stats)).2 = false := by
  have hfull : (batch batch_size (T t)).length = batch_size := by
    have hle : stuck T t ≤ ((T t).filter fun row => row.participant_envelope.isNone).length := by
      rw [← List.countP_eq_length_filter]
      exact List.countP_mono_left fun r _ hr => (Bool.and_eq_true _ _ ▸ hr).1
    unfold batch
    rw [List.length_take]
    omega
  rcases backfillTurn_cases batch_size draws t T stats with ⟨hempty, -⟩ | ⟨stats', heq⟩
  · rw [hempty] at hfull
    exact absurd hfull (by rw [List.length_nil]; omega)
  · rw [heq, hfull]
    simp

theorem grown_turn (batch_size : ℕ) (draws : Draws) (t : Table) {s : Tables E × Stats} (hs : Grown T s.1) :
    Grown T (backfillTurn batch_size false draws t s).1.1 :=
  hs.trans (grown_backfillTurn batch_size draws t s.1 s.2)

theorem backfillTable_grown {fuel : ℕ} {stats : Stats}
    (h : backfillTable batch_size false draws fuel t T = some (T', stats)) : Grown T T' := by
  obtain ⟨last, hlast, -, heq⟩ := Python.whileTrue_last (I := fun s : Tables E × Stats => Grown T s.1)
    (fun s hs _ => grown_turn batch_size draws t hs) (Grown.refl T) h
  have hT : T' = (backfillTurn batch_size false draws t last).1.1 := congrArg Prod.fst heq
  rw [hT]
  exact grown_turn batch_size draws t hlast

theorem backfillTable_done {fuel : ℕ} {stats : Stats} (hpos : 1 ≤ batch_size)
    (h : backfillTable batch_size false draws fuel t T = some (T', stats)) : Done T' t := by
  obtain ⟨last, -, hbreak, heq⟩ :=
    Python.whileTrue_last (I := fun _ => True) (fun _ _ _ => trivial) trivial h
  have hT : T' = (backfillTurn batch_size false draws t last).1.1 := congrArg Prod.fst heq
  rw [hT]
  exact done_of_break hpos hbreak

theorem backfillTable_ends (draws : Draws) (hroom : stuck T t < batch_size) :
    ∃ n T' stats, ∀ fuel ≥ n, backfillTable batch_size false draws fuel t T = some (T', stats) := by
  have hless : ∀ s : Tables E × Stats, Grown T s.1 →
      (backfillTurn batch_size false draws t s).2 = false →
      left (backfillTurn batch_size false draws t s).1.1 t < left s.1 t :=
    fun s hs hgo => left_lt (by rwa [hs.stuck_eq]) hgo
  obtain ⟨⟨T', stats⟩, hend⟩ := Python.whileTrue_ends (fun s : Tables E × Stats => left s.1 t)
    (fun s hs _ => grown_turn batch_size draws t hs) hless (s := (T, {})) (Grown.refl T)
  exact ⟨_, T', stats, fun fuel hfuel => Python.whileTrue_mono hfuel hend⟩

theorem backfillTable_eq_none (draws : Draws) (hpos : 1 ≤ batch_size) (hstuck : batch_size ≤ stuck T t)
    (fuel : ℕ) : backfillTable batch_size false draws fuel t T = none := by
  refine Python.whileTrue_eq_none (I := fun s : Tables E × Stats => Grown T s.1) (fun s hs => ?_)
    (Grown.refl T) fuel
  exact ⟨not_break hpos (by rwa [hs.stuck_eq]), grown_turn batch_size draws t hs⟩

/-! ## When the run ends -/

theorem runTables_grown {fuel : ℕ} {ts : List Table} {results : List (Table × Stats)}
    (h : runTables none batch_size false draws fuel ts T = some (T', results)) : Grown T T' := by
  induction ts generalizing T results with
  | nil =>
      cases h
      exact Grown.refl T'
  | cons t ts ih =>
      obtain ⟨⟨T₁, stats⟩, htable, hrest⟩ := Option.bind_eq_some_iff.mp h
      obtain ⟨⟨T₂, results₂⟩, hrun, heq⟩ := Option.bind_eq_some_iff.mp hrest
      cases heq
      exact (backfillTable_grown htable).trans (ih hrun)

theorem runTables_done {fuel : ℕ} {ts : List Table} {results : List (Table × Stats)} (hpos : 1 ≤ batch_size)
    (h : runTables none batch_size false draws fuel ts T = some (T', results)) : ∀ t ∈ ts, Done T' t := by
  induction ts generalizing T results with
  | nil =>
      intro t ht
      cases ht
  | cons t ts ih =>
      obtain ⟨⟨T₁, stats⟩, htable, hrest⟩ := Option.bind_eq_some_iff.mp h
      obtain ⟨⟨T₂, results₂⟩, hrun, heq⟩ := Option.bind_eq_some_iff.mp hrest
      cases heq
      intro t' ht'
      rcases List.mem_cons.mp ht' with rfl | ht'
      · exact (runTables_grown hrun).done (backfillTable_done hpos htable)
      · exact ih hrun t' ht'

theorem runTables_ends (draws : Draws) {ts : List Table} (hroom : ∀ t ∈ ts, stuck T t < batch_size) :
    ∃ n, ∀ fuel ≥ n, ∃ T' results,
      runTables none batch_size false draws fuel ts T = some (T', results) := by
  induction ts generalizing T with
  | nil => exact ⟨0, fun fuel _ => ⟨T, [], rfl⟩⟩
  | cons t ts ih =>
      obtain ⟨n, T₁, stats, htable⟩ := backfillTable_ends draws (hroom t List.mem_cons_self)
      have hgrown := backfillTable_grown (htable n le_rfl)
      obtain ⟨m, hrun⟩ := ih (T := T₁) fun t' ht' => by
        rw [hgrown.stuck_eq]
        exact hroom t' (List.mem_cons_of_mem t ht')
      refine ⟨max n m, fun fuel hfuel => ?_⟩
      obtain ⟨T₂, results, hrest⟩ := hrun fuel (le_trans (le_max_right n m) hfuel)
      refine ⟨T₂, (t, stats) :: results, ?_⟩
      rw [runTables, if_neg (by simp), htable fuel (le_trans (le_max_left n m) hfuel)]
      simp [hrest]

theorem runTables_eq_none (draws : Draws) (hpos : 1 ≤ batch_size) {ts : List Table} (ht : t ∈ ts)
    (hstuck : batch_size ≤ stuck T t) (fuel : ℕ) :
    runTables none batch_size false draws fuel ts T = none := by
  induction ts generalizing T with
  | nil => cases ht
  | cons t' ts ih =>
      rw [runTables, if_neg (by simp)]
      cases htable : backfillTable batch_size false draws fuel t' T with
      | none => rfl
      | some out =>
          obtain ⟨T₁, stats⟩ := out
          rcases List.mem_cons.mp ht with rfl | ht
          · rw [backfillTable_eq_none draws hpos hstuck] at htable
            cases htable
          · have hrest := ih (T := T₁) ht (by rwa [(backfillTable_grown htable).stuck_eq])
            simp [hrest]

/-- A batch of an earlier run, which was committed before the run was broken off. -/
structure Batch where
  table : Table
  batch_size : ℕ
  draws : Draws

def partialRuns (T : Tables E) (earlier : List Batch) : Tables E :=
  earlier.foldl (fun T b => (backfillTurn b.batch_size false b.draws b.table (T, {})).1.1) T

theorem partialRuns_grown (T : Tables E) (earlier : List Batch) : Grown T (partialRuns T earlier) :=
  List.foldlRecOn earlier _ (Grown.refl T) fun _ hT b _ =>
    hT.trans (grown_backfillTurn b.batch_size b.draws b.table _ {})

/-- The milestones without an envelope whose deal is missing. -/
def parentless (T : Tables E) : List (Stored E MilestoneRow) :=
  (T .escrow_milestones).filter fun ms =>
    ms.participant_envelope = none ∧ (deals T).lookup ms.row.escrow_id = none

theorem stuck_milestones (T : Tables E) : stuck T .escrow_milestones = (parentless T).length := by
  unfold stuck parentless
  rw [List.countP_eq_length_filter]
  congr 2
  funext ms
  simp only [payload, Option.isNone_map, Bool.decide_and]
  cases ms.participant_envelope <;> cases (deals T).lookup ms.row.escrow_id <;> rfl

theorem stuck_of_ne (T : Tables E) (h : t ≠ .escrow_milestones) : stuck T t = 0 := by
  refine List.countP_eq_zero.mpr fun r _ => ?_
  cases t with
  | escrow_milestones => exact absurd rfl h
  | _ => simp [payload]

theorem mem_specs (t : Table) : t ∈ specs := by cases t <;> decide

/-- **When the backfill ends, and what it covers**: with any rows in the four tables and after any partial
runs, it ends exactly when a batch is larger than the number of milestones that it can only skip. -/
theorem backfill_covers_iff (T : Tables E) (earlier : List Batch) {batch_size : ℕ} (hpos : 1 ≤ batch_size)
    (draws : Draws) :
    (∃ fuel T' results,
        runBackfill none batch_size false draws fuel (partialRuns T earlier) = some (T', results)
          ∧ Covers T T' ∧ Covers (partialRuns T earlier) T')
      ↔ (parentless T).length < batch_size := by
  have hearlier := partialRuns_grown T earlier
  rw [← stuck_milestones]
  constructor
  · rintro ⟨fuel, T', results, hrun, -⟩
    by_contra hfull
    have hstuck : batch_size ≤ stuck (partialRuns T earlier) .escrow_milestones := by
      rw [hearlier.stuck_eq]
      omega
    unfold runBackfill at hrun
    rw [runTables_eq_none draws hpos (mem_specs .escrow_milestones) hstuck] at hrun
    cases hrun
  · intro hroom
    have hrooms : ∀ t ∈ specs, stuck (partialRuns T earlier) t < batch_size := by
      intro t _
      rw [hearlier.stuck_eq]
      by_cases ht : t = .escrow_milestones
      · rwa [ht]
      · rw [stuck_of_ne T ht]
        exact hpos
    obtain ⟨n, hends⟩ := runTables_ends draws hrooms
    obtain ⟨T', results, hrun⟩ := hends n le_rfl
    have hgrown := runTables_grown hrun
    have hdone : ∀ t, Done T' t := fun t => runTables_done hpos hrun t (mem_specs t)
    exact ⟨n, T', results, hrun, ⟨hearlier.trans hgrown, hdone, (hearlier.trans hgrown).right⟩,
      ⟨hgrown, hdone, hgrown.right⟩⟩

/-- A payment, and a milestone without its deal. -/
def orphan : Tables pairing
  | .transactions =>
      let row : Transaction :=
        { network := "monero", from_agent_id := some 7, to_agent_id := none, amount := 5
          memo := some "rent" }
      [{ id := 1, row }]
  | .escrow_milestones =>
      let row : MilestoneRow :=
        { escrow_id := 3, description := "phase-1", amount := 10, delivery_timeout_hours := 24
          review_timeout_hours := 24, status := .PENDING }
      [{ id := 2, row }]
  | _ => []

theorem backfill_covers_iff_orphan :
    ∃ fuel T' results, runBackfill none 2 false (fun _ _ => 0) fuel orphan = some (T', results)
      ∧ Covers orphan T' ∧ Covers orphan T' :=
  (backfill_covers_iff orphan [] (show 1 ≤ 2 by decide) fun _ _ => 0).mpr (by decide)

/-- With batches of one row the run does not end. -/
theorem backfill_never_ends :
    (parentless orphan).length = 1 ∧
      ¬∃ fuel T' results, runBackfill none 1 false (fun _ _ => 0) fuel orphan = some (T', results) := by
  refine ⟨by decide, ?_⟩
  rintro ⟨fuel, T', results, hrun⟩
  unfold runBackfill at hrun
  rw [runTables_eq_none _ le_rfl (mem_specs .escrow_milestones) (by decide)] at hrun
  cases hrun

end Sthrip.Backfill
