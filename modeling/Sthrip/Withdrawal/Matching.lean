import Sthrip.Api.Withdrawal

set_option autoImplicit false

/-! # Which transfer a withdrawal is matched to

A sweep matches a stale withdrawal to the first transfer of the wallet's list that fits it: to its
address, of its amount, within half an hour. It does not look whether the transfer is that of another
withdrawal, so two equal withdrawals are matched to one transfer, by one sweep or by two.

A sweep matches injectively iff no two stale withdrawals fit one transfer first, and none fits first a
transfer that another completed withdrawal has (`recovery_injective_iff`).
-/

namespace Sthrip

open Txn Prog

/-! ## Sweeps -/

/-- A sweep, with the wallet that it finds. -/
structure RecoverySweep where
  wallet_service : RecoveryWallet
  max_age_minutes : ℤ := 5

/-- The transfers that the wallet lists. -/
def RecoveryWallet.outgoing : RecoveryWallet → List OutgoingTransfer
  | .lists outgoing => outgoing
  | _ => []

/-- The transfer fits the withdrawal, and no transfer before it does. -/
def FitsFirst (outgoing : List OutgoingTransfer) (pw : PendingWithdrawal) (tx : OutgoingTransfer) :
    Prop :=
  ∃ before after, outgoing = before ++ tx :: after ∧ isMatch pw 30 tx = true ∧
    ∀ t ∈ before, isMatch pw 30 t = false

theorem findMatchingTransfer_eq_some {outgoing : List OutgoingTransfer} {pw : PendingWithdrawal}
    {tx : OutgoingTransfer} :
    findMatchingTransfer pw outgoing = some tx ↔ FitsFirst outgoing pw tx := by
  unfold findMatchingTransfer FitsFirst
  rw [List.find?_eq_some_iff_append]
  constructor
  · rintro ⟨hfits, before, after, hsplit, hbefore⟩
    exact ⟨before, after, hsplit, hfits, fun t ht => by simpa using hbefore t ht⟩
  · rintro ⟨before, after, hsplit, hfits, hbefore⟩
    exact ⟨hfits, before, after, hsplit, fun t ht => by simpa using hbefore t ht⟩

/-- The withdrawal is completed with the transaction. -/
def CompletedAs (db : DB schema) (id : Id) (tx_hash : String) : Prop :=
  ∃ pw, db.rows (Key.pendingWithdrawal id) = some pw ∧ pw.status = .COMPLETED ∧
    pw.tx_hash = some tx_hash

/-- The withdrawal was pending, and is completed with the transaction. -/
def Matched (db db' : DB schema) (id : Id) (tx_hash : String) : Prop :=
  (∃ pw, db.rows (Key.pendingWithdrawal id) = some pw ∧ pw.status = .PENDING) ∧
    CompletedAs db' id tx_hash

/-- A sweep leaves completed withdrawals as they are, and the transactions of those that it matches are
not those of others. -/
structure MatchesInjectively (db db' : DB schema) : Prop where
  keeps : ∀ id pw, db.rows (Key.pendingWithdrawal id) = some pw → pw.status = .COMPLETED →
    db'.rows (Key.pendingWithdrawal id) = some pw
  apart : ∀ id id' tx_hash, id ≠ id' → Matched db db' id tx_hash → ¬CompletedAs db' id' tx_hash

namespace RecoverySweep

def run (s : RecoverySweep) : Program Unit :=
  (WithdrawalThread.sweep s.wallet_service s.max_age_minutes).run .rounding

/-- The withdrawal is stale when the sweep lists the withdrawals. -/
def Stale (s : RecoverySweep) (now : Time) (db : DB schema) (id : Id) (pw : PendingWithdrawal) : Prop :=
  db.rows (Key.pendingWithdrawal id) = some pw ∧
    PendingWithdrawalRepository.isStale (now - minutes s.max_age_minutes) (Key.pendingWithdrawal id) pw
      = true

/-- No two stale withdrawals fit one transaction first, and none fits first the transaction of another
completed withdrawal. -/
structure Uncontested (s : RecoverySweep) (now : Time) (db : DB schema) : Prop where
  stale : ∀ id id' pw pw' tx tx', id ≠ id' → s.Stale now db id pw → s.Stale now db id' pw' →
    FitsFirst s.wallet_service.outgoing pw tx → FitsFirst s.wallet_service.outgoing pw' tx' →
      tx.tx_hash ≠ tx'.tx_hash
  recorded : ∀ id id' pw tx, id ≠ id' → s.Stale now db id pw →
    FitsFirst s.wallet_service.outgoing pw tx → ¬CompletedAs db id' tx.tx_hash

end RecoverySweep

/-! ## What a sweep does -/

/-- What the mark of a withdrawal makes of it. -/
def Marked (outgoing : List OutgoingTransfer) (pw pw' : PendingWithdrawal) : Prop :=
  match findMatchingTransfer pw outgoing with
  | some tx => pw'.status = .COMPLETED ∧ pw'.tx_hash = some tx.tx_hash
  | none => pw'.status ≠ .COMPLETED

section Loop

variable {outgoing : List OutgoingTransfer} {v : Solo schema} {Ok : StepCond schema}
  {l : List (Id × PendingWithdrawal)}

theorem recoverOne_always {a : Id × PendingWithdrawal} {pw : PendingWithdrawal}
    {Q : Bool → Solo schema → Prop} {R : Exn → Solo schema → Prop}
    (hrow : v.db.rows (Key.pendingWithdrawal a.1) = some pw)
    (h : ∀ pw', Marked outgoing a.2 pw' →
      Q true { v with db := v.db.put (Key.pendingWithdrawal a.1) pw' }) :
    (recoverOne outgoing a).always Ok Q R v := by
  unfold recoverOne
  split
  · next tx hfind =>
      refine always_bind (always_bind (always_now fun now => always_bind (always_update
        (fun r _ hr _ _ => ?_) fun hmiss => ?_)))
      · refine always_raiseIf (fun hf => absurd hf (by decide)) fun _ => h _ ?_
        unfold Marked
        rw [hfind]
        exact ⟨rfl, rfl⟩
      · exact absurd (hmiss pw hrow) (by decide)
  · next hfind =>
      refine always_bind (always_bind (always_update (fun r _ hr _ _ => ?_) fun hmiss => ?_))
      · refine always_raiseIf (fun hf => absurd hf (by decide)) fun _ => h _ ?_
        unfold Marked
        rw [hfind]
        exact fun hstatus => by cases hstatus
      · exact absurd (hmiss pw hrow) (by decide)

/-- The withdrawals of the list are marked, and no others. -/
structure ListSwept (outgoing : List OutgoingTransfer) (l : List (Id × PendingWithdrawal))
    (v v' : Solo schema) : Prop where
  others : ∀ id, id ∉ l.map Prod.fst →
    v'.db.rows (Key.pendingWithdrawal id) = v.db.rows (Key.pendingWithdrawal id)
  marked : ∀ a ∈ l, ∃ pw', v'.db.rows (Key.pendingWithdrawal a.1) = some pw' ∧
    Marked outgoing a.2 pw'
  saved : v'.saved = v.saved

/-- The run lemma of the loop. -/
theorem recoverList_always (hnodup : (l.map Prod.fst).Nodup)
    (hrows : ∀ a ∈ l, v.db.rows (Key.pendingWithdrawal a.1) = some a.2) :
    (tally l (recoverOne outgoing)).always Ok (fun _ v' => ListSwept outgoing l v v') (Unsaved v)
      v := by
  induction l generalizing v with
  | nil => exact ⟨fun _ _ => rfl, fun a ha => absurd ha List.not_mem_nil, rfl⟩
  | cons a l ih =>
      rw [List.map_cons, List.nodup_cons] at hnodup
      refine always_bind (recoverOne_always (hrows a List.mem_cons_self) fun pw' hmarked => ?_)
      have hother : ∀ {id}, id ≠ a.1 → (v.db.put (Key.pendingWithdrawal a.1) pw').rows
          (Key.pendingWithdrawal id) = v.db.rows (Key.pendingWithdrawal id) :=
        fun hne => DB.put_rows_ne _ _ (by simpa using hne)
      have hne : ∀ b ∈ l, b.1 ≠ a.1 := fun b hb he => hnodup.1 (he ▸ List.mem_map_of_mem hb)
      refine always_bind (always_mono (ih hnodup.2 fun b hb => ?_) (fun _ v' hl => ?_) fun _ _ h => h)
      · exact (hother (hne b hb)).trans (hrows b (List.mem_cons_of_mem a hb))
      · refine ⟨fun id hid => ?_, fun b hb => ?_, hl.saved⟩
        · rw [List.map_cons, List.mem_cons, not_or] at hid
          exact (hl.others id hid.2).trans (hother hid.1)
        · rcases List.mem_cons.mp hb with rfl | hb
          · exact ⟨pw', (hl.others b.1 hnodup.1).trans (DB.put_rows_self ..), hmarked⟩
          · exact hl.marked b hb

end Loop

namespace RecoverySweep

variable {s : RecoverySweep} {now : Time} {db db' : DB schema} {st : Store schema}
  {x : ℕ → Input schema}

/-- The stale withdrawals are marked, and no others. -/
structure Swept (s : RecoverySweep) (now : Time) (db db' : DB schema) : Prop where
  others : ∀ id, (∀ pw, ¬s.Stale now db id pw) →
    db'.rows (Key.pendingWithdrawal id) = db.rows (Key.pendingWithdrawal id)
  marked : ∀ id pw, s.Stale now db id pw → ∃ pw', db'.rows (Key.pendingWithdrawal id) = some pw' ∧
    Marked s.wallet_service.outgoing pw pw'

theorem Stale.pending {id : Id} {pw : PendingWithdrawal} (h : s.Stale now db id pw) :
    pw.status = .PENDING := (of_decide_eq_true h.2).1

/-- A completed withdrawal is not stale. -/
theorem not_stale {id : Id} {pw : PendingWithdrawal}
    (hrow : db.rows (Key.pendingWithdrawal id) = some pw) (hcompleted : pw.status = .COMPLETED)
    (pw' : PendingWithdrawal) : ¬s.Stale now db id pw' := by
  intro h
  obtain rfl := Option.some.inj (hrow.symm.trans h.1)
  rw [h.pending] at hcompleted
  cases hcompleted

/-- A stale withdrawal is completed with the first transfer that fits it. -/
theorem Swept.completedAs_iff (h : s.Swept now db db') {id : Id} {pw : PendingWithdrawal}
    (hstale : s.Stale now db id pw) {tx_hash : String} : CompletedAs db' id tx_hash ↔
      ∃ tx, FitsFirst s.wallet_service.outgoing pw tx ∧ tx.tx_hash = tx_hash := by
  obtain ⟨pw', hrow, hmarked⟩ := h.marked id pw hstale
  unfold Marked at hmarked
  constructor
  · rintro ⟨pw'', hrow', hcompleted, hhash⟩
    obtain rfl := Option.some.inj (hrow.symm.trans hrow')
    cases hfind : findMatchingTransfer pw s.wallet_service.outgoing with
    | none =>
        rw [hfind] at hmarked
        exact absurd hcompleted hmarked
    | some tx =>
        rw [hfind] at hmarked
        exact ⟨tx, findMatchingTransfer_eq_some.mp hfind,
          Option.some.inj (hmarked.2.symm.trans hhash)⟩
  · rintro ⟨tx, hfits, rfl⟩
    rw [findMatchingTransfer_eq_some.mpr hfits] at hmarked
    exact ⟨pw', hrow, hmarked.1, hmarked.2⟩

/-- A withdrawal that is not stale stays as it is. -/
theorem Swept.completedAs_iff_of_not (h : s.Swept now db db') {id : Id}
    (hnot : ∀ pw, ¬s.Stale now db id pw) {tx_hash : String} :
    CompletedAs db' id tx_hash ↔ CompletedAs db id tx_hash := by
  unfold CompletedAs
  rw [h.others id hnot]

/-- What a sweep that commits matches. -/
theorem Swept.matchesInjectively_iff (h : s.Swept now db db') :
    MatchesInjectively db db' ↔ s.Uncontested now db := by
  have hmatched : ∀ {id pw tx}, s.Stale now db id pw →
      FitsFirst s.wallet_service.outgoing pw tx → Matched db db' id tx.tx_hash :=
    fun hstale hfits => ⟨⟨_, hstale.1, hstale.pending⟩, (h.completedAs_iff hstale).mpr ⟨_, hfits, rfl⟩⟩
  constructor
  · intro hinj
    constructor
    · intro id id' pw pw' tx tx' hne hstale hstale' hfits hfits' heq
      refine hinj.apart id id' _ hne (hmatched hstale hfits) ?_
      exact (h.completedAs_iff hstale').mpr ⟨tx', hfits', heq.symm⟩
    · rintro id id' pw tx hne hstale hfits ⟨pw', hrow', hcompleted, hhash⟩
      refine hinj.apart id id' _ hne (hmatched hstale hfits) ?_
      exact ⟨pw', hinj.keeps id' pw' hrow' hcompleted, hcompleted, hhash⟩
  · intro hun
    constructor
    · intro id pw hrow hcompleted
      rw [h.others id (not_stale hrow hcompleted), hrow]
    · rintro id id' tx_hash hne ⟨⟨pw, hrow, hpending⟩, hcompleted⟩ hother
      -- the withdrawal was stale
      have hstale : s.Stale now db id pw := by
        by_contra hnot
        have hnone : ∀ pw', ¬s.Stale now db id pw' := by
          intro pw' hstale
          obtain rfl := Option.some.inj (hrow.symm.trans hstale.1)
          exact hnot hstale
        obtain ⟨pw', hrow', hstatus, -⟩ := (h.completedAs_iff_of_not hnone).mp hcompleted
        obtain rfl := Option.some.inj (hrow.symm.trans hrow')
        rw [hpending] at hstatus
        cases hstatus
      obtain ⟨tx, hfits, rfl⟩ := (h.completedAs_iff hstale).mp hcompleted
      by_cases hstale' : ∃ pw', s.Stale now db id' pw'
      · obtain ⟨pw', hstale'⟩ := hstale'
        obtain ⟨tx', hfits', heq⟩ := (h.completedAs_iff hstale').mp hother
        exact hun.stale id id' pw pw' tx tx' hne hstale hstale' hfits hfits' heq.symm
      · rw [not_exists] at hstale'
        exact hun.recorded id id' pw tx hne hstale hfits ((h.completedAs_iff_of_not hstale').mp hother)

/-- The sweep, from its query on. -/
theorem swept_always {v : Solo schema} {Ok : StepCond schema} :
    ((((query (PendingWithdrawalRepository.isStale (now - minutes s.max_age_minutes))).bind fun rows =>
        ret (rows.filterMap PendingWithdrawalRepository.asWithdrawal)).bind fun stale =>
        match s.wallet_service with
        | .absent => tally stale (recoverOne [])
        | .unreachable => ret 0
        | .lists outgoing => tally stale (recoverOne outgoing)).bind fun _ => ret ()).always Ok
      (fun _ v' => s.Swept now v.db v'.db ∧ v'.saved = v.saved) (Unsaved v) v := by
  refine always_bind (always_bind (always_bind (always_query fun rows hnodup hrows => ?_)))
  have hstale : ∀ a : Id × PendingWithdrawal,
      a ∈ rows.filterMap PendingWithdrawalRepository.asWithdrawal ↔ s.Stale now v.db a.1 a.2 :=
    fun a => (mem_filterMap_rows (S := schema) PendingWithdrawalRepository.asWithdrawal_eq_some).trans
      (hrows _ _)
  have hids : ((rows.filterMap PendingWithdrawalRepository.asWithdrawal).map Prod.fst).Nodup :=
    nodup_filterMap_rows (S := schema) PendingWithdrawalRepository.asWithdrawal_eq_some
      (fun a b hab => by rw [hab]) hnodup
  have hlist : (tally (rows.filterMap PendingWithdrawalRepository.asWithdrawal)
      (recoverOne s.wallet_service.outgoing)).always Ok
        (fun _ v' => s.Swept now v.db v'.db ∧ v'.saved = v.saved) (Unsaved v) v := by
    refine always_mono (recoverList_always hids fun a ha => ((hstale a).mp ha).1)
      (fun _ v' hl => ⟨⟨fun id hid => hl.others id fun hmem => ?_, fun id pw hpw => ?_⟩, hl.saved⟩)
      fun _ _ h => h
    · obtain ⟨a, ha, rfl⟩ := List.mem_map.mp hmem
      exact hid a.2 ((hstale a).mp ha)
    · exact hl.marked (id, pw) ((hstale (id, pw)).mpr hpw)
  show (match s.wallet_service with
    | .absent => tally _ (recoverOne [])
    | .unreachable => ret 0
    | .lists outgoing => tally _ (recoverOne outgoing) : Program ℕ).always Ok _ _ v
  cases hw : s.wallet_service with
  | absent =>
      rw [hw] at hlist
      exact hlist
  | lists outgoing =>
      rw [hw] at hlist
      exact hlist
  | unreachable =>
      -- nothing is marked
      refine ⟨⟨fun _ _ => rfl, fun id pw hpw => ⟨pw, hpw.1, ?_⟩⟩, rfl⟩
      have hpending : pw.status = .PENDING := (of_decide_eq_true hpw.2).1
      rw [hw]
      show pw.status ≠ .COMPLETED
      rw [hpending]
      exact fun h => by cases h

/-- A sweep that commits has marked the stale withdrawals, and one that does not has done nothing. -/
theorem serve_swept (hst : st.db.WF) :
    ((s.run.serve x st).1 = .ok () ∧ s.Swept (x 0).time st.db (s.run.serve x st).2.db) ∨
      ((s.run.serve x st).1 ≠ .ok () ∧ (s.run.serve x st).2.db = st.db) := by
  have hsession : (withSession _).always (fun _ _ _ => True)
      (fun _ v' => s.Swept (x 0).time st.db v'.saved) (Unsaved (Solo.ofStore st)) (Solo.ofStore st) :=
    always_withSession (always_mono swept_always
      (fun _ v' ⟨hswept, hsaved⟩ => ⟨hswept, fun _ _ _ => hsaved⟩) fun _ _ h => h)
  -- the rest of the sweep, when its clock has answered
  have hends := (always_eval hsession (Solo.ofStore_wf hst)
    (x := fun n => x (n + 1)) (meets_true _ _ _)).1
  show ((s.run.eval x (Solo.ofStore st)).1 = .ok () ∧
      s.Swept (x 0).time st.db (s.run.eval x (Solo.ofStore st)).2.saved) ∨
    ((s.run.eval x (Solo.ofStore st)).1 ≠ .ok () ∧ (s.run.eval x (Solo.ofStore st)).2.saved = st.db)
  change Ends _ _ (s.run.eval x (Solo.ofStore st)).1 (s.run.eval x (Solo.ofStore st)).2 at hends
  cases hr : (s.run.eval x (Solo.ofStore st)).1 with
  | ok u =>
      rw [hr] at hends
      exact .inl ⟨rfl, hends⟩
  | error e =>
      rw [hr] at hends
      exact .inr ⟨fun h => (by cases h), hends⟩

/-- The step lemma: what a sweep matches. -/
theorem serve_matchesInjectively_iff (hst : st.db.WF) :
    MatchesInjectively st.db (s.run.serve x st).2.db ↔
      ((s.run.serve x st).1 = .ok () → s.Uncontested (x 0).time st.db) := by
  rcases serve_swept (s := s) (x := x) hst with ⟨hok, hswept⟩ | ⟨hfail, hdb⟩
  · rw [hswept.matchesInjectively_iff]
    exact ⟨fun h _ => h, fun h => h hok⟩
  · rw [hdb]
    refine iff_of_true ⟨fun _ _ h _ => h, ?_⟩ fun h => absurd h hfail
    rintro id id' tx_hash - ⟨⟨pw, hrow, hpending⟩, pw', hrow', hcompleted, -⟩ -
    obtain rfl := Option.some.inj (hrow.symm.trans hrow')
    rw [hpending] at hcompleted
    cases hcompleted

end RecoverySweep

/-- **Recovery matches injectively iff no transfer is contested.** Take any withdrawals, and any sweeps
one after another, with whatever transfers the wallet lists to each. No sweep matches a withdrawal to a
transaction that another completed withdrawal has in the end, iff in each sweep that commits no two
stale withdrawals fit one transaction first, and none fits first one that another completed withdrawal
has. -/
theorem recovery_injective_iff (sweeps : List (RecoverySweep × (ℕ → Input schema))) {st : Store schema}
    (hst : st.db.WF) :
    Each RecoverySweep.run (fun _ _ st st' => MatchesInjectively st.db st'.db) sweeps st ↔
      Each RecoverySweep.run (fun s x st _ => (s.run.serve x st).1 = .ok () →
        s.Uncontested (x 0).time st.db) sweeps st := by
  induction sweeps generalizing st with
  | nil => exact Iff.rfl
  | cons a sweeps ih =>
      exact and_congr (RecoverySweep.serve_matchesInjectively_iff hst) (ih (Prog.serve_wf _ _ hst))

/-! ### Two withdrawals of one amount -/

/-- Two units to `888tNk`, and two units to another address. -/
def twoStale (address : String) : Store schema where
  db :=
    { rows := fun
        | .pendingWithdrawal id =>
            if id = 7 then
              some { agent_id := 1, amount := 2, address := "888tNk", created_at := some 0 }
            else if id = 8 then some { agent_id := 2, amount := 2, address, created_at := some 0 }
            else none
        | _ => none
      keys := [.pendingWithdrawal 7, .pendingWithdrawal 8]
      log := [] }
  ext := default

theorem twoStale_wf (address : String) : (twoStale address).db.WF := by
  refine ⟨(by decide : [Key.pendingWithdrawal 7, .pendingWithdrawal 8].Nodup), fun k => ?_⟩
  cases k with
  | pendingWithdrawal id =>
      by_cases h₇ : id = 7
      · simp [twoStale, h₇]
      · by_cases h₈ : id = 8 <;> simp [twoStale, h₇, h₈]
  | _ => simp [twoStale]

/-- Two units sent to `888tNk`, and two units sent to `86xR7b`. -/
def twoTransfers : List OutgoingTransfer :=
  [⟨"f00d", 2, "888tNk", none⟩, ⟨"beef", 2, "86xR7b", none⟩]

/-- A sweep ten minutes later. -/
def sweepOfTwo : RecoverySweep × (ℕ → Input schema) :=
  ({ wallet_service := .lists twoTransfers }, fun _ => { time := minutes 10 })

/-- The withdrawals are to the two addresses. -/
theorem recovery_injective_two : Each RecoverySweep.run
    (fun _ _ st st' => MatchesInjectively st.db st'.db) [sweepOfTwo] (twoStale "86xR7b") := by
  have hrows : ∀ id pw, (twoStale "86xR7b").db.rows (Key.pendingWithdrawal id) = some pw →
      pw.status = .PENDING ∧
        (id = 7 ∧ findMatchingTransfer pw twoTransfers = some ⟨"f00d", 2, "888tNk", none⟩ ∨
          id = 8 ∧ findMatchingTransfer pw twoTransfers = some ⟨"beef", 2, "86xR7b", none⟩) := by
    intro id pw hrow
    by_cases h₇ : id = 7
    · subst h₇
      obtain rfl := Option.some.inj hrow
      exact ⟨rfl, .inl ⟨rfl, by decide +kernel⟩⟩
    · by_cases h₈ : id = 8
      · subst h₈
        obtain rfl := Option.some.inj hrow
        exact ⟨rfl, .inr ⟨rfl, by decide +kernel⟩⟩
      · rw [show (twoStale "86xR7b").db.rows (Key.pendingWithdrawal id) = none from
          (if_neg h₇).trans (if_neg h₈)] at hrow
        cases hrow
  refine (recovery_injective_iff [sweepOfTwo] (twoStale_wf "86xR7b")).mpr
    ⟨fun _ => ⟨fun id id' pw pw' tx tx' hne hstale hstale' hfits hfits' => ?_, ?_⟩, trivial⟩
  · rw [← findMatchingTransfer_eq_some] at hfits hfits'
    rcases (hrows id pw hstale.1).2 with ⟨rfl, htx⟩ | ⟨rfl, htx⟩ <;>
      rcases (hrows id' pw' hstale'.1).2 with ⟨rfl, htx'⟩ | ⟨rfl, htx'⟩
    · exact absurd rfl hne
    · obtain rfl := Option.some.inj (htx.symm.trans hfits)
      obtain rfl := Option.some.inj (htx'.symm.trans hfits')
      decide
    · obtain rfl := Option.some.inj (htx.symm.trans hfits)
      obtain rfl := Option.some.inj (htx'.symm.trans hfits')
      decide
    · exact absurd rfl hne
  · rintro id id' pw tx - - - ⟨pw', hrow', hcompleted, -⟩
    rw [(hrows id' pw' hrow').1] at hcompleted
    cases hcompleted

/-- The withdrawals are to one address, and one of them was not sent. -/
theorem recovery_not_injective : ¬∀ (sweeps : List (RecoverySweep × (ℕ → Input schema)))
    (st : Store schema), st.db.WF →
    Each RecoverySweep.run (fun _ _ st st' => MatchesInjectively st.db st'.db) sweeps st := by
  intro h
  obtain ⟨hinj, -⟩ := h [sweepOfTwo] (twoStale "888tNk") (twoStale_wf "888tNk")
  have hswept : ∀ id ∈ [7, 8], ((sweepOfTwo.1.run.serve sweepOfTwo.2 (twoStale "888tNk")).2.db.rows
      (Key.pendingWithdrawal id)).any (fun pw => pw.status = .COMPLETED ∧ pw.tx_hash = some "f00d")
        = true := by decide +kernel
  simp only [Option.any_eq_true, decide_eq_true_eq] at hswept
  exact hinj.apart 7 8 "f00d" (by decide) ⟨⟨_, rfl, rfl⟩, hswept 7 (by decide)⟩ (hswept 8 (by decide))

end Sthrip
