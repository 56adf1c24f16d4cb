import Sthrip.Services.DepositMonitor
import Sthrip.Txn.Record

set_option autoImplicit false

/-! # Overlapping polls

Deposit monitors in separate processes poll one database, interleaved in every way READ COMMITTED
allows; the poll lock does not keep them apart. A transfer should be credited once.

A row for a new transfer is made once, because its hash is unique. A pending row is read without a
lock, so that two polls can both find it pending, and both credit it. `ConfirmsPending` is the
condition that they do not: a poll that confirms a transfer finds the row with the status it has
read.
-/

namespace Sthrip

open Txn Prog

/-! ## The chain -/

/-- The wallet shows transfers of the chain, each one once, and addresses it has given out. -/
structure WalletView.Shows (chain : List Incoming) (addresses : ℕ → Option String)
    (w : WalletView) : Prop where
  transfers : ∀ tx ∈ w.incoming_transfers, tx ∈ chain
  nodup : (w.incoming_transfers.map (·.tx_hash)).Nodup
  addresses : ∀ minor address, w.addresses.lookup minor = some address →
    addresses minor = some address

/-- The credit of a transfer. -/
def Incoming.credit (tx : Incoming) (agent_id : Id) : Posting :=
  ⟨agent_id, .XMR, Hub.piconeroToXmr tx.amount, .deposit tx.tx_hash⟩

/-- What a journal entry put on a balance for a transfer. -/
def Entry.depositOf (txid : String) : Entry → Option Posting
  | .posting p => if p.ref = .deposit txid then some p else none
  | _ => none

/-- The credits made for a transfer. -/
def deposits (db : DB schema) (txid : String) : List Posting :=
  db.log.filterMap (Entry.depositOf txid)

theorem piconeroToXmr_mem (p : ℤ) : Hub.piconeroToXmr p ∈ decimals 12 := mem_decimals.mpr ⟨p, rfl⟩

/-- An entry of the list is about a transfer of the chain. -/
theorem listed_eq {w : WalletView} {min_height : ℕ} {tx : Incoming} {a : Transfer}
    (h : WalletService.listed w min_height tx = some a) :
    a.txid = tx.tx_hash ∧ a.amount = Hub.piconeroToXmr tx.amount ∧
      a.height = tx.block_height ∧ w.addresses.lookup tx.minor = some a.address := by
  unfold WalletService.listed at h
  split at h
  · cases h
  · dsimp only at h
    split at h
    · cases h
    · split at h
      · cases h
      · next address haddress =>
          split at h
          · cases h
          · obtain rfl := Option.some.inj h
            exact ⟨rfl, rfl, rfl, haddress⟩

theorem txid_listed {w : WalletView} {min_height : ℕ} {a : Transfer}
    (h : a ∈ WalletService.getIncomingTransfers w min_height) :
    ∃ tx ∈ w.incoming_transfers, WalletService.listed w min_height tx = some a :=
  List.mem_filterMap.mp h

/-- The list has each transfer once. -/
theorem listed_nodup {w : WalletView} (h : (w.incoming_transfers.map (·.tx_hash)).Nodup)
    (min_height : ℕ) :
    ((WalletService.getIncomingTransfers w min_height).map (·.txid)).Nodup := by
  refine h.sublist ?_
  have hsub : ∀ l : List Incoming,
      ((l.filterMap (WalletService.listed w min_height)).map (·.txid)).Sublist
        (l.map (·.tx_hash)) := by
    intro l
    induction l with
    | nil => exact List.Sublist.slnil
    | cons tx l ih =>
        cases ha : WalletService.listed w min_height tx with
        | none =>
            rw [List.filterMap_cons_none ha]
            exact ih.cons _
        | some a =>
            rw [List.filterMap_cons_some ha, List.map_cons, List.map_cons, (listed_eq ha).1]
            exact ih.cons_cons _
  exact hsub _

/-! ## The condition -/

/-- Whoever changes the status of the transaction finds the row with the status that was read. -/
def ConfirmsPending (txid : String) :
    Store schema → Session schema → Stmt schema → Input schema → Prop
  | st, σ, .assign (Key.transaction h) set, _ => h = txid → ∀ o : Transaction,
      σ.loaded (Key.transaction h) = some o → (set o).status ≠ o.status →
      ∃ r : Transaction, σ.view st.db (Key.transaction h) = some r ∧ r.status = o.status
  | _, _, _, _ => True

section Sessions

variable {tx : Incoming} {own : Option Id} {i : ℕ} {σ : Session schema}
  {m : DepositMonitor} {owner : String → Option Id} {addresses : ℕ → Option String}
  {chain : List Incoming}

abbrev DepositRecord (tx : Incoming) := Record schema (Key.transaction tx.tx_hash) Posting
abbrev DepositDraft (tx : Incoming) := Draft schema (Key.transaction tx.tx_hash) Posting

/-- The row of a transfer has its amount. -/
abbrev OfTransfer (tx : Incoming) (r : Transaction) : Prop :=
  r.amount = Hub.piconeroToXmr tx.amount

/-- The row of a transfer and the credits made for it fit together. -/
def CreditedAs (tx : Incoming) (own : Option Id) (r : Transaction) (cs : List Posting) : Prop :=
  OfTransfer tx r ∧ (r.status = .PENDING ∧ cs = [] ∨
    r.status = .CONFIRMED ∧ ∃ agent_id, own = some agent_id ∧ cs = [tx.credit agent_id])

/-- The invariant: without a row there is no credit. -/
def CreditedOnce (tx : Incoming) (own : Option Id) (E : DepositRecord tx) : Prop :=
  match E.row with
  | none => E.entries = []
  | some r => CreditedAs tx own r E.entries

abbrev depositProtocol (tx : Incoming) (own : Option Id) : Protocol schema Unit :=
  .ofRecord (Key.transaction tx.tx_hash) (Entry.depositOf tx.tx_hash) (CreditedOnce tx own)
    (ConfirmsPending tx.tx_hash)

/-- What a session has of the transfer. -/
abbrev depositDraft (tx : Incoming) (σ : Session schema) : DepositDraft tx :=
  σ.draft (Key.transaction tx.tx_hash) (Entry.depositOf tx.tx_hash)

theorem CreditedOnce.ofTransfer {E : DepositRecord tx} (h : CreditedOnce tx own E)
    (r : Transaction) (hr : E.row = some r) : OfTransfer tx r := by
  rw [CreditedOnce, hr] at h
  exact h.1

theorem CreditedOnce.of_none {E : DepositRecord tx} (h : CreditedOnce tx own E)
    (hr : E.row = none) : E.entries = [] := by
  rwa [CreditedOnce, hr] at h

theorem CreditedOnce.of_some {E : DepositRecord tx} {r : Transaction} (h : CreditedOnce tx own E)
    (hr : E.row = some r) : CreditedAs tx own r E.entries := by
  rwa [CreditedOnce, hr] at h

/-- The row is changed in the session, and the credits that are added fit the new status. -/
theorem ready_of_held {D : DepositDraft tx} {b : Option Transaction} {r : Transaction}
    (hheld : D.held = some ⟨b, some r⟩)
    (h : ∀ E : DepositRecord tx, CreditedOnce tx own E → E.row = b →
      CreditedAs tx own r (E.entries ++ D.entries)) : D.Ready (CreditedOnce tx own) := by
  intro E hs
  have hrow : E.row = b := hs.agrees _ hheld
  have hview : (D.onto E).row = some r := by
    show D.view E = some r
    rw [Draft.view, hheld]
  rw [CreditedOnce, hview]
  exact h E hs.fits hrow

/-! ## Other transfers -/

/-- The statement is not about the transfer. -/
abbrev OffDeposit (txid : String) : Stmt schema → Prop :=
  Stmt.off (· = Key.transaction txid) (Entry.depositOf txid)

section Others

variable {txid : String} {col : Columns}

theorem allows_depositBalance (agent_id : Id) (token : Token) :
    BalanceRepository.Allows (OffDeposit txid) agent_id token :=
  have hoff : Key.balance agent_id token ≠ Key.transaction txid := by simp
  ⟨hoff, hoff, fun _ => hoff⟩

theorem setHeight_only (key value : String) :
    (SystemStateRepository.set key value).only (OffDeposit txid) :=
  have hoff : Key.systemState key ≠ Key.transaction txid := by simp
  SystemStateRepository.set_only hoff (fun _ _ => hoff) trivial

theorem processTransfer_only {a : Transfer} (ha : a.txid ≠ txid) :
    (DepositMonitor.processTransfer col m owner a).only (OffDeposit txid) := by
  have hkey : Key.transaction a.txid ≠ Key.transaction txid :=
    fun h => ha (Key.transaction.inj h)
  have hdeposit : ∀ (agent_id : Id) (amount : ℚ),
      (BalanceRepository.deposit col agent_id amount .XMR (.deposit a.txid)).only
        (OffDeposit txid) := fun agent_id amount =>
    BalanceRepository.deposit_only (allows_depositBalance ..) (if_neg (by simpa using ha))
  unfold DepositMonitor.processTransfer
  split
  · trivial
  · next agent_id _ =>
      refine only_bind (only_stmt trivial) fun existing_tx => ?_
      cases existing_tx with
      | none =>
          refine only_bind (only_bind (only_stmt hkey) fun _ => only_raiseIf) fun _ => ?_
          split
          · exact only_bind (hdeposit ..) fun _ => trivial
          · exact only_bind (BalanceRepository.addPending_only (allows_depositBalance ..))
              fun _ => trivial
      | some existing_tx =>
          refine only_bind (only_stmt trivial) fun now => ?_
          refine only_bind (only_onlyIf (only_stmt hkey)) fun _ => ?_
          split
          · refine only_bind (hdeposit ..) fun _ => only_bind ?_ fun _ => trivial
            exact BalanceRepository.clearPendingOnConfirm_only (allows_depositBalance ..)
          · trivial

end Others

/-! ## The transfer itself -/

section Statements

variable {col : Columns} {R : Exn → Session schema → Unit → Prop}

/-- A deposit adds the credit, and nothing else about the transfer. -/
theorem depositOf_safe {agent_id : Id} {amount : ℚ} {D : DepositDraft tx}
    {Q : AgentBalance → Session schema → Unit → Prop} (hD : depositDraft tx σ = D)
    (h : ∀ b σ', depositDraft tx σ'
      = D.post [⟨agent_id, .XMR, amount, .deposit tx.tx_hash⟩] → Q b σ' ())
    (hR : ∀ e σ', R e σ' ()) :
    (BalanceRepository.deposit col agent_id amount .XMR (.deposit tx.tx_hash)).safe
      (depositProtocol tx own) i Q R σ () := by
  refine BalanceRepository.deposit_frame (fun b σ' f => h b σ' ?_) hR
  have hdraft := draft_append (f := Entry.depositOf tx.tx_hash)
    (f.held (Key.transaction tx.tx_hash) (by simp))
    (f.loaded (Key.transaction tx.tx_hash) (by simp)) f.inserted
  rw [← hD]
  refine hdraft.trans ?_
  simp [Entry.depositOf]

/-- The poll that finds no row makes one. -/
theorem handleNew_safe {a : Transfer} {agent_id : Id} (hcol : col.Keeps 12 (decimals 12))
    (hown : own = some agent_id) (htxid : a.txid = tx.tx_hash)
    (hamount : a.amount = Hub.piconeroToXmr tx.amount)
    (hheld : (depositDraft tx σ).held = none) (hentries : (depositDraft tx σ).entries = []) :
    (DepositMonitor.handleNewTransfer col m agent_id a).safe (depositProtocol tx own) i
      (fun _ σ' _ => (depositDraft tx σ').Ready (CreditedOnce tx own)) Raised σ () := by
  have hfresh : (depositDraft tx σ).Fresh := ⟨hentries, fun hd hh => by rw [hheld] at hh; cases hh⟩
  have hkept : col 12 a.amount = Hub.piconeroToXmr tx.amount := by
    rw [hamount, hcol _ (piconeroToXmr_mem _)]
  unfold DepositMonitor.handleNewTransfer TransactionRepository.create
  rw [htxid]
  refine safe_bind (safe_bind (safe_recordCreate (D := depositDraft tx σ) rfl
    (fun E σ₁ hs hv h₁ => safe_raiseIf (fun _ => trivial) fun _ => ?_)
    fun E r _ _ => safe_raiseIf (fun _ => trivial) fun hf => absurd rfl hf))
  have hbase : (depositDraft tx σ).base E = none := by
    rw [hs.base, ← hfresh.view hs, hv]
  rw [hbase] at h₁
  split
  · next hconfirmed =>
      refine safe_bind (depositOf_safe h₁ (fun b σ₂ h₂ => ?_) fun _ _ => trivial)
      refine ready_of_held (congrArg Draft.held h₂ :) fun E' hE' hrow => ?_
      refine ⟨hkept, .inr ⟨by simp [hconfirmed], agent_id, hown, ?_⟩⟩
      rw [hE'.of_none hrow, (congrArg Draft.entries h₂ :)]
      show [] ++ ((depositDraft tx σ).entries ++ _) = _
      rw [hentries, hamount]
      rfl
  · next hconfirmed =>
      refine safe_bind (safe_apart (BalanceRepository.addPending_only (allows_depositBalance ..))
        h₁ (fun _ σ₂ h₂ => ?_) fun _ _ => trivial)
      refine h₂.ready (ready_of_held rfl fun E' hE' hrow => ?_)
      refine ⟨hkept, .inl ⟨by simp [hconfirmed], ?_⟩⟩
      rw [hE'.of_none hrow]
      exact hentries

/-- The poll that has read the row. -/
theorem handleExisting_safe {a : Transfer} {agent_id : Id} {o : Transaction}
    (hown : own = some agent_id) (htxid : a.txid = tx.tx_hash) (ho : OfTransfer tx o)
    (hloaded : (depositDraft tx σ).loaded = some o)
    (hheld : (depositDraft tx σ).held = none) (hentries : (depositDraft tx σ).entries = []) :
    (DepositMonitor.handleExistingTransfer col m agent_id o a).safe (depositProtocol tx own) i
      (fun _ σ' _ => (depositDraft tx σ').Ready (CreditedOnce tx own)) Raised σ () := by
  have hfresh : (depositDraft tx σ).Fresh := ⟨hentries, fun hd hh => by rw [hheld] at hh; cases hh⟩
  unfold DepositMonitor.handleExistingTransfer
  rw [htxid]
  refine safe_bind (safe_now fun now => ?_)
  by_cases hnew : (decide (o.status = .PENDING) &&
      decide (m.min_confirmations ≤ a.confirmations)) = true
  · -- the transfer is confirmed now: the condition says that the row is still pending
    have hpending : o.status = .PENDING := by simp_all
    have hstatus : (DepositMonitor.refreshed a true now o).status = .CONFIRMED := by
      simp [DepositMonitor.refreshed]
    rw [hnew]
    refine safe_bind (safe_onlyIf (fun _ => ?_) fun hsame => ?_)
    swap
    · exact absurd (congrArg Transaction.status (not_not.mp hsame)) (by rw [hstatus, hpending]; simp)
    refine safe_recordAssign (D := depositDraft tx σ) rfl
      (fun st E x σ₁ r hE hs hok hv h₁ => ?_) fun st E x hE hs hok hv => ?_
    · obtain ⟨r', hr', hrpending⟩ := hok rfl o hloaded (by simp [hstatus, hpending])
      obtain rfl : r = r' := by
        have hview := view_record (D := depositDraft tx σ) rfl hE
        exact Option.some.inj ((hv.symm.trans hview.symm).trans hr')
      have hrow : E.row = some r := (hfresh.view hs).symm.trans hv
      rw [if_pos rfl]
      refine safe_bind (depositOf_safe h₁ (fun b σ₂ h₂ => ?_) fun _ _ => trivial)
      refine safe_bind (safe_apart
        (BalanceRepository.clearPendingOnConfirm_only (allows_depositBalance ..)) h₂
        (fun _ σ₃ h₃ => ?_) fun _ _ => trivial)
      refine h₃.ready (ready_of_held rfl fun E' hE' hrow' => ?_)
      rw [hs.base, hrow] at hrow'
      obtain ⟨hamount, hcase⟩ := hE'.of_some hrow'
      refine ⟨hamount, .inr ⟨by simp [hstatus], agent_id, hown, ?_⟩⟩
      have hnone : E'.entries = [] := by
        rcases hcase with ⟨-, h⟩ | ⟨h, -⟩
        · exact h
        · rw [hrpending, hpending] at h
          cases h
      rw [hnone]
      show [] ++ ((depositDraft tx σ).entries ++ _) = _
      rw [hentries, ho]
      rfl
    · obtain ⟨r', hr', -⟩ := hok rfl o hloaded (by simp [hstatus, hpending])
      have hview := view_record (D := depositDraft tx σ) rfl hE
      rw [hview, hv] at hr'
      cases hr'
  · -- only the confirmations and the block are written
    rw [Bool.not_eq_true] at hnew
    rw [hnew]
    refine safe_bind (safe_onlyIf (fun _ => ?_) fun _ => hfresh.ready)
    refine safe_recordAssign (D := depositDraft tx σ) rfl
      (fun st E x σ₁ r hE hs hok hv h₁ => ?_) fun st E x hE hs hok hv => hfresh.ready
    have hrow : E.row = some r := (hfresh.view hs).symm.trans hv
    show (depositDraft tx σ₁).Ready _
    refine ready_of_held (congrArg Draft.held h₁ :) fun E' hE' hrow' => ?_
    rw [hs.base, hrow] at hrow'
    rw [(congrArg Draft.entries h₁ :)]
    show CreditedAs tx own _ (E'.entries ++ (depositDraft tx σ).entries)
    rw [hentries, List.append_nil]
    exact (hE'.of_some hrow' :)

/-- A poll comes to the transfer before it has done anything about it. -/
theorem processTransfer_safe {a : Transfer} (hcol : col.Keeps 12 (decimals 12))
    (hown : own = owner a.address) (htxid : a.txid = tx.tx_hash)
    (hamount : a.amount = Hub.piconeroToXmr tx.amount)
    (hlater : Draft.Later (CreditedOnce tx own) .blank (depositDraft tx σ)) :
    (DepositMonitor.processTransfer col m owner a).safe (depositProtocol tx own) i
      (fun _ σ' _ => (depositDraft tx σ').Ready (CreditedOnce tx own)) Raised σ () := by
  have hready : (depositDraft tx σ).Ready (CreditedOnce tx own) :=
    (hlater.fresh Draft.fresh_blank).ready
  unfold DepositMonitor.processTransfer
  split
  · exact hready
  · next agent_id hagent =>
      have hown' : own = some agent_id := hown.trans hagent
      unfold TransactionRepository.getByHash
      rw [htxid]
      refine safe_bind (safe_recordFetch (D := depositDraft tx σ) rfl
        fun E σ₁ hs hl hloaded => ?_)
      have hlater₁ := hlater.trans hl
      cases ho : (depositDraft tx σ).object E with
      | none => exact handleNew_safe hcol hown' htxid hamount hlater₁.held hlater₁.entries
      | some o =>
          have hgood : (depositDraft tx σ).Good (OfTransfer tx) :=
            Draft.good_blank.later (fun _ => CreditedOnce.ofTransfer) hlater
          exact handleExisting_safe hown' htxid (hgood.object (fun _ => CreditedOnce.ofTransfer) hs ho)
            (hloaded o ho) hlater₁.held hlater₁.entries

/-- The list a poll goes through. -/
theorem processTransfers_safe {w : WalletView} (hcol : col.Keeps 12 (decimals 12))
    (hshows : w.Shows chain addresses) (hchain : (chain.map (·.tx_hash)).Nodup) (htx : tx ∈ chain)
    (hown : own = (addresses tx.minor).bind owner) (last_height : ℕ) :
    (DepositMonitor.processTransfers col m owner last_height
      (WalletService.getIncomingTransfers w last_height)).safe (depositProtocol tx own) i
      (fun _ σ' _ => (depositDraft tx σ').Ready (CreditedOnce tx own)) Raised Session.start () := by
  have hblank : depositDraft tx Session.start = .blank := rfl
  refine safe_bind (safe_mono (safe_sweep (D := .blank)
    (E := fun D => D.Ready (CreditedOnce tx own)) (·.txid) tx.tx_hash
    (listed_nodup hshows.nodup last_height) hblank (fun _ _ h hl => hl.ready h)
    (fun a ha => processTransfer_only ha) (fun a ha hme σ' hlater => ?_)
    Draft.fresh_blank.ready fun _ _ => trivial)
    (fun _ σ' _ hready => ?_) fun _ _ _ h => h)
  · obtain ⟨tx', htx', hlisted⟩ := txid_listed ha
    obtain ⟨htxid, hamount, -, haddress⟩ := listed_eq hlisted
    -- the hash tells which transfer of the chain it is
    obtain rfl : tx' = tx :=
      List.inj_on_of_nodup_map hchain (hshows.transfers tx' htx') htx (htxid.symm.trans hme)
    refine processTransfer_safe hcol ?_ htxid hamount hlater
    rw [hown, hshows.addresses _ _ haddress, Option.bind_some]
  · refine safe_bind (safe_onlyIf (fun _ => ?_) fun _ => hready)
    exact safe_apart (setHeight_only _ _) rfl (fun _ _ hl => hl.ready hready) fun _ _ => trivial

theorem pollOnce_safe {w : WalletView} (hcol : col.Keeps 12 (decimals 12))
    (hshows : w.Shows chain addresses) (hchain : (chain.map (·.tx_hash)).Nodup) (htx : tx ∈ chain)
    (hown : own = (addresses tx.minor).bind owner) (last_height : ℕ) :
    (DepositMonitor.pollOnce col m owner w last_height).safe (depositProtocol tx own) i
      (fun _ σ' _ => σ' = Session.start) (fun _ σ' _ => σ' = Session.start) Session.start () := by
  have hsession : ∀ {α : Type} {p : Program α},
      p.safe (depositProtocol tx own) i
        (fun _ σ' _ => (depositDraft tx σ').Ready (CreditedOnce tx own)) Raised Session.start () →
      p.withSession.safe (depositProtocol tx own) i (fun _ σ' _ => σ' = Session.start)
        (fun _ σ' _ => σ' = Session.start) Session.start () := fun h =>
    safe_withSession (safe_mono h
      (fun _ _ _ hready => ⟨fun st γ x hs hok hx => by
        obtain ⟨g, hinv, -⟩ := record_commits hready st γ x hs hok hx
        exact ⟨g, hinv, rfl⟩, rfl⟩) fun _ _ _ _ => rfl)
  refine safe_bind (safe_tryCatch (safe_mono (Q := fun _ σ' _ => σ' = Session.start)
    (R := fun _ σ' _ => σ' = Session.start) ?_ (fun last σ' _ h => ?_) fun _ σ' _ h => ?_))
  · unfold DepositMonitor.doPollWithSession
    dsimp only
    split
    · rfl
    · refine safe_bind (safe_mono (hsession (processTransfers_safe hcol hshows hchain htx hown
        last_height)) (fun _ _ _ h => h) fun _ _ _ h => h)
  · subst h
    refine safe_tryCatch (safe_mono (hsession (p := pure last) Draft.fresh_blank.ready)
      (fun _ _ _ h => h) fun _ _ _ h => h)
  · subst h
    refine safe_tryCatch (safe_mono (hsession (p := pure last_height) Draft.fresh_blank.ready)
      (fun _ _ _ h => h) fun _ _ _ h => h)

theorem polls_safe {views : List WalletView} (hcol : col.Keeps 12 (decimals 12))
    (hshows : ∀ w ∈ views, w.Shows chain addresses) (hchain : (chain.map (·.tx_hash)).Nodup)
    (htx : tx ∈ chain) (hown : own = (addresses tx.minor).bind owner) (last_height : ℕ) :
    (DepositMonitor.polls col m owner views last_height).safe (depositProtocol tx own) i
      (fun _ _ _ => True) (fun _ _ _ => True) Session.start () := by
  induction views generalizing last_height with
  | nil => trivial
  | cons w views ih =>
      refine safe_bind (safe_mono (pollOnce_safe hcol (hshows w List.mem_cons_self) hchain htx hown
        last_height) (fun last σ' _ h => ?_) fun _ _ _ _ => trivial)
      subst h
      exact ih (fun w' hw' => hshows w' (List.mem_cons_of_mem _ hw')) last

end Statements

end Sessions

/-! ## All interleavings -/

/-- **No transfer is credited twice.** Start from a database without a row and without a credit
for a transfer of the chain, and let any number of monitors poll. In every interleaving in which a
poll that confirms the transfer finds the row as it has read it, the transfer is credited at most
once, to the agent its address belongs to, with its amount. -/
theorem deposit_credited_once {chain : List Incoming} (hchain : (chain.map (·.tx_hash)).Nodup)
    (addresses : ℕ → Option String) (owner : String → Option Id) {tx : Incoming} (htx : tx ∈ chain)
    {st₀ : Store schema} (hwf : st₀.db.WF)
    (hrow : st₀.db.rows (Key.transaction tx.tx_hash) = none)
    (hnew : deposits st₀.db tx.tx_hash = []) (monitors : ℕ → DepositMonitor)
    (views : ℕ → List WalletView) (hviews : ∀ i, ∀ w ∈ views i, w.Shows chain addresses)
    (heights : ℕ → ℕ) {c : Config schema Unit}
    (hc : Config.Reaches (ConfirmsPending tx.tx_hash)
      (Config.start st₀ fun i => (monitors i).polls .rounding owner (views i) (heights i)) c) :
    deposits c.store.db tx.tx_hash = [] ∨
      ∃ agent_id, (addresses tx.minor).bind owner = some agent_id ∧
        deposits c.store.db tx.tx_hash = [tx.credit agent_id] := by
  have hstart : CreditedOnce tx ((addresses tx.minor).bind owner)
      (st₀.db.record (Key.transaction tx.tx_hash) (Entry.depositOf tx.tx_hash)) := by
    have hrow' : (st₀.db.record (Key.transaction tx.tx_hash)
        (Entry.depositOf tx.tx_hash)).row = none := hrow
    rw [CreditedOnce, hrow']
    exact hnew
  obtain ⟨γ, hγ⟩ := Config.invariant (P := depositProtocol tx ((addresses tx.minor).bind owner))
    (γ := fun _ => ()) hwf hstart
    (fun i => polls_safe (Columns.rounding_keeps 12) (hviews i) hchain htx rfl (heights i)) hc
  have hE : CreditedOnce tx ((addresses tx.minor).bind owner)
      (c.store.db.record (Key.transaction tx.tx_hash) (Entry.depositOf tx.tx_hash)) := hγ
  cases hr : c.store.db.rows (Key.transaction tx.tx_hash) with
  | none => exact .inl (hE.of_none hr)
  | some r =>
      rcases (hE.of_some hr).2 with ⟨-, h⟩ | ⟨-, agent_id, hown, h⟩
      · exact .inl h
      · exact .inr ⟨agent_id, hown, h⟩

/-! ## Two monitors and one transfer -/

/-- One XMR in block 100, to the first deposit address. -/
def oneTransfer : Incoming :=
  { tx_hash := "aa", amount := 1000000000000, block_height := 100, minor := 1 }

/-- The wallet at a height of the chain. -/
def walletAt (height : ℕ) : WalletView where
  incoming_transfers := [oneTransfer]
  height := height
  addresses := [(1, "sub1")]

/-- The address is that of agent 1. -/
def ownerOfSub (address : String) : Option Id := if address = "sub1" then some 1 else none

/-- The first monitor sees the transfer unconfirmed, and then confirmed; the second one sees it
confirmed. -/
def twoMonitors : ℕ → List WalletView
  | 0 => [walletAt 105, walletAt 112]
  | 1 => [walletAt 112]
  | _ => []

theorem walletAt_shows (height : ℕ) :
    (walletAt height).Shows [oneTransfer] fun minor => (walletAt height).addresses.lookup minor :=
  ⟨fun _ h => h, List.nodup_singleton _, fun _ _ h => h⟩

theorem twoMonitors_shows (i : ℕ) : ∀ w ∈ twoMonitors i,
    w.Shows [oneTransfer] fun minor => [(1, "sub1")].lookup minor := by
  intro w hw
  have hheight : ∃ height, w = walletAt height := by
    match i with
    | 0 =>
        rcases List.mem_cons.mp hw with rfl | hw
        · exact ⟨_, rfl⟩
        · exact ⟨_, List.mem_singleton.mp hw⟩
    | 1 => exact ⟨_, List.mem_singleton.mp hw⟩
    | _ + 2 => exact absurd hw List.not_mem_nil
  obtain ⟨height, rfl⟩ := hheight
  exact walletAt_shows height

/-- The monitors at their start. -/
def monitorsAtStart : Config schema Unit :=
  .start tenUnits fun i => ({} : DepositMonitor).polls .rounding ownerOfSub (twoMonitors i) 0

/-- The test that a schedule ends with the credits `ps`. -/
def creditsWith (l : List (ℕ × Input schema)) (ps : List Posting) : Bool :=
  (Config.trace l monitorsAtStart).any fun c => deposits c.store.db "aa" = ps

theorem exists_of_creditsWith {l : List (ℕ × Input schema)} {ps : List Posting}
    (h : creditsWith l ps = true) :
    ∃ c, Config.trace l monitorsAtStart = some c ∧ deposits c.store.db "aa" = ps := by
  simpa only [creditsWith, Option.any_eq_true, decide_eq_true_eq] using h

def confirmsPending : Store schema → Session schema → Stmt schema → Input schema → Bool
  | st, σ, .assign (Key.transaction h) set, _ => (σ.loaded (Key.transaction h)).all fun o =>
      (set o).status = o.status ∨ (σ.view st.db (Key.transaction h)).any fun r => r.status = o.status
  | _, _, _, _ => true

theorem confirmsPending_of_test (txid : String) (st : Store schema) (σ : Session schema)
    (s : Stmt schema) (x : Input schema) (h : confirmsPending st σ s x = true) :
    ConfirmsPending txid st σ s x := by
  unfold ConfirmsPending
  split
  · intro _ o ho hset
    simpa [confirmsPending, ho, hset, Option.any_eq_true] using h
  · trivial

/-- The second monitor polls when the first one has credited the transfer. -/
theorem deposit_credited_once_apart : ∃ c : Config schema Unit,
    deposits c.store.db "aa" = [oneTransfer.credit 1] ∧
      (deposits c.store.db "aa" = [] ∨ ∃ agent_id,
        ([(1, "sub1")].lookup oneTransfer.minor).bind ownerOfSub = some agent_id ∧
        deposits c.store.db "aa" = [oneTransfer.credit agent_id]) := by
  have hrun : creditsWith (turn 0 21 0 ++ turn 1 7 0) [oneTransfer.credit 1] = true := by
    decide +kernel
  obtain ⟨c, hc, hps⟩ := exists_of_creditsWith hrun
  have hreach := Config.reaches_of_trace confirmsPending (confirmsPending_of_test "aa")
    (turn 0 21 0 ++ turn 1 7 0) .refl (by decide +kernel) hc
  have hchain : ([oneTransfer].map (·.tx_hash)).Nodup := List.nodup_singleton _
  exact ⟨c, hps, deposit_credited_once hchain
    (fun minor => [(1, "sub1")].lookup minor) ownerOfSub (List.mem_singleton_self _) tenUnits_wf rfl
    rfl (fun _ => {}) twoMonitors twoMonitors_shows (fun _ => 0) hreach⟩

/-- Both monitors have read the pending row when the first one confirms it: the transfer is
credited twice. -/
theorem deposit_credited_twice : ¬∀ (chain : List Incoming) (addresses : ℕ → Option String)
    (owner : String → Option Id) (tx : Incoming) (st₀ : Store schema)
    (monitors : ℕ → DepositMonitor) (views : ℕ → List WalletView) (heights : ℕ → ℕ)
    (c : Config schema Unit), (chain.map (·.tx_hash)).Nodup → tx ∈ chain → st₀.db.WF →
    st₀.db.rows (Key.transaction tx.tx_hash) = none → deposits st₀.db tx.tx_hash = [] →
    (∀ i, ∀ w ∈ views i, w.Shows chain addresses) →
    Config.Reaches (fun _ _ _ _ => True)
      (Config.start st₀ fun i => (monitors i).polls .rounding owner (views i) (heights i)) c →
    (deposits c.store.db tx.tx_hash).length ≤ 1 := by
  intro h
  have hrace : creditsWith (turn 0 9 0 ++ turn 1 1 0 ++ turn 0 12 0 ++ turn 1 12 0)
      [oneTransfer.credit 1, oneTransfer.credit 1] = true := by decide +kernel
  obtain ⟨c, hc, hps⟩ := exists_of_creditsWith hrace
  have hreach := Config.reaches_of_trace (fun _ _ _ _ => true) (fun _ _ _ _ _ => trivial)
    (turn 0 9 0 ++ turn 1 1 0 ++ turn 0 12 0 ++ turn 1 12 0) .refl (by decide +kernel) hc
  have hlen := h [oneTransfer] (fun minor => [(1, "sub1")].lookup minor) ownerOfSub oneTransfer
    tenUnits (fun _ => {}) twoMonitors (fun _ => 0) c (List.nodup_singleton _)
    (List.mem_singleton_self _) tenUnits_wf rfl rfl twoMonitors_shows hreach
  have hlen' : (deposits c.store.db "aa").length ≤ 1 := hlen
  rw [hps] at hlen'
  exact absurd hlen' (by decide)

end Sthrip
