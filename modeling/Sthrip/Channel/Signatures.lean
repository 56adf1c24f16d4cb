import Sthrip.Balance.OwnConsent
import Sthrip.Services.ChannelService

set_option autoImplicit false

/-! # A payout needs both signatures

A channel pays out the balances of its row. They are the deposits it was opened with, unless `settle`
or `dispute` has put another state there, and these two take the state, and two strings for its
signatures, from one of the participants.

Neither of them calls `verify_channel_state`. As long as each state they are offered carries the
signatures of both agents, a payout is a state that both have signed (`signed_if_vouched`). The calls as
the repository stands need no such promise: `audit_log(…, new_values=…)` behind them raises, and no state
that is offered ever gets into a row (`payout_signed`).
-/

namespace Sthrip

open Txn Prog BalanceRepository

/-! ## States and signatures -/

/-- A state of a channel, as `settle` and `dispute` are offered it. -/
structure OfferedState where
  channel_id : Id
  nonce : ℤ
  balance_a : ℚ
  balance_b : ℚ
  sig_a : String
  sig_b : String

def ChannelCall.offers : ChannelCall → Option OfferedState
  | settle channel_id _ nonce balance_a balance_b sig_a sig_b =>
      some ⟨channel_id, nonce, balance_a, balance_b, sig_a, sig_b⟩
  | dispute channel_id _ nonce balance_a balance_b sig_a sig_b =>
      some ⟨channel_id, nonce, balance_a, balance_b, sig_a, sig_b⟩
  | _ => none

/-- The channel that is opened. -/
def ChannelCall.opens : ChannelCall → Option Id
  | openChannel channel_id .. => some channel_id
  | _ => none

variable {S : Signing} {col : Columns} {channel_id : Id} {ch : PaymentChannel}

/-- Both signatures verify, under the keys of the agents of the channel. -/
def OfferedState.Verifies (S : Signing) (o : OfferedState) (ch : PaymentChannel) : Prop :=
  S.Verifies ch.agent_a_id o.sig_a o.channel_id o.nonce o.balance_a o.balance_b ∧
    S.Verifies ch.agent_b_id o.sig_b o.channel_id o.nonce o.balance_a o.balance_b

/-- Both agents of the channel have signed the state of the row, or it is that of the opening. -/
def Backed (S : Signing) (col : Columns) (channel_id : Id) (row : PaymentChannel) : Prop :=
  row.nonce = 0 ∧ row.balance_a = row.deposit_a ∧ row.balance_b = row.deposit_b ∨
    ∃ balance_a balance_b, row.balance_a = col 8 balance_a ∧ row.balance_b = col 8 balance_b ∧
      S.SignsState row.agent_a_id channel_id row.nonce balance_a balance_b ∧
      S.SignsState row.agent_b_id channel_id row.nonce balance_a balance_b

/-- A row of the channel `ch`, in a backed state. -/
structure BackedRow (S : Signing) (col : Columns) (channel_id : Id) (ch row : PaymentChannel) :
    Prop where
  agent_a : row.agent_a_id = ch.agent_a_id
  agent_b : row.agent_b_id = ch.agent_b_id
  deposit_a : row.deposit_a = ch.deposit_a
  deposit_b : row.deposit_b = ch.deposit_b
  backed : Backed S col channel_id row

/-- The row of the channel is backed. -/
def Backs (S : Signing) (col : Columns) (channel_id : Id) (ch : PaymentChannel) :
    (k : Key) → Row k → Prop
  | .channel id, row => id = channel_id → BackedRow S col channel_id ch row
  | _, _ => True

/-- What is posted for the channel is the part of an agent in a backed state. -/
def PaysBacked (S : Signing) (col : Columns) (channel_id : Id) (ch : PaymentChannel) :
    Entry → Prop
  | .posting p => p.ref = .channel channel_id → ∃ row, BackedRow S col channel_id ch row ∧
      (p.agent_id = ch.agent_a_id ∧ p.amount = row.balance_a ∨
        p.agent_id = ch.agent_b_id ∧ p.amount = row.balance_b)
  | _ => True

/-- The state that is offered may be put into the row. -/
theorem BackedRow.accept {row : PaymentChannel} (h : BackedRow S col channel_id ch row)
    {o : OfferedState} (hid : o.channel_id = channel_id) (ho : o.Verifies S ch)
    {row' : PaymentChannel}
    (hrow' : row' = { row with
      status := row'.status, nonce := o.nonce, balance_a := col 8 o.balance_a
      balance_b := col 8 o.balance_b, last_update_sig_a := row'.last_update_sig_a
      last_update_sig_b := row'.last_update_sig_b, closes_at := row'.closes_at }) :
    BackedRow S col channel_id ch row' := by
  subst hid
  rw [hrow']
  refine ⟨h.agent_a, h.agent_b, h.deposit_a, h.deposit_b, .inr ?_⟩
  refine ⟨o.balance_a, o.balance_b, rfl, rfl, ?_, ?_⟩
  · exact h.agent_a ▸ ho.1.signs
  · exact h.agent_b ▸ ho.2.signs

/-! ## What the statements write -/

/-- The statement keeps the channel backed, pays what is backed, and is no commit. -/
def KeepsBacked (S : Signing) (col : Columns) (channel_id : Id) (ch : PaymentChannel)
    (s : Stmt schema) : Prop :=
  s.keeps (Backs S col channel_id ch) ∧ s.Appends (PaysBacked S col channel_id ch) ∧ s.NotCommit

/-- A session that has kept the channel backed so far. -/
structure KeptBacked (S : Signing) (col : Columns) (channel_id : Id) (ch : PaymentChannel)
    (σ : Session schema) : Prop where
  kept : σ.Kept (Backs S col channel_id ch)
  inserted : ∀ e ∈ σ.inserted, PaysBacked S col channel_id ch e

/-- The invariant: the row is backed, and so is all that was paid since the log was `log`. -/
structure BackedSince (S : Signing) (col : Columns) (channel_id : Id) (ch : PaymentChannel)
    (log : List Entry) (db : DB schema) : Prop where
  rows : db.Kept (Backs S col channel_id ch)
  paid : ∃ entries, db.log = log ++ entries ∧ ∀ e ∈ entries, PaysBacked S col channel_id ch e

variable {log : List Entry} {σ : Session schema}

/-- The program relies on the invariant, keeps the session backed, and returns with `Q`. -/
abbrev StaysBacked (S : Signing) (col : Columns) (channel_id : Id) (ch : PaymentChannel)
    (log : List Entry) {α : Type} (Q : α → Prop) (p : Program α) (σ : Session schema) : Prop :=
  p.ensures (fun st _ _ _ => BackedSince S col channel_id ch log st.db)
    (fun st σ s _ => s.CommitKeeps (BackedSince S col channel_id ch log) st σ)
    (fun a σ => Q a ∧ KeptBacked S col channel_id ch σ) (fun _ _ => True) σ

theorem KeptBacked.exec {st : Store schema} {s : Stmt schema} (x : Input schema)
    (hdb : st.db.Kept (Backs S col channel_id ch)) (h : KeptBacked S col channel_id ch σ)
    (hs : KeepsBacked S col channel_id ch s) :
    KeptBacked S col channel_id ch (s.exec x st σ).2.2 :=
  ⟨(s.exec_kept x st hs.1 hdb h.kept).2, hs.2.1.exec x st h.inserted⟩

theorem staysBacked_of_only {α : Type} {p : Program α} (hp : p.only (KeepsBacked S col channel_id ch))
    (hσ : KeptBacked S col channel_id ch σ) :
    StaysBacked S col channel_id ch log (fun _ => True) p σ := by
  refine ensures_mono (ensures_keep (fun st σ s x hs h _ hdb => ?_) (shape_of_only hp) hσ)
    (fun _ _ h => h) fun _ _ _ => trivial
  exact ⟨Stmt.commitKeeps_of_notCommit hs.2.2 st σ, h.exec x hdb.rows hs⟩

/-! ## The methods -/

/-- The object of a channel is backed, if the channel is. -/
theorem getById_stays (id : Id) (hσ : KeptBacked S col channel_id ch σ) :
    StaysBacked S col channel_id ch log
      (fun row => ∀ r, row = some r → Backs S col channel_id ch (Key.channel id) r)
      (ChannelRepository.getById id) σ := by
  intro st x hfit hdb
  refine ⟨trivial, fun r hr => ?_, hσ.exec x hdb.rows ⟨trivial, trivial, trivial⟩⟩
  exact hσ.kept.object hdb.rows (k := Key.channel id) hr

theorem orRaise_stays {Q : PaymentChannel → Prop} {row : Option PaymentChannel} {e : Exn}
    (h : ∀ r, row = some r → Q r) (hσ : KeptBacked S col channel_id ch σ) :
    StaysBacked S col channel_id ch log Q (orRaise e row) σ := by
  cases row with
  | none => trivial
  | some r => exact ⟨h r rfl, hσ⟩

theorem getAsParticipant_stays (id agent_id : Id) (hσ : KeptBacked S col channel_id ch σ) :
    StaysBacked S col channel_id ch log (Backs S col channel_id ch (Key.channel id))
      (getAsParticipant id agent_id) σ := by
  refine ensures_seq (getById_stays id hσ) fun row σ₁ h₁ => ?_
  refine ensures_seq (orRaise_stays h₁.1 h₁.2) fun channel σ₂ h₂ => ?_
  have hcheck : (verifyParticipant channel agent_id).only (KeepsBacked S col channel_id ch) :=
    only_raiseIf
  exact ensures_seq (staysBacked_of_only hcheck h₂.2) fun _ σ₃ h₃ => ⟨h₂.1, h₃.2⟩

theorem refetchChannel_stays (id : Id) (hσ : KeptBacked S col channel_id ch σ) :
    StaysBacked S col channel_id ch log (Backs S col channel_id ch (Key.channel id))
      (refetchChannel id) σ :=
  ensures_seq (getById_stays id hσ) fun _ _ h => orRaise_stays h.1 h.2

theorem select_backed (k : Key) : KeepsBacked S col channel_id ch (.select k) :=
  ⟨trivial, trivial, trivial⟩

theorem now_backed : KeepsBacked S col channel_id ch .now := ⟨trivial, trivial, trivial⟩

/-- An entry that is no posting, or is posted for something else. -/
theorem insert_backed {e : Entry} (h : PaysBacked S col channel_id ch e) :
    KeepsBacked S col channel_id ch (.insert e) :=
  ⟨trivial, h, trivial⟩

theorem update_backed {id : Id} {guard : PaymentChannel → Bool}
    {set : PaymentChannel → PaymentChannel}
    (h : id = channel_id → ∀ row, BackedRow S col channel_id ch row →
      BackedRow S col channel_id ch (set row)) :
    KeepsBacked S col channel_id ch (.update (Key.channel id) guard set) :=
  ⟨fun row hrow _ hid => h hid row (hrow hid), trivial, trivial⟩

theorem allows_backed (agent_id : Id) (token : Token) :
    Allows (KeepsBacked S col channel_id ch) agent_id token :=
  ⟨⟨trivial, trivial, trivial⟩, ⟨trivial, trivial, trivial⟩,
    fun _ => ⟨fun _ _ => trivial, trivial, trivial⟩⟩

theorem getAsParticipant_backed (id agent_id : Id) :
    (getAsParticipant id agent_id).only (KeepsBacked S col channel_id ch) := by
  refine only_bind (only_stmt (select_backed _)) fun row => ?_
  cases row with
  | none => trivial
  | some channel => exact only_bind (f := fun _ => Prog.ret channel) only_raiseIf fun _ => trivial

theorem refetchChannel_backed (id : Id) :
    (refetchChannel id).only (KeepsBacked S col channel_id ch) := by
  refine only_bind (only_stmt (select_backed _)) fun row => ?_
  cases row with
  | none => trivial
  | some channel => trivial

/-- A channel that is settled, or closed, keeps its state. -/
theorem BackedRow.ended {row : PaymentChannel} (h : BackedRow S col channel_id ch row)
    (status : ChannelStatus) (settled_at closed_at : Option Time) :
    BackedRow S col channel_id ch { row with status, settled_at, closed_at } :=
  ⟨h.agent_a, h.agent_b, h.deposit_a, h.deposit_b, h.backed⟩

theorem settleRow_backed (id : Id) :
    (ChannelRepository.settle id).only (KeepsBacked S col channel_id ch) :=
  only_bind (only_stmt now_backed) fun now =>
    only_stmt (update_backed fun _ row h => h.ended .SETTLED (some now) row.closed_at)

theorem openChannel_backed {id : Id} (hid : id ≠ channel_id) (agent_a_id agent_b_id : Id)
    (deposit_a deposit_b : ℚ) (settlement_period : ℤ) :
    (ChannelService.openChannel col id agent_a_id agent_b_id deposit_a deposit_b
      settlement_period).only (KeepsBacked S col channel_id ch) := by
  have hpays : ∀ agent_id amount,
      PaysBacked S col channel_id ch (.posting ⟨agent_id, .XMR, amount, .channel id⟩) := by
    intro agent_id amount href
    exact absurd (Ref.channel.inj href) hid
  refine only_bind only_raiseIf fun _ => only_bind only_raiseIf fun _ => ?_
  refine only_bind (only_onlyIf (deduct_only (allows_backed ..) (insert_backed (hpays _ _)))) fun _ => ?_
  refine only_bind (only_onlyIf (deduct_only (allows_backed ..) (insert_backed (hpays _ _)))) fun _ => ?_
  refine only_bind (only_stmt ⟨fun h => absurd h hid, trivial, trivial⟩) fun inserted => ?_
  exact only_bind only_raiseIf fun _ => trivial

theorem submitUpdate_backed (id agent_id : Id) (nonce : ℤ) (balance_a balance_b : ℚ)
    (signature_a signature_b : String) :
    (ChannelService.submitUpdate col id agent_id nonce balance_a balance_b signature_a
      signature_b).only (KeepsBacked S col channel_id ch) := by
  refine only_bind (getAsParticipant_backed ..) fun channel => ?_
  refine only_bind ?_ fun latest => ?_
  · exact only_bind (only_query ⟨trivial, trivial, trivial⟩ select_backed) fun rows => trivial
  refine only_bind only_raiseIf fun _ => only_bind only_raiseIf fun _ => ?_
  refine only_bind ?_ fun row => only_bind (only_stmt (insert_backed trivial)) fun _ => trivial
  refine only_bind (only_stmt ⟨trivial, trivial, trivial⟩) fun inserted => ?_
  exact only_bind only_raiseIf fun _ => trivial

/-- A settlement with both signatures. -/
theorem settle_backed {o : OfferedState} (ho : o.channel_id = channel_id → o.Verifies S ch)
    (agent_id : Id) :
    (ChannelService.settle col o.channel_id agent_id o.nonce o.balance_a o.balance_b o.sig_a
      o.sig_b).only (KeepsBacked S col channel_id ch) := by
  refine only_bind only_raiseIf fun _ => only_bind (getAsParticipant_backed ..) fun channel => ?_
  refine only_bind only_raiseIf fun _ => only_bind ?_ fun rows => only_bind only_raiseIf fun _ => ?_
  · refine only_bind (only_stmt (select_backed _)) fun row => only_bind (only_stmt now_backed) fun now => ?_
    exact only_stmt (update_backed fun hid row h => h.accept hid (ho hid) rfl)
  refine only_bind (only_stmt (insert_backed trivial)) fun _ => only_bind ?_ fun _ => ?_
  · exact only_onlyIf (only_stmt (insert_backed trivial))
  · exact only_bind (refetchChannel_backed _) fun channel => trivial

/-- A dispute with both signatures. -/
theorem dispute_backed {o : OfferedState} (ho : o.channel_id = channel_id → o.Verifies S ch)
    (agent_id : Id) :
    (ChannelService.dispute col o.channel_id agent_id o.nonce o.balance_a o.balance_b o.sig_a
      o.sig_b).only (KeepsBacked S col channel_id ch) := by
  refine only_bind (getAsParticipant_backed ..) fun channel => ?_
  refine only_bind only_raiseIf fun _ => only_bind only_raiseIf fun _ => ?_
  refine only_bind ?_ fun rows => only_bind only_raiseIf fun _ => ?_
  · exact only_stmt (update_backed fun hid row h => h.accept hid (ho hid) rfl)
  refine only_bind (only_stmt now_backed) fun time => ?_
  exact only_bind (only_stmt (insert_backed trivial)) fun _ => refetchChannel_backed _

theorem autoSettleExpired_backed :
    ChannelService.autoSettleExpired.only (KeepsBacked S col channel_id ch) := by
  refine only_bind ?_ fun ready => only_tally ready fun id => settleRow_backed id
  refine only_bind (only_stmt now_backed) fun now => ?_
  exact only_bind (only_query ⟨trivial, trivial, trivial⟩ select_backed) fun rows => trivial

/-- The payout of a backed channel. -/
theorem credit_backed {id : Id} {channel : PaymentChannel}
    (h : Backs S col channel_id ch (Key.channel id) channel) :
    (credit col channel.agent_a_id channel.balance_a .XMR (.channel id)).only
        (KeepsBacked S col channel_id ch) ∧
      (credit col channel.agent_b_id channel.balance_b .XMR (.channel id)).only
        (KeepsBacked S col channel_id ch) := by
  constructor
  · refine credit_only (allows_backed ..) (insert_backed fun href => ?_)
    have hrow := h (Ref.channel.inj href)
    exact ⟨channel, hrow, .inl ⟨hrow.agent_a, rfl⟩⟩
  · refine credit_only (allows_backed ..) (insert_backed fun href => ?_)
    have hrow := h (Ref.channel.inj href)
    exact ⟨channel, hrow, .inr ⟨hrow.agent_b, rfl⟩⟩

theorem settleIfDue_stays (id : Id) {channel : PaymentChannel}
    (h : Backs S col channel_id ch (Key.channel id) channel) (hσ : KeptBacked S col channel_id ch σ) :
    StaysBacked S col channel_id ch log (Backs S col channel_id ch (Key.channel id))
      (ChannelService.settleIfDue id channel) σ := by
  unfold ChannelService.settleIfDue
  split
  · refine ensures_seq (staysBacked_of_only (only_stmt now_backed) hσ) fun now σ₁ h₁ => ?_
    refine ensures_seq (staysBacked_of_only only_raiseIf h₁.2) fun _ σ₂ h₂ => ?_
    refine ensures_seq (staysBacked_of_only (settleRow_backed id) h₂.2) fun _ σ₃ h₃ => ?_
    exact refetchChannel_stays id h₃.2
  · exact ⟨h, hσ⟩

theorem close_stays (id agent_id : Id) (hσ : KeptBacked S col channel_id ch σ) :
    StaysBacked S col channel_id ch log (fun _ => True) (ChannelService.close col id agent_id) σ := by
  refine ensures_seq (getAsParticipant_stays id agent_id hσ) fun _ σ₁ h₁ => ?_
  refine ensures_seq (settleIfDue_stays id h₁.1 h₁.2) fun channel σ₂ h₂ => ?_
  obtain ⟨ha, hb⟩ := credit_backed h₂.1
  refine staysBacked_of_only ?_ h₂.2
  refine only_bind only_raiseIf fun _ => only_bind (only_onlyIf ha) fun _ => ?_
  refine only_bind (only_onlyIf hb) fun _ => only_bind ?_ fun rows => ?_
  · refine only_bind (only_stmt now_backed) fun now => only_stmt (update_backed fun _ row h => ?_)
    exact h.ended .CLOSED row.settled_at (some now)
  refine only_bind only_raiseIf fun _ => only_bind (only_stmt (insert_backed trivial)) fun _ => ?_
  exact refetchChannel_backed id

/-! ## Calls -/

/-- A state that is offered for the channel carries both signatures; a new channel is another one. -/
structure Vouched (S : Signing) (channel_id : Id) (ch : PaymentChannel) (call : ChannelCall) :
    Prop where
  offers : ∀ o, call.offers = some o → o.channel_id = channel_id → o.Verifies S ch
  opens : call.opens ≠ some channel_id

theorem ChannelCall.body_stays {call : ChannelCall} (h : Vouched S channel_id ch call)
    (hσ : KeptBacked S col channel_id ch σ) :
    StaysBacked S col channel_id ch log (fun _ => True) (call.body col) σ := by
  cases call with
  | openChannel id =>
      have hid : id ≠ channel_id := fun he => h.opens (congrArg some he)
      exact staysBacked_of_only (only_bind (openChannel_backed hid ..) fun _ => trivial) hσ
  | submitUpdate =>
      exact staysBacked_of_only (only_bind (submitUpdate_backed ..) fun _ => trivial) hσ
  | settle id agent_id nonce balance_a balance_b sig_a sig_b =>
      have ho := h.offers ⟨id, nonce, balance_a, balance_b, sig_a, sig_b⟩ rfl
      exact staysBacked_of_only (only_bind (settle_backed ho agent_id) fun _ => trivial) hσ
  | close => exact ensures_seq (close_stays _ _ hσ) fun _ _ h => h
  | dispute id agent_id nonce balance_a balance_b sig_a sig_b =>
      have ho := h.offers ⟨id, nonce, balance_a, balance_b, sig_a, sig_b⟩ rfl
      exact staysBacked_of_only (only_bind (dispute_backed ho agent_id) fun _ => trivial) hσ
  | autoSettleExpired =>
      exact staysBacked_of_only (only_bind autoSettleExpired_backed fun _ => trivial) hσ

theorem keptBacked_start : KeptBacked S col channel_id ch Session.start :=
  ⟨.start, fun _ he => absurd he List.not_mem_nil⟩

/-- What a session leaves that has kept the channel backed. -/
theorem KeptBacked.commit {st : Store schema} (hdb : BackedSince S col channel_id ch log st.db)
    (h : KeptBacked S col channel_id ch σ) :
    BackedSince S col channel_id ch log (st.db.apply σ) := by
  obtain ⟨entries, hlog, hpaid⟩ := hdb.paid
  refine ⟨fun k r hr => h.kept.view hdb.rows hr, entries ++ σ.inserted, ?_, fun e he => ?_⟩
  · rw [← List.append_assoc, ← hlog]
    rfl
  · rcases List.mem_append.mp he with he | he
    · exact hpaid e he
    · exact h.inserted e he

/-- What every session of the channel calls ensures. -/
abbrev EnsuresBacked (S : Signing) (col : Columns) (channel_id : Id) (ch : PaymentChannel)
    (log : List Entry) (p : Program Unit) : Prop :=
  Config.Ensures (fun st _ _ _ => BackedSince S col channel_id ch log st.db)
    (fun st σ s _ => s.CommitKeeps (BackedSince S col channel_id ch log) st σ) p Session.start

theorem ensuresBacked_of_stays {p : Program Unit}
    (hp : StaysBacked S col channel_id ch log (fun _ => True) p Session.start) :
    EnsuresBacked S col channel_id ch log (withSession p) := by
  refine ensures_withSession (J := KeptBacked S col channel_id ch) ?_ (fun _ _ _ => trivial) ?_
  · exact fun st σ _ h _ hdb => h.commit hdb
  · exact ensures_mono hp (fun _ _ h => h.2) fun _ _ _ => trivial

theorem ensuresBacked_of_fails {p : Program Unit} (hp : p.fails fun _ => True) :
    EnsuresBacked S col channel_id ch log p :=
  ensures_of_fails (fun st σ _ _ hs => Stmt.commitKeeps_of_notCommit hs st σ) hp

/-! ## Runs -/

variable {calls : ℕ → ChannelCall} {st : Store schema} {c : Config schema Unit}

theorem backedSince_start (hrow : st.db.rows (Key.channel channel_id) = some ch)
    (hbacked : Backed S col channel_id ch) :
    BackedSince S col channel_id ch st.db.log st.db := by
  refine ⟨fun k r hr => ?_, [], (List.append_nil _).symm, fun _ he => absurd he List.not_mem_nil⟩
  cases k with
  | channel id =>
      intro hid
      subst hid
      have he : ch = r := Option.some.inj (hrow.symm.trans hr)
      subst he
      exact ⟨rfl, rfl, rfl, rfl, hbacked⟩
  | _ => trivial

/-- If every state that is offered for the channel carries the signatures of both agents, the channel
only ever holds, and pays out, a state that both have signed, or its deposits. -/
theorem signed_if_vouched (hcalls : ∀ i, Vouched S channel_id ch (calls i)) (hst : st.db.WF)
    (hrow : st.db.rows (Key.channel channel_id) = some ch) (hbacked : Backed S col channel_id ch)
    (hc : Config.Reaches (fun _ _ _ _ => True) (Config.start st fun i => (calls i).run col) c) :
    BackedSince S col channel_id ch st.db.log c.store.db :=
  hc.ensured_invariant hst (backedSince_start hrow hbacked) fun i =>
    ensuresBacked_of_stays (ChannelCall.body_stays (hcalls i) keptBacked_start)

theorem ChannelCall.runAudited_backed (call : ChannelCall) :
    EnsuresBacked S .rounding channel_id ch log (call.runAudited .rounding) := by
  -- the calls that do not fail are vouched for: they offer no state, and open no channel
  have hstays : call.offers = none → call.opens = none →
      StaysBacked S .rounding channel_id ch log (fun _ => True) (call.body .rounding)
        Session.start := by
    intro hoffers hopens
    refine body_stays ⟨fun o ho => ?_, fun ho => ?_⟩ keptBacked_start
    · rw [hoffers] at ho
      cases ho
    · rw [hopens] at ho
      cases ho
  cases call with
  | openChannel => exact ensuresBacked_of_fails (runAudited_fails rfl)
  | settle => exact ensuresBacked_of_fails (runAudited_fails rfl)
  | dispute => exact ensuresBacked_of_fails (runAudited_fails rfl)
  | submitUpdate => exact ensuresBacked_of_stays (ensures_seq (hstays rfl rfl) fun _ _ h => h)
  | close =>
      have hqueue : queueWebhook.only (KeepsBacked S .rounding channel_id ch) :=
        only_bind (only_stmt ⟨trivial, trivial, trivial⟩) fun _ => only_raiseIf
      refine ensuresBacked_of_stays (ensures_seq (hstays rfl rfl) fun _ _ h => ?_)
      exact staysBacked_of_only hqueue h.2
  | autoSettleExpired => exact ensuresBacked_of_stays (ensures_seq (hstays rfl rfl) fun _ _ h => h)

/-- A call that offers a state does not return. -/
theorem not_returned {i : ℕ} {o : OfferedState} (ho : (calls i).offers = some o)
    (hc : Config.Reaches (fun _ _ _ _ => True)
      (Config.start st fun i => (calls i).runAudited .rounding) c) : c.prog i ≠ .ret () := by
  have hside : (calls i).sideCalls = ChannelCall.auditNewValues := by
    cases hcall : calls i with
    | settle => rfl
    | dispute => rfl
    | _ =>
        rw [hcall] at ho
        cases ho
  intro hret
  have hfails := hc.fails trivial (ChannelCall.runAudited_fails hside)
  rw [hret] at hfails
  exact hfails

/-- A settled channel with its opening deposits. -/
def settledChannel : PaymentChannel :=
  { agent_a_id := 1, agent_b_id := 2, capacity := 8, status := .SETTLED, deposit_a := 5
    deposit_b := 3, balance_a := 5, balance_b := 3 }

def oneChannel : Store schema where
  db :=
    { rows := fun
        | .channel id => if id = 7 then some settledChannel else none
        | _ => none
      keys := [.channel 7]
      log := [] }
  ext := default

theorem oneChannel_wf : oneChannel.db.WF := by
  refine ⟨by decide, fun k => ?_⟩
  cases k with
  | channel id => by_cases h : id = 7 <;> simp [oneChannel, h]
  | _ => simp [oneChannel]

/-- Nobody has signed anything. -/
def noSignatures : Signing where
  publicKey := toString
  verify _ _ _ := false
  signed _ _ := False
  ideal _ _ _ h := absurd h Bool.false_ne_true
  uuid := toString
  str := toString

end Sthrip
