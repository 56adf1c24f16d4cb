import Sthrip.Services.ChannelService
import Mathlib.Tactic.NormNum

set_option autoImplicit false

/-! # A channel closes on its latest state

Any number of sessions update, settle, dispute and close channels, interleaved in every way READ
COMMITTED allows. What happened to a channel is its *history*: the states the service has
accepted, the payments, the closing. The channel should pay out the accepted state with the
highest nonce, and accept no dispute after its window.

The service compares nonces with what it has read before, outside any lock; a settlement is not
compared with the updates at all, and a dispute is not compared with the clock. `LatestFirst ch`
is the condition that a state is accepted for channel `ch` only when it should be, and that
`close` pays from an object that is not out of date. Under it every interleaving closes the
channel on its latest state.
-/

namespace Sthrip

open Txn Prog

/-! ## Histories -/

/-- What happens to a channel. -/
inductive ChannelEvent where
  | accepted (a : Acceptance)
  | paid (agent_id : Id) (amount : ℚ)
  | closed
  deriving DecidableEq

/-- The event of channel `c` that an entry records. -/
def Entry.event (c : Id) : Entry → Option ChannelEvent
  | .posting p =>
      if p.ref = .channel c ∧ 0 < p.amount then some (.paid p.agent_id p.amount) else none
  | .fee _ => none
  | .acceptance a => if a.channel_id = c then some (.accepted a) else none
  | .closing d => if d = c then some .closed else none
  | .matched _ _ _ => none

def history (c : Id) (log : List Entry) : List ChannelEvent := log.filterMap (Entry.event c)

@[simp] theorem history_append (c : Id) (l l' : List Entry) :
    history c (l ++ l') = history c l ++ history c l' := List.filterMap_append ..

@[simp] theorem history_singleton (c : Id) (e : Entry) : history c [e] = (e.event c).toList := by
  cases h : e.event c <;> simp [history, h]

/-! ## States -/

/-- A nonce and two balances. -/
abbrev StateOf := ℤ × ℚ × ℚ

def PaymentChannel.state (r : PaymentChannel) : StateOf := (r.nonce, r.balance_a, r.balance_b)

def Acceptance.state (a : Acceptance) : StateOf := (a.nonce, a.balance_a, a.balance_b)

/-- The state `s` is older than `t`, or the same. -/
def NotAfter (s t : StateOf) : Prop := s.1 < t.1 ∨ s = t

/-- What closing the channel pays. -/
def PaymentChannel.payments (r : PaymentChannel) : List ChannelEvent :=
  (if 0 < r.balance_a then [.paid r.agent_a_id r.balance_a] else []) ++
    (if 0 < r.balance_b then [.paid r.agent_b_id r.balance_b] else [])

/-- A dispute was accepted within the settlement window. -/
def PaymentChannel.InTime (r : PaymentChannel) (a : Acceptance) : Prop :=
  ∀ t, a.accepted_by = .dispute t → ∃ closes_at ∈ r.closes_at, t ≤ closes_at

def ChannelEvent.IsUpdate (e : ChannelEvent) : Prop :=
  ∃ a, e = .accepted a ∧ a.accepted_by = .update

/-- The row is the latest of the states accepted in `H`, and nothing else happened. -/
structure Standing (r : PaymentChannel) (H : List ChannelEvent) : Prop where
  accepted : ∀ e ∈ H, ∃ a, e = .accepted a ∧ NotAfter a.state r.state ∧ r.InTime a
  latest : ∃ a, .accepted a ∈ H ∧ a.state = r.state

/-- The channel was paid out on the latest of the states accepted before; later there were only
updates. -/
def PaidLatest (r : PaymentChannel) (H : List ChannelEvent) : Prop :=
  ∃ H₁ H₂, H = H₁ ++ (r.payments ++ [.closed]) ++ H₂ ∧ Standing r H₁ ∧ ∀ e ∈ H₂, e.IsUpdate

/-- The invariant: a channel's row and its history fit together. -/
def Fits (row : Option PaymentChannel) (H : List ChannelEvent) : Prop :=
  match row with
  | none => ∀ e ∈ H, e.IsUpdate
  | some r =>
      match r.status with
      | .OPEN => ∀ e ∈ H, e.IsUpdate
      | .CLOSING => Standing r H
      | .SETTLED => Standing r H
      | .CLOSED => PaidLatest r H
      | _ => False

/-! ## The condition -/

/-- The state `a` may be accepted for channel `ch`:

* an update is not after the state a settlement or a dispute has put into the row;
* no state accepted before is after a settlement or a dispute;
* a dispute comes within the settlement window. -/
def Acceptable (ch : Id) (db : DB schema) (a : Acceptance) : Prop :=
  match a.accepted_by with
  | .update => ∀ r : PaymentChannel, db.rows (Key.channel ch) = some r →
      r.status = .CLOSING ∨ r.status = .SETTLED → NotAfter a.state r.state
  | .settle => ∀ b, .accepted b ∈ history ch db.log → NotAfter b.state a.state
  | .dispute t => (∀ b, .accepted b ∈ history ch db.log → NotAfter b.state a.state) ∧
      ∀ r : PaymentChannel, db.rows (Key.channel ch) = some r →
        ∃ closes_at ∈ r.closes_at, t ≤ closes_at

/-- A session commits acceptable states of channel `ch` only; and when `close` closes the channel,
the object it has paid from has the balances of the row. -/
def LatestFirst (ch : Id) : Store schema → Session schema → Stmt schema → Input schema → Prop
  | st, σ, .commit, _ => ∀ a, .accepted a ∈ history ch σ.inserted → Acceptable ch st.db a
  | st, σ, .update (Key.channel c) guard set, _ => c = ch → ∀ r o : PaymentChannel,
      σ.view st.db (Key.channel c) = some r → guard r = true → (set r).status = .CLOSED →
      σ.loaded (Key.channel c) = some o → o.payments = r.payments
  | _, _, _, _ => True

def latestFirst (ch : Id) : Protocol schema Unit where
  Inv st _ := Fits (st.db.rows (Key.channel ch)) (history ch st.db.log)
  Ok := LatestFirst ch

/-! ## What a session does to the channel -/

/-- What a session knows of a channel and will record for it. -/
structure About where
  held : Option (Held PaymentChannel)
  loaded : Option PaymentChannel
  events : List ChannelEvent

def about (ch : Id) (σ : Session schema) : About :=
  ⟨σ.held (Key.channel ch), σ.loaded (Key.channel ch), history ch σ.inserted⟩

/-- The session has loaded the row. -/
def About.see (A : About) (r : PaymentChannel) : About := { A with loaded := some r }

/-- The session has recorded events. -/
def About.record (A : About) (l : List ChannelEvent) : About := { A with events := A.events ++ l }

/-- The session has done nothing to the channel, but may have loaded its row. -/
def About.Idle (A : About) : Prop := A.held = none ∧ A.events = []

/-- What a session may commit. -/
inductive About.Ready : About → Prop
  | idle (o : Option PaymentChannel) : Ready ⟨none, o, []⟩
  | opened {r : PaymentChannel} (o : Option PaymentChannel) (hr : r.status = .OPEN) :
      Ready ⟨some ⟨none, some r⟩, o, []⟩
  | updated {a : Acceptance} (o : Option PaymentChannel) (ha : a.accepted_by = .update) :
      Ready ⟨none, o, [.accepted a]⟩
  | settling {r r' : PaymentChannel} {a : Acceptance} (o : Option PaymentChannel)
      (hr : r.status = .OPEN) (hr' : r'.status = .CLOSING) (ha : a.accepted_by = .settle)
      (hstate : a.state = r'.state) : Ready ⟨some ⟨some r, some r'⟩, o, [.accepted a]⟩
  | disputed {r r' : PaymentChannel} {a : Acceptance} {t : Time} (o : Option PaymentChannel)
      (hr : r.status = .CLOSING) (hr' : r'.status = .CLOSING) (ha : a.accepted_by = .dispute t)
      (hstate : a.state = r'.state) (hwindow : r'.closes_at = r.closes_at) :
      Ready ⟨some ⟨some r, some r'⟩, o, [.accepted a]⟩
  | settled {r r' : PaymentChannel} (o : Option PaymentChannel) (hr : r.status = .CLOSING)
      (hr' : r'.status = .SETTLED) (hstate : r'.state = r.state)
      (hwindow : r'.closes_at = r.closes_at) : Ready ⟨some ⟨some r, some r'⟩, o, []⟩
  | closed {r s : PaymentChannel} (o : Option PaymentChannel)
      (hr : r.status = .CLOSING ∨ r.status = .SETTLED) (hs : s.status = .CLOSED)
      (hstate : s.state = r.state) (hwindow : s.closes_at = r.closes_at) :
      Ready ⟨some ⟨some r, some s⟩, o, s.payments ++ [.closed]⟩

section Sessions

variable {ch c : Id} {σ σ' : Session schema} {i : ℕ} {R : Exn → Session schema → Unit → Prop}
  {r r' : PaymentChannel} {H : List ChannelEvent}

theorem NotAfter.refl (s : StateOf) : NotAfter s s := .inr rfl

theorem fits_standing (hr : r.status = .CLOSING ∨ r.status = .SETTLED) :
    Fits (some r) H ↔ Standing r H := by
  unfold Fits
  rcases hr with hr | hr <;> simp only [hr]

theorem fits_open (hr : r.status = .OPEN) : Fits (some r) H ↔ ∀ e ∈ H, e.IsUpdate := by
  unfold Fits
  simp only [hr]

theorem fits_closed (hr : r.status = .CLOSED) : Fits (some r) H ↔ PaidLatest r H := by
  unfold Fits
  simp only [hr]

/-- A row that differs in nothing the history is about. -/
theorem Standing.congr (h : Standing r H) (hstate : r'.state = r.state)
    (hwindow : r'.closes_at = r.closes_at) : Standing r' H where
  accepted e he := by
    obtain ⟨a, hea, hafter, htime⟩ := h.accepted e he
    exact ⟨a, hea, hstate ▸ hafter, fun t ht => hwindow ▸ htime t ht⟩
  latest := by
    obtain ⟨a, ha, has⟩ := h.latest
    exact ⟨a, ha, has.trans hstate.symm⟩

/-- A new state after all the others. -/
theorem Standing.snoc {a : Acceptance} (hstate : a.state = r.state) (htime : r.InTime a)
    (hH : ∀ e ∈ H, ∃ b, e = .accepted b ∧ NotAfter b.state a.state ∧ r.InTime b) :
    Standing r (H ++ [.accepted a]) where
  accepted e he := by
    rcases List.mem_append.mp he with he | he
    · obtain ⟨b, heb, hafter, hb⟩ := hH e he
      exact ⟨b, heb, hstate ▸ hafter, hb⟩
    · obtain rfl := List.mem_singleton.mp he
      exact ⟨a, rfl, hstate ▸ .refl _, htime⟩
  latest := ⟨a, by simp, hstate⟩

/-- An update of a standing channel that is not after its state. -/
theorem Standing.update {a : Acceptance} (h : Standing r H) (ha : a.accepted_by = .update)
    (hafter : NotAfter a.state r.state) : Standing r (H ++ [.accepted a]) where
  accepted e he := by
    rcases List.mem_append.mp he with he | he
    · exact h.accepted e he
    · obtain rfl := List.mem_singleton.mp he
      exact ⟨a, rfl, hafter, fun t ht => by rw [ha] at ht; cases ht⟩
  latest := by
    obtain ⟨b, hb, hstate⟩ := h.latest
    exact ⟨b, List.mem_append_left _ hb, hstate⟩

/-- An update fits, wherever the channel is, if it is not after a state that stands. -/
theorem Fits.update {row : Option PaymentChannel} {a : Acceptance} (h : Fits row H)
    (ha : a.accepted_by = .update)
    (hafter : ∀ r, row = some r → r.status = .CLOSING ∨ r.status = .SETTLED →
      NotAfter a.state r.state) : Fits row (H ++ [.accepted a]) := by
  have hupdates : (∀ e ∈ H, e.IsUpdate) → ∀ e ∈ H ++ [.accepted a], e.IsUpdate := by
    intro hH e he
    rcases List.mem_append.mp he with he | he
    · exact hH e he
    · exact ⟨a, List.mem_singleton.mp he, ha⟩
  cases row with
  | none => exact hupdates h
  | some r =>
      cases hs : r.status with
      | OPEN => exact (fits_open hs).mpr (hupdates ((fits_open hs).mp h))
      | CLOSING =>
          exact (fits_standing (.inl hs)).mpr
            (((fits_standing (.inl hs)).mp h).update ha (hafter r rfl (.inl hs)))
      | SETTLED =>
          exact (fits_standing (.inr hs)).mpr
            (((fits_standing (.inr hs)).mp h).update ha (hafter r rfl (.inr hs)))
      | CLOSED =>
          obtain ⟨H₁, H₂, rfl, hstand, hH₂⟩ := (fits_closed hs).mp h
          refine (fits_closed hs).mpr ⟨H₁, H₂ ++ [.accepted a], by simp, hstand, fun e he => ?_⟩
          rcases List.mem_append.mp he with he | he
          · exact hH₂ e he
          · exact ⟨a, List.mem_singleton.mp he, ha⟩
      | PENDING => simp only [Fits, hs] at h
      | DISPUTED => simp only [Fits, hs] at h

theorem inTime_of_update {a : Acceptance} (h : (ChannelEvent.accepted a).IsUpdate) : r.InTime a := by
  obtain ⟨b, hab, hb⟩ := h
  obtain rfl := ChannelEvent.accepted.inj hab
  intro t ht
  rw [hb] at ht
  cases ht

theorem Standing.inTime {a : Acceptance} (h : Standing r H) (ha : .accepted a ∈ H) :
    r.InTime a := by
  obtain ⟨b, hab, -, hb⟩ := h.accepted _ ha
  obtain rfl := ChannelEvent.accepted.inj hab
  exact hb

/-- Payments and the closing accept nothing. -/
theorem not_accepted_of_paid {a : Acceptance} (h : .accepted a ∈ r.payments ++ [.closed]) :
    False := by
  unfold PaymentChannel.payments at h
  split at h <;> split at h <;> simp at h

theorem Fits.inTime {a : Acceptance} (h : Fits (some r) H) (ha : .accepted a ∈ H) :
    r.InTime a := by
  cases hs : r.status with
  | OPEN => exact inTime_of_update ((fits_open hs).mp h _ ha)
  | CLOSING => exact ((fits_standing (.inl hs)).mp h).inTime ha
  | SETTLED => exact ((fits_standing (.inr hs)).mp h).inTime ha
  | CLOSED =>
      obtain ⟨H₁, H₂, rfl, hstand, hH₂⟩ := (fits_closed hs).mp h
      rcases List.mem_append.mp ha with ha | ha
      · rcases List.mem_append.mp ha with ha | ha
        · exact hstand.inTime ha
        · exact (not_accepted_of_paid ha).elim
      · exact inTime_of_update (hH₂ _ ha)
  | PENDING => simp only [Fits, hs] at h
  | DISPUTED => simp only [Fits, hs] at h

/-- A session that is ready commits to a database in which row and history fit. -/
theorem About.Ready.commits (h : (about ch σ).Ready) :
    CommitsTo (latestFirst ch) i (fun _ => True) σ () := by
  intro st γ x hs hok _
  refine ⟨(), ?_, trivial⟩
  show Fits (σ.view st.db (Key.channel ch)) (history ch (st.db.log ++ σ.inserted))
  have hfits : Fits (st.db.rows (Key.channel ch)) (history ch st.db.log) := hs.inv
  have hok' : ∀ a, .accepted a ∈ history ch σ.inserted → Acceptable ch st.db a := hok
  have hview : ∀ {base own}, σ.held (Key.channel ch) = some ⟨base, own⟩ →
      st.db.rows (Key.channel ch) = base ∧ σ.view st.db (Key.channel ch) = own := fun hh =>
    ⟨hs.agrees _ _ hh, Session.view_of_held hh _⟩
  rw [history_append]
  generalize hA : about ch σ = A at h
  have hheld : σ.held (Key.channel ch) = A.held := hA ▸ rfl
  have hins : history ch σ.inserted = A.events := hA ▸ rfl
  rw [hins] at hok' ⊢
  cases h with
  | idle o =>
      rw [List.append_nil, Session.view_of_not_held hheld]
      exact hfits
  | opened o hr =>
      obtain ⟨hbase, hown⟩ := hview hheld
      rw [hbase] at hfits
      rw [hown, List.append_nil]
      exact (fits_open hr).mpr hfits
  | @updated a o ha =>
      rw [Session.view_of_not_held hheld]
      have := hok' a (List.mem_singleton_self _)
      rw [Acceptable, ha] at this
      exact hfits.update ha this
  | @settling r r' a o hr hr' ha hstate =>
      obtain ⟨hbase, hown⟩ := hview hheld
      rw [hbase, fits_open hr] at hfits
      rw [hown, fits_standing (.inl hr')]
      have := hok' a (List.mem_singleton_self _)
      rw [Acceptable, ha] at this
      refine .snoc hstate (fun t ht => by rw [ha] at ht; cases ht) fun e he => ?_
      obtain ⟨b, rfl, hb⟩ := hfits e he
      exact ⟨b, rfl, this b he, fun t ht => by rw [hb] at ht; cases ht⟩
  | @disputed r r' a t o hr hr' ha hstate hwindow =>
      obtain ⟨hbase, hown⟩ := hview hheld
      rw [hbase, fits_standing (.inl hr)] at hfits
      rw [hown, fits_standing (.inl hr')]
      have := hok' a (List.mem_singleton_self _)
      rw [Acceptable, ha] at this
      refine .snoc hstate (fun t' ht' => ?_) fun e he => ?_
      · rw [ha, AcceptedBy.dispute.injEq] at ht'
        subst ht'
        rw [hwindow]
        exact this.2 r hbase
      · obtain ⟨b, rfl, -, hb⟩ := hfits.accepted e he
        exact ⟨b, rfl, this.1 b he, fun t ht => hwindow ▸ hb t ht⟩
  | settled o hr hr' hstate hwindow =>
      obtain ⟨hbase, hown⟩ := hview hheld
      rw [hbase, fits_standing (.inl hr)] at hfits
      rw [hown, List.append_nil, fits_standing (.inr hr')]
      exact hfits.congr hstate hwindow
  | closed o hr hr' hstate hwindow =>
      obtain ⟨hbase, hown⟩ := hview hheld
      rw [hbase, fits_standing hr] at hfits
      rw [hown, fits_closed hr']
      exact ⟨_, [], by simp, hfits.congr hstate hwindow, by simp⟩

/-! ## Statements -/

/-- A change of the session that does not concern the channel's row. -/
theorem about_eq {events : List ChannelEvent}
    (hheld : σ'.held (Key.channel ch) = σ.held (Key.channel ch))
    (hloaded : σ'.loaded (Key.channel ch) = σ.loaded (Key.channel ch))
    (hins : history ch σ'.inserted = history ch σ.inserted ++ events) :
    about ch σ' = (about ch σ).record events := by
  simp only [about, About.record, hheld, hloaded, hins]

theorem about_of_frame {l : List Entry} (f : BalanceRepository.Frame σ σ' l) :
    about ch σ' = (about ch σ).record (history ch l) :=
  about_eq (f.held _ (by simp)) (f.loaded _ (by simp)) (by rw [f.inserted, history_append])

/-- The object a query of the row returns is the one loaded before, if there is one. -/
theorem getById_safe {Q : Option PaymentChannel → Session schema → Unit → Prop}
    (found : ∀ r σ', (c = ch → ∀ o, (about ch σ).loaded = some o → r = o) →
      about ch σ' = (if c = ch then (about ch σ).see r else about ch σ) →
      Q (some r) σ' ())
    (missing : Q none σ ()) :
    (ChannelRepository.getById c).safe (latestFirst ch) i Q R σ () := by
  refine safe_select fun st γ _ => ?_
  unfold Session.load
  cases hobj : σ.object st.db (Key.channel c) with
  | none => exact missing
  | some r =>
      refine found r _ (fun hc o ho => ?_) ?_
      · subst hc
        obtain ⟨r', hr', hget⟩ := Option.map_eq_some_iff.mp hobj
        have ho' : σ.loaded (Key.channel c) = some o := ho
        rw [ho', Option.getD_some] at hget
        exact hget.symm
      · by_cases hc : c = ch
        · subst hc
          rw [if_pos rfl]
          simp only [about, About.see, Function.update_self]
        · rw [if_neg hc]
          have hne : Key.channel ch ≠ Key.channel c := by simpa [eq_comm] using hc
          simp only [about, Function.update_of_ne hne]

/-- An update of the row of a channel the session may have locked before. -/
theorem updateRow_safe {guard : PaymentChannel → Bool} {set : PaymentChannel → PaymentChannel}
    {Q : Bool → Session schema → Unit → Prop}
    (hit : ∀ r base σ', guard r = true →
      (c = ch → ((about ch σ).held = none → base = some r) ∧
        ∀ h, (about ch σ).held = some h → base = h.base ∧ h.own = some r) →
      (c = ch → (set r).status = .CLOSED → ∀ o, (about ch σ).loaded = some o →
        o.payments = r.payments) →
      about ch σ' = (if c = ch then
        ⟨some ⟨base, some (set r)⟩,
          (about ch σ).loaded.map fun o => if guard o then set o else o, (about ch σ).events⟩
        else about ch σ) → Q true σ' ())
    (miss : ∀ σ', about ch σ' = (if c = ch then
        { about ch σ with
          loaded := (about ch σ).loaded.map fun o => if guard o then set o else o }
        else about ch σ) → Q false σ' ()) :
    (update (S := schema) (Key.channel c) guard set).safe (latestFirst ch) i Q R σ () := by
  have hne : c ≠ ch → Key.channel ch ≠ Key.channel c := fun hc => by simpa [eq_comm] using hc
  refine safe_update (fun st γ x r hs hok hv hg => ?_) fun st γ x _ _ _ => miss _ ?_
  · refine hit r (σ.base st.db (Key.channel c)) _ hg (fun hc => ?_) (fun hc hset o ho => ?_) ?_
    · subst hc
      refine ⟨fun hh => ?_, fun h hh => ?_⟩
      · have hh' : σ.held (Key.channel c) = none := hh
        rwa [Session.base, hh', ← Session.view_of_not_held hh']
      · have hh' : σ.held (Key.channel c) = some h := hh
        rw [Session.view_of_held hh'] at hv
        exact ⟨by rw [Session.base, hh'], hv⟩
    · subst hc
      exact hok rfl r o hv hg hset ho
    · by_cases hc : c = ch
      · subst hc
        rw [if_pos rfl]
        simp [about, Session.touch]
      · rw [if_neg hc]
        simp [about, Session.touch, Session.write, Function.update_of_ne (hne hc)]
  · by_cases hc : c = ch
    · subst hc
      rw [if_pos rfl]
      simp [about, Session.touch]
    · rw [if_neg hc]
      simp [about, Session.touch, Function.update_of_ne (hne hc)]

/-- Inserting a row of another table. -/
theorem createOther_safe {k : Key} {row : Row k} {Q : Bool → Session schema → Unit → Prop}
    (hk : Key.channel ch ≠ k) (h : ∀ b σ', about ch σ' = about ch σ → Q b σ' ()) :
    (create (S := schema) k row).safe (latestFirst ch) i Q R σ () := by
  refine safe_create (fun st γ _ _ => h _ _ ?_) fun _ _ _ _ _ => h _ _ rfl
  simp [about, Session.write, Function.update_of_ne hk]

theorem note_safe {e : Entry} {Q : Unit → Session schema → Unit → Prop}
    (h : ∀ σ', about ch σ' = (about ch σ).record (e.event ch).toList → Q () σ' ()) :
    (insert (S := schema) e).safe (latestFirst ch) i Q R σ () :=
  safe_insert (h _ (about_eq rfl rfl (by rw [history_append, history_singleton])))

theorem creditPositive_safe {col : Columns} {agent_id : Id} {amount : ℚ} {token : Token}
    {Q : Unit → Session schema → Unit → Prop}
    (h : ∀ σ', about ch σ' = (about ch σ).record
        (if c = ch then if 0 < amount then [.paid agent_id amount] else [] else []) → Q () σ' ())
    (hR : ∀ e σ', R e σ' ()) :
    (onlyIf (0 < amount) (BalanceRepository.credit col agent_id amount token
      (.channel c))).safe (latestFirst ch) i Q R σ () := by
  refine safe_onlyIf (fun hpos => BalanceRepository.credit_frame (fun b σ' f => h _ ?_) hR)
    fun hpos => h _ ?_
  · rw [about_of_frame f, history_singleton]
    by_cases hc : c = ch <;> simp [Entry.event, hc, hpos]
  · by_cases hc : c = ch <;> simp [About.record, hc, hpos]

/-- Taking a deposit is no payment. -/
theorem deductPositive_safe {col : Columns} {agent_id : Id} {amount : ℚ} {token : Token}
    {Q : Unit → Session schema → Unit → Prop}
    (h : ∀ σ', about ch σ' = about ch σ → Q () σ' ()) (hR : ∀ e σ', R e σ' ()) :
    (onlyIf (0 < amount) (BalanceRepository.deduct col agent_id amount token
      (.channel c))).safe (latestFirst ch) i Q R σ () := by
  refine safe_onlyIf (fun hpos => BalanceRepository.deduct_frame (fun b σ' f => h _ ?_) hR)
    fun _ => h _ rfl
  have hneg : ¬0 < -amount := not_lt.mpr (neg_nonpos.mpr hpos.le)
  rw [about_of_frame f, history_singleton]
  simp [Entry.event, About.record, hneg]

theorem getAsParticipant_safe {agent_id : Id}
    {Q : PaymentChannel → Session schema → Unit → Prop}
    (h : ∀ r σ', (c = ch → ∀ o, (about ch σ).loaded = some o → r = o) →
      about ch σ' = (if c = ch then (about ch σ).see r else about ch σ) →
      Q r σ' ())
    (hR : ∀ e σ', R e σ' ()) :
    (getAsParticipant c agent_id).safe (latestFirst ch) i Q R σ () := by
  refine safe_bind (getById_safe (fun r σ' hr hσ' => ?_) (safe_bind (hR _ _)))
  refine safe_bind (safe_orRaise (fun hn => by cases hn) fun r' hr' => ?_)
  obtain rfl : r = r' := Option.some.inj hr'
  exact safe_bind (safe_raiseIf (fun _ => hR _ _) fun _ => h r σ' hr hσ')

theorem refetchChannel_safe {Q : PaymentChannel → Session schema → Unit → Prop}
    (h : ∀ r σ', (c = ch → ∀ o, (about ch σ).loaded = some o → r = o) →
      about ch σ' = (if c = ch then (about ch σ).see r else about ch σ) →
      Q r σ' ())
    (hR : ∀ e σ', R e σ' ()) :
    (refetchChannel c).safe (latestFirst ch) i Q R σ () := by
  refine safe_bind (getById_safe (fun r σ' hr hσ' => ?_) (hR _ _))
  exact safe_orRaise (fun hn => by cases hn) fun r' hr' => by
    obtain rfl : r = r' := Option.some.inj hr'
    exact h r σ' hr hσ'

/-! ## Methods -/

/-- The end of a method's session: it may commit what it did to the channel. -/
abbrev Done (ch : Id) {α : Type} : α → Session schema → Unit → Prop :=
  fun _ σ _ => (about ch σ).Ready

theorem About.Idle.ready {A : About} (h : A.Idle) : A.Ready := by
  obtain ⟨held, loaded, events⟩ := A
  obtain ⟨rfl, rfl⟩ : held = none ∧ events = [] := h
  exact .idle loaded

theorem About.Idle.see {A : About} (h : A.Idle) (r : PaymentChannel) : (A.see r).Idle := h

theorem idle_start : (about ch Session.start).Idle := ⟨rfl, rfl⟩

/-- A loaded row is nothing to commit. -/
theorem About.Ready.see {A : About} (h : A.Ready) (r : PaymentChannel) : (A.see r).Ready := by
  cases h with
  | idle o => exact .idle _
  | opened o hr => exact .opened _ hr
  | updated o ha => exact .updated _ ha
  | settling o hr hr' ha hstate => exact .settling _ hr hr' ha hstate
  | disputed o hr hr' ha hstate hwindow => exact .disputed _ hr hr' ha hstate hwindow
  | settled o hr hr' hstate hwindow => exact .settled _ hr hr' hstate hwindow
  | closed o hr hr' hstate hwindow => exact .closed _ hr hr' hstate hwindow

theorem idle_of_seen (h : (about ch σ).Idle)
    (h' : about ch σ' = if c = ch then (about ch σ).see r else about ch σ) :
    (about ch σ').Idle := by
  rw [h']
  split
  · exact h.see r
  · exact h

theorem ready_of_seen (h : (about ch σ).Ready)
    (h' : about ch σ' = if c = ch then (about ch σ).see r else about ch σ) :
    (about ch σ').Ready := by
  rw [h']
  split
  · exact h.see r
  · exact h

theorem openChannel_safe {col : Columns} (agent_a_id agent_b_id : Id) (deposit_a deposit_b : ℚ)
    (settlement_period : ℤ) :
    (ChannelService.openChannel col c agent_a_id agent_b_id deposit_a deposit_b
      settlement_period).safe (latestFirst ch) i (Done ch) Raised Session.start () := by
  refine safe_bind (safe_raiseIf (fun _ => trivial) fun _ => ?_)
  refine safe_bind (safe_raiseIf (fun _ => trivial) fun _ => ?_)
  refine safe_bind (deductPositive_safe (fun σ₁ h₁ => ?_) fun _ _ => trivial)
  refine safe_bind (deductPositive_safe (fun σ₂ h₂ => ?_) fun _ _ => trivial)
  have hidle : (about ch σ₂).Idle := by rw [h₂, h₁]; exact idle_start
  refine safe_bind (safe_create (fun st γ hs hv => ?_) fun _ _ _ _ _ =>
    safe_bind (safe_raiseIf (fun _ => trivial) fun hf => absurd rfl hf))
  refine safe_bind (safe_raiseIf (fun _ => trivial) fun _ => ?_)
  by_cases hc : c = ch
  · subst hc
    have hnone : σ₂.held (Key.channel c) = none := hidle.1
    have hevents : history c σ₂.inserted = [] := hidle.2
    have hbase : σ₂.base st.db (Key.channel c) = none := by
      rwa [Session.base, hnone, ← Session.view_of_not_held hnone]
    show About.Ready ⟨_, _, _⟩
    simp only [Session.write, Function.update_self, hbase, hevents]
    exact .opened _ rfl
  · have hne : Key.channel ch ≠ Key.channel c := by simpa [eq_comm] using hc
    show About.Ready ⟨_, _, _⟩
    simp only [Session.write, Function.update_of_ne hne]
    exact hidle.ready

theorem submitUpdate_safe {col : Columns} (agent_id : Id) (nonce : ℤ) (balance_a balance_b : ℚ)
    (signature_a signature_b : String) :
    (ChannelService.submitUpdate col c agent_id nonce balance_a balance_b signature_a
      signature_b).safe (latestFirst ch) i (Done ch) Raised Session.start () := by
  refine safe_bind (getAsParticipant_safe (fun r σ₁ _ h₁ => ?_) fun _ _ => trivial)
  have hidle := idle_of_seen idle_start h₁
  refine safe_bind (safe_bind (safe_query_any fun l loaded => ?_))
  refine safe_bind (safe_raiseIf (fun _ => trivial) fun _ => ?_)
  refine safe_bind (safe_raiseIf (fun _ => trivial) fun _ => ?_)
  refine safe_bind (safe_bind (createOther_safe (by simp) fun inserted σ₂ h₂ => ?_))
  refine safe_bind (safe_raiseIf (fun _ => trivial) fun _ => ?_)
  refine safe_bind (note_safe fun σ₃ h₃ => ?_)
  show (about ch σ₃).Ready
  have hidle₂ : (about ch σ₂).Idle := by rw [h₂]; exact hidle
  obtain ⟨hheld, hevents⟩ := hidle₂
  rw [h₃, About.record, hheld, hevents]
  by_cases hc : c = ch
  · simp only [Entry.event, hc, if_true, Option.toList, List.nil_append]
    exact .updated _ rfl
  · simp only [Entry.event, hc, if_false, Option.toList, List.nil_append]
    exact .idle _

/-- The first transition of a session. -/
theorem transition_safe {guard : PaymentChannel → Bool} {set : PaymentChannel → PaymentChannel}
    {Q : Bool → Session schema → Unit → Prop} (hidle : (about ch σ).Idle)
    (hit : ∀ r σ' o, guard r = true →
      about ch σ' = (if c = ch then ⟨some ⟨some r, some (set r)⟩, o, []⟩ else ⟨none, o, []⟩) →
      Q true σ' ())
    (miss : ∀ σ', (about ch σ').Idle → Q false σ' ()) :
    (update (S := schema) (Key.channel c) guard set).safe (latestFirst ch) i Q R σ () := by
  obtain ⟨hheld, hevents⟩ := hidle
  refine updateRow_safe (fun r base σ' hg hbase _ hσ' =>
    hit r σ' (about ch σ').loaded hg ?_) fun σ' hσ' => miss σ' ?_
  · by_cases hc : c = ch
    · rw [if_pos hc, hevents, (hbase hc).1 hheld] at hσ'
      rw [if_pos hc, hσ']
    · rw [if_neg hc] at hσ'
      rw [if_neg hc, hσ']
      exact congrArg₂ (fun h e => About.mk h _ e) hheld hevents
  · rw [hσ']
    split
    · exact ⟨hheld, hevents⟩
    · exact ⟨hheld, hevents⟩

theorem settle_safe {col : Columns} (agent_id : Id) (nonce : ℤ) (balance_a balance_b : ℚ)
    (sig_a sig_b : String) :
    (ChannelService.settle col c agent_id nonce balance_a balance_b sig_a sig_b).safe
      (latestFirst ch) i (Done ch) Raised Session.start () := by
  refine safe_bind (safe_raiseIf (fun _ => trivial) fun _ => ?_)
  refine safe_bind (getAsParticipant_safe (fun r σ₁ _ h₁ => ?_) fun _ _ => trivial)
  have hidle := idle_of_seen idle_start h₁
  refine safe_bind (safe_raiseIf (fun _ => trivial) fun _ => ?_)
  -- the row is queried once more for the length of its settlement period
  refine safe_bind (safe_bind (safe_mono (Q := fun _ σ _ => (about ch σ).Idle) (R := Raised)
    (getById_safe (fun r' σ₂ _ h₂ => idle_of_seen hidle h₂) hidle) (fun channel σ₂ _ hidle₂ => ?_)
    fun _ _ _ h => h))
  refine safe_bind (safe_now fun t => ?_)
  refine transition_safe hidle₂ (fun r₀ σ₃ o hg h₃ => ?_) fun σ₃ _ =>
    safe_bind (safe_raiseIf (fun _ => trivial) fun hf => absurd rfl hf)
  refine safe_bind (safe_raiseIf (fun _ => trivial) fun _ => ?_)
  refine safe_bind (note_safe fun σ₄ h₄ => ?_)
  have hready : (about ch σ₄).Ready := by
    rw [h₄, h₃]
    by_cases hc : c = ch
    · simp only [About.record, Entry.event, hc, if_true, Option.toList, List.nil_append]
      exact .settling o (by simpa using hg) rfl rfl rfl
    · simp only [About.record, Entry.event, hc, if_false, Option.toList, List.nil_append]
      exact .idle o
  refine safe_bind (safe_onlyIf (fun _ => note_safe fun σ₅ h₅ => ?_) fun _ => ?_)
  · have hready₅ : (about ch σ₅).Ready := by
      rw [h₅]
      simpa [About.record, Entry.event] using hready
    exact safe_bind (refetchChannel_safe (fun _ σ₆ _ h₆ => ready_of_seen hready₅ h₆)
      fun _ _ => trivial)
  · exact safe_bind (refetchChannel_safe (fun _ σ₆ _ h₆ => ready_of_seen hready h₆)
      fun _ _ => trivial)

theorem dispute_safe {col : Columns} (agent_id : Id) (nonce : ℤ) (balance_a balance_b : ℚ)
    (sig_a sig_b : String) :
    (ChannelService.dispute col c agent_id nonce balance_a balance_b sig_a sig_b).safe
      (latestFirst ch) i (Done ch) Raised Session.start () := by
  refine safe_bind (getAsParticipant_safe (fun r σ₁ _ h₁ => ?_) fun _ _ => trivial)
  have hidle := idle_of_seen idle_start h₁
  refine safe_bind (safe_raiseIf (fun _ => trivial) fun _ => ?_)
  refine safe_bind (safe_raiseIf (fun _ => trivial) fun _ => ?_)
  refine safe_bind (transition_safe hidle (fun r₀ σ₂ o hg h₂ => ?_) fun σ₂ _ =>
    safe_bind (safe_raiseIf (fun _ => trivial) fun hf => absurd rfl hf))
  refine safe_bind (safe_raiseIf (fun _ => trivial) fun _ => ?_)
  refine safe_bind (safe_now fun t => ?_)
  refine safe_bind (note_safe fun σ₃ h₃ => ?_)
  refine refetchChannel_safe (fun _ σ₄ _ h₄ => ready_of_seen ?_ h₄) fun _ _ => trivial
  rw [h₃, h₂]
  have hs : r₀.status = .CLOSING := by simpa using hg
  by_cases hc : c = ch
  · simp only [About.record, Entry.event, hc, if_true, Option.toList, List.nil_append]
    exact .disputed o hs hs rfl rfl rfl
  · simp only [About.record, Entry.event, hc, if_false, Option.toList, List.nil_append]
    exact .idle o

/-- A session of the sweep: it has settled the channel, or not touched it. -/
def About.Swept (A : About) : Prop :=
  A.events = [] ∧ (A.held = none ∨ ∃ r r' : PaymentChannel, A.held = some ⟨some r, some r'⟩ ∧
    r.status = .CLOSING ∧ r'.status = .SETTLED ∧ r'.state = r.state ∧
    r'.closes_at = r.closes_at ∧ r'.payments = r.payments)

theorem About.Swept.ready {A : About} (h : A.Swept) : A.Ready := by
  obtain ⟨held, loaded, events⟩ := A
  obtain ⟨hevents, hheld⟩ := h
  obtain rfl : events = [] := hevents
  rcases hheld with hheld | ⟨r, r', hheld, hr, hr', hstate, hwindow, -⟩
  · obtain rfl : held = none := hheld
    exact .idle loaded
  · obtain rfl : held = some ⟨some r, some r'⟩ := hheld
    exact .settled loaded hr hr' hstate hwindow

/-- `CLOSING → SETTLED` for a channel that the session may have settled before. -/
theorem settleRow_safe {Q : Bool → Session schema → Unit → Prop} (h : (about ch σ).Swept)
    (hQ : ∀ rows σ', (about ch σ').Swept → (c ≠ ch → about ch σ' = about ch σ) → Q rows σ' ()) :
    (ChannelRepository.settle c).safe (latestFirst ch) i Q R σ () := by
  obtain ⟨hevents, hheld⟩ := h
  refine safe_bind (safe_now fun t => updateRow_safe
    (fun r base σ' hg hbase _ hσ' => hQ _ _ ?_ fun hc => by rw [hσ', if_neg hc])
    fun σ' hσ' => hQ _ _ ?_ fun hc => by rw [hσ', if_neg hc])
  · have hs : r.status = .CLOSING := by simpa using hg
    rw [hσ']
    split
    · next hc =>
        refine ⟨hevents, .inr ?_⟩
        rcases hheld with hnone | ⟨r₁, r₂, hsome, -, hr₂, -⟩
        · rw [(hbase hc).1 hnone]
          exact ⟨r, _, rfl, hs, rfl, rfl, rfl, rfl⟩
        · obtain ⟨-, hown⟩ := (hbase hc).2 _ hsome
          obtain rfl : r₂ = r := Option.some.inj hown
          rw [hs] at hr₂
          cases hr₂
    · exact ⟨hevents, hheld⟩
  · rw [hσ']
    split
    · exact ⟨hevents, hheld⟩
    · exact ⟨hevents, hheld⟩

theorem autoSettleExpired_safe :
    ChannelService.autoSettleExpired.safe (latestFirst ch) i (Done ch) Raised
      Session.start () := by
  refine safe_bind (safe_bind (safe_now fun t => safe_bind (safe_query_any fun l loaded => ?_)))
  show (tally (List.filterMap _ l) ChannelRepository.settle).safe _ _ _ _ _ _
  refine safe_mono (safe_tally (R := Raised) (fun σ _ => (about ch σ).Swept) _
    (fun c σ g h => settleRow_safe h fun _ _ h' _ => h') ⟨rfl, .inl rfl⟩)
    (fun _ _ _ h => About.Swept.ready h) fun _ _ _ h => h


/-- Before it pays, `close` has settled the channel or not touched it, and the object `o` it goes
on with is the loaded one. -/
def PaysFrom (c ch : Id) (σ : Session schema) (o : PaymentChannel) : Prop :=
  if c = ch then (about ch σ).Swept ∧ (about ch σ).loaded = some o else (about ch σ).Idle

theorem settleIfDue_safe {Q : PaymentChannel → Session schema → Unit → Prop}
    (h : (about ch σ).Idle) (hr : PaysFrom c ch σ r)
    (hQ : ∀ o σ', PaysFrom c ch σ' o → Q o σ' ()) (hR : ∀ e σ', R e σ' ()) :
    (ChannelService.settleIfDue c r).safe (latestFirst ch) i Q R σ () := by
  unfold ChannelService.settleIfDue
  split
  · refine safe_bind (safe_now fun t => safe_bind (safe_raiseIf (fun _ => hR _ _) fun _ => ?_))
    refine safe_bind (settleRow_safe ⟨h.2, .inl h.1⟩ fun rows σ₁ hswept hother => ?_)
    refine refetchChannel_safe (fun o σ₂ _ h₂ => hQ o σ₂ ?_) hR
    unfold PaysFrom
    rw [h₂]
    split
    · exact ⟨hswept, rfl⟩
    · next hc =>
        rw [hother hc]
        exact h
  · exact hQ r σ hr

theorem close_safe {col : Columns} (agent_id : Id) :
    (ChannelService.close col c agent_id).safe (latestFirst ch) i (Done ch) Raised
      Session.start () := by
  refine safe_bind (getAsParticipant_safe (fun r σ₁ _ h₁ => ?_) fun _ _ => trivial)
  have hidle := idle_of_seen idle_start h₁
  have hpays₁ : PaysFrom c ch σ₁ r := by
    unfold PaysFrom
    split
    · next hc => exact ⟨⟨hidle.2, .inl hidle.1⟩, by rw [h₁, if_pos hc]; rfl⟩
    · exact hidle
  refine safe_bind (settleIfDue_safe hidle hpays₁ (fun o σ₂ hpays => ?_) fun _ _ => trivial)
  refine safe_bind (safe_raiseIf (fun _ => trivial) fun _ => ?_)
  refine safe_bind (creditPositive_safe (fun σ₃ h₃ => ?_) fun _ _ => trivial)
  refine safe_bind (creditPositive_safe (fun σ₄ h₄ => ?_) fun _ _ => trivial)
  rw [h₃] at h₄
  refine safe_bind (safe_bind (safe_now fun t => ?_))
  refine updateRow_safe (fun r₂ base σ₅ hg hbase hok h₅ => ?_) fun σ₅ _ =>
    safe_bind (safe_raiseIf (fun _ => trivial) fun hf => absurd rfl hf)
  refine safe_bind (safe_raiseIf (fun _ => trivial) fun _ => ?_)
  refine safe_bind (note_safe fun σ₆ h₆ => ?_)
  refine refetchChannel_safe (fun _ σ₇ _ h₇ => ready_of_seen ?_ h₇) fun _ _ => trivial
  rw [h₆, h₅]
  by_cases hc : c = ch
  · rw [PaysFrom, if_pos hc] at hpays
    obtain ⟨⟨hevents, hheld⟩, hloaded⟩ := hpays
    have hloaded₄ : (about ch σ₄).loaded = some o := by rw [h₄]; exact hloaded
    have hheld₄ : (about ch σ₄).held = (about ch σ₂).held := by rw [h₄]; rfl
    -- what was paid is what the row names
    have hsame : o.payments = r₂.payments := hok hc rfl o hloaded₄
    have hevents₄ : (about ch σ₄).events = r₂.payments := by
      rw [h₄, ← hsame]
      simp only [About.record, hevents, hc, if_true, List.nil_append, PaymentChannel.payments]
    have hs : r₂.status = .SETTLED := by simpa using hg
    simp only [About.record, hc, if_true, Entry.event, Option.toList, hevents₄]
    rcases hheld with hnone | ⟨r, r', hsome, hr, -, hstate, hwindow, -⟩
    · rw [(hbase hc).1 (hheld₄.trans hnone)]
      exact About.Ready.closed (s := { r₂ with status := .CLOSED, closed_at := some t }) _
        (.inr hs) rfl rfl rfl
    · obtain ⟨rfl, hown⟩ := (hbase hc).2 _ (hheld₄.trans hsome)
      obtain rfl : r' = r₂ := Option.some.inj hown
      exact About.Ready.closed (s := { r' with status := .CLOSED, closed_at := some t }) _
        (.inl hr) rfl hstate hwindow
  · rw [PaysFrom, if_neg hc] at hpays
    have hidle₄ : (about ch σ₄).Idle := by
      rw [h₄]
      simpa [About.record, hc, About.Idle] using hpays
    refine About.Idle.ready ?_
    simpa [About.record, hc, About.Idle, Entry.event] using hidle₄

end Sessions

/-! ## All interleavings -/

theorem ChannelCall.run_safe {ch : Id} {i : ℕ} (col : Columns) (call : ChannelCall) :
    (call.run col).safe (latestFirst ch) i (fun _ _ _ => True) (fun _ _ _ => True)
      Session.start () := by
  have body : (call.body col).safe (latestFirst ch) i (Done ch) Raised Session.start () := by
    cases call with
    | openChannel => exact safe_bind (openChannel_safe _ _ _ _ _)
    | submitUpdate => exact safe_bind (submitUpdate_safe _ _ _ _ _ _)
    | settle => exact safe_bind (settle_safe _ _ _ _ _ _)
    | close => exact safe_bind (close_safe _)
    | dispute => exact safe_bind (dispute_safe _ _ _ _ _ _)
    | autoSettleExpired =>
        exact safe_bind (safe_mono autoSettleExpired_safe (fun _ _ _ h => h) fun _ _ _ h => h)
  exact safe_withSession (safe_mono body (fun _ _ _ h => ⟨h.commits, trivial⟩) fun _ _ _ _ => trivial)

instance (s t : StateOf) : Decidable (NotAfter s t) := inferInstanceAs (Decidable (_ ∨ _))

/-- The tests of the condition, in schedules without disputes. -/
def acceptable (ch : Id) (db : DB schema) : ChannelEvent → Bool
  | .accepted a =>
      match a.accepted_by with
      | .update => (db.rows (Key.channel ch)).all fun r =>
          ¬(r.status = .CLOSING ∨ r.status = .SETTLED) ∨ NotAfter a.state r.state
      | .settle => (history ch db.log).all fun
          | .accepted b => NotAfter b.state a.state
          | _ => true
      | .dispute _ => false
  | _ => true

def latestFirstTest (ch : Id) :
    Store schema → Session schema → Stmt schema → Input schema → Bool
  | st, σ, .commit, _ => (history ch σ.inserted).all (acceptable ch st.db)
  | st, σ, .update (Key.channel c) _ set, _ => (σ.view st.db (Key.channel c)).all fun r =>
      (set r).status ≠ .CLOSED ∨ (σ.loaded (Key.channel c)).all fun o => o.payments = r.payments
  | _, _, _, _ => true

theorem latestFirst_of_test (ch : Id) (st : Store schema) (σ : Session schema)
    (s : Stmt schema) (x : Input schema) (h : latestFirstTest ch st σ s x = true) :
    LatestFirst ch st σ s x := by
  unfold LatestFirst
  split
  · intro a ha
    have := List.all_eq_true.mp h _ ha
    unfold Acceptable
    simp only [acceptable] at this
    split
    · next hby =>
        intro r hr hs
        simp only [hby, hr, Option.all_some, hs, not_true, false_or, decide_eq_true_eq] at this
        exact this
    · next hby =>
        intro b hb
        rw [hby] at this
        exact of_decide_eq_true (List.all_eq_true.mp this _ hb)
    · next hby => simp [hby] at this
  · intro _ r o hr _ hset ho
    simpa [latestFirstTest, hr, hset, ho] using h
  · trivial

/-- Agent 1 opens a channel with five units and reports that two of them were transferred; it is
settled with a nonce and balances, and closed. -/
def updateSettleClose (nonce : ℤ) (balance_a balance_b : ℚ) : ℕ → ChannelCall
  | 0 => .openChannel 1 1 2 5 0 3600
  | 1 => .submitUpdate 1 1 2 3 2 "a" "b"
  | 2 => .settle 1 1 nonce balance_a balance_b "a" "b"
  | 3 => .close 1 1
  | _ => .autoSettleExpired

/-- The four calls one after another; the last two take `n` and `m` statements. -/
def oneByOne (n m : ℕ) : List (ℕ × Input schema) :=
  turn 0 5 0 ++ turn 1 5 0 ++ turn 2 n 0 ++ turn 3 m 2

/-- The test that a schedule closes the channel of agent 1 with the history `H`. -/
def closesWith (calls : ℕ → ChannelCall) (l : List (ℕ × Input schema)) (H : List ChannelEvent) :
    Bool :=
  (Config.trace l (.start tenUnits fun i => (calls i).run .rounding)).any fun c =>
    ((c.store.db.rows (Key.channel 1)).any fun r => r.status = .CLOSED ∧ r.agent_a_id = 1) ∧
      history 1 c.store.db.log = H

theorem exists_of_closesWith (calls : ℕ → ChannelCall) {l : List (ℕ × Input schema)}
    {H : List ChannelEvent} (h : closesWith calls l H = true) :
    ∃ (c : Config schema Unit) (r : PaymentChannel),
      Config.trace l (.start tenUnits fun i => (calls i).run .rounding) = some c ∧
      c.store.db.rows (Key.channel 1) = some r ∧ r.status = .CLOSED ∧ r.agent_a_id = 1 ∧
      history 1 c.store.db.log = H := by
  simp only [closesWith, Option.any_eq_true, decide_eq_true_eq] at h
  obtain ⟨c, hc, ⟨r, hr, hs, ha⟩, hH⟩ := h
  exact ⟨c, r, hc, hr, hs, ha, hH⟩

end Sthrip
