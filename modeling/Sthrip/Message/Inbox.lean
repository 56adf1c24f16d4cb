import Mathlib.Tactic.Linarith
import Sthrip.Services.MessagingService

set_option autoImplicit false

/-! # What an inbox returns, and how much it holds

Reading and marking, and counting and inserting, are two statements each. A message is returned once as long
as a call that commits finds it still undelivered, and the inbox is bounded as long as a relay that commits
finds it below its limit.
-/

namespace Sthrip.Messaging

variable {b64decode : String → Option (List UInt8)} {w : World}

/-! ## The condition -/

/-- The state in which a step commits is, for what its session has read, still the one that it has read. -/
structure Current (w : World) (e : Time × Step) : Prop where
  relay : ∀ s m, e.2 = .commit s → w.sessions s = some (.relay m) →
    pendingCount w.relays m.to_agent_id e.1 < maxInboxPending
  inbox : ∀ s c, e.2 = .commit s → w.sessions s = some (.inbox c) →
    ∀ m ∈ w.relays, m.id ∈ c.ids → m.delivered_at = none

/-- Every step meets the condition. -/
def AllCurrent (b64decode : String → Option (List UInt8)) : World → List (Time × Step) → Prop
  | _, [] => True
  | w, e :: es => Current w e ∧ AllCurrent b64decode (w.step b64decode e) es

/-! ## The inbox -/

/-- What a call of `get_inbox` returns: messages for its agent, not expired, by creation. -/
structure Returns (c : Inbox) : Prop where
  nodup : c.ids.Nodup
  recipient : ∀ m ∈ c.messages, m.to_agent_id = c.agent_id ∧ c.now < m.expires_at
  sorted : c.messages.Pairwise fun a b => a.created_at ≤ b.created_at

/-- Committed calls return a message at most once, and no inbox holds too many. -/
structure Delivered (w : World) : Prop where
  once : ∀ id, w.returned.countP (fun c => id ∈ c.ids) ≤ 1
  returns : ∀ c ∈ w.returned, Returns c
  bounded : ∀ agent_id, pendingCount w.relays agent_id w.time ≤ maxInboxPending

/-- Before any call. -/
structure Start (w : World) : Prop where
  ids : (w.relays.map MessageRelay.id).Nodup
  sessions : ∀ s, w.sessions s = none
  returned : w.returned = []
  bounded : ∀ agent_id, pendingCount w.relays agent_id w.time ≤ maxInboxPending

structure Orderly (w : World) : Prop extends Delivered w where
  ids : (w.relays.map MessageRelay.id).Nodup
  /-- What has been returned is marked. -/
  marked : ∀ m ∈ w.relays, m.delivered_at = none → ∀ c ∈ w.returned, m.id ∉ c.ids
  known : ∀ c ∈ w.returned, ∀ id ∈ c.ids, id ∈ w.relays.map MessageRelay.id
  read : ∀ s c, w.sessions s = some (.inbox c) →
    Returns c ∧ ∀ id ∈ c.ids, id ∈ w.relays.map MessageRelay.id

theorem returns_inboxMessages {relays : List MessageRelay} (hids : (relays.map MessageRelay.id).Nodup)
    (agent_id : Id) (now : Time) : Returns ⟨agent_id, now, inboxMessages relays agent_id now⟩ := by
  have hperm : (inboxMessages relays agent_id now).Perm (relays.filter (isPending agent_id now)) :=
    List.perm_insertionSort _ _
  refine ⟨?_, fun m hm => ?_, ?_⟩
  · have hsub : ((relays.filter (isPending agent_id now)).map MessageRelay.id).Nodup :=
      hids.sublist (List.filter_sublist.map _)
    exact (hperm.map MessageRelay.id).nodup_iff.mpr hsub
  · have hpending := (List.mem_filter.mp (hperm.mem_iff.mp hm)).2
    have hpending := of_decide_eq_true hpending
    exact ⟨hpending.1, hpending.2.2⟩
  · have : Std.Total fun a b : MessageRelay => a.created_at ≤ b.created_at := ⟨fun a b => le_total _ _⟩
    have : IsTrans MessageRelay fun a b => a.created_at ≤ b.created_at := ⟨fun a b c => le_trans⟩
    exact List.pairwise_insertionSort _ _

/-- Messages expire, and no other become pending. -/
theorem pendingCount_le_of_le {relays : List MessageRelay} {agent_id : Id} {t t' : Time} (h : t ≤ t') :
    pendingCount relays agent_id t' ≤ pendingCount relays agent_id t := by
  refine List.countP_mono_left fun m _ hm => ?_
  have hm := of_decide_eq_true hm
  exact decide_eq_true ⟨hm.1, hm.2.1, lt_of_le_of_lt h hm.2.2⟩

theorem markDelivered_id (ids : List Id) (now : Time) (m : MessageRelay) :
    (markDelivered ids now m).id = m.id := by
  unfold markDelivered
  split_ifs <;> rfl

theorem map_markDelivered_id (relays : List MessageRelay) (ids : List Id) (now : Time) :
    (relays.map (markDelivered ids now)).map MessageRelay.id = relays.map MessageRelay.id := by
  rw [List.map_map]
  exact List.map_congr_left fun m _ => markDelivered_id ids now m

theorem markDelivered_none {ids : List Id} {now : Time} {m : MessageRelay}
    (h : (markDelivered ids now m).delivered_at = none) : m.id ∉ ids ∧ markDelivered ids now m = m := by
  by_cases hmem : m.id ∈ ids
  · rw [markDelivered, if_pos hmem] at h
    have h : some now = none := h
    cases h
  · exact ⟨hmem, if_neg hmem⟩

theorem pendingCount_markDelivered_le (relays : List MessageRelay) (ids : List Id) (now : Time)
    (agent_id : Id) (t : Time) :
    pendingCount (relays.map (markDelivered ids now)) agent_id t ≤ pendingCount relays agent_id t := by
  unfold pendingCount
  rw [List.countP_map]
  refine List.countP_mono_left fun m _ hm => ?_
  have hpending := of_decide_eq_true hm
  rwa [Function.comp_apply, (markDelivered_none hpending.2.1).2] at hm

namespace Orderly

theorem setSession (h : Orderly w) (s : ℕ) {written : Option Written}
    (hread : ∀ c, written = some (.inbox c) →
      Returns c ∧ ∀ id ∈ c.ids, id ∈ w.relays.map MessageRelay.id) :
    Orderly (w.setSession s written) := by
  refine ⟨⟨h.once, h.returns, h.bounded⟩, h.ids, h.marked, h.known, fun s' c hc => ?_⟩
  dsimp only [World.setSession] at hc
  by_cases hs : s' = s
  · rw [hs, Function.update_self] at hc
    exact hread c hc
  · rw [Function.update_of_ne hs] at hc
    exact h.read s' c hc

theorem commit_relay (h : Orderly w) {m : MessageRelay} (hnew : m.id ∉ w.relays.map MessageRelay.id)
    (hroom : pendingCount w.relays m.to_agent_id w.time < maxInboxPending) :
    Orderly { w with relays := w.relays ++ [m] } := by
  have hknown : ∀ id, id ∈ w.relays.map MessageRelay.id → id ∈ (w.relays ++ [m]).map MessageRelay.id := by
    intro id hid
    rw [List.map_append]
    exact List.mem_append_left _ hid
  refine ⟨⟨h.once, h.returns, fun agent_id => ?_⟩, ?_, fun m' hm' hnone c hc => ?_,
    fun c hc id hid => hknown id (h.known c hc id hid),
    fun s c hs => ⟨(h.read s c hs).1, fun id hid => hknown id ((h.read s c hs).2 id hid)⟩⟩
  · have hbound := h.bounded agent_id
    unfold pendingCount at hroom hbound ⊢
    dsimp only
    rw [List.countP_append, List.countP_singleton]
    split_ifs with hpending
    · obtain rfl : m.to_agent_id = agent_id := (of_decide_eq_true hpending).1
      omega
    · exact hbound
  · rw [List.map_append]
    refine List.Nodup.append h.ids (List.nodup_singleton _) ?_
    intro id hid hid'
    rw [List.map_singleton, List.mem_singleton] at hid'
    exact hnew (hid' ▸ hid)
  · rcases List.mem_append.mp hm' with hold | hmem
    · exact h.marked m' hold hnone c hc
    · obtain rfl := List.mem_singleton.mp hmem
      intro hid
      exact hnew (h.known c hc _ hid)

theorem commit_inbox (h : Orderly w) {c : Inbox} (hreturns : Returns c)
    (hknown : ∀ id ∈ c.ids, id ∈ w.relays.map MessageRelay.id)
    (hundelivered : ∀ m ∈ w.relays, m.id ∈ c.ids → m.delivered_at = none) :
    Orderly { w with
      relays := w.relays.map (markDelivered c.ids c.now)
      returned := c :: w.returned } := by
  -- what is returned now has not been returned before
  have hfirst : ∀ id ∈ c.ids, ∀ c' ∈ w.returned, id ∉ c'.ids := by
    intro id hid c' hc'
    obtain ⟨m, hm, rfl⟩ := List.mem_map.mp (hknown id hid)
    exact h.marked m hm (hundelivered m hm hid) c' hc'
  refine ⟨⟨fun id => ?_, fun c' hc' => ?_, fun agent_id => ?_⟩, ?_, fun m hm hnone c' hc' => ?_,
    fun c' hc' id hid => ?_, fun s c' hs => ?_⟩
  · rw [List.countP_cons]
    split_ifs with hid
    · have hnone : w.returned.countP (fun c => id ∈ c.ids) = 0 :=
        List.countP_eq_zero.mpr fun c' hc' hmem =>
          hfirst id (of_decide_eq_true hid) c' hc' (of_decide_eq_true hmem)
      omega
    · exact h.once id
  · rcases List.mem_cons.mp hc' with rfl | hold
    · exact hreturns
    · exact h.returns c' hold
  · exact (pendingCount_markDelivered_le _ _ _ _ _).trans (h.bounded agent_id)
  · dsimp only
    rw [map_markDelivered_id]
    exact h.ids
  · obtain ⟨m', hm', rfl⟩ := List.mem_map.mp hm
    obtain ⟨hnot, hsame⟩ := markDelivered_none hnone
    rw [hsame] at hnone ⊢
    rcases List.mem_cons.mp hc' with rfl | hold
    · exact hnot
    · exact h.marked m' hm' hnone c' hold
  · dsimp only
    rw [map_markDelivered_id]
    rcases List.mem_cons.mp hc' with rfl | hold
    · exact hknown id hid
    · exact h.known c' hold id hid
  · dsimp only
    rw [map_markDelivered_id]
    exact h.read s c' hs

theorem step (h : Orderly w) {e : Time × Step} (he : Current w e) : Orderly (w.step b64decode e) := by
  obtain ⟨t, action⟩ := e
  unfold World.step
  split_ifs with hpast
  · exact h
  have hnow : Orderly { w with time := t } :=
    ⟨⟨h.once, h.returns, fun agent_id =>
        (pendingCount_le_of_le (not_lt.mp hpast)).trans (h.bounded agent_id)⟩,
      h.ids, h.marked, h.known, h.read⟩
  cases action with
  | active active => exact ⟨⟨hnow.once, hnow.returns, hnow.bounded⟩, h.ids, h.marked, h.known, h.read⟩
  | relay s id created_at r =>
      dsimp only [World.act]
      split_ifs
      · exact hnow
      · split
        · exact hnow
        · exact hnow.setSession s fun c hc => by cases hc
  | inbox s agent_id =>
      dsimp only [World.act]
      split_ifs
      · exact hnow
      · refine hnow.setSession s fun c hc => ?_
        cases hc
        refine ⟨returns_inboxMessages h.ids agent_id t, fun id hid => ?_⟩
        obtain ⟨m, hm, rfl⟩ := List.mem_map.mp hid
        have hm' := (List.perm_insertionSort _ _).mem_iff.mp hm
        exact List.mem_map_of_mem (List.mem_of_mem_filter hm')
  | commit s =>
      dsimp only [World.act]
      unfold World.commit
      have hidle : Orderly (World.setSession { w with time := t } s none) :=
        hnow.setSession s fun c hc => by cases hc
      split
      · exact hnow
      · next m hm =>
          split_ifs with hknown
          · exact hidle
          · exact hidle.commit_relay hknown (he.relay s m rfl hm)
      · next c hc =>
          obtain ⟨hreturns, hread⟩ := h.read s c hc
          exact hidle.commit_inbox hreturns hread (he.inbox s c rfl hc)
  | rollback s => exact hnow.setSession s fun c hc => by cases hc

theorem run (h : Orderly w) {es : List (Time × Step)} (hcurrent : AllCurrent b64decode w es) :
    Orderly (w.run b64decode es) := by
  induction es generalizing w with
  | nil => exact h
  | cons e es ih => exact ih (h.step hcurrent.1) hcurrent.2

end Orderly

theorem Start.orderly (h : Start w) : Orderly w := by
  refine ⟨⟨fun id => ?_, fun c hc => ?_, h.bounded⟩, h.ids, fun m _ _ c hc => ?_, fun c hc => ?_,
    fun s c hs => ?_⟩
  · rw [h.returned]
    exact Nat.zero_le 1
  · rw [h.returned] at hc
    cases hc
  · rw [h.returned] at hc
    cases hc
  · rw [h.returned] at hc
    cases hc
  · rw [h.sessions s] at hs
    cases hs

/-- **Messages are returned once and inboxes are bounded** in every interleaving of calls whose commits find
what their sessions have read. -/
theorem inbox_delivered (b64decode : String → Option (List UInt8)) (h : Start w) {es : List (Time × Step)}
    (hcurrent : AllCurrent b64decode w es) : Delivered (w.run b64decode es) :=
  (h.orderly.run hcurrent).toDelivered

/-! ### Two calls at once -/

def greeting (id : Id) : MessageRelay where
  id := id
  from_agent_id := 1
  to_agent_id := 2
  ciphertext := ""
  nonce := ""
  sender_public_key := ""
  size_bytes := 0
  expires_at := hours 24
  created_at := 0

def greetings (n : ℕ) : World where
  time := 0
  active _ := true
  relays := (List.range n).map greeting

/-- `base64.b64decode`, of the empty text. -/
def decodeEmpty (text : String) : Option (List UInt8) := if text = "" then some [] else none

def emptyRequest : RelayRequest where
  from_agent_id := 1
  to_agent_id := 2
  ciphertext := ""
  nonce := ""
  sender_public_key := ""

/-- Two sessions fetch the same inbox. -/
def twoFetches : List (Time × Step) := [(1, .inbox 0 2), (1, .inbox 1 2), (2, .commit 0), (2, .commit 1)]

/-- Two sessions relay a message to an inbox that has room for one. -/
def twoRelays : List (Time × Step) :=
  [(1, .relay 0 200 1 emptyRequest), (1, .relay 1 201 1 emptyRequest), (2, .commit 0), (2, .commit 1)]

theorem inbox_twice_and_overfull :
    ((greetings 1).run decodeEmpty twoFetches).returned.countP (fun c => 0 ∈ c.ids) = 2 ∧
      pendingCount ((greetings 99).run decodeEmpty twoRelays).relays 2 2 = 101 := by
  decide +kernel

theorem inbox_delivered_greeting :
    Delivered ((greetings 1).run decodeEmpty [(1, .inbox 0 2), (2, .commit 0)]) := by
  have hstart : Start (greetings 1) :=
    ⟨by decide, fun s => rfl, rfl, fun agent_id => List.countP_le_length.trans (by decide)⟩
  refine inbox_delivered decodeEmpty hstart ⟨⟨?_, ?_⟩, ⟨?_, ?_⟩, trivial⟩
  · intro s m h
    cases h
  · intro s c h
    cases h
  · intro s m h hs
    cases h
    cases hs
  · intro s c h hs m hm _
    have hm : m ∈ [greeting 0] := hm
    obtain rfl := List.mem_singleton.mp hm
    rfl

end Sthrip.Messaging
