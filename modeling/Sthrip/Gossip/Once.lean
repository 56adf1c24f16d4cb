import Mathlib.Algebra.BigOperators.Group.List.Lemmas
import Mathlib.Data.Fintype.Lattice
import Mathlib.Order.Lattice.Nat
import Sthrip.Bridge.Gossip

set_option autoImplicit false

/-! # Which copies of a broadcast a node processes

`_forward` sends through `send_direct`, which draws an id of its own for every message, and
`handle_incoming` recognises a message by that id. So it recognises no copy: every call for a message that
was in flight returns `True`. The copies of a broadcast run out all the same, because each of them carries
its number of hops.
-/

namespace Sthrip.Gossip

variable {ι : Type} [DecidableEq ι] {net : Network ι} {w : World ι}

/-! ## What the steps do -/

theorem mem_cleanCache {e : String × GossipMessage} {seen : List (String × GossipMessage)}
    (he : e ∈ cleanCache seen) : e ∈ seen := by
  unfold cleanCache at he
  split_ifs at he
  · exact List.mem_of_mem_filter he
  · exact he

theorem length_le_of_selects {fanout : ℕ} {peers selected : List ι}
    (h : Selects fanout peers selected) : selected.length ≤ fanout := by
  unfold Selects at h
  split_ifs at h with hle
  · rw [h]
    exact hle
  · exact h.1.le

theorem World.startForward_cases (net : Network ι) (w : World ι) (f : Forward ι) (selected : List ι) :
    w.startForward net f selected = w ∨
      f ∈ w.forwards ∧ f.selected = none ∧ selected.length ≤ net.fanout f.node ∧
        w.startForward net f selected =
          { w with forwards := { f with selected := some selected } :: w.forwards.erase f } := by
  unfold World.startForward
  dsimp only
  split_ifs with h
  · exact .inr ⟨h.1, h.2.1, length_le_of_selects h.2.2, rfl⟩
  · exact .inl rfl

/-- What a turn of the loop of `_forward` does: nothing, the end of the loop, no message, or a message. -/
theorem World.send_cases (f : Forward ι) (token : String) (now : ℚ) (ok : Bool) :
    w.send f token now ok = w ∨
      w.send f token now ok = { w with forwards := w.forwards.erase f } ∨
      ∃ peer rest, f.selected = some (peer :: rest) ∧
        ((∃ ids, (∀ id ∈ w.ids, id ∈ ids) ∧
            w.send f token now ok =
              { w with ids, forwards := { f with selected := some rest } :: w.forwards.erase f }) ∨
          ∃ c sets, c.root = f.root ∧ c.msg.msg_id = token ∧
            c.msg.payload.hops = f.gossip_msg.hops ∧
            w.send f token now ok =
              { w with
                sets
                inFlight := c :: w.inFlight
                ids := token :: w.ids
                sent := f.root :: w.sent
                forwards := { f with selected := some rest } :: w.forwards.erase f }) := by
  unfold World.send
  split
  · exact .inl rfl
  · exact .inr (.inl rfl)
  · rename_i peer rest hselected
    refine .inr (.inr ⟨peer, rest, hselected, ?_⟩)
    unfold World.sendDirect
    dsimp only
    by_cases hpeer : peer ∉ w.peers f.node
    · rw [if_pos hpeer]
      exact .inl ⟨w.ids, fun id hid => hid, rfl⟩
    rw [if_neg hpeer]
    cases ok with
    | false => exact .inl ⟨token :: w.ids, fun id hid => List.mem_cons_of_mem token hid, rfl⟩
    | true => exact .inr ⟨_, _, rfl, rfl, rfl, rfl⟩

/-- What `handle_incoming` does with the state of the network. -/
theorem World.handleIncoming_fst (net : Network ι) (w : World ι) (root : ℕ) (n : ι) (msg : NodeMessage ι)
    (from_peer : ι) :
    ∃ seen_messages sets fs,
      (handleIncoming net w root n msg from_peer).1 =
          { w with seen_messages, sets, forwards := fs ++ w.forwards } ∧
        (∀ m, ∀ e ∈ seen_messages m, e.1 = msg.msg_id ∨ e ∈ w.seen_messages m) ∧
        (fs = [] ∨ ∃ f, fs = [f] ∧ f.root = root ∧ f.selected = none ∧
          f.gossip_msg.hops = msg.payload.hops + 1 ∧ msg.payload.hops + 1 < net.max_hops n) := by
  unfold handleIncoming
  split
  · exact ⟨w.seen_messages, _, [], rfl, fun m e he => .inr he, .inl rfl⟩
  · have hseen : ∀ (v : GossipMessage) (m : ι), ∀ e ∈ Function.update w.seen_messages n
        (cleanCache (Python.setItem msg.msg_id v (w.seen_messages n))) m,
        e.1 = msg.msg_id ∨ e ∈ w.seen_messages m := by
      intro v m e he
      by_cases hm : m = n
      · subst hm
        rw [Function.update_self] at he
        rcases Python.mem_setItem (mem_cleanCache he) with rfl | hold
        · exact .inl rfl
        · exact .inr hold
      · rw [Function.update_of_ne hm] at he
        exact .inr he
    dsimp only
    split_ifs with hhops
    · exact ⟨_, _, [_], rfl, hseen _, .inr ⟨_, rfl, rfl, rfl, rfl, hhops⟩⟩
    · exact ⟨_, _, [], rfl, hseen _, .inl rfl⟩

theorem World.handleIncoming_snd (net : Network ι) (root : ℕ) {n : ι} {msg : NodeMessage ι} (from_peer : ι)
    (hnew : ∀ e ∈ w.seen_messages n, e.1 ≠ msg.msg_id) :
    (handleIncoming net w root n msg from_peer).2 = true := by
  have hlookup : (w.seen_messages n).lookup msg.msg_id = none :=
    List.lookup_eq_none_iff.mpr fun e he => by simpa using (hnew e he).symm
  unfold handleIncoming
  rw [hlookup]
  dsimp only
  split_ifs <;> rfl

/-! ## No copy is recognised -/

/-- The ids in flight differ, and no node has seen one of them. -/
structure Unseen (w : World ι) : Prop where
  nodup : (w.inFlight.map fun c => c.msg.msg_id).Nodup
  flight_used : ∀ c ∈ w.inFlight, c.msg.msg_id ∈ w.ids
  seen_used : ∀ n, ∀ e ∈ w.seen_messages n, e.1 ∈ w.ids
  unseen : ∀ c ∈ w.inFlight, ∀ n, ∀ e ∈ w.seen_messages n, e.1 ≠ c.msg.msg_id
  handled : w.handled = w.delivered.map fun c => ((c.root, c.msg.recipient_id), true)

namespace Unseen

omit [DecidableEq ι] in
theorem start (peers : ι → List ι) : Unseen (World.start peers) where
  nodup := List.nodup_nil
  flight_used _ hc := absurd hc List.not_mem_nil
  seen_used _ _ he := absurd he List.not_mem_nil
  unseen _ hc := absurd hc List.not_mem_nil
  handled := rfl

theorem startForward (h : Unseen w) (f : Forward ι) (selected : List ι) :
    Unseen (w.startForward net f selected) := by
  rcases World.startForward_cases net w f selected with heq | ⟨-, -, -, heq⟩
  · rwa [heq]
  · rw [heq]
    exact ⟨h.nodup, h.flight_used, h.seen_used, h.unseen, h.handled⟩

theorem broadcast (h : Unseen w) {n : ι} {data msg_id : String} {now : ℚ} {selected : List ι}
    (hid : ∀ c ∈ w.inFlight, c.msg.msg_id ≠ msg_id) :
    Unseen (w.broadcast net n data msg_id now selected) := by
  have hseen : ∀ (v : GossipMessage) (m : ι), ∀ e ∈ Function.update w.seen_messages n
      (Python.setItem msg_id v (w.seen_messages n)) m, e.1 = msg_id ∨ e ∈ w.seen_messages m := by
    intro v m e he
    by_cases hm : m = n
    · subst hm
      rw [Function.update_self] at he
      rcases Python.mem_setItem he with rfl | hold
      · exact .inl rfl
      · exact .inr hold
    · rw [Function.update_of_ne hm] at he
      exact .inr he
  unfold World.broadcast
  refine Unseen.startForward ?_ _ _
  refine ⟨h.nodup, ?_, ?_, ?_, h.handled⟩
  · intro c hc
    exact List.mem_cons_of_mem _ (h.flight_used c hc)
  · intro m e he
    rcases hseen _ m e he with rfl | hold
    · exact List.mem_cons_self
    · exact List.mem_cons_of_mem _ (h.seen_used m e hold)
  · intro c hc m e he
    rcases hseen _ m e he with rfl | hold
    · exact (hid c hc).symm
    · exact h.unseen c hc m e hold

theorem send (h : Unseen w) {f : Forward ι} {token : String} {now : ℚ} {ok : Bool}
    (htoken : token ∉ w.ids) : Unseen (w.send f token now ok) := by
  rcases w.send_cases f token now ok with
    heq | heq | ⟨peer, rest, -, ⟨ids, hids, heq⟩ | ⟨c, sets, -, hc, -, heq⟩⟩
  · rwa [heq]
  · rw [heq]
    exact ⟨h.nodup, h.flight_used, h.seen_used, h.unseen, h.handled⟩
  · rw [heq]
    exact ⟨h.nodup, fun c hc => hids _ (h.flight_used c hc), fun n e he => hids _ (h.seen_used n e he),
      h.unseen, h.handled⟩
  · rw [heq]
    subst hc
    refine ⟨?_, ?_, ?_, ?_, h.handled⟩
    · refine List.nodup_cons.mpr ⟨fun hmem => ?_, h.nodup⟩
      obtain ⟨c', hc', hid⟩ := List.mem_map.mp hmem
      have hused := h.flight_used c' hc'
      rw [hid] at hused
      exact htoken hused
    · intro c' hc'
      rcases List.mem_cons.mp hc' with rfl | hold
      · exact List.mem_cons_self
      · exact List.mem_cons_of_mem _ (h.flight_used c' hold)
    · intro n e he
      exact List.mem_cons_of_mem _ (h.seen_used n e he)
    · intro c' hc' n e he
      rcases List.mem_cons.mp hc' with rfl | hold
      · intro hid
        exact htoken (hid ▸ h.seen_used n e he)
      · exact h.unseen c' hold n e he

theorem deliver (h : Unseen w) {c : Copy ι} (hc : c ∈ w.inFlight) : Unseen (w.deliver net c) := by
  have hnew := World.handleIncoming_snd net c.root c.msg.sender_id
    (h.unseen c hc c.msg.recipient_id)
  obtain ⟨seen, sets, fs, hfst, hseen, -⟩ :=
    World.handleIncoming_fst net w c.root c.msg.recipient_id c.msg c.msg.sender_id
  have hrest : c.msg.msg_id ∉ (w.inFlight.erase c).map fun c => c.msg.msg_id := by
    have hperm := (List.perm_cons_erase hc).map fun c : Copy ι => c.msg.msg_id
    exact (List.nodup_cons.mp (hperm.nodup_iff.mp h.nodup)).1
  unfold World.deliver
  dsimp only
  rw [hnew, hfst]
  refine ⟨?_, ?_, ?_, ?_, ?_⟩
  · exact h.nodup.sublist (List.erase_sublist.map _)
  · intro c' hc'
    exact h.flight_used c' (List.mem_of_mem_erase hc')
  · intro n e he
    rcases hseen n e he with hid | hold
    · rw [hid]
      exact h.flight_used c hc
    · exact h.seen_used n e hold
  · intro c' hc' n e he
    rcases hseen n e he with hid | hold
    · rw [hid]
      intro hid
      exact hrest (hid ▸ List.mem_map_of_mem hc')
    · exact h.unseen c' (List.mem_of_mem_erase hc') n e hold
  · rw [h.handled]
    rfl

theorem step (h : Unseen w) {e : Event ι} (he : w.NewId e) : Unseen (w.step net e) := by
  cases e with
  | connect n peers => exact ⟨h.nodup, h.flight_used, h.seen_used, h.unseen, h.handled⟩
  | broadcast n data msg_id token now selected => exact h.broadcast he
  | select f selected => exact h.startForward f selected
  | send f token now ok =>
      rw [World.step]
      split_ifs with hf
      · exact h.send he
      · exact h
  | deliver c =>
      rw [World.step]
      split_ifs with hc
      · exact h.deliver hc
      · exact h
  | lose c =>
      refine ⟨h.nodup.sublist (List.erase_sublist.map _), ?_, h.seen_used, ?_, h.handled⟩
      · exact fun c' hc' => h.flight_used c' (List.mem_of_mem_erase hc')
      · exact fun c' hc' => h.unseen c' (List.mem_of_mem_erase hc')

theorem run {es : List (Event ι)} (h : Unseen w) (hids : w.NewIds net es) : Unseen (w.run net es) := by
  induction es generalizing w with
  | nil => exact h
  | cons e es ih => exact ih (h.step hids.1) hids.2

/-- Every copy that is delivered is processed. -/
theorem processed_eq (h : Unseen w) (b : ℕ) (n : ι) : w.processed b n = w.copies b n := by
  unfold World.processed World.copies
  rw [h.handled, List.count, List.countP_map]
  refine List.countP_congr fun c _ => ?_
  simp

end Unseen

/-! ## The copies run out -/

/-- How many messages can follow a message that can be passed on for `m` more hops. -/
def spread (width : ℕ) : ℕ → ℕ
  | 0 => 0
  | m + 1 => width * (1 + spread width m)

section Limit

variable [Fintype ι]

def Network.width (net : Network ι) : ℕ := Finset.univ.sup net.fanout

def Network.depth (net : Network ι) : ℕ := Finset.univ.sup net.max_hops

/-- How many messages can follow a message that leaves a node with `hops`. -/
def Network.follow (net : Network ι) (hops : ℕ) : ℕ := spread net.width (net.depth - 1 - hops)

/-- How many messages a broadcast can cause. -/
def Network.limit (net : Network ι) : ℕ := net.width * (1 + net.follow 0)

omit [DecidableEq ι] in
theorem Network.follow_eq {hops : ℕ} {n : ι} (h : hops + 1 < net.max_hops n) :
    net.follow hops = net.width * (1 + net.follow (hops + 1)) := by
  have hdepth : net.max_hops n ≤ net.depth := Finset.le_sup (f := net.max_hops) (Finset.mem_univ n)
  unfold Network.follow
  rw [show net.depth - 1 - hops = (net.depth - 1 - (hops + 1)) + 1 by omega]
  rfl

/-- The messages that a forward can still cause. -/
def Forward.due (net : Network ι) (f : Forward ι) : ℕ :=
  (f.selected.elim net.width List.length) * (1 + net.follow f.gossip_msg.hops)

/-- The messages of the broadcast: those sent, and those that what is under way can cause. -/
def World.spent (net : Network ι) (w : World ι) (b : ℕ) : ℕ :=
  w.sent.count b
    + (w.inFlight.map fun c => if c.root = b then net.follow c.msg.payload.hops else 0).sum
    + (w.forwards.map fun f => if f.root = b then f.due net else 0).sum

/-- A broadcast that has been started keeps to the limit, and one that has not causes nothing. -/
def Limited (net : Network ι) (w : World ι) : Prop :=
  ∀ b, w.spent net b ≤ if b < w.originators.length then net.limit else 0

namespace Limited

omit [DecidableEq ι] in
theorem start (peers : ι → List ι) : Limited net (World.start peers) := fun _ => Nat.zero_le _

omit [DecidableEq ι] in
/-- A step that starts no broadcast only has to spend nothing new. -/
theorem of_le {w' : World ι} (h : Limited net w) (hsame : w'.originators = w.originators)
    (hle : ∀ b, w'.spent net b ≤ w.spent net b) : Limited net w' := by
  intro b
  rw [hsame]
  exact (hle b).trans (h b)

theorem startForward (h : Limited net w) (f : Forward ι) (selected : List ι) :
    Limited net (w.startForward net f selected) := by
  rcases World.startForward_cases net w f selected with heq | ⟨hf, hnone, hlen, heq⟩
  · rwa [heq]
  rw [heq]
  refine h.of_le rfl fun b => ?_
  have hsum := List.sum_map_erase (fun f : Forward ι => if f.root = b then f.due net else 0) hf
  have hwidth : selected.length ≤ net.width :=
    hlen.trans (Finset.le_sup (f := net.fanout) (Finset.mem_univ f.node))
  have hdue : { f with selected := some selected }.due net ≤ f.due net := by
    unfold Forward.due
    rw [hnone]
    exact Nat.mul_le_mul_right _ hwidth
  unfold World.spent
  rw [List.map_cons, List.sum_cons]
  dsimp only at hsum ⊢
  split_ifs at hsum ⊢ <;> omega

theorem broadcast (h : Limited net w) (n : ι) (data msg_id : String) (now : ℚ) (selected : List ι) :
    Limited net (w.broadcast net n data msg_id now selected) := by
  refine Limited.startForward (fun b => ?_) _ _
  have hb := h b
  unfold World.spent at hb ⊢
  simp only [World.setSeen, List.map_cons, List.sum_cons, List.length_append, List.length_singleton]
  have hdue : ∀ m : GossipMessage, m.hops = 0 →
      Forward.due net ⟨w.originators.length, n, m, [], none⟩ = net.limit := by
    intro m hm
    unfold Forward.due
    rw [hm]
    rfl
  rw [hdue _ rfl]
  by_cases hnew : w.originators.length = b
  · rw [if_neg (by omega)] at hb
    rw [if_pos hnew, if_pos (by omega)]
    omega
  · rw [if_neg hnew]
    by_cases hold : b < w.originators.length
    · rw [if_pos hold] at hb
      rw [if_pos (by omega)]
      omega
    · rw [if_neg hold] at hb
      omega

theorem send (h : Limited net w) {f : Forward ι} (hf : f ∈ w.forwards) (token : String) (now : ℚ)
    (ok : Bool) : Limited net (w.send f token now ok) := by
  -- a message is paid for by one of the peers that were left, with all that can follow it
  have hturn : ∀ peer rest, f.selected = some (peer :: rest) →
      f.due net = { f with selected := some rest }.due net + (1 + net.follow f.gossip_msg.hops) := by
    intro peer rest hselected
    unfold Forward.due
    rw [hselected]
    exact Nat.succ_mul _ _
  rcases w.send_cases f token now ok with
    heq | heq | ⟨peer, rest, hselected, ⟨ids, -, heq⟩ | ⟨c, sets, hroot, -, hhops, heq⟩⟩
  · rwa [heq]
  all_goals
    rw [heq]
    refine h.of_le rfl fun b => ?_
    have hsum := List.sum_map_erase (fun f : Forward ι => if f.root = b then f.due net else 0) hf
    unfold World.spent
    dsimp only at hsum ⊢
  · omega
  · have hdue := hturn peer rest hselected
    rw [List.map_cons, List.sum_cons]
    dsimp only
    split_ifs at hsum ⊢ <;> omega
  · have hdue := hturn peer rest hselected
    simp only [List.map_cons, List.sum_cons, List.count_cons, hroot, hhops, beq_iff_eq]
    split_ifs at hsum ⊢ <;> omega

theorem deliver (h : Limited net w) {c : Copy ι} (hc : c ∈ w.inFlight) :
    Limited net (w.deliver net c) := by
  obtain ⟨seen, sets, fs, hfst, -, hfs⟩ :=
    World.handleIncoming_fst net w c.root c.msg.recipient_id c.msg c.msg.sender_id
  unfold World.deliver
  dsimp only
  rw [hfst]
  refine h.of_le rfl fun b => ?_
  have hsum := List.sum_map_erase
    (fun c : Copy ι => if c.root = b then net.follow c.msg.payload.hops else 0) hc
  unfold World.spent
  dsimp only at hsum ⊢
  rcases hfs with rfl | ⟨f, rfl, hroot, hnone, hhops, hlt⟩
  · rw [List.nil_append]
    omega
  · have hdue : f.due net = net.follow c.msg.payload.hops := by
      unfold Forward.due
      rw [hnone, hhops, Network.follow_eq hlt]
      rfl
    rw [List.singleton_append, List.map_cons, List.sum_cons, hroot, hdue]
    omega

theorem lose (h : Limited net w) (c : Copy ι) :
    Limited net { w with inFlight := w.inFlight.erase c } := by
  refine h.of_le rfl fun b => ?_
  by_cases hc : c ∈ w.inFlight
  · have hsum := List.sum_map_erase
      (fun c : Copy ι => if c.root = b then net.follow c.msg.payload.hops else 0) hc
    unfold World.spent
    dsimp only at hsum ⊢
    omega
  · rw [List.erase_of_not_mem hc]

theorem step (h : Limited net w) (e : Event ι) : Limited net (w.step net e) := by
  cases e with
  | connect n peers => exact h.of_le rfl fun b => le_rfl
  | broadcast n data msg_id token now selected => exact h.broadcast n data _ now selected
  | select f selected => exact h.startForward f selected
  | send f token now ok =>
      rw [World.step]
      split_ifs with hf
      · exact h.send hf token now ok
      · exact h
  | deliver c =>
      rw [World.step]
      split_ifs with hc
      · exact h.deliver hc
      · exact h
  | lose c => exact h.lose c

theorem run (h : Limited net w) (es : List (Event ι)) : Limited net (w.run net es) :=
  List.foldlRecOn es _ h fun _ hw e _ => hw.step e

omit [DecidableEq ι] in
theorem sent_le (h : Limited net w) (b : ℕ) : w.sent.count b ≤ net.limit := by
  have hb := h b
  unfold World.spent at hb
  split_ifs at hb <;> omega

end Limited

end Limit

/-- The broadcast is counted at most once at each node, and not where it was started. -/
def World.Once (w : World ι) (b : ℕ) (count : ι → ℕ) : Prop :=
  (∀ n, count n ≤ 1) ∧ ∀ originator, originator ∈ w.originators[b]? → count originator = 0

instance [Fintype ι] (w : World ι) (b : ℕ) (count : ι → ℕ) : Decidable (w.Once b count) :=
  inferInstanceAs (Decidable (_ ∧ _))

/-- **A broadcast sends finitely many messages, and is processed at most once where its copies arrive at
most once**: a node processes every copy that is delivered to it, whatever it has already processed. -/
theorem broadcast_processed_once_iff [Fintype ι] (net : Network ι) (peers : ι → List ι)
    {es : List (Event ι)} (hids : (World.start peers).NewIds net es) (b : ℕ) :
    let w := (World.start peers).run net es
    w.sent.count b ≤ net.limit ∧ (w.Once b (w.processed b) ↔ w.Once b (w.copies b)) := by
  intro w
  have hunseen : Unseen w := (Unseen.start peers).run hids
  have hcount : w.processed b = w.copies b := funext (hunseen.processed_eq b)
  exact ⟨((Limited.start peers).run es).sent_le b, by rw [hcount]⟩

/-- Three nodes with the arguments that `GossipProtocol` takes when none are given. -/
def trio : Network (Fin 3) := ⟨fun _ => 3, fun _ => 10⟩

/-- Three nodes in a row. -/
def row : World (Fin 3) := .start fun n => if n = 1 then [0, 2] else [1]

/-- The first of them broadcasts. -/
def rowEvents : List (Event (Fin 3)) :=
  let m₀ : GossipMessage := ⟨"b", "hello", 0, 0, 0⟩
  let m₁ : GossipMessage := ⟨"x", "hello", 1, 1, 1⟩
  [.broadcast 0 "hello" none "b" 0 [1],
    .send ⟨0, 0, m₀, [], some [1]⟩ "x" 1 true,
    .deliver ⟨0, "x", 0, 1, ⟨"hello", 0, "b"⟩, 1⟩,
    .select ⟨0, 1, m₁, [0], none⟩ [2],
    .send ⟨0, 1, m₁, [0], some [2]⟩ "y" 2 true,
    .deliver ⟨0, "y", 1, 2, ⟨"hello", 1, "x"⟩, 2⟩]

theorem broadcast_processed_once_iff_row :
    (row.run trio rowEvents).Once 0 ((row.run trio rowEvents).processed 0) := by
  refine ((broadcast_processed_once_iff trio _ ?_ 0).2).mpr ?_
  · decide +kernel
  · decide +kernel

/-- Three nodes that are all connected. -/
def triangle : World (Fin 3) := .start fun n => [0, 1, 2].filter (· ≠ n)

/-- The first of them broadcasts. -/
def triangleEvents : List (Event (Fin 3)) :=
  let m₀ : GossipMessage := ⟨"b", "hello", 0, 0, 0⟩
  let m₁ : GossipMessage := ⟨"x", "hello", 1, 1, 1⟩
  let m₂ : GossipMessage := ⟨"z", "hello", 2, 2, 3⟩
  [.broadcast 0 "hello" none "b" 0 [1, 2],
    .send ⟨0, 0, m₀, [], some [1, 2]⟩ "x" 1 true,
    .send ⟨0, 0, m₀, [], some [2]⟩ "y" 1 true,
    .deliver ⟨0, "x", 0, 1, ⟨"hello", 0, "b"⟩, 1⟩,
    .select ⟨0, 1, m₁, [0], none⟩ [2],
    .send ⟨0, 1, m₁, [0], some [2]⟩ "z" 2 true,
    .deliver ⟨0, "y", 0, 2, ⟨"hello", 0, "b"⟩, 1⟩,
    .deliver ⟨0, "z", 1, 2, ⟨"hello", 1, "x"⟩, 2⟩,
    .select ⟨0, 2, m₂, [1], none⟩ [0],
    .send ⟨0, 2, m₂, [1], some [0]⟩ "u" 3 true,
    .deliver ⟨0, "u", 2, 0, ⟨"hello", 2, "z"⟩, 3⟩]

/-- The third node processes two copies, and the originator one. -/
theorem broadcast_processed_twice :
    triangle.NewIds trio triangleEvents ∧ (triangle.run trio triangleEvents).originators = [0]
      ∧ (triangle.run trio triangleEvents).processed 0 2 = 2
      ∧ (triangle.run trio triangleEvents).processed 0 0 = 1 := by
  decide +kernel

end Sthrip.Gossip
