import Mathlib.Data.Finset.Insert
import Mathlib.Data.List.Perm.Subperm
import Mathlib.Data.Rat.Defs
import Sthrip.Python.Values

set_option autoImplicit false

/-! # Gossip between the nodes of the bridge

`bridge/p2p/gossip.py`, over `send_direct` of `bridge/p2p/node.py`. Every node goes on at whatever times:
its connections change, its forwards send one message after another, and the messages in flight arrive in
any order or are lost. The random choices and the clock are arguments of the events.

The broadcasts are numbered in the order in which they are started, and a message in flight keeps the number
of its broadcast. The code does not have that number.
-/

namespace Sthrip.Gossip

/-- The arguments with which the nodes have made their `GossipProtocol`. -/
structure Network (ι : Type) where
  fanout : ι → ℕ
  max_hops : ι → ℕ

/-- The set `received_from` is shared by all who hold the message: the field says where it is. -/
structure GossipMessage where
  msg_id : String
  data : String
  timestamp : ℚ
  hops : ℕ
  received_from : ℕ
deriving DecidableEq

/-- The payload that `_forward` makes. -/
structure Payload where
  data : String
  hops : ℕ
  original_msg_id : String
deriving DecidableEq

variable {ι : Type}

structure NodeMessage (ι : Type) where
  msg_id : String
  sender_id : ι
  recipient_id : ι
  payload : Payload
  timestamp : ℚ
deriving DecidableEq

/-- A message of a broadcast. -/
structure Copy (ι : Type) where
  root : ℕ
  msg : NodeMessage ι
deriving DecidableEq

/-- A call of `_forward`, with the selected peers to which it has not yet sent. -/
structure Forward (ι : Type) where
  root : ℕ
  node : ι
  gossip_msg : GossipMessage
  exclude : List ι
  selected : Option (List ι)
deriving DecidableEq

structure World (ι : Type) where
  peers : ι → List ι
  seen_messages : ι → List (String × GossipMessage)
  /-- The sets `received_from`. -/
  sets : List (Finset ι)
  forwards : List (Forward ι)
  inFlight : List (Copy ι)
  /-- The ids that have been used. -/
  ids : List String
  /-- Who has started the broadcasts. -/
  originators : List ι
  /-- The messages sent, by the number of their broadcast. -/
  sent : List ℕ
  delivered : List (Copy ι)
  /-- What the calls of `handle_incoming` have returned, by broadcast and node. -/
  handled : List ((ℕ × ι) × Bool)

/-- Before any broadcast. -/
def World.start (peers : ι → List ι) : World ι where
  peers := peers
  seen_messages _ := []
  sets := []
  forwards := []
  inFlight := []
  ids := []
  originators := []
  sent := []
  delivered := []
  handled := []

def max_cache_size : ℕ := 10000

/-- `_clean_cache` -/
def cleanCache (seen : List (String × GossipMessage)) : List (String × GossipMessage) :=
  if seen.length > max_cache_size then
    let sorted_msgs := seen.mergeSort fun a b => a.2.timestamp ≤ b.2.timestamp
    let removed := (sorted_msgs.take (sorted_msgs.length / 2)).map Prod.fst
    seen.filter fun e => e.1 ∉ removed
  else seen

/-- `msg_id or self._generate_msg_id()` -/
def orGenerate (msg_id : Option String) (token : String) : String :=
  match msg_id with
  | some id => if id = "" then token else id
  | none => token

/-- What `_forward` may select from the peers. -/
def Selects [DecidableEq ι] (fanout : ℕ) (peers selected : List ι) : Prop :=
  if peers.length ≤ fanout then selected = peers
  else selected.length = fanout ∧ selected.Subperm peers

instance [DecidableEq ι] (fanout : ℕ) (peers selected : List ι) :
    Decidable (Selects fanout peers selected) := by
  unfold Selects
  infer_instance

inductive Event (ι : Type)
  /-- The connections of the node are these now. -/
  | connect (n : ι) (peers : List ι)
  | broadcast (n : ι) (data : String) (msg_id : Option String) (token : String) (now : ℚ)
      (selected : List ι)
  /-- The task of a forward starts. -/
  | select (f : Forward ι) (selected : List ι)
  /-- A forward sends to the next of its peers, or fails to. -/
  | send (f : Forward ι) (token : String) (now : ℚ) (ok : Bool)
  | deliver (c : Copy ι)
  | lose (c : Copy ι)

namespace World

variable [DecidableEq ι] (net : Network ι)

/-- `received_from.add(peer)` -/
def addReceived (w : World ι) (received_from : ℕ) (peer : ι) : World ι :=
  { w with sets := w.sets.modify received_from (insert peer) }

def setSeen (w : World ι) (n : ι) (seen : List (String × GossipMessage)) : World ι :=
  { w with seen_messages := Function.update w.seen_messages n seen }

/-- `_forward` up to its loop. -/
def startForward (w : World ι) (f : Forward ι) (selected : List ι) : World ι :=
  let received_from := w.sets.getD f.gossip_msg.received_from ∅
  let peers := (w.peers f.node).filter fun pid => pid ∉ f.exclude ∧ pid ∉ received_from
  if f ∈ w.forwards ∧ f.selected = none ∧ Selects (net.fanout f.node) peers selected then
    { w with forwards := { f with selected := some selected } :: w.forwards.erase f }
  else w

/-- `broadcast`, up to the first message that it sends. -/
def broadcast (w : World ι) (n : ι) (data msg_id : String) (now : ℚ) (selected : List ι) : World ι :=
  let gossip_msg : GossipMessage :=
    { msg_id, data, timestamp := now, hops := 0, received_from := w.sets.length }
  let f : Forward ι := ⟨w.originators.length, n, gossip_msg, [], none⟩
  let w := w.setSeen n (Python.setItem msg_id gossip_msg (w.seen_messages n))
  { w with
    sets := w.sets ++ [∅]
    ids := msg_id :: w.ids
    originators := w.originators ++ [n]
    forwards := f :: w.forwards }.startForward net f selected

/-- `send_direct` -/
def sendDirect (w : World ι) (root : ℕ) (sender_id recipient_id : ι) (payload : Payload) (token : String)
    (now : ℚ) (ok : Bool) : World ι × Bool :=
  if recipient_id ∉ w.peers sender_id then (w, false)
  else
    let msg : NodeMessage ι := ⟨token, sender_id, recipient_id, payload, now⟩
    if ok then
      ({ w with
          inFlight := ⟨root, msg⟩ :: w.inFlight
          ids := token :: w.ids
          sent := root :: w.sent }, true)
    else ({ w with ids := token :: w.ids }, false)

/-- One turn of the loop of `_forward`. -/
def send (w : World ι) (f : Forward ι) (token : String) (now : ℚ) (ok : Bool) : World ι :=
  match f.selected with
  | none => w
  | some [] => { w with forwards := w.forwards.erase f }
  | some (peer_id :: rest) =>
      let m := f.gossip_msg
      let payload : Payload := { data := m.data, hops := m.hops, original_msg_id := m.msg_id }
      let (w, success) := w.sendDirect f.root f.node peer_id payload token now ok
      let w := if success then w.addReceived m.received_from peer_id else w
      { w with forwards := { f with selected := some rest } :: w.forwards.erase f }

/-- `handle_incoming` at `n` -/
def handleIncoming (w : World ι) (root : ℕ) (n : ι) (msg : NodeMessage ι) (from_peer : ι) :
    World ι × Bool :=
  match (w.seen_messages n).lookup msg.msg_id with
  | some seen => (w.addReceived seen.received_from from_peer, false)
  | none =>
      let gossip_msg : GossipMessage :=
        { msg_id := msg.msg_id
          data := msg.payload.data
          timestamp := msg.timestamp
          hops := msg.payload.hops + 1
          received_from := w.sets.length }
      let seen := cleanCache (Python.setItem msg.msg_id gossip_msg (w.seen_messages n))
      let w := { w.setSeen n seen with sets := w.sets ++ [{from_peer}] }
      if gossip_msg.hops < net.max_hops n then
        ({ w with forwards := ⟨root, n, gossip_msg, [from_peer], none⟩ :: w.forwards }, true)
      else (w, true)

def deliver (w : World ι) (c : Copy ι) : World ι :=
  let n := c.msg.recipient_id
  let (w, isNew) := handleIncoming net w c.root n c.msg c.msg.sender_id
  { w with
    inFlight := w.inFlight.erase c
    delivered := c :: w.delivered
    handled := ((c.root, n), isNew) :: w.handled }

/-- One step. What is not possible does nothing. -/
def step (w : World ι) : Event ι → World ι
  | .connect n peers => { w with peers := Function.update w.peers n peers }
  | .broadcast n data msg_id token now selected =>
      w.broadcast net n data (orGenerate msg_id token) now selected
  | .select f selected => w.startForward net f selected
  | .send f token now ok => if f ∈ w.forwards then w.send f token now ok else w
  | .deliver c => if c ∈ w.inFlight then w.deliver net c else w
  | .lose c => { w with inFlight := w.inFlight.erase c }

def run (w : World ι) (es : List (Event ι)) : World ι := es.foldl (step net) w

/-- The id that a message draws has not been used, and that of a broadcast is not in flight. -/
def NewId (w : World ι) : Event ι → Prop
  | .broadcast _ _ msg_id token _ _ => ∀ c ∈ w.inFlight, c.msg.msg_id ≠ orGenerate msg_id token
  | .send _ token _ _ => token ∉ w.ids
  | _ => True

instance (w : World ι) : (e : Event ι) → Decidable (w.NewId e)
  | .connect _ _ => inferInstanceAs (Decidable True)
  | .broadcast _ _ msg_id token _ _ =>
      inferInstanceAs (Decidable (∀ c ∈ w.inFlight, c.msg.msg_id ≠ orGenerate msg_id token))
  | .select _ _ => inferInstanceAs (Decidable True)
  | .send _ token _ _ => inferInstanceAs (Decidable (token ∉ w.ids))
  | .deliver _ => inferInstanceAs (Decidable True)
  | .lose _ => inferInstanceAs (Decidable True)

/-- No id that is drawn has been used before. -/
def NewIds : World ι → List (Event ι) → Prop
  | _, [] => True
  | w, e :: es => w.NewId e ∧ NewIds (w.step net e) es

instance decidableNewIds : (w : World ι) → (es : List (Event ι)) → Decidable (w.NewIds net es)
  | _, [] => inferInstanceAs (Decidable True)
  | w, e :: es =>
      have := decidableNewIds (w.step net e) es
      inferInstanceAs (Decidable (w.NewId e ∧ NewIds net (w.step net e) es))

/-- How many calls of `handle_incoming` at `n` have returned `True` for the broadcast. -/
def processed (w : World ι) (b : ℕ) (n : ι) : ℕ := w.handled.count ((b, n), true)

/-- How many copies of the broadcast have been delivered to `n`. -/
def copies (w : World ι) (b : ℕ) (n : ι) : ℕ :=
  w.delivered.countP fun c => c.root = b ∧ c.msg.recipient_id = n

end World

end Sthrip.Gossip
