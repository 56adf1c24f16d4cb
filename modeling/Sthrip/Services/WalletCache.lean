import Mathlib.Data.Finset.Card
import Sthrip.Redis.Keyspace
import Sthrip.Services.WalletService

set_option autoImplicit false

/-! # The addresses of the hub

`get_or_create_deposit_address` and `send_withdrawal` of `services/wallet_service.py`, over the cache of
`services/wallet_cache.py`, as the threads of any processes go through them. What a call asks of the wallet,
of Redis or of the database is executed at one moment and answered at another; the call may raise before
that or after it.

The wallet derives its addresses from its keys: they are given by their index, the primary address has the
index zero, and `create_address` takes the next one. What `transfer` returns is left out.
-/

namespace Sthrip.WalletCache

open Redis Hub

/-- What `get_address` returns. -/
structure AddrData where
  address : String
  addresses : List String
deriving DecidableEq

/-- A call of `send_withdrawal`, with the number of subaddresses that the wallet had created when it
began. -/
structure Withdrawal where
  to_address : String
  amount : ℚ
  since : ℕ
deriving DecidableEq

/-- A request to a server, with what the thread needs to go on, and how often it may be repeated. -/
inductive Call
  | cacheGet (wd : Withdrawal) (now : ℚ)
  | getAddress (wd : Withdrawal) (now : ℚ) (left : ℕ)
  | cacheSet (wd : Withdrawal) (now : ℚ) (data : AddrData)
  | transfer (wd : Withdrawal) (left : ℕ)
  | readBalance (agent_id : ℕ)
  | createAddress (agent_id left : ℕ)
  | cacheDelete (agent_id : ℕ) (address : String)
  | setDepositAddress (agent_id : ℕ) (address : String)

/-- The type of the answer. -/
abbrev Call.Reply : Call → Type
  | .cacheGet _ _ => Option AddrData
  | .getAddress _ _ _ => AddrData
  | .readBalance _ => Option String
  | .createAddress _ _ => String
  | _ => Unit

/-- Where a thread is. -/
inductive Phase
  | idle
  /-- In `send_withdrawal`, before the lock. -/
  | withdrawing (wd : Withdrawal)
  /-- In `get_or_create_deposit_address`, before the lock. -/
  | depositing (agent_id : ℕ)
  | called (call : Call)
  /-- The request is executed. -/
  | replied (call : Call) (reply : call.Reply)

/-- The locks of a process. -/
inductive Lock
  | hubAddr (p : ℕ)
  | depositAddr (p agent_id : ℕ)
deriving DecidableEq

structure World where
  now : ℚ
  /-- How many subaddresses the wallet has created. -/
  created : ℕ
  db : Keyspace String ℚ AddrData
  deposit_address : ℕ → Option String
  /-- `_hub_addr_cache` of a process, with `_hub_addr_cache_time`. -/
  hub_addr_cache : ℕ → Option (Finset String × ℚ)
  locked : Lock → Bool
  thread : ℕ → Phase
  /-- The transfers that the wallet has executed. -/
  sent : List Withdrawal
  /-- The calls of `send_withdrawal` that have ended, with what they have raised. -/
  ended : List (Withdrawal × Option RpcExn)

inductive Event
  | tick (t : ℚ)
  | send_withdrawal (c : ℕ) (to_address : String) (amount : ℚ)
  | get_or_create_deposit_address (c agent_id : ℕ)
  /-- The thread takes the lock it waits for. -/
  | acquire (c : ℕ)
  | serve (c : ℕ)
  | answer (c : ℕ)
  | fail (c : ℕ) (e : RpcExn)

def addressKey : String := "wrpc:address:0"

/-- `ADDRESS_TTL` -/
def ADDRESS_TTL : ℚ := 300

/-- `_hub_addr_cache_ttl` -/
def hubAddrCacheTtl : ℚ := 300

/-- The set that `_get_hub_addresses` makes of an answer. -/
def AddrData.toSet (data : AddrData) : Finset String := insert data.address data.addresses.toFinset

namespace World

-- the process of a thread, whether a process has Redis, and the addresses of the wallet
variable (process : ℕ → ℕ) (client : ℕ → Bool) (subaddress : ℕ → String)

def goto (w : World) (c : ℕ) (next : Phase) : World :=
  { w with thread := Function.update w.thread c next }

def setLock (w : World) (lock : Lock) (b : Bool) : World :=
  { w with locked := Function.update w.locked lock b }

/-- A call of `send_withdrawal` ends. -/
def finish (w : World) (c : ℕ) (wd : Withdrawal) (raised : Option RpcExn) : World :=
  { w with ended := w.ended ++ [(wd, raised)] }.goto c .idle

/-- The request is repeated after a transient error, at most three times in all. -/
def retry (w : World) (c : ℕ) (e : RpcExn) (left : ℕ) (again : ℕ → Call) (give_up : World) : World :=
  match left with
  | 0 => give_up
  | left + 1 => if e.isTransient then w.goto c (.called (again left)) else give_up

/-! ## `send_withdrawal` -/

/-- After `_get_hub_addresses`. -/
def check (w : World) (c : ℕ) (wd : Withdrawal) (hub_addresses : Finset String) : World :=
  if wd.to_address ∈ hub_addresses then
    w.finish c wd (some (.ValueError
      "Cannot withdraw to hub wallet's own address — self-send would create an accounting discrepancy"))
  else w.goto c (.called (.transfer wd 2))

/-- The answer is kept in the process, and the lock is given back. -/
def keep (w : World) (c : ℕ) (wd : Withdrawal) (now : ℚ) (data : AddrData) : World :=
  let w := w.setLock (.hubAddr (process c)) false
  { w with hub_addr_cache :=
      Function.update w.hub_addr_cache (process c) (some (data.toSet, now)) }.check c wd data.toSet

/-- Nothing is kept in the process, or it is too old. -/
def fetch (w : World) (c : ℕ) (wd : Withdrawal) : World :=
  (w.setLock (.hubAddr (process c)) true).goto c
    (.called (if client (process c) then .cacheGet wd w.now else .getAddress wd w.now 2))

/-- `_get_hub_addresses`, with the lock. -/
def getHubAddresses (w : World) (c : ℕ) (wd : Withdrawal) : World :=
  match w.hub_addr_cache (process c) with
  | some (addresses, time) =>
      if w.now - time < hubAddrCacheTtl then w.check c wd addresses else w.fetch process client c wd
  | none => w.fetch process client c wd

/-! ## Requests -/

/-- The server executes the request. -/
def execute (w : World) : (call : Call) → World × call.Reply
  | .cacheGet _ _ => (w, w.db.get w.now addressKey)
  | .getAddress _ _ _ => (w, ⟨subaddress 0, (List.range (w.created + 1)).map subaddress⟩)
  | .cacheSet _ _ data => ({ w with db := w.db.setex addressKey data (w.now + ADDRESS_TTL) }, ())
  | .transfer wd _ => ({ w with sent := w.sent ++ [wd] }, ())
  | .readBalance agent_id => (w, w.deposit_address agent_id)
  | .createAddress _ _ => ({ w with created := w.created + 1 }, subaddress (w.created + 1))
  | .cacheDelete _ _ => ({ w with db := w.db.del addressKey }, ())
  | .setDepositAddress agent_id address =>
      ({ w with deposit_address := Function.update w.deposit_address agent_id (some address) }, ())

/-- The end of `get_or_create_deposit_address`. -/
def leave (w : World) (c agent_id : ℕ) : World :=
  (w.setLock (.depositAddr (process c) agent_id) false).goto c .idle

/-- The thread goes on with the answer. -/
def proceed (w : World) (c : ℕ) : (call : Call) → call.Reply → World
  | .cacheGet wd now, cached =>
      match cached with
      | some data => w.keep process c wd now data
      | none => w.goto c (.called (.getAddress wd now 2))
  | .getAddress wd now _, data =>
      if client (process c) then w.goto c (.called (.cacheSet wd now data))
      else w.keep process c wd now data
  | .cacheSet wd now data, _ => w.keep process c wd now data
  | .transfer wd _, _ => w.finish c wd none
  | .readBalance agent_id, deposit_address =>
      match deposit_address.filter (· ≠ "") with
      | some _ => w.leave process c agent_id
      | none => w.goto c (.called (.createAddress agent_id 2))
  | .createAddress agent_id _, address =>
      w.goto c (.called
        (if client (process c) then .cacheDelete agent_id address else .setDepositAddress agent_id address))
  | .cacheDelete agent_id address, _ => w.goto c (.called (.setDepositAddress agent_id address))
  | .setDepositAddress agent_id _, _ => w.leave process c agent_id

/-- The thread goes on after an error; those of Redis are passed over. -/
def failed (w : World) (c : ℕ) (e : RpcExn) : Call → World
  | .cacheGet wd now => w.goto c (.called (.getAddress wd now 2))
  | .getAddress wd now left =>
      w.retry c e left (.getAddress wd now) ((w.setLock (.hubAddr (process c)) false).finish c wd (some e))
  | .cacheSet wd now data => w.keep process c wd now data
  | .transfer wd left => w.retry c e left (.transfer wd) (w.finish c wd (some e))
  | .readBalance agent_id => w.leave process c agent_id
  | .createAddress agent_id left =>
      w.retry c e left (.createAddress agent_id) (w.leave process c agent_id)
  | .cacheDelete agent_id address => w.goto c (.called (.setDepositAddress agent_id address))
  | .setDepositAddress agent_id _ => w.leave process c agent_id

/-! ## Steps -/

/-- One step. What is not possible in a phase does nothing. -/
def step (w : World) : Event → World
  | .tick t => { w with now := max w.now t }
  | .send_withdrawal c to_address amount =>
      match w.thread c with
      | .idle => w.goto c (.withdrawing ⟨to_address, amount, w.created⟩)
      | _ => w
  | .get_or_create_deposit_address c agent_id =>
      match w.thread c with
      | .idle => w.goto c (.depositing agent_id)
      | _ => w
  | .acquire c =>
      match w.thread c with
      | .withdrawing wd =>
          if w.locked (.hubAddr (process c)) then w else w.getHubAddresses process client c wd
      | .depositing agent_id =>
          if w.locked (.depositAddr (process c) agent_id) then w
          else (w.setLock (.depositAddr (process c) agent_id) true).goto c (.called (.readBalance agent_id))
      | _ => w
  | .serve c =>
      match w.thread c with
      | .called call =>
          let served := w.execute subaddress call
          served.1.goto c (.replied call served.2)
      | _ => w
  | .answer c =>
      match w.thread c with
      | .replied call reply => w.proceed process client c call reply
      | _ => w
  | .fail c e =>
      match w.thread c with
      | .called call | .replied call _ => w.failed process c e call
      | _ => w

def run (w : World) (events : List Event) : World := events.foldl (step process client subaddress) w

/-- Nothing is kept anywhere, and nobody has asked for anything. -/
def start (now : ℚ) (created : ℕ) (deposit_address : ℕ → Option String) : World where
  now
  created
  db := Keyspace.empty
  deposit_address
  hub_addr_cache := fun _ => none
  locked := fun _ => false
  thread := fun _ => .idle
  sent := []
  ended := []

end World

end Sthrip.WalletCache
