import Mathlib.Data.List.Sort
import Sthrip.Db.BalanceRepo
import Sthrip.Db.Models

set_option autoImplicit false

/-! # Payment channels

`ChannelRepository` of `sthrip/db/channel_repo.py`, the part of the off-chain channels: a channel
is `OPEN`, then `CLOSING` for the length of its settlement period, then `SETTLED`, then `CLOSED`.
The transitions are `UPDATE`s guarded by the status only; the nonces are compared by the caller.
-/

namespace Sthrip

open Txn Prog

/-- `timedelta(seconds=s)`. -/
def seconds (s : ℤ) : Time := s * 1000000

namespace ChannelRepository

variable (col : Columns)

def getById (channel_id : Id) : Program (Option PaymentChannel) :=
  select (S := schema) (Key.channel channel_id)

/-- `channel_id` is the fresh identifier of the row. -/
def openWithDeposit (channel_id agent_a_id agent_b_id : Id) (deposit_a deposit_b : ℚ)
    (settlement_period : ℤ) : Program PaymentChannel := do
  let channel : PaymentChannel :=
    { agent_a_id, agent_b_id, capacity := col 12 (deposit_a + deposit_b), status := .OPEN
      deposit_a := col 8 deposit_a, deposit_b := col 8 deposit_b
      balance_a := col 8 deposit_a, balance_b := col 8 deposit_b
      nonce := 0, settlement_period }
  let inserted ← create (Key.channel channel_id) channel
  raiseIf (inserted = false) .IntegrityError
  return channel

def submitUpdate (channel_id : Id) (nonce : ℤ) (balance_a balance_b : ℚ)
    (signature_a signature_b : String) : Program ChannelUpdate := do
  let row : ChannelUpdate :=
    { balance_a := col 8 balance_a, balance_b := col 8 balance_b
      signature_a := some signature_a, signature_b := some signature_b }
  let inserted ← create (Key.channelUpdate channel_id nonce) row
  raiseIf (inserted = false) .IntegrityError
  return row

def ofChannel (channel_id : Id) : (k : Key) → Row k → Bool
  | .channelUpdate channel _, _ => channel = channel_id
  | _, _ => false

/-- The nonce of an update of the channel, with its row. -/
def numbered (channel_id : Id) : (Σ k : Key, Row k) → Option (ℤ × ChannelUpdate)
  | ⟨.channelUpdate channel nonce, row⟩ =>
      if channel = channel_id then some (nonce, row) else none
  | _ => none

def getLatestUpdate (channel_id : Id) : Program (Option (ℤ × ChannelUpdate)) := do
  let rows ← query (ofChannel channel_id)
  return ((rows.filterMap (numbered channel_id)).insertionSort fun u u' => u'.1 ≤ u.1).head?

/-- `OPEN → CLOSING` -/
def initiateSettlement (channel_id : Id) (nonce : ℤ) (balance_a balance_b : ℚ)
    (sig_a sig_b : String) : Program Bool := do
  let channel ← getById channel_id
  let now ← now
  let closes_at := now + seconds (channel.elim 3600 (·.settlement_period))
  update (Key.channel channel_id) (fun channel => channel.status = .OPEN) fun channel =>
    { channel with
      status := .CLOSING, nonce, balance_a := col 8 balance_a, balance_b := col 8 balance_b
      last_update_sig_a := some sig_a, last_update_sig_b := some sig_b
      closes_at := some closes_at }

/-- `CLOSING → SETTLED` -/
def settle (channel_id : Id) : Program Bool := do
  let now ← now
  update (Key.channel channel_id) (fun channel => channel.status = .CLOSING) fun channel =>
    { channel with status := .SETTLED, settled_at := some now }

/-- `SETTLED → CLOSED` -/
def finalizeClose (channel_id : Id) : Program Bool := do
  let now ← now
  update (Key.channel channel_id) (fun channel => channel.status = .SETTLED) fun channel =>
    { channel with status := .CLOSED, closed_at := some now }

/-- A new state while `CLOSING`. -/
def dispute (channel_id : Id) (nonce : ℤ) (balance_a balance_b : ℚ) (sig_a sig_b : String) :
    Program Bool :=
  update (S := schema) (Key.channel channel_id) (fun channel => channel.status = .CLOSING)
    fun channel =>
      { channel with
        nonce, balance_a := col 8 balance_a, balance_b := col 8 balance_b
        last_update_sig_a := some sig_a, last_update_sig_b := some sig_b }

def readyToSettle (now : Time) : (k : Key) → Row k → Bool
  | .channel _, channel => channel.status = .CLOSING ∧ ∃ t ∈ channel.closes_at, t ≤ now
  | _, _ => false

def getChannelsReadyToSettle : Program (List Id) := do
  let now ← now
  let rows ← query (readyToSettle now)
  return rows.filterMap fun
    | ⟨Key.channel id, _⟩ => some id
    | _ => none

end ChannelRepository

end Sthrip

/-! ## Payment streams

`PaymentStreamRepository` of `sthrip/db/stream_repo.py`, on the row of one stream. A transition is an
`UPDATE` guarded by the state it leaves; it is `none` when the row does not match.
-/

namespace Sthrip

open Txn

inductive StreamStatus where
  | ACTIVE | PAUSED | STOPPED
  deriving DecidableEq, Repr

/-- The member as a format string prints it. -/
def StreamStatus.name : StreamStatus → String
  | ACTIVE => "StreamStatus.ACTIVE"
  | PAUSED => "StreamStatus.PAUSED"
  | STOPPED => "StreamStatus.STOPPED"

structure PaymentStream where
  channel_id : Id
  from_agent_id : Id
  to_agent_id : Id
  rate_per_second : ℚ
  started_at : Option Time
  paused_at : Option Time := none
  stopped_at : Option Time := none
  total_streamed : ℚ := 0
  state : StreamStatus := .ACTIVE
  deriving DecidableEq

namespace PaymentStreamRepository

variable (col : Columns)

def create (channel_id from_agent_id to_agent_id : Id) (rate_per_second : ℚ) (now : Time) :
    PaymentStream :=
  { channel_id, from_agent_id, to_agent_id, rate_per_second := col 12 rate_per_second
    started_at := some now, state := .ACTIVE }

/-- `ACTIVE → PAUSED` -/
def pause (now : Time) (row : PaymentStream) : Option PaymentStream :=
  if row.state = .ACTIVE then some { row with state := .PAUSED, paused_at := some now } else none

/-- `PAUSED → ACTIVE` -/
def resume (row : PaymentStream) : Option PaymentStream :=
  if row.state = .PAUSED then some { row with state := .ACTIVE, paused_at := none } else none

/-- `ACTIVE | PAUSED → STOPPED` -/
def stop (total_streamed : ℚ) (now : Time) (row : PaymentStream) : Option PaymentStream :=
  if row.state ≠ .STOPPED then
    some { row with state := .STOPPED, stopped_at := some now
                    total_streamed := col 8 total_streamed }
  else none

end PaymentStreamRepository

end Sthrip
