import Sthrip.Db.ChannelRepo
import Sthrip.Db.Models

set_option autoImplicit false

/-! # Payment channels -/

/-! ## Signed channel states

`sthrip/services/channel_signing.py`: the message that stands for a state of a channel, and the test of
a signature on it.

Ed25519, with keys and signatures as base64 texts, is a parameter. The law that comes with it is that
of the ideal signature: a text that the key of an agent verifies on a message exists only when the
agent has signed this message. `uuid` and `str` write identifiers and amounts.
-/

namespace Sthrip

structure Signing where
  publicKey : Id → String
  /-- `VerifyKey(key).verify(message, signature)`, false when it raises. -/
  verify : (key signature message : String) → Bool
  signed : Id → String → Prop
  ideal : ∀ agent_id signature message, verify (publicKey agent_id) signature message = true →
    signed agent_id message
  uuid : Id → String
  str : ℚ → String

namespace Signing

/-- `_build_message` -/
def buildMessage (channel_id : String) (nonce : ℤ) (balance_a balance_b : String) : String :=
  s!"{channel_id}:{nonce}:{balance_a}:{balance_b}"

variable (S : Signing)

def verifyChannelState (public_key_b64 signature_b64 channel_id : String) (nonce : ℤ)
    (balance_a balance_b : String) : Bool :=
  S.verify public_key_b64 signature_b64 (buildMessage channel_id nonce balance_a balance_b)

/-- The agent has signed the state of the channel. -/
def SignsState (agent_id channel_id : Id) (nonce : ℤ) (balance_a balance_b : ℚ) : Prop :=
  S.signed agent_id (buildMessage (S.uuid channel_id) nonce (S.str balance_a) (S.str balance_b))

/-- The signature verifies, under the key of the agent, for the state of the channel. -/
def Verifies (agent_id : Id) (signature : String) (channel_id : Id) (nonce : ℤ)
    (balance_a balance_b : ℚ) : Prop :=
  S.verifyChannelState (S.publicKey agent_id) signature (S.uuid channel_id) nonce (S.str balance_a)
    (S.str balance_b) = true

theorem Verifies.signs {S : Signing} {agent_id channel_id : Id} {signature : String} {nonce : ℤ}
    {balance_a balance_b : ℚ}
    (h : S.Verifies agent_id signature channel_id nonce balance_a balance_b) :
    S.SignsState agent_id channel_id nonce balance_a balance_b :=
  S.ideal agent_id signature _ h

end Signing

end Sthrip

/-! ## The channel service

`ChannelService` of `sthrip/services/channel_service.py`: two agents put deposits into a channel,
agree on balances off the chain, and get the balances of the state they settle on when the
channel is closed.

An update must keep the sum of the deposits; a settlement or a dispute may name any balances.
The fee of a settlement is recorded next to them. What a method accepts goes into the journal,
for a dispute with a reading of the clock that only the journal uses.
-/

namespace Sthrip

open Txn Prog

def channelFeePercent : ℚ := 1 / 100

/-- The fee of a settlement: a hundredth of the net transfer, to eight digits. -/
def settlementFee (deposit_a balance_a : ℚ) : ℚ :=
  quantize 8 (|balance_a - deposit_a| * channelFeePercent)

/-- `_record_fee` -/
def recordChannelFee (col : Columns) (channel_id : Id) (token : Token) (fee_amount : ℚ) :
    Program Unit :=
  onlyIf (0 < fee_amount) (insert (Entry.fee
    { source_type := "channel", source_id := some channel_id, amount := col 12 fee_amount, token
      status := .PENDING }))

/-- `_verify_participant` -/
def verifyParticipant (channel : PaymentChannel) (agent_id : Id) : Program Unit :=
  raiseIf (agent_id ≠ channel.agent_a_id ∧ agent_id ≠ channel.agent_b_id)
    (.PermissionError "Agent %s is not a participant in this channel" [.int agent_id])

/-- The channel of a request, and whether the caller takes part in it. -/
def getAsParticipant (channel_id agent_id : Id) : Program PaymentChannel := do
  let channel ← ChannelRepository.getById channel_id
  let channel ← orRaise (.LookupError "Channel %s not found" [.int channel_id]) channel
  verifyParticipant channel agent_id
  return channel

/-- The channel again, at the end of a method. -/
def refetchChannel (channel_id : Id) : Program PaymentChannel := do
  let channel ← ChannelRepository.getById channel_id
  orRaise (.AttributeError "'NoneType' object has no attribute 'status'") channel

namespace ChannelService

variable (col : Columns)

/-- `channel_id` is the fresh identifier of the row. -/
def openChannel (channel_id agent_a_id agent_b_id : Id) (deposit_a deposit_b : ℚ)
    (settlement_period : ℤ) : Program PaymentChannel := do
  raiseIf (agent_a_id = agent_b_id)
    (.ValueError "Cannot open a channel with yourself — agents must be different")
  raiseIf (deposit_a ≤ 0 ∧ deposit_b ≤ 0) (.ValueError "At least one deposit must be positive")
  onlyIf (0 < deposit_a)
    (BalanceRepository.deduct col agent_a_id deposit_a .XMR (.channel channel_id))
  onlyIf (0 < deposit_b)
    (BalanceRepository.deduct col agent_b_id deposit_b .XMR (.channel channel_id))
  ChannelRepository.openWithDeposit col channel_id agent_a_id agent_b_id deposit_a deposit_b
    settlement_period

def submitUpdate (channel_id agent_id : Id) (nonce : ℤ) (balance_a balance_b : ℚ)
    (signature_a signature_b : String) : Program ChannelUpdate := do
  let channel ← getAsParticipant channel_id agent_id
  let latest ← ChannelRepository.getLatestUpdate channel_id
  let current_nonce := latest.elim channel.nonce fun u => max channel.nonce u.1
  raiseIf (nonce ≤ current_nonce)
    (.ValueError "Nonce %s must be greater than current nonce %s"
      [.int nonce, .int current_nonce])
  let total := channel.deposit_a + channel.deposit_b
  raiseIf (balance_a + balance_b ≠ total)
    (.ValueError "Balance conservation violated: %s+%s=%s != total capacity %s"
      [.dec balance_a, .dec balance_b, .dec (balance_a + balance_b), .dec total])
  let row ← ChannelRepository.submitUpdate col channel_id nonce balance_a balance_b signature_a
    signature_b
  insert (Entry.acceptance ⟨channel_id, nonce, col 8 balance_a, col 8 balance_b, .update⟩)
  return row

def settle (channel_id agent_id : Id) (nonce : ℤ) (balance_a balance_b : ℚ)
    (sig_a sig_b : String) : Program (PaymentChannel × ℚ) := do
  raiseIf (sig_a = "" ∨ sig_b = "")
    (.ValueError "Both signatures (sig_a and sig_b) are required to initiate settlement")
  let channel ← getAsParticipant channel_id agent_id
  raiseIf (channel.status ≠ .OPEN)
    (.ValueError "Channel must be OPEN to settle; current status: %s"
      [.str channel.status.name])
  let fee := settlementFee channel.deposit_a balance_a
  let rows ← ChannelRepository.initiateSettlement col channel_id nonce balance_a balance_b sig_a
    sig_b
  raiseIf (rows = false)
    (.ValueError "Settlement initiation failed — channel may have changed state")
  insert (Entry.acceptance ⟨channel_id, nonce, col 8 balance_a, col 8 balance_b, .settle⟩)
  recordChannelFee col channel_id .XMR fee
  let channel ← refetchChannel channel_id
  return (channel, fee)

/-- The first part of `close`: a channel past its settlement period is settled. -/
def settleIfDue (channel_id : Id) (channel : PaymentChannel) : Program PaymentChannel :=
  if channel.status = .CLOSING then do
    let now ← now
    raiseIf (∃ t ∈ channel.closes_at, now < t)
      (.ValueError "Settlement period has not elapsed yet")
    let _ ← ChannelRepository.settle channel_id
    refetchChannel channel_id
  else return channel

def close (channel_id agent_id : Id) : Program PaymentChannel := do
  let channel ← getAsParticipant channel_id agent_id
  let channel ← settleIfDue channel_id channel
  raiseIf (channel.status ≠ .SETTLED)
    (.ValueError "Channel must be SETTLED to close; current status: %s"
      [.str channel.status.name])
  onlyIf (0 < channel.balance_a)
    (BalanceRepository.credit col channel.agent_a_id channel.balance_a .XMR (.channel channel_id))
  onlyIf (0 < channel.balance_b)
    (BalanceRepository.credit col channel.agent_b_id channel.balance_b .XMR (.channel channel_id))
  let rows ← ChannelRepository.finalizeClose channel_id
  raiseIf (rows = false) (.ValueError "Close failed — channel may have changed state")
  insert (Entry.closing channel_id)
  refetchChannel channel_id

def dispute (channel_id agent_id : Id) (nonce : ℤ) (balance_a balance_b : ℚ)
    (sig_a sig_b : String) : Program PaymentChannel := do
  let channel ← getAsParticipant channel_id agent_id
  raiseIf (channel.status ≠ .CLOSING)
    (.ValueError "Dispute only valid during CLOSING; current status: %s"
      [.str channel.status.name])
  raiseIf (nonce ≤ channel.nonce)
    (.ValueError "Dispute nonce %s must exceed current nonce %s"
      [.int nonce, .int channel.nonce])
  let rows ← ChannelRepository.dispute col channel_id nonce balance_a balance_b sig_a sig_b
  raiseIf (rows = false) (.ValueError "Dispute update failed")
  let time ← now
  insert (Entry.acceptance ⟨channel_id, nonce, col 8 balance_a, col 8 balance_b, .dispute time⟩)
  refetchChannel channel_id

def autoSettleExpired : Program ℕ := do
  let ready ← ChannelRepository.getChannelsReadyToSettle
  tally ready ChannelRepository.settle

end ChannelService

/-! ## Calls -/

/-- The calls of the service that change a channel, each in a session of its own. -/
inductive ChannelCall where
  | openChannel (channel_id agent_a_id agent_b_id : Id) (deposit_a deposit_b : ℚ)
      (settlement_period : ℤ)
  | submitUpdate (channel_id agent_id : Id) (nonce : ℤ) (balance_a balance_b : ℚ)
      (signature_a signature_b : String)
  | settle (channel_id agent_id : Id) (nonce : ℤ) (balance_a balance_b : ℚ)
      (sig_a sig_b : String)
  | close (channel_id agent_id : Id)
  | dispute (channel_id agent_id : Id) (nonce : ℤ) (balance_a balance_b : ℚ)
      (sig_a sig_b : String)
  | autoSettleExpired

def ChannelCall.body (col : Columns) : ChannelCall → Program Unit
  | .openChannel channel_id agent_a_id agent_b_id deposit_a deposit_b settlement_period => do
      let _ ← ChannelService.openChannel col channel_id agent_a_id agent_b_id deposit_a deposit_b
        settlement_period
  | .submitUpdate channel_id agent_id nonce balance_a balance_b signature_a signature_b => do
      let _ ← ChannelService.submitUpdate col channel_id agent_id nonce balance_a balance_b
        signature_a signature_b
  | .settle channel_id agent_id nonce balance_a balance_b sig_a sig_b => do
      let _ ← ChannelService.settle col channel_id agent_id nonce balance_a balance_b sig_a sig_b
  | .close channel_id agent_id => do
      let _ ← ChannelService.close col channel_id agent_id
  | .dispute channel_id agent_id nonce balance_a balance_b sig_a sig_b => do
      let _ ← ChannelService.dispute col channel_id agent_id nonce balance_a balance_b sig_a sig_b
  | .autoSettleExpired => do
      let _ ← ChannelService.autoSettleExpired

def ChannelCall.run (col : Columns) (c : ChannelCall) : Program Unit := withSession (c.body col)

/-! ## Calls with their side calls

The methods end in calls of `audit_log` and `queue_webhook`, which the calls above leave out, as the
tests of the service do. `audit_log` has no parameter `new_values`.
-/

namespace ChannelCall

/-- The agent as whom the request is authenticated; the sweep has none. -/
def caller : ChannelCall → Option Id
  | openChannel _ agent_a_id .. => some agent_a_id
  | submitUpdate _ agent_id .. => some agent_id
  | settle _ agent_id .. => some agent_id
  | close _ agent_id => some agent_id
  | dispute _ agent_id .. => some agent_id
  | autoSettleExpired => none

/-- `audit_log(…, new_values=…)` -/
def auditNewValues : Program Unit :=
  raise (.TypeError "log_event() got an unexpected keyword argument 'new_values'")

/-- `queue_webhook`, in a session of its own. -/
def queueWebhook : Program Unit := do
  let failed ← ask
  raiseIf (failed ≠ 0) .OperationalError

def sideCalls : ChannelCall → Program Unit
  | openChannel .. | settle .. | dispute .. => auditNewValues
  | close .. => queueWebhook
  | submitUpdate .. | autoSettleExpired => return

def runAudited (col : Columns) (c : ChannelCall) : Program Unit :=
  withSession ((c.body col).bind fun _ => c.sideCalls)

end ChannelCall

end Sthrip
