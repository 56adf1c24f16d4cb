import Sthrip.Evm.Reentry
import Mathlib.Logic.Function.Basic
import Mathlib.Tactic.NormNum

set_option autoImplicit false

/-! # The bridge contract

`SthripBridge` of `contracts/StealthPayBridge.sol`, with the parts of OpenZeppelin's
`ReentrancyGuard`, `Pausable` and `AccessControl` that it uses. Arithmetic is checked, as in Solidity
0.8. The hash function maps to a type `Hash` of its own, in which it need not collide.

`transfers` is a record of the ether that the contract has sent. The contract does not keep it.
-/

namespace Sthrip.Bridge

open Evm

abbrev Bytes := List UInt8
abbrev Address := BitVec 160
abbrev Bytes32 := BitVec 256

/-- The `w` lowest bytes of a number, most significant first. -/
def bytesBE : ℕ → ℕ → Bytes
  | 0, _ => []
  | w + 1, n => bytesBE w (n / 256) ++ [UInt8.ofNat (n % 256)]

/-- `abi.encodePacked` of an address, two numbers, a string and a number. -/
def packLock (sender : Address) (timestamp value : ℕ) (xmrAddress : Bytes) (nonce : ℕ) : Bytes :=
  bytesBE 20 sender.toNat ++ bytesBE 32 timestamp ++ bytesBE 32 value ++ xmrAddress
    ++ bytesBE 32 nonce

/-- `abi.encodePacked` of an address, three numbers and a string. -/
def packRequest (sender : Address) (timestamp ethAmount xmrAmount : ℕ) (xmrAddress : Bytes) : Bytes :=
  bytesBE 20 sender.toNat ++ bytesBE 32 timestamp ++ bytesBE 32 ethAmount ++ bytesBE 32 xmrAmount
    ++ xmrAddress

/-! ## The state -/

inductive Role where
  | DEFAULT_ADMIN_ROLE | MPC_ROLE | ADMIN_ROLE | OPERATOR_ROLE
  deriving DecidableEq

structure Lock where
  sender : Address := 0
  amount : ℕ := 0
  xmrAddress : Bytes := []
  unlockTime : ℕ := 0
  claimed : Bool := false
  refunded : Bool := false
  mpcMerkleRoot : Bytes32 := 0
  createdAt : ℕ := 0

structure BridgeRequest where
  sender : Address := 0
  ethAmount : ℕ := 0
  xmrAmount : ℕ := 0
  xmrAddress : Bytes := []
  txHash : Bytes32 := 0
  completed : Bool := false
  createdAt : ℕ := 0

variable (Hash : Type)

inductive Event where
  | Locked (lockId : Hash) (sender : Address) (amount : ℕ) (xmrAddress : Bytes) (unlockTime : ℕ)
      (mpcMerkleRoot : Bytes32)
  | Claimed (lockId : Hash) (recipient : Address) (amount : ℕ) (txHash : Bytes32)
  | Refunded (lockId : Hash) (sender : Address) (amount : ℕ)
  | BridgeInitiated (requestId : Hash) (sender : Address) (ethAmount xmrAmount : ℕ)
      (xmrAddress : Bytes)
  | BridgeCompleted (requestId : Hash) (txHash : Bytes32) (ethAmount : ℕ)
  | EmergencyPaused (admin : Address)
  | EmergencyUnpaused (admin : Address)
  | MPCNodeUpdated (node : Address) (added : Bool)
  | ThresholdUpdated (newThreshold : ℕ)
  | FeeUpdated (newFeeBps : ℕ)

inductive Call where
  | lock (xmrAddress : Bytes) (duration : ℕ) (mpcMerkleRoot : Bytes32)
  | claim (lockId : Hash) (mpcSignature : Bytes) (recipient : Address) (txHash : Bytes32)
  | refund (lockId : Hash)
  | initiateBridge (ethAmount xmrAmount : ℕ) (xmrAddress : Bytes)
  | completeBridge (requestId : Hash) (txHash : Bytes32) (mpcSignature : Bytes)
  | emergencyPause
  | emergencyUnpause
  | updateMPCNode (node : Address) (add : Bool)
  | updateThreshold (newThreshold : ℕ)
  | updateProtocolFee (newFeeBps : ℕ)
  | collectFees
  | rescueTokens (token dest : Address) (amount : ℕ)
  | grantRole (role : Role) (account : Address)
  | revokeRole (role : Role) (account : Address)
  | renounceRole (role : Role) (account : Address)
  /-- Ether without a call of a function. -/
  | receive
  /-- Ether that arrives without a call: a block reward, or a contract that destructs itself. -/
  | force

structure Msg where
  sender : Address
  value : ℕ
  call : Call Hash

/-- What a message made the contract send. -/
structure Transfer where
  msg : Msg Hash
  payee : Address
  amount : ℕ
  time : ℕ

structure State where
  /-- The ether of the contract. -/
  balance : ℕ
  locks : Hash → Lock := fun _ => {}
  nonces : Address → ℕ := fun _ => 0
  bridgeRequests : Hash → BridgeRequest := fun _ => {}
  usedHashes : Bytes32 → Bool := fun _ => false
  mpcThreshold : ℕ := 3
  mpcTotal : ℕ := 5
  protocolFeeBps : ℕ := 50
  totalFees : ℕ := 0
  feeCollector : Address
  insuranceFund : Address
  hasRole : Role → Address → Bool
  paused : Bool := false
  /-- The status of the `ReentrancyGuard`. -/
  entered : Bool := false
  events : List (Event Hash) := []
  transfers : List (Transfer Hash) := []

structure Env where
  /-- `address(this)` -/
  this : Address
  timestamp : ℕ

/-! ## The functions -/

variable {Hash} [DecidableEq Hash]

def MIN_LOCK_DURATION : ℕ := 3600
def MAX_LOCK_DURATION : ℕ := 7 * 24 * 3600
def MIN_AMOUNT : ℕ := 10 ^ 15
def MAX_AMOUNT : ℕ := 100 * 10 ^ 18

def require (c : Prop) [Decidable c] (reason : String) : Except String Unit :=
  if c then .ok () else .error reason

/-- The result of an addition or a multiplication, or a panic. -/
def checked (n : ℕ) : Except String ℕ := if n < 2 ^ 256 then .ok n else .error "Panic(0x11)"

@[simp]
theorem require_bind_eq_ok {α : Type} {c : Prop} [Decidable c] {reason : String}
    {f : Unit → Except String α} {r : α} : (require c reason >>= f) = .ok r ↔ c ∧ f () = .ok r := by
  by_cases hc : c <;> simp [require, hc, bind, Except.bind]

@[simp]
theorem checked_bind_eq_ok {α : Type} {n : ℕ} {f : ℕ → Except String α} {r : α} :
    (checked n >>= f) = .ok r ↔ n < 2 ^ 256 ∧ f n = .ok r := by
  rw [checked]
  split
  · next hn => exact ⟨fun h => ⟨hn, h⟩, fun h => h.2⟩
  · next hn =>
      constructor
      · intro h
        cases h
      · intro h
        exact absurd h.1 hn

/-- A function that is not `payable`. -/
def nonPayable (m : Msg Hash) : Except String Unit := require (m.value = 0) ""

def onlyRole (role : Role) (reason : String) (m : Msg Hash) (s : State Hash) : Except String Unit :=
  require (s.hasRole role m.sender = true) reason

def onlyMPC : Msg Hash → State Hash → Except String Unit := onlyRole .MPC_ROLE "Not MPC node"

def onlyAdmin : Msg Hash → State Hash → Except String Unit := onlyRole .ADMIN_ROLE "Not admin"

def whenNotPaused (s : State Hash) : Except String Unit := require (s.paused = false) "Pausable: paused"

/-- The guard of a `nonReentrant` function. -/
def guardEnter (s : State Hash) : Except String (State Hash) := do
  require (s.entered = false) "ReentrancyGuard: reentrant call"
  return { s with entered := true }

def guardExit (s : State Hash) : State Hash := { s with entered := false }

def emit (e : Event Hash) (s : State Hash) : State Hash := { s with events := s.events ++ [e] }

def setRole (role : Role) (account : Address) (b : Bool) (s : State Hash) : State Hash :=
  { s with hasRole := fun r a => if r = role ∧ a = account then b else s.hasRole r a }

def setLock (lockId : Hash) (lock : Lock) (s : State Hash) : State Hash :=
  { s with locks := Function.update s.locks lockId lock }

/-- The state that the callee of `payee.call{value: amount}("")` sees. The contract itself does not
receive ether. -/
def pay (env : Env) (m : Msg Hash) (payee : Address) (amount : ℕ) (s : State Hash) :
    Option (State Hash) :=
  if payee = env.this ∨ s.balance < amount then none
  else
    some
      { s with
        balance := s.balance - amount
        transfers := s.transfers ++ [⟨m, payee, amount, env.timestamp⟩] }

/-- `verifyMPCSignature`: a placeholder. -/
def verifyMPCSignature (signature : Bytes) : Except String Bool := do
  require (signature.length = 96) "Invalid signature length"
  return true

variable (keccak256 : Bytes → Hash)

def lock (env : Env) (m : Msg Hash) (xmrAddress : Bytes) (duration : ℕ) (mpcMerkleRoot : Bytes32)
    (s : State Hash) : Except String (Next (State Hash)) := do
  let s ← guardEnter { s with balance := s.balance + m.value }
  whenNotPaused s
  require (MIN_AMOUNT ≤ m.value) "Amount below minimum"
  require (m.value ≤ MAX_AMOUNT) "Amount above maximum"
  require (95 ≤ xmrAddress.length ∧ xmrAddress.length ≤ 106) "Invalid XMR address length"
  require (MIN_LOCK_DURATION ≤ duration ∧ duration ≤ MAX_LOCK_DURATION) "Invalid duration"
  require (mpcMerkleRoot ≠ 0) "Invalid Merkle root"
  let product ← checked (m.value * s.protocolFeeBps)
  let fee := product / 10000
  require (fee ≤ m.value) "Panic(0x11)"
  let netAmount := m.value - fee
  let totalFees ← checked (s.totalFees + fee)
  let nonce := s.nonces m.sender
  let next ← checked (nonce + 1)
  let lockId := keccak256 (packLock m.sender env.timestamp m.value xmrAddress nonce)
  require ((s.locks lockId).amount = 0) "Lock exists"
  let unlockTime ← checked (env.timestamp + duration)
  let s := { s with totalFees, nonces := Function.update s.nonces m.sender next }
  let s := setLock lockId
    { sender := m.sender, amount := netAmount, xmrAddress, unlockTime, mpcMerkleRoot
      createdAt := env.timestamp } s
  let s := emit (.Locked lockId m.sender netAmount xmrAddress unlockTime mpcMerkleRoot) s
  return .stop (guardExit s)

def claim (env : Env) (m : Msg Hash) (lockId : Hash) (mpcSignature : Bytes) (recipient : Address)
    (txHash : Bytes32) (s : State Hash) : Except String (Next (State Hash)) := do
  nonPayable m
  let s ← guardEnter s
  whenNotPaused s
  let lock := s.locks lockId
  require (0 < lock.amount) "Lock not found"
  require (lock.claimed = false) "Already claimed"
  require (lock.refunded = false) "Already refunded"
  require (env.timestamp < lock.unlockTime) "Lock expired"
  require (recipient ≠ 0) "Invalid recipient"
  require (s.usedHashes txHash = false) "Tx hash already used"
  let valid ← verifyMPCSignature mpcSignature
  require (valid = true) "Invalid MPC signature"
  let s := setLock lockId { lock with claimed := true } s
  let s := { s with usedHashes := Function.update s.usedHashes txHash true }
  return .call s (pay env m recipient lock.amount s) fun success s => do
    require (success = true) "Transfer failed"
    return guardExit (emit (.Claimed lockId recipient (s.locks lockId).amount txHash) s)

def refund (env : Env) (m : Msg Hash) (lockId : Hash) (s : State Hash) :
    Except String (Next (State Hash)) := do
  nonPayable m
  let s ← guardEnter s
  let lock := s.locks lockId
  require (0 < lock.amount) "Lock not found"
  require (lock.claimed = false) "Already claimed"
  require (lock.refunded = false) "Already refunded"
  require (lock.unlockTime ≤ env.timestamp) "Lock active"
  require (m.sender = lock.sender) "Not sender"
  let s := setLock lockId { lock with refunded := true } s
  return .call s (pay env m lock.sender lock.amount s) fun success s => do
    require (success = true) "Transfer failed"
    let lock := s.locks lockId
    return guardExit (emit (.Refunded lockId lock.sender lock.amount) s)

def initiateBridge (env : Env) (m : Msg Hash) (ethAmount xmrAmount : ℕ) (xmrAddress : Bytes)
    (s : State Hash) : Except String (Next (State Hash)) := do
  nonPayable m
  onlyMPC m s
  whenNotPaused s
  require (0 < ethAmount) "Invalid ETH amount"
  require (0 < xmrAmount) "Invalid XMR amount"
  let requestId := keccak256 (packRequest m.sender env.timestamp ethAmount xmrAmount xmrAddress)
  let request : BridgeRequest :=
    { sender := m.sender, ethAmount, xmrAmount, xmrAddress, createdAt := env.timestamp }
  let s := { s with bridgeRequests := Function.update s.bridgeRequests requestId request }
  return .stop (emit (.BridgeInitiated requestId m.sender ethAmount xmrAmount xmrAddress) s)

def completeBridge (m : Msg Hash) (requestId : Hash) (txHash : Bytes32) (mpcSignature : Bytes)
    (s : State Hash) : Except String (Next (State Hash)) := do
  nonPayable m
  onlyMPC m s
  let s ← guardEnter s
  let request := s.bridgeRequests requestId
  require (0 < request.ethAmount) "Request not found"
  require (request.completed = false) "Already completed"
  require (s.usedHashes txHash = false) "Tx hash already used"
  let valid ← verifyMPCSignature mpcSignature
  require (valid = true) "Invalid signature"
  let request := { request with completed := true, txHash }
  let s :=
    { s with
      bridgeRequests := Function.update s.bridgeRequests requestId request
      usedHashes := Function.update s.usedHashes txHash true }
  return .stop (guardExit (emit (.BridgeCompleted requestId txHash request.ethAmount) s))

def emergencyPause (m : Msg Hash) (s : State Hash) : Except String (Next (State Hash)) := do
  nonPayable m
  onlyAdmin m s
  whenNotPaused s
  return .stop (emit (.EmergencyPaused m.sender) { s with paused := true })

def emergencyUnpause (m : Msg Hash) (s : State Hash) : Except String (Next (State Hash)) := do
  nonPayable m
  onlyAdmin m s
  require (s.paused = true) "Pausable: not paused"
  return .stop (emit (.EmergencyUnpaused m.sender) { s with paused := false })

def updateMPCNode (m : Msg Hash) (node : Address) (add : Bool) (s : State Hash) :
    Except String (Next (State Hash)) := do
  nonPayable m
  onlyAdmin m s
  require (node ≠ 0) "Invalid address"
  return .stop (emit (.MPCNodeUpdated node add) (setRole .MPC_ROLE node add s))

def updateThreshold (m : Msg Hash) (newThreshold : ℕ) (s : State Hash) :
    Except String (Next (State Hash)) := do
  nonPayable m
  onlyAdmin m s
  require (newThreshold ≤ s.mpcTotal) "Threshold exceeds total"
  require (2 ≤ newThreshold) "Threshold too low"
  return .stop (emit (.ThresholdUpdated newThreshold) { s with mpcThreshold := newThreshold })

def updateProtocolFee (m : Msg Hash) (newFeeBps : ℕ) (s : State Hash) :
    Except String (Next (State Hash)) := do
  nonPayable m
  onlyAdmin m s
  require (newFeeBps ≤ 500) "Fee too high"
  return .stop (emit (.FeeUpdated newFeeBps) { s with protocolFeeBps := newFeeBps })

/-- The one function that calls out without the guard. -/
def collectFees (env : Env) (m : Msg Hash) (s : State Hash) : Except String (Next (State Hash)) := do
  nonPayable m
  onlyAdmin m s
  require (s.feeCollector ≠ 0) "Invalid fee collector"
  let amount := s.totalFees
  let s := { s with totalFees := 0 }
  return .call s (pay env m s.feeCollector amount s) fun success s => do
    require (success = true) "Fee transfer failed"
    return s

/-- The contract itself has no function `transfer`, so the call fails there. -/
def rescueTokens (env : Env) (m : Msg Hash) (token dest : Address) (s : State Hash) :
    Except String (Next (State Hash)) := do
  nonPayable m
  onlyAdmin m s
  require (dest ≠ 0) "Invalid recipient"
  return .call s (if token = env.this then none else some s) fun success s => do
    require (success = true) "Token rescue failed"
    return s

/-- `grantRole` and `revokeRole` of `AccessControl`. -/
def changeRole (m : Msg Hash) (role : Role) (account : Address) (b : Bool) (s : State Hash) :
    Except String (Next (State Hash)) := do
  nonPayable m
  onlyRole .DEFAULT_ADMIN_ROLE "AccessControl: account is missing role" m s
  return .stop (setRole role account b s)

/-- `renounceRole` of `AccessControl` -/
def renounceRole (m : Msg Hash) (role : Role) (account : Address) (s : State Hash) :
    Except String (Next (State Hash)) := do
  nonPayable m
  require (account = m.sender) "AccessControl: can only renounce roles for self"
  return .stop (setRole role account false s)

/-- An entry point, by the message. -/
def enter (env : Env) (m : Msg Hash) (s : State Hash) : Except String (Next (State Hash)) :=
  match m.call with
  | .lock xmrAddress duration mpcMerkleRoot =>
      lock keccak256 env m xmrAddress duration mpcMerkleRoot s
  | .claim lockId mpcSignature recipient txHash => claim env m lockId mpcSignature recipient txHash s
  | .refund lockId => refund env m lockId s
  | .initiateBridge ethAmount xmrAmount xmrAddress =>
      initiateBridge keccak256 env m ethAmount xmrAmount xmrAddress s
  | .completeBridge requestId txHash mpcSignature =>
      completeBridge m requestId txHash mpcSignature s
  | .emergencyPause => emergencyPause m s
  | .emergencyUnpause => emergencyUnpause m s
  | .updateMPCNode node add => updateMPCNode m node add s
  | .updateThreshold newThreshold => updateThreshold m newThreshold s
  | .updateProtocolFee newFeeBps => updateProtocolFee m newFeeBps s
  | .collectFees => collectFees env m s
  | .rescueTokens token dest _ => rescueTokens env m token dest s
  | .grantRole role account => changeRole m role account true s
  | .revokeRole role account => changeRole m role account false s
  | .renounceRole role account => renounceRole m role account s
  | .receive => .error "Use lock() function"
  | .force => .ok (.stop { s with balance := s.balance + m.value })

def bridge : Contract where
  Env := Env
  Msg := Msg Hash
  State := State Hash
  enter := enter keccak256

/-- The constructor. The address may hold ether before. -/
def deploy (sender : Address) (funds : ℕ) (mpcNodes : List Address)
    (feeCollector insuranceFund : Address) : Except String (State Hash) := do
  require (3 ≤ mpcNodes.length) "Insufficient MPC nodes"
  require (feeCollector ≠ 0) "Invalid fee collector"
  require (mpcNodes.all (· ≠ 0) = true) "Invalid MPC node"
  return {
    balance := funds
    feeCollector
    insuranceFund
    hasRole := fun role account => if role = .MPC_ROLE then account ∈ mpcNodes else account = sender }

end Sthrip.Bridge
