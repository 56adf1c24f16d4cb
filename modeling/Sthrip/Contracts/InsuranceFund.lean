import Sthrip.Contracts.Solvency
import Sthrip.Python.Values

set_option autoImplicit false

/-! # The insurance fund

`contracts/InsuranceFund.sol`. The id of a claim is a hash of the sender, the time of the block, the
amount and the reason, so a sender can submit a claim a second time in the same block, and the first is
overwritten. `received`, the ether that came in by a call, and `transfers` are records that the contract
does not keep.

The fund keeps its books in every state that outside code can see, and pays a claim once, at the earliest
a day after the approval.
-/

namespace Sthrip.Insurance

open Evm
open Bridge (Bytes Address bytesBE bytesBE_length bytesBE_inj require checked require_bind_eq_ok
  checked_bind_eq_ok)

/-- `abi.encodePacked` of an address, two numbers and a string. -/
def packClaim (sender : Address) (timestamp amount : ℕ) (reason : Bytes) : Bytes :=
  bytesBE 20 sender.toNat ++ bytesBE 32 timestamp ++ bytesBE 32 amount ++ reason

/-! ## The state -/

inductive Role where
  | DEFAULT_ADMIN_ROLE | OPERATOR_ROLE | CLAIMANT_ROLE
  deriving DecidableEq

structure Claim where
  claimant : Address := 0
  amount : ℕ := 0
  reason : Bytes := []
  evidence : Bytes := []
  approved : Bool := false
  paid : Bool := false
  createdAt : ℕ := 0
  approvedAt : ℕ := 0

variable (Hash : Type)

inductive Event where
  | Deposit (sender : Address) (amount newTotal : ℕ)
  | ClaimSubmitted (claimId : Hash) (claimant : Address) (amount : ℕ) (reason : Bytes)
  | ClaimApproved (claimId : Hash) (amount : ℕ)
  | ClaimPaid (claimId : Hash) (claimant : Address) (amount : ℕ)
  | ClaimRejected (claimId : Hash) (reason : Bytes)

inductive Call where
  | deposit
  | submitClaim (amount : ℕ) (reason evidence : Bytes)
  | approveClaim (claimId : Hash)
  | executeClaim (claimId : Hash)
  | rejectClaim (claimId : Hash) (reason : Bytes)
  | setBridge (bridge : Address)
  | setMaxClaimAmount (maxAmount : ℕ)
  | grantRole (role : Role) (account : Address)
  | revokeRole (role : Role) (account : Address)
  | renounceRole (role : Role) (account : Address)
  /-- Ether without a call of a function. -/
  | receive
  /-- Ether that arrives without a call. -/
  | force

structure Msg where
  sender : Address
  value : ℕ
  call : Call Hash

/-- What the contract sent for a claim. -/
structure Transfer where
  claimId : Hash
  payee : Address
  amount : ℕ
  time : ℕ

structure State where
  /-- The ether of the contract. -/
  balance : ℕ
  claims : Hash → Claim := fun _ => {}
  deposits : Address → ℕ := fun _ => 0
  totalFunds : ℕ := 0
  totalClaims : ℕ := 0
  maxClaimAmount : ℕ
  bridge : Address := 0
  hasRole : Role → Address → Bool
  /-- The status of the `ReentrancyGuard`. -/
  entered : Bool := false
  events : List (Event Hash) := []
  received : ℕ := 0
  transfers : List (Transfer Hash) := []

structure Env where
  /-- `address(this)` -/
  this : Address
  timestamp : BitVec 256

/-! ## The functions -/

variable {Hash}

def nonPayable (m : Msg Hash) : Except String Unit := require (m.value = 0) ""

def onlyRole (role : Role) (m : Msg Hash) (s : State Hash) : Except String Unit :=
  require (s.hasRole role m.sender = true) "AccessControl: account is missing role"

def guardEnter (s : State Hash) : Except String (State Hash) := do
  require (s.entered = false) "ReentrancyGuard: reentrant call"
  return { s with entered := true }

def guardExit (s : State Hash) : State Hash := { s with entered := false }

def emit (e : Event Hash) (s : State Hash) : State Hash := { s with events := s.events ++ [e] }

def setRole (role : Role) (account : Address) (b : Bool) (s : State Hash) : State Hash :=
  { s with hasRole := fun r a => if r = role ∧ a = account then b else s.hasRole r a }

/-- The part of `deposit` and `receive` that is the same. The ether has arrived. -/
def addFunds (sender : Address) (value : ℕ) (s : State Hash) : Except String (State Hash) := do
  let totalFunds ← checked (s.totalFunds + value)
  return emit (.Deposit sender value totalFunds) { s with totalFunds, received := s.received + value }

theorem addFunds_eq_ok {sender : Address} {value : ℕ} {s s' : State Hash} :
    addFunds sender value s = .ok s' ↔ s.totalFunds + value < 2 ^ 256 ∧
      s' = emit (.Deposit sender value (s.totalFunds + value))
        { s with totalFunds := s.totalFunds + value, received := s.received + value } := by
  rw [addFunds, checked_bind_eq_ok]
  refine and_congr_right fun _ => ?_
  constructor
  · exact fun h => (Except.ok.inj h).symm
  · rintro rfl
    rfl

theorem toOption_eq_some {α : Type} {x : Except String α} {a : α} (h : x.toOption = some a) :
    x = .ok a := by
  cases x with
  | error e => cases h
  | ok b => rw [Option.some.inj h]

def deposit (m : Msg Hash) (s : State Hash) : Except String (Next (State Hash)) := do
  let s := { s with balance := s.balance + m.value }
  require (0 < m.value) "Amount must be > 0"
  let deposits ← checked (s.deposits m.sender + m.value)
  let s := { s with deposits := Function.update s.deposits m.sender deposits }
  let s ← addFunds m.sender m.value s
  return .stop s

def receive (m : Msg Hash) (s : State Hash) : Except String (Next (State Hash)) := do
  let s ← addFunds m.sender m.value { s with balance := s.balance + m.value }
  return .stop s

/-- The state that the callee of `payee.call{value: amount}("")` sees. The ether that the contract sends
to itself stays and goes through `receive`. -/
def pay (env : Env) (claimId : Hash) (payee : Address) (amount : ℕ) (s : State Hash) :
    Option (State Hash) :=
  if s.balance < amount then none
  else
    let s := { s with transfers := s.transfers ++ [⟨claimId, payee, amount, env.timestamp.toNat⟩] }
    if payee = env.this then (addFunds env.this amount s).toOption
    else some { s with balance := s.balance - amount }

variable [DecidableEq Hash] (keccak256 : Bytes → Hash)

def setClaim (claimId : Hash) (claim : Claim) (s : State Hash) : State Hash :=
  { s with claims := Function.update s.claims claimId claim }

def submitClaim (env : Env) (m : Msg Hash) (amount : ℕ) (reason evidence : Bytes) (s : State Hash) :
    Except String (Next (State Hash)) := do
  nonPayable m
  require (amount ≤ s.maxClaimAmount) "Amount too high"
  require (amount ≤ s.totalFunds) "Insufficient funds"
  require (0 < reason.length) "Reason required"
  let claimId := keccak256 (packClaim m.sender env.timestamp.toNat amount reason)
  let s := setClaim claimId
    { claimant := m.sender, amount, reason, evidence, createdAt := env.timestamp.toNat } s
  let totalClaims ← checked (s.totalClaims + 1)
  let s := { s with totalClaims }
  return .stop (emit (.ClaimSubmitted claimId m.sender amount reason) s)

def approveClaim (env : Env) (m : Msg Hash) (claimId : Hash) (s : State Hash) :
    Except String (Next (State Hash)) := do
  nonPayable m
  onlyRole .OPERATOR_ROLE m s
  let claim := s.claims claimId
  require (0 < claim.amount) "Claim not found"
  require (claim.approved = false) "Already approved"
  require (claim.paid = false) "Already paid"
  let s := setClaim claimId { claim with approved := true, approvedAt := env.timestamp.toNat } s
  return .stop (emit (.ClaimApproved claimId claim.amount) s)

/-- `1 days` -/
def TIMELOCK : ℕ := 24 * 3600

def executeClaim (env : Env) (m : Msg Hash) (claimId : Hash) (s : State Hash) :
    Except String (Next (State Hash)) := do
  nonPayable m
  let s ← guardEnter s
  let claim := s.claims claimId
  require (claim.approved = true) "Not approved"
  require (claim.paid = false) "Already paid"
  let unlocked ← checked (claim.approvedAt + TIMELOCK)
  require (unlocked ≤ env.timestamp.toNat) "Timelock active"
  let s := setClaim claimId { claim with paid := true } s
  require (claim.amount ≤ s.totalFunds) "Panic(0x11)"
  let s := { s with totalFunds := s.totalFunds - claim.amount }
  return .call s (pay env claimId claim.claimant claim.amount s) fun success s => do
    require (success = true) "Transfer failed"
    let claim := s.claims claimId
    return guardExit (emit (.ClaimPaid claimId claim.claimant claim.amount) s)

/-- An approval is withdrawn. The time of it stays. -/
def rejectClaim (m : Msg Hash) (claimId : Hash) (reason : Bytes) (s : State Hash) :
    Except String (Next (State Hash)) := do
  nonPayable m
  onlyRole .OPERATOR_ROLE m s
  let claim := s.claims claimId
  require (0 < claim.amount) "Claim not found"
  require (claim.paid = false) "Already paid"
  let s := setClaim claimId { claim with approved := false } s
  return .stop (emit (.ClaimRejected claimId reason) s)

def setBridge (m : Msg Hash) (bridge : Address) (s : State Hash) :
    Except String (Next (State Hash)) := do
  nonPayable m
  onlyRole .DEFAULT_ADMIN_ROLE m s
  return .stop { s with bridge }

def setMaxClaimAmount (m : Msg Hash) (maxAmount : ℕ) (s : State Hash) :
    Except String (Next (State Hash)) := do
  nonPayable m
  onlyRole .DEFAULT_ADMIN_ROLE m s
  return .stop { s with maxClaimAmount := maxAmount }

/-- `grantRole` and `revokeRole` of `AccessControl`. -/
def changeRole (m : Msg Hash) (role : Role) (account : Address) (b : Bool) (s : State Hash) :
    Except String (Next (State Hash)) := do
  nonPayable m
  onlyRole .DEFAULT_ADMIN_ROLE m s
  return .stop (setRole role account b s)

/-- `renounceRole` of `AccessControl` -/
def renounceRole (m : Msg Hash) (role : Role) (account : Address) (s : State Hash) :
    Except String (Next (State Hash)) := do
  nonPayable m
  require (account = m.sender) "AccessControl: can only renounce roles for self"
  return .stop (setRole role account false s)

/-- An entry point, by the message. -/
def enter (env : Env) (m : Msg Hash) (s : State Hash) : Except String (Next (State Hash)) :=
  match m.call with
  | .deposit => deposit m s
  | .submitClaim amount reason evidence => submitClaim keccak256 env m amount reason evidence s
  | .approveClaim claimId => approveClaim env m claimId s
  | .executeClaim claimId => executeClaim env m claimId s
  | .rejectClaim claimId reason => rejectClaim m claimId reason s
  | .setBridge bridge => setBridge m bridge s
  | .setMaxClaimAmount maxAmount => setMaxClaimAmount m maxAmount s
  | .grantRole role account => changeRole m role account true s
  | .revokeRole role account => changeRole m role account false s
  | .renounceRole role account => renounceRole m role account s
  | .receive => receive m s
  | .force => .ok (.stop { s with balance := s.balance + m.value })

def fund : Contract where
  Env := Env
  Msg := Msg Hash
  State := State Hash
  enter := enter keccak256

/-- The constructor. The address may hold ether before. -/
def deploy (sender : Address) (funds maxClaimAmount : ℕ) : State Hash :=
  { balance := funds
    maxClaimAmount
    hasRole := fun role account =>
      (role = .DEFAULT_ADMIN_ROLE ∨ role = .OPERATOR_ROLE) ∧ account = sender }

/-! ## What the invariant is about -/

omit [DecidableEq Hash] in
/-- The time of a claim can be read off its packed bytes. -/
theorem packClaim_time {sender sender' : Address} {time time' amount amount' : ℕ}
    {reason reason' : Bytes} (ht : time < 2 ^ 256) (ht' : time' < 2 ^ 256)
    (h : packClaim sender time amount reason = packClaim sender' time' amount' reason') :
    time = time' := by
  simp only [packClaim, List.append_assoc] at h
  obtain ⟨-, h⟩ := List.append_inj h (by simp only [bytesBE_length])
  obtain ⟨htime, -⟩ := List.append_inj h (by simp only [bytesBE_length])
  exact bytesBE_inj (w := 32) ht ht' htime

/-- A claim in the state at time `now`. -/
structure Claim.Valid (now : ℕ) (id : Hash) (c : Claim) : Prop where
  stamped : c = {} ∨ id = keccak256 (packClaim c.claimant c.createdAt c.amount c.reason)
  created : c.createdAt ≤ now
  approved : c.approved = true → 0 < c.amount ∧ c.createdAt ≤ c.approvedAt
  paid : c.paid = true → c.approved = true ∧ c.approvedAt + TIMELOCK ≤ now

def State.payoutsOf (s : State Hash) (id : Hash) : List (Transfer Hash) :=
  s.transfers.filter fun t => t.claimId = id

def State.paidOut (s : State Hash) : ℕ := (s.transfers.map Transfer.amount).sum

/-- A transfer is what the claim was for, to the claimant, a day after the approval at the earliest. -/
structure State.Rightful (s : State Hash) (t : Transfer Hash) : Prop where
  paid : (s.claims t.claimId).paid = true
  approved : (s.claims t.claimId).approved = true
  payee : t.payee = (s.claims t.claimId).claimant
  amount : t.amount = (s.claims t.claimId).amount
  pos : 0 < t.amount
  time : (s.claims t.claimId).approvedAt + TIMELOCK ≤ t.time

structure Valid (now : ℕ) (s : State Hash) : Prop where
  claims : ∀ id, (s.claims id).Valid keccak256 now id
  covered : s.totalFunds ≤ s.balance
  books : s.totalFunds + s.paidOut = s.received
  once : ∀ id, (s.payoutsOf id).length = if (s.claims id).paid = true then 1 else 0
  rightful : ∀ t ∈ s.transfers, s.Rightful t

variable {keccak256} {now : ℕ} {s s' : State Hash}

omit [DecidableEq Hash] in
theorem Claim.Valid.later {id : Hash} {c : Claim} (h : c.Valid keccak256 now id) {now' : ℕ}
    (hle : now ≤ now') : c.Valid keccak256 now' id where
  stamped := h.stamped
  created := h.created.trans hle
  approved := h.approved
  paid hpaid := ⟨(h.paid hpaid).1, (h.paid hpaid).2.trans hle⟩

theorem Valid.later (h : Valid keccak256 now s) {now' : ℕ} (hle : now ≤ now') :
    Valid keccak256 now' s where
  claims id := (h.claims id).later hle
  covered := h.covered
  books := h.books
  once := h.once
  rightful := h.rightful

/-- What `Valid` reads is the same in two states, but for more ether. -/
structure SameBooks (s s' : State Hash) : Prop where
  claims : s'.claims = s.claims
  balance : s.balance ≤ s'.balance
  totalFunds : s'.totalFunds = s.totalFunds
  received : s'.received = s.received
  transfers : s'.transfers = s.transfers

omit [DecidableEq Hash] in
theorem State.Rightful.congr {t : Transfer Hash} (h : s.Rightful t)
    (hclaim : s'.claims t.claimId = s.claims t.claimId) : s'.Rightful t where
  paid := hclaim ▸ h.paid
  approved := hclaim ▸ h.approved
  payee := hclaim ▸ h.payee
  amount := hclaim ▸ h.amount
  pos := h.pos
  time := hclaim ▸ h.time

theorem Valid.congr (h : Valid keccak256 now s) (hsame : SameBooks s s') :
    Valid keccak256 now s' := by
  obtain ⟨hclaims, hbalance, hfunds, hreceived, htransfers⟩ := hsame
  constructor
  · rw [hclaims]
    exact h.claims
  · rw [hfunds]
    exact h.covered.trans hbalance
  · rw [State.paidOut, hfunds, htransfers, hreceived]
    exact h.books
  · simp only [State.payoutsOf, htransfers, hclaims]
    exact h.once
  · intro t ht
    rw [htransfers] at ht
    exact (h.rightful t ht).congr (by rw [hclaims])

/-! ## Steps of the books -/

/-- A claim that is not paid is written, and is not paid then. -/
theorem Valid.setClaim (h : Valid keccak256 now s) {id : Hash} {c : Claim}
    (hc : c.Valid keccak256 now id) (hopen : (s.claims id).paid = false) (hopen' : c.paid = false) :
    Valid keccak256 now (setClaim id c s) := by
  have hother {i : Hash} (hi : i ≠ id) : (Insurance.setClaim id c s).claims i = s.claims i :=
    Function.update_of_ne hi ..
  have hself : (Insurance.setClaim id c s).claims id = c := Function.update_self ..
  constructor
  · intro i
    by_cases hi : i = id
    · subst hi
      rw [hself]
      exact hc
    · rw [hother hi]
      exact h.claims i
  · exact h.covered
  · exact h.books
  · intro i
    have honce := h.once i
    by_cases hi : i = id
    · subst hi
      rw [hself, hopen', ← hopen]
      exact honce
    · rw [hother hi]
      exact honce
  · intro t ht
    have hright := h.rightful t ht
    apply hright.congr
    apply hother
    rintro rfl
    rw [hright.paid] at hopen
    cases hopen

/-- Ether that came in. -/
theorem Valid.addFunds (h : Valid keccak256 now s) {sender : Address} {value : ℕ}
    (hadd : addFunds sender value { s with balance := s.balance + value } = .ok s') :
    Valid keccak256 now s' := by
  obtain ⟨-, rfl⟩ := addFunds_eq_ok.mp hadd
  have hcovered := h.covered
  have hbooks := h.books
  constructor
  · exact h.claims
  · show s.totalFunds + value ≤ s.balance + value
    omega
  · show s.totalFunds + value + s.paidOut = s.received + value
    omega
  · exact h.once
  · exact fun t ht => (h.rightful t ht).congr rfl

/-- A claim is marked as paid and a transfer is made for it. -/
theorem Valid.payOut (h : Valid keccak256 now s) {id : Hash}
    (happroved : (s.claims id).approved = true) (hopen : (s.claims id).paid = false)
    (htime : (s.claims id).approvedAt + TIMELOCK ≤ now)
    (hclaims : s'.claims = Function.update s.claims id { s.claims id with paid := true })
    (htransfers : s'.transfers
      = s.transfers ++ [⟨id, (s.claims id).claimant, (s.claims id).amount, now⟩])
    (hcovered : s'.totalFunds ≤ s'.balance)
    (hbooks : s'.totalFunds + (s.paidOut + (s.claims id).amount) = s'.received) :
    Valid keccak256 now s' := by
  have hother {i : Hash} (hi : i ≠ id) : s'.claims i = s.claims i := by
    rw [hclaims, Function.update_of_ne hi]
  have hself : s'.claims id = { s.claims id with paid := true } := by
    rw [hclaims, Function.update_self]
  have hvalid := h.claims id
  constructor
  · intro i
    by_cases hi : i = id
    · subst hi
      rw [hself]
      refine ⟨?_, hvalid.created, hvalid.approved, fun _ => ⟨happroved, htime⟩⟩
      refine Or.inr (hvalid.stamped.resolve_left ?_)
      intro hempty
      rw [hempty] at happroved
      cases happroved
    · rw [hother hi]
      exact h.claims i
  · exact hcovered
  · rw [State.paidOut, htransfers]
    simpa [State.paidOut] using hbooks
  · intro i
    have honce := h.once i
    rw [State.payoutsOf, htransfers, List.filter_append, List.length_append]
    change (s.payoutsOf i).length + _ = _
    by_cases hi : i = id
    · subst hi
      rw [honce, hopen, hself]
      simp
    · rw [honce, hother hi]
      simp [Ne.symm hi]
  · intro t ht
    rw [htransfers] at ht
    rcases List.mem_append.mp ht with ht | ht
    · have hright := h.rightful t ht
      apply hright.congr
      apply hother
      rintro rfl
      rw [hright.paid] at hopen
      cases hopen
    · rw [List.mem_singleton.mp ht]
      refine ⟨?_, ?_, ?_, ?_, (hvalid.approved happroved).1, ?_⟩ <;> rw [hself]
      · exact happroved
      · exact htime

/-! ## The entry points -/

variable {env : Env} {m : Msg Hash} {n : Next (State Hash)}

/-- A claim of this block is not paid yet. -/
theorem Valid.unpaid (hinj : Function.Injective keccak256)
    (h : Valid keccak256 env.timestamp.toNat s) (sender : Address) (amount : ℕ) (reason : Bytes) :
    (s.claims (keccak256 (packClaim sender env.timestamp.toNat amount reason))).paid = false := by
  by_contra hpaid
  rw [Bool.not_eq_false] at hpaid
  have hvalid := h.claims (keccak256 (packClaim sender env.timestamp.toNat amount reason))
  obtain ⟨happroved, hwait⟩ := hvalid.paid hpaid
  have hcreated := (hvalid.approved happroved).2
  rcases hvalid.stamped with hempty | hid
  · rw [hempty] at hpaid
    cases hpaid
  · have hnow : env.timestamp.toNat < 2 ^ 256 := env.timestamp.isLt
    have htime := packClaim_time hnow (hvalid.created.trans_lt hnow) (hinj hid)
    rw [TIMELOCK] at hwait
    omega

theorem submitClaim_upholds (hinj : Function.Injective keccak256)
    (h : Valid keccak256 env.timestamp.toNat s) {amount : ℕ} {reason evidence : Bytes}
    (hrun : submitClaim keccak256 env m amount reason evidence s = .ok n) :
    n.Upholds (Valid keccak256 env.timestamp.toNat) := by
  simp only [submitClaim, nonPayable, require_bind_eq_ok, checked_bind_eq_ok] at hrun
  obtain ⟨-, -, -, -, -, hn⟩ := hrun
  cases hn
  have hset := h.setClaim (c := ⟨m.sender, amount, reason, evidence, false, false, _, 0⟩)
    ⟨Or.inr rfl, le_rfl, ?_, ?_⟩ (h.unpaid hinj m.sender amount reason) rfl
  · exact hset.congr ⟨rfl, le_rfl, rfl, rfl, rfl⟩
  · intro happroved
    cases happroved
  · intro hpaid
    cases hpaid

theorem approveClaim_upholds (h : Valid keccak256 env.timestamp.toNat s) {claimId : Hash}
    (hrun : approveClaim env m claimId s = .ok n) :
    n.Upholds (Valid keccak256 env.timestamp.toNat) := by
  simp only [approveClaim, nonPayable, onlyRole, require_bind_eq_ok] at hrun
  obtain ⟨-, -, hfound, -, hopen, hn⟩ := hrun
  cases hn
  have hvalid := h.claims claimId
  have hset := h.setClaim (c := { s.claims claimId with
      approved := true, approvedAt := env.timestamp.toNat }) ?_ hopen hopen
  · exact hset.congr ⟨rfl, le_rfl, rfl, rfl, rfl⟩
  · refine ⟨Or.inr (hvalid.stamped.resolve_left ?_), hvalid.created, ?_, ?_⟩
    · intro hempty
      rw [hempty] at hfound
      exact Nat.lt_irrefl 0 hfound
    · exact fun _ => ⟨hfound, hvalid.created⟩
    · intro hpaid
      rw [hopen] at hpaid
      cases hpaid

theorem rejectClaim_upholds (h : Valid keccak256 now s) {claimId : Hash} {reason : Bytes}
    (hrun : rejectClaim m claimId reason s = .ok n) : n.Upholds (Valid keccak256 now) := by
  simp only [rejectClaim, nonPayable, onlyRole, require_bind_eq_ok] at hrun
  obtain ⟨-, -, hfound, hopen, hn⟩ := hrun
  cases hn
  have hvalid := h.claims claimId
  have hset := h.setClaim (c := { s.claims claimId with approved := false }) ?_ hopen hopen
  · exact hset.congr ⟨rfl, le_rfl, rfl, rfl, rfl⟩
  · refine ⟨Or.inr (hvalid.stamped.resolve_left ?_), hvalid.created, nofun, ?_⟩
    · intro hempty
      rw [hempty] at hfound
      exact Nat.lt_irrefl 0 hfound
    · intro hpaid
      rw [hopen] at hpaid
      cases hpaid

theorem executeClaim_upholds (h : Valid keccak256 env.timestamp.toNat s) {claimId : Hash}
    (hrun : executeClaim env m claimId s = .ok n) :
    n.Upholds (Valid keccak256 env.timestamp.toNat) := by
  simp only [executeClaim, nonPayable, guardEnter, require_bind_eq_ok, checked_bind_eq_ok, bind_assoc,
    pure_bind] at hrun
  obtain ⟨-, -, happroved, hopen, -, htime, hfunds, hn⟩ := hrun
  cases hn
  refine ⟨?_, ?_, ?_⟩
  · intro t' hresume
    cases hresume
  · intro s₂ hpay
    have hcovered := h.covered
    have hbooks := h.books
    have hfunds : (s.claims claimId).amount ≤ s.totalFunds := hfunds
    rw [pay] at hpay
    split at hpay
    · cases hpay
    · split at hpay
      · -- the fund pays itself
        obtain ⟨-, rfl⟩ := addFunds_eq_ok.mp (toOption_eq_some hpay)
        refine h.payOut happroved hopen htime rfl rfl ?_ ?_
        · show s.totalFunds - (s.claims claimId).amount + (s.claims claimId).amount ≤ s.balance
          omega
        · show s.totalFunds - (s.claims claimId).amount + (s.claims claimId).amount
            + (s.paidOut + (s.claims claimId).amount) = s.received + (s.claims claimId).amount
          omega
      · cases hpay
        refine h.payOut happroved hopen htime rfl rfl ?_ ?_
        · show s.totalFunds - (s.claims claimId).amount ≤ s.balance - (s.claims claimId).amount
          omega
        · show s.totalFunds - (s.claims claimId).amount + (s.paidOut + (s.claims claimId).amount)
            = s.received
          omega
  · intro t t' ht hresume
    cases hresume
    exact ht.congr ⟨rfl, le_rfl, rfl, rfl, rfl⟩

theorem deposit_upholds (h : Valid keccak256 now s) (hrun : deposit m s = .ok n) :
    n.Upholds (Valid keccak256 now) := by
  simp only [deposit, require_bind_eq_ok, checked_bind_eq_ok] at hrun
  obtain ⟨-, -, hrun⟩ := hrun
  obtain ⟨s', hadd, hn⟩ := Python.bind_eq_ok.mp hrun
  cases hn
  have hsame : Valid keccak256 now { s with
      deposits := Function.update s.deposits m.sender (s.deposits m.sender + m.value) } :=
    h.congr ⟨rfl, le_rfl, rfl, rfl, rfl⟩
  exact hsame.addFunds hadd

theorem receive_upholds (h : Valid keccak256 now s) (hrun : receive m s = .ok n) :
    n.Upholds (Valid keccak256 now) := by
  obtain ⟨s', hadd, hn⟩ := Python.bind_eq_ok.mp hrun
  cases hn
  exact h.addFunds hadd

theorem enter_upholds (hinj : Function.Injective keccak256)
    (h : Valid keccak256 env.timestamp.toNat s) (hrun : enter keccak256 env m s = .ok n) :
    n.Upholds (Valid keccak256 env.timestamp.toNat) := by
  -- what is left after the functions of the claims changes nothing that the books have
  have hset {s' : State Hash} (hn : n = .stop s') (hsame : SameBooks s s') :
      n.Upholds (Valid keccak256 env.timestamp.toNat) := by
    rw [hn]
    exact h.congr hsame
  rw [enter] at hrun
  split at hrun
  case h_1 => exact deposit_upholds h hrun
  case h_2 => exact submitClaim_upholds hinj h hrun
  case h_3 => exact approveClaim_upholds h hrun
  case h_4 => exact executeClaim_upholds h hrun
  case h_5 => exact rejectClaim_upholds h hrun
  case h_6 =>
    simp only [setBridge, nonPayable, onlyRole, require_bind_eq_ok] at hrun
    obtain ⟨-, -, hn⟩ := hrun
    exact hset (Except.ok.inj hn).symm ⟨rfl, le_rfl, rfl, rfl, rfl⟩
  case h_7 =>
    simp only [setMaxClaimAmount, nonPayable, onlyRole, require_bind_eq_ok] at hrun
    obtain ⟨-, -, hn⟩ := hrun
    exact hset (Except.ok.inj hn).symm ⟨rfl, le_rfl, rfl, rfl, rfl⟩
  case h_8 | h_9 =>
    simp only [changeRole, nonPayable, onlyRole, require_bind_eq_ok] at hrun
    obtain ⟨-, -, hn⟩ := hrun
    exact hset (Except.ok.inj hn).symm ⟨rfl, le_rfl, rfl, rfl, rfl⟩
  case h_10 =>
    simp only [renounceRole, nonPayable, require_bind_eq_ok] at hrun
    obtain ⟨-, -, hn⟩ := hrun
    exact hset (Except.ok.inj hn).symm ⟨rfl, le_rfl, rfl, rfl, rfl⟩
  case h_11 => exact receive_upholds h hrun
  case h_12 => exact hset (Except.ok.inj hrun).symm ⟨rfl, Nat.le_add_right _ _, rfl, rfl, rfl⟩

/-! ## Every run -/

/-- What a state shows of the fund's promises. -/
structure Sound (s : State Hash) : Prop where
  covered : s.totalFunds ≤ s.balance
  /-- What came in is in the fund or was paid out. -/
  books : s.totalFunds + s.paidOut = s.received
  once : ∀ id, (s.payoutsOf id).length = if (s.claims id).paid = true then 1 else 0
  rightful : ∀ t ∈ s.transfers, s.Rightful t

theorem deploy_valid (sender : Address) (funds maxClaimAmount now : ℕ) :
    Valid keccak256 now (deploy sender funds maxClaimAmount : State Hash) where
  claims _ := ⟨Or.inl rfl, Nat.zero_le _, nofun, nofun⟩
  covered := Nat.zero_le _
  books := rfl
  once _ := rfl
  rightful := nofun

/-- The invariant holds at some time in every state that is reached or seen by a claimant. -/
theorem seen_valid (hinj : Function.Injective keccak256) (sender : Address) (funds maxClaimAmount : ℕ)
    (txs : List (Env × Tx (Msg Hash)))
    (hsorted : txs.Pairwise fun t t' => t.1.timestamp ≤ t'.1.timestamp) :
    ∀ s' ∈ (fund keccak256).seenByAll txs (deploy sender funds maxClaimAmount),
      ∃ now, Valid keccak256 now s' := by
  have hdeploy (now : ℕ) : Valid keccak256 now (deploy sender funds maxClaimAmount) :=
    deploy_valid sender funds maxClaimAmount now
  have hall (env : Env) : (fund keccak256).Upholds env (Valid keccak256 env.timestamp.toNat) :=
    fun _ _ _ h hrun => enter_upholds hinj h hrun
  refine Contract.Upholds.seenByAll (c := fund keccak256) (r := fun e e' => e.timestamp ≤ e'.timestamp)
    hall ?_ (fun env _ h => ⟨env.timestamp.toNat, h⟩) ⟨0, hdeploy 0⟩ txs (fun _ _ => hdeploy _) hsorted
  exact fun env env' s hle h => h.later hle

/-- **The fund covers its books and pays a claim once**, in every state that is reached or seen by a
claimant, whoever sends the messages and whatever a claimant does when it is paid. -/
theorem fund_sound (hinj : Function.Injective keccak256) (sender : Address)
    (funds maxClaimAmount : ℕ) (txs : List (Env × Tx (Msg Hash)))
    (hsorted : txs.Pairwise fun t t' => t.1.timestamp ≤ t'.1.timestamp) :
    ∀ s' ∈ (fund keccak256).seenByAll txs (deploy sender funds maxClaimAmount), Sound s' := by
  intro s' hmem
  obtain ⟨now, hvalid⟩ := seen_valid hinj sender funds maxClaimAmount txs hsorted s' hmem
  exact ⟨hvalid.covered, hvalid.books, hvalid.once, hvalid.rightful⟩

/-- A claimant that has the claim executed again and submits it again while it is paid. -/
def reentrantClaim : List (Env × Tx (Msg Bytes)) :=
  let claimId := packClaim 7 1000 (10 ^ 18) [65]
  let submit : Msg Bytes := ⟨7, 0, .submitClaim (10 ^ 18) [65] []⟩
  let execute : Msg Bytes := ⟨8, 0, .executeClaim claimId⟩
  [(⟨99, 900⟩, .mk ⟨2, 3 * 10 ^ 18, .deposit⟩ [] true),
    (⟨99, 1000⟩, .mk submit [] true),
    (⟨99, 1000⟩, .mk ⟨1, 0, .approveClaim claimId⟩ [] true),
    (⟨99, 87400⟩, .mk execute [.mk execute [] true, .mk submit [] true] true)]

/-- The state after that. -/
def paidFund : State Bytes :=
  ((fund id).seenByAll reentrantClaim (deploy 1 0 (10 ^ 19))).getLast ((fund id).seenByAll_ne_nil _ _)

theorem fund_sound_reentrantClaim : Sound paidFund :=
  fund_sound Function.injective_id 1 0 (10 ^ 19) reentrantClaim (by simp [reentrantClaim]) paidFund
    (List.getLast_mem _)

example : paidFund.totalFunds = 2 * 10 ^ 18 ∧ paidFund.transfers.length = 1 ∧ paidFund.totalClaims = 2 :=
  by decide +kernel

/-! ## Approved claims -/

/-- What every message leaves, whatever happens during it. -/
structure Goes (s s' : State Hash) : Prop where
  entered : s'.entered = s.entered
  transfers : ∀ t ∈ s.transfers, t ∈ s'.transfers

omit [DecidableEq Hash] in
theorem Goes.refl (s : State Hash) : Goes s s := ⟨rfl, fun _ h => h⟩

omit [DecidableEq Hash] in
theorem Goes.trans {s t u : State Hash} (h : Goes s t) (h' : Goes t u) : Goes s u :=
  ⟨h'.entered.trans h.entered, fun x hx => h'.transfers x (h.transfers x hx)⟩

omit [DecidableEq Hash] in
theorem addFunds_goes {sender : Address} {value : ℕ} {s s₁ s' : State Hash}
    (hadd : addFunds sender value s₁ = .ok s') (hgoes : Goes s s₁) : Goes s s' := by
  obtain ⟨-, rfl⟩ := addFunds_eq_ok.mp hadd
  exact ⟨hgoes.entered, hgoes.transfers⟩

omit [DecidableEq Hash] in
/-- The callee of a payment has the transfer on record. -/
theorem transfers_pay {claimId : Hash} {payee : Address} {amount : ℕ} {s₁ s₂ : State Hash}
    (hpay : pay env claimId payee amount s₁ = some s₂) :
    s₂.transfers = s₁.transfers ++ [⟨claimId, payee, amount, env.timestamp.toNat⟩] := by
  rw [pay] at hpay
  split at hpay
  · cases hpay
  · split at hpay
    · obtain ⟨-, rfl⟩ := addFunds_eq_ok.mp (toOption_eq_some hpay)
      rfl
    · cases hpay
      rfl

theorem executeClaim_leaves {claimId : Hash} (hrun : executeClaim env m claimId s = .ok n) :
    n.Leaves Goes s := by
  simp only [executeClaim, nonPayable, guardEnter, require_bind_eq_ok, checked_bind_eq_ok, bind_assoc,
    pure_bind] at hrun
  obtain ⟨-, hentered, -, -, -, -, -, hn⟩ := hrun
  cases hn
  refine ⟨?_, ?_⟩
  · intro t' hresume
    cases hresume
  · intro s₂ t t' hpay ht hresume
    cases hresume
    refine ⟨hentered.symm, fun x hx => ht.transfers x ?_⟩
    rw [transfers_pay hpay]
    exact List.mem_append_left _ hx

theorem enter_leaves (hrun : enter keccak256 env m s = .ok n) : n.Leaves Goes s := by
  have hsame {s' : State Hash} (hn : n = .stop s') (he : s'.entered = s.entered)
      (ht : s'.transfers = s.transfers) : n.Leaves Goes s := by
    rw [hn]
    exact ⟨he, fun x hx => ht ▸ hx⟩
  rw [enter] at hrun
  split at hrun
  case h_1 =>
    simp only [deposit, require_bind_eq_ok, checked_bind_eq_ok] at hrun
    obtain ⟨-, -, hrun⟩ := hrun
    obtain ⟨s', hadd, hn⟩ := Python.bind_eq_ok.mp hrun
    cases hn
    exact addFunds_goes hadd ⟨rfl, fun _ h => h⟩
  case h_2 =>
    simp only [submitClaim, nonPayable, require_bind_eq_ok, checked_bind_eq_ok] at hrun
    obtain ⟨-, -, -, -, -, hn⟩ := hrun
    exact hsame (Except.ok.inj hn).symm rfl rfl
  case h_3 =>
    simp only [approveClaim, nonPayable, onlyRole, require_bind_eq_ok] at hrun
    obtain ⟨-, -, -, -, -, hn⟩ := hrun
    exact hsame (Except.ok.inj hn).symm rfl rfl
  case h_4 => exact executeClaim_leaves hrun
  case h_5 =>
    simp only [rejectClaim, nonPayable, onlyRole, require_bind_eq_ok] at hrun
    obtain ⟨-, -, -, -, hn⟩ := hrun
    exact hsame (Except.ok.inj hn).symm rfl rfl
  case h_6 =>
    simp only [setBridge, nonPayable, onlyRole, require_bind_eq_ok] at hrun
    obtain ⟨-, -, hn⟩ := hrun
    exact hsame (Except.ok.inj hn).symm rfl rfl
  case h_7 =>
    simp only [setMaxClaimAmount, nonPayable, onlyRole, require_bind_eq_ok] at hrun
    obtain ⟨-, -, hn⟩ := hrun
    exact hsame (Except.ok.inj hn).symm rfl rfl
  case h_8 | h_9 =>
    simp only [changeRole, nonPayable, onlyRole, require_bind_eq_ok] at hrun
    obtain ⟨-, -, hn⟩ := hrun
    exact hsame (Except.ok.inj hn).symm rfl rfl
  case h_10 =>
    simp only [renounceRole, nonPayable, require_bind_eq_ok] at hrun
    obtain ⟨-, -, hn⟩ := hrun
    exact hsame (Except.ok.inj hn).symm rfl rfl
  case h_11 =>
    obtain ⟨s', hadd, hn⟩ := Python.bind_eq_ok.mp hrun
    cases hn
    exact addFunds_goes hadd ⟨rfl, fun _ h => h⟩
  case h_12 => exact hsame (Except.ok.inj hrun).symm rfl rfl

theorem fund_leaves (env : Env) : (fund keccak256).Leaves env Goes :=
  fun _ _ _ hrun => enter_leaves hrun

variable (keccak256) in
/-- Anyone can have the claim paid a day after its approval, whatever the claimant does while it is
paid. -/
def State.Payable (s : State Hash) (id : Hash) : Prop :=
  ∀ (env : Env) (sender : Address) (inner : List (Tx (Msg Hash))),
    (s.claims id).approvedAt + TIMELOCK ≤ env.timestamp.toNat → (s.claims id).claimant ≠ env.this →
    ∃ s', (fund keccak256).exec env (.mk ⟨sender, 0, .executeClaim id⟩ inner true) s = (.ok (), s')
      ∧ ⟨id, (s.claims id).claimant, (s.claims id).amount, env.timestamp.toNat⟩ ∈ s'.transfers

omit [DecidableEq Hash] in
theorem pay_of_covered {id : Hash} {payee : Address} {amount : ℕ} (hcovered : amount ≤ s.balance)
    (hpayee : payee ≠ env.this) :
    ∃ s₂, pay env id payee amount s = some s₂ := by
  rw [pay, if_neg (Nat.not_lt.mpr hcovered)]
  exact ⟨_, if_neg hpayee⟩

theorem payable_of_covered (hcovered : s.totalFunds ≤ s.balance) (hentered : s.entered = false) {id : Hash}
    (happroved : (s.claims id).approved = true) (hopen : (s.claims id).paid = false)
    (hfunds : (s.claims id).amount ≤ s.totalFunds) : s.Payable keccak256 id := by
  intro env sender inner htime hself
  have hwide : (s.claims id).approvedAt + TIMELOCK < 2 ^ 256 := htime.trans_lt env.timestamp.isLt
  let s₁ : State Hash :=
    { setClaim id { s.claims id with paid := true } { s with entered := true } with
      totalFunds := s.totalFunds - (s.claims id).amount }
  obtain ⟨s₂, hpay⟩ : ∃ s₂, pay env id (s.claims id).claimant (s.claims id).amount s₁ = some s₂ :=
    pay_of_covered (hfunds.trans hcovered) hself
  have hrun : ∃ resume, executeClaim env ⟨sender, 0, .executeClaim id⟩ id s
      = .ok (.call s₁ (pay env id (s.claims id).claimant (s.claims id).amount s₁) resume)
        ∧ ∀ t, ∃ t', resume true t = .ok t' ∧ t'.transfers = t.transfers := by
    simp only [executeClaim, nonPayable, guardEnter, require_bind_eq_ok, checked_bind_eq_ok, bind_assoc,
      pure_bind]
    refine ⟨_, ⟨trivial, hentered, happroved, hopen, hwide, htime, hfunds, rfl⟩, ?_⟩
    exact fun t => ⟨_, rfl, rfl⟩
  obtain ⟨resume, henter, hresume⟩ := hrun
  rw [hpay] at henter
  obtain ⟨t', ht', htransfers⟩ := hresume ((fund keccak256).execAll env inner s₂)
  refine ⟨t', Contract.exec_call henter ht', ?_⟩
  have hgoes := Contract.Leaves.execAll (c := fund keccak256) (fund_leaves env) Goes.refl
    (fun _ _ _ => Goes.trans) s₂ inner
  rw [htransfers]
  refine hgoes.transfers _ ?_
  rw [transfers_pay hpay]
  exact List.mem_append_right _ List.mem_cons_self

/-- **An approved claim can be paid** after any transactions, as long as the fund has the amount. -/
theorem approved_payable (sender : Address) (funds maxClaimAmount : ℕ) (txs : List (Env × Tx (Msg Hash)))
    (hinj : Function.Injective keccak256)
    (hsorted : txs.Pairwise fun t t' => t.1.timestamp ≤ t'.1.timestamp) {id : Hash}
    (happroved : (((fund keccak256).after txs (deploy sender funds maxClaimAmount)).claims id).approved
      = true)
    (hopen : (((fund keccak256).after txs (deploy sender funds maxClaimAmount)).claims id).paid = false)
    (hfunds : (((fund keccak256).after txs (deploy sender funds maxClaimAmount)).claims id).amount
      ≤ ((fund keccak256).after txs (deploy sender funds maxClaimAmount)).totalFunds) :
    ((fund keccak256).after txs (deploy sender funds maxClaimAmount)).Payable keccak256 id := by
  have hmem := Contract.after_mem_seenByAll (fund keccak256) txs (deploy sender funds maxClaimAmount)
  obtain ⟨now, hvalid⟩ := seen_valid hinj sender funds maxClaimAmount txs hsorted _ hmem
  have hgoes := Contract.Leaves.after (c := fund keccak256) fund_leaves Goes.refl
    (fun _ _ _ => Goes.trans) txs (deploy sender funds maxClaimAmount)
  exact payable_of_covered hvalid.covered hgoes.entered happroved hopen hfunds

/-- A deposit, a claim and its approval. -/
def approvedClaim : List (Env × Tx (Msg Bytes)) := reentrantClaim.take 3

theorem approved_payable_claim :
    ((fund id).after approvedClaim (deploy 1 0 (10 ^ 19))).Payable id (packClaim 7 1000 (10 ^ 18) [65]) :=
  approved_payable 1 0 (10 ^ 19) approvedClaim Function.injective_id
    (by simp [approvedClaim, reentrantClaim]) (by decide +kernel) (by decide +kernel) (by decide +kernel)

end Sthrip.Insurance
