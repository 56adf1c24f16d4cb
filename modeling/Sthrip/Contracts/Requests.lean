import Sthrip.Contracts.Solvency

set_option autoImplicit false

/-! # The requests of the bridge contract

The id of a request is the hash of the arguments and the time of the block. So two calls share an id iff
they are the same call, in one block, and then the second overwrites the request of the first. Without
such calls every request stays until it is completed, and no request is completed twice.
-/

namespace Sthrip.Bridge

open Evm

variable {Hash : Type}

/-! ## Calls and ids -/

/-- What the id of a request is the hash of. -/
structure Initiation where
  sender : Address
  timestamp : BitVec 256
  ethAmount : BitVec 256
  xmrAmount : BitVec 256
  xmrAddress : Bytes
  deriving DecidableEq

def Initiation.pack (i : Initiation) : Bytes :=
  packRequest i.sender i.timestamp.toNat i.ethAmount.toNat i.xmrAmount.toNat i.xmrAddress

/-- The request that is stored. -/
def Initiation.request (i : Initiation) : BridgeRequest where
  sender := i.sender
  ethAmount := i.ethAmount.toNat
  xmrAmount := i.xmrAmount.toNat
  xmrAddress := i.xmrAddress
  createdAt := i.timestamp.toNat

theorem bytesBE_toNat_inj {n w : ℕ} (hw : 2 ^ n = 256 ^ w) {a b : BitVec n}
    (h : bytesBE w a.toNat = bytesBE w b.toNat) : a = b := by
  have hlt (c : BitVec n) : c.toNat < 256 ^ w := hw ▸ c.isLt
  exact BitVec.eq_of_toNat_eq (bytesBE_inj (hlt a) (hlt b) h)

/-- All parts but the last have a fixed length. -/
theorem Initiation.pack_injective : Function.Injective Initiation.pack := by
  intro i j h
  simp only [Initiation.pack, packRequest, List.append_assoc] at h
  obtain ⟨hsender, h⟩ := List.append_inj h (by simp only [bytesBE_length])
  obtain ⟨htimestamp, h⟩ := List.append_inj h (by simp only [bytesBE_length])
  obtain ⟨hethAmount, h⟩ := List.append_inj h (by simp only [bytesBE_length])
  obtain ⟨hxmrAmount, hxmrAddress⟩ := List.append_inj h (by simp only [bytesBE_length])
  have hwide : 2 ^ 256 = 256 ^ 32 := by norm_num
  have hsender' : i.sender = j.sender := bytesBE_toNat_inj (by norm_num) hsender
  have htimestamp' : i.timestamp = j.timestamp := bytesBE_toNat_inj hwide htimestamp
  have hethAmount' : i.ethAmount = j.ethAmount := bytesBE_toNat_inj hwide hethAmount
  have hxmrAmount' : i.xmrAmount = j.xmrAmount := bytesBE_toNat_inj hwide hxmrAmount
  cases i
  cases j
  rw [Initiation.mk.injEq]
  exact ⟨hsender', htimestamp', hethAmount', hxmrAmount', hxmrAddress⟩

inductive RequestCall (Hash : Type) where
  | initiateBridge (ethAmount xmrAmount : BitVec 256) (xmrAddress : Bytes)
  | completeBridge (requestId : Hash) (txHash : Bytes32) (mpcSignature : Bytes)

structure RequestTx (Hash : Type) where
  sender : Address
  value : ℕ
  timestamp : BitVec 256
  call : RequestCall Hash

def RequestTx.msg (tx : RequestTx Hash) : Msg Hash where
  sender := tx.sender
  value := tx.value
  call := match tx.call with
    | .initiateBridge ethAmount xmrAmount xmrAddress =>
        .initiateBridge ethAmount.toNat xmrAmount.toNat xmrAddress
    | .completeBridge requestId txHash mpcSignature => .completeBridge requestId txHash mpcSignature

/-- A request that is completed. -/
structure Completion (Hash : Type) where
  requestId : Hash
  txHash : Bytes32
  ethAmount : ℕ

/-- A call that `initiateBridge` lets pass: a node's, without ether, with positive amounts. -/
def RequestTx.admitted? (s : State Hash) (tx : RequestTx Hash) : Option Initiation :=
  match tx.call with
  | .initiateBridge ethAmount xmrAmount xmrAddress =>
      if tx.value = 0 ∧ s.hasRole .MPC_ROLE tx.sender = true ∧ s.paused = false ∧ 0 < ethAmount.toNat ∧
          0 < xmrAmount.toNat then
        some ⟨tx.sender, tx.timestamp, ethAmount, xmrAmount, xmrAddress⟩
      else none
  | .completeBridge .. => none

variable [DecidableEq Hash] (keccak256 : Bytes → Hash) (this : Address)

def RequestTx.exec (tx : RequestTx Hash) (s : State Hash) : Except String Unit × State Hash :=
  (bridge keccak256).exec ⟨this, tx.timestamp.toNat⟩ (.mk tx.msg [] true) s

def RequestTx.send (tx : RequestTx Hash) (s : State Hash) : State Hash := (tx.exec keccak256 this s).2

/-- `initiateBridge` succeeds. -/
def RequestTx.initiation? (tx : RequestTx Hash) (s : State Hash) : Option Initiation :=
  match tx.call, (tx.exec keccak256 this s).1 with
  | .initiateBridge ethAmount xmrAmount xmrAddress, .ok () =>
      some ⟨tx.sender, tx.timestamp, ethAmount, xmrAmount, xmrAddress⟩
  | _, _ => none

/-- `completeBridge` succeeds. -/
def RequestTx.completion? (tx : RequestTx Hash) (s : State Hash) : Option (Completion Hash) :=
  match tx.call, (tx.exec keccak256 this s).1 with
  | .completeBridge requestId txHash _, .ok () =>
      some ⟨requestId, txHash, (s.bridgeRequests requestId).ethAmount⟩
  | _, _ => none

/-- One call after another. -/
def sendAll (txs : List (RequestTx Hash)) (s : State Hash) : State Hash :=
  txs.foldl (fun s tx => tx.send keccak256 this s) s

/-- The completions of a run. -/
def completionsOf : List (RequestTx Hash) → State Hash → List (Completion Hash)
  | [], _ => []
  | tx :: txs, s =>
      (tx.completion? keccak256 this s).toList ++ completionsOf txs (tx.send keccak256 this s)

/-! ## What a run keeps -/

omit [DecidableEq Hash] in
def Event.initiated? : Event Hash → Option Hash
  | .BridgeInitiated requestId _ _ _ _ => some requestId
  | _ => none

omit [DecidableEq Hash] in
/-- The ids of the requests. -/
def State.requestIds (s : State Hash) : List Hash := s.events.filterMap Event.initiated?

def BridgeRequest.paid (r : BridgeRequest) : ℕ := if r.completed = true then r.ethAmount else 0

/-- The total over the completed requests. -/
def State.totalPaid (s : State Hash) : ℕ := ∑ id ∈ s.requestIds.toFinset, (s.bridgeRequests id).paid

/-- The request after its completion. -/
def BridgeRequest.complete (r : BridgeRequest) (txHash : Bytes32) : BridgeRequest :=
  { r with completed := true, txHash }

/-- **What becomes of the requests** of a run. -/
structure Kept (s₀ : State Hash) (txs : List (RequestTx Hash)) : Prop where
  /-- A call makes a request of its own. -/
  own : ∀ pre tx post i, txs = pre ++ tx :: post →
    tx.initiation? keccak256 this (sendAll keccak256 this pre s₀) = some i →
    (sendAll keccak256 this pre s₀).bridgeRequests (keccak256 i.pack) = {}
  /-- It stays as it is until it is completed. -/
  stored : ∀ pre tx mid post i, txs = pre ++ tx :: (mid ++ post) →
    tx.initiation? keccak256 this (sendAll keccak256 this pre s₀) = some i →
    let r := (sendAll keccak256 this (pre ++ tx :: mid) s₀).bridgeRequests (keccak256 i.pack)
    r = i.request ∨ ∃ c ∈ completionsOf keccak256 this mid (sendAll keccak256 this (pre ++ [tx]) s₀),
      c.requestId = keccak256 i.pack ∧ r = i.request.complete c.txHash
  /-- A completed request stays as it is. -/
  completed : ∀ pre mid post id, txs = pre ++ (mid ++ post) →
    ((sendAll keccak256 this pre s₀).bridgeRequests id).completed = true →
    (sendAll keccak256 this (pre ++ mid) s₀).bridgeRequests id
      = (sendAll keccak256 this pre s₀).bridgeRequests id
  /-- There are no other requests than those with these ids. -/
  listed : ∀ pre post id, txs = pre ++ post → id ∉ (sendAll keccak256 this pre s₀).requestIds →
    (sendAll keccak256 this pre s₀).bridgeRequests id = {}
  total : ∀ pre post, txs = pre ++ post → (sendAll keccak256 this pre s₀).totalPaid
    = ((completionsOf keccak256 this pre s₀).map Completion.ethAmount).sum
  once : ((completionsOf keccak256 this txs s₀).map Completion.txHash).Nodup

/-! ## One call -/

variable {keccak256 this} {s s₀ : State Hash} {tx : RequestTx Hash}

variable (keccak256) in
def State.initiate (s : State Hash) (i : Initiation) : State Hash :=
  { s with
    bridgeRequests := Function.update s.bridgeRequests (keccak256 i.pack) i.request
    events := s.events ++ [.BridgeInitiated (keccak256 i.pack) i.sender i.ethAmount.toNat i.xmrAmount.toNat
      i.xmrAddress] }

def State.complete (s : State Hash) (c : Completion Hash) : State Hash :=
  { s with
    bridgeRequests := Function.update s.bridgeRequests c.requestId
      ((s.bridgeRequests c.requestId).complete c.txHash)
    usedHashes := Function.update s.usedHashes c.txHash true
    entered := false
    events := s.events ++ [.BridgeCompleted c.requestId c.txHash c.ethAmount] }

/-- What `completeBridge` checks of the request and the hash. -/
structure Completion.Allowed (c : Completion Hash) (s : State Hash) : Prop where
  found : 0 < (s.bridgeRequests c.requestId).ethAmount
  was_open : (s.bridgeRequests c.requestId).completed = false
  unused : s.usedHashes c.txHash = false
  amount : c.ethAmount = (s.bridgeRequests c.requestId).ethAmount

variable (keccak256 this s) in
theorem exec_initiateBridge {ethAmount xmrAmount : BitVec 256} {xmrAddress : Bytes}
    (hcall : tx.call = .initiateBridge ethAmount xmrAmount xmrAddress) :
    (tx.admitted? s = none ∧ ∃ reason, tx.exec keccak256 this s = (.error reason, s)) ∨
      ∃ i, tx.admitted? s = some i ∧ tx.exec keccak256 this s = (.ok (), s.initiate keccak256 i) := by
  have hmsg : tx.msg.call = .initiateBridge ethAmount.toNat xmrAmount.toNat xmrAddress := by
    simp only [RequestTx.msg, hcall]
  have henter : (bridge keccak256).enter ⟨this, tx.timestamp.toNat⟩ tx.msg s
      = initiateBridge keccak256 ⟨this, tx.timestamp.toNat⟩ tx.msg ethAmount.toNat xmrAmount.toNat
        xmrAddress s := by
    show enter keccak256 _ tx.msg s = _
    simp only [enter, hmsg]
  rw [RequestTx.admitted?, hcall]
  by_cases hguard : tx.value = 0 ∧ s.hasRole .MPC_ROLE tx.sender = true ∧ s.paused = false ∧
      0 < ethAmount.toNat ∧ 0 < xmrAmount.toNat
  · have hrun : initiateBridge keccak256 ⟨this, tx.timestamp.toNat⟩ tx.msg ethAmount.toNat xmrAmount.toNat
        xmrAddress s = .ok (.stop (s.initiate keccak256
          ⟨tx.sender, tx.timestamp, ethAmount, xmrAmount, xmrAddress⟩)) := by
      obtain ⟨hvalue, hrole, hpaused, heth, hxmr⟩ := hguard
      simp only [initiateBridge, nonPayable, onlyMPC, onlyRole, whenNotPaused, require_bind_eq_ok]
      exact ⟨hvalue, hrole, hpaused, heth, hxmr, rfl⟩
    exact .inr ⟨_, if_pos hguard, Contract.exec_stop (henter.trans hrun)⟩
  · refine .inl ⟨if_neg hguard, ?_⟩
    cases hrun : initiateBridge keccak256 ⟨this, tx.timestamp.toNat⟩ tx.msg ethAmount.toNat xmrAmount.toNat
        xmrAddress s with
    | error reason => exact ⟨reason, Contract.exec_error (henter.trans hrun)⟩
    | ok n =>
        simp only [initiateBridge, nonPayable, onlyMPC, onlyRole, whenNotPaused, require_bind_eq_ok] at hrun
        obtain ⟨hvalue, hrole, hpaused, heth, hxmr, -⟩ := hrun
        exact absurd ⟨hvalue, hrole, hpaused, heth, hxmr⟩ hguard

variable (keccak256 this s) in
theorem exec_completeBridge {requestId : Hash} {txHash : Bytes32} {mpcSignature : Bytes}
    (hcall : tx.call = .completeBridge requestId txHash mpcSignature) :
    (∃ reason, tx.exec keccak256 this s = (.error reason, s)) ∨
      ∃ c : Completion Hash, c.requestId = requestId ∧ c.txHash = txHash ∧ c.Allowed s ∧
        tx.exec keccak256 this s = (.ok (), s.complete c) := by
  have hmsg : tx.msg.call = .completeBridge requestId txHash mpcSignature := by
    simp only [RequestTx.msg, hcall]
  have henter : (bridge keccak256).enter ⟨this, tx.timestamp.toNat⟩ tx.msg s
      = completeBridge tx.msg requestId txHash mpcSignature s := by
    show enter keccak256 _ tx.msg s = _
    simp only [enter, hmsg]
  cases hrun : completeBridge tx.msg requestId txHash mpcSignature s with
  | error reason => exact .inl ⟨reason, Contract.exec_error (henter.trans hrun)⟩
  | ok n =>
      have hok := hrun
      simp only [completeBridge, nonPayable, onlyMPC, onlyRole, guardEnter, verifyMPCSignature,
        require_bind_eq_ok, bind_assoc, pure_bind] at hrun
      obtain ⟨-, -, -, hfound, hopen, hunused, -, -, hn⟩ := hrun
      cases hn
      exact .inr ⟨⟨requestId, txHash, (s.bridgeRequests requestId).ethAmount⟩, rfl, rfl,
        ⟨hfound, hopen, hunused, rfl⟩, Contract.exec_stop (henter.trans hok)⟩

/-- **What a call can do**: nothing, initiate or complete. -/
theorem send_cases (keccak256 : Bytes → Hash) (this : Address) (tx : RequestTx Hash) (s : State Hash) :
    (tx.admitted? s = none ∧ tx.completion? keccak256 this s = none ∧ tx.send keccak256 this s = s) ∨
    (∃ i, tx.admitted? s = some i ∧ tx.completion? keccak256 this s = none ∧
      tx.send keccak256 this s = s.initiate keccak256 i) ∨
    ∃ c, tx.admitted? s = none ∧ tx.completion? keccak256 this s = some c ∧ c.Allowed s ∧
      tx.send keccak256 this s = s.complete c := by
  cases hcall : tx.call with
  | initiateBridge ethAmount xmrAmount xmrAddress =>
      have hcompletion : tx.completion? keccak256 this s = none := by
        rw [RequestTx.completion?, hcall]
      rcases exec_initiateBridge keccak256 this s hcall with
        ⟨hnone, reason, hexec⟩ | ⟨i, hsome, hexec⟩
      · exact .inl ⟨hnone, hcompletion, by rw [RequestTx.send, hexec]⟩
      · exact .inr (.inl ⟨i, hsome, hcompletion, by rw [RequestTx.send, hexec]⟩)
  | completeBridge requestId txHash mpcSignature =>
      have hnone : tx.admitted? s = none := by rw [RequestTx.admitted?, hcall]
      rcases exec_completeBridge keccak256 this s hcall with
        ⟨reason, hexec⟩ | ⟨c, hid, hhash, hallowed, hexec⟩
      · exact .inl ⟨hnone, by rw [RequestTx.completion?, hcall, hexec], by rw [RequestTx.send, hexec]⟩
      · refine .inr (.inr ⟨c, hnone, ?_, hallowed, by rw [RequestTx.send, hexec]⟩)
        rw [RequestTx.completion?, hcall, hexec]
        have hamount := hallowed.amount
        obtain ⟨id, hash, amount⟩ := c
        subst hid hhash
        exact congrArg (fun amount => some (Completion.mk id hash amount)) hamount.symm

/-- The calls that succeed are those that are let pass. -/
theorem initiation?_eq : tx.initiation? keccak256 this s = tx.admitted? s := by
  cases hcall : tx.call with
  | initiateBridge ethAmount xmrAmount xmrAddress =>
      rw [RequestTx.initiation?, hcall]
      rcases exec_initiateBridge keccak256 this s hcall with
        ⟨hnone, reason, hexec⟩ | ⟨i, hsome, hexec⟩
      · rw [hexec, hnone]
      · rw [hexec, hsome]
        rw [RequestTx.admitted?, hcall] at hsome
        exact (Option.ite_none_right_eq_some.mp hsome).2
  | completeBridge requestId txHash mpcSignature =>
      rw [RequestTx.initiation?, RequestTx.admitted?, hcall]

/-! ## Runs -/

omit [DecidableEq Hash] in
theorem admitted?_pos {i : Initiation} (h : tx.admitted? s = some i) : 0 < i.ethAmount.toNat := by
  rw [RequestTx.admitted?] at h
  split at h
  · obtain ⟨⟨-, -, -, hpos, -⟩, hi⟩ := Option.ite_none_right_eq_some.mp h
    rw [← Option.some.inj hi]
    exact hpos
  · cases h

omit [DecidableEq Hash] in
theorem admitted?_congr (hrole : s.hasRole = s₀.hasRole) (hpaused : s.paused = s₀.paused) :
    tx.admitted? s = tx.admitted? s₀ := by
  simp only [RequestTx.admitted?, hrole, hpaused]

variable (keccak256 this) in
theorem send_admin (tx : RequestTx Hash) (s : State Hash) :
    (tx.send keccak256 this s).hasRole = s.hasRole ∧ (tx.send keccak256 this s).paused = s.paused := by
  rcases send_cases keccak256 this tx s with ⟨-, -, h⟩ | ⟨i, -, -, h⟩ | ⟨c, -, -, -, h⟩
  all_goals
    rw [h]
    exact ⟨rfl, rfl⟩

theorem sendAll_append (xs ys : List (RequestTx Hash)) (s : State Hash) :
    sendAll keccak256 this (xs ++ ys) s = sendAll keccak256 this ys (sendAll keccak256 this xs s) :=
  List.foldl_append

theorem sendAll_cons (tx : RequestTx Hash) (txs : List (RequestTx Hash)) (s : State Hash) :
    sendAll keccak256 this (tx :: txs) s = sendAll keccak256 this txs (tx.send keccak256 this s) := rfl

theorem completionsOf_append (xs ys : List (RequestTx Hash)) (s : State Hash) :
    completionsOf keccak256 this (xs ++ ys) s
      = completionsOf keccak256 this xs s
        ++ completionsOf keccak256 this ys (sendAll keccak256 this xs s) := by
  induction xs generalizing s with
  | nil => rfl
  | cons tx xs ih =>
      rw [List.cons_append, completionsOf, completionsOf, ih, sendAll_cons, List.append_assoc]

variable (keccak256 this) in
theorem sendAll_admin (txs : List (RequestTx Hash)) (s : State Hash) :
    (sendAll keccak256 this txs s).hasRole = s.hasRole ∧
      (sendAll keccak256 this txs s).paused = s.paused := by
  induction txs generalizing s with
  | nil => exact ⟨rfl, rfl⟩
  | cons tx txs ih =>
      obtain ⟨hrole, hpaused⟩ := send_admin keccak256 this tx s
      obtain ⟨hrole', hpaused'⟩ := ih (tx.send keccak256 this s)
      exact ⟨hrole'.trans hrole, hpaused'.trans hpaused⟩

/-- Which calls pass does not depend on those before them. -/
theorem admitted?_sendAll (tx : RequestTx Hash) (txs : List (RequestTx Hash)) (s : State Hash) :
    tx.admitted? (sendAll keccak256 this txs s) = tx.admitted? s := by
  obtain ⟨hrole, hpaused⟩ := sendAll_admin keccak256 this txs s
  exact admitted?_congr hrole hpaused

/-- A request that is stored stays stored. -/
theorem sendAll_found {id : Hash} (txs : List (RequestTx Hash))
    (hfound : 0 < (s.bridgeRequests id).ethAmount) :
    0 < ((sendAll keccak256 this txs s).bridgeRequests id).ethAmount := by
  induction txs generalizing s with
  | nil => exact hfound
  | cons tx txs ih =>
      rw [sendAll_cons]
      refine ih ?_
      rcases send_cases keccak256 this tx s with ⟨-, -, h⟩ | ⟨i, hi, -, h⟩ | ⟨c, -, -, -, h⟩
      · rw [h]
        exact hfound
      · rw [h]
        by_cases hid : id = keccak256 i.pack
        · subst hid
          simp only [State.initiate, Function.update_self]
          exact admitted?_pos hi
        · simp only [State.initiate, Function.update_of_ne hid]
          exact hfound
      · rw [h]
        by_cases hid : id = c.requestId
        · subst hid
          simp only [State.complete, Function.update_self]
          exact hfound
        · simp only [State.complete, Function.update_of_ne hid]
          exact hfound

variable (keccak256 this) in
/-- A request stays as it is, or is completed, when no call with its id comes. -/
theorem sendAll_request {id : Hash} (txs : List (RequestTx Hash))
    (hother : ∀ i ∈ txs.filterMap (RequestTx.admitted? s), keccak256 i.pack ≠ id) :
    (sendAll keccak256 this txs s).bridgeRequests id = s.bridgeRequests id ∨
      (s.bridgeRequests id).completed = false ∧ ∃ c ∈ completionsOf keccak256 this txs s, c.requestId = id ∧
        (sendAll keccak256 this txs s).bridgeRequests id = (s.bridgeRequests id).complete c.txHash := by
  induction txs generalizing s with
  | nil => exact .inl rfl
  | cons tx txs ih =>
      have hadmitted : RequestTx.admitted? (tx.send keccak256 this s) = RequestTx.admitted? s := by
        funext tx'
        obtain ⟨hrole, hpaused⟩ := send_admin keccak256 this tx s
        exact admitted?_congr hrole hpaused
      have hrest : ∀ i ∈ txs.filterMap (RequestTx.admitted? (tx.send keccak256 this s)),
          keccak256 i.pack ≠ id := by
        rw [hadmitted]
        intro i hi
        obtain ⟨tx', htx', hi'⟩ := List.mem_filterMap.mp hi
        exact hother i (List.mem_filterMap.mpr ⟨tx', List.mem_cons_of_mem _ htx', hi'⟩)
      have hlater := ih hrest
      rw [sendAll_cons, completionsOf]
      rcases send_cases keccak256 this tx s with
        ⟨-, hnone, h⟩ | ⟨i, hi, hnone, h⟩ | ⟨c, -, hsome, hallowed, h⟩
      · rw [hnone, h]
        rw [h] at hlater
        exact hlater
      · have hid : id ≠ keccak256 i.pack :=
          (hother i (List.mem_filterMap.mpr ⟨tx, List.mem_cons_self, hi⟩)).symm
        have hsame : (tx.send keccak256 this s).bridgeRequests id = s.bridgeRequests id := by
          rw [h]
          exact Function.update_of_ne hid ..
        rw [hnone]
        rw [hsame] at hlater
        exact hlater
      · rw [hsome]
        by_cases hid : id = c.requestId
        · subst hid
          have hcompleted : (tx.send keccak256 this s).bridgeRequests c.requestId
              = (s.bridgeRequests c.requestId).complete c.txHash := by
            rw [h]
            exact Function.update_self ..
          rw [hcompleted] at hlater
          rcases hlater with hsame | ⟨habsurd, -⟩
          · exact .inr ⟨hallowed.was_open, c, List.mem_append_left _ List.mem_cons_self, rfl, hsame⟩
          · cases habsurd
        · have hsame : (tx.send keccak256 this s).bridgeRequests id = s.bridgeRequests id := by
            rw [h]
            exact Function.update_of_ne hid ..
          rw [hsame] at hlater
          refine hlater.imp_right fun ⟨hopen, c', hc', hrest⟩ => ⟨hopen, c', ?_, hrest⟩
          exact List.mem_append_right _ hc'

/-! ## The invariant -/

section Invariant

variable (keccak256 this s₀)

/-- After the calls `done`. -/
structure Accounted (done : List (RequestTx Hash)) (s : State Hash) : Prop where
  ids : s.requestIds
    = (done.filterMap (RequestTx.admitted? s₀)).map fun i => keccak256 i.pack
  listed : ∀ id, id ∉ s.requestIds → s.bridgeRequests id = {}
  total : s.totalPaid = ((completionsOf keccak256 this done s₀).map Completion.ethAmount).sum
  once : ((completionsOf keccak256 this done s₀).map Completion.txHash).Nodup
  used : ∀ c ∈ completionsOf keccak256 this done s₀, s.usedHashes c.txHash = true

variable {keccak256 this s₀} {done : List (RequestTx Hash)}

theorem totalPaid_initiate {i : Initiation} (hnew : keccak256 i.pack ∉ s.requestIds) :
    (s.initiate keccak256 i).totalPaid = s.totalPaid := by
  have hids : (s.initiate keccak256 i).requestIds = s.requestIds ++ [keccak256 i.pack] := by
    simp [State.requestIds, State.initiate, Event.initiated?]
  have hnone : (Function.update s.bridgeRequests (keccak256 i.pack) i.request (keccak256 i.pack)).paid
      = 0 := by
    rw [Function.update_self]
    rfl
  rw [State.totalPaid, hids, List.toFinset_append, List.toFinset_cons, List.toFinset_nil,
    insert_empty_eq, Finset.sum_union (by simpa using hnew), Finset.sum_singleton]
  show _ + (Function.update s.bridgeRequests (keccak256 i.pack) i.request (keccak256 i.pack)).paid = _
  rw [hnone, add_zero]
  refine Finset.sum_congr rfl fun id hid => ?_
  have hne : id ≠ keccak256 i.pack := by
    rintro rfl
    exact hnew (List.mem_toFinset.mp hid)
  show (Function.update s.bridgeRequests (keccak256 i.pack) i.request id).paid = _
  rw [Function.update_of_ne hne]

theorem totalPaid_complete {c : Completion Hash} (hallowed : c.Allowed s)
    (hlisted : c.requestId ∈ s.requestIds) : (s.complete c).totalPaid = s.totalPaid + c.ethAmount := by
  have hids : (s.complete c).requestIds = s.requestIds := by
    simp [State.requestIds, State.complete, Event.initiated?]
  have hbefore : (s.bridgeRequests c.requestId).paid = 0 := by
    rw [BridgeRequest.paid, hallowed.was_open]
    rfl
  have hafter : ((s.complete c).bridgeRequests c.requestId).paid = c.ethAmount := by
    rw [hallowed.amount]
    show (Function.update s.bridgeRequests c.requestId _ c.requestId).paid = _
    rw [Function.update_self]
    rfl
  have hother : ∀ id ∈ s.requestIds.toFinset.erase c.requestId,
      ((s.complete c).bridgeRequests id).paid = (s.bridgeRequests id).paid := by
    intro id hid
    show (Function.update s.bridgeRequests c.requestId _ id).paid = _
    rw [Function.update_of_ne (Finset.ne_of_mem_erase hid)]
  have hmem : c.requestId ∈ s.requestIds.toFinset := List.mem_toFinset.mpr hlisted
  rw [State.totalPaid, State.totalPaid, hids, ← Finset.sum_erase_add _ _ hmem,
    ← Finset.sum_erase_add s.requestIds.toFinset _ hmem, Finset.sum_congr rfl hother, hbefore, hafter]
  rfl

theorem filterMap_concat_none {α β : Type} {f : α → Option β} {xs : List α} {x : α} (h : f x = none) :
    (xs ++ [x]).filterMap f = xs.filterMap f := by
  rw [List.filterMap_append, List.filterMap_cons_none h, List.filterMap_nil, List.append_nil]

theorem filterMap_concat_some {α β : Type} {f : α → Option β} {xs : List α} {x : α} {y : β}
    (h : f x = some y) : (xs ++ [x]).filterMap f = xs.filterMap f ++ [y] := by
  rw [List.filterMap_append, List.filterMap_cons_some h, List.filterMap_nil]

variable {tx : RequestTx Hash}

/-- A call that does nothing. -/
theorem Accounted.idle (h : Accounted keccak256 this s₀ done s) (hi : tx.admitted? s₀ = none)
    (hc : completionsOf keccak256 this (done ++ [tx]) s₀ = completionsOf keccak256 this done s₀) :
    Accounted keccak256 this s₀ (done ++ [tx]) s := by
  constructor
  · rw [filterMap_concat_none hi]
    exact h.ids
  · exact h.listed
  · rw [hc]
    exact h.total
  · rw [hc]
    exact h.once
  · rw [hc]
    exact h.used

/-- A new request. -/
theorem Accounted.initiate (h : Accounted keccak256 this s₀ done s) {i : Initiation}
    (hi : tx.admitted? s₀ = some i) (hnew : keccak256 i.pack ∉ s.requestIds)
    (hc : completionsOf keccak256 this (done ++ [tx]) s₀ = completionsOf keccak256 this done s₀) :
    Accounted keccak256 this s₀ (done ++ [tx]) (s.initiate keccak256 i) := by
  have hids : (s.initiate keccak256 i).requestIds = s.requestIds ++ [keccak256 i.pack] := by
    simp [State.requestIds, State.initiate, Event.initiated?]
  constructor
  · rw [filterMap_concat_some hi, hids, h.ids, List.map_append]
    rfl
  · intro id hid
    rw [hids, List.mem_append, List.mem_singleton, not_or] at hid
    show Function.update s.bridgeRequests (keccak256 i.pack) i.request id = {}
    rw [Function.update_of_ne hid.2]
    exact h.listed id hid.1
  · rw [hc, totalPaid_initiate hnew]
    exact h.total
  · rw [hc]
    exact h.once
  · rw [hc]
    exact h.used

/-- A request is completed. -/
theorem Accounted.complete (h : Accounted keccak256 this s₀ done s) {c : Completion Hash}
    (hallowed : c.Allowed s) (hi : tx.admitted? s₀ = none)
    (hc : completionsOf keccak256 this (done ++ [tx]) s₀ = completionsOf keccak256 this done s₀ ++ [c]) :
    Accounted keccak256 this s₀ (done ++ [tx]) (s.complete c) := by
  have hids : (s.complete c).requestIds = s.requestIds := by
    simp [State.requestIds, State.complete, Event.initiated?]
  have hlisted : c.requestId ∈ s.requestIds := by
    by_contra hnot
    have hfound := hallowed.found
    rw [h.listed _ hnot] at hfound
    exact Nat.lt_irrefl 0 hfound
  constructor
  · rw [filterMap_concat_none hi, hids]
    exact h.ids
  · intro id hid
    rw [hids] at hid
    have hne : id ≠ c.requestId := fun heq => hid (heq ▸ hlisted)
    show Function.update s.bridgeRequests c.requestId _ id = {}
    rw [Function.update_of_ne hne]
    exact h.listed id hid
  · rw [hc, totalPaid_complete hallowed hlisted, h.total, List.map_append, List.sum_append,
      List.map_singleton, List.sum_singleton]
  · rw [hc, List.map_append, List.map_singleton]
    refine List.Nodup.append h.once (List.nodup_singleton _) ?_
    rw [List.disjoint_singleton]
    intro hmem
    obtain ⟨c', hc', hhash⟩ := List.mem_map.mp hmem
    have hused := h.used c' hc'
    rw [hhash, hallowed.unused] at hused
    cases hused
  · rw [hc]
    intro c' hc'
    show Function.update s.usedHashes c.txHash true c'.txHash = true
    by_cases hhash : c'.txHash = c.txHash
    · rw [hhash, Function.update_self]
    · rw [Function.update_of_ne hhash]
      rcases List.mem_append.mp hc' with hc' | hc'
      · exact h.used c' hc'
      · rw [List.mem_singleton.mp hc'] at hhash
        exact absurd rfl hhash

/-- **One call keeps the account.** -/
theorem Accounted.send (hinj : Function.Injective keccak256)
    (h : Accounted keccak256 this s₀ done (sendAll keccak256 this done s₀)) (tx : RequestTx Hash)
    (hdistinct : ((done ++ [tx]).filterMap (RequestTx.admitted? s₀)).Nodup) :
    Accounted keccak256 this s₀ (done ++ [tx]) (sendAll keccak256 this (done ++ [tx]) s₀) := by
  set s := sendAll keccak256 this done s₀ with hs
  have hstate : sendAll keccak256 this (done ++ [tx]) s₀ = tx.send keccak256 this s := sendAll_append ..
  have hadmitted : tx.admitted? s = tx.admitted? s₀ := admitted?_sendAll tx done s₀
  have hcompletions : completionsOf keccak256 this (done ++ [tx]) s₀
      = completionsOf keccak256 this done s₀ ++ (tx.completion? keccak256 this s).toList := by
    rw [completionsOf_append, completionsOf, completionsOf, List.append_nil]
  rw [hstate]
  rcases send_cases keccak256 this tx s with
    ⟨hi, hc, hsend⟩ | ⟨i, hi, hc, hsend⟩ | ⟨c, hi, hc, hallowed, hsend⟩
  · rw [hc, Option.toList_none, List.append_nil] at hcompletions
    rw [hsend]
    exact h.idle (hadmitted.symm.trans hi) hcompletions
  · rw [hc, Option.toList_none, List.append_nil] at hcompletions
    have hi' := hadmitted.symm.trans hi
    -- the id belongs to this call alone
    have hnew : keccak256 i.pack ∉ s.requestIds := by
      rw [h.ids]
      intro hmem
      obtain ⟨j, hj, hid⟩ := List.mem_map.mp hmem
      obtain rfl := Initiation.pack_injective (hinj hid)
      rw [filterMap_concat_some hi'] at hdistinct
      exact (List.nodup_append.mp hdistinct).2.2 j hj j List.mem_cons_self rfl
    rw [hsend]
    exact h.initiate hi' hnew hcompletions
  · rw [hc, Option.toList_some] at hcompletions
    rw [hsend]
    exact h.complete hallowed (hadmitted.symm.trans hi) hcompletions

/-- **A run keeps the account.** -/
theorem sendAll_accounted (hinj : Function.Injective keccak256)
    (hstart : Accounted keccak256 this s₀ [] s₀) (txs : List (RequestTx Hash))
    (hdistinct : (txs.filterMap (RequestTx.admitted? s₀)).Nodup) :
    Accounted keccak256 this s₀ txs (sendAll keccak256 this txs s₀) := by
  induction txs using List.reverseRecOn with
  | nil => exact hstart
  | append_singleton txs tx ih =>
      have hsub : (txs.filterMap (RequestTx.admitted? s₀)).Sublist
          ((txs ++ [tx]).filterMap (RequestTx.admitted? s₀)) :=
        (List.sublist_append_left txs [tx]).filterMap _
      exact (ih (hdistinct.sublist hsub)).send hinj tx hdistinct

end Invariant

/-! ## Every run -/

theorem deploy_accounted {sender : Address} {funds : ℕ} {mpcNodes : List Address}
    {feeCollector insuranceFund : Address}
    (h : deploy sender funds mpcNodes feeCollector insuranceFund = .ok s₀) :
    Accounted keccak256 this s₀ [] s₀ := by
  simp only [deploy, require_bind_eq_ok] at h
  obtain ⟨-, -, -, h⟩ := h
  cases h
  constructor
  · rfl
  · exact fun _ _ => rfl
  · rfl
  · exact List.nodup_nil
  · intro c hc
    cases hc

theorem send_initiation {i : Initiation} (hi : tx.admitted? s = some i) :
    tx.send keccak256 this s = s.initiate keccak256 i := by
  rcases send_cases keccak256 this tx s with ⟨hnone, -, -⟩ | ⟨j, hj, -, h⟩ | ⟨c, hnone, -, -, -⟩
  · rw [hnone] at hi
    cases hi
  · rw [hj] at hi
    obtain rfl := Option.some.inj hi
    exact h
  · rw [hnone] at hi
    cases hi

variable (keccak256 this) in
/-- The request of every call is stored. -/
theorem sendAll_initiated {i : Initiation} (txs : List (RequestTx Hash))
    (hi : i ∈ txs.filterMap (RequestTx.admitted? s₀)) :
    0 < ((sendAll keccak256 this txs s₀).bridgeRequests (keccak256 i.pack)).ethAmount := by
  obtain ⟨tx, htx, hi⟩ := List.mem_filterMap.mp hi
  obtain ⟨pre, post, htxs⟩ := List.append_of_mem htx
  rw [htxs, sendAll_append, sendAll_cons]
  refine sendAll_found post ?_
  rw [send_initiation ((admitted?_sendAll tx pre s₀).trans hi)]
  simp only [State.initiate, Function.update_self]
  exact admitted?_pos hi

theorem nodup_of_kept {txs : List (RequestTx Hash)} (h : Kept keccak256 this s₀ txs) :
    (txs.filterMap (RequestTx.admitted? s₀)).Nodup := by
  have hprefix : ∀ pre post, txs = pre ++ post → (pre.filterMap (RequestTx.admitted? s₀)).Nodup := by
    intro pre
    induction pre using List.reverseRecOn with
    | nil => exact fun _ _ => List.nodup_nil
    | append_singleton pre tx ih =>
        intro post heq
        rw [List.append_assoc, List.singleton_append] at heq
        have hpre := ih _ heq
        rw [List.filterMap_append, List.filterMap_cons]
        cases hi : tx.admitted? s₀ with
        | none => simpa using hpre
        | some i =>
            refine List.Nodup.append hpre (by simp) ?_
            rw [List.filterMap_nil, List.disjoint_singleton]
            intro hmem
            -- the request of the first call is in the way
            have hfound := sendAll_initiated keccak256 this pre hmem
            have hown := h.own pre tx post i heq
              (initiation?_eq.trans ((admitted?_sendAll tx pre s₀).trans hi))
            rw [hown] at hfound
            exact Nat.lt_irrefl 0 hfound
  exact hprefix txs [] (List.append_nil txs).symm

omit [DecidableEq Hash] in
/-- Calls with other ids do not follow. -/
theorem other_ids (hinj : Function.Injective keccak256) {xs ys : List (RequestTx Hash)}
    (hdistinct : ((xs ++ ys).filterMap (RequestTx.admitted? s₀)).Nodup) {i : Initiation}
    (hi : i ∈ xs.filterMap (RequestTx.admitted? s₀)) :
    ∀ j ∈ ys.filterMap (RequestTx.admitted? s₀), keccak256 j.pack ≠ keccak256 i.pack := by
  intro j hj hid
  obtain rfl := Initiation.pack_injective (hinj hid)
  rw [List.filterMap_append] at hdistinct
  exact (List.nodup_append.mp hdistinct).2.2 j hi j hj rfl

theorem kept_of_nodup (hinj : Function.Injective keccak256) (hstart : Accounted keccak256 this s₀ [] s₀)
    {txs : List (RequestTx Hash)} (hdistinct : (txs.filterMap (RequestTx.admitted? s₀)).Nodup) :
    Kept keccak256 this s₀ txs := by
  have hsub : ∀ pre post, txs = pre ++ post → (pre.filterMap (RequestTx.admitted? s₀)).Nodup := by
    rintro pre post rfl
    exact hdistinct.sublist ((List.sublist_append_left pre post).filterMap _)
  have haccount : ∀ pre post, txs = pre ++ post →
      Accounted keccak256 this s₀ pre (sendAll keccak256 this pre s₀) :=
    fun pre post heq => sendAll_accounted hinj hstart pre (hsub pre post heq)
  have hadmitted : ∀ pre, RequestTx.admitted? (sendAll keccak256 this pre s₀) = RequestTx.admitted? s₀ :=
    fun pre => funext fun tx => admitted?_sendAll tx pre s₀
  constructor
  · intro pre tx post i heq hi
    have hi' : tx.admitted? s₀ = some i :=
      (admitted?_sendAll tx pre s₀).symm.trans (initiation?_eq.symm.trans hi)
    refine (haccount pre _ heq).listed _ ?_
    rw [(haccount pre _ heq).ids]
    intro hmem
    obtain ⟨j, hj, hid⟩ := List.mem_map.mp hmem
    subst heq
    refine other_ids hinj hdistinct hj i ?_ hid.symm
    exact List.mem_filterMap.mpr ⟨tx, List.mem_cons_self, hi'⟩
  · intro pre tx mid post i heq hi r
    have hi' : tx.admitted? (sendAll keccak256 this pre s₀) = some i := initiation?_eq.symm.trans hi
    have hstate : sendAll keccak256 this (pre ++ [tx]) s₀
        = (sendAll keccak256 this pre s₀).initiate keccak256 i := by
      rw [sendAll_append]
      exact send_initiation hi'
    have hrequest : (sendAll keccak256 this (pre ++ [tx]) s₀).bridgeRequests (keccak256 i.pack)
        = i.request := by
      rw [hstate]
      exact Function.update_self ..
    have hother : ∀ j ∈ mid.filterMap (RequestTx.admitted? (sendAll keccak256 this (pre ++ [tx]) s₀)),
        keccak256 j.pack ≠ keccak256 i.pack := by
      rw [hadmitted]
      refine other_ids hinj (hsub (pre ++ [tx] ++ mid) post (by simpa using heq)) ?_
      exact List.mem_filterMap.mpr ⟨tx, List.mem_append_right _ List.mem_cons_self,
        (admitted?_sendAll tx pre s₀).symm.trans hi'⟩
    have hr : r = (sendAll keccak256 this mid (sendAll keccak256 this (pre ++ [tx]) s₀)).bridgeRequests
        (keccak256 i.pack) := by
      rw [← sendAll_append, List.append_assoc, List.singleton_append]
    have hlater := sendAll_request keccak256 this mid hother
    rw [← hr, hrequest] at hlater
    exact hlater.imp_right fun h => h.2
  · intro pre mid post id heq hcompleted
    have hlisted : id ∈ (sendAll keccak256 this pre s₀).requestIds := by
      by_contra hnot
      rw [(haccount pre _ heq).listed id hnot] at hcompleted
      cases hcompleted
    rw [(haccount pre _ heq).ids] at hlisted
    obtain ⟨i, hi, rfl⟩ := List.mem_map.mp hlisted
    have hother : ∀ j ∈ mid.filterMap (RequestTx.admitted? (sendAll keccak256 this pre s₀)),
        keccak256 j.pack ≠ keccak256 i.pack := by
      rw [hadmitted]
      exact other_ids hinj (hsub (pre ++ mid) post (by simpa using heq)) hi
    rw [sendAll_append]
    rcases sendAll_request keccak256 this mid hother with hsame | ⟨hopen, -⟩
    · exact hsame
    · rw [hcompleted] at hopen
      cases hopen
  · exact fun pre post id heq => (haccount pre post heq).listed id
  · exact fun pre post heq => (haccount pre post heq).total
  · exact (haccount txs [] (List.append_nil txs).symm).once

/-- **When the requests are kept**: iff no call that is let pass is made twice in one block. -/
theorem requests_kept_iff (hinj : Function.Injective keccak256) {sender : Address} {funds : ℕ}
    {mpcNodes : List Address} {feeCollector insuranceFund : Address}
    (hdeploy : deploy sender funds mpcNodes feeCollector insuranceFund = .ok s₀) (this : Address)
    (txs : List (RequestTx Hash)) :
    Kept keccak256 this s₀ txs ↔ (txs.filterMap (RequestTx.admitted? s₀)).Nodup := by
  constructor
  · exact nodup_of_kept
  · exact kept_of_nodup hinj (deploy_accounted hdeploy)

/-! ### The same call twice in a block -/

def xmrPayment : RequestTx Bytes := ⟨2, 0, 1000, .initiateBridge 5 7 [52, 65]⟩

/-- The request is completed, made again and completed again. -/
def paidTwice : List (RequestTx Bytes) :=
  let id := Initiation.pack ⟨2, 1000, 5, 7, [52, 65]⟩
  [xmrPayment, ⟨3, 0, 1000, .completeBridge id 11 (List.replicate 96 0)⟩,
    xmrPayment, ⟨3, 0, 1000, .completeBridge id 12 (List.replicate 96 0)⟩]

theorem requests_kept_iff_once :
    Kept id 99 deployed [xmrPayment] ↔ ([xmrPayment].filterMap (RequestTx.admitted? deployed)).Nodup := by
  have hdeploy : deploy 1 0 nodes 5 6 = .ok deployed := rfl
  exact requests_kept_iff Function.injective_id hdeploy 99 [xmrPayment]

/-- Ten are paid by two completions, and five are in the only request. -/
theorem request_overwritten : ¬ Kept id 99 deployed paidTwice := by
  intro h
  have htotal := h.total paidTwice [] rfl
  have hpaid : (sendAll id 99 paidTwice deployed).totalPaid = 5 := by decide +kernel
  have hcompleted : ((completionsOf id 99 paidTwice deployed).map Completion.ethAmount).sum = 10 := by
    decide +kernel
  rw [hpaid, hcompleted] at htotal
  omega

end Sthrip.Bridge
