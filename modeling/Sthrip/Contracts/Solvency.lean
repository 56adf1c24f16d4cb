import Sthrip.Contracts.SthripBridge
import Mathlib.Algebra.BigOperators.Group.Finset.Piecewise
import Mathlib.Algebra.Order.BigOperators.Group.Finset

set_option autoImplicit false

/-! # Solvency of the bridge contract

`Valid` is what every entry point keeps, also at the point where it calls out: the ether covers the
fees and the open locks, a lock that was paid out is marked, and the id of a lock is the hash of a
nonce that its sender has used up.
-/

namespace Sthrip.Bridge

open Evm

/-! ## Lock ids -/

theorem bytesBE_length (w n : ℕ) : (bytesBE w n).length = w := by
  induction w generalizing n with
  | zero => rfl
  | succ w ih => simp [bytesBE, ih]

theorem bytesBE_inj {w m n : ℕ} (hm : m < 256 ^ w) (hn : n < 256 ^ w)
    (h : bytesBE w m = bytesBE w n) : m = n := by
  induction w generalizing m n with
  | zero => omega
  | succ w ih =>
      obtain ⟨hinit, hlast⟩ := List.append_inj' h rfl
      rw [pow_succ] at hm hn
      have hdiv : m / 256 = n / 256 := ih (by omega) (by omega) hinit
      have hmod : m % 256 = n % 256 := by
        have := congrArg UInt8.toNat (List.singleton_inj.mp hlast)
        simpa [UInt8.toNat_ofNat'] using this
      omega

/-- The packed bytes of a lock start with its sender and end with its nonce. -/
theorem packLock_inj {sender sender' : Address} {timestamp timestamp' value value' : ℕ}
    {xmrAddress xmrAddress' : Bytes} {nonce nonce' : ℕ} (hn : nonce < 2 ^ 256)
    (hn' : nonce' < 2 ^ 256)
    (h : packLock sender timestamp value xmrAddress nonce
      = packLock sender' timestamp' value' xmrAddress' nonce') :
    sender = sender' ∧ nonce = nonce' := by
  obtain ⟨hinit, hnonce⟩ := List.append_inj' h (by simp only [bytesBE_length])
  simp only [List.append_assoc] at hinit
  obtain ⟨hsender, -⟩ := List.append_inj hinit (by simp only [bytesBE_length])
  constructor
  · have hlt (a : Address) : a.toNat < 256 ^ 20 := a.isLt
    exact BitVec.eq_of_toNat_eq (bytesBE_inj (hlt _) (hlt _) hsender)
  · exact bytesBE_inj (w := 32) hn hn' hnonce

variable {Hash : Type} [DecidableEq Hash]

/-! ## What the invariant is about -/

/-- The ether that the contract owes for a lock. -/
def Lock.due (lock : Lock) : ℕ :=
  if lock.claimed = true ∨ lock.refunded = true then 0 else lock.amount

def Event.locked? : Event Hash → Option Hash
  | .Locked lockId _ _ _ _ _ => some lockId
  | _ => none

/-- The ids of the locks, in the order in which they were made. -/
def State.lockIds (s : State Hash) : List Hash := s.events.filterMap Event.locked?

/-- The lock for which a transfer was made. -/
def Transfer.lockId? (t : Transfer Hash) : Option Hash :=
  match t.msg.call with
  | .claim lockId _ _ _ => some lockId
  | .refund lockId => some lockId
  | _ => none

def State.payoutsOf (s : State Hash) (lockId : Hash) : List (Transfer Hash) :=
  s.transfers.filter fun t => t.lockId? = some lockId

/-- A transfer is to the recipient of a claim before the lock's time, to the sender of a lock from that
time on, or to the collector of the fees. -/
def State.Rightful (s : State Hash) (t : Transfer Hash) : Prop :=
  match t.msg.call with
  | .claim lockId _ recipient _ =>
      (s.locks lockId).claimed = true ∧ t.payee = recipient ∧ t.amount = (s.locks lockId).amount
        ∧ t.time < (s.locks lockId).unlockTime
  | .refund lockId =>
      (s.locks lockId).refunded = true ∧ t.payee = (s.locks lockId).sender
        ∧ t.amount = (s.locks lockId).amount ∧ (s.locks lockId).unlockTime ≤ t.time
  | .collectFees => t.payee = s.feeCollector
  | _ => False

variable (keccak256 : Bytes → Hash)

structure Valid (s : State Hash) : Prop where
  solvent : ∀ ids : Finset Hash, s.totalFees + ∑ id ∈ ids, (s.locks id).due ≤ s.balance
  unwritten : ∀ id, id ∉ s.lockIds → s.locks id = {}
  numbered : ∀ id ∈ s.lockIds, ∃ sender timestamp value xmrAddress nonce,
    nonce < s.nonces sender ∧ id = keccak256 (packLock sender timestamp value xmrAddress nonce)
  nonces : ∀ a, s.nonces a < 2 ^ 256
  nodup : s.lockIds.Nodup
  once : ∀ id, (s.payoutsOf id).length
    ≤ if (s.locks id).claimed = true ∨ (s.locks id).refunded = true then 1 else 0
  rightful : ∀ t ∈ s.transfers, s.Rightful t

/-- What `Valid` reads is the same in two states. -/
structure SameLedger (s s' : State Hash) : Prop where
  balance : s'.balance = s.balance
  totalFees : s'.totalFees = s.totalFees
  locks : s'.locks = s.locks
  nonces : s'.nonces = s.nonces
  lockIds : s'.lockIds = s.lockIds
  transfers : s'.transfers = s.transfers
  feeCollector : s'.feeCollector = s.feeCollector

variable {keccak256} {s s' : State Hash}

theorem Valid.congr (h : Valid keccak256 s) (hsame : SameLedger s s') : Valid keccak256 s' := by
  obtain ⟨hbalance, hfees, hlocks, hnonces, hids, htransfers, hcollector⟩ := hsame
  have hrightful (t : Transfer Hash) : s'.Rightful t ↔ s.Rightful t := by
    simp only [State.Rightful, hlocks, hcollector]
  constructor
  · rw [hfees, hlocks, hbalance]
    exact h.solvent
  · rw [hids, hlocks]
    exact h.unwritten
  · rw [hids, hnonces]
    exact h.numbered
  · rw [hnonces]
    exact h.nonces
  · rw [hids]
    exact h.nodup
  · simp only [State.payoutsOf, htransfers, hlocks]
    exact h.once
  · simp only [htransfers, hrightful]
    exact h.rightful

/-- A nonce that is not used up gives an id that no lock has. -/
theorem Valid.fresh (hinj : Function.Injective keccak256) (h : Valid keccak256 s) (sender : Address)
    (timestamp value : ℕ) (xmrAddress : Bytes) :
    keccak256 (packLock sender timestamp value xmrAddress (s.nonces sender)) ∉ s.lockIds := by
  intro hmem
  obtain ⟨sender', timestamp', value', xmrAddress', nonce, hlt, hid⟩ := h.numbered _ hmem
  have hnonce : nonce < 2 ^ 256 := hlt.trans (h.nonces sender')
  obtain ⟨rfl, heq⟩ := packLock_inj (h.nonces sender) hnonce (hinj hid)
  omega

/-! ## Steps of the ledger -/

/-- A lock that owes nothing begins to owe. -/
theorem sum_due_update_le (f : Hash → Lock) (id : Hash) (lock : Lock) (ids : Finset Hash) :
    ∑ i ∈ ids, (Function.update f id lock i).due ≤ ∑ i ∈ ids, (f i).due + lock.due := by
  have hle : ∀ i ∈ ids, (Function.update f id lock i).due
      ≤ (f i).due + if i = id then lock.due else 0 := by
    intro i _
    by_cases hi : i = id
    · subst hi
      simp
    · simp [hi]
  refine (Finset.sum_le_sum hle).trans ?_
  rw [Finset.sum_add_distrib, Finset.sum_ite_eq']
  split <;> omega

/-- A lock owes nothing any more. -/
theorem sum_due_update_add (f : Hash → Lock) (id : Hash) {lock : Lock} (hlock : lock.due = 0)
    (ids : Finset Hash) :
    ∑ i ∈ ids, (Function.update f id lock i).due + (f id).due = ∑ i ∈ insert id ids, (f i).due := by
  have hsame : ∀ i ∈ ids.erase id, (Function.update f id lock i).due = (f i).due := by
    intro i hi
    rw [Function.update_of_ne (Finset.ne_of_mem_erase hi)]
  have herase : ∑ i ∈ ids, (Function.update f id lock i).due
      = ∑ i ∈ ids.erase id, (Function.update f id lock i).due := by
    by_cases hmem : id ∈ ids
    · rw [← Finset.sum_erase_add _ _ hmem, Function.update_self, hlock, add_zero]
    · rw [Finset.erase_eq_of_notMem hmem]
  rw [herase, Finset.sum_congr rfl hsame, ← Finset.erase_insert_eq_erase,
    Finset.sum_erase_add _ _ (Finset.mem_insert_self id ids)]

omit [DecidableEq Hash] in
/-- A transfer stays rightful as long as its lock stays as it is. -/
theorem State.Rightful.congr {t : Transfer Hash} (h : s.Rightful t)
    (hlocks : ∀ id, t.lockId? = some id → s'.locks id = s.locks id)
    (hcollector : s'.feeCollector = s.feeCollector) : s'.Rightful t := by
  unfold State.Rightful at h ⊢
  unfold Transfer.lockId? at hlocks
  split at h
  · next id _ _ _ hcall =>
      rw [hlocks id (by rw [hcall])]
      exact h
  · next id hcall =>
      rw [hlocks id (by rw [hcall])]
      exact h
  · rw [hcollector]
    exact h
  · exact h

/-- Nothing was sent for a lock that is not marked. -/
theorem Valid.not_paid (h : Valid keccak256 s) {id : Hash}
    (hopen : ¬ ((s.locks id).claimed = true ∨ (s.locks id).refunded = true)) :
    ∀ t ∈ s.transfers, t.lockId? ≠ some id := by
  have honce := h.once id
  rw [if_neg hopen, Nat.le_zero, List.length_eq_zero_iff, State.payoutsOf,
    List.filter_eq_nil_iff] at honce
  intro t hmem
  simpa using honce t hmem

/-- A new lock: the ether that came with it covers its amount and its fee. -/
theorem Valid.lock (h : Valid keccak256 s) {id : Hash} {lock : Lock} {sender : Address} {fee : ℕ}
    (hfresh : id ∉ s.lockIds)
    (hid : ∃ timestamp value xmrAddress,
      id = keccak256 (packLock sender timestamp value xmrAddress (s.nonces sender)))
    (hnonce : s.nonces sender + 1 < 2 ^ 256)
    (hbalance : s'.balance = s.balance + (lock.due + fee))
    (hfees : s'.totalFees = s.totalFees + fee)
    (hlocks : s'.locks = Function.update s.locks id lock)
    (hnonces : s'.nonces = Function.update s.nonces sender (s.nonces sender + 1))
    (hids : s'.lockIds = s.lockIds ++ [id]) (htransfers : s'.transfers = s.transfers)
    (hcollector : s'.feeCollector = s.feeCollector) : Valid keccak256 s' := by
  have hopen : ¬ ((s.locks id).claimed = true ∨ (s.locks id).refunded = true) := by
    rw [h.unwritten id hfresh]
    simp
  have hgrow (a : Address) : s.nonces a ≤ s'.nonces a := by
    rw [hnonces]
    by_cases ha : a = sender
    · subst ha
      simp
    · simp [ha]
  constructor
  · intro ids
    have hsum := sum_due_update_le s.locks id lock ids
    have hsolvent := h.solvent ids
    rw [hfees, hlocks, hbalance]
    omega
  · intro i hi
    rw [hids, List.mem_append, List.mem_singleton, not_or] at hi
    rw [hlocks, Function.update_of_ne hi.2]
    exact h.unwritten i hi.1
  · intro i hi
    rw [hids, List.mem_append, List.mem_singleton] at hi
    rcases hi with hi | rfl
    · obtain ⟨a, timestamp, value, xmrAddress, nonce, hlt, heq⟩ := h.numbered i hi
      exact ⟨a, timestamp, value, xmrAddress, nonce, hlt.trans_le (hgrow a), heq⟩
    · obtain ⟨timestamp, value, xmrAddress, heq⟩ := hid
      refine ⟨sender, timestamp, value, xmrAddress, s.nonces sender, ?_, heq⟩
      rw [hnonces, Function.update_self]
      omega
  · intro a
    rw [hnonces]
    by_cases ha : a = sender
    · subst ha
      rwa [Function.update_self]
    · rw [Function.update_of_ne ha]
      exact h.nonces a
  · rw [hids]
    exact List.Nodup.append h.nodup (List.nodup_singleton id) (by simpa using hfresh)
  · intro i
    rw [State.payoutsOf, htransfers, hlocks]
    have honce := h.once i
    by_cases hi : i = id
    · subst hi
      rw [if_neg hopen] at honce
      exact honce.trans (Nat.zero_le _)
    · rw [Function.update_of_ne hi]
      exact honce
  · intro t hmem
    rw [htransfers] at hmem
    refine (h.rightful t hmem).congr ?_ hcollector
    intro i hi
    rw [hlocks, Function.update_of_ne]
    rintro rfl
    exact h.not_paid hopen t hmem hi

/-- `lock'` is `lock` after its claim or its refund. -/
structure Marks (lock lock' : Lock) : Prop where
  found : 0 < lock.amount
  was_open : ¬ (lock.claimed = true ∨ lock.refunded = true)
  settled : lock'.claimed = true ∨ lock'.refunded = true

/-- A lock is marked before its ether is sent. -/
theorem Valid.mark (h : Valid keccak256 s) {id : Hash} {lock : Lock} (hmarks : Marks (s.locks id) lock)
    (hsame : SameLedger (setLock id lock s) s') : Valid keccak256 s' := by
  refine Valid.congr ?_ hsame
  have hdue : lock.due = 0 := if_pos hmarks.settled
  have hother {i : Hash} (hi : i ≠ id) : (setLock id lock s).locks i = s.locks i :=
    Function.update_of_ne hi ..
  constructor
  · intro ids
    have hsum := sum_due_update_le s.locks id lock ids
    have hsolvent := h.solvent ids
    rw [hdue, add_zero] at hsum
    exact (Nat.add_le_add_left hsum _).trans hsolvent
  · intro i hi
    have hne : i ≠ id := by
      rintro rfl
      have hfound := hmarks.found
      rw [h.unwritten i hi] at hfound
      exact Nat.lt_irrefl 0 hfound
    rw [hother hne]
    exact h.unwritten i hi
  · exact h.numbered
  · exact h.nonces
  · exact h.nodup
  · intro i
    have honce := h.once i
    by_cases hi : i = id
    · subst hi
      rw [if_neg hmarks.was_open] at honce
      exact honce.trans (Nat.zero_le _)
    · rw [hother hi]
      exact honce
  · intro t hmem
    refine (h.rightful t hmem).congr ?_ rfl
    intro i hi
    refine hother ?_
    rintro rfl
    exact h.not_paid hmarks.was_open t hmem hi

omit [DecidableEq Hash] in
theorem pay_eq_some {env : Env} {m : Msg Hash} {payee : Address} {amount : ℕ} {s₂ : State Hash}
    (h : pay env m payee amount s = some s₂) :
    amount ≤ s.balance ∧ s₂ =
      { s with
        balance := s.balance - amount
        transfers := s.transfers ++ [⟨m, payee, amount, env.timestamp⟩] } := by
  rw [pay, Option.ite_none_left_eq_some, not_or, not_lt] at h
  exact ⟨h.1.2, (Option.some.inj h.2).symm⟩

/-- The ether of a marked lock is sent. -/
theorem Valid.payOut (h : Valid keccak256 s) {env : Env} {m : Msg Hash} {payee : Address} {id : Hash}
    {lock : Lock} {s₂ : State Hash} (hmarks : Marks (s.locks id) lock)
    (hpay : pay env m payee (s.locks id).amount s' = some s₂)
    (hsame : SameLedger (setLock id lock s) s')
    (hid : Transfer.lockId? ⟨m, payee, (s.locks id).amount, env.timestamp⟩ = some id)
    (hright : s'.Rightful ⟨m, payee, (s.locks id).amount, env.timestamp⟩) : Valid keccak256 s₂ := by
  have hvalid := h.mark hmarks hsame
  obtain ⟨hfunds, rfl⟩ := pay_eq_some hpay
  have hlocks : s'.locks = Function.update s.locks id lock := hsame.locks
  constructor
  · intro ids
    -- the lock was open, so its amount was covered next to the other locks of `ids`
    have hsum := sum_due_update_add s.locks id (if_pos hmarks.settled) ids
    have hsolvent := h.solvent (insert id ids)
    have hdue : (s.locks id).due = (s.locks id).amount := if_neg hmarks.was_open
    have hfees : s'.totalFees = s.totalFees := hsame.totalFees
    have hbalance : s'.balance = s.balance := hsame.balance
    rw [hdue] at hsum
    show s'.totalFees + ∑ i ∈ ids, (s'.locks i).due ≤ s'.balance - (s.locks id).amount
    rw [hlocks, hfees, hbalance]
    omega
  · exact hvalid.unwritten
  · exact hvalid.numbered
  · exact hvalid.nonces
  · exact hvalid.nodup
  · intro i
    have hfilter : State.payoutsOf { s' with
        balance := s'.balance - (s.locks id).amount
        transfers := s'.transfers ++ [⟨m, payee, (s.locks id).amount, env.timestamp⟩] } i
        = s'.payoutsOf i ++
          if id = i then [⟨m, payee, (s.locks id).amount, env.timestamp⟩] else [] := by
      simp only [State.payoutsOf, List.filter_append, List.filter_cons, hid, Option.some.injEq,
        decide_eq_true_eq, List.filter_nil]
    rw [hfilter, List.length_append]
    by_cases hi : id = i
    · subst hi
      have hnone : (s'.payoutsOf id).length = 0 := by
        rw [State.payoutsOf, hsame.transfers]
        have honce := h.once id
        rw [if_neg hmarks.was_open] at honce
        exact Nat.le_zero.mp honce
      have hsettled : (s'.locks id).claimed = true ∨ (s'.locks id).refunded = true := by
        rw [hlocks, Function.update_self]
        exact hmarks.settled
      rw [hnone, if_pos rfl, if_pos hsettled]
      rfl
    · rw [if_neg hi]
      exact hvalid.once i
  · intro t hmem
    rcases List.mem_append.mp hmem with hmem | hmem
    · exact (hvalid.rightful t hmem).congr (fun _ _ => rfl) rfl
    · rw [List.mem_singleton.mp hmem]
      exact hright

/-- The fees are sent. -/
theorem Valid.payFees (h : Valid keccak256 s) {env : Env} {m : Msg Hash} {s₂ : State Hash}
    (hcall : m.call = .collectFees)
    (hpay : pay env m s.feeCollector s.totalFees { s with totalFees := 0 } = some s₂) :
    Valid keccak256 s₂ := by
  obtain ⟨-, rfl⟩ := pay_eq_some hpay
  constructor
  · intro ids
    have hsolvent := h.solvent ids
    show 0 + ∑ i ∈ ids, (s.locks i).due ≤ s.balance - s.totalFees
    omega
  · exact h.unwritten
  · exact h.numbered
  · exact h.nonces
  · exact h.nodup
  · intro i
    have hfilter : State.payoutsOf { s with
        totalFees := 0
        balance := s.balance - s.totalFees
        transfers := s.transfers ++ [⟨m, s.feeCollector, s.totalFees, env.timestamp⟩] } i
        = s.payoutsOf i := by
      simp [State.payoutsOf, Transfer.lockId?, hcall]
    rw [hfilter]
    exact h.once i
  · intro t hmem
    rcases List.mem_append.mp hmem with hmem | hmem
    · exact (h.rightful t hmem).congr (fun _ _ => rfl) rfl
    · rw [List.mem_singleton.mp hmem]
      simp [State.Rightful, hcall]

/-- The fees are no longer reserved. -/
theorem Valid.dropFees (h : Valid keccak256 s) : Valid keccak256 { s with totalFees := 0 } := by
  constructor
  · intro ids
    have hsolvent := h.solvent ids
    show 0 + ∑ i ∈ ids, (s.locks i).due ≤ s.balance
    omega
  · exact h.unwritten
  · exact h.numbered
  · exact h.nonces
  · exact h.nodup
  · exact h.once
  · exact fun t hmem => (h.rightful t hmem).congr (fun _ _ => rfl) rfl

/-- More ether. -/
theorem Valid.receive (h : Valid keccak256 s) (value : ℕ) :
    Valid keccak256 { s with balance := s.balance + value } := by
  constructor
  · intro ids
    exact (h.solvent ids).trans (Nat.le_add_right _ _)
  · exact h.unwritten
  · exact h.numbered
  · exact h.nonces
  · exact h.nodup
  · exact h.once
  · exact fun t hmem => (h.rightful t hmem).congr (fun _ _ => rfl) rfl

/-! ## The entry points -/

omit [DecidableEq Hash] in
theorem lockIds_emit {e : Event Hash} (he : e.locked? = none) (s : State Hash) :
    (emit e s).lockIds = s.lockIds := by
  simp [State.lockIds, emit, List.filterMap_append, he]

variable {env : Env} {m : Msg Hash} {n : Next (State Hash)}

theorem Valid.emit (h : Valid keccak256 s) {e : Event Hash} (he : e.locked? = none) :
    Valid keccak256 (Bridge.emit e s) :=
  h.congr ⟨rfl, rfl, rfl, rfl, lockIds_emit he s, rfl, rfl⟩

theorem Valid.stop_emit (h : Valid keccak256 s) (hsame : SameLedger s s') {e : Event Hash}
    (he : e.locked? = none) : (Next.stop (Bridge.emit e s')).Keeps (Valid keccak256) :=
  (h.congr hsame).emit he

theorem lock_keeps (hinj : Function.Injective keccak256) (h : Valid keccak256 s) {xmrAddress : Bytes}
    {duration : ℕ} {mpcMerkleRoot : Bytes32}
    (hrun : lock keccak256 env m xmrAddress duration mpcMerkleRoot s = .ok n) :
    n.Keeps (Valid keccak256) := by
  simp only [lock, guardEnter, whenNotPaused, require_bind_eq_ok, checked_bind_eq_ok, bind_assoc,
    pure_bind] at hrun
  obtain ⟨-, -, -, -, -, -, -, -, hfee, -, hnonce, -, -, hn⟩ := hrun
  cases hn
  have hfresh := h.fresh hinj m.sender env.timestamp m.value xmrAddress
  refine h.lock hfresh ⟨_, _, _, rfl⟩ hnonce ?_ rfl rfl rfl ?_ rfl rfl
  · show s.balance + m.value
      = s.balance + (m.value - m.value * s.protocolFeeBps / 10000 + m.value * s.protocolFeeBps / 10000)
    rw [Nat.sub_add_cancel hfee]
  · simp [State.lockIds, Bridge.emit, guardExit, setLock, Event.locked?]

theorem claim_keeps (h : Valid keccak256 s) {lockId : Hash} {mpcSignature : Bytes}
    {recipient : Address} {txHash : Bytes32}
    (hcall : m.call = .claim lockId mpcSignature recipient txHash)
    (hrun : claim env m lockId mpcSignature recipient txHash s = .ok n) :
    n.Keeps (Valid keccak256) := by
  simp only [claim, nonPayable, guardEnter, whenNotPaused, verifyMPCSignature, require_bind_eq_ok,
    bind_assoc, pure_bind] at hrun
  obtain ⟨-, -, -, hfound, hclaimed, hrefunded, htime, -, -, -, -, hn⟩ := hrun
  cases hn
  have hmarks : Marks (s.locks lockId) { s.locks lockId with claimed := true } :=
    ⟨hfound, by simp [hclaimed, hrefunded], Or.inl rfl⟩
  refine ⟨h.mark hmarks ⟨rfl, rfl, rfl, rfl, rfl, rfl, rfl⟩, ?_, ?_⟩
  · intro s₂ hpay
    refine h.payOut hmarks hpay ⟨rfl, rfl, rfl, rfl, rfl, rfl, rfl⟩ ?_ ?_
    · simp only [Transfer.lockId?, hcall]
    · simp only [State.Rightful, hcall, setLock, Function.update_self, true_and]
      exact htime
  · intro b t t' ht hresume
    simp only [require_bind_eq_ok] at hresume
    obtain ⟨-, heq⟩ := hresume
    cases heq
    exact (ht.emit rfl).congr ⟨rfl, rfl, rfl, rfl, rfl, rfl, rfl⟩

theorem refund_keeps (h : Valid keccak256 s) {lockId : Hash} (hcall : m.call = .refund lockId)
    (hrun : refund env m lockId s = .ok n) : n.Keeps (Valid keccak256) := by
  simp only [refund, nonPayable, guardEnter, require_bind_eq_ok, bind_assoc, pure_bind] at hrun
  obtain ⟨-, -, hfound, hclaimed, hrefunded, htime, -, hn⟩ := hrun
  cases hn
  have hmarks : Marks (s.locks lockId) { s.locks lockId with refunded := true } :=
    ⟨hfound, by simp [hclaimed, hrefunded], Or.inr rfl⟩
  refine ⟨h.mark hmarks ⟨rfl, rfl, rfl, rfl, rfl, rfl, rfl⟩, ?_, ?_⟩
  · intro s₂ hpay
    refine h.payOut hmarks hpay ⟨rfl, rfl, rfl, rfl, rfl, rfl, rfl⟩ ?_ ?_
    · simp only [Transfer.lockId?, hcall]
    · simp only [State.Rightful, hcall, setLock, Function.update_self, true_and]
      exact htime
  · intro b t t' ht hresume
    simp only [require_bind_eq_ok] at hresume
    obtain ⟨-, heq⟩ := hresume
    cases heq
    exact (ht.emit rfl).congr ⟨rfl, rfl, rfl, rfl, rfl, rfl, rfl⟩

theorem collectFees_keeps (h : Valid keccak256 s) (hcall : m.call = .collectFees)
    (hrun : collectFees env m s = .ok n) : n.Keeps (Valid keccak256) := by
  simp only [collectFees, nonPayable, onlyAdmin, onlyRole, require_bind_eq_ok] at hrun
  obtain ⟨-, -, -, hn⟩ := hrun
  cases hn
  refine ⟨h.dropFees, fun s₂ hpay => h.payFees hcall hpay, ?_⟩
  intro b t t' ht hresume
  simp only [require_bind_eq_ok] at hresume
  obtain ⟨-, heq⟩ := hresume
  cases heq
  exact ht

theorem rescueTokens_keeps (h : Valid keccak256 s) {token dest : Address}
    (hrun : rescueTokens env m token dest s = .ok n) : n.Keeps (Valid keccak256) := by
  simp only [rescueTokens, nonPayable, onlyAdmin, onlyRole, require_bind_eq_ok] at hrun
  obtain ⟨-, -, -, hn⟩ := hrun
  cases hn
  refine ⟨h, ?_, ?_⟩
  · intro s₂ hsent
    rw [Option.ite_none_left_eq_some] at hsent
    exact Option.some.inj hsent.2 ▸ h
  · intro b t t' ht hresume
    simp only [require_bind_eq_ok] at hresume
    obtain ⟨-, heq⟩ := hresume
    cases heq
    exact ht

/-! The other functions change nothing that the ledger has. -/

theorem initiateBridge_keeps (h : Valid keccak256 s) {ethAmount xmrAmount : ℕ} {xmrAddress : Bytes}
    (hrun : initiateBridge keccak256 env m ethAmount xmrAmount xmrAddress s = .ok n) :
    n.Keeps (Valid keccak256) := by
  simp only [initiateBridge, nonPayable, onlyMPC, onlyRole, whenNotPaused, require_bind_eq_ok] at hrun
  obtain ⟨-, -, -, -, -, hn⟩ := hrun
  rw [← Except.ok.inj hn]
  apply h.stop_emit _ rfl
  exact ⟨rfl, rfl, rfl, rfl, rfl, rfl, rfl⟩

theorem completeBridge_keeps (h : Valid keccak256 s) {requestId : Hash} {txHash : Bytes32}
    {mpcSignature : Bytes} (hrun : completeBridge m requestId txHash mpcSignature s = .ok n) :
    n.Keeps (Valid keccak256) := by
  simp only [completeBridge, nonPayable, onlyMPC, onlyRole, guardEnter, verifyMPCSignature,
    require_bind_eq_ok, bind_assoc, pure_bind] at hrun
  obtain ⟨-, -, -, -, -, -, -, -, hn⟩ := hrun
  cases hn
  exact (h.emit rfl).congr ⟨rfl, rfl, rfl, rfl, rfl, rfl, rfl⟩

theorem changeRole_keeps (h : Valid keccak256 s) {role : Role} {account : Address} {b : Bool}
    (hrun : changeRole m role account b s = .ok n) : n.Keeps (Valid keccak256) := by
  simp only [changeRole, nonPayable, onlyRole, require_bind_eq_ok] at hrun
  obtain ⟨-, -, hn⟩ := hrun
  cases hn
  exact h.congr ⟨rfl, rfl, rfl, rfl, rfl, rfl, rfl⟩

theorem enter_keeps (hinj : Function.Injective keccak256) (h : Valid keccak256 s)
    (hrun : enter keccak256 env m s = .ok n) : n.Keeps (Valid keccak256) := by
  rw [enter] at hrun
  split at hrun
  case h_1 => exact lock_keeps hinj h hrun
  case h_2 hcall => exact claim_keeps h hcall hrun
  case h_3 hcall => exact refund_keeps h hcall hrun
  case h_4 => exact initiateBridge_keeps h hrun
  case h_5 => exact completeBridge_keeps h hrun
  case h_6 =>
    simp only [emergencyPause, nonPayable, onlyAdmin, onlyRole, whenNotPaused, require_bind_eq_ok] at hrun
    obtain ⟨-, -, -, hn⟩ := hrun
    rw [← Except.ok.inj hn]
    apply h.stop_emit _ rfl
    exact ⟨rfl, rfl, rfl, rfl, rfl, rfl, rfl⟩
  case h_7 =>
    simp only [emergencyUnpause, nonPayable, onlyAdmin, onlyRole, require_bind_eq_ok] at hrun
    obtain ⟨-, -, -, hn⟩ := hrun
    rw [← Except.ok.inj hn]
    apply h.stop_emit _ rfl
    exact ⟨rfl, rfl, rfl, rfl, rfl, rfl, rfl⟩
  case h_8 =>
    simp only [updateMPCNode, nonPayable, onlyAdmin, onlyRole, require_bind_eq_ok] at hrun
    obtain ⟨-, -, -, hn⟩ := hrun
    rw [← Except.ok.inj hn]
    apply h.stop_emit _ rfl
    exact ⟨rfl, rfl, rfl, rfl, rfl, rfl, rfl⟩
  case h_9 =>
    simp only [updateThreshold, nonPayable, onlyAdmin, onlyRole, require_bind_eq_ok] at hrun
    obtain ⟨-, -, -, -, hn⟩ := hrun
    rw [← Except.ok.inj hn]
    apply h.stop_emit _ rfl
    exact ⟨rfl, rfl, rfl, rfl, rfl, rfl, rfl⟩
  case h_10 =>
    simp only [updateProtocolFee, nonPayable, onlyAdmin, onlyRole, require_bind_eq_ok] at hrun
    obtain ⟨-, -, -, hn⟩ := hrun
    rw [← Except.ok.inj hn]
    apply h.stop_emit _ rfl
    exact ⟨rfl, rfl, rfl, rfl, rfl, rfl, rfl⟩
  case h_11 hcall => exact collectFees_keeps h hcall hrun
  case h_12 => exact rescueTokens_keeps h hrun
  case h_13 => exact changeRole_keeps h hrun
  case h_14 => exact changeRole_keeps h hrun
  case h_15 =>
    simp only [renounceRole, nonPayable, require_bind_eq_ok] at hrun
    obtain ⟨-, -, hn⟩ := hrun
    cases hn
    exact h.congr ⟨rfl, rfl, rfl, rfl, rfl, rfl, rfl⟩
  case h_16 => cases hrun
  case h_17 =>
    cases hrun
    exact h.receive m.value

theorem bridge_keeps (hinj : Function.Injective keccak256) (env : Env) :
    (bridge keccak256).Keeps env (Valid keccak256) := fun _ _ _ h hrun => enter_keeps hinj h hrun

/-! ## Every run -/

variable (keccak256) in
/-- What a state shows of the contract's promises. -/
structure Sound (s : State Hash) : Prop where
  solvent : ∀ ids : Finset Hash, s.totalFees + ∑ id ∈ ids, (s.locks id).due ≤ s.balance
  once : ∀ id, (s.payoutsOf id).length ≤ 1
  rightful : ∀ t ∈ s.transfers, s.Rightful t
  distinct : s.lockIds.Nodup
  /-- The next lock of a sender does not collide with a lock that exists. -/
  fresh : ∀ sender timestamp value xmrAddress,
    keccak256 (packLock sender timestamp value xmrAddress (s.nonces sender)) ∉ s.lockIds
  /-- There are no other locks than those with these ids. -/
  listed : ∀ id, id ∉ s.lockIds → s.locks id = {}

theorem Valid.sound (hinj : Function.Injective keccak256) (h : Valid keccak256 s) :
    Sound keccak256 s where
  solvent := h.solvent
  once id := by
    have honce := h.once id
    split at honce <;> omega
  rightful := h.rightful
  distinct := h.nodup
  fresh := h.fresh hinj
  listed := h.unwritten

theorem deploy_valid {sender : Address} {funds : ℕ} {mpcNodes : List Address}
    {feeCollector insuranceFund : Address}
    (h : deploy sender funds mpcNodes feeCollector insuranceFund = .ok s) : Valid keccak256 s := by
  simp only [deploy, require_bind_eq_ok] at h
  obtain ⟨-, -, -, h⟩ := h
  cases h
  constructor
  · intro ids
    simp [Lock.due]
  · exact fun _ _ => rfl
  · intro id hid
    cases hid
  · exact fun _ => Nat.two_pow_pos 256
  · exact List.nodup_nil
  · exact fun _ => Nat.zero_le _
  · intro t ht
    cases ht

/-- **The bridge is solvent and pays a lock at most once**, in every state that is reached or seen by a
callee, whoever sends the messages and whatever a callee does. -/
theorem solvency (hinj : Function.Injective keccak256) {sender : Address} {funds : ℕ}
    {mpcNodes : List Address} {feeCollector insuranceFund : Address}
    (hdeploy : deploy sender funds mpcNodes feeCollector insuranceFund = .ok s)
    (txs : List (Env × Tx (Msg Hash))) :
    ∀ s' ∈ (bridge keccak256).seenByAll txs s, Sound keccak256 s' := by
  intro s' hmem
  have hvalid : Valid keccak256 s := deploy_valid hdeploy
  exact (Contract.Keeps.seenByAll (bridge_keeps hinj) hvalid txs s' hmem).sound hinj

def nodes : List Address := [2, 3, 4]

def deployed : State Bytes := (deploy 1 0 nodes 5 6).toOption.get rfl

/-- A claim whose recipient tries to claim again and to refund, and has the fees collected. -/
def reentrantClaim : List (Env × Tx (Msg Bytes)) :=
  let xmrAddress : Bytes := List.replicate 95 52
  let lockId := packLock 7 1000 (10 ^ 18) xmrAddress 0
  let claim : Msg Bytes := ⟨8, 0, .claim lockId (List.replicate 96 0) 9 11⟩
  let inner := [.mk claim [] true, .mk ⟨7, 0, .refund lockId⟩ [] true, .mk ⟨1, 0, .collectFees⟩ [] true]
  [(⟨99, 1000⟩, .mk ⟨7, 10 ^ 18, .lock xmrAddress 3600 1⟩ [] true),
    (⟨99, 2000⟩, .mk claim inner true)]

/-- The state after that. -/
def claimed : State Bytes :=
  ((bridge id).seenByAll reentrantClaim deployed).getLast ((bridge id).seenByAll_ne_nil _ _)

theorem solvency_reentrantClaim : Sound id claimed := by
  have hdeploy : deploy 1 0 nodes 5 6 = .ok deployed := rfl
  exact solvency Function.injective_id hdeploy reentrantClaim claimed (List.getLast_mem _)

/-! ## Refunds -/

/-- What every message leaves, whatever happens during it. -/
structure Goes (s s' : State Hash) : Prop where
  entered : s'.entered = s.entered
  transfers : ∀ t ∈ s.transfers, t ∈ s'.transfers

omit [DecidableEq Hash] in
theorem Goes.refl (s : State Hash) : Goes s s := ⟨rfl, fun _ h => h⟩

omit [DecidableEq Hash] in
theorem Goes.trans {s t u : State Hash} (h : Goes s t) (h' : Goes t u) : Goes s u :=
  ⟨h'.entered.trans h.entered, fun x hx => h'.transfers x (h.transfers x hx)⟩

omit [DecidableEq Hash] in
/-- A guarded function that pays: the callee sees the guard set, and the end takes it back. -/
theorem goes_of_pay {payee : Address} {amount : ℕ} {s₁ t t' : State Hash} {s₂ : State Hash}
    (hpay : pay env m payee amount s₁ = some s₂) (hs₁ : s₁.transfers = s.transfers) (ht : Goes s₂ t)
    (hentered : t'.entered = s.entered) (ht' : t'.transfers = t.transfers) : Goes s t' := by
  obtain ⟨-, rfl⟩ := pay_eq_some hpay
  refine ⟨hentered, fun x hx => ?_⟩
  rw [ht']
  exact ht.transfers x (List.mem_append_left _ (hs₁ ▸ hx))

theorem enter_leaves (hrun : enter keccak256 env m s = .ok n) : n.Leaves Goes s := by
  have hsame {s' : State Hash} (hn : n = .stop s') (he : s'.entered = s.entered)
      (ht : s'.transfers = s.transfers) : n.Leaves Goes s := by
    rw [hn]
    exact ⟨he, fun x hx => ht ▸ hx⟩
  rw [enter] at hrun
  split at hrun
  case h_1 =>
    simp only [lock, guardEnter, whenNotPaused, require_bind_eq_ok, checked_bind_eq_ok, bind_assoc,
      pure_bind] at hrun
    obtain ⟨hentered, -, -, -, -, -, -, -, -, -, -, -, -, hn⟩ := hrun
    exact hsame (Except.ok.inj hn).symm hentered.symm rfl
  case h_2 =>
    simp only [claim, nonPayable, guardEnter, whenNotPaused, verifyMPCSignature, require_bind_eq_ok,
      bind_assoc, pure_bind] at hrun
    obtain ⟨-, hentered, -, -, -, -, -, -, -, -, -, hn⟩ := hrun
    cases hn
    refine ⟨?_, ?_⟩
    · intro t' hresume
      cases hresume
    · intro s₂ t t' hpay ht hresume
      cases hresume
      exact goes_of_pay hpay rfl ht hentered.symm rfl
  case h_3 =>
    simp only [refund, nonPayable, guardEnter, require_bind_eq_ok, bind_assoc, pure_bind] at hrun
    obtain ⟨-, hentered, -, -, -, -, -, hn⟩ := hrun
    cases hn
    refine ⟨?_, ?_⟩
    · intro t' hresume
      cases hresume
    · intro s₂ t t' hpay ht hresume
      cases hresume
      exact goes_of_pay hpay rfl ht hentered.symm rfl
  case h_4 =>
    simp only [initiateBridge, nonPayable, onlyMPC, onlyRole, whenNotPaused, require_bind_eq_ok] at hrun
    obtain ⟨-, -, -, -, -, hn⟩ := hrun
    exact hsame (Except.ok.inj hn).symm rfl rfl
  case h_5 =>
    simp only [completeBridge, nonPayable, onlyMPC, onlyRole, guardEnter, verifyMPCSignature,
      require_bind_eq_ok, bind_assoc, pure_bind] at hrun
    obtain ⟨-, -, hentered, -, -, -, -, -, hn⟩ := hrun
    exact hsame (Except.ok.inj hn).symm hentered.symm rfl
  case h_6 =>
    simp only [emergencyPause, nonPayable, onlyAdmin, onlyRole, whenNotPaused, require_bind_eq_ok] at hrun
    obtain ⟨-, -, -, hn⟩ := hrun
    exact hsame (Except.ok.inj hn).symm rfl rfl
  case h_7 =>
    simp only [emergencyUnpause, nonPayable, onlyAdmin, onlyRole, require_bind_eq_ok] at hrun
    obtain ⟨-, -, -, hn⟩ := hrun
    exact hsame (Except.ok.inj hn).symm rfl rfl
  case h_8 =>
    simp only [updateMPCNode, nonPayable, onlyAdmin, onlyRole, require_bind_eq_ok] at hrun
    obtain ⟨-, -, -, hn⟩ := hrun
    exact hsame (Except.ok.inj hn).symm rfl rfl
  case h_9 =>
    simp only [updateThreshold, nonPayable, onlyAdmin, onlyRole, require_bind_eq_ok] at hrun
    obtain ⟨-, -, -, -, hn⟩ := hrun
    exact hsame (Except.ok.inj hn).symm rfl rfl
  case h_10 =>
    simp only [updateProtocolFee, nonPayable, onlyAdmin, onlyRole, require_bind_eq_ok] at hrun
    obtain ⟨-, -, -, hn⟩ := hrun
    exact hsame (Except.ok.inj hn).symm rfl rfl
  case h_11 =>
    simp only [collectFees, nonPayable, onlyAdmin, onlyRole, require_bind_eq_ok] at hrun
    obtain ⟨-, -, -, hn⟩ := hrun
    cases hn
    refine ⟨?_, ?_⟩
    · intro t' hresume
      cases hresume
    · intro s₂ t t' hpay ht hresume
      cases hresume
      have hentered : s₂.entered = s.entered := by
        rw [(pay_eq_some hpay).2]
      exact goes_of_pay hpay rfl ht (ht.entered.trans hentered) rfl
  case h_12 token dest _ _ =>
    simp only [rescueTokens, nonPayable, onlyAdmin, onlyRole, require_bind_eq_ok] at hrun
    obtain ⟨-, -, -, hn⟩ := hrun
    cases hn
    refine ⟨?_, ?_⟩
    · intro t' hresume
      cases hresume
    · intro s₂ t t' hsent ht hresume
      cases hresume
      rw [Option.ite_none_left_eq_some] at hsent
      exact Option.some.inj hsent.2 ▸ ht
  case h_13 | h_14 =>
    simp only [changeRole, nonPayable, onlyRole, require_bind_eq_ok] at hrun
    obtain ⟨-, -, hn⟩ := hrun
    exact hsame (Except.ok.inj hn).symm rfl rfl
  case h_15 =>
    simp only [renounceRole, nonPayable, require_bind_eq_ok] at hrun
    obtain ⟨-, -, hn⟩ := hrun
    exact hsame (Except.ok.inj hn).symm rfl rfl
  case h_16 => cases hrun
  case h_17 => exact hsame (Except.ok.inj hrun).symm rfl rfl

theorem bridge_leaves (env : Env) : (bridge keccak256).Leaves env Goes :=
  fun _ _ _ hrun => enter_leaves hrun

/-- Between two transactions the guard is free. -/
theorem after_not_entered {sender : Address} {funds : ℕ} {mpcNodes : List Address}
    {feeCollector insuranceFund : Address}
    (hdeploy : deploy sender funds mpcNodes feeCollector insuranceFund = .ok s)
    (txs : List (Env × Tx (Msg Hash))) : ((bridge keccak256).after txs s).entered = false := by
  have hgoes := Contract.Leaves.after (c := bridge keccak256) bridge_leaves Goes.refl
    (fun _ _ _ => Goes.trans) txs s
  rw [hgoes.entered]
  simp only [deploy, require_bind_eq_ok] at hdeploy
  obtain ⟨-, -, -, hdeploy⟩ := hdeploy
  cases hdeploy
  rfl

variable (keccak256) in
/-- The sender of the lock gets it back when its time has passed, whatever the sender does while it is
paid. -/
def State.Refundable (s : State Hash) (id : Hash) : Prop :=
  ∀ (env : Env) (inner : List (Tx (Msg Hash))), (s.locks id).unlockTime ≤ env.timestamp →
    (s.locks id).sender ≠ env.this →
    ∃ s', (bridge keccak256).exec env (.mk ⟨(s.locks id).sender, 0, .refund id⟩ inner true) s
        = (.ok (), s')
      ∧ (s'.locks id).refunded = true
      ∧ ⟨⟨(s.locks id).sender, 0, .refund id⟩, (s.locks id).sender, (s.locks id).amount, env.timestamp⟩
        ∈ s'.transfers

theorem refund_enter {id : Hash} {s₂ : State Hash} (hentered : s.entered = false)
    (hfound : 0 < (s.locks id).amount) (hclaimed : (s.locks id).claimed = false)
    (hrefunded : (s.locks id).refunded = false) (htime : (s.locks id).unlockTime ≤ env.timestamp)
    (hpay : pay env ⟨(s.locks id).sender, 0, .refund id⟩ (s.locks id).sender (s.locks id).amount
      (setLock id { s.locks id with refunded := true } { s with entered := true }) = some s₂) :
    refund env ⟨(s.locks id).sender, 0, .refund id⟩ id s
      = .ok (.call (setLock id { s.locks id with refunded := true } { s with entered := true }) (some s₂)
        fun success s => do
          require (success = true) "Transfer failed"
          let lock := s.locks id
          return guardExit (emit (.Refunded id lock.sender lock.amount) s)) := by
  rw [← hpay]
  simp only [refund, nonPayable, guardEnter, require_bind_eq_ok, bind_assoc, pure_bind]
  exact ⟨trivial, hentered, hfound, hclaimed, hrefunded, htime, trivial, rfl⟩

theorem Valid.refundable (hinj : Function.Injective keccak256) (h : Valid keccak256 s)
    (hentered : s.entered = false) {id : Hash} (hfound : 0 < (s.locks id).amount)
    (hclaimed : (s.locks id).claimed = false) (hrefunded : (s.locks id).refunded = false) :
    s.Refundable keccak256 id := by
  intro env inner htime hself
  let m : Msg Hash := ⟨(s.locks id).sender, 0, .refund id⟩
  let s₁ : State Hash := setLock id { s.locks id with refunded := true } { s with entered := true }
  let t : Transfer Hash := ⟨m, (s.locks id).sender, (s.locks id).amount, env.timestamp⟩
  let s₂ : State Hash :=
    { s₁ with balance := s.balance - (s.locks id).amount, transfers := s.transfers ++ [t] }
  have hcovered : (s.locks id).amount ≤ s.balance := by
    have hsolvent := h.solvent {id}
    simp only [Finset.sum_singleton, Lock.due, hclaimed, hrefunded, Bool.false_eq_true, or_self,
      if_false] at hsolvent
    omega
  have hpay : pay env m (s.locks id).sender (s.locks id).amount s₁ = some s₂ := by
    rw [pay, if_neg]
    · rfl
    · rintro (hthis | hlt)
      · exact hself hthis
      · exact absurd hcovered (Nat.not_le.mpr hlt)
  have hrun := refund_enter hentered hfound hclaimed hrefunded htime hpay
  have hvalid := (bridge_keeps hinj env).upholds.execAll ((refund_keeps h rfl hrun).2.1 s₂ rfl) inner
  have hgoes := Contract.Leaves.execAll (c := bridge keccak256) (bridge_leaves env) Goes.refl
    (fun _ _ _ => Goes.trans) s₂ inner
  have hmem := hgoes.transfers t (List.mem_append_right _ List.mem_cons_self)
  exact ⟨_, Contract.exec_call hrun rfl, (hvalid.rightful t hmem).1, hmem⟩

/-- **An open lock can be refunded**: after any transactions, when its time has passed, its sender gets it
back with one message, also while the contract is paused. -/
theorem open_refundable (hinj : Function.Injective keccak256) {sender : Address} {funds : ℕ}
    {mpcNodes : List Address} {feeCollector insuranceFund : Address}
    (hdeploy : deploy sender funds mpcNodes feeCollector insuranceFund = .ok s)
    (txs : List (Env × Tx (Msg Hash))) {id : Hash}
    (hfound : 0 < (((bridge keccak256).after txs s).locks id).amount)
    (hclaimed : (((bridge keccak256).after txs s).locks id).claimed = false)
    (hrefunded : (((bridge keccak256).after txs s).locks id).refunded = false) :
    ((bridge keccak256).after txs s).Refundable keccak256 id := by
  have hdeployed : Valid keccak256 s := deploy_valid hdeploy
  have hmem : (bridge keccak256).after txs s ∈ (bridge keccak256).seenByAll txs s :=
    Contract.after_mem_seenByAll (bridge keccak256) txs s
  have hvalid : Valid keccak256 ((bridge keccak256).after txs s) :=
    Contract.Keeps.seenByAll (bridge_keeps hinj) hdeployed txs _ hmem
  exact hvalid.refundable hinj (after_not_entered hdeploy txs) hfound hclaimed hrefunded

/-- A lock, and a pause. -/
def lockAndPause : List (Env × Tx (Msg Bytes)) :=
  [(⟨99, 1000⟩, .mk ⟨7, 10 ^ 18, .lock (List.replicate 95 52) 3600 1⟩ [] true),
    (⟨99, 2000⟩, .mk ⟨1, 0, .emergencyPause⟩ [] true)]

theorem open_refundable_paused :
    ((bridge id).after lockAndPause deployed).Refundable id
      (packLock 7 1000 (10 ^ 18) (List.replicate 95 52) 0) := by
  have hdeploy : deploy 1 0 nodes 5 6 = .ok deployed := rfl
  exact open_refundable Function.injective_id hdeploy lockAndPause (by decide +kernel)
    (by decide +kernel) (by decide +kernel)

end Sthrip.Bridge
