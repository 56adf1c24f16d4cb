import Sthrip.Db.TransactionRepo
import Sthrip.Services.WithdrawalRecovery
import Sthrip.Txn.Lasts

set_option autoImplicit false

/-! # A withdrawal from start to end

The handler `withdraw_balance` of `api/routers/balance.py` for a request without an idempotency key:
one session that debits the balance and writes the journal, the transfer by the wallet, which takes
its time, and one session that marks the journal by the outcome. A withdrawal whose outcome is not
known is marked for a review, and is not refunded, as it may have been sent. The webhook and the
response are left out.
-/

namespace Sthrip

open Txn Prog

/-- How the call of the wallet ends. -/
inductive RpcOutcome where
  | sent (tx_hash : String) (fee : ℚ)
  | timeout
  /-- An exception of the given type. -/
  | error (type_name : String)

/-- A request, with the identifier that its row in the journal gets. -/
structure WithdrawalCall where
  agent_id : Id
  amount : ℚ
  address : String
  pending_id : Id
  /-- The address is the agent's own deposit address. -/
  self_send : Bool := false
  network : String := "mainnet"

namespace WithdrawalCall

variable (col : Columns) (w : WithdrawalCall)

/-- `_deduct_and_create_pending`. -/
def deductAndCreatePending : Program Unit := do
  let _ ← BalanceRepository.getOrCreate w.agent_id .XMR
  raiseIf (w.self_send = true)
    (.HTTPException 400 "Cannot withdraw to your own deposit address (self-send)")
  let _ ← tryCatch (BalanceRepository.withdraw col w.agent_id w.amount .XMR .other) fun e =>
    match e with
    | .ValueError _ _ => raise (.HTTPException 400 "Insufficient balance for this withdrawal")
    | e => raise e
  PendingWithdrawalRepository.create col w.pending_id w.agent_id w.amount w.address

/-- `_process_onchain_withdrawal`. -/
def processOnchainWithdrawal : RpcOutcome → Program Unit
  | .timeout => do
      withSession (PendingWithdrawalRepository.markNeedsReview w.pending_id
        "RPC timeout — verify on-chain before refunding")
      raise (.HTTPException 504 "Withdrawal timed out. An admin will review this transaction.")
  | .error type_name => do
      withSession (PendingWithdrawalRepository.markNeedsReview w.pending_id
        ("RPC error (see server logs): " ++ type_name))
      raise (.HTTPException 502
        "Withdrawal processing failed. An admin will review this transaction.")
  | .sent tx_hash fee => withSession do
      PendingWithdrawalRepository.markCompleted w.pending_id tx_hash
      TransactionRepository.createWithFee col tx_hash w.network (some w.agent_id) none w.amount .XMR
        .WITHDRAWAL .PENDING fee
      let _ ← BalanceRepository.getOrCreate w.agent_id .XMR
      return ()

/-- `_process_ledger_withdrawal`. -/
def processLedgerWithdrawal : Program Unit := withSession do
  PendingWithdrawalRepository.markCompleted w.pending_id "ledger-mode"
  let _ ← BalanceRepository.getOrCreate w.agent_id .XMR
  return ()

/-- `withdraw_balance`; without an outcome of the wallet the hub is in ledger mode. -/
def withdrawBalance (outcome : Option RpcOutcome) : Program Unit := do
  withSession (deductAndCreatePending col w)
  match outcome with
  | some outcome => processOnchainWithdrawal col w outcome
  | none => processLedgerWithdrawal w

end WithdrawalCall

/-! # A completed withdrawal

Requests and sweeps that mark the journal of withdrawals, in sessions of their own. A mark does not
look at the status of the row, and a sweep marks what it has listed before; so a withdrawal that is
completed in between is marked again. A completed withdrawal keeps its status and its transaction in
the runs in which a mark of a completed withdrawal completes it with the transaction that it has.
-/

/-- What marks withdrawals: requests, and sweeps. A request without an outcome of the wallet runs in
ledger mode. -/
inductive WithdrawalThread where
  | request (w : WithdrawalCall) (outcome : Option RpcOutcome)
  | sweep (wallet_service : RecoveryWallet) (max_age_minutes : ℤ)

def WithdrawalThread.run (col : Columns) : WithdrawalThread → Program Unit
  | .request w outcome => w.withdrawBalance col outcome
  | .sweep wallet_service max_age_minutes => withSession do
      let _ ← recoverPendingWithdrawals wallet_service max_age_minutes
      return ()

/-- A mark that finds the withdrawal completed completes it with the transaction that it has. -/
def MarksSame : Store schema → Session schema → Stmt schema → Input schema → Prop
  | st, σ, .update (Key.pendingWithdrawal id) _ set, _ =>
      ∀ pw, σ.view st.db (Key.pendingWithdrawal id) = some pw → pw.status = .COMPLETED →
        ∃ tx_hash now, pw.tx_hash = some tx_hash ∧
          set = PendingWithdrawalRepository.completed tx_hash now
  | _, _, _, _ => True

/-! ## The statements of the threads -/

/-- Withdrawals are not written through their objects. -/
def MarksOnly : Stmt schema → Prop
  | .assign (Key.pendingWithdrawal _) _ => False
  | _ => True

theorem allows_marksOnly (agent_id : Id) (token : Token) :
    BalanceRepository.Allows MarksOnly agent_id token where
  lock := trivial
  create := trivial
  assign _ := trivial

theorem getOrCreate_marksOnly (agent_id : Id) (token : Token) :
    (BalanceRepository.getOrCreate agent_id token).only MarksOnly :=
  BalanceRepository.getOrCreate_only (allows_marksOnly ..) trivial

theorem markCompleted_marksOnly (pw_id : Id) (tx_hash : String) :
    (PendingWithdrawalRepository.markCompleted pw_id tx_hash).only MarksOnly :=
  only_bind (only_stmt trivial) fun _ => only_bind (only_stmt trivial) fun _ => only_raiseIf

theorem markNeedsReview_marksOnly (pw_id : Id) (reason : String) :
    (PendingWithdrawalRepository.markNeedsReview pw_id reason).only MarksOnly :=
  only_bind (only_stmt trivial) fun _ => only_raiseIf

variable {col : Columns}

theorem deductAndCreatePending_marksOnly (w : WithdrawalCall) :
    (w.deductAndCreatePending col).only MarksOnly := by
  refine only_bind (getOrCreate_marksOnly _ _) fun _ => only_bind only_raiseIf fun _ => ?_
  refine only_bind (only_tryCatch ?_ fun e => ?_) fun _ => ?_
  · refine only_bind (BalanceRepository.getForUpdate_only (allows_marksOnly _ _)) fun balance => ?_
    refine only_bind only_raiseIf fun _ => ?_
    exact only_bind (only_bind (only_stmt trivial) fun _ => only_stmt trivial) fun _ => trivial
  · cases e <;> trivial
  · exact only_bind (only_stmt trivial) fun _ => only_bind (only_stmt trivial) fun _ => only_raiseIf

theorem processOnchain_marksOnly (w : WithdrawalCall) (outcome : RpcOutcome) :
    (w.processOnchainWithdrawal col outcome).only MarksOnly := by
  cases outcome with
  -- the transfer may have been sent: the row is only marked for a review
  | timeout =>
      exact only_bind (only_withSession trivial trivial (markNeedsReview_marksOnly _ _))
        fun _ => trivial
  | error type_name =>
      exact only_bind (only_withSession trivial trivial (markNeedsReview_marksOnly _ _))
        fun _ => trivial
  | sent tx_hash fee =>
      refine only_withSession trivial trivial (only_bind (markCompleted_marksOnly _ _) fun _ => ?_)
      refine only_bind (only_bind (only_stmt trivial) fun _ => only_raiseIf) fun _ => ?_
      exact only_bind (getOrCreate_marksOnly _ _) fun _ => trivial

theorem processLedger_marksOnly (w : WithdrawalCall) :
    w.processLedgerWithdrawal.only MarksOnly := by
  refine only_withSession trivial trivial (only_bind (markCompleted_marksOnly _ _) fun _ => ?_)
  exact only_bind (getOrCreate_marksOnly _ _) fun _ => trivial

theorem recoverOne_marksOnly (outgoing : List OutgoingTransfer) (pw : Id × PendingWithdrawal) :
    (recoverOne outgoing pw).only MarksOnly := by
  unfold recoverOne
  split
  · exact only_bind (markCompleted_marksOnly _ _) fun _ => trivial
  · exact only_bind (markNeedsReview_marksOnly _ _) fun _ => trivial

theorem WithdrawalThread.run_marksOnly (t : WithdrawalThread) : (t.run col).only MarksOnly := by
  cases t with
  | request w outcome =>
      refine only_bind (only_withSession trivial trivial (deductAndCreatePending_marksOnly w))
        fun _ => ?_
      cases outcome with
      | none => exact processLedger_marksOnly w
      | some outcome => exact processOnchain_marksOnly w outcome
  | sweep wallet_service max_age_minutes =>
      refine only_withSession trivial trivial (only_bind ?_ fun _ => trivial)
      refine only_bind (only_bind (only_stmt trivial) fun now => ?_) fun stale => ?_
      · exact only_bind (only_query trivial fun _ => trivial) fun _ => trivial
      · cases wallet_service with
        | absent => exact only_tally stale (recoverOne_marksOnly [])
        | unreachable => trivial
        | lists outgoing => exact only_tally stale (recoverOne_marksOnly outgoing)

/-! ## Completed withdrawals -/

/-- The row is a withdrawal that is completed with the transaction. -/
def CompletedWith (tx_hash : Option String) : (k : Key) → Row k → Prop
  | .pendingWithdrawal _, pw => pw.status = .COMPLETED ∧ pw.tx_hash = tx_hash
  | _, _ => False

/-- The step lemma: such a mark leaves a completed withdrawal its status and its transaction. -/
theorem MarksSame.maintains {tx_hash : Option String} {st : Store schema} {σ : Session schema}
    {s : Stmt schema} {x : Input schema} (h : MarksSame st σ s x) (hs : MarksOnly s) :
    s.Maintains (CompletedWith tx_hash) st σ := by
  cases s with
  | update k guard set =>
      intro r hr _ hP
      cases k with
      | pendingWithdrawal id =>
          obtain ⟨hcompleted, htx⟩ := hP
          -- the mark of a completed row names the hash that the row has
          obtain ⟨hash, now, hhash, hset⟩ := h r hr hcompleted
          rw [hset]
          exact ⟨rfl, hhash.symm.trans htx⟩
      | _ => exact hP.elim
  | assign k set =>
      intro r _ hP
      cases k with
      | pendingWithdrawal id => exact hs.elim
      | _ => exact hP.elim
  | _ => trivial

/-- A committed withdrawal that is completed stays completed, with the same transaction, however the
requests and the sweeps interleave. -/
theorem completed_stays (threads : ℕ → WithdrawalThread) {st : Store schema} (hwf : st.db.WF)
    {c c' : Config schema Unit}
    (hc : Config.Reaches MarksSame (.start st fun i => (threads i).run col) c)
    (hc' : Config.Reaches MarksSame c c') {id : Id} {pw : PendingWithdrawal}
    (hrow : c.store.db.rows (Key.pendingWithdrawal id) = some pw) (hstatus : pw.status = .COMPLETED) :
    ∃ pw', c'.store.db.rows (Key.pendingWithdrawal id) = some pw' ∧ pw'.status = .COMPLETED ∧
      pw'.tx_hash = pw.tx_hash := by
  have hok : ∀ st σ s x, (MarksSame st σ s x ∧ MarksOnly s) →
      s.Maintains (CompletedWith pw.tx_hash) st σ := fun _ _ _ _ h => h.1.maintains h.2
  -- what the threads can run is known from their texts
  obtain ⟨hreach, honly⟩ := hc.only fun i => (threads i).run_marksOnly
  obtain ⟨hreach', -⟩ := hc'.only honly
  have hmaintained := hreach.maintained (Config.start_maintained hwf _) hok
  obtain ⟨pw', hrow', hstatus', htx⟩ := Config.lasts hreach' hmaintained hok hrow ⟨hstatus, rfl⟩
  exact ⟨pw', hrow', hstatus', htx⟩

/-! ## A sweep that comes late -/

/-- Agent 1 withdraws two units, which are sent, while a sweep looks for withdrawals that have been
pending for five minutes. -/
def sentAndSwept : ℕ → WithdrawalThread
  | 0 => .request { agent_id := 1, amount := 2, address := "888tNk", pending_id := 7 }
      (some (.sent "f00d" 0))
  | _ => .sweep (.lists []) 5

/-- The two threads before they start. -/
def sweepAtStart : Config schema Unit := .start tenUnits fun i => (sentAndSwept i).run .rounding

/-- The withdrawal has the status, and the transaction `f00d`. -/
def Seven (status : WithdrawalStatus) (c : Config schema Unit) : Prop :=
  ∃ pw, c.store.db.rows (Key.pendingWithdrawal 7) = some pw ∧ pw.status = status ∧
    pw.tx_hash = some "f00d"

/-- Is the withdrawal completed after the first schedule, and has it the status after the second? -/
def marksSeven (l l' : List (ℕ × Input schema)) (status : WithdrawalStatus) : Bool :=
  (Config.trace l sweepAtStart).any fun c =>
    ((c.store.db.rows (Key.pendingWithdrawal 7)).any fun pw =>
      pw.status = .COMPLETED ∧ pw.tx_hash = some "f00d") &&
    (Config.trace l' c).any fun c' =>
      (c'.store.db.rows (Key.pendingWithdrawal 7)).any fun pw =>
        pw.status = status ∧ pw.tx_hash = some "f00d"

theorem exists_of_marksSeven {l l' : List (ℕ × Input schema)} {status : WithdrawalStatus}
    (h : marksSeven l l' status = true) :
    ∃ c, Config.trace l sweepAtStart = some c ∧ Seven .COMPLETED c ∧
      ∃ c', Config.trace l' c = some c' ∧ Seven status c' := by
  simpa only [marksSeven, Seven, Option.any_eq_true, Bool.and_eq_true, decide_eq_true_eq] using h

def marksOpen : Store schema → Session schema → Stmt schema → Input schema → Bool
  | st, σ, .update (Key.pendingWithdrawal id) _ _, _ =>
      (σ.view st.db (Key.pendingWithdrawal id)).all fun pw => pw.status ≠ .COMPLETED
  | _, _, _, _ => true

theorem marksSame_of_test (st : Store schema) (σ : Session schema) (s : Stmt schema)
    (x : Input schema) (h : marksOpen st σ s x = true) : MarksSame st σ s x := by
  unfold MarksSame
  split
  · intro pw hpw hstatus
    simp [marksOpen, hpw, hstatus] at h
  · trivial

/-- The sweep comes when the withdrawal is completed. -/
theorem completed_stays_swept : ∃ c', Config.Reaches MarksSame sweepAtStart c' ∧
    ∃ pw, c'.store.db.rows (Key.pendingWithdrawal 7) = some pw ∧ pw.status = .COMPLETED ∧
      pw.tx_hash = some "f00d" := by
  have hrun : marksSeven (turn 0 12 0) (turn 1 3 1) .COMPLETED = true := by decide +kernel
  have hpasses : (Config.trace (turn 0 12 0) sweepAtStart).all
      (Config.passes marksOpen (turn 1 3 1)) = true := by decide +kernel
  obtain ⟨c, hc, ⟨pw, hrow, hstatus, htx⟩, c', hc', -⟩ := exists_of_marksSeven hrun
  rw [hc] at hpasses
  have hreach : Config.Reaches MarksSame sweepAtStart c :=
    Config.reaches_of_trace marksOpen marksSame_of_test (turn 0 12 0) .refl (by decide +kernel) hc
  have hreach' : Config.Reaches MarksSame c c' :=
    Config.reaches_of_trace marksOpen marksSame_of_test (turn 1 3 1) .refl hpasses hc'
  have hreach'' : Config.Reaches MarksSame sweepAtStart c' :=
    Config.reaches_of_trace marksOpen marksSame_of_test (turn 1 3 1) hreach hpasses hc'
  obtain ⟨pw', hrow', hstatus', htx'⟩ :=
    completed_stays sentAndSwept tenUnits_wf hreach hreach' hrow hstatus
  exact ⟨c', hreach'', pw', hrow', hstatus', htx'.trans htx⟩

/-- The sweep has listed the withdrawal when the transfer is done and the request completes it; then
the sweep marks it for a review. -/
theorem completed_needs_review : ¬∀ (threads : ℕ → WithdrawalThread) (st : Store schema)
    (c c' : Config schema Unit) (id : Id) (pw : PendingWithdrawal), st.db.WF →
    Config.Reaches (fun _ _ _ _ => True) (.start st fun i => (threads i).run .rounding) c →
    Config.Reaches (fun _ _ _ _ => True) c c' →
    c.store.db.rows (Key.pendingWithdrawal id) = some pw → pw.status = .COMPLETED →
    ∃ pw', c'.store.db.rows (Key.pendingWithdrawal id) = some pw' ∧ pw'.status = .COMPLETED ∧
      pw'.tx_hash = pw.tx_hash := by
  intro h
  have hrun : marksSeven (turn 0 8 0 ++ turn 1 3 1 ++ turn 0 4 1) (turn 1 2 1) .NEEDS_REVIEW
      = true := by decide +kernel
  have hpasses : (Config.trace (turn 0 8 0 ++ turn 1 3 1 ++ turn 0 4 1) sweepAtStart).all
      (Config.passes (fun _ _ _ _ => true) (turn 1 2 1)) = true := by decide +kernel
  obtain ⟨c, hc, ⟨pw, hrow, hstatus, -⟩, c', hc', pw', hrow', hstatus', -⟩ := exists_of_marksSeven hrun
  rw [hc] at hpasses
  have hreach := Config.reaches_of_trace (fun _ _ _ _ => true) (fun _ _ _ _ _ => trivial)
    (turn 0 8 0 ++ turn 1 3 1 ++ turn 0 4 1) .refl (by decide +kernel) hc
  have hreach' := Config.reaches_of_trace (fun _ _ _ _ => true) (fun _ _ _ _ _ => trivial)
    (turn 1 2 1) .refl hpasses hc'
  obtain ⟨pw'', hrow'', hstatus'', -⟩ :=
    h sentAndSwept tenUnits c c' 7 pw tenUnits_wf hreach hreach' hrow hstatus
  -- the row is not completed any more
  rw [hrow', Option.some.injEq] at hrow''
  rw [← hrow'', hstatus'] at hstatus''
  exact absurd hstatus'' (by decide)

end Sthrip
