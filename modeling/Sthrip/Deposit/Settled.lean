import Sthrip.Deposit.Overlap
import Mathlib.Algebra.Group.Submonoid.BigOperators
import Mathlib.Algebra.Order.BigOperators.Group.List

set_option autoImplicit false

/-! # Polls one after another

One monitor polls a growing chain. After each poll the transfers with enough confirmations should
be credited, and the others should be on the pending balance.

A poll asks for the transfers from the highest block on in which it has seen one. A transfer of a
lower block that is still pending is then not listed again, and stays pending for ever.
`WindowKeeps` is the condition that this does not happen: a transfer that becomes confirmed is not
below the window of that poll.
-/

namespace Sthrip

open Txn Prog

/-! ## The chain at a poll -/

/-- The agent a transfer is for. -/
def Incoming.agent (addresses : ℕ → Option String) (owner : String → Option Id) (tx : Incoming) :
    Option Id :=
  if tx.minor = 0 then none
  else (addresses tx.minor).bind fun address => if address = "" then none else owner address

/-- The confirmations of a transfer at a height of the chain. -/
def Incoming.confirmations (tx : Incoming) (height : ℕ) : ℤ :=
  if 0 < tx.block_height then height - tx.block_height else 0

/-- The wallet shows every transfer of the chain up to its height. -/
structure WalletView.ShowsAll (chain : List Incoming) (addresses : ℕ → Option String)
    (w : WalletView) : Prop where
  transfers : ∀ tx, tx ∈ w.incoming_transfers ↔ tx ∈ chain ∧ tx.block_height < w.height
  nodup : (w.incoming_transfers.map (·.tx_hash)).Nodup
  addresses : ∀ tx ∈ w.incoming_transfers, w.addresses.lookup tx.minor = addresses tx.minor

/-- The transfer is on the chain, with enough confirmations. -/
def DepositMonitor.Confirms (m : DepositMonitor) (w : WalletView) (tx : Incoming) : Prop :=
  tx ∈ w.incoming_transfers ∧ m.min_confirmations ≤ tx.confirmations w.height

instance (m : DepositMonitor) (w : WalletView) (tx : Incoming) : Decidable (m.Confirms w tx) :=
  inferInstanceAs (Decidable (_ ∧ _))

/-- Before the first poll. -/
def noWallet : WalletView := ⟨[], 0, []⟩

/-- A transfer that becomes confirmed at a poll is not below the window of the poll. -/
def WindowKeeps (m : DepositMonitor) (own : Incoming → Option Id) :
    WalletView → ℕ → List WalletView → Prop
  | _, _, [] => True
  | prev, last_height, w :: views =>
      (∀ tx ∈ w.incoming_transfers, (own tx).isSome → m.Confirms w tx → ¬m.Confirms prev tx →
        last_height = 0 ∨ last_height ≤ tx.block_height) ∧
      WindowKeeps m own w
        (DepositMonitor.maxHeight last_height (WalletService.getIncomingTransfers w last_height))
        views

/-- The statements of a run in which every commit succeeds. -/
def Commits : StepCond schema := fun _ s x => s = .commit → x.choice = 0

/-! ## Sums over the chain -/

/-- One term of a sum changes. -/
theorem sum_map_change {α κ : Type} {name : α → κ} {l : List α} (hnodup : (l.map name).Nodup)
    {a : α} (ha : a ∈ l) {f g : α → ℚ} (h : ∀ b ∈ l, name b ≠ name a → g b = f b) :
    (l.map g).sum = (l.map f).sum + (g a - f a) := by
  induction l with
  | nil => exact absurd ha List.not_mem_nil
  | cons b l ih =>
      rw [List.map_cons, List.nodup_cons] at hnodup
      rw [List.map_cons, List.map_cons, List.sum_cons, List.sum_cons]
      rcases List.mem_cons.mp ha with rfl | hal
      · have hsame : l.map g = l.map f := by
          refine List.map_congr_left fun c hc => h c (List.mem_cons_of_mem _ hc) fun he => ?_
          exact hnodup.1 (he ▸ List.mem_map_of_mem hc)
        rw [hsame]
        ring
      · have hb : g b = f b := by
          refine h b List.mem_cons_self fun he => ?_
          exact hnodup.1 (he ▸ List.mem_map_of_mem hal)
        rw [hb, ih hnodup.2 hal fun c hc => h c (List.mem_cons_of_mem _ hc)]
        ring

section DepositBooks

variable {chain : List Incoming} {own : Incoming → Option Id} {available₀ : Id → ℚ}
  {db db' : DB schema} {tx : Incoming} {a : Id} {s : TransactionStatus}

/-- The status of the row of a transfer. -/
def stage (db : DB schema) (tx : Incoming) : Option TransactionStatus :=
  (db.rows (Key.transaction tx.tx_hash)).map (·.status)

/-- What a transfer counts among those of an agent with a status. -/
def counted (own : Incoming → Option Id) (db : DB schema) (a : Id) (s : TransactionStatus)
    (tx : Incoming) : ℚ :=
  if own tx = some a ∧ stage db tx = some s then Hub.piconeroToXmr tx.amount else 0

/-- The transfers of an agent with a status. -/
def totalIn (chain : List Incoming) (own : Incoming → Option Id) (db : DB schema) (a : Id)
    (s : TransactionStatus) : ℚ :=
  (chain.map (counted own db a s)).sum

/-- The balances are what the rows of the transfers say, and so are the credits. -/
structure DepositBooks (chain : List Incoming) (own : Incoming → Option Id) (available₀ : Id → ℚ)
    (db : DB schema) : Prop where
  available : ∀ a, (BalanceRepository.balanceOf db a .XMR).available
    = available₀ a + totalIn chain own db a .CONFIRMED
  pending : ∀ a, (BalanceRepository.balanceOf db a .XMR).pending = totalIn chain own db a .PENDING
  rows : ∀ tx ∈ chain, ∀ r : Transaction, db.rows (Key.transaction tx.tx_hash) = some r →
    r.amount = Hub.piconeroToXmr tx.amount ∧ (r.status = .PENDING ∨ r.status = .CONFIRMED)
  credits : ∀ tx ∈ chain, deposits db tx.tx_hash
    = if stage db tx = some .CONFIRMED then (own tx).toList.map tx.credit else []

theorem transferAmount_nonneg (tx : Incoming) : 0 ≤ Hub.piconeroToXmr tx.amount := by
  unfold Hub.piconeroToXmr
  positivity

theorem counted_nonneg : 0 ≤ counted own db a s tx := by
  unfold counted
  split
  · exact transferAmount_nonneg tx
  · exact le_rfl

theorem counted_mem : counted own db a s tx ∈ decimals 12 := by
  unfold counted
  split
  · exact piconeroToXmr_mem _
  · exact (decimals 12).zero_mem

theorem totalIn_mem : totalIn chain own db a s ∈ decimals 12 := by
  refine list_sum_mem fun x hx => ?_
  obtain ⟨tx, -, rfl⟩ := List.mem_map.mp hx
  exact counted_mem

theorem counted_le_totalIn (htx : tx ∈ chain) : counted own db a s tx ≤ totalIn chain own db a s := by
  refine List.single_le_sum (fun x hx => ?_) _ (List.mem_map_of_mem htx)
  obtain ⟨tx', -, rfl⟩ := List.mem_map.mp hx
  exact counted_nonneg

theorem stage_eq_none (h : db.rows (Key.transaction tx.tx_hash) = none) : stage db tx = none := by
  rw [stage, h]
  rfl

theorem stage_eq_some {r : Transaction} (h : db.rows (Key.transaction tx.tx_hash) = some r) :
    stage db tx = some r.status := by
  rw [stage, h]
  rfl

/-- Nothing about transfers or balances is touched. -/
theorem DepositBooks.congr (h : DepositBooks chain own available₀ db)
    (hrows : ∀ txid, db'.rows (Key.transaction txid) = db.rows (Key.transaction txid))
    (hbalance : ∀ a, db'.rows (Key.balance a .XMR) = db.rows (Key.balance a .XMR))
    (hlog : db'.log = db.log) : DepositBooks chain own available₀ db' := by
  have hstage : ∀ tx, stage db' tx = stage db tx := fun tx => by rw [stage, hrows, stage]
  have htotal : ∀ a s, totalIn chain own db' a s = totalIn chain own db a s := by
    intro a s
    refine congrArg List.sum (List.map_congr_left fun tx _ => ?_)
    rw [counted, counted, hstage]
  have hof : ∀ a, BalanceRepository.balanceOf db' a .XMR = BalanceRepository.balanceOf db a .XMR :=
    fun a => by rw [BalanceRepository.balanceOf, hbalance, BalanceRepository.balanceOf]
  refine ⟨fun a => ?_, fun a => ?_, fun tx htx r hr => ?_, fun tx htx => ?_⟩
  · rw [hof, htotal, h.available]
  · rw [hof, htotal, h.pending]
  · exact h.rows tx htx r (hrows tx.tx_hash ▸ hr)
  · rw [deposits, hlog, hstage]
    exact h.credits tx htx

/-- One transfer has turned to the status `s`, and the books are kept. -/
structure Turned (chain : List Incoming) (own : Incoming → Option Id) (available₀ : Id → ℚ)
    (tx : Incoming) (s : TransactionStatus) (db db' : DB schema) : Prop where
  books : DepositBooks chain own available₀ db'
  self : stage db' tx = some s
  other : ∀ tx', tx'.tx_hash ≠ tx.tx_hash → stage db' tx' = stage db tx'

/-- The row of one transfer is made or changes its status, and the balance of its agent and the
credits follow. -/
theorem DepositBooks.change (h : DepositBooks chain own available₀ db)
    (hchain : (chain.map (·.tx_hash)).Nodup) (htx : tx ∈ chain) {r : Transaction}
    (hamount : r.amount = Hub.piconeroToXmr tx.amount)
    (hstatus : r.status = .PENDING ∨ r.status = .CONFIRMED)
    (hrow : db'.rows (Key.transaction tx.tx_hash) = some r)
    (hrows : ∀ txid, txid ≠ tx.tx_hash →
      db'.rows (Key.transaction txid) = db.rows (Key.transaction txid))
    (havailable : ∀ a, (BalanceRepository.balanceOf db' a .XMR).available
      = (BalanceRepository.balanceOf db a .XMR).available
        + (counted own db' a .CONFIRMED tx - counted own db a .CONFIRMED tx))
    (hpending : ∀ a, (BalanceRepository.balanceOf db' a .XMR).pending
      = (BalanceRepository.balanceOf db a .XMR).pending
        + (counted own db' a .PENDING tx - counted own db a .PENDING tx))
    (hcredits : deposits db' tx.tx_hash
      = if r.status = .CONFIRMED then (own tx).toList.map tx.credit else [])
    (hothers : ∀ txid, txid ≠ tx.tx_hash → deposits db' txid = deposits db txid) :
    Turned chain own available₀ tx r.status db db' := by
  have hstage : ∀ tx', tx'.tx_hash ≠ tx.tx_hash → stage db' tx' = stage db tx' :=
    fun tx' hne => by rw [stage, hrows _ hne, stage]
  have htotal : ∀ a s, totalIn chain own db' a s
      = totalIn chain own db a s + (counted own db' a s tx - counted own db a s tx) := by
    intro a s
    refine sum_map_change hchain htx fun tx' _ hne => ?_
    rw [counted, counted, hstage tx' hne]
  refine ⟨⟨fun a => ?_, fun a => ?_, fun tx' htx' r' hr' => ?_, fun tx' htx' => ?_⟩,
    stage_eq_some hrow, hstage⟩
  · rw [havailable, h.available, htotal]
    ring
  · rw [hpending, h.pending, htotal]
  · by_cases hne : tx'.tx_hash = tx.tx_hash
    · obtain rfl : tx' = tx := List.inj_on_of_nodup_map hchain htx' htx hne
      obtain rfl := Option.some.inj (hrow.symm.trans hr')
      exact ⟨hamount, hstatus⟩
    · exact h.rows tx' htx' r' (hrows _ hne ▸ hr')
  · by_cases hne : tx'.tx_hash = tx.tx_hash
    · obtain rfl : tx' = tx := List.inj_on_of_nodup_map hchain htx' htx hne
      rw [hcredits, stage_eq_some hrow]
      simp only [Option.some.injEq]
    · rw [hothers _ hne, h.credits tx' htx', hstage tx' hne]

end DepositBooks

/-! ## One transfer -/

section Rows

variable {db : DB schema} {txid : String} {a a' : Id} {b : AgentBalance} {r : Transaction}

theorem balanceOf_transaction : BalanceRepository.balanceOf (db.put (Key.transaction txid) r) a .XMR
    = BalanceRepository.balanceOf db a .XMR := by
  rw [BalanceRepository.balanceOf, DB.put_rows_ne _ _ (by simp), BalanceRepository.balanceOf]

theorem balanceOf_balance : BalanceRepository.balanceOf (db.put (Key.balance a .XMR) b) a' .XMR
    = if a' = a then b else BalanceRepository.balanceOf db a' .XMR := by
  split
  · next h =>
      subst h
      rw [BalanceRepository.balanceOf, DB.put_rows_self, Option.getD_some]
  · next h =>
      rw [BalanceRepository.balanceOf, DB.put_rows_ne _ _ (by simpa using h),
        BalanceRepository.balanceOf]

theorem balanceOf_posted {x : ℚ} {ref : Ref} :
    BalanceRepository.balanceOf (BalanceRepository.posted db a .XMR b x ref) a' .XMR
      = if a' = a then b else BalanceRepository.balanceOf db a' .XMR := balanceOf_balance

/-- The rows of transactions are those of the database without its balances. -/
theorem transaction_balance {q : String} : (db.put (Key.balance a .XMR) b).rows (Key.transaction q)
    = db.rows (Key.transaction q) := DB.put_rows_ne _ _ (by simp)

theorem transaction_posted {q : String} {x : ℚ} {ref : Ref} :
    (BalanceRepository.posted db a .XMR b x ref).rows (Key.transaction q)
      = db.rows (Key.transaction q) := BalanceRepository.posted_rows_ne (by simp)

theorem transaction_ne {q : String} (h : q ≠ txid) : (db.put (Key.transaction txid) r).rows
    (Key.transaction q) = db.rows (Key.transaction q) := DB.put_rows_ne _ _ (by simpa using h)

theorem deposits_put {k : Key} {row : Row k} : deposits (db.put k row) txid = deposits db txid := by
  rw [deposits, DB.put_log, deposits]

theorem deposits_posted {p : Posting} {txid' : String} (hp : p.ref = .deposit txid) :
    deposits (db.append (.posting p)) txid'
      = deposits db txid' ++ if txid' = txid then [p] else [] := by
  rw [deposits, DB.append_log, List.filterMap_append, ← deposits]
  congr 1
  by_cases h : txid' = txid
  · simp [Entry.depositOf, hp, h]
  · simp [Entry.depositOf, hp, h, Ne.symm h]

end Rows

section Poll

variable {chain : List Incoming} {own : Incoming → Option Id} {available₀ : Id → ℚ}
  {m : DepositMonitor} {owner : String → Option Id} {tx : Incoming} {a : Transfer}
  {v v' : Solo schema} {R : Exn → Solo schema → Prop} {agent_id : Id}

/-- The status of a transfer after a poll that lists it. -/
def settledAs (m : DepositMonitor) (a : Transfer) (old : Option TransactionStatus) :
    TransactionStatus :=
  if old = some .CONFIRMED ∨ m.min_confirmations ≤ a.confirmations then .CONFIRMED else .PENDING

/-- The poll has handled the transfer `tx`, listed as `a`, and no other. -/
structure TransferHandled (chain : List Incoming) (own : Incoming → Option Id) (available₀ : Id → ℚ)
    (m : DepositMonitor) (tx : Incoming) (a : Transfer) (v v' : Solo schema) : Prop where
  books : DepositBooks chain own available₀ v'.db
  self : stage v'.db tx
    = if (own tx).isSome then some (settledAs m a (stage v.db tx)) else stage v.db tx
  other : ∀ tx', tx'.tx_hash ≠ tx.tx_hash → stage v'.db tx' = stage v.db tx'
  saved : v'.saved = v.saved

section Steps

variable (hbooks : DepositBooks chain own available₀ v.db) (hchain : (chain.map (·.tx_hash)).Nodup)
  (htx : tx ∈ chain) (hown : own tx = some agent_id)
  (havailable₀ : ∀ a, available₀ a ∈ decimals 12)
include hbooks hchain htx hown

/-- A transfer that is confirmed when it is first seen. -/
theorem DepositBooks.credit_new (hnone : v.db.rows (Key.transaction tx.tx_hash) = none) {r : Transaction}
    (hamount : r.amount = Hub.piconeroToXmr tx.amount) (hr : r.status = .CONFIRMED)
    {b : AgentBalance}
    (hb : b.available = (BalanceRepository.balanceOf v.db agent_id .XMR).available
        + Hub.piconeroToXmr tx.amount)
    (hb' : b.pending = (BalanceRepository.balanceOf v.db agent_id .XMR).pending) :
    Turned chain own available₀ tx r.status v.db (BalanceRepository.posted
      (v.db.put (Key.transaction tx.tx_hash) r) agent_id .XMR b (Hub.piconeroToXmr tx.amount)
      (.deposit tx.tx_hash)) := by
  have hstage := stage_eq_none hnone
  have hrow : (BalanceRepository.posted (v.db.put (Key.transaction tx.tx_hash) r) agent_id .XMR b
      (Hub.piconeroToXmr tx.amount) (.deposit tx.tx_hash)).rows (Key.transaction tx.tx_hash)
        = some r := by
    rw [transaction_posted, DB.put_rows_self]
  refine hbooks.change hchain htx hamount (.inr hr) hrow (fun txid hne => ?_) (fun a => ?_)
    (fun a => ?_) ?_ fun txid hne => ?_
  · rw [transaction_posted, transaction_ne hne]
  · rw [counted, counted, stage_eq_some hrow, hstage, hr, hown, balanceOf_posted,
      balanceOf_transaction]
    by_cases ha : a = agent_id
    · subst ha
      simp [hb]
    · simp [ha, Ne.symm ha]
  · rw [counted, counted, stage_eq_some hrow, hstage, hr, hown, balanceOf_posted,
      balanceOf_transaction]
    by_cases ha : a = agent_id
    · subst ha
      simp [hb']
    · simp [ha]
  · rw [BalanceRepository.posted, deposits_posted rfl, deposits_put, deposits_put,
      hbooks.credits tx htx, hstage, hown]
    simp [hr, Incoming.credit]
  · rw [BalanceRepository.posted, deposits_posted rfl, deposits_put, deposits_put, if_neg hne,
      List.append_nil]

/-- A transfer that is first seen unconfirmed. -/
theorem DepositBooks.add_pending (hnone : v.db.rows (Key.transaction tx.tx_hash) = none) {r : Transaction}
    (hamount : r.amount = Hub.piconeroToXmr tx.amount) (hr : r.status = .PENDING)
    {b : AgentBalance}
    (hb : b.available = (BalanceRepository.balanceOf v.db agent_id .XMR).available)
    (hb' : b.pending = (BalanceRepository.balanceOf v.db agent_id .XMR).pending
        + Hub.piconeroToXmr tx.amount) :
    Turned chain own available₀ tx r.status v.db
      ((v.db.put (Key.transaction tx.tx_hash) r).put (Key.balance agent_id .XMR) b) := by
  have hstage := stage_eq_none hnone
  have hrow : ((v.db.put (Key.transaction tx.tx_hash) r).put (Key.balance agent_id .XMR) b).rows
      (Key.transaction tx.tx_hash) = some r := by
    rw [transaction_balance, DB.put_rows_self]
  refine hbooks.change hchain htx hamount (.inl hr) hrow (fun txid hne => ?_) (fun a => ?_)
    (fun a => ?_) ?_ fun txid hne => ?_
  · rw [transaction_balance, transaction_ne hne]
  · rw [counted, counted, stage_eq_some hrow, hstage, hr, hown, balanceOf_balance,
      balanceOf_transaction]
    by_cases ha : a = agent_id
    · subst ha
      simp [hb]
    · simp [ha]
  · rw [counted, counted, stage_eq_some hrow, hstage, hr, hown, balanceOf_balance,
      balanceOf_transaction]
    by_cases ha : a = agent_id
    · subst ha
      simp [hb']
    · simp [ha, Ne.symm ha]
  · rw [deposits_put, deposits_put, hbooks.credits tx htx, hstage]
    simp [hr]
  · rw [deposits_put, deposits_put]

/-- A pending transfer that has become confirmed. -/
theorem DepositBooks.confirm {o r : Transaction}
    (ho : v.db.rows (Key.transaction tx.tx_hash) = some o) (hpending : o.status = .PENDING)
    (hamount : r.amount = o.amount) (hr : r.status = .CONFIRMED) {b b' : AgentBalance}
    (hb : b'.available = (BalanceRepository.balanceOf v.db agent_id .XMR).available
        + Hub.piconeroToXmr tx.amount)
    (hb' : b'.pending = (BalanceRepository.balanceOf v.db agent_id .XMR).pending
        - Hub.piconeroToXmr tx.amount) :
    Turned chain own available₀ tx r.status v.db ((BalanceRepository.posted
      (v.db.put (Key.transaction tx.tx_hash) r) agent_id .XMR b (Hub.piconeroToXmr tx.amount)
      (.deposit tx.tx_hash)).put (Key.balance agent_id .XMR) b') := by
  have hstage := stage_eq_some ho
  have hrow : ((BalanceRepository.posted (v.db.put (Key.transaction tx.tx_hash) r) agent_id .XMR b
      (Hub.piconeroToXmr tx.amount) (.deposit tx.tx_hash)).put (Key.balance agent_id .XMR) b').rows
      (Key.transaction tx.tx_hash) = some r := by
    rw [transaction_balance, transaction_posted, DB.put_rows_self]
  refine hbooks.change hchain htx (hamount.trans (hbooks.rows tx htx o ho).1) (.inr hr) hrow
    (fun txid hne => ?_) (fun a => ?_) (fun a => ?_) ?_ fun txid hne => ?_
  · rw [transaction_balance, transaction_posted, transaction_ne hne]
  · rw [counted, counted, stage_eq_some hrow, hstage, hr, hpending, hown, balanceOf_balance]
    by_cases ha : a = agent_id
    · subst ha
      simp [hb]
    · rw [if_neg ha, balanceOf_posted, balanceOf_transaction]
      simp [ha, Ne.symm ha]
  · rw [counted, counted, stage_eq_some hrow, hstage, hr, hpending, hown, balanceOf_balance]
    by_cases ha : a = agent_id
    · subst ha
      simp [hb', sub_eq_add_neg]
    · rw [if_neg ha, balanceOf_posted, balanceOf_transaction]
      simp [ha, Ne.symm ha]
  · rw [deposits_put, BalanceRepository.posted, deposits_posted rfl, deposits_put, deposits_put,
      hbooks.credits tx htx, hstage, hpending, hown]
    simp [hr, Incoming.credit]
  · rw [deposits_put, BalanceRepository.posted, deposits_posted rfl, deposits_put, deposits_put,
      if_neg hne, List.append_nil]

omit hown in
/-- A row that keeps its status. -/
theorem DepositBooks.refresh {o r : Transaction}
    (ho : v.db.rows (Key.transaction tx.tx_hash) = some o) (hamount : r.amount = o.amount)
    (hstatus : r.status = o.status) :
    Turned chain own available₀ tx r.status v.db (v.db.put (Key.transaction tx.tx_hash) r) := by
  have hrow : (v.db.put (Key.transaction tx.tx_hash) r).rows (Key.transaction tx.tx_hash)
      = some r := DB.put_rows_self ..
  obtain ⟨hamount', hstatus'⟩ := hbooks.rows tx htx o ho
  refine hbooks.change hchain htx (hamount.trans hamount') (hstatus ▸ hstatus') hrow
    (fun txid hne => transaction_ne hne) (fun a => ?_) (fun a => ?_) ?_ fun txid hne => deposits_put
  · rw [counted, counted, stage_eq_some hrow, stage_eq_some ho, hstatus, balanceOf_transaction,
      sub_self, add_zero]
  · rw [counted, counted, stage_eq_some hrow, stage_eq_some ho, hstatus, balanceOf_transaction,
      sub_self, add_zero]
  · rw [deposits_put, hbooks.credits tx htx, stage_eq_some ho, hstatus]
    simp only [Option.some.injEq]

end Steps

/-- What the columns keep of a balance. -/
theorem DepositBooks.available_mem (h : DepositBooks chain own available₀ v.db)
    (h₀ : ∀ a, available₀ a ∈ decimals 12) (agent_id : Id) :
    (BalanceRepository.balanceOf v.db agent_id .XMR).available ∈ decimals 12 := by
  rw [h.available]
  exact (decimals 12).add_mem (h₀ agent_id) totalIn_mem

theorem Turned.handled {s : TransactionStatus} {db' : DB schema} {ext : Ext}
    (h : Turned chain own available₀ tx s v.db db') (hown : own tx = some agent_id)
    (hs : s = settledAs m a (stage v.db tx)) :
    TransferHandled chain own available₀ m tx a v { v with db := db', ext := ext } where
  books := h.books
  self := by rw [hown, h.self, hs]; rfl
  other := h.other
  saved := rfl

variable {Ok : StepCond schema}

theorem handleNew_always (hbooks : DepositBooks chain own available₀ v.db)
    (hchain : (chain.map (·.tx_hash)).Nodup) (htx : tx ∈ chain) (hown : own tx = some agent_id)
    (h₀ : ∀ a, available₀ a ∈ decimals 12) (htxid : a.txid = tx.tx_hash)
    (hamount : a.amount = Hub.piconeroToXmr tx.amount)
    (hnone : v.db.rows (Key.transaction tx.tx_hash) = none) :
    (DepositMonitor.handleNewTransfer .rounding m agent_id a).always Ok
      (fun _ v' => TransferHandled chain own available₀ m tx a v v') R v := by
  have keeps : ∀ {x : ℚ}, x ∈ decimals 12 → Columns.rounding 12 x = x :=
    fun h => Columns.rounding_keeps 12 _ h
  have hstage := stage_eq_none hnone
  unfold DepositMonitor.handleNewTransfer TransactionRepository.create
  rw [htxid, hamount, keeps (piconeroToXmr_mem _)]
  refine always_bind (always_bind (always_create (fun _ _ _ => ?_) fun r hr => ?_))
  swap
  · rw [hnone] at hr
    cases hr
  refine always_raiseIf (fun hf => absurd hf (by decide)) fun _ => ?_
  split
  · next hconfirmed =>
      refine always_bind (BalanceRepository.deposit_always fun b hb => ?_)
      refine Turned.handled (hbooks.credit_new hchain htx hown hnone rfl (by simp) ?_ ?_)
        hown ?_
      · rw [hb, balanceOf_transaction]
        exact keeps ((decimals 12).add_mem (hbooks.available_mem h₀ _) (piconeroToXmr_mem _))
      · rw [hb, balanceOf_transaction]
      · simp_all [settledAs]
  · next hconfirmed =>
      refine always_bind (BalanceRepository.addPending_always fun b hb => ?_)
      refine Turned.handled
        (hbooks.add_pending hchain htx hown hnone rfl (by simp) ?_ ?_) hown ?_
      · rw [hb, balanceOf_transaction]
      · rw [hb, balanceOf_transaction]
        refine keeps ((decimals 12).add_mem ?_ (piconeroToXmr_mem _))
        rw [hbooks.pending]
        exact totalIn_mem
      · simp_all [settledAs]

theorem handleExisting_always {o : Transaction} (hbooks : DepositBooks chain own available₀ v.db)
    (hchain : (chain.map (·.tx_hash)).Nodup) (htx : tx ∈ chain) (hown : own tx = some agent_id)
    (h₀ : ∀ a, available₀ a ∈ decimals 12) (htxid : a.txid = tx.tx_hash)
    (ho : v.db.rows (Key.transaction tx.tx_hash) = some o) :
    (DepositMonitor.handleExistingTransfer .rounding m agent_id o a).always Ok
      (fun _ v' => TransferHandled chain own available₀ m tx a v v') R v := by
  have keeps : ∀ {x : ℚ}, x ∈ decimals 12 → Columns.rounding 12 x = x :=
    fun h => Columns.rounding_keeps 12 _ h
  have hstage := stage_eq_some ho
  obtain ⟨hamount, hstatus⟩ := hbooks.rows tx htx o ho
  unfold DepositMonitor.handleExistingTransfer
  rw [htxid]
  refine always_bind (always_now fun now => ?_)
  by_cases hnew : (decide (o.status = .PENDING) &&
      decide (m.min_confirmations ≤ a.confirmations)) = true
  · have hpending : o.status = .PENDING := by simp_all
    have hconfirmed : m.min_confirmations ≤ a.confirmations := by simp_all
    have hrefreshed : (DepositMonitor.refreshed a true now o).status = .CONFIRMED := by
      simp [DepositMonitor.refreshed]
    rw [hnew]
    refine always_bind (always_onlyIf (fun _ => always_assign ho ?_) fun hsame => ?_)
    swap
    · exact absurd (congrArg Transaction.status (not_not.mp hsame))
        (by rw [hrefreshed, hpending]; simp)
    rw [if_pos rfl, hamount]
    refine always_bind (BalanceRepository.deposit_always fun b hb => ?_)
    refine always_bind (BalanceRepository.clearPendingOnConfirm_always fun b' hb' => ?_)
    -- the amount is part of the pending balance
    have hle : Hub.piconeroToXmr tx.amount
        ≤ (BalanceRepository.balanceOf v.db agent_id .XMR).pending := by
      rw [hbooks.pending]
      refine le_trans (le_of_eq ?_) (counted_le_totalIn (s := .PENDING) htx)
      rw [counted, if_pos ⟨hown, hstage.trans (congrArg some hpending)⟩]
    have hb'' : b' = { b with
        available := Columns.rounding 12 (b.available + Hub.piconeroToXmr tx.amount)
        total_deposited :=
          Columns.rounding 12 (b.total_deposited + Hub.piconeroToXmr tx.amount) } := by
      rw [hb', balanceOf_posted, if_pos rfl]
    rw [balanceOf_transaction] at hb
    refine Turned.handled
      (hbooks.confirm hchain htx hown ho hpending hamount.symm (by simp [hrefreshed]) ?_ ?_) hown ?_
    · rw [hb'', hb]
      exact keeps ((decimals 12).add_mem (hbooks.available_mem h₀ _) (piconeroToXmr_mem _))
    · rw [hb'', hb]
      dsimp only
      rw [max_eq_left (sub_nonneg.mpr hle)]
      refine keeps ((decimals 12).sub_mem ?_ (piconeroToXmr_mem _))
      rw [hbooks.pending]
      exact totalIn_mem
    · simp [settledAs, hconfirmed, hrefreshed]
  · -- a confirmed transfer stays confirmed, and an unconfirmed one pending
    rw [Bool.not_eq_true] at hnew
    have hsettled : o.status = settledAs m a (stage v.db tx) := by
      rw [hstage]
      rcases hstatus with h | h
      · have hnot : ¬m.min_confirmations ≤ a.confirmations := by simpa [h] using hnew
        simp [settledAs, h, hnot]
      · simp [settledAs, h]
    rw [hnew]
    refine always_bind (always_onlyIf (fun _ => always_assign ho ?_) fun _ => ?_)
    · rw [if_neg (by simp)]
      exact Turned.handled (hbooks.refresh hchain htx ho rfl rfl) hown hsettled
    · rw [if_neg (by simp)]
      refine ⟨hbooks, ?_, fun _ _ => rfl, rfl⟩
      rw [hown, ← hsettled]
      exact hstage

theorem processTransfer_always (hbooks : DepositBooks chain own available₀ v.db)
    (hchain : (chain.map (·.tx_hash)).Nodup) (htx : tx ∈ chain) (hown : own tx = owner a.address)
    (h₀ : ∀ a, available₀ a ∈ decimals 12) (htxid : a.txid = tx.tx_hash)
    (hamount : a.amount = Hub.piconeroToXmr tx.amount) :
    (DepositMonitor.processTransfer .rounding m owner a).always Ok
      (fun _ v' => TransferHandled chain own available₀ m tx a v v') R v := by
  unfold DepositMonitor.processTransfer
  split
  · next hnone => exact ⟨hbooks, by rw [hown, hnone]; rfl, fun _ _ => rfl, rfl⟩
  · next agent_id hagent =>
      unfold TransactionRepository.getByHash
      rw [htxid]
      refine always_bind (always_select ?_)
      have hown' := hown.trans hagent
      cases hrow : v.db.rows (Key.transaction tx.tx_hash) with
      | none => exact handleNew_always hbooks hchain htx hown' h₀ htxid hamount hrow
      | some o => exact handleExisting_always hbooks hchain htx hown' h₀ htxid hrow

/-! ## One poll -/

/-- Each entry of the list is about a transfer of the chain, and names its agent. -/
def ListsChain (chain : List Incoming) (own : Incoming → Option Id) (owner : String → Option Id)
    (l : List Transfer) : Prop :=
  ∀ a ∈ l, ∃ tx ∈ chain, own tx = owner a.address ∧ a.txid = tx.tx_hash ∧
    a.amount = Hub.piconeroToXmr tx.amount

/-- The poll has handled the transfers of the list. -/
structure DepositsSwept (chain : List Incoming) (own : Incoming → Option Id) (available₀ : Id → ℚ)
    (m : DepositMonitor) (l : List Transfer) (v v' : Solo schema) : Prop where
  books : DepositBooks chain own available₀ v'.db
  listed : ∀ tx ∈ chain, ∀ a ∈ l, a.txid = tx.tx_hash → (own tx).isSome →
    stage v'.db tx = some (settledAs m a (stage v.db tx))
  others : ∀ tx ∈ chain, (∀ a ∈ l, a.txid ≠ tx.tx_hash) ∨ own tx = none →
    stage v'.db tx = stage v.db tx
  saved : v'.saved = v.saved

/-- The run lemma of the loop. -/
theorem processList_always (hchain : (chain.map (·.tx_hash)).Nodup)
    (h₀ : ∀ a, available₀ a ∈ decimals 12) {l : List Transfer} (hl : ListsChain chain own owner l)
    (hnodup : (l.map (·.txid)).Nodup) (hbooks : DepositBooks chain own available₀ v.db) :
    (tally l (DepositMonitor.processTransfer .rounding m owner)).always Ok
      (fun _ v' => DepositsSwept chain own available₀ m l v v') R v := by
  induction l generalizing v with
  | nil => exact ⟨hbooks, fun _ _ a ha => absurd ha List.not_mem_nil, fun _ _ _ => rfl, rfl⟩
  | cons a l ih =>
      rw [List.map_cons, List.nodup_cons] at hnodup
      obtain ⟨tx, htx, hown, htxid, hamount⟩ := hl a List.mem_cons_self
      refine always_bind (always_mono (processTransfer_always hbooks hchain htx hown h₀ htxid
        hamount) (fun _ v₁ h₁ => ?_) fun _ _ h => h)
      refine always_bind (always_mono (ih (fun b hb => hl b (List.mem_cons_of_mem _ hb)) hnodup.2
        h₁.books) (fun _ v₂ h₂ => ?_) fun _ _ h => h)
      have hnot : ∀ b ∈ l, b.txid ≠ tx.tx_hash := fun b hb he =>
        hnodup.1 (htxid ▸ he ▸ List.mem_map_of_mem hb)
      refine ⟨h₂.books, fun tx' htx' b hb hbtxid hsome => ?_, fun tx' htx' hother => ?_,
        h₂.saved.trans h₁.saved⟩
      · by_cases hsame : tx'.tx_hash = tx.tx_hash
        · obtain rfl : tx' = tx := List.inj_on_of_nodup_map hchain htx' htx hsame
          rcases List.mem_cons.mp hb with rfl | hbl
          · rw [h₂.others _ htx' (.inl hnot), h₁.self, if_pos hsome]
          · exact absurd hbtxid (hnot b hbl)
        · rcases List.mem_cons.mp hb with rfl | hbl
          · exact absurd (hbtxid.symm.trans htxid) hsame
          · rw [h₂.listed tx' htx' b hbl hbtxid hsome, h₁.other tx' hsame]
      · by_cases hsame : tx'.tx_hash = tx.tx_hash
        · obtain rfl : tx' = tx := List.inj_on_of_nodup_map hchain htx' htx hsame
          have hnone : own tx' = none :=
            hother.resolve_left fun h => h a List.mem_cons_self htxid
          rw [h₂.others _ htx' (.inr hnone), h₁.self, if_neg (by simp [hnone])]
        · rw [h₂.others tx' htx' (hother.imp_left fun h b hb => h b (List.mem_cons_of_mem _ hb)),
            h₁.other tx' hsame]

theorem setHeight_always {key value : String} {Q : Unit → Solo schema → Prop}
    (h : ∀ db', (∀ k, (∀ key', k ≠ Key.systemState key') → db'.rows k = v.db.rows k) →
      db'.log = v.db.log → Q () { v with db := db' }) :
    (SystemStateRepository.set key value).always Ok Q R v := by
  have hput : ∀ (row : SystemState), ∀ k, (∀ key', k ≠ Key.systemState key') →
      (v.db.put (Key.systemState key) row).rows k = v.db.rows k := fun row k hk =>
    DB.put_rows_ne _ _ (hk key)
  refine always_bind (always_create (fun _ _ _ => ?_) fun r hr => ?_)
  · refine always_bind (always_onlyIf (fun hf => absurd hf (by decide)) fun _ => ?_)
    exact always_bind (always_select (h _ (hput _) (DB.put_log ..)))
  · refine always_bind (always_onlyIf (fun _ => always_update (fun r' _ _ _ _ => ?_) fun hf => ?_)
      fun hf => absurd rfl hf)
    · exact always_bind (always_select (h _ (hput _) (DB.put_log ..)))
    · exact absurd (hf r hr) (by decide)

/-- Which transfers a poll lists, and how. -/
theorem listed_eq_some {w : WalletView} {min_height : ℕ} :
    WalletService.listed w min_height tx = some a ↔
      (min_height = 0 ∨ min_height ≤ tx.block_height) ∧ tx.minor ≠ 0 ∧
        ∃ address, w.addresses.lookup tx.minor = some address ∧ address ≠ "" ∧
          a = { txid := tx.tx_hash
                amount := Hub.piconeroToXmr tx.amount
                confirmations := tx.confirmations w.height
                height := tx.block_height
                address } := by
  have hwindow : ¬(0 < min_height ∧ tx.block_height < min_height) ↔
      (min_height = 0 ∨ min_height ≤ tx.block_height) := by omega
  unfold WalletService.listed
  split
  · next h => exact ⟨fun hf => (by cases hf), fun hf => absurd h (hwindow.mpr hf.1)⟩
  · next h =>
      dsimp only
      split
      · next hm => exact ⟨fun hf => (by cases hf), fun hf => absurd hm hf.2.1⟩
      · next hm =>
          cases haddr : w.addresses.lookup tx.minor with
          | none =>
              refine ⟨fun hf => (by cases hf), fun ⟨_, _, _, hf, _⟩ => (by cases hf)⟩
          | some address =>
              by_cases hempty : address = ""
              · simp only [hempty, if_true]
                refine ⟨fun hf => (by cases hf), fun ⟨_, _, address', hf, hne, _⟩ => ?_⟩
                exact absurd (Option.some.inj hf).symm hne
              · simp only [if_neg hempty, Option.some.injEq]
                constructor
                · rintro rfl
                  exact ⟨hwindow.mp h, hm, address, rfl, hempty, rfl⟩
                · rintro ⟨-, -, address', rfl, -, rfl⟩
                  rfl

variable {addresses : ℕ → Option String} {w prev : WalletView} {last_height : ℕ}

/-- The transfers an agent gets are listed when they are in the window. -/
theorem exists_listed (hw : w.ShowsAll chain addresses) (htx : tx ∈ w.incoming_transfers)
    (hsome : (tx.agent addresses owner).isSome)
    (hwindow : last_height = 0 ∨ last_height ≤ tx.block_height) :
    ∃ a ∈ WalletService.getIncomingTransfers w last_height, a.txid = tx.tx_hash ∧
      a.confirmations = tx.confirmations w.height := by
  unfold Incoming.agent at hsome
  split at hsome
  · cases hsome
  · next hm =>
      rw [← hw.addresses tx htx] at hsome
      cases haddr : w.addresses.lookup tx.minor with
      | none => simp [haddr] at hsome
      | some address =>
          have hne : address ≠ "" := fun hempty => by simp [haddr, hempty] at hsome
          have hlisted := listed_eq_some.mpr ⟨hwindow, hm, address, haddr, hne, rfl⟩
          exact ⟨_, List.mem_filterMap.mpr ⟨tx, htx, hlisted⟩, rfl, rfl⟩

theorem listsChain_listed (hw : w.ShowsAll chain addresses) (owner : String → Option Id)
    (last_height : ℕ) :
    ListsChain chain (Incoming.agent addresses owner) owner
      (WalletService.getIncomingTransfers w last_height) := by
  intro a ha
  obtain ⟨tx, htx, hlisted⟩ := List.mem_filterMap.mp ha
  obtain ⟨-, hm, address, haddr, hne, rfl⟩ := listed_eq_some.mp hlisted
  refine ⟨tx, ((hw.transfers tx).mp htx).1, ?_, rfl, rfl⟩
  rw [hw.addresses tx htx] at haddr
  rw [Incoming.agent, if_neg hm, haddr, Option.bind_some, if_neg hne]

/-- The statuses after the polls up to `w`, if none was missed. -/
def stageIn (m : DepositMonitor) (own : Incoming → Option Id) (w : WalletView) (tx : Incoming) :
    Option TransactionStatus :=
  if tx ∈ w.incoming_transfers ∧ (own tx).isSome then
    some (if m.min_confirmations ≤ tx.confirmations w.height then .CONFIRMED else .PENDING)
  else none

/-- Between two polls: the database is committed, the books are kept, no transfer of the chain that
the last poll could see is behind, and the window ends below the height of that poll. -/
structure Polled (chain : List Incoming) (own : Incoming → Option Id) (available₀ : Id → ℚ)
    (m : DepositMonitor) (w : WalletView) (last_height : ℕ) (v : Solo schema) : Prop where
  saved : v.saved = v.db
  books : DepositBooks chain own available₀ v.db
  stages : ∀ tx ∈ chain, stage v.db tx = stageIn m own w tx
  window : last_height ≤ w.height

theorem maxHeight_le {l : List Transfer} {h : ℕ} (hlast : last_height ≤ h)
    (hl : ∀ a ∈ l, a.height ≤ h) : DepositMonitor.maxHeight last_height l ≤ h := by
  unfold DepositMonitor.maxHeight
  induction l generalizing last_height with
  | nil => exact hlast
  | cons a l ih =>
      exact ih (max_le hlast (hl a List.mem_cons_self)) fun b hb => hl b (List.mem_cons_of_mem _ hb)

theorem le_maxHeight {l : List Transfer} : last_height ≤ DepositMonitor.maxHeight last_height l := by
  unfold DepositMonitor.maxHeight
  induction l generalizing last_height with
  | nil => exact le_rfl
  | cons a l ih => exact (le_max_left _ _).trans ih

/-- Confirmations only grow. -/
theorem confirmations_mono (tx : Incoming) {h h' : ℕ} (hle : h ≤ h') :
    tx.confirmations h ≤ tx.confirmations h' := by
  unfold Incoming.confirmations
  split <;> omega

/-- What the poll makes of the statuses. -/
theorem stages_of_swept (hown : own = Incoming.agent addresses owner)
    (hchain : (chain.map (·.tx_hash)).Nodup)
    (hprev : ∀ tx, tx ∈ prev.incoming_transfers ↔ tx ∈ chain ∧ tx.block_height < prev.height)
    (hw : w.ShowsAll chain addresses) (hheight : prev.height ≤ w.height)
    (hwindow : ∀ tx ∈ w.incoming_transfers, (own tx).isSome → m.Confirms w tx →
      ¬m.Confirms prev tx → last_height = 0 ∨ last_height ≤ tx.block_height)
    (hpolled : Polled chain own available₀ m prev last_height v)
    (hswept :
      DepositsSwept chain own available₀ m (WalletService.getIncomingTransfers w last_height) v v') :
    ∀ tx ∈ chain, stage v'.db tx = stageIn m own w tx := by
  intro tx htx
  have hstage := hpolled.stages tx htx
  have hlisted : ∀ a ∈ WalletService.getIncomingTransfers w last_height, a.txid = tx.tx_hash →
      (last_height = 0 ∨ last_height ≤ tx.block_height) ∧ tx ∈ w.incoming_transfers := by
    intro a ha htxid
    obtain ⟨tx', htx', hl⟩ := List.mem_filterMap.mp ha
    obtain ⟨hwin, -, address, -, -, rfl⟩ := listed_eq_some.mp hl
    obtain rfl : tx' = tx := List.inj_on_of_nodup_map hchain ((hw.transfers tx').mp htx').1 htx htxid
    exact ⟨hwin, htx'⟩
  have hgrows : tx ∈ prev.incoming_transfers → tx ∈ w.incoming_transfers := fun h =>
    (hw.transfers tx).mpr ⟨htx, ((hprev tx).mp h).2.trans_le hheight⟩
  cases hsome : own tx with
  | none =>
      rw [hswept.others tx htx (.inr hsome), hstage]
      simp [stageIn, hsome]
  | some agent_id =>
      have his : (own tx).isSome := by rw [hsome]; rfl
      by_cases hmem : tx ∈ w.incoming_transfers
      · by_cases hwin : last_height = 0 ∨ last_height ≤ tx.block_height
        · obtain ⟨a, ha, htxid, hconf⟩ := exists_listed hw hmem (hown ▸ his) hwin
          rw [hswept.listed tx htx a ha htxid his, hstage]
          have hmono := confirmations_mono tx hheight
          -- what was confirmed before the poll still has enough confirmations
          have hiff : (stageIn m own prev tx = some .CONFIRMED ∨
              m.min_confirmations ≤ tx.confirmations w.height) ↔
                m.min_confirmations ≤ tx.confirmations w.height := by
            refine ⟨fun h => h.elim (fun h => ?_) id, .inr⟩
            unfold stageIn at h
            split at h
            · have : m.min_confirmations ≤ tx.confirmations prev.height := by
                by_contra hnot
                simp [hnot] at h
              omega
            · cases h
          have hto : stageIn m own w tx = some (if m.min_confirmations ≤ tx.confirmations w.height
              then .CONFIRMED else .PENDING) := if_pos ⟨hmem, his⟩
          rw [hto, settledAs, hconf]
          simp only [hiff]
        · -- below the window: the last poll has seen it, and its status does not change
          have hnot : ∀ a ∈ WalletService.getIncomingTransfers w last_height,
              a.txid ≠ tx.tx_hash := fun a ha htxid => hwin (hlisted a ha htxid).1
          have hseen : tx ∈ prev.incoming_transfers := by
            refine (hprev tx).mpr ⟨htx, ?_⟩
            have := hpolled.window
            omega
          rw [hswept.others tx htx (.inl hnot), hstage]
          have hconf : m.Confirms w tx → m.Confirms prev tx := fun h =>
            by_contra fun hc => hwin (hwindow tx hmem his h hc)
          have hmono := confirmations_mono tx hheight
          have hiff : m.min_confirmations ≤ tx.confirmations prev.height ↔
              m.min_confirmations ≤ tx.confirmations w.height :=
            ⟨fun h => h.trans hmono, fun h => (hconf ⟨hmem, h⟩).2⟩
          simp only [stageIn, hseen, hmem, his, hiff]
      · have hnot : ∀ a ∈ WalletService.getIncomingTransfers w last_height, a.txid ≠ tx.tx_hash :=
          fun a ha htxid => hmem (hlisted a ha htxid).2
        rw [hswept.others tx htx (.inl hnot), hstage]
        simp [stageIn, hmem, mt hgrows hmem]

/-- A poll whose list is processed with `Inv` commits with it, and continues from the highest block. -/
theorem pollOnce_of_swept (Inv : DB schema → Prop)
    (hstate : ∀ db db', Inv db → (∀ k, (∀ key, k ≠ Key.systemState key) → db'.rows k = db.rows k) →
      db'.log = db.log → Inv db')
    (hswept : (tally (WalletService.getIncomingTransfers w last_height)
      (DepositMonitor.processTransfer .rounding m owner)).always Commits (fun _ v' => Inv v'.db)
      (fun _ _ => False) v) :
    (DepositMonitor.pollOnce .rounding m owner w last_height).always Commits
      (fun height v' =>
        height = DepositMonitor.maxHeight last_height
          (WalletService.getIncomingTransfers w last_height) ∧ v'.saved = v'.db ∧ Inv v'.db)
      (fun _ _ => False) v := by
  unfold DepositMonitor.pollOnce DepositMonitor.doPollWithSession
  refine always_bind (always_tryCatch ?_)
  dsimp only
  -- the session around the poll has nothing left to commit
  have hclose : ∀ {height : ℕ} {v' : Solo schema},
      height = DepositMonitor.maxHeight last_height
        (WalletService.getIncomingTransfers w last_height) → Inv v'.db →
      ((withSession (pure height)).tryCatch fun _ => (pure height : Program ℕ)).always Commits
        (fun height' v'' => height' = DepositMonitor.maxHeight last_height
            (WalletService.getIncomingTransfers w last_height) ∧ v''.saved = v''.db ∧ Inv v''.db)
        (fun _ _ => False) v' := by
    intro height v' hheight h
    refine always_tryCatch (always_withSession ⟨⟨hheight, rfl, h⟩, ?_⟩)
    exact fun x hx hok => absurd (hok rfl) hx
  split
  · next hempty =>
      have hsame : DepositMonitor.maxHeight last_height
          (WalletService.getIncomingTransfers w last_height) = last_height := by
        rw [hempty]
        rfl
      rw [hempty] at hswept
      exact hclose hsame.symm hswept
  · have hmax : max last_height (DepositMonitor.maxHeight last_height
        (WalletService.getIncomingTransfers w last_height)) = DepositMonitor.maxHeight last_height
          (WalletService.getIncomingTransfers w last_height) := max_eq_right le_maxHeight
    refine always_bind (always_withSession (always_bind (always_mono hswept (fun _ v' h => ?_)
      fun _ _ h => h.elim)))
    refine always_bind (always_onlyIf (fun _ => ?_) fun _ => ?_)
    · refine setHeight_always fun db' hrows hlog => ⟨?_, fun x hx hok => absurd (hok rfl) hx⟩
      exact hclose hmax (hstate _ _ h hrows hlog)
    · refine ⟨?_, fun x hx hok => absurd (hok rfl) hx⟩
      exact hclose hmax h

/-- The step lemma: one poll. -/
theorem pollOnce_always {addresses : ℕ → Option String} {owner : String → Option Id}
    (hchain : (chain.map (·.tx_hash)).Nodup) (h₀ : ∀ a, available₀ a ∈ decimals 12)
    (hprev : ∀ tx, tx ∈ prev.incoming_transfers ↔ tx ∈ chain ∧ tx.block_height < prev.height)
    (hw : w.ShowsAll chain addresses) (hheight : prev.height ≤ w.height)
    (hwindow : ∀ tx ∈ w.incoming_transfers, (Incoming.agent addresses owner tx).isSome →
      m.Confirms w tx → ¬m.Confirms prev tx → last_height = 0 ∨ last_height ≤ tx.block_height)
    (hpolled : Polled chain (Incoming.agent addresses owner) available₀ m prev last_height v) :
    (DepositMonitor.pollOnce .rounding m owner w last_height).always Commits
      (fun height v' =>
        height = DepositMonitor.maxHeight last_height
          (WalletService.getIncomingTransfers w last_height) ∧
        Polled chain (Incoming.agent addresses owner) available₀ m w height v')
      (fun _ _ => False) v := by
  have hlow : ∀ a ∈ WalletService.getIncomingTransfers w last_height, a.height ≤ w.height := by
    intro a ha
    obtain ⟨tx, htx, hl⟩ := List.mem_filterMap.mp ha
    obtain ⟨-, -, address, -, -, rfl⟩ := listed_eq_some.mp hl
    exact ((hw.transfers tx).mp htx).2.le
  have hend := maxHeight_le (hpolled.window.trans hheight) hlow
  refine always_mono (pollOnce_of_swept
    (fun db => DepositBooks chain (Incoming.agent addresses owner) available₀ db ∧
      ∀ tx ∈ chain, stage db tx = stageIn m (Incoming.agent addresses owner) w tx)
    (fun db db' ⟨hbooks, hstages⟩ hrows hlog => ?_)
    (always_mono (processList_always hchain h₀ (listsChain_listed hw owner last_height)
      (listed_nodup hw.nodup last_height) hpolled.books) (fun _ v' hs => ?_) fun _ _ h => h))
    (fun height v' ⟨hheight', hsaved, hbooks, hstages⟩ => ?_) fun _ _ h => h
  · refine ⟨hbooks.congr (fun _ => hrows _ (by simp)) (fun _ => hrows _ (by simp)) hlog,
      fun tx htx => ?_⟩
    rw [← hstages tx htx, stage, hrows _ (by simp), stage]
  · exact ⟨hs.books, stages_of_swept rfl hchain hprev hw hheight hwindow hpolled hs⟩
  · exact ⟨hheight', hsaved, hbooks, hstages, hheight' ▸ hend⟩

/-! ## Every run of polls -/

/-- The run lemma: polls at growing heights. -/
theorem polls_always {addresses : ℕ → Option String} {owner : String → Option Id}
    (hchain : (chain.map (·.tx_hash)).Nodup) (h₀ : ∀ a, available₀ a ∈ decimals 12)
    {views : List WalletView} (hviews : ∀ w ∈ views, w.ShowsAll chain addresses)
    (hheights : ((prev :: views).map (·.height)).Pairwise (· < ·))
    (hprev : ∀ tx, tx ∈ prev.incoming_transfers ↔ tx ∈ chain ∧ tx.block_height < prev.height)
    (hwindow : WindowKeeps m (Incoming.agent addresses owner) prev last_height views)
    (hpolled : Polled chain (Incoming.agent addresses owner) available₀ m prev last_height v) :
    (m.polls .rounding owner views last_height).always Commits
      (fun _ v' => ∃ height, Polled chain (Incoming.agent addresses owner) available₀ m
        (views.getLastD prev) height v')
      (fun _ _ => False) v := by
  induction views generalizing prev last_height v with
  | nil => exact ⟨last_height, hpolled⟩
  | cons w views ih =>
      have hw := hviews w List.mem_cons_self
      have hgrow := List.pairwise_cons.mp hheights
      have hlt : prev.height < w.height := hgrow.1 _ (List.mem_map_of_mem List.mem_cons_self)
      refine always_bind (always_mono (pollOnce_always hchain h₀ hprev hw hlt.le hwindow.1 hpolled)
        (fun height v' ⟨hheight, hnext⟩ => ?_) fun _ _ h => h)
      have hrest := ih (fun w' hw' => hviews w' (List.mem_cons_of_mem _ hw')) hgrow.2 hw.transfers
        (hheight ▸ hwindow.2) hnext
      rw [List.getLastD_cons]
      exact hrest

end Poll

/-- Before the first poll nothing is known of the transfers of the chain. -/
theorem polled_start {chain : List Incoming} (addresses : ℕ → Option String)
    (owner : String → Option Id) (m : DepositMonitor) {st : Store schema}
    (hrows : ∀ tx ∈ chain, st.db.rows (Key.transaction tx.tx_hash) = none)
    (hcredits : ∀ tx ∈ chain, deposits st.db tx.tx_hash = [])
    (hpending : ∀ a, (BalanceRepository.balanceOf st.db a .XMR).pending = 0) :
    Polled chain (Incoming.agent addresses owner)
      (fun a => (BalanceRepository.balanceOf st.db a .XMR).available) m noWallet 0
      (Solo.ofStore st) := by
  have hnone : ∀ tx ∈ chain, stage st.db tx = none := fun tx htx => stage_eq_none (hrows tx htx)
  have hzero : ∀ a s, totalIn chain (Incoming.agent addresses owner) st.db a s = 0 := by
    intro a s
    refine List.sum_eq_zero fun q hq => ?_
    obtain ⟨tx, htx, rfl⟩ := List.mem_map.mp hq
    rw [counted, if_neg (by simp [hnone tx htx])]
  have hbooks₀ : DepositBooks chain (Incoming.agent addresses owner)
      (fun a => (BalanceRepository.balanceOf st.db a .XMR).available) st.db := by
    refine ⟨fun a => ?_, fun a => ?_, fun tx htx r hr => ?_, fun tx htx => ?_⟩
    · rw [hzero, add_zero]
    · rw [hzero]
      exact hpending a
    · exact absurd ((hrows tx htx).symm.trans hr) (by simp)
    · rw [if_neg (by simp [hnone tx htx])]
      exact hcredits tx htx
  have hstages₀ : ∀ tx ∈ chain, stage st.db tx
      = stageIn m (Incoming.agent addresses owner) noWallet tx := by
    intro tx htx
    rw [stageIn, if_neg (by simp [noWallet])]
    exact hnone tx htx
  exact ⟨rfl, hbooks₀, hstages₀, le_rfl⟩

/-- The status of a transfer to an agent, in the last view of the wallet. -/
theorem stage_iff_confirms {addresses : ℕ → Option String} {owner : String → Option Id}
    {m : DepositMonitor} {w : WalletView} {db : DB schema} {tx : Incoming} {a : Id}
    (ha : tx.agent addresses owner = some a)
    (hstage : stage db tx = stageIn m (Incoming.agent addresses owner) w tx) :
    (stage db tx = some .CONFIRMED ↔ m.Confirms w tx) ∧
      (stage db tx = some .PENDING ↔ tx ∈ w.incoming_transfers ∧ ¬m.Confirms w tx) := by
  rw [hstage, stageIn, ha]
  by_cases hmem : tx ∈ w.incoming_transfers
  · by_cases hc : m.min_confirmations ≤ tx.confirmations w.height
    · simp [DepositMonitor.Confirms, hmem, hc]
    · simp [DepositMonitor.Confirms, hmem, hc]
  · simp [DepositMonitor.Confirms, hmem]

/-- **Every confirmed deposit is credited once.** A monitor polls at growing heights, starting from
a database without rows or credits for the transfers of the chain and without pending balances. If
no transfer becomes confirmed below the window, then after each poll the credits of a transfer are
its amount once, to the agent its address belongs to, when it is confirmed, and none otherwise; an
available balance has grown by the confirmed transfers of its agent, and a pending balance is the
sum of the other transfers of its agent. -/
theorem deposits_settled {chain : List Incoming} (hchain : (chain.map (·.tx_hash)).Nodup)
    (addresses : ℕ → Option String) (owner : String → Option Id) (m : DepositMonitor)
    {st₀ : Store schema} (hwf : st₀.db.WF)
    (hrows : ∀ tx ∈ chain, st₀.db.rows (Key.transaction tx.tx_hash) = none)
    (hcredits : ∀ tx ∈ chain, deposits st₀.db tx.tx_hash = [])
    (hbalances : ∀ a, (BalanceRepository.balanceOf st₀.db a .XMR).available ∈ decimals 12 ∧
      (BalanceRepository.balanceOf st₀.db a .XMR).pending = 0)
    {views : List WalletView} {w : WalletView}
    (hviews : ∀ w' ∈ views ++ [w], w'.ShowsAll chain addresses)
    (hheights : ((noWallet :: (views ++ [w])).map (·.height)).Pairwise (· < ·))
    (hwindow : WindowKeeps m (Incoming.agent addresses owner) noWallet 0 (views ++ [w]))
    {x : ℕ → Input schema}
    (hrun : (m.polls .rounding owner (views ++ [w]) 0).meets Commits x (Solo.ofStore st₀)) :
    let db := ((m.polls .rounding owner (views ++ [w]) 0).serve x st₀).2.db
    (∀ tx ∈ chain, deposits db tx.tx_hash =
      if m.Confirms w tx then (tx.agent addresses owner).toList.map tx.credit else []) ∧
    ∀ a,
      (BalanceRepository.balanceOf db a .XMR).available =
        (BalanceRepository.balanceOf st₀.db a .XMR).available +
          (chain.map fun tx => if tx.agent addresses owner = some a ∧ m.Confirms w tx then
            Hub.piconeroToXmr tx.amount else 0).sum ∧
      (BalanceRepository.balanceOf db a .XMR).pending =
        (chain.map fun tx => if tx.agent addresses owner = some a ∧ tx ∈ w.incoming_transfers ∧
            ¬m.Confirms w tx then
          Hub.piconeroToXmr tx.amount else 0).sum := by
  have hstart : Polled chain (Incoming.agent addresses owner)
      (fun a => (BalanceRepository.balanceOf st₀.db a .XMR).available) m noWallet 0
      (Solo.ofStore st₀) := polled_start addresses owner m hrows hcredits fun a => (hbalances a).2
  obtain ⟨v, hv, -, hends⟩ := always_serve (polls_always hchain (fun a => (hbalances a).1) hviews
    hheights (fun tx => by simp [noWallet]) hwindow hstart) hwf hrun
  obtain ⟨height, hpolled⟩ : ∃ height, Polled chain (Incoming.agent addresses owner)
      (fun a => (BalanceRepository.balanceOf st₀.db a .XMR).available) m w height v := by
    cases hr : ((m.polls .rounding owner (views ++ [w]) 0).serve x st₀).1 with
    | error e =>
        rw [hr] at hends
        exact hends.elim
    | ok _ =>
        rw [hr] at hends
        simpa only [Ends, List.getLastD_concat] using hends
  have hdb : ((m.polls .rounding owner (views ++ [w]) 0).serve x st₀).2.db = v.db := by
    rw [hv]
    exact hpolled.saved
  have hbooks := hpolled.books
  -- the status of a transfer says whether it is confirmed
  have hconf : ∀ tx ∈ chain, ∀ a, tx.agent addresses owner = some a →
      (stage v.db tx = some .CONFIRMED ↔ m.Confirms w tx) ∧
      (stage v.db tx = some .PENDING ↔ tx ∈ w.incoming_transfers ∧ ¬m.Confirms w tx) :=
    fun tx htx a ha => stage_iff_confirms ha (hpolled.stages tx htx)
  intro db
  have hdb' : db = v.db := hdb
  rw [hdb']
  refine ⟨fun tx htx => ?_, fun a => ⟨?_, ?_⟩⟩
  · rw [hbooks.credits tx htx]
    cases ha : tx.agent addresses owner with
    | none => simp
    | some a => simp only [(hconf tx htx a ha).1]
  · rw [hbooks.available, totalIn]
    congr 2
    refine List.map_congr_left fun tx htx => ?_
    by_cases ha : tx.agent addresses owner = some a
    · simp only [counted, ha, true_and, (hconf tx htx a ha).1]
    · simp only [counted, ha, false_and]
  · rw [hbooks.pending, totalIn]
    congr 1
    refine List.map_congr_left fun tx htx => ?_
    by_cases ha : tx.agent addresses owner = some a
    · simp only [counted, ha, true_and, (hconf tx htx a ha).2]
    · simp only [counted, ha, false_and]

/-! ## Two transfers in the wrong order -/

/-- One XMR in block 105, to the same address. -/
def laterTransfer : Incoming :=
  { tx_hash := "bb", amount := 1000000000000, block_height := 105, minor := 1 }

def addressesOfSub (minor : ℕ) : Option String := [(1, "sub1")].lookup minor

/-- A wallet that shows the transfers of a chain below its height. -/
def walletOn (chain : List Incoming) (height : ℕ) : WalletView where
  incoming_transfers := chain.filter fun tx => tx.block_height < height
  height := height
  addresses := [(1, "sub1")]

theorem walletOn_showsAll {chain : List Incoming} (hchain : (chain.map (·.tx_hash)).Nodup)
    (height : ℕ) : (walletOn chain height).ShowsAll chain addressesOfSub where
  transfers := fun tx => by simp [walletOn]
  nodup := hchain.sublist (List.filter_sublist.map _)
  addresses := fun _ _ => rfl

theorem tenUnits_settled (a : Id) :
    (BalanceRepository.balanceOf tenUnits.db a .XMR).available ∈ decimals 12 ∧
      (BalanceRepository.balanceOf tenUnits.db a .XMR).pending = 0 := by
  by_cases h : a = 1
  · subst h
    exact ⟨mem_decimals.mpr ⟨10 * 10 ^ 12, by norm_num [BalanceRepository.balanceOf, tenUnits]⟩, rfl⟩
  · have hrow : tenUnits.db.rows (Key.balance a .XMR) = none := if_neg fun h' => h h'.1
    rw [BalanceRepository.balanceOf, hrow]
    exact ⟨(decimals 12).zero_mem, rfl⟩

/-- The monitor polls at two heights, and nothing goes wrong. -/
def twoPolls (chain : List Incoming) (height height' : ℕ) : Program Unit :=
  ({} : DepositMonitor).polls .rounding ownerOfSub [walletOn chain height, walletOn chain height'] 0

def commits (_ : Solo schema) (s : Stmt schema) (x : Input schema) : Bool :=
  match s with
  | .commit => x.choice = 0
  | _ => true

theorem commits_of (v : Solo schema) (s : Stmt schema) (x : Input schema)
    (h : commits v s x = true) : Commits v s x := by
  rintro rfl
  simpa [commits] using h

/-- One transfer, seen unconfirmed and then confirmed. -/
theorem deposits_settled_one : (walletOn [oneTransfer] 112).height = 112 ∧
    deposits ((twoPolls [oneTransfer] 105 112).serve (fun _ => {}) tenUnits).2.db "aa"
      = [oneTransfer.credit 1] := by
  have hchain : ([oneTransfer].map (·.tx_hash)).Nodup := List.nodup_singleton _
  have hviews : ∀ w ∈ [walletOn [oneTransfer] 105] ++ [walletOn [oneTransfer] 112],
      w.ShowsAll [oneTransfer] addressesOfSub := by
    simpa using ⟨walletOn_showsAll hchain 105, walletOn_showsAll hchain 112⟩
  have h := deposits_settled hchain addressesOfSub ownerOfSub {} tenUnits_wf (by decide +kernel)
    (by decide +kernel) tenUnits_settled hviews (by decide) ⟨by decide +kernel, by decide +kernel, trivial⟩
    (x := fun _ => {}) (meets_of_passes commits_of (by decide +kernel))
  refine ⟨rfl, (h.1 oneTransfer (List.mem_singleton_self _)).trans ?_⟩
  decide +kernel

/-- A transfer of block 105 is seen together with one of block 100. The next poll, which could
confirm the one of block 100, asks for the transfers from block 105 on. -/
theorem deposit_left_pending : ¬∀ (chain : List Incoming) (addresses : ℕ → Option String)
    (owner : String → Option Id) (m : DepositMonitor) (st₀ : Store schema)
    (views : List WalletView) (w : WalletView) (x : ℕ → Input schema),
    (chain.map (·.tx_hash)).Nodup → st₀.db.WF →
    (∀ tx ∈ chain, st₀.db.rows (Key.transaction tx.tx_hash) = none) →
    (∀ tx ∈ chain, deposits st₀.db tx.tx_hash = []) →
    (∀ a, (BalanceRepository.balanceOf st₀.db a .XMR).available ∈ decimals 12 ∧
      (BalanceRepository.balanceOf st₀.db a .XMR).pending = 0) →
    (∀ w' ∈ views ++ [w], w'.ShowsAll chain addresses) →
    ((noWallet :: (views ++ [w])).map (·.height)).Pairwise (· < ·) →
    (m.polls .rounding owner (views ++ [w]) 0).meets Commits x (Solo.ofStore st₀) →
    ∀ tx ∈ chain, m.Confirms w tx →
      deposits ((m.polls .rounding owner (views ++ [w]) 0).serve x st₀).2.db tx.tx_hash
        = (tx.agent addresses owner).toList.map tx.credit := by
  intro h
  have hchain : ([oneTransfer, laterTransfer].map (·.tx_hash)).Nodup := by decide
  have hcredited := h [oneTransfer, laterTransfer] addressesOfSub ownerOfSub {} tenUnits
    [walletOn [oneTransfer, laterTransfer] 106] (walletOn [oneTransfer, laterTransfer] 120)
    (fun _ => {}) hchain tenUnits_wf (by decide +kernel) (by decide +kernel) tenUnits_settled
    (by simpa using ⟨walletOn_showsAll hchain 106, walletOn_showsAll hchain 120⟩) (by decide)
    (meets_of_passes commits_of (by decide +kernel)) oneTransfer (by decide) (by decide +kernel)
  have hlost : deposits ((twoPolls [oneTransfer, laterTransfer] 106 120).serve (fun _ => {})
      tenUnits).2.db "aa" = [] := by decide +kernel
  exact absurd (hlost.symm.trans hcredited) (by decide +kernel)

end Sthrip
