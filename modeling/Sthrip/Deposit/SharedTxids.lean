import Sthrip.Deposit.Settled
import Mathlib.Algebra.BigOperators.Group.Finset.Piecewise

set_option autoImplicit false

/-! # Transactions with several outputs

A transaction can pay several subaddresses, and the wallet then lists several transfers with one hash.
A poll looks a transfer up by its hash alone, so that the second transfer of a transaction is taken for
the first one again. What a transaction credits is the amount of the first of its transfers that a poll
lists, to the owner of the first one that a poll lists with enough confirmations.

With positive amounts, every agent is credited the sum of its transfers iff no two of the transfers to
agents have one hash (`shared_txids_credited_iff`).
-/

namespace Sthrip

open Txn Prog

/-! ## Picking one of each name -/

section Pick

variable {α κ ι : Type} {l : List α} {w : α → ℚ}

/-- A sublist of the same weight is the list. -/
theorem eq_of_sublist_of_sum {l' : List α} (h : l'.Sublist l) (hpos : ∀ b ∈ l, 0 < w b)
    (hsum : (l.map w).sum ≤ (l'.map w).sum) : l' = l := by
  induction h with
  | slnil => rfl
  | @cons l' l b hl ih =>
      have hle : (l'.map w).sum ≤ (l.map w).sum := by
        refine (hl.map w).sum_le_sum fun x hx => ?_
        obtain ⟨c, hc, rfl⟩ := List.mem_map.mp hx
        exact (hpos c (List.mem_cons_of_mem b hc)).le
      rw [List.map_cons, List.sum_cons] at hsum
      have := hpos b List.mem_cons_self
      linarith
  | @cons_cons l' l b hl ih =>
      rw [List.map_cons, List.map_cons, List.sum_cons, List.sum_cons] at hsum
      rw [ih (fun c hc => hpos c (List.mem_cons_of_mem b hc)) (by linarith)]

/-- One element of each name. -/
theorem exists_picked {k : α → κ} {x : κ → ℚ} {names : List κ}
    (hx : ∀ t ∈ names, ∃ b ∈ l, k b = t ∧ x t = w b) :
    ∃ picked : List α, picked ⊆ l ∧ picked.map k = names ∧ picked.map w = names.map x := by
  induction names with
  | nil => exact ⟨[], List.nil_subset l, rfl, rfl⟩
  | cons t names ih =>
      obtain ⟨b, hb, hname, hweight⟩ := hx t List.mem_cons_self
      obtain ⟨picked, hsub, hnames, hweights⟩ := ih fun t ht => hx t (List.mem_cons_of_mem _ ht)
      refine ⟨b :: picked, List.cons_subset.mpr ⟨hb, hsub⟩, ?_, ?_⟩
      · rw [List.map_cons, hname, hnames]
      · rw [List.map_cons, List.map_cons, hweight, hweights]

/-- If one element of each name weighs as much as all of them, no name comes twice. -/
theorem nodup_of_sum_picked [DecidableEq κ] {k : α → κ} {x : κ → ℚ} (hpos : ∀ b ∈ l, 0 < w b)
    (hx : ∀ t ∈ (l.map k).dedup, ∃ b ∈ l, k b = t ∧ x t = w b)
    (hsum : (l.map w).sum ≤ ((l.map k).dedup.map x).sum) : (l.map k).Nodup := by
  obtain ⟨picked, hsub, hnames, hweights⟩ := exists_picked hx
  have hnodup : (picked.map k).Nodup := hnames ▸ List.nodup_dedup _
  obtain ⟨l', hperm, hl'⟩ := (List.Nodup.of_map k hnodup).subperm hsub
  have hall : l' = l := by
    refine eq_of_sublist_of_sum hl' hpos ?_
    rw [(hperm.map w).sum_eq, hweights]
    exact hsum
  exact ((hall ▸ hperm).map k).nodup_iff.mpr hnodup

theorem sum_sum_map (A : Finset ι) (f : ι → α → ℚ) :
    ∑ i ∈ A, (l.map (f i)).sum = (l.map fun b => ∑ i ∈ A, f i b).sum := by
  induction l with
  | nil => simp
  | cons b l ih => simp only [List.map_cons, List.sum_cons, Finset.sum_add_distrib, ih]

/-- What is filtered out has no weight. -/
theorem sum_map_filter {p : α → Bool} (h : ∀ b ∈ l, p b = false → w b = 0) :
    ((l.filter p).map w).sum = (l.map w).sum := by
  induction l with
  | nil => rfl
  | cons b l ih =>
      have hrest := ih fun c hc => h c (List.mem_cons_of_mem b hc)
      cases hp : p b with
      | true => rw [List.filter_cons_of_pos hp, List.map_cons, List.sum_cons, hrest, List.map_cons,
          List.sum_cons]
      | false => rw [List.filter_cons_of_neg (by simp [hp]), hrest, List.map_cons, List.sum_cons,
          h b List.mem_cons_self hp, zero_add]

end Pick

/-! ## The books of the transactions -/

section Books

/-- The transfers that pay an agent. -/
def payingAgents (outputs : List Incoming) (own : Incoming → Option Id) : List Incoming :=
  outputs.filter fun o => (own o).isSome

/-- Their transactions. -/
def payingTxids (outputs : List Incoming) (own : Incoming → Option Id) : List String :=
  ((payingAgents outputs own).map (·.tx_hash)).dedup

/-- The status of the row of a hash. -/
def statusOf (db : DB schema) (txid : String) : Option TransactionStatus :=
  (db.rows (Key.transaction txid)).map (·.status)

/-- What the transaction `txid` has credited to an agent; `paid txid` says whom it has credited, and how
much. -/
def paidTo (paid : String → Option (Id × ℚ)) (a : Id) (txid : String) : ℚ :=
  match paid txid with
  | none => 0
  | some c => if c.1 = a then c.2 else 0

variable {outputs : List Incoming} {own : Incoming → Option Id} {available₀ : Id → ℚ}
  {paid : String → Option (Id × ℚ)} {db db' : DB schema} {txid : String} {r : Transaction}

theorem mem_payingTxids : txid ∈ payingTxids outputs own ↔
    ∃ o ∈ payingAgents outputs own, o.tx_hash = txid := by
  rw [payingTxids, List.mem_dedup, List.mem_map]

theorem isSome_of_paying {o : Incoming} (h : o ∈ payingAgents outputs own) : (own o).isSome = true :=
  (List.mem_filter.mp h).2

theorem statusOf_eq_some (h : db.rows (Key.transaction txid) = some r) :
    statusOf db txid = some r.status := by
  rw [statusOf, h]
  rfl

/-- The transaction pays an agent, and `x` is the amount of one of its transfers. -/
def IsAmount (outputs : List Incoming) (own : Incoming → Option Id) (txid : String) (x : ℚ) : Prop :=
  ∃ o ∈ payingAgents outputs own, o.tx_hash = txid ∧ x = Hub.piconeroToXmr o.amount

/-- One of the transfers of the transaction is for the agent. -/
def IsPayee (outputs : List Incoming) (own : Incoming → Option Id) (txid : String) (a : Id) : Prop :=
  ∃ o ∈ payingAgents outputs own, o.tx_hash = txid ∧ own o = some a

/-- A transaction credits when its row is confirmed, and then it credits one agent. -/
structure TxidBooks (outputs : List Incoming) (own : Incoming → Option Id) (available₀ : Id → ℚ)
    (paid : String → Option (Id × ℚ)) (db : DB schema) : Prop where
  available : ∀ a, (BalanceRepository.balanceOf db a .XMR).available
    = available₀ a + ((payingTxids outputs own).map (paidTo paid a)).sum
  rows : ∀ txid ∈ payingTxids outputs own, ∀ r : Transaction,
    db.rows (Key.transaction txid) = some r →
      (r.status = .PENDING ∨ r.status = .CONFIRMED) ∧ IsAmount outputs own txid r.amount
  credited : ∀ txid ∈ payingTxids outputs own, ∀ c, paid txid = some c →
    IsPayee outputs own txid c.1 ∧ IsAmount outputs own txid c.2
  confirmed : ∀ txid ∈ payingTxids outputs own,
    (paid txid).isSome ↔ statusOf db txid = some .CONFIRMED

/-- The row of one transaction is made or changes. -/
theorem TxidBooks.change {paid' : String → Option (Id × ℚ)}
    (h : TxidBooks outputs own available₀ paid db) (htxid : txid ∈ payingTxids outputs own)
    (hrow : db'.rows (Key.transaction txid) = some r)
    (hrows : ∀ q, q ≠ txid → db'.rows (Key.transaction q) = db.rows (Key.transaction q))
    (hstatus : r.status = .PENDING ∨ r.status = .CONFIRMED) (hamount : IsAmount outputs own txid r.amount)
    (hothers : ∀ q, q ≠ txid → paid' q = paid q)
    (hpaid : ∀ c, paid' txid = some c → IsPayee outputs own txid c.1 ∧ IsAmount outputs own txid c.2)
    (hconfirmed : (paid' txid).isSome ↔ r.status = .CONFIRMED)
    (havailable : ∀ a, (BalanceRepository.balanceOf db' a .XMR).available
      = (BalanceRepository.balanceOf db a .XMR).available
        + (paidTo paid' a txid - paidTo paid a txid)) :
    TxidBooks outputs own available₀ paid' db' := by
  refine ⟨fun a => ?_, fun q hq r' hr' => ?_, fun q hq c hc => ?_, fun q hq => ?_⟩
  · have hnodup : ((payingTxids outputs own).map id).Nodup := by
      rw [List.map_id]
      exact List.nodup_dedup _
    have hsum := sum_map_change (f := paidTo paid a) (g := paidTo paid' a) hnodup htxid
      fun q _ hne => by rw [paidTo, hothers q hne, paidTo]
    rw [havailable, h.available, hsum]
    ring
  · by_cases hne : q = txid
    · subst hne
      obtain rfl := Option.some.inj (hrow.symm.trans hr')
      exact ⟨hstatus, hamount⟩
    · exact h.rows q hq r' (hrows q hne ▸ hr')
  · by_cases hne : q = txid
    · subst hne
      exact hpaid c hc
    · exact h.credited q hq c (hothers q hne ▸ hc)
  · by_cases hne : q = txid
    · subst hne
      rw [hconfirmed, statusOf_eq_some hrow, Option.some.injEq]
    · rw [hothers q hne, h.confirmed q hq, statusOf, statusOf, hrows q hne]

/-- A row that does not become confirmed. -/
theorem TxidBooks.hold (h : TxidBooks outputs own available₀ paid db)
    (htxid : txid ∈ payingTxids outputs own) (hrow : db'.rows (Key.transaction txid) = some r)
    (hrows : ∀ q, q ≠ txid → db'.rows (Key.transaction q) = db.rows (Key.transaction q))
    (hstatus : r.status = .PENDING ∨ r.status = .CONFIRMED) (hamount : IsAmount outputs own txid r.amount)
    (hsame : statusOf db txid = some .CONFIRMED ↔ r.status = .CONFIRMED)
    (havailable : ∀ a, (BalanceRepository.balanceOf db' a .XMR).available
      = (BalanceRepository.balanceOf db a .XMR).available) :
    TxidBooks outputs own available₀ paid db' := by
  refine h.change htxid hrow hrows hstatus hamount (fun _ _ => rfl) (h.credited txid htxid)
    ((h.confirmed txid htxid).trans hsame) fun a => ?_
  rw [havailable, sub_self, add_zero]

/-- A row that becomes confirmed credits its amount. -/
theorem TxidBooks.credit (h : TxidBooks outputs own available₀ paid db)
    (htxid : txid ∈ payingTxids outputs own) (hrow : db'.rows (Key.transaction txid) = some r)
    (hrows : ∀ q, q ≠ txid → db'.rows (Key.transaction q) = db.rows (Key.transaction q))
    (hr : r.status = .CONFIRMED) (hamount : IsAmount outputs own txid r.amount)
    (hnot : statusOf db txid ≠ some .CONFIRMED) {agent_id : Id}
    (hpayee : IsPayee outputs own txid agent_id)
    (havailable : ∀ a, (BalanceRepository.balanceOf db' a .XMR).available
      = (BalanceRepository.balanceOf db a .XMR).available + if agent_id = a then r.amount else 0) :
    TxidBooks outputs own available₀ (Function.update paid txid (some (agent_id, r.amount))) db' := by
  have hnone : paid txid = none := by
    rw [← Option.not_isSome_iff_eq_none, h.confirmed txid htxid]
    exact hnot
  refine h.change htxid hrow hrows (.inr hr) hamount (fun q hne => Function.update_of_ne hne _ _)
    (fun c hc => ?_) ?_ fun a => ?_
  · rw [Function.update_self, Option.some.injEq] at hc
    subst hc
    exact ⟨hpayee, hamount⟩
  · rw [Function.update_self]
    exact iff_of_true rfl hr
  · rw [havailable, paidTo, paidTo, Function.update_self, hnone, sub_zero]

theorem paidTo_mem (h : TxidBooks outputs own available₀ paid db)
    (htxid : txid ∈ payingTxids outputs own) (a : Id) : paidTo paid a txid ∈ decimals 12 := by
  unfold paidTo
  split
  · exact (decimals 12).zero_mem
  · next c hc =>
      split
      · obtain ⟨-, o, -, -, hx⟩ := h.credited txid htxid c hc
        exact hx ▸ piconeroToXmr_mem _
      · exact (decimals 12).zero_mem

/-- What the columns keep of a balance. -/
theorem TxidBooks.available_mem (h : TxidBooks outputs own available₀ paid db)
    (h₀ : ∀ a, available₀ a ∈ decimals 12) (agent_id : Id) :
    (BalanceRepository.balanceOf db agent_id .XMR).available ∈ decimals 12 := by
  rw [h.available]
  refine (decimals 12).add_mem (h₀ agent_id) (list_sum_mem fun x hx => ?_)
  obtain ⟨txid, htxid, rfl⟩ := List.mem_map.mp hx
  exact paidTo_mem h htxid agent_id

end Books

/-! ## One batch -/

section Batch

variable {outputs : List Incoming} {own : Incoming → Option Id} {available₀ : Id → ℚ}
  {paid : String → Option (Id × ℚ)} {m : DepositMonitor} {owner : String → Option Id}
  {db db₁ db₂ : DB schema} {v : Solo schema} {a : Transfer} {l : List Transfer} {agent_id : Id}
  {Ok : StepCond schema} {R : Exn → Solo schema → Prop}

/-- The transfers of the list are handled. -/
structure TxidsHandled (outputs : List Incoming) (own : Incoming → Option Id) (available₀ : Id → ℚ)
    (m : DepositMonitor) (owner : String → Option Id) (l : List Transfer) (db db' : DB schema) :
    Prop where
  books : ∃ paid, TxidBooks outputs own available₀ paid db'
  kept : ∀ txid, statusOf db txid = some .CONFIRMED → statusOf db' txid = some .CONFIRMED
  confirmed : ∀ a ∈ l, (owner a.address).isSome → m.min_confirmations ≤ a.confirmations →
    statusOf db' a.txid = some .CONFIRMED

theorem TxidsHandled.trans {l' : List Transfer}
    (h₁ : TxidsHandled outputs own available₀ m owner l db db₁)
    (h₂ : TxidsHandled outputs own available₀ m owner l' db₁ db₂) :
    TxidsHandled outputs own available₀ m owner (l ++ l') db db₂ := by
  refine ⟨h₂.books, fun txid h => h₂.kept txid (h₁.kept txid h), fun a ha ho hc => ?_⟩
  rcases List.mem_append.mp ha with ha | ha
  · exact h₂.kept _ (h₁.confirmed a ha ho hc)
  · exact h₂.confirmed a ha ho hc

/-- The row of the transaction is the only one that has changed. -/
theorem TxidsHandled.of_row {r : Transaction} (hbooks : TxidBooks outputs own available₀ paid db₁)
    (hrow : db₁.rows (Key.transaction a.txid) = some r)
    (hrows : ∀ q, q ≠ a.txid → db₁.rows (Key.transaction q) = db.rows (Key.transaction q))
    (hkept : statusOf db a.txid = some .CONFIRMED → r.status = .CONFIRMED)
    (hconfirmed : m.min_confirmations ≤ a.confirmations → r.status = .CONFIRMED) :
    TxidsHandled outputs own available₀ m owner [a] db db₁ := by
  refine ⟨⟨paid, hbooks⟩, fun q hq => ?_, fun b hb _ hc => ?_⟩
  · by_cases hne : q = a.txid
    · subst hne
      rw [statusOf_eq_some hrow, hkept hq]
    · rw [statusOf, hrows q hne]
      exact hq
  · obtain rfl := List.mem_singleton.mp hb
    rw [statusOf_eq_some hrow, hconfirmed hc]

/-- Nothing about transactions or balances is touched. -/
theorem TxidsHandled.congr (h : TxidsHandled outputs own available₀ m owner l db db₁)
    (hrows : ∀ txid, db₂.rows (Key.transaction txid) = db₁.rows (Key.transaction txid))
    (hbalance : ∀ a, db₂.rows (Key.balance a .XMR) = db₁.rows (Key.balance a .XMR)) :
    TxidsHandled outputs own available₀ m owner l db db₂ := by
  have hstatus : ∀ txid, statusOf db₂ txid = statusOf db₁ txid :=
    fun txid => by rw [statusOf, hrows, statusOf]
  obtain ⟨paid, hbooks⟩ := h.books
  refine ⟨⟨paid, fun a => ?_, fun q hq r hr => ?_, hbooks.credited, fun q hq => ?_⟩,
    fun q hq => ?_, fun a ha hsome hc => ?_⟩
  · rw [BalanceRepository.balanceOf, hbalance]
    exact hbooks.available a
  · exact hbooks.rows q hq r (hrows q ▸ hr)
  · rw [hstatus]
    exact hbooks.confirmed q hq
  · rw [hstatus]
    exact h.kept q hq
  · rw [hstatus]
    exact h.confirmed a ha hsome hc

/-- The entry is about a transfer to the agent. -/
structure ListsOutput (outputs : List Incoming) (own : Incoming → Option Id) (agent_id : Id)
    (a : Transfer) : Prop where
  amount : IsAmount outputs own a.txid a.amount
  payee : IsPayee outputs own a.txid agent_id

theorem ListsOutput.mem (h : ListsOutput outputs own agent_id a) :
    a.txid ∈ payingTxids outputs own := by
  obtain ⟨o, ho, htxid, -⟩ := h.payee
  exact mem_payingTxids.mpr ⟨o, ho, htxid⟩

theorem IsAmount.mem {txid : String} {x : ℚ} (h : IsAmount outputs own txid x) : x ∈ decimals 12 := by
  obtain ⟨o, -, -, rfl⟩ := h
  exact piconeroToXmr_mem _

section Steps

variable (hbooks : TxidBooks outputs own available₀ paid v.db) (h₀ : ∀ a, available₀ a ∈ decimals 12)
  (ha : ListsOutput outputs own agent_id a)
include hbooks h₀ ha

omit h₀ in
/-- The row becomes confirmed, and the agent gets its amount. -/
theorem TxidsHandled.credit {r : Transaction}
    (hrows : ∀ q, db₁.rows (Key.transaction q)
      = (v.db.put (Key.transaction a.txid) r).rows (Key.transaction q))
    (hr : r.status = .CONFIRMED) (hamount : IsAmount outputs own a.txid r.amount)
    (hnot : statusOf v.db a.txid ≠ some .CONFIRMED)
    (havailable : ∀ a', (BalanceRepository.balanceOf db₁ a' .XMR).available
      = (BalanceRepository.balanceOf v.db a' .XMR).available
        + if agent_id = a' then r.amount else 0) :
    TxidsHandled outputs own available₀ m owner [a] v.db db₁ := by
  have hrow := (hrows a.txid).trans (DB.put_rows_self ..)
  have hother : ∀ q, q ≠ a.txid → db₁.rows (Key.transaction q) = v.db.rows (Key.transaction q) :=
    fun q hne => (hrows q).trans (transaction_ne hne)
  exact .of_row (hbooks.credit ha.mem hrow hother hr hamount hnot ha.payee havailable) hrow hother
    (fun _ => hr) fun _ => hr

omit h₀ in
/-- The row does not become confirmed, and the balances stay. -/
theorem TxidsHandled.hold {r : Transaction}
    (hrows : ∀ q, db₁.rows (Key.transaction q)
      = (v.db.put (Key.transaction a.txid) r).rows (Key.transaction q))
    (hstatus : r.status = .PENDING ∨ r.status = .CONFIRMED)
    (hamount : IsAmount outputs own a.txid r.amount)
    (hsame : statusOf v.db a.txid = some .CONFIRMED ↔ r.status = .CONFIRMED)
    (hconfirmed : m.min_confirmations ≤ a.confirmations → r.status = .CONFIRMED)
    (havailable : ∀ a', (BalanceRepository.balanceOf db₁ a' .XMR).available
      = (BalanceRepository.balanceOf v.db a' .XMR).available) :
    TxidsHandled outputs own available₀ m owner [a] v.db db₁ := by
  have hrow := (hrows a.txid).trans (DB.put_rows_self ..)
  have hother : ∀ q, q ≠ a.txid → db₁.rows (Key.transaction q) = v.db.rows (Key.transaction q) :=
    fun q hne => (hrows q).trans (transaction_ne hne)
  exact .of_row (hbooks.hold ha.mem hrow hother hstatus hamount hsame havailable) hrow hother hsame.mp
    hconfirmed

/-- The first transfer of a transaction. -/
theorem handleNew_txids (hnone : v.db.rows (Key.transaction a.txid) = none) :
    (DepositMonitor.handleNewTransfer .rounding m agent_id a).always Ok
      (fun _ v' => TxidsHandled outputs own available₀ m owner [a] v.db v'.db) R v := by
  have keeps : ∀ {x : ℚ}, x ∈ decimals 12 → Columns.rounding 12 x = x :=
    fun h => Columns.rounding_keeps 12 _ h
  have hnot : statusOf v.db a.txid ≠ some .CONFIRMED := by
    rw [statusOf, hnone]
    simp
  unfold DepositMonitor.handleNewTransfer TransactionRepository.create
  rw [keeps ha.amount.mem]
  refine always_bind (always_bind (always_create (fun _ _ _ => ?_) fun r hr => ?_))
  swap
  · rw [hnone] at hr
    cases hr
  refine always_raiseIf (fun hf => absurd hf (by decide)) fun _ => ?_
  split
  · next hconfirmed =>
      refine always_bind (BalanceRepository.deposit_always fun b hb => ?_)
      rw [balanceOf_transaction] at hb
      refine TxidsHandled.credit hbooks ha (fun q => transaction_posted) rfl ha.amount hnot fun a' => ?_
      rw [balanceOf_posted, balanceOf_transaction]
      by_cases hne : a' = agent_id
      · subst hne
        rw [if_pos rfl, if_pos rfl, hb]
        exact keeps ((decimals 12).add_mem (hbooks.available_mem h₀ _) ha.amount.mem)
      · rw [if_neg hne, if_neg (Ne.symm hne), add_zero]
  · next hunconfirmed =>
      refine always_bind (BalanceRepository.addPending_always fun b hb => ?_)
      rw [balanceOf_transaction] at hb
      refine TxidsHandled.hold hbooks ha (fun q => transaction_balance) (.inl rfl) ha.amount
        ⟨fun h => absurd h hnot, fun h => (by cases h)⟩
        (fun h => absurd (decide_eq_true h) hunconfirmed) fun a' => ?_
      rw [balanceOf_balance, balanceOf_transaction]
      by_cases hne : a' = agent_id
      · subst hne
        rw [if_pos rfl, hb]
      · rw [if_neg hne]

/-- A transfer of a transaction that has a row. -/
theorem handleExisting_txids {o : Transaction} (ho : v.db.rows (Key.transaction a.txid) = some o) :
    (DepositMonitor.handleExistingTransfer .rounding m agent_id o a).always Ok
      (fun _ v' => TxidsHandled outputs own available₀ m owner [a] v.db v'.db) R v := by
  have keeps : ∀ {x : ℚ}, x ∈ decimals 12 → Columns.rounding 12 x = x :=
    fun h => Columns.rounding_keeps 12 _ h
  obtain ⟨hstatus, hamount⟩ := hbooks.rows a.txid ha.mem o ho
  have hsame : statusOf v.db a.txid = some .CONFIRMED ↔ o.status = .CONFIRMED := by
    rw [statusOf_eq_some ho, Option.some.injEq]
  unfold DepositMonitor.handleExistingTransfer
  refine always_bind (always_now fun now => ?_)
  by_cases hnew : (decide (o.status = .PENDING) &&
      decide (m.min_confirmations ≤ a.confirmations)) = true
  · have hpending : o.status = .PENDING := by simp_all
    have hrefreshed : (DepositMonitor.refreshed a true now o).status = .CONFIRMED := by
      simp [DepositMonitor.refreshed]
    rw [hnew]
    refine always_bind (always_onlyIf (fun _ => always_assign ho ?_) fun heq => ?_)
    swap
    · exact absurd (congrArg Transaction.status (not_not.mp heq))
        (by rw [hrefreshed, hpending]; simp)
    rw [if_pos rfl]
    refine always_bind (BalanceRepository.deposit_always fun b hb => ?_)
    refine always_bind (BalanceRepository.clearPendingOnConfirm_always fun b' hb' => ?_)
    rw [balanceOf_transaction] at hb
    rw [balanceOf_posted, if_pos rfl] at hb'
    refine TxidsHandled.credit hbooks ha (fun q => transaction_balance.trans transaction_posted)
      hrefreshed hamount (by simp [hsame, hpending]) fun a' => ?_
    rw [balanceOf_balance]
    by_cases hne : a' = agent_id
    · subst hne
      rw [if_pos rfl, if_pos rfl, hb', hb]
      exact keeps ((decimals 12).add_mem (hbooks.available_mem h₀ _) hamount.mem)
    · rw [if_neg hne, if_neg (Ne.symm hne), balanceOf_posted, if_neg hne, balanceOf_transaction, add_zero]
  · rw [Bool.not_eq_true] at hnew
    rw [hnew]
    have hkeeps : m.min_confirmations ≤ a.confirmations → o.status = .CONFIRMED := by
      intro hc
      rcases hstatus with h | h
      · simp [h, hc] at hnew
      · exact h
    refine always_bind (always_onlyIf (fun _ => always_assign ho ?_) fun _ => ?_)
    · rw [if_neg (by simp)]
      exact TxidsHandled.hold hbooks ha (fun q => rfl) hstatus hamount hsame hkeeps
        fun a' => by rw [balanceOf_transaction]
    · rw [if_neg (by simp)]
      exact TxidsHandled.of_row hbooks ho (fun _ _ => rfl) hsame.mp hkeeps

end Steps

/-- What a list of transfers may contain: transfers to agents out of `outputs`, and others. -/
def ListsOutputs (outputs : List Incoming) (own : Incoming → Option Id) (owner : String → Option Id)
    (l : List Transfer) : Prop :=
  ∀ a ∈ l, ∀ agent_id, owner a.address = some agent_id → ListsOutput outputs own agent_id a

theorem processTransfer_txids (hbooks : TxidBooks outputs own available₀ paid v.db)
    (h₀ : ∀ a, available₀ a ∈ decimals 12)
    (ha : ∀ agent_id, owner a.address = some agent_id → ListsOutput outputs own agent_id a) :
    (DepositMonitor.processTransfer .rounding m owner a).always Ok
      (fun _ v' => TxidsHandled outputs own available₀ m owner [a] v.db v'.db) R v := by
  unfold DepositMonitor.processTransfer
  split
  · next hnone =>
      refine ⟨⟨paid, hbooks⟩, fun _ h => h, fun b hb hsome => ?_⟩
      obtain rfl := List.mem_singleton.mp hb
      rw [hnone] at hsome
      cases hsome
  · next agent_id hagent =>
      refine always_bind (always_select ?_)
      cases hrow : v.db.rows (Key.transaction a.txid) with
      | none => exact handleNew_txids hbooks h₀ (ha agent_id hagent) hrow
      | some o => exact handleExisting_txids hbooks h₀ (ha agent_id hagent) hrow

/-- The run lemma of the loop. -/
theorem processList_txids (hbooks : TxidBooks outputs own available₀ paid v.db)
    (h₀ : ∀ a, available₀ a ∈ decimals 12) (hl : ListsOutputs outputs own owner l) :
    (tally l (DepositMonitor.processTransfer .rounding m owner)).always Ok
      (fun _ v' => TxidsHandled outputs own available₀ m owner l v.db v'.db) R v := by
  induction l generalizing v paid with
  | nil => exact ⟨⟨paid, hbooks⟩, fun _ h => h, fun a ha => absurd ha List.not_mem_nil⟩
  | cons a l ih =>
      refine always_bind (always_mono (processTransfer_txids hbooks h₀ (hl a List.mem_cons_self))
        (fun _ v₁ h₁ => ?_) fun _ _ h => h)
      obtain ⟨paid₁, hbooks₁⟩ := h₁.books
      refine always_bind (always_mono (ih hbooks₁ fun b hb => hl b (List.mem_cons_of_mem a hb))
        (fun _ v₂ h₂ => ?_) fun _ _ h => h)
      exact h₁.trans h₂

end Batch

/-! ## Every run of polls -/

/-- The batches of a run of polls. -/
def DepositMonitor.batches : List WalletView → ℕ → List (List Transfer)
  | [], _ => []
  | w :: views, last_height =>
      let transfers := WalletService.getIncomingTransfers w last_height
      transfers :: batches views (maxHeight last_height transfers)

/-- The wallet shows outputs of the list, in the blocks they are in by then. -/
structure WalletView.ShowsOutputs (outputs : List Incoming) (addresses : ℕ → Option String)
    (w : WalletView) : Prop where
  outputs : ∀ tx ∈ w.incoming_transfers, ∃ o ∈ outputs,
    o.tx_hash = tx.tx_hash ∧ o.amount = tx.amount ∧ o.minor = tx.minor
  addresses : ∀ tx ∈ w.incoming_transfers, w.addresses.lookup tx.minor = addresses tx.minor

section Polls

variable {outputs : List Incoming} {addresses : ℕ → Option String} {owner : String → Option Id}
  {available₀ : Id → ℚ} {paid : String → Option (Id × ℚ)} {m : DepositMonitor} {w : WalletView}
  {last_height : ℕ} {v : Solo schema}

theorem listsOutputs_listed (hw : w.ShowsOutputs outputs addresses) (last_height : ℕ) :
    ListsOutputs outputs (Incoming.agent addresses owner) owner
      (WalletService.getIncomingTransfers w last_height) := by
  intro a ha agent_id hagent
  obtain ⟨tx, htx, hlisted⟩ := List.mem_filterMap.mp ha
  obtain ⟨-, hm, address, haddr, hne, rfl⟩ := listed_eq_some.mp hlisted
  obtain ⟨o, ho, htxid, hamount, hminor⟩ := hw.outputs tx htx
  rw [hw.addresses tx htx, ← hminor] at haddr
  have hown : o.agent addresses owner = some agent_id := by
    rw [Incoming.agent, if_neg (hminor ▸ hm), haddr, Option.bind_some, if_neg hne]
    exact hagent
  have hmem : o ∈ payingAgents outputs (Incoming.agent addresses owner) :=
    List.mem_filter.mpr ⟨ho, by rw [hown]; rfl⟩
  exact ⟨⟨o, hmem, htxid, by rw [hamount]⟩, o, hmem, htxid, hown⟩

/-- The run lemma: the books are kept, and what a batch has listed with enough confirmations is
confirmed. -/
theorem polls_txids (m : DepositMonitor) (h₀ : ∀ a, available₀ a ∈ decimals 12) (views : List WalletView)
    (hviews : ∀ w ∈ views, w.ShowsOutputs outputs addresses) (hsaved : v.saved = v.db)
    (hbooks : TxidBooks outputs (Incoming.agent addresses owner) available₀ paid v.db) :
    (m.polls .rounding owner views last_height).always Commits
      (fun _ v' => v'.saved = v'.db ∧ TxidsHandled outputs (Incoming.agent addresses owner) available₀ m
        owner (DepositMonitor.batches views last_height).flatten v.db v'.db)
      (fun _ _ => False) v := by
  induction views generalizing last_height v paid with
  | nil => exact ⟨hsaved, ⟨paid, hbooks⟩, fun _ h => h, fun a ha => absurd ha List.not_mem_nil⟩
  | cons w views ih =>
      refine always_bind (always_mono (pollOnce_of_swept
        (TxidsHandled outputs (Incoming.agent addresses owner) available₀ m owner
          (WalletService.getIncomingTransfers w last_height) v.db)
        (fun db db' h hrows hlog => ?_) (always_mono (processList_txids hbooks h₀
          (listsOutputs_listed (hviews w List.mem_cons_self) last_height)) (fun _ _ h => h)
            fun _ _ h => h)) (fun height v₁ ⟨hheight, hsaved₁, h₁⟩ => ?_) fun _ _ h => h)
      · exact h.congr (fun _ => hrows _ (by simp)) fun _ => hrows _ (by simp)
      · obtain ⟨paid₁, hbooks₁⟩ := h₁.books
        refine always_mono (ih (fun w' hw' => hviews w' (List.mem_cons_of_mem w hw')) hsaved₁ hbooks₁)
          (fun _ v₂ ⟨hsaved₂, h₂⟩ => ⟨hsaved₂, ?_⟩) fun _ _ h => h
        rw [hheight] at h₂
        exact h₁.trans h₂

/-- The amounts of the transfers of an agent. -/
def owed (outputs : List Incoming) (own : Incoming → Option Id) (a : Id) : ℚ :=
  (outputs.map fun o => if own o = some a then Hub.piconeroToXmr o.amount else 0).sum

/-- Before the first poll. -/
theorem txidBooks_start {own : Incoming → Option Id} {st : Store schema}
    (hnew : ∀ o ∈ outputs, st.db.rows (Key.transaction o.tx_hash) = none) :
    TxidBooks outputs own (fun a => (BalanceRepository.balanceOf st.db a .XMR).available)
      (fun _ => none) st.db := by
  have hnone : ∀ txid ∈ payingTxids outputs own, st.db.rows (Key.transaction txid) = none := by
    intro txid htxid
    obtain ⟨o, ho, rfl⟩ := mem_payingTxids.mp htxid
    exact hnew o (List.mem_of_mem_filter ho)
  refine ⟨fun a => ?_, fun txid htxid r hr => ?_, fun _ _ c hc => ?_, fun txid htxid => ?_⟩
  · rw [List.sum_eq_zero, add_zero]
    intro x hx
    obtain ⟨txid, -, rfl⟩ := List.mem_map.mp hx
    rfl
  · rw [hnone txid htxid] at hr
    cases hr
  · cases hc
  · rw [statusOf, hnone txid htxid]
    simp

/-- The credits of the transactions, when no two transfers to agents have one hash. -/
theorem sum_paidTo_of_nodup {own : Incoming → Option Id} {db : DB schema}
    (hbooks : TxidBooks outputs own available₀ paid db)
    (hpaid : ∀ txid ∈ payingTxids outputs own, (paid txid).isSome)
    (hnodup : ((payingAgents outputs own).map (·.tx_hash)).Nodup) (a : Id) :
    ((payingTxids outputs own).map (paidTo paid a)).sum = owed outputs own a := by
  have hterm : ∀ o ∈ payingAgents outputs own,
      paidTo paid a o.tx_hash = if own o = some a then Hub.piconeroToXmr o.amount else 0 := by
    intro o ho
    have htxid := mem_payingTxids.mpr ⟨o, ho, rfl⟩
    obtain ⟨c, hc⟩ := Option.isSome_iff_exists.mp (hpaid _ htxid)
    obtain ⟨⟨o₁, ho₁, heq₁, hpayee⟩, o₂, ho₂, heq₂, hamount⟩ := hbooks.credited _ htxid c hc
    obtain rfl := List.inj_on_of_nodup_map hnodup ho₁ ho heq₁
    obtain rfl := List.inj_on_of_nodup_map hnodup ho₂ ho heq₂
    simp only [paidTo, hc, hpayee, hamount, Option.some.injEq]
  have hfilter : ((payingAgents outputs own).map
      fun o => if own o = some a then Hub.piconeroToXmr o.amount else 0).sum = owed outputs own a := by
    refine sum_map_filter fun o _ hnone => if_neg fun hsome => ?_
    rw [hsome] at hnone
    cases hnone
  rw [payingTxids, hnodup.dedup, List.map_map, ← hfilter]
  exact congrArg List.sum (List.map_congr_left hterm)

/-- If the credits of all agents are what they are owed, no two transfers to agents have one hash. -/
theorem nodup_of_sum_paidTo {own : Incoming → Option Id} {db : DB schema}
    (hpos : ∀ o ∈ outputs, 0 < o.amount) (hbooks : TxidBooks outputs own available₀ paid db)
    (hpaid : ∀ txid ∈ payingTxids outputs own, (paid txid).isSome)
    (h : ∀ a, ((payingTxids outputs own).map (paidTo paid a)).sum = owed outputs own a) :
    ((payingAgents outputs own).map (·.tx_hash)).Nodup := by
  -- the agents
  let A : Finset Id := ((payingAgents outputs own).filterMap own).toFinset
  have hA : ∀ {o g}, o ∈ payingAgents outputs own → own o = some g → g ∈ A := fun ho hg =>
    List.mem_toFinset.mpr (List.mem_filterMap.mpr ⟨_, ho, hg⟩)
  let amount : String → ℚ := fun txid => ((paid txid).map Prod.snd).getD 0
  have hpaidsum : (payingTxids outputs own).map (fun txid => ∑ g ∈ A, paidTo paid g txid)
      = (payingTxids outputs own).map amount := by
    refine List.map_congr_left fun txid htxid => ?_
    obtain ⟨c, hc⟩ := Option.isSome_iff_exists.mp (hpaid txid htxid)
    obtain ⟨⟨o, ho, -, hpayee⟩, -⟩ := hbooks.credited txid htxid c hc
    simp only [paidTo, amount, hc]
    rw [Finset.sum_ite_eq, if_pos (hA ho hpayee)]
    rfl
  have howed : ∑ g ∈ A, owed outputs own g
      = ((payingAgents outputs own).map fun o => Hub.piconeroToXmr o.amount).sum := by
    have hfilter : ((payingAgents outputs own).map
        fun o => ∑ g ∈ A, if own o = some g then Hub.piconeroToXmr o.amount else 0).sum
          = ∑ g ∈ A, owed outputs own g := by
      rw [payingAgents, sum_map_filter]
      · exact (sum_sum_map A _).symm
      · intro o _ hnone
        refine Finset.sum_eq_zero fun g _ => if_neg fun hsome => ?_
        rw [hsome] at hnone
        cases hnone
    rw [← hfilter]
    refine congrArg List.sum (List.map_congr_left fun o ho => ?_)
    obtain ⟨g, hg⟩ := Option.isSome_iff_exists.mp (isSome_of_paying ho)
    simp only [hg, Option.some.injEq]
    rw [Finset.sum_ite_eq, if_pos (hA ho hg)]
  refine nodup_of_sum_picked (fun o ho => ?_) (x := amount) (fun txid htxid => ?_)
    (w := fun o => Hub.piconeroToXmr o.amount) (le_of_eq ?_)
  · have := hpos o (List.mem_of_mem_filter ho)
    unfold Hub.piconeroToXmr
    positivity
  · obtain ⟨c, hc⟩ := Option.isSome_iff_exists.mp (hpaid txid htxid)
    obtain ⟨-, o, ho, heq, hamount⟩ := hbooks.credited txid htxid c hc
    refine ⟨o, ho, heq, ?_⟩
    simp only [amount, hc]
    exact hamount
  · calc ((payingAgents outputs own).map fun o => Hub.piconeroToXmr o.amount).sum
        = ∑ g ∈ A, owed outputs own g := howed.symm
      _ = ∑ g ∈ A, ((payingTxids outputs own).map (paidTo paid g)).sum :=
          Finset.sum_congr rfl fun g _ => (h g).symm
      _ = ((payingTxids outputs own).map fun txid => ∑ g ∈ A, paidTo paid g txid).sum :=
          sum_sum_map A _
      _ = ((payingTxids outputs own).map amount).sum := congrArg List.sum hpaidsum

end Polls

/-- **Every agent is credited its transfers iff no two of them have one hash.** A monitor polls any
wallet that shows some transfers, with positive amounts and without rows so far, until each transfer to
an agent has been listed with enough confirmations. The available balance of every agent has then grown
by the sum of its transfers, iff no two of the transfers to agents are outputs of one transaction. -/
theorem shared_txids_credited_iff (outputs : List Incoming) (hpos : ∀ o ∈ outputs, 0 < o.amount)
    (addresses : ℕ → Option String) (owner : String → Option Id) (m : DepositMonitor)
    {st : Store schema} (hst : st.db.WF)
    (hnew : ∀ o ∈ outputs, st.db.rows (Key.transaction o.tx_hash) = none)
    (h₀ : ∀ a, (BalanceRepository.balanceOf st.db a .XMR).available ∈ decimals 12)
    {views : List WalletView} (hviews : ∀ w ∈ views, w.ShowsOutputs outputs addresses)
    (hlisted : ∀ o ∈ outputs, (o.agent addresses owner).isSome →
      ∃ batch ∈ DepositMonitor.batches views 0, ∃ a ∈ batch, a.txid = o.tx_hash ∧
        owner a.address = o.agent addresses owner ∧ m.min_confirmations ≤ a.confirmations)
    {x : ℕ → Input schema}
    (hrun : (m.polls .rounding owner views 0).meets Commits x (Solo.ofStore st)) :
    (∀ a, (BalanceRepository.balanceOf ((m.polls .rounding owner views 0).serve x st).2.db a
        .XMR).available = (BalanceRepository.balanceOf st.db a .XMR).available +
          owed outputs (Incoming.agent addresses owner) a) ↔
      ((payingAgents outputs (Incoming.agent addresses owner)).map (·.tx_hash)).Nodup := by
  obtain ⟨v, hv, -, hends⟩ := always_serve (polls_txids m h₀ views hviews rfl (txidBooks_start hnew))
    hst hrun
  obtain ⟨hsaved, hhandled⟩ : v.saved = v.db ∧ TxidsHandled outputs (Incoming.agent addresses owner)
      (fun a => (BalanceRepository.balanceOf st.db a .XMR).available) m owner
      (DepositMonitor.batches views 0).flatten st.db v.db := by
    cases hr : ((m.polls .rounding owner views 0).serve x st).1 with
    | error e =>
        rw [hr] at hends
        exact hends.elim
    | ok _ =>
        rw [hr] at hends
        exact hends
  have hdb : ((m.polls .rounding owner views 0).serve x st).2.db = v.db := by
    rw [hv]
    exact hsaved
  obtain ⟨paid, hbooks⟩ := hhandled.books
  have hpaid : ∀ txid ∈ payingTxids outputs (Incoming.agent addresses owner), (paid txid).isSome := by
    intro txid htxid
    obtain ⟨o, ho, rfl⟩ := mem_payingTxids.mp htxid
    have hsome := isSome_of_paying ho
    obtain ⟨batch, hbatch, a, ha, heq, hown, hconfirmed⟩ :=
      hlisted o (List.mem_of_mem_filter ho) hsome
    rw [hbooks.confirmed _ htxid, ← heq]
    exact hhandled.confirmed a (List.mem_flatten.mpr ⟨batch, hbatch, ha⟩) (hown ▸ hsome) hconfirmed
  rw [hdb]
  have hiff : (∀ a, (BalanceRepository.balanceOf v.db a .XMR).available
      = (BalanceRepository.balanceOf st.db a .XMR).available
        + owed outputs (Incoming.agent addresses owner) a) ↔
      ∀ a, ((payingTxids outputs (Incoming.agent addresses owner)).map (paidTo paid a)).sum
        = owed outputs (Incoming.agent addresses owner) a :=
    forall_congr' fun a => by rw [hbooks.available, add_right_inj]
  rw [hiff]
  exact ⟨nodup_of_sum_paidTo hpos hbooks hpaid, sum_paidTo_of_nodup hbooks hpaid⟩

/-! ### One transaction with two outputs -/

/-- One XMR for agent 1, and two for agent 2, by one transaction. -/
def twoOutputs : List Incoming :=
  [oneTransfer, { tx_hash := "aa", amount := 2000000000000, block_height := 100, minor := 2 }]

def addressesOfTwo (minor : ℕ) : Option String := [(1, "sub1"), (2, "sub2")].lookup minor

def ownerOfTwo (address : String) : Option Id := [("sub1", 1), ("sub2", 2)].lookup address

/-- The wallet shows the outputs at a height of the chain. -/
def walletOfTwo (outputs : List Incoming) (height : ℕ) : WalletView where
  incoming_transfers := outputs
  height := height
  addresses := [(1, "sub1"), (2, "sub2")]

theorem walletOfTwo_shows (outputs : List Incoming) (height : ℕ) :
    (walletOfTwo outputs height).ShowsOutputs outputs addressesOfTwo where
  outputs := fun tx htx => ⟨tx, htx, rfl, rfl, rfl⟩
  addresses := fun _ _ => rfl

/-- One transfer, listed before and after it has enough confirmations. -/
theorem shared_txids_credited_one : (BalanceRepository.balanceOf
      ((({} : DepositMonitor).polls .rounding ownerOfTwo
        [walletOfTwo [oneTransfer] 105, walletOfTwo [oneTransfer] 112] 0).serve (fun _ => {})
        tenUnits).2.db 1 .XMR).available
    = (BalanceRepository.balanceOf tenUnits.db 1 .XMR).available +
      owed [oneTransfer] (Incoming.agent addressesOfTwo ownerOfTwo) 1 := by
  refine (shared_txids_credited_iff [oneTransfer] (by decide) addressesOfTwo ownerOfTwo {}
    tenUnits_wf (by decide +kernel) (fun a => (tenUnits_settled a).1) (fun w hw => ?_)
    (fun o ho _ => ?_) (meets_of_passes commits_of (by decide +kernel))).mpr (by decide) 1
  · rcases List.mem_cons.mp hw with rfl | hw
    · exact walletOfTwo_shows [oneTransfer] 105
    · rw [List.mem_singleton.mp hw]
      exact walletOfTwo_shows [oneTransfer] 112
  · rw [List.mem_singleton.mp ho]
    exact ⟨_, List.mem_cons_of_mem _ List.mem_cons_self, by decide +kernel⟩

/-- The transfer to agent 2 is taken for the one to agent 1. -/
theorem shared_txid_not_credited : ¬∀ (outputs : List Incoming) (addresses : ℕ → Option String)
    (owner : String → Option Id) (m : DepositMonitor) (st : Store schema) (views : List WalletView)
    (x : ℕ → Input schema), (∀ o ∈ outputs, 0 < o.amount) → st.db.WF →
    (∀ o ∈ outputs, st.db.rows (Key.transaction o.tx_hash) = none) →
    (∀ a, (BalanceRepository.balanceOf st.db a .XMR).available ∈ decimals 12) →
    (∀ w ∈ views, w.ShowsOutputs outputs addresses) →
    (∀ o ∈ outputs, (o.agent addresses owner).isSome →
      ∃ batch ∈ DepositMonitor.batches views 0, ∃ a ∈ batch, a.txid = o.tx_hash ∧
        owner a.address = o.agent addresses owner ∧ m.min_confirmations ≤ a.confirmations) →
    (m.polls .rounding owner views 0).meets Commits x (Solo.ofStore st) →
    ∀ a, (BalanceRepository.balanceOf ((m.polls .rounding owner views 0).serve x st).2.db a
        .XMR).available = (BalanceRepository.balanceOf st.db a .XMR).available +
          owed outputs (Incoming.agent addresses owner) a := by
  intro h
  have hcredited := h twoOutputs addressesOfTwo ownerOfTwo {} tenUnits [walletOfTwo twoOutputs 112]
    (fun _ => {}) (by decide) tenUnits_wf (by decide +kernel) (fun a => (tenUnits_settled a).1)
    (fun w hw => List.mem_singleton.mp hw ▸ walletOfTwo_shows twoOutputs 112)
    (fun o ho _ => ⟨_, List.mem_cons_self, by revert o; decide +kernel⟩)
    (meets_of_passes commits_of (by decide +kernel)) 2
  revert hcredited
  decide +kernel

end Sthrip
