import Sthrip.Db.TransactionRepo

set_option autoImplicit false

/-! # A hub payment is atomic

A session that makes a transfer with its commission either leaves the database as it was, or makes all
of the transfer (`Paid`). Once the transaction is there, the same call with a key only returns it.
-/

namespace Sthrip

open Txn Prog BalanceRepository

def Entry.fee? : Entry → Option FeeCollection
  | .fee f => some f
  | _ => none

/-- The fee rows. -/
def feesOf (db : DB schema) : List FeeCollection := db.log.filterMap Entry.fee?

theorem toXmr_mem (piconero : ℤ) : toXmr piconero ∈ decimals 12 := mem_decimals.mpr ⟨piconero, rfl⟩

theorem toXmr_add (m n : ℤ) : toXmr (m + n) = toXmr m + toXmr n := by
  unfold toXmr
  push_cast
  rw [add_div]

/-- A transfer of `amount` piconero with the commission `fee`, recorded as `tx`. -/
structure Paid (db db' : DB schema) (tx_hash : String) (from_agent_id to_agent_id : Id) (token : Token)
    (amount fee : ℤ) (tx : Transaction) : Prop where
  funds : toXmr (amount + fee) ≤ (balanceOf db from_agent_id token).available
  sender : (balanceOf db' from_agent_id token).available
    = (balanceOf db from_agent_id token).available - toXmr (amount + fee)
  recipient : (balanceOf db' to_agent_id token).available
    = (balanceOf db to_agent_id token).available + toXmr amount
  /-- The other balances. -/
  others : ∀ a t, ¬(a = from_agent_id ∧ t = token) → ¬(a = to_agent_id ∧ t = token) →
    db'.rows (Key.balance a t) = db.rows (Key.balance a t)
  fresh : db.rows (Key.transaction tx_hash) = none
  recorded : db'.rows (Key.transaction tx_hash) = some tx
  transactions : ∀ h, h ≠ tx_hash → db'.rows (Key.transaction h) = db.rows (Key.transaction h)
  tx : tx.from_agent_id = some from_agent_id ∧ tx.to_agent_id = some to_agent_id ∧ tx.token = token ∧
    tx.amount = toXmr amount ∧ tx.fee = toXmr fee ∧ tx.fee_collected = toXmr fee
  fees : ∃ row, feesOf db' = feesOf db ++ [row] ∧ row.amount = toXmr fee ∧ row.token = token ∧
    row.amount_piconero = some fee ∧ row.transaction_ref = some tx_hash ∧
      row.payer_agent_id = some from_agent_id
  nonneg : 0 ≤ (balanceOf db' from_agent_id token).available
  whole : (balanceOf db' from_agent_id token).available ∈ decimals 12 ∧
    (balanceOf db' to_agent_id token).available ∈ decimals 12

section Alone

variable {Ok : StepCond schema} {R : Exn → Solo schema → Prop} {v : Solo schema}

/-- The counter is none of the other tables. -/
theorem recordTransaction_always {agent_id : Id} {Q : Unit → Solo schema → Prop}
    (h : ∀ month row, Q () { v with db := v.db.put (Key.monthlyStats agent_id month) row }) :
    (recordTransaction agent_id).always Ok Q R v := by
  refine always_bind (always_now fun now => ?_)
  refine always_bind (always_create (fun _ _ _ => ?_) fun row hrow => ?_)
  · exact always_onlyIf (fun hne => absurd hne (by decide)) fun _ => h _ _
  · refine always_onlyIf (fun _ => always_update (fun r _ _ _ _ => h _ _) fun hmiss => ?_) fun hne => ?_
    · cases hmiss row hrow
    · exact absurd rfl hne

variable {col : Columns} {from_agent_id : Id} {total_xmr amount_xmr fee_xmr : ℚ} {token : Token}

theorem debitSender_always {Q : Unit → Solo schema → Prop}
    (h : ∀ b, b = balanceOf v.db from_agent_id token → total_xmr ≤ b.available →
      Q () { v with db := (posted v.db from_agent_id token
        { b with available := col 12 (b.available - total_xmr) } (-total_xmr) .other) })
    (hR : ∀ e db', R e { v with db := db' }) :
    (TransactionRepository.debitSender col from_agent_id total_xmr amount_xmr fee_xmr token).always
      Ok Q R v := by
  refine always_bind (getForUpdate_always fun db' hrow hput => ?_)
  refine always_bind (always_raiseIf (fun _ => hR _ _) fun hok => ?_)
  refine always_bind (always_assign hrow (always_insert ?_))
  rw [hput]
  exact h _ rfl (not_lt.mp hok)

end Alone

/-! ## The transfer -/

section Transfer

variable {tx_hash network : String} {from_agent_id to_agent_id : Id} {amount_piconero : ℤ}
  {token : Token} {payment_type : PaymentType} {status : TransactionStatus} {memo : Option String}
  {tier : AgentTier} {st : Store schema}

/-- The database after the writes of a transfer. -/
def transferred (db : DB schema) (tx_hash : String) (from_agent_id to_agent_id : Id) (token : Token)
    (amount_xmr total_xmr : ℚ) (tx : Transaction) (row : FeeCollection) (month : ℕ)
    (stats : AgentMonthlyStats) : DB schema :=
  let sender := balanceOf db from_agent_id token
  let debited := posted db from_agent_id token
    { sender with available := Columns.rounding 12 (sender.available - total_xmr) } (-total_xmr) .other
  let recipient := balanceOf debited to_agent_id token
  let credited := posted debited to_agent_id token
    { recipient with available := Columns.rounding 12 (recipient.available + amount_xmr) } amount_xmr
    .other
  ((credited.put (Key.transaction tx_hash) tx).append (.fee row)).put
    (Key.monthlyStats from_agent_id month) stats

section Writes

variable {db : DB schema} {amount_xmr total_xmr : ℚ} {tx : Transaction} {row : FeeCollection}
  {month : ℕ} {stats : AgentMonthlyStats}

theorem transferred_rows_ne {k : Key} (hfrom : k ≠ Key.balance from_agent_id token)
    (hto : k ≠ Key.balance to_agent_id token) (htx : k ≠ Key.transaction tx_hash)
    (hstats : k ≠ Key.monthlyStats from_agent_id month) :
    (transferred db tx_hash from_agent_id to_agent_id token amount_xmr total_xmr tx row month stats).rows
      k = db.rows k := by
  rw [transferred, DB.put_rows_ne _ _ hstats, DB.append_rows, DB.put_rows_ne _ _ htx,
    posted_rows_ne hto, posted_rows_ne hfrom]

theorem transferred_tx :
    (transferred db tx_hash from_agent_id to_agent_id token amount_xmr total_xmr tx row month stats).rows
      (Key.transaction tx_hash) = some tx := by
  rw [transferred, DB.put_rows_ne _ _ (by simp), DB.append_rows, DB.put_rows_self]

theorem transferred_sender (hne : from_agent_id ≠ to_agent_id) :
    (balanceOf (transferred db tx_hash from_agent_id to_agent_id token amount_xmr total_xmr tx row month
      stats) from_agent_id token).available
      = Columns.rounding 12 ((balanceOf db from_agent_id token).available - total_xmr) := by
  have hkey : Key.balance from_agent_id token ≠ Key.balance to_agent_id token := by
    simp [hne]
  rw [balanceOf, transferred, DB.put_rows_ne _ _ (by simp), DB.append_rows, DB.put_rows_ne _ _ (by simp),
    posted_rows_ne hkey, posted, DB.append_rows, DB.put_rows_self]
  rfl

theorem transferred_recipient (hne : from_agent_id ≠ to_agent_id) :
    (balanceOf (transferred db tx_hash from_agent_id to_agent_id token amount_xmr total_xmr tx row month
      stats) to_agent_id token).available
      = Columns.rounding 12 ((balanceOf db to_agent_id token).available + amount_xmr) := by
  have hkey : Key.balance to_agent_id token ≠ Key.balance from_agent_id token := by
    simp [hne.symm]
  rw [balanceOf, transferred, DB.put_rows_ne _ _ (by simp), DB.append_rows, DB.put_rows_ne _ _ (by simp)]
  rw [posted, DB.append_rows, DB.put_rows_self]
  show Columns.rounding 12 ((balanceOf (posted db from_agent_id token _ _ _) to_agent_id token).available
    + amount_xmr) = _
  rw [balanceOf, posted_rows_ne hkey]
  rfl

theorem feesOf_transferred :
    feesOf (transferred db tx_hash from_agent_id to_agent_id token amount_xmr total_xmr tx row month stats)
      = feesOf db ++ [row] := by
  simp only [feesOf, transferred, posted, DB.put_log, DB.append_log, List.filterMap_append,
    List.append_assoc]
  rfl

end Writes

/-- What is written is the transfer. -/
theorem paid_transferred {db : DB schema} {fee : ℤ} {tx : Transaction} {row : FeeCollection} {month : ℕ}
    {stats : AgentMonthlyStats} (hne : from_agent_id ≠ to_agent_id)
    (hwhole : ∀ a, (balanceOf db a token).available ∈ decimals 12)
    (hfunds : toXmr amount_piconero + toXmr fee ≤ (balanceOf db from_agent_id token).available)
    (hfresh : db.rows (Key.transaction tx_hash) = none)
    (htx : tx.from_agent_id = some from_agent_id ∧ tx.to_agent_id = some to_agent_id ∧
      tx.token = token ∧ tx.amount = toXmr amount_piconero ∧ tx.fee = toXmr fee ∧
        tx.fee_collected = toXmr fee)
    (hrow : row.amount = toXmr fee ∧ row.token = token ∧ row.amount_piconero = some fee ∧
      row.transaction_ref = some tx_hash ∧ row.payer_agent_id = some from_agent_id) :
    Paid db (transferred db tx_hash from_agent_id to_agent_id token (toXmr amount_piconero)
      (toXmr amount_piconero + toXmr fee) tx row month stats) tx_hash from_agent_id to_agent_id token
      amount_piconero fee tx := by
  have hdebit : (balanceOf db from_agent_id token).available
      - (toXmr amount_piconero + toXmr fee) ∈ decimals 12 :=
    sub_mem (hwhole _) (add_mem (toXmr_mem _) (toXmr_mem _))
  have hcredit : (balanceOf db to_agent_id token).available + toXmr amount_piconero ∈ decimals 12 :=
    add_mem (hwhole _) (toXmr_mem _)
  constructor
  · rw [toXmr_add]
    exact hfunds
  · rw [transferred_sender hne, toXmr_add]
    exact Columns.rounding_keeps 12 _ hdebit
  · rw [transferred_recipient hne]
    exact Columns.rounding_keeps 12 _ hcredit
  · intro a t hfrom hto
    exact transferred_rows_ne (by simpa using hfrom) (by simpa using hto) (by simp) (by simp)
  · exact hfresh
  · exact transferred_tx
  · intro h hh
    exact transferred_rows_ne (by simp) (by simp) (by simpa using hh) (by simp)
  · exact htx
  · exact ⟨row, feesOf_transferred, hrow⟩
  · rw [transferred_sender hne, Columns.rounding_keeps 12 _ hdebit]
    exact sub_nonneg.mpr hfunds
  · rw [transferred_sender hne, transferred_recipient hne]
    exact ⟨numeric_mem 12 _, numeric_mem 12 _⟩

/-- The statements of a transfer, run by a lone session. -/
theorem transferWithCommission_always {Ok : StepCond schema} (hne : from_agent_id ≠ to_agent_id)
    (hwhole : ∀ a, (balanceOf st.db a token).available ∈ decimals 12) :
    (TransactionRepository.transferWithCommission Columns.rounding tx_hash network from_agent_id
      to_agent_id amount_piconero token payment_type status memo tier).always Ok
      (fun tx v => v.saved = st.db ∧ v.ext = st.ext ∧ ∃ fee, computeFee amount_piconero tier = .ok fee ∧
        Paid st.db v.db tx_hash from_agent_id to_agent_id token amount_piconero fee tx)
      (fun _ v => v.saved = st.db ∧ v.ext = st.ext) (Solo.ofStore st) := by
  unfold TransactionRepository.transferWithCommission
  cases hfee : computeFee amount_piconero tier with
  | error e => exact ⟨rfl, rfl⟩
  | ok fee =>
      refine always_bind (debitSender_always (fun b hb hfunds => ?_) fun _ _ => ⟨rfl, rfl⟩)
      refine always_bind (credit_always fun b' hb' => ?_)
      refine always_bind (mayFail_always ?_ fun _ _ _ => ⟨rfl, rfl⟩)
      refine always_bind (always_create (fun _ hfresh _ => ?_) fun _ _ => ?_)
      · refine always_bind (always_raiseIf (fun h => absurd h (by decide)) fun _ => ?_)
        refine always_bind (mayFail_always ?_ fun _ _ _ => ⟨rfl, rfl⟩)
        refine always_bind (always_now fun now => always_bind (always_insert ?_))
        refine always_bind (mayFail_always ?_ fun _ _ _ => ⟨rfl, rfl⟩)
        refine always_bind (recordTransaction_always fun month stats => ?_)
        refine ⟨rfl, rfl, fee, rfl, ?_⟩
        subst hb hb'
        have hnew : st.db.rows (Key.transaction tx_hash) = none := by
          have h := hfresh
          rwa [posted_rows_ne (by simp), posted_rows_ne (by simp)] at h
        have hcol (n : ℤ) : Columns.rounding 12 (toXmr n) = toXmr n :=
          Columns.rounding_keeps 12 _ (toXmr_mem n)
        exact paid_transferred hne hwhole hfunds hnew
          ⟨rfl, rfl, rfl, hcol _, hcol _, hcol _⟩ ⟨hcol _, rfl, rfl, rfl, rfl⟩
      · exact always_bind (always_raiseIf (fun _ => ⟨rfl, rfl⟩) fun h => absurd rfl h)

/-- The check for a duplicate only reads. -/
theorem findExisting_always {Ok : StepCond schema} {R : Exn → Solo schema → Prop} {v : Solo schema}
    {key : Option String} {Q : Option Transaction → Solo schema → Prop}
    (hfound : ∀ tx, key.isSome = true → v.db.rows (Key.transaction tx_hash) = some tx → Q (some tx) v)
    (hnone : Q none v) :
    (TransactionRepository.findExisting key tx_hash).always Ok Q R v := by
  unfold TransactionRepository.findExisting
  split
  · next hkey =>
      refine always_select ?_
      cases htx : v.db.rows (Key.transaction tx_hash) with
      | none => exact hnone
      | some tx => exact hfound tx hkey htx
  · exact hnone

/-- A call with a key finds the transaction that is there. -/
theorem createWithCommission_replay {Ok : StepCond schema} {R : Exn → Solo schema → Prop}
    (col : Columns) (hnonneg : 0 ≤ amount_piconero) {tx : Transaction} {v : Solo schema}
    (htx : v.db.rows (Key.transaction tx_hash) = some tx) (key : String)
    {Q : Transaction → Solo schema → Prop} (h : Q tx v) :
    (TransactionRepository.createWithCommission col tx_hash network from_agent_id to_agent_id
      amount_piconero token payment_type status memo (some key) tier).always Ok Q R v := by
  refine always_bind (always_raiseIf (fun hneg => absurd hneg (not_lt.mpr hnonneg)) fun _ => ?_)
  refine always_bind (always_select ?_)
  rw [htx]
  exact h

/-- A session that makes a payment. -/
theorem createWithCommission_always {Ok : StepCond schema} (hne : from_agent_id ≠ to_agent_id)
    (hwhole : ∀ a, (balanceOf st.db a token).available ∈ decimals 12) (key : Option String) :
    (TransactionRepository.createWithCommission Columns.rounding tx_hash network from_agent_id
      to_agent_id amount_piconero token payment_type status memo key tier).always Ok
      (fun tx v => v.saved = st.db ∧ v.ext = st.ext ∧ 0 ≤ amount_piconero ∧
        (key.isSome = true ∧ st.db.rows (Key.transaction tx_hash) = some tx ∧ v.db = st.db ∨
          ∃ fee, computeFee amount_piconero tier = .ok fee ∧
            Paid st.db v.db tx_hash from_agent_id to_agent_id token amount_piconero fee tx))
      (fun _ v => v.saved = st.db ∧ v.ext = st.ext) (Solo.ofStore st) := by
  refine always_bind (always_raiseIf (fun _ => ⟨rfl, rfl⟩) fun hnonneg => ?_)
  refine always_bind (findExisting_always (fun tx hkey htx => ?_) ?_)
  · exact ⟨rfl, rfl, not_lt.mp hnonneg, Or.inl ⟨hkey, htx, rfl⟩⟩
  · refine always_mono (transferWithCommission_always hne hwhole) ?_ fun _ _ h => h
    rintro tx v ⟨hsaved, hext, hpaid⟩
    exact ⟨hsaved, hext, not_lt.mp hnonneg, Or.inr hpaid⟩

/-- Run a program some times, one after the other. -/
def again {α : Type} (p : Program α) : ℕ → Program (List α)
  | 0 => return []
  | n + 1 => do
      let a ← p
      let as ← again p n
      return a :: as

theorem again_always {α : Type} {Ok : StepCond schema} {R : Exn → Solo schema → Prop} {p : Program α}
    {a : α} {v : Solo schema}
    (hp : ∀ Q : α → Solo schema → Prop, Q a v → p.always Ok Q R v) (n : ℕ)
    {Q : List α → Solo schema → Prop} (h : Q (List.replicate n a) v) :
    (again p n).always Ok Q R v := by
  induction n generalizing Q with
  | zero => exact h
  | succ n ih => exact always_bind (hp _ (always_bind (ih h)))

theorem createWithCommission_again (hnonneg : 0 ≤ amount_piconero) {tx : Transaction}
    {v : Solo schema} (hv : v.WF) (htx : v.db.rows (Key.transaction tx_hash) = some tx) (key : String)
    (n : ℕ) (x : ℕ → Input schema) :
    (again (TransactionRepository.createWithCommission Columns.rounding tx_hash network from_agent_id
      to_agent_id amount_piconero token payment_type status memo (some key) tier) n).eval x v
      = (.ok (List.replicate n tx), v) := by
  have hends := (always_eval (again_always (fun _ h =>
    createWithCommission_replay Columns.rounding hnonneg htx key h) n ⟨rfl, rfl⟩ :
      (again (TransactionRepository.createWithCommission Columns.rounding tx_hash network from_agent_id
        to_agent_id amount_piconero token payment_type status memo (some key) tier) n).always
        (fun _ _ _ => True) (fun txs w => txs = List.replicate n tx ∧ w = v) (fun _ _ => False) v)
    hv (meets_true _ x v)).1
  generalize (again _ n).eval x v = result at hends ⊢
  obtain ⟨result, w⟩ := result
  cases result with
  | error e => exact hends.elim
  | ok txs =>
      obtain ⟨htxs, hw⟩ : txs = List.replicate n tx ∧ w = v := hends
      rw [htxs, hw]

end Transfer

/-! ## Sessions -/

section Sessions

variable (tx_hash network : String) (from_agent_id to_agent_id : Id) (amount_piconero : ℤ)
  (token : Token) (payment_type : PaymentType) (status : TransactionStatus) (memo : Option String)
  (key : Option String) (tier : AgentTier)

/-- **A hub payment is atomic and idempotent.** A session that raises leaves the store as it was. One
that returns has found the transaction of an earlier call, or has made the payment. From then on, the
call with a key returns that transaction and changes nothing, however often it is made. -/
theorem hub_payment (hne : from_agent_id ≠ to_agent_id) {st : Store schema} (hwf : st.db.WF)
    (hwhole : ∀ a, (balanceOf st.db a token).available ∈ decimals 12) (x : ℕ → Input schema) :
    let pay key := TransactionRepository.createWithCommission Columns.rounding tx_hash network
      from_agent_id to_agent_id amount_piconero token payment_type status memo key tier
    match (pay key).withSession.serve x st with
    | (.error _, st') => st' = st
    | (.ok tx, st') =>
        (key.isSome = true ∧ st.db.rows (Key.transaction tx_hash) = some tx ∧ st' = st ∨
          ∃ fee, computeFee amount_piconero tier = .ok fee ∧
            Paid st.db st'.db tx_hash from_agent_id to_agent_id token amount_piconero fee tx) ∧
        ∀ (v : Solo schema) (key' : String) (n : ℕ) (y : ℕ → Input schema), v.WF →
          v.db.rows (Key.transaction tx_hash) = st'.db.rows (Key.transaction tx_hash) →
            (again (pay (some key')) n).eval y v = (.ok (List.replicate n tx), v) := by
  intro pay
  have halways : (pay key).withSession.always (fun _ _ _ => True)
      (fun tx v => v.saved = v.db ∧ v.ext = st.ext ∧ 0 ≤ amount_piconero ∧
        (key.isSome = true ∧ st.db.rows (Key.transaction tx_hash) = some tx ∧ v.db = st.db ∨
          ∃ fee, computeFee amount_piconero tier = .ok fee ∧
            Paid st.db v.db tx_hash from_agent_id to_agent_id token amount_piconero fee tx))
      (fun _ v => v.saved = st.db ∧ v.ext = st.ext) (Solo.ofStore st) := by
    refine always_withSession (always_mono (createWithCommission_always hne hwhole key) ?_ ?_)
    · rintro tx v ⟨hsaved, hext, hnonneg, hdone⟩
      exact ⟨⟨rfl, hext, hnonneg, hdone⟩, fun _ _ _ => ⟨hsaved, hext⟩⟩
    · exact fun _ _ h => h
  obtain ⟨v, hstore, -, hends⟩ := always_serve halways hwf (meets_true _ x _)
  cases hrun : (pay key).withSession.serve x st with
  | mk result st' =>
      rw [hrun] at hstore hends
      obtain rfl : st' = v.store := hstore
      cases result with
      | error e =>
          obtain ⟨hsaved, hext⟩ := hends
          show Store.mk v.saved v.ext = st
          rw [hsaved, hext]
      | ok tx =>
          obtain ⟨hsaved, hext, hnonneg, hdone⟩ := hends
          have hrow : v.store.db.rows (Key.transaction tx_hash) = some tx := by
            show v.saved.rows _ = _
            rw [hsaved]
            rcases hdone with ⟨-, htx, hdb⟩ | ⟨fee, -, hpaid⟩
            · rw [hdb]
              exact htx
            · exact hpaid.recorded
          refine ⟨?_, ?_⟩
          · rcases hdone with ⟨hkey, htx, hdb⟩ | ⟨fee, hfee, hpaid⟩
            · refine Or.inl ⟨hkey, htx, ?_⟩
              show Store.mk v.saved v.ext = st
              rw [hsaved, hdb, hext]
            · refine Or.inr ⟨fee, hfee, ?_⟩
              show Paid st.db v.saved ..
              rw [hsaved]
              exact hpaid
          · intro w key' n y hw hsame
            exact createWithCommission_again hnonneg hw (hsame.trans hrow) key' n y

end Sessions

theorem tenUnits_whole (a : Id) : (balanceOf tenUnits.db a .XMR).available ∈ decimals 12 := by
  by_cases ha : a = 1
  · subst ha
    exact mem_decimals.mpr ⟨10 ^ 13, by norm_num [balanceOf, tenUnits]⟩
  · have hrow : tenUnits.db.rows (Key.balance a .XMR) = none := by simp [tenUnits, ha]
    rw [balanceOf, hrow]
    exact zero_mem _

/-- Agent 1 pays five units to agent 2. -/
def payFive : Program Transaction :=
  TransactionRepository.createWithCommission Columns.rounding "hub:1" "hub" 1 2 (5 * 10 ^ 12) .XMR
    .HUB_ROUTING .CONFIRMED none (some "1") .FREE

theorem hub_payment_tenUnits :
    match payFive.withSession.serve (fun _ => {}) tenUnits with
    | (.error _, st') => st' = tenUnits
    | (.ok tx, st') =>
        ((some "1").isSome = true ∧ tenUnits.db.rows (Key.transaction "hub:1") = some tx ∧
            st' = tenUnits ∨
          ∃ fee, computeFee (5 * 10 ^ 12) .FREE = .ok fee ∧
            Paid tenUnits.db st'.db "hub:1" 1 2 .XMR (5 * 10 ^ 12) fee tx) ∧
        ∀ (v : Solo schema) (key' : String) (n : ℕ) (y : ℕ → Input schema), v.WF →
          v.db.rows (Key.transaction "hub:1") = st'.db.rows (Key.transaction "hub:1") →
            (again (TransactionRepository.createWithCommission Columns.rounding "hub:1" "hub" 1 2
              (5 * 10 ^ 12) .XMR .HUB_ROUTING .CONFIRMED none (some key') .FREE) n).eval y v
              = (.ok (List.replicate n tx), v) :=
  hub_payment "hub:1" "hub" 1 2 (5 * 10 ^ 12) .XMR .HUB_ROUTING .CONFIRMED none (some "1") .FREE
    (by decide) tenUnits_wf tenUnits_whole fun _ => {}

example : computeFee (5 * 10 ^ 12) .FREE = .ok (15 * 10 ^ 9) := by decide +kernel

example : (payFive.withSession.serve (fun _ => {}) tenUnits).1.toOption.map (·.fee)
    = some (15 / 1000) := by decide +kernel

end Sthrip
