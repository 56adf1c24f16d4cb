import Sthrip.Db.Models
import Sthrip.Txn.Footprint

set_option autoImplicit false

/-! # Balances

`BalanceRepository` of `sthrip/db/balance_repo.py`. Every change of a balance locks its row with
a second query and then writes the value computed from the object the query returned. When the
session has loaded the row before, that object still has the attribute values loaded first.

`ref` says what an amount is for; it goes into the journal only.
-/

namespace Sthrip

open Txn Prog

namespace BalanceRepository

variable (col : Columns)

def getOrCreate (agent_id : Id) (token : Token) : Program AgentBalance := do
  let balance ← select (Key.balance agent_id token)
  match balance with
  | some balance => return balance
  | none =>
      -- the savepoint keeps the session usable when the key is taken
      let inserted ← create (Key.balance agent_id token) ({} : AgentBalance)
      if inserted then return {}
      else
        let balance ← select (Key.balance agent_id token)
        orRaise (.RuntimeError "Balance record for agent %s vanished after race condition"
          [.int agent_id]) balance

/-- `_get_for_update` -/
def getForUpdate (agent_id : Id) (token : Token) : Program AgentBalance := do
  let balance ← selectForUpdate (Key.balance agent_id token)
  match balance with
  | some balance => return balance
  | none =>
      let inserted ← create (Key.balance agent_id token) ({} : AgentBalance)
      if inserted then return {}
      else
        let balance ← selectForUpdate (Key.balance agent_id token)
        orRaise (.RuntimeError "Balance record for agent %s could not be created or found"
          [.int agent_id]) balance

def getAvailable (agent_id : Id) (token : Token) : Program ℚ := do
  let balance ← getOrCreate agent_id token
  return balance.available

/-- Write the balance and the journal. -/
def save (agent_id : Id) (token : Token) (set : AgentBalance → AgentBalance) (amount : ℚ)
    (ref : Ref) : Program Unit := do
  assign (Key.balance agent_id token) set
  insert (Entry.posting ⟨agent_id, token, amount, ref⟩)

def deposit (agent_id : Id) (amount : ℚ) (token : Token) (ref : Ref) : Program AgentBalance := do
  let balance ← getForUpdate agent_id token
  let available := col 12 (balance.available + amount)
  let total_deposited := col 12 (balance.total_deposited + amount)
  save agent_id token (fun row => { row with available, total_deposited }) amount ref
  return { balance with available, total_deposited }

def deduct (agent_id : Id) (amount : ℚ) (token : Token) (ref : Ref) : Program AgentBalance := do
  let balance ← getForUpdate agent_id token
  raiseIf (balance.available < amount) (.ValueError "Insufficient balance")
  let available := col 12 (balance.available - amount)
  save agent_id token (fun row => { row with available }) (-amount) ref
  return { balance with available }

def withdraw (agent_id : Id) (amount : ℚ) (token : Token) (ref : Ref) :
    Program AgentBalance := do
  let balance ← getForUpdate agent_id token
  raiseIf (balance.available < amount) (.ValueError "Insufficient balance")
  let available := col 12 (balance.available - amount)
  let total_withdrawn := col 12 (balance.total_withdrawn + amount)
  save agent_id token (fun row => { row with available, total_withdrawn }) (-amount) ref
  return { balance with available, total_withdrawn }

def credit (agent_id : Id) (amount : ℚ) (token : Token) (ref : Ref) : Program AgentBalance := do
  let balance ← getForUpdate agent_id token
  let available := col 12 (balance.available + amount)
  save agent_id token (fun row => { row with available }) amount ref
  return { balance with available }

/-- An unconfirmed deposit. It is not on the journal, as it cannot be spent yet. -/
def addPending (agent_id : Id) (amount : ℚ) (token : Token) : Program AgentBalance := do
  let balance ← getForUpdate agent_id token
  let pending := col 12 (balance.pending + amount)
  assign (Key.balance agent_id token) fun row => { row with pending }
  return { balance with pending }

/-- A pending balance that is too small is logged, and set to zero. -/
def clearPendingOnConfirm (agent_id : Id) (amount : ℚ) (token : Token) :
    Program AgentBalance := do
  let balance ← getForUpdate agent_id token
  let pending := col 12 (max (balance.pending - amount) 0)
  assign (Key.balance agent_id token) fun row => { row with pending }
  return { balance with pending }

/-! ## Running alone -/

/-- The balance of an agent; a new row starts at zero. -/
def balanceOf (db : DB schema) (agent_id : Id) (token : Token) : AgentBalance :=
  (db.rows (Key.balance agent_id token)).getD {}

/-- The database after an amount was put on a balance, or taken off it. -/
def posted (db : DB schema) (agent_id : Id) (token : Token) (b : AgentBalance) (amount : ℚ)
    (ref : Ref) : DB schema :=
  (db.put (Key.balance agent_id token) b).append (.posting ⟨agent_id, token, amount, ref⟩)

theorem balanceOf_posted_self (db : DB schema) (agent_id : Id) (token : Token) (b : AgentBalance)
    (amount : ℚ) (ref : Ref) : balanceOf (posted db agent_id token b amount ref) agent_id token = b := by
  rw [balanceOf, posted, DB.append_rows, DB.put_rows_self, Option.getD_some]

theorem posted_rows_ne {db : DB schema} {agent_id : Id} {token : Token} {b : AgentBalance} {amount : ℚ}
    {ref : Ref} {k : Key} (h : k ≠ Key.balance agent_id token) :
    (posted db agent_id token b amount ref).rows k = db.rows k := by
  rw [posted, DB.append_rows, DB.put_rows_ne _ _ h]

section Alone

variable {col : Columns} {Ok : StepCond schema} {R : Exn → Solo schema → Prop}
  {v : Solo schema} {agent_id : Id} {amount : ℚ} {token : Token} {ref : Ref}

/-- Nobody else can take the key between the query and the insert. -/
theorem getForUpdate_always {Q : AgentBalance → Solo schema → Prop}
    (h : ∀ db', db'.rows (Key.balance agent_id token) = some (balanceOf v.db agent_id token) →
      (∀ b, db'.put (Key.balance agent_id token) b = v.db.put (Key.balance agent_id token) b) →
      Q (balanceOf v.db agent_id token) { v with db := db' }) :
    (getForUpdate agent_id token).always Ok Q R v := by
  refine always_bind (always_selectForUpdate ?_)
  cases hrow : v.db.rows (Key.balance agent_id token) with
  | some b =>
      have hb : balanceOf v.db agent_id token = b := by simp [balanceOf, hrow]
      exact hb ▸ h v.db (by rw [hb, hrow]) fun _ => rfl
  | none =>
      have hb : balanceOf v.db agent_id token = {} := by simp [balanceOf, hrow]
      refine always_bind (always_create (fun _ _ _ => ?_) fun r hr => ?_)
      · exact hb ▸ h _ (by rw [hb, DB.put_rows_self]) fun _ => DB.put_put ..
      · rw [hrow] at hr
        cases hr

theorem deduct_always {Q : AgentBalance → Solo schema → Prop}
    (h : ∀ b, b = balanceOf v.db agent_id token → amount ≤ b.available →
      Q { b with available := col 12 (b.available - amount) }
        { v with db := (posted v.db agent_id token
          { b with available := col 12 (b.available - amount) } (-amount) ref) })
    (hR : ∀ e db', R e { v with db := db' }) :
    (deduct col agent_id amount token ref).always Ok Q R v := by
  refine always_bind (getForUpdate_always fun db' hrow hput => ?_)
  refine always_bind (always_raiseIf (fun _ => hR _ _) fun hok => ?_)
  refine always_bind (always_bind (always_assign hrow (always_insert ?_)))
  rw [hput]
  exact h _ rfl (not_lt.mp hok)

theorem deposit_always {Q : AgentBalance → Solo schema → Prop}
    (h : ∀ b, b = balanceOf v.db agent_id token →
      Q { b with
          available := col 12 (b.available + amount)
          total_deposited := col 12 (b.total_deposited + amount) }
        { v with db := (posted v.db agent_id token
          { b with
            available := col 12 (b.available + amount)
            total_deposited := col 12 (b.total_deposited + amount) } amount ref) }) :
    (deposit col agent_id amount token ref).always Ok Q R v := by
  refine always_bind (getForUpdate_always fun db' hrow hput => ?_)
  refine always_bind (always_bind (always_assign hrow (always_insert ?_)))
  rw [hput]
  exact h _ rfl

theorem addPending_always {Q : AgentBalance → Solo schema → Prop}
    (h : ∀ b, b = balanceOf v.db agent_id token →
      Q { b with pending := col 12 (b.pending + amount) }
        { v with db := (v.db.put (Key.balance agent_id token)
          { b with pending := col 12 (b.pending + amount) }) }) :
    (addPending col agent_id amount token).always Ok Q R v := by
  refine always_bind (getForUpdate_always fun db' hrow hput => ?_)
  refine always_bind (always_assign hrow ?_)
  rw [hput]
  exact h _ rfl

theorem clearPendingOnConfirm_always {Q : AgentBalance → Solo schema → Prop}
    (h : ∀ b, b = balanceOf v.db agent_id token →
      Q { b with pending := col 12 (max (b.pending - amount) 0) }
        { v with db := (v.db.put (Key.balance agent_id token)
          { b with pending := col 12 (max (b.pending - amount) 0) }) }) :
    (clearPendingOnConfirm col agent_id amount token).always Ok Q R v := by
  refine always_bind (getForUpdate_always fun db' hrow hput => ?_)
  refine always_bind (always_assign hrow ?_)
  rw [hput]
  exact h _ rfl

theorem credit_always {Q : AgentBalance → Solo schema → Prop}
    (h : ∀ b, b = balanceOf v.db agent_id token →
      Q { b with available := col 12 (b.available + amount) }
        { v with db := (posted v.db agent_id token
          { b with available := col 12 (b.available + amount) } amount ref) }) :
    (credit col agent_id amount token ref).always Ok Q R v := by
  refine always_bind (getForUpdate_always fun db' hrow hput => ?_)
  refine always_bind (always_bind (always_assign hrow (always_insert ?_)))
  rw [hput]
  exact h _ rfl

end Alone

/-! ## In a session of an interleaving -/

/-- From `σ` to `σ'` only balances were touched, and the entries `l` inserted. -/
structure Frame (σ σ' : Session schema) (l : List Entry) : Prop where
  inserted : σ'.inserted = σ.inserted ++ l
  held : ∀ k, (∀ a t, k ≠ Key.balance a t) → σ'.held k = σ.held k
  loaded : ∀ k, (∀ a t, k ≠ Key.balance a t) → σ'.loaded k = σ.loaded k

section Interleaved

variable {G : Type} {P : Protocol schema G} {i : ℕ} {col : Columns}
  {R : Exn → Session schema → G → Prop} {σ σ' σ'' : Session schema} {g : G} {agent_id : Id}
  {amount : ℚ} {token : Token} {ref : Ref}

theorem Frame.refl (σ : Session schema) : Frame σ σ [] :=
  ⟨(List.append_nil _).symm, fun _ _ => rfl, fun _ _ => rfl⟩

theorem Frame.trans {l l' : List Entry} (h : Frame σ σ' l) (h' : Frame σ' σ'' l') :
    Frame σ σ'' (l ++ l') where
  inserted := by rw [h'.inserted, h.inserted, List.append_assoc]
  held k hk := (h'.held k hk).trans (h.held k hk)
  loaded k hk := (h'.loaded k hk).trans (h.loaded k hk)

/-- A change of the session in one balance only. -/
theorem Frame.of_balance (agent_id : Id) (token : Token)
    (hheld : ∀ k, k ≠ Key.balance agent_id token → σ'.held k = σ.held k)
    (hloaded : ∀ k, k ≠ Key.balance agent_id token → σ'.loaded k = σ.loaded k)
    (hins : σ'.inserted = σ.inserted) : Frame σ σ' [] where
  inserted := by rw [hins, List.append_nil]
  held k hk := hheld k (hk _ _)
  loaded k hk := hloaded k (hk _ _)

theorem selectForUpdate_frame {Q : Option AgentBalance → Session schema → G → Prop}
    (h : ∀ b σ', Frame σ σ' [] → Q b σ' g) :
    (selectForUpdate (S := schema) (Key.balance agent_id token)).safe P i Q R σ g := by
  refine safe_selectForUpdate fun st γ x _ _ => h _ _ (.of_balance agent_id token
    (fun k hk => ?_) (fun k hk => ?_) (by simp))
  · rw [Session.load_held]
    unfold Session.lock
    split
    · exact Function.update_of_ne hk ..
    · rfl
  · rw [← Session.lock_loaded σ st.db (Key.balance agent_id token)]
    unfold Session.load
    split
    · exact Function.update_of_ne hk ..
    · rfl

theorem create_frame {Q : Bool → Session schema → G → Prop}
    (h : ∀ b σ', Frame σ σ' [] → Q b σ' g) :
    (create (S := schema) (Key.balance agent_id token) ({} : AgentBalance)).safe P i Q R σ g :=
  safe_create (fun _ _ _ _ => h _ _ (.of_balance agent_id token
    (fun _ hk => Function.update_of_ne hk ..) (fun _ hk => Function.update_of_ne hk ..) rfl))
    fun _ _ _ _ _ => h _ _ (.refl σ)

theorem getForUpdate_frame {Q : AgentBalance → Session schema → G → Prop}
    (h : ∀ b σ', Frame σ σ' [] → Q b σ' g) (hR : ∀ e σ', R e σ' g) :
    (getForUpdate agent_id token).safe P i Q R σ g := by
  refine safe_bind (selectForUpdate_frame fun b σ₁ f₁ => ?_)
  cases b with
  | some b => exact h b σ₁ f₁
  | none =>
      refine safe_bind (create_frame fun inserted σ₂ f₂ => ?_)
      cases inserted with
      | true => exact h {} σ₂ (f₁.trans f₂)
      | false =>
          refine safe_bind (selectForUpdate_frame fun b σ₃ f₃ => ?_)
          exact safe_orRaise (fun _ => hR _ _) fun b _ => h b σ₃ ((f₁.trans f₂).trans f₃)

theorem save_frame {Q : Unit → Session schema → G → Prop} {set : AgentBalance → AgentBalance}
    (h : ∀ σ', Frame σ σ' [.posting ⟨agent_id, token, amount, ref⟩] → Q () σ' g) :
    (save agent_id token set amount ref).safe P i Q R σ g := by
  have post : ∀ {σ' : Session schema}, Frame σ σ' [] →
      (insert (S := schema) (.posting ⟨agent_id, token, amount, ref⟩)).safe P i Q R σ' g := by
    intro σ' f
    exact safe_insert (h _ (f.trans ⟨rfl, fun _ _ => rfl, fun _ _ => rfl⟩))
  refine safe_bind (safe_assign (fun st γ x r hs _ hv => post ?_) fun st γ x hs _ hv =>
    post (.refl σ))
  exact .of_balance agent_id token (fun _ hk => Function.update_of_ne hk ..)
    (fun _ hk => Function.update_of_ne hk ..) rfl

/-- A credit or a deposit in a session: one posting, and nothing else but balances. -/
theorem credit_frame {Q : AgentBalance → Session schema → G → Prop}
    (h : ∀ b σ', Frame σ σ' [.posting ⟨agent_id, token, amount, ref⟩] → Q b σ' g)
    (hR : ∀ e σ', R e σ' g) :
    (credit col agent_id amount token ref).safe P i Q R σ g := by
  refine safe_bind (getForUpdate_frame (fun b σ₁ f₁ => ?_) hR)
  exact safe_bind (save_frame fun σ₂ f₂ => h _ σ₂ (f₁.trans f₂))

theorem deposit_frame {Q : AgentBalance → Session schema → G → Prop}
    (h : ∀ b σ', Frame σ σ' [.posting ⟨agent_id, token, amount, ref⟩] → Q b σ' g)
    (hR : ∀ e σ', R e σ' g) :
    (deposit col agent_id amount token ref).safe P i Q R σ g := by
  refine safe_bind (getForUpdate_frame (fun b σ₁ f₁ => ?_) hR)
  exact safe_bind (save_frame fun σ₂ f₂ => h _ σ₂ (f₁.trans f₂))

theorem deduct_frame {Q : AgentBalance → Session schema → G → Prop}
    (h : ∀ b σ', Frame σ σ' [.posting ⟨agent_id, token, -amount, ref⟩] → Q b σ' g)
    (hR : ∀ e σ', R e σ' g) :
    (deduct col agent_id amount token ref).safe P i Q R σ g := by
  refine safe_bind (getForUpdate_frame (fun b σ₁ f₁ => ?_) hR)
  refine safe_bind (safe_raiseIf (fun _ => hR _ _) fun _ => ?_)
  exact safe_bind (save_frame fun σ₂ f₂ => h _ σ₂ (f₁.trans f₂))

end Interleaved

/-! ## The statements of a credit -/

section Footprint

variable {col : Columns} {ok : Stmt schema → Prop} {agent_id : Id} {amount : ℚ} {token : Token}
  {ref : Ref}

/-- The statements that lock and write a balance satisfy `ok`. -/
structure Allows (ok : Stmt schema → Prop) (agent_id : Id) (token : Token) : Prop where
  lock : ok (.selectForUpdate (Key.balance agent_id token))
  create : ok (.create (Key.balance agent_id token) ({} : AgentBalance))
  assign : ∀ set, ok (.assign (Key.balance agent_id token) set)

theorem getForUpdate_only_of (hlock : ok (.selectForUpdate (Key.balance agent_id token)))
    (hcreate : ok (.create (Key.balance agent_id token) ({} : AgentBalance))) :
    (getForUpdate agent_id token).only ok := by
  refine only_bind (only_stmt hlock) fun balance => ?_
  cases balance with
  | some balance => trivial
  | none =>
      refine only_bind (only_stmt hcreate) fun inserted => ?_
      cases inserted with
      | true => trivial
      | false => exact only_bind (only_stmt hlock) fun balance => only_orRaise

theorem getForUpdate_only (h : Allows ok agent_id token) :
    (getForUpdate agent_id token).only ok := getForUpdate_only_of h.lock h.create

theorem getOrCreate_only (h : Allows ok agent_id token)
    (hselect : ok (.select (Key.balance agent_id token))) :
    (getOrCreate agent_id token).only ok := by
  refine only_bind (only_stmt hselect) fun balance => ?_
  cases balance with
  | some balance => trivial
  | none =>
      refine only_bind (only_stmt h.create) fun inserted => ?_
      cases inserted with
      | true => trivial
      | false => exact only_bind (only_stmt hselect) fun balance => only_orRaise

theorem getAvailable_only (h : Allows ok agent_id token)
    (hselect : ok (.select (Key.balance agent_id token))) :
    (getAvailable agent_id token).only ok :=
  only_bind (getOrCreate_only h hselect) fun _ => trivial

theorem credit_only (h : Allows ok agent_id token)
    (hinsert : ok (.insert (.posting ⟨agent_id, token, amount, ref⟩))) :
    (credit col agent_id amount token ref).only ok := by
  refine only_bind (getForUpdate_only h) fun balance => ?_
  refine only_bind (only_bind (only_stmt (h.assign _)) fun _ => only_stmt hinsert) fun _ => trivial

theorem deposit_only (h : Allows ok agent_id token)
    (hinsert : ok (.insert (.posting ⟨agent_id, token, amount, ref⟩))) :
    (deposit col agent_id amount token ref).only ok := by
  refine only_bind (getForUpdate_only h) fun balance => ?_
  refine only_bind (only_bind (only_stmt (h.assign _)) fun _ => only_stmt hinsert) fun _ => trivial

theorem addPending_only (h : Allows ok agent_id token) :
    (addPending col agent_id amount token).only ok := by
  refine only_bind (getForUpdate_only h) fun balance => ?_
  exact only_bind (only_stmt (h.assign _)) fun _ => trivial

theorem clearPendingOnConfirm_only (h : Allows ok agent_id token) :
    (clearPendingOnConfirm col agent_id amount token).only ok := by
  refine only_bind (getForUpdate_only h) fun balance => ?_
  exact only_bind (only_stmt (h.assign _)) fun _ => trivial

theorem deduct_only (h : Allows ok agent_id token)
    (hinsert : ok (.insert (.posting ⟨agent_id, token, -amount, ref⟩))) :
    (deduct col agent_id amount token ref).only ok := by
  refine only_bind (getForUpdate_only h) fun balance => only_bind only_raiseIf fun _ => ?_
  refine only_bind (only_bind (only_stmt (h.assign _)) fun _ => only_stmt hinsert) fun _ => trivial

end Footprint

end BalanceRepository

/-! ## Runs on fixed inputs -/

/-- Agent 1 has ten units. -/
def tenUnits : Store schema where
  db :=
    { rows := fun
        | .balance id token => if id = 1 ∧ token = .XMR then some { available := 10 } else none
        | _ => none
      keys := [.balance 1 .XMR]
      log := [] }
  ext := default

theorem tenUnits_wf : tenUnits.db.WF := by
  refine ⟨by decide, fun k => ?_⟩
  cases k with
  | balance id token => by_cases h : id = 1 ∧ token = .XMR <;> simp [tenUnits, h]
  | _ => simp [tenUnits]

/-- Thread `i` runs `n` statements at `t` hours. -/
def turn (i n : ℕ) (t : ℤ) : List (ℕ × Input schema) := List.replicate n (i, { time := hours t })

end Sthrip
