import Sthrip.Services.SplitPaymentService
import Sthrip.Txn.Ensures

set_option autoImplicit false

/-! # Nobody spends another agent's balance

An agent sends no request, and pays no recurring payment. The others open, update, settle, dispute and
close channels with any arguments, make split payments, and sweeps run, in any order. What does this
do to the balance of the agent?

`open_channel` takes a deposit of its caller's choice off the other agent of the channel, and nobody
asks him. What protects him is the call of `audit_log` behind it, which raises: an opening never comes
to its commit. All other debits are off the caller, or off the payer of an active recurring payment.

A credit is computed from the object that the locking read returns. The sessions here load the
balance of the agent by locking reads only, so that this object is the row (`OnlyGains`).
-/

namespace Sthrip

open Txn Prog BalanceRepository

/-! ## What the tables hold -/

/-- The columns and constraints of the tables, and that `X` has no active payments to make. -/
def NoPayer (X : Id) : (k : Key) → Row k → Prop
  | .balance _ _, row => row.available ∈ decimals 12
  | .recurring _, row => 0 < row.amount ∧ (row.from_agent_id = X → row.is_active = false)
  | _, _ => True

/-! ## Sessions -/

/-- A session has loaded a balance of `X` only together with its lock, and has taken nothing off
it. -/
structure OnlyGains (X : Id) (σ : Session schema) : Prop where
  held : ∀ token h, σ.held (Key.balance X token) = some h → ∃ row : AgentBalance,
    h.own = some row ∧ σ.loaded (Key.balance X token) = some row ∧
    (h.base.getD ({} : AgentBalance)).available ≤ row.available
  free : ∀ token, σ.held (Key.balance X token) = none → σ.loaded (Key.balance X token) = none

/-- The statement leaves the balances of `X` alone, or locks or creates them. -/
def SparesBalances (X : Id) : Stmt schema → Prop
  | .select k => ∀ token, k ≠ Key.balance X token
  | .scan p => ∀ token row, p (Key.balance X token) row = false
  | .update k _ _ => ∀ token, k ≠ Key.balance X token
  | .assign k _ => ∀ token, k ≠ Key.balance X token
  | .create (.balance agent_id _) row => agent_id = X → 0 ≤ AgentBalance.available row
  | .expireAll => False
  | .commit => False
  | .rollback => False
  | _ => True

namespace OnlyGains

variable {X : Id} {σ σ' : Session schema} {st : Store schema}

theorem start : OnlyGains X Session.start where
  held _ _ h := nomatch h
  free _ _ := rfl

/-- A change of the session in a row that is not a balance of `X`. -/
theorem congr (h : OnlyGains X σ)
    (hheld : ∀ token, σ'.held (Key.balance X token) = σ.held (Key.balance X token))
    (hloaded : ∀ token, σ'.loaded (Key.balance X token) = σ.loaded (Key.balance X token)) :
    OnlyGains X σ' where
  held token hd hh := by
    rw [hheld] at hh
    rw [hloaded]
    exact h.held token hd hh
  free token hh := by
    rw [hheld] at hh
    rw [hloaded]
    exact h.free token hh

/-- The session takes hold of a balance, or changes one that it holds, and gives it a `row`. -/
theorem set (h : OnlyGains X σ) {token : Token} {row : AgentBalance} {base : Option AgentBalance}
    (hheld : σ'.held = Function.update σ.held (Key.balance X token) (some ⟨base, some row⟩))
    (hloaded : σ'.loaded = Function.update σ.loaded (Key.balance X token) (some row))
    (hrow : (base.getD ({} : AgentBalance)).available ≤ row.available) : OnlyGains X σ' where
  held token' hd hh := by
    rw [hheld] at hh
    rw [hloaded]
    by_cases ht : Key.balance X token' = Key.balance X token
    · obtain rfl : token' = token := by simpa using ht
      rw [Function.update_self, Option.some.injEq] at hh
      subst hh
      exact ⟨row, rfl, Function.update_self .., hrow⟩
    · rw [Function.update_of_ne ht] at hh ⊢
      exact h.held token' hd hh
  free token' hh := by
    rw [hheld] at hh
    rw [hloaded]
    by_cases ht : Key.balance X token' = Key.balance X token
    · rw [ht, Function.update_self] at hh
      cases hh
    · rw [Function.update_of_ne ht] at hh ⊢
      exact h.free token' hh

/-- Loading an object of another row. -/
theorem load_ne (h : OnlyGains X σ) {k : Key} (hk : ∀ token, k ≠ Key.balance X token) :
    OnlyGains X (σ.load st.db k) := by
  refine h.congr (fun token => by rw [Session.load_held]) fun token => ?_
  unfold Session.load
  split
  · exact Function.update_of_ne (hk token).symm ..
  · rfl

/-- A query that finds no balance of `X`. -/
theorem loadAll (h : OnlyGains X σ) {l : List Key} (hl : ∀ k ∈ l, ∀ token, k ≠ Key.balance X token) :
    OnlyGains X (σ.loadAll st.db l) :=
  h.congr (fun _ => rfl) fun token => if_neg fun hmem => hl _ hmem token rfl

/-- The locking read of a balance of `X` returns the row that is locked. -/
theorem lock (h : OnlyGains X σ) (st : Store schema) (token : Token) :
    OnlyGains X ((σ.lock st.db (Key.balance X token)).load st.db (Key.balance X token)) ∧
      ∀ row, σ.object st.db (Key.balance X token) = some row →
        ∃ base, ((σ.lock st.db (Key.balance X token)).load st.db (Key.balance X token)).held
          (Key.balance X token) = some ⟨base, some row⟩ := by
  cases hv : σ.view st.db (Key.balance X token) with
  | none =>
      have hobject : σ.object st.db (Key.balance X token) = none := by rw [Session.object, hv]; rfl
      rw [Session.lock_of_no_view hv]
      refine ⟨?_, fun row hrow => by rw [hobject] at hrow; cases hrow⟩
      unfold Session.load
      rw [hobject]
      exact h
  | some row =>
      -- the object, if there is one, is the row
      have hrow : σ.object st.db (Key.balance X token) = some row ∧
          ((σ.base st.db (Key.balance X token)).getD ({} : AgentBalance)).available
            ≤ AgentBalance.available row := by
        unfold Session.object
        rw [hv, Option.map_some]
        cases hh : σ.held (Key.balance X token) with
        | none =>
            rw [h.free token hh, Option.getD_none, Session.base, hh]
            rw [Session.view_of_not_held hh] at hv
            exact ⟨rfl, by rw [hv]; exact le_rfl⟩
        | some hd =>
            obtain ⟨own, hown, hloaded, hle⟩ := h.held token hd hh
            rw [Session.view_of_held hh, hown, Option.some.injEq] at hv
            rw [hloaded, Option.getD_some, Session.base, hh, ← hv]
            exact ⟨rfl, hle⟩
      have hheld : ((σ.lock st.db (Key.balance X token)).load st.db (Key.balance X token)).held
          = Function.update σ.held (Key.balance X token)
            (some ⟨σ.base st.db (Key.balance X token), some row⟩) := by
        rw [Session.load_held, Session.lock_of_view hv]
        rfl
      have hloaded : ((σ.lock st.db (Key.balance X token)).load st.db (Key.balance X token)).loaded
          = Function.update σ.loaded (Key.balance X token) (some row) := by
        unfold Session.load
        rw [Session.lock_object, hrow.1, Session.lock_loaded]
      refine ⟨h.set hheld hloaded hrow.2, fun row' hrow' => ?_⟩
      rw [hrow.1, Option.some.injEq] at hrow'
      subst hrow'
      exact ⟨_, by rw [hheld, Function.update_self]⟩

/-- A row that the session writes is not one of `X`. -/
theorem write_ne (h : OnlyGains X σ) {k : Key} (hk : ∀ token, k ≠ Key.balance X token)
    (hheld : ∀ k', k' ≠ k → σ'.held k' = σ.held k')
    (hloaded : ∀ k', k' ≠ k → σ'.loaded k' = σ.loaded k') : OnlyGains X σ' :=
  h.congr (fun token => hheld _ (hk token).symm) fun token => hloaded _ (hk token).symm

/-- A new balance. -/
theorem create (h : OnlyGains X σ) {token : Token} {row : AgentBalance} (hrow : 0 ≤ row.available)
    (hv : σ.view st.db (Key.balance X token) = none)
    (hheld : σ'.held = (σ.write st.db (Key.balance X token) row).held)
    (hloaded : σ'.loaded = Function.update σ.loaded (Key.balance X token) (some row)) :
    OnlyGains X σ' := by
  refine h.set hheld hloaded ?_
  cases hh : σ.held (Key.balance X token) with
  | none =>
      rw [Session.view_of_not_held hh] at hv
      rw [Session.base, hh]
      simp only [hv, Option.getD_none]
      exact hrow
  | some hd =>
      obtain ⟨own, hown, -, -⟩ := h.held token hd hh
      rw [Session.view_of_held hh, hown] at hv
      cases hv

end OnlyGains

/-- The step lemma. -/
theorem SparesBalances.exec {X : Id} {s : Stmt schema} (hs : SparesBalances X s) (x : Input schema)
    (st : Store schema) {σ : Session schema} (h : OnlyGains X σ) :
    OnlyGains X (s.exec x st σ).2.2 := by
  cases s with
  | now => exact h
  | ask => exact h
  | select k => exact h.load_ne hs
  | selectForUpdate k =>
      by_cases hk : ∃ token, k = Key.balance X token
      · obtain ⟨token, rfl⟩ := hk
        exact (h.lock st token).1
      · have hk' : ∀ token, k ≠ Key.balance X token := fun token he => hk ⟨token, he⟩
        have hlock : OnlyGains X (σ.lock st.db k) := by
          refine h.write_ne hk' (fun k' hne => ?_) fun k' _ => by rw [Session.lock_loaded]
          unfold Session.lock
          split
          · exact Function.update_of_ne hne ..
          · rfl
        exact hlock.load_ne hk'
  | scan p =>
      refine h.loadAll fun k hk token he => ?_
      obtain ⟨row, -, hrow⟩ := (Option.any_eq_true ..).mp
        (List.mem_filter.mp ((x.arrange_perm _).mem_iff.mp hk)).2
      subst he
      rw [hs token row] at hrow
      cases hrow
  | update k guard set =>
      simp only [Stmt.exec]
      split
      · split
        · exact h.write_ne hs (fun _ hne => Function.update_of_ne hne ..)
            fun _ hne => Function.update_of_ne hne ..
        · exact h.write_ne hs (fun _ _ => rfl) fun _ hne => Function.update_of_ne hne ..
      · exact h.write_ne hs (fun _ _ => rfl) fun _ hne => Function.update_of_ne hne ..
  | assign k set =>
      simp only [Stmt.exec]
      split
      · exact h.write_ne hs (fun _ hne => Function.update_of_ne hne ..)
          fun _ hne => Function.update_of_ne hne ..
      · exact h
  | create k row =>
      simp only [Stmt.exec]
      split
      · exact h
      · next hv =>
          by_cases hk : ∃ token, k = Key.balance X token
          · obtain ⟨token, rfl⟩ := hk
            exact h.create (hs rfl) hv rfl rfl
          · exact h.write_ne (fun token he => hk ⟨token, he⟩)
              (fun _ hne => Function.update_of_ne hne ..) fun _ hne => Function.update_of_ne hne ..
  | insert e => exact h.congr (fun _ => rfl) fun _ => rfl
  | call op => cases op
  | expireAll => exact hs.elim
  | commit => exact hs.elim
  | rollback => exact hs.elim

/-! ## Programs -/

/-- The rows and objects at a statement. -/
def AsStored (X : Id) (st : Store schema) (σ : Session schema) (_ : Stmt schema) (_ : Input schema) :
    Prop := st.db.Kept (NoPayer X) ∧ σ.Kept (NoPayer X)

/-- A commit takes nothing off the balances of `X`. -/
def TakesNone (X : Id) (st : Store schema) (σ : Session schema) : Stmt schema → Input schema → Prop
  | .commit, _ => ∀ token,
      (balanceOf st.db X token).available ≤ (balanceOf (st.db.apply σ) X token).available
  | _, _ => True

variable {X : Id} {σ : Session schema}

/-- The session takes nothing off the balances of `X`, neither when it returns nor when it raises. -/
abbrev Gains {α : Type} (X : Id) (p : Program α) (σ : Session schema) : Prop :=
  p.ensures (AsStored X) (TakesNone X) (fun _ => OnlyGains X) (fun _ => OnlyGains X) σ

theorem OnlyGains.commit {st : Store schema} {x : Input schema} (h : OnlyGains X σ)
    (hfit : σ.Fit st) : TakesNone X st σ .commit x := by
  intro token
  show _ ≤ ((σ.view st.db (Key.balance X token)).getD ({} : AgentBalance)).available
  cases hh : σ.held (Key.balance X token) with
  | none =>
      rw [Session.view_of_not_held hh]
      exact le_rfl
  | some hd =>
      obtain ⟨row, hown, -, hle⟩ := h.held token hd hh
      rw [Session.view_of_held hh, hown, Option.getD_some]
      have hbase : st.db.rows (Key.balance X token) = hd.base := by
        rw [← Session.base_of_agrees hfit.agrees, Session.base, hh]
      rw [balanceOf, hbase]
      exact hle

/-- Statements about which there is nothing to say. -/
theorem takesNone_of_sparesBalances {s : Stmt schema} (hs : SparesBalances X s) (st : Store schema)
    (σ : Session schema) (x : Input schema) : TakesNone X st σ s x := by
  cases s with
  | commit => exact hs.elim
  | _ => trivial

theorem gains_of_shape {α : Type} {p : Program α} {Q : α → Prop} {E : Exn → Prop}
    (hp : p.shape (SparesBalances X) Q E) (hσ : OnlyGains X σ) :
    p.ensures (AsStored X) (TakesNone X) (fun a σ => Q a ∧ OnlyGains X σ) (fun _ => OnlyGains X) σ :=
  ensures_keep (fun st _ _ x hs h _ _ => ⟨takesNone_of_sparesBalances hs st _ x, hs.exec x st h⟩) hp hσ

theorem gains_of_only {α : Type} {p : Program α} (hp : p.only (SparesBalances X)) (hσ : OnlyGains X σ) :
    Gains X p σ :=
  ensures_mono (gains_of_shape (shape_of_only hp) hσ) (fun _ _ h => h.2) fun _ _ h => h

/-- A query for rows of another table. -/
theorem gains_query {p : (k : Key) → Row k → Bool}
    (hp : ∀ token row, p (Key.balance X token) row = false) (hσ : OnlyGains X σ) :
    Gains X (query (S := schema) p) σ := by
  refine ensures_query (K := fun k => ∀ token, k ≠ Key.balance X token) ?_ ?_ ?_ hσ
  · intro k row hrow token he
    subst he
    rw [hp token row] at hrow
    cases hrow
  · exact fun st σ x l hl h => ⟨trivial, h.loadAll hl⟩
  · exact fun st σ x k hk h => ⟨trivial, h.load_ne hk⟩

/-! ### Balances -/

theorem balance_ne {agent_id : Id} (h : agent_id ≠ X) (token : Token) :
    ∀ token', Key.balance agent_id token ≠ Key.balance X token' := by
  intro token' he
  exact h (Key.balance.inj he).1

/-- The balance of somebody else. -/
theorem allows_spares {agent_id : Id} (h : agent_id ≠ X) (token : Token) :
    Allows (SparesBalances X) agent_id token :=
  ⟨trivial, fun he => absurd he h, fun _ => balance_ne h token⟩

/-- The session holds the balance of `X`, and the object that it has loaded is the row. -/
def Locked (X : Id) (token : Token) (balance : AgentBalance) (σ : Session schema) : Prop :=
  OnlyGains X σ ∧ ∃ base, σ.held (Key.balance X token) = some ⟨base, some balance⟩

/-- What a locking read returns is the row. -/
theorem lock_ensures {token : Token} (hσ : OnlyGains X σ) :
    (selectForUpdate (S := schema) (Key.balance X token)).ensures (AsStored X) (TakesNone X)
      (fun balance σ => OnlyGains X σ ∧ ∀ b, balance = some b → Locked X token b σ)
      (fun _ => OnlyGains X) σ := by
  intro st x _ _
  obtain ⟨hlock, hobject⟩ := hσ.lock st token
  exact ⟨trivial, hlock, fun b hb => ⟨hlock, hobject b hb⟩⟩

theorem create_ensures {token : Token} (hσ : OnlyGains X σ) :
    (create (S := schema) (Key.balance X token) ({} : AgentBalance)).ensures (AsStored X) (TakesNone X)
      (fun inserted σ => OnlyGains X σ ∧ (inserted = true → Locked X token {} σ))
      (fun _ => OnlyGains X) σ := by
  intro st x _ _
  have hspares : SparesBalances X (.create (Key.balance X token) ({} : AgentBalance)) := fun _ => le_refl 0
  have hkeep := hspares.exec x st hσ
  refine ⟨trivial, hkeep, fun hinserted => ⟨hkeep, ?_⟩⟩
  simp only [Stmt.exec] at hinserted ⊢
  split at hinserted
  · cases hinserted
  · exact ⟨_, Session.write_held_self (S := schema) σ st.db (Key.balance X token) _⟩

theorem getForUpdate_ensures {token : Token} (hσ : OnlyGains X σ) :
    (getForUpdate X token).ensures (AsStored X) (TakesNone X) (fun balance => Locked X token balance)
      (fun _ => OnlyGains X) σ := by
  refine ensures_seq (lock_ensures hσ) fun balance σ₁ h₁ => ?_
  cases balance with
  | some balance => exact h₁.2 balance rfl
  | none =>
      refine ensures_seq (create_ensures h₁.1) fun inserted σ₂ h₂ => ?_
      cases inserted with
      | true => exact h₂.2 rfl
      | false =>
          -- somebody else has created the row
          refine ensures_seq (lock_ensures h₂.1) fun balance σ₃ h₃ => ?_
          cases balance with
          | some balance => exact h₃.2 balance rfl
          | none => exact h₃.1

/-- A credit gives `X` something, or somebody else. -/
theorem credit_gains (agent_id : Id) {amount : ℚ} (hamount : 0 ≤ amount) (token : Token) (ref : Ref)
    (hσ : OnlyGains X σ) : Gains X (credit .rounding agent_id amount token ref) σ := by
  by_cases hagent : agent_id = X
  · subst hagent
    refine ensures_seq (getForUpdate_ensures hσ) fun balance σ₁ h₁ => ?_
    obtain ⟨hgains, base, hheld⟩ := h₁
    refine ensures_bind (ensures_bind fun st x hfit hok => ⟨trivial, ?_⟩)
    -- the row that is written is the one that was read, and the amount
    have hmem : balance.available ∈ decimals 12 := hok.2.own _ _ _ hheld rfl
    have hview : σ₁.view st.db (Key.balance agent_id token) = some balance :=
      Session.view_of_held hheld st.db
    obtain ⟨row, hown, hloaded, hle⟩ := hgains.held token _ hheld
    obtain rfl : balance = row := Option.some.inj hown
    have hmore : balance.available ≤ numeric 12 (balance.available + amount) := by
      calc balance.available = numeric 12 balance.available := (numeric_of_mem hmem).symm
        _ ≤ numeric 12 (balance.available + amount) := numeric_monotone 12 (by linarith)
    have hset : OnlyGains agent_id (Stmt.exec (.assign (Key.balance agent_id token)
        fun row : AgentBalance =>
          { row with available := Columns.rounding 12 (balance.available + amount) }) x st σ₁).2.2 := by
      simp only [Stmt.exec, hview]
      refine hgains.set rfl ?_ ?_
      · show Function.update σ₁.loaded (Key.balance agent_id token)
          ((σ₁.loaded (Key.balance agent_id token)).map _) = _
        rw [hloaded]
        rfl
      · rw [Session.base, hheld]
        exact hle.trans hmore
    intro st x _ _
    exact ⟨trivial, hset.congr (fun _ => rfl) fun _ => rfl⟩
  · exact gains_of_only (credit_only (allows_spares hagent token) trivial) hσ

/-! ### Channels -/

theorem getAsParticipant_spares (channel_id agent_id : Id) :
    (getAsParticipant channel_id agent_id).only (SparesBalances X) := by
  refine only_bind (only_stmt nofun) fun channel => only_bind only_orRaise fun channel => ?_
  exact only_bind only_raiseIf fun _ => trivial

theorem refetchChannel_spares (channel_id : Id) : (refetchChannel channel_id).only (SparesBalances X) :=
  only_bind (only_stmt nofun) fun _ => only_orRaise

theorem submitUpdate_gains (channel_id agent_id : Id) (nonce : ℤ) (balance_a balance_b : ℚ)
    (signature_a signature_b : String) (hσ : OnlyGains X σ) :
    Gains X (ChannelService.submitUpdate .rounding channel_id agent_id nonce balance_a balance_b
      signature_a signature_b) σ := by
  refine ensures_seq (gains_of_only (getAsParticipant_spares ..) hσ) fun channel σ₁ h₁ => ?_
  have hlatest : Gains X (ChannelRepository.getLatestUpdate channel_id) σ₁ :=
    ensures_seq (gains_query (fun _ _ => rfl) h₁) fun _ _ h => h
  refine ensures_seq hlatest fun latest σ₂ h₂ => gains_of_only ?_ h₂
  refine only_bind only_raiseIf fun _ => only_bind only_raiseIf fun _ => only_bind ?_ fun row => ?_
  · exact only_bind (only_stmt trivial) fun inserted => only_bind only_raiseIf fun _ => trivial
  · exact only_bind (only_stmt trivial) fun _ => trivial

theorem close_gains (channel_id agent_id : Id) (hσ : OnlyGains X σ) :
    Gains X (ChannelService.close .rounding channel_id agent_id) σ := by
  refine ensures_seq (gains_of_only (getAsParticipant_spares ..) hσ) fun channel σ₁ h₁ => ?_
  refine ensures_seq (gains_of_only ?_ h₁) fun channel σ₂ h₂ => ?_
  · unfold ChannelService.settleIfDue
    split
    · refine only_bind (only_stmt trivial) fun now => only_bind only_raiseIf fun _ => ?_
      refine only_bind ?_ fun _ => refetchChannel_spares channel_id
      exact only_bind (only_stmt trivial) fun now => only_stmt nofun
    · trivial
  refine ensures_seq (gains_of_only only_raiseIf h₂) fun _ σ₃ h₃ => ?_
  -- the two balances are paid out
  refine ensures_seq (ensures_onlyIf (fun ha => credit_gains _ ha.le _ _ h₃) h₃) fun _ σ₄ h₄ => ?_
  refine ensures_seq (ensures_onlyIf (fun hb => credit_gains _ hb.le _ _ h₄) h₄) fun _ σ₅ h₅ => ?_
  refine gains_of_only (only_bind ?_ fun rows => only_bind only_raiseIf fun _ => ?_) h₅
  · exact only_bind (only_stmt trivial) fun now => only_stmt nofun
  · exact only_bind (only_stmt trivial) fun _ => refetchChannel_spares channel_id

/-! ### Split payments -/

theorem resolve_gains (from_agent_id : Id) (recipients : List SplitRecipient) (hσ : OnlyGains X σ) :
    Gains X (SplitPaymentService.resolve from_agent_id recipients) σ := by
  induction recipients generalizing σ with
  | nil => exact hσ
  | cons entry recipients ih =>
      have hagent : Gains X (AgentRepository.getByName entry.agent_name) σ :=
        ensures_seq (gains_query (fun _ _ => rfl) hσ) fun _ _ h => h
      refine ensures_seq hagent fun agent σ₁ h₁ => ?_
      refine ensures_seq (gains_of_only only_orRaise h₁) fun agent σ₂ h₂ => ?_
      refine ensures_seq (gains_of_only only_raiseIf h₂) fun _ σ₃ h₃ => ?_
      exact ensures_seq (ih h₃) fun _ _ h => h

theorem paySplit_gains {from_agent_id : Id} (hfrom : from_agent_id ≠ X)
    (recipients : List SplitRecipient) (currency : Token) (memo : Option String)
    (hσ : OnlyGains X σ) :
    Gains X (SplitPaymentService.paySplit .rounding from_agent_id recipients currency memo) σ := by
  refine ensures_seq (gains_of_only only_raiseIf hσ) fun _ σ₁ h₁ => ?_
  refine ensures_seq (resolve_gains from_agent_id recipients h₁) fun resolved σ₂ h₂ => ?_
  refine ensures_seq (gains_of_only (deduct_only (allows_spares hfrom currency) trivial) h₂)
    fun _ σ₃ h₃ => ?_
  refine ensures_forEach resolved (fun entry _ σ h => ?_) h₃
  refine ensures_seq (credit_gains entry.1 entry.2.amount_pos.le currency _ h) fun _ σ₄ h₄ => ?_
  refine gains_of_only (only_bind (only_stmt trivial) fun inserted => ?_) h₄
  exact only_bind only_raiseIf fun _ => only_bind (only_stmt trivial) fun _ => only_raiseIf

/-! ### Sweeps -/

/-- Nothing is taken off `X` for the payment, and something is paid. -/
def Foreign (X : Id) (payment : Id × RecurringPayment) : Prop :=
  payment.2.from_agent_id ≠ X ∧ 0 < payment.2.amount

/-- The fee is not more than the payment. -/
theorem fee_le {amount : ℚ} (h : 0 < amount) : 0 ≤ amount - quantize 8 (amount * recurringFeeRate) := by
  have hpos : 0 ≤ amount * recurringFeeRate * 10 ^ 8 := by
    unfold recurringFeeRate
    positivity
  have hround := roundHalfEven_le hpos
  have hle : quantize 8 (amount * recurringFeeRate) ≤ 3 * (amount * recurringFeeRate) := by
    rw [quantize, div_le_iff₀ (by positivity)]
    linarith
  unfold recurringFeeRate at hle ⊢
  linarith

theorem executePayment_gains {payment : Id × RecurringPayment} (hpayment : Foreign X payment)
    (hσ : OnlyGains X σ) :
    Gains X (SubscriptionService.executePayment .rounding payment.1 payment.2) σ := by
  have hallows := allows_spares hpayment.1 .XMR
  unfold SubscriptionService.executePayment
  split
  · exact hσ
  have havailable := BalanceRepository.getAvailable_only hallows (balance_ne hpayment.1 .XMR)
  refine ensures_seq (gains_of_only havailable hσ) fun available σ₁ h₁ => ?_
  split
  · exact h₁
  refine ensures_seq (gains_of_only (deduct_only hallows trivial) h₁) fun _ σ₂ h₂ => ?_
  refine ensures_seq (credit_gains _ (fee_le hpayment.2) .XMR _ h₂) fun _ σ₃ h₃ => gains_of_only ?_ h₃
  refine only_bind (only_stmt trivial) fun now => only_bind ?_ fun _ => ?_
  · refine only_bind (only_stmt trivial) fun now => only_bind (only_stmt nofun) fun payment => ?_
    cases payment with
    | none => trivial
    | some payment => exact only_stmt nofun
  · refine only_bind (only_stmt nofun) fun object => only_bind (only_onlyIf ?_) fun _ => trivial
    exact only_bind (only_stmt trivial) fun now => only_stmt nofun

/-- A payment that is due is not one of `X`. -/
theorem lockDue_gains (now : Time) (ks : List Key) (hσ : OnlyGains X σ) :
    (SubscriptionRepository.lockDue now ks).ensures (AsStored X) (TakesNone X)
      (fun rows σ => (∀ p ∈ rows, Foreign X p) ∧ OnlyGains X σ) (fun _ => OnlyGains X) σ := by
  induction ks generalizing σ with
  | nil =>
      refine ⟨?_, hσ⟩
      intro p hp
      cases hp
  | cons k ks ih =>
      cases k with
      | recurring id =>
          refine ensures_seq (gains_of_only (only_stmt trivial) hσ) fun skip σ₁ h₁ => ?_
          split
          · exact ih h₁
          refine ensures_bind fun st x _ hok => ⟨trivial, ?_⟩
          have hspares : SparesBalances X (.selectForUpdate (Key.recurring id)) := trivial
          refine ensures_seq (ih (hspares.exec x st h₁)) fun rows σ₂ h₂ => ⟨fun p hp => ?_, h₂.2⟩
          rcases List.mem_append.mp hp with hfound | hrest
          · simp only [Option.mem_toList, Option.map_eq_some_iff] at hfound
            obtain ⟨row, hrow, rfl⟩ := hfound
            obtain ⟨hrow, hdue⟩ := Option.filter_eq_some_iff.mp hrow
            obtain ⟨hpos, hactive⟩ := Session.Kept.object hok.2 hok.1 hrow
            refine ⟨fun hfrom => ?_, hpos⟩
            simp [RecurringPaymentRepository.due, hactive hfrom] at hdue
          · exact h₂.1 p hrest
      | _ => exact ih hσ

theorem executeDuePayments_gains :
    Gains X (SubscriptionService.executeDuePayments .rounding) Session.start := by
  have hdue : SubscriptionRepository.getDuePaymentsForUpdate.ensures (AsStored X) (TakesNone X)
      (fun rows σ => (∀ p ∈ rows, Foreign X p) ∧ OnlyGains X σ) (fun _ => OnlyGains X)
      Session.start := by
    refine ensures_bind fun st x _ _ => ⟨trivial, ?_⟩
    refine ensures_bind fun st' x' _ _ => ⟨trivial, ?_⟩
    -- the objects are forgotten, and nothing is locked yet
    refine ensures_bind fun st'' x'' _ _ => ⟨trivial, ?_⟩
    exact lockDue_gains _ _ OnlyGains.start
  refine ensures_seq hdue fun due σ h => ensures_tally due (fun p hp σ' h' => ?_) h.2
  exact executePayment_gains (h.1 p hp) h'

/-! ## What every statement stores -/

/-- What the statement writes is as the columns and constraints ask, and it is no commit. -/
def Stores (X : Id) (s : Stmt schema) : Prop := s.keeps (NoPayer X) ∧ s.NotCommit

theorem getForUpdate_stores (agent_id : Id) (token : Token) :
    (getForUpdate agent_id token).only (Stores X) :=
  getForUpdate_only_of ⟨trivial, trivial⟩ ⟨AddSubgroup.zero_mem _, trivial⟩

theorem credit_stores (agent_id : Id) (amount : ℚ) (token : Token) (ref : Ref) :
    (credit .rounding agent_id amount token ref).only (Stores X) := by
  refine only_bind (getForUpdate_stores agent_id token) fun balance => ?_
  refine only_bind (only_bind ?_ fun _ => only_stmt ⟨trivial, trivial⟩) fun _ => trivial
  exact only_stmt ⟨fun row _ => numeric_mem 12 _, trivial⟩

theorem deduct_stores (agent_id : Id) (amount : ℚ) (token : Token) (ref : Ref) :
    (deduct .rounding agent_id amount token ref).only (Stores X) := by
  refine only_bind (getForUpdate_stores agent_id token) fun balance => only_bind only_raiseIf fun _ => ?_
  refine only_bind (only_bind ?_ fun _ => only_stmt ⟨trivial, trivial⟩) fun _ => trivial
  exact only_stmt ⟨fun row _ => numeric_mem 12 _, trivial⟩

theorem getAvailable_stores (agent_id : Id) (token : Token) :
    (getAvailable agent_id token).only (Stores X) := by
  refine only_bind (only_bind (only_stmt ⟨trivial, trivial⟩) fun balance => ?_) fun _ => trivial
  cases balance with
  | some balance => trivial
  | none =>
      refine only_bind (only_stmt ⟨AddSubgroup.zero_mem _, trivial⟩) fun inserted => ?_
      cases inserted with
      | true => trivial
      | false => exact only_bind (only_stmt ⟨trivial, trivial⟩) fun balance => only_orRaise

theorem getAsParticipant_stores (channel_id agent_id : Id) :
    (getAsParticipant channel_id agent_id).only (Stores X) := by
  refine only_bind (only_stmt ⟨trivial, trivial⟩) fun channel => only_bind only_orRaise fun channel => ?_
  exact only_bind only_raiseIf fun _ => trivial

theorem refetchChannel_stores (channel_id : Id) :
    (refetchChannel channel_id).only (Stores X) :=
  only_bind (only_stmt ⟨trivial, trivial⟩) fun _ => only_orRaise

theorem recordChannelFee_stores (channel_id : Id) (token : Token) (fee_amount : ℚ) :
    (recordChannelFee .rounding channel_id token fee_amount).only (Stores X) :=
  only_onlyIf (only_stmt ⟨trivial, trivial⟩)

theorem openChannel_stores (channel_id agent_a_id agent_b_id : Id) (deposit_a deposit_b : ℚ)
    (settlement_period : ℤ) :
    (ChannelService.openChannel .rounding channel_id agent_a_id agent_b_id deposit_a deposit_b
      settlement_period).only (Stores X) := by
  refine only_bind only_raiseIf fun _ => only_bind only_raiseIf fun _ => ?_
  refine only_bind (only_onlyIf (deduct_stores ..)) fun _ => ?_
  refine only_bind (only_onlyIf (deduct_stores ..)) fun _ => ?_
  refine only_bind (only_stmt ⟨trivial, trivial⟩) fun inserted => only_bind only_raiseIf fun _ => trivial

theorem submitUpdate_stores (channel_id agent_id : Id) (nonce : ℤ) (balance_a balance_b : ℚ)
    (signature_a signature_b : String) :
    (ChannelService.submitUpdate .rounding channel_id agent_id nonce balance_a balance_b signature_a
      signature_b).only (Stores X) := by
  refine only_bind (getAsParticipant_stores ..) fun channel => only_bind ?_ fun latest => ?_
  · exact only_bind (only_query ⟨trivial, trivial⟩ fun _ => ⟨trivial, trivial⟩) fun _ => trivial
  · refine only_bind only_raiseIf fun _ => only_bind only_raiseIf fun _ => only_bind ?_ fun row => ?_
    · exact only_bind (only_stmt ⟨trivial, trivial⟩) fun inserted => only_bind only_raiseIf fun _ => trivial
    · exact only_bind (only_stmt ⟨trivial, trivial⟩) fun _ => trivial

theorem settle_stores (channel_id agent_id : Id) (nonce : ℤ) (balance_a balance_b : ℚ)
    (sig_a sig_b : String) :
    (ChannelService.settle .rounding channel_id agent_id nonce balance_a balance_b sig_a sig_b).only
      (Stores X) := by
  refine only_bind only_raiseIf fun _ => only_bind (getAsParticipant_stores ..) fun channel => ?_
  refine only_bind only_raiseIf fun _ => only_bind ?_ fun rows => only_bind only_raiseIf fun _ => ?_
  · refine only_bind (only_stmt ⟨trivial, trivial⟩) fun channel => ?_
    refine only_bind (only_stmt ⟨trivial, trivial⟩) fun now => ?_
    exact only_stmt ⟨fun row _ _ => trivial, trivial⟩
  · refine only_bind (only_stmt ⟨trivial, trivial⟩) fun _ => ?_
    refine only_bind (recordChannelFee_stores ..) fun _ => ?_
    exact only_bind (refetchChannel_stores channel_id) fun _ => trivial

theorem dispute_stores (channel_id agent_id : Id) (nonce : ℤ) (balance_a balance_b : ℚ)
    (sig_a sig_b : String) :
    (ChannelService.dispute .rounding channel_id agent_id nonce balance_a balance_b sig_a sig_b).only
      (Stores X) := by
  refine only_bind (getAsParticipant_stores ..) fun channel => only_bind only_raiseIf fun _ => ?_
  refine only_bind only_raiseIf fun _ => ?_
  refine only_bind (only_stmt ⟨fun row _ _ => trivial, trivial⟩) fun rows => ?_
  refine only_bind only_raiseIf fun _ => only_bind (only_stmt ⟨trivial, trivial⟩) fun time => ?_
  exact only_bind (only_stmt ⟨trivial, trivial⟩) fun _ => refetchChannel_stores channel_id

theorem close_stores (channel_id agent_id : Id) :
    (ChannelService.close .rounding channel_id agent_id).only (Stores X) := by
  refine only_bind (getAsParticipant_stores ..) fun channel => only_bind ?_ fun channel => ?_
  · unfold ChannelService.settleIfDue
    split
    · refine only_bind (only_stmt ⟨trivial, trivial⟩) fun now => only_bind only_raiseIf fun _ => ?_
      refine only_bind ?_ fun _ => refetchChannel_stores channel_id
      exact only_bind (only_stmt ⟨trivial, trivial⟩) fun now => only_stmt ⟨fun row _ _ => trivial, trivial⟩
    · trivial
  refine only_bind only_raiseIf fun _ => only_bind (only_onlyIf (credit_stores ..)) fun _ => ?_
  refine only_bind (only_onlyIf (credit_stores ..)) fun _ => only_bind ?_ fun rows => ?_
  · exact only_bind (only_stmt ⟨trivial, trivial⟩) fun now => only_stmt ⟨fun row _ _ => trivial, trivial⟩
  refine only_bind only_raiseIf fun _ => only_bind (only_stmt ⟨trivial, trivial⟩) fun _ => ?_
  exact refetchChannel_stores channel_id

theorem paySplit_stores (from_agent_id : Id) (recipients : List SplitRecipient) (currency : Token)
    (memo : Option String) :
    (SplitPaymentService.paySplit .rounding from_agent_id recipients currency memo).only
      (Stores X) := by
  have hresolve : ∀ recipients : List SplitRecipient,
      (SplitPaymentService.resolve from_agent_id recipients).only (Stores X) := by
    intro recipients
    induction recipients with
    | nil => trivial
    | cons entry recipients ih =>
        refine only_bind (only_bind ?_ fun _ => trivial) fun _ => ?_
        · exact only_query ⟨trivial, trivial⟩ fun _ => ⟨trivial, trivial⟩
        refine only_bind only_orRaise fun agent => only_bind only_raiseIf fun _ => ?_
        exact only_bind ih fun _ => trivial
  refine only_bind only_raiseIf fun _ => only_bind (hresolve recipients) fun resolved => ?_
  refine only_bind (deduct_stores ..) fun _ => only_forEach resolved fun entry => ?_
  refine only_bind (credit_stores ..) fun _ => only_bind (only_stmt ⟨trivial, trivial⟩) fun inserted => ?_
  exact only_bind only_raiseIf fun _ => only_bind (only_stmt ⟨trivial, trivial⟩) fun _ => only_raiseIf

theorem executePayment_stores (payment_id : Id) (payment : RecurringPayment) :
    (SubscriptionService.executePayment .rounding payment_id payment).only
      (Stores X) := by
  unfold SubscriptionService.executePayment
  split
  · trivial
  refine only_bind (getAvailable_stores ..) fun available => ?_
  split
  · trivial
  refine only_bind (deduct_stores ..) fun _ => only_bind (credit_stores ..) fun _ => ?_
  refine only_bind (only_stmt ⟨trivial, trivial⟩) fun now => only_bind ?_ fun _ => ?_
  · refine only_bind (only_stmt ⟨trivial, trivial⟩) fun now => ?_
    refine only_bind (only_stmt ⟨trivial, trivial⟩) fun payment => ?_
    cases payment with
    | none => trivial
    | some payment => exact only_stmt ⟨fun row h _ => h, trivial⟩
  · refine only_bind (only_stmt ⟨trivial, trivial⟩) fun object => ?_
    refine only_bind (only_onlyIf ?_) fun _ => trivial
    -- a payment that is cancelled is not active
    refine only_bind (only_stmt ⟨trivial, trivial⟩) fun now => ?_
    exact only_stmt ⟨fun row h _ => ⟨h.1, fun _ => rfl⟩, trivial⟩

theorem executeDuePayments_stores :
    (SubscriptionService.executeDuePayments .rounding).only (Stores X) := by
  refine only_bind ?_ fun due => only_tally due fun p => executePayment_stores ..
  refine only_bind (only_stmt ⟨trivial, trivial⟩) fun now => ?_
  refine only_bind (only_stmt ⟨trivial, trivial⟩) fun ks => ?_
  refine only_bind (only_stmt ⟨trivial, trivial⟩) fun _ => ?_
  exact SubscriptionRepository.lockDue_only ⟨trivial, trivial⟩ (fun _ => ⟨trivial, trivial⟩) now ks

theorem autoSettleExpired_stores : ChannelService.autoSettleExpired.only (Stores X) := by
  refine only_bind (only_bind (only_stmt ⟨trivial, trivial⟩) fun now => ?_) fun ready => ?_
  · refine only_bind (only_query ⟨trivial, trivial⟩ fun _ => ⟨trivial, trivial⟩) fun _ => trivial
  · refine only_tally ready fun id => only_bind (only_stmt ⟨trivial, trivial⟩) fun now => ?_
    exact only_stmt ⟨fun row _ _ => trivial, trivial⟩

theorem ChannelCall.body_stores (call : ChannelCall) : (call.body .rounding).only (Stores X) := by
  cases call with
  | openChannel => exact only_bind (openChannel_stores ..) fun _ => trivial
  | submitUpdate => exact only_bind (submitUpdate_stores ..) fun _ => trivial
  | settle => exact only_bind (settle_stores ..) fun _ => trivial
  | close => exact only_bind (close_stores ..) fun _ => trivial
  | dispute => exact only_bind (dispute_stores ..) fun _ => trivial
  | autoSettleExpired => exact only_bind autoSettleExpired_stores fun _ => trivial

theorem ChannelCall.sideCalls_stores (call : ChannelCall) : call.sideCalls.only (Stores X) := by
  cases call with
  | close => exact only_bind (only_stmt ⟨trivial, trivial⟩) fun _ => only_raiseIf
  | _ => trivial

theorem SpendingCall.run_keeps (call : SpendingCall) :
    (call.run .rounding).only (Stmt.keeps (NoPayer X)) := by
  have hsession : ∀ {p : Program Unit}, p.only (Stores X) →
      (withSession p).only (Stmt.keeps (NoPayer X)) :=
    fun hp => only_withSession trivial trivial (only_mono hp fun _ h => h.1)
  cases call with
  | channel call => exact hsession (only_bind call.body_stores fun _ => call.sideCalls_stores)
  | paySplit => exact hsession (paySplit_stores ..)
  | executeDuePayments => exact hsession (only_bind executeDuePayments_stores fun _ => trivial)

/-! ## Calls -/

theorem takesNone_of_notCommit {st : Store schema} {σ : Session schema} {s : Stmt schema}
    {x : Input schema} (h : s.NotCommit) : TakesNone X st σ s x := by
  cases s with
  | commit => exact h.elim
  | _ => trivial

theorem autoSettleExpired_gains (hσ : OnlyGains X σ) :
    Gains X ChannelService.autoSettleExpired σ := by
  have hready : Gains X ChannelRepository.getChannelsReadyToSettle σ := by
    refine ensures_bind fun st x _ _ => ⟨trivial, ?_⟩
    exact ensures_seq (gains_query (fun _ _ => rfl) hσ) fun _ _ h => h
  refine ensures_seq hready fun ready σ₁ h₁ => gains_of_only ?_ h₁
  exact only_tally ready fun id => only_bind (only_stmt trivial) fun now => only_stmt nofun

/-- What a session ensures that returns with gains. -/
theorem ensures_of_gains {p : Program Unit} (hp : Gains X p Session.start) :
    Config.Ensures (AsStored X) (TakesNone X) (withSession p) Session.start := by
  have hcommit : ∀ st σ x, OnlyGains X σ → σ.Fit st → AsStored X st σ .commit x →
      TakesNone X st σ .commit x := fun _ _ _ h hfit _ => h.commit hfit
  refine ensures_withSession hcommit (fun _ _ _ => trivial) ?_
  exact ensures_mono hp (fun _ _ h => h) fun _ _ _ => trivial

/-- A call that ends in `audit_log(…, new_values=…)` never comes to its commit. -/
theorem ChannelCall.runAudited_fails {call : ChannelCall} (hside : call.sideCalls = auditNewValues) :
    (call.runAudited .rounding).fails fun _ => True := by
  have hbody : (call.body .rounding).only Stmt.NotCommit :=
    only_mono (call.body_stores (X := 0)) fun _ hs => hs.2
  refine fails_withSession (shape_seq (shape_of_only hbody) fun _ => ?_)
  rw [hside]
  trivial

theorem ChannelCall.runAudited_ensures (call : ChannelCall) :
    Config.Ensures (AsStored X) (TakesNone X) (call.runAudited .rounding) Session.start := by
  have hundone : call.sideCalls = auditNewValues →
      Config.Ensures (AsStored X) (TakesNone X) (call.runAudited .rounding) Session.start :=
    fun hside => ensures_of_fails (fun _ _ _ _ => takesNone_of_notCommit) (runAudited_fails hside)
  cases call with
  | openChannel => exact hundone rfl
  | settle => exact hundone rfl
  | dispute => exact hundone rfl
  | submitUpdate =>
      refine ensures_of_gains (ensures_seq ?_ fun _ _ h => h)
      exact ensures_seq (submitUpdate_gains _ _ _ _ _ _ _ .start) fun _ _ h => h
  | close =>
      refine ensures_of_gains (ensures_seq ?_ fun _ σ h => gains_of_only ?_ h)
      · exact ensures_seq (close_gains _ _ .start) fun _ _ h => h
      · exact only_bind (only_stmt trivial) fun _ => only_raiseIf
  | autoSettleExpired =>
      refine ensures_of_gains (ensures_seq ?_ fun _ _ h => h)
      exact ensures_seq (autoSettleExpired_gains .start) fun _ _ h => h

/-- What each call ensures, when its caller is not `X`. -/
theorem SpendingCall.run_ensures {call : SpendingCall} (hcaller : call.caller ≠ some X) :
    Config.Ensures (AsStored X) (TakesNone X) (call.run .rounding) Session.start := by
  cases call with
  | channel call => exact call.runAudited_ensures
  | paySplit agent_id recipients currency memo =>
      exact ensures_of_gains (paySplit_gains (fun he => hcaller (congrArg some he)) _ _ _ .start)
  | executeDuePayments =>
      exact ensures_of_gains (ensures_seq executeDuePayments_gains fun _ _ h => h)

/-- The step lemma: no statement of any session takes anything off a balance of `X`. -/
theorem available_le_exec {c c' : Config schema Unit} {i : ℕ} {x : Input schema} {s : Stmt schema}
    {next : s.Res → Program Unit} (hprog : c.prog i = .step s next) (hx : c.exec i x = some c')
    (h : TakesNone X c.store (c.sess i) s x) (token : Token) :
    (balanceOf c.store.db X token).available ≤ (balanceOf c'.store.db X token).available := by
  rcases Config.store_exec_cases hprog hx with hdb | ⟨rfl, hdb⟩
  · rw [hdb]
  · rw [hdb]
    exact h token

/-- **Nobody spends another agent's balance.** In every run in which `X` sends no request and is not
the payer of an active recurring payment, no balance of `X` ever decreases, from any state of the run
to any later one. -/
theorem nobody_else_spends (X : Id) (calls : ℕ → SpendingCall)
    (hcalls : ∀ i, (calls i).caller ≠ some X) {st : Store schema} (hst : st.db.WF)
    (hstored : st.db.Kept (NoPayer X)) {c c' : Config schema Unit}
    (hc : Config.Reaches (fun _ _ _ _ => True) (Config.start st fun i => (calls i).run .rounding) c)
    (hc' : Config.Reaches (fun _ _ _ _ => True) c c') (token : Token) :
    (balanceOf c.store.db X token).available ≤ (balanceOf c'.store.db X token).available := by
  have hkeeps : ∀ i, ((calls i).run .rounding).only (Stmt.keeps (NoPayer X)) :=
    fun i => (calls i).run_keeps
  induction hc' with
  | refl => exact le_rfl
  | @exec c₁ c₂ i x s next hc₁ hprog _ hx ih =>
      have hreach := (hc.trans hc₁).kept hstored hkeeps
      have hrows := Config.kept hstored hkeeps (hc.trans hc₁)
      refine ih.trans (available_le_exec hprog hx ?_ token)
      exact (hreach.mono fun _ _ _ _ h => h.2).ensured hst (fun i => SpendingCall.run_ensures (hcalls i))
        hprog ⟨hrows.db, hrows.sess i⟩
  | crash i _ ih => exact ih

/-- Agent 1 has ten units, and agent 2 a name. -/
def namedAgent : Store schema where
  db :=
    { rows := fun
        | .agent id => if id = 2 then some { agent_name := "b" } else none
        | .balance id token => if id = 1 ∧ token = .XMR then some { available := 10 } else none
        | _ => none
      keys := [.agent 2, .balance 1 .XMR]
      log := [] }
  ext := default

theorem namedAgent_wf : namedAgent.db.WF := by
  refine ⟨by decide, fun k => ?_⟩
  cases k with
  | agent id => by_cases h : id = 2 <;> simp [namedAgent, h]
  | balance id token => by_cases h : id = 1 ∧ token = .XMR <;> simp [namedAgent, h]
  | _ => simp [namedAgent]

theorem namedAgent_stored : namedAgent.db.Kept (NoPayer 2) := by
  intro k row hrow
  cases k with
  | balance id token =>
      by_cases h : id = 1 ∧ token = .XMR
      · rw [namedAgent] at hrow
        simp only [h, and_self, if_true, Option.some.injEq] at hrow
        subst hrow
        exact mem_decimals.mpr ⟨10 * 10 ^ 12, by norm_num⟩
      · simp [namedAgent, h] at hrow
  | recurring id => simp [namedAgent] at hrow
  | _ => trivial

/-- Agent 1 pays agent 2 three units. -/
def threeUnits : SpendingCall :=
  .paySplit 1 [⟨"b", "hash", 3, by norm_num, by norm_num⟩] .XMR none

theorem nobody_else_spends_split : ∃ c,
    Config.trace (turn 0 12 0) (Config.start namedAgent fun _ => threeUnits.run .rounding) = some c ∧
      (balanceOf c.store.db 2 .XMR).available = 3 ∧
      (balanceOf namedAgent.db 2 .XMR).available ≤ (balanceOf c.store.db 2 .XMR).available := by
  have hrun : (Config.trace (turn 0 12 0) (Config.start namedAgent fun _ =>
      threeUnits.run .rounding)).map (fun c => (balanceOf c.store.db 2 .XMR).available) = some 3 := by
    decide +kernel
  obtain ⟨c, hc, havailable⟩ := Option.map_eq_some_iff.mp hrun
  refine ⟨c, hc, havailable, ?_⟩
  exact nobody_else_spends 2 (fun _ => threeUnits) (fun _ => by decide) namedAgent_wf namedAgent_stored
    .refl (Config.reaches_trace .refl hc) .XMR

end Sthrip
