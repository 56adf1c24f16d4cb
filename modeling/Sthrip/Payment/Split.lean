import Mathlib.Algebra.BigOperators.Group.Finset.Piecewise
import Sthrip.Balance.OwnConsent

set_option autoImplicit false

/-! # What a split payment moves

The sender is charged one exact total, and each recipient is credited on its own: the balance column
rounds the total once and every share again. A split payment moves what it charges exactly when these
roundings add up, which depends on the amounts alone.
-/

namespace Sthrip

open Txn Prog BalanceRepository SplitPaymentService

/-! ## The request and the tables -/

/-- The agent has the name. -/
def Named (db : DB schema) (name : String) (id : Id) : Prop :=
  ∃ agent, db.rows (Key.agent id) = some agent ∧ agent.agent_name = name

/-- The unique constraint on `agent_name`. -/
def UniqueNames (db : DB schema) : Prop :=
  ∀ id id' name, Named db name id → Named db name id' → id = id'

def availableOf (db : DB schema) (currency : Token) (id : Id) : ℚ :=
  (balanceOf db id currency).available

/-- What the sender has to pay. -/
def totalOf (recipients : List SplitRecipient) : ℚ := (recipients.map SplitRecipient.amount).sum

/-- The request is not refused. -/
structure Accepted (db : DB schema) (from_agent_id : Id) (recipients : List SplitRecipient)
    (currency : Token) : Prop where
  nonempty : recipients ≠ []
  named : ∀ r ∈ recipients, ∃ id, Named db r.agent_name id
  others : ∀ r ∈ recipients, ¬Named db r.agent_name from_agent_id
  covered : totalOf recipients ≤ availableOf db currency from_agent_id
  fresh : ∀ r ∈ recipients, db.rows (Key.transaction r.tx_hash) = none
  distinct : (recipients.map SplitRecipient.tx_hash).Nodup

/-- The shares, each rounded on its own, add up to the rounded total. -/
def RoundsTogether (recipients : List SplitRecipient) : Prop :=
  (recipients.map fun r => numeric 12 r.amount).sum = numericDown 12 (totalOf recipients)

/-- The sender loses what the recipients gain, and no other balance changes. -/
structure MovesShares (db db' : DB schema) (from_agent_id : Id) (recipients : List SplitRecipient)
    (currency : Token) : Prop where
  conserved : ∀ ids : Finset Id, (∀ id, id ∈ ids ↔ ∃ r ∈ recipients, Named db r.agent_name id) →
    availableOf db currency from_agent_id - availableOf db' currency from_agent_id =
      ∑ id ∈ ids, (availableOf db' currency id - availableOf db currency id)
  others : ∀ id token, (token = currency → id ≠ from_agent_id ∧
    ∀ r ∈ recipients, ¬Named db r.agent_name id) →
    db'.rows (Key.balance id token) = db.rows (Key.balance id token)

/-! ## Finding the recipients -/

section Alone

variable {Ok : StepCond schema} {R : Exn → Solo schema → Prop} {v : Solo schema} {db₁ : DB schema}
  {from_agent_id : Id} {currency : Token} {memo : Option String}

theorem getByName_always {name : String} {Q : Option (Id × Agent) → Solo schema → Prop}
    (h : ∀ o : Option (Id × Agent), (o = none → ∀ id, ¬Named v.db name id) →
      (∀ x, o = some x → Named v.db name x.1) → Q o v) :
    (AgentRepository.getByName name).always Ok Q R v := by
  refine always_bind (always_query fun rows _ hrows => h _ (fun hnone => ?_) fun x hx => ?_)
  · rintro id ⟨agent, hagent, hname⟩
    have hmem : (⟨Key.agent id, agent⟩ : Σ k : Key, Row k) ∈ rows :=
      (hrows _ _).mpr ⟨hagent, decide_eq_true hname⟩
    have hnil := List.filterMap_eq_nil_iff.mp (List.head?_eq_none_iff.mp hnone) _ hmem
    cases hnil
  · obtain ⟨⟨k, agent⟩, hmem, heq⟩ := List.mem_filterMap.mp (List.mem_of_head? hx)
    obtain ⟨hagent, hname⟩ := (hrows _ _).mp hmem
    cases k with
    | agent id =>
        obtain rfl := Option.some.inj heq
        exact ⟨agent, hagent, of_decide_eq_true hname⟩
    | _ => cases heq

/-- Phase 1 finds each recipient, in order, or raises for one of them. -/
theorem resolveRecipients_always (recipients : List SplitRecipient)
    {Q : List (Id × SplitRecipient) → Solo schema → Prop}
    (hR : ∀ r ∈ recipients, ((∀ id, ¬Named v.db r.agent_name id) ∨
      Named v.db r.agent_name from_agent_id) → ∀ e, R e v)
    (h : ∀ resolved, resolved.map Prod.snd = recipients →
      (∀ e ∈ resolved, Named v.db e.2.agent_name e.1 ∧ e.1 ≠ from_agent_id) → Q resolved v) :
    (resolve from_agent_id recipients).always Ok Q R v := by
  induction recipients generalizing Q with
  | nil => exact h [] rfl fun _ he => absurd he List.not_mem_nil
  | cons entry recipients ih =>
      have hentry := hR entry List.mem_cons_self
      refine always_bind (getByName_always fun o hnone hsome => always_bind (always_orRaise
        (fun ho => hentry (Or.inl (hnone ho)) _) fun agent hagent => ?_))
      have hnamed := hsome agent hagent
      refine always_bind (always_raiseIf (fun hself => hentry (Or.inr (hself ▸ hnamed)) _)
        fun hother => ?_)
      refine always_bind (ih (fun r hr => hR r (List.mem_cons_of_mem entry hr)) ?_)
      intro resolved hmap hresolved
      refine h _ (by rw [List.map_cons, hmap]) fun e he => ?_
      rcases List.mem_cons.mp he with rfl | he
      · exact ⟨hnamed, hother⟩
      · exact hresolved e he

/-! ## Paying them -/

/-- What the entries put on the balance of the agent. -/
def owedTo (entries : List (Id × SplitRecipient)) (id : Id) : ℚ :=
  (entries.map fun e => if e.1 = id then numeric 12 e.2.amount else 0).sum

theorem owedTo_append (entries : List (Id × SplitRecipient)) (e : Id × SplitRecipient)
    (id : Id) : owedTo (entries ++ [e]) id =
      owedTo entries id + if e.1 = id then numeric 12 e.2.amount else 0 := by
  rw [owedTo, List.map_append, List.sum_append, List.map_singleton, List.sum_singleton, owedTo]

/-- Summed over all agents, every share counts once. -/
theorem sum_owedTo (entries : List (Id × SplitRecipient)) (ids : Finset Id)
    (h : ∀ e ∈ entries, e.1 ∈ ids) :
    ∑ id ∈ ids, owedTo entries id = (entries.map fun e => numeric 12 e.2.amount).sum := by
  induction entries with
  | nil => exact Finset.sum_const_zero
  | cons e entries ih =>
      have hcons : ∀ id, owedTo (e :: entries) id =
          (if e.1 = id then numeric 12 e.2.amount else 0) + owedTo entries id := by
        intro id
        rw [owedTo, List.map_cons, List.sum_cons, owedTo]
      simp only [hcons]
      rw [Finset.sum_add_distrib, Finset.sum_ite_eq, if_pos (h e List.mem_cons_self),
        ih fun e' he' => h e' (List.mem_cons_of_mem e he'), List.map_cons, List.sum_cons]

/-- The entries `done` are paid, and nothing else has happened since `db₁`. -/
structure Paying (db₁ : DB schema) (currency : Token) (done : List (Id × SplitRecipient))
    (db : DB schema) : Prop where
  stored : ∀ id, availableOf db currency id ∈ decimals 12 ∧ 0 ≤ availableOf db currency id
  paid : ∀ id, availableOf db currency id = availableOf db₁ currency id + owedTo done id
  others : ∀ id token, (token = currency → ∀ e ∈ done, e.1 ≠ id) →
    db.rows (Key.balance id token) = db₁.rows (Key.balance id token)
  transactions : ∀ q, db.rows (Key.transaction q) = none ↔
    db₁.rows (Key.transaction q) = none ∧ ∀ e ∈ done, e.2.tx_hash ≠ q
  fresh : ∀ e ∈ done, db₁.rows (Key.transaction e.2.tx_hash) = none
  distinct : (done.map fun e => e.2.tx_hash).Nodup

/-- The environment lets no statement fail, when `quiet`. -/
abbrev Quietly (quiet : Prop) : StepCond schema := fun _ _ x => quiet → x.choice = 0

/-- The database after the credit of one share. -/
def credited (db : DB schema) (currency : Token) (id : Id) (amount : ℚ) : DB schema :=
  posted db id currency { balanceOf db id currency with
    available := Columns.rounding 12 ((balanceOf db id currency).available + amount) } amount .other

theorem availableOf_credited {db : DB schema} {id : Id} {amount : ℚ} (id' : Id)
    (hstored : availableOf db currency id ∈ decimals 12) (hpos : 0 ≤ availableOf db currency id)
    (hamount : 0 ≤ amount) : availableOf (credited db currency id amount) currency id' =
      availableOf db currency id' + if id = id' then numeric 12 amount else 0 := by
  by_cases hid : id = id'
  · subst hid
    rw [if_pos rfl, availableOf, credited, balanceOf_posted_self]
    exact numeric_add hstored hpos hamount
  · have hne : Key.balance id' currency ≠ Key.balance id currency := by
      intro hkey
      exact hid (Key.balance.inj hkey).1.symm
    rw [if_neg hid, add_zero, availableOf, balanceOf, credited, posted_rows_ne hne, availableOf,
      balanceOf]

/-- One more entry is paid, with a transaction of its own. -/
theorem Paying.pay {done : List (Id × SplitRecipient)} {db : DB schema}
    (h : Paying db₁ currency done db) (e : Id × SplitRecipient) (tx : Transaction)
    (hnone : db.rows (Key.transaction e.2.tx_hash) = none) :
    Paying db₁ currency (done ++ [e])
      ((credited db currency e.1 e.2.amount).put (Key.transaction e.2.tx_hash) tx) := by
  obtain ⟨hmem, hpos⟩ := h.stored e.1
  obtain ⟨hfresh, hother⟩ := (h.transactions _).mp hnone
  have hbalance : ∀ id, availableOf ((credited db currency e.1 e.2.amount).put
      (Key.transaction e.2.tx_hash) tx) currency id =
        availableOf db currency id + if e.1 = id then numeric 12 e.2.amount else 0 := by
    intro id
    rw [← availableOf_credited id hmem hpos e.2.amount_pos.le, availableOf, balanceOf,
      DB.put_rows_ne _ _ (by simp), availableOf, balanceOf]
  refine ⟨fun id => ?_, fun id => ?_, fun id token hne => ?_, fun q => ?_, fun e' he' => ?_, ?_⟩
  · rw [hbalance]
    obtain ⟨hmem, hpos⟩ := h.stored id
    split
    · exact ⟨add_mem hmem (numeric_mem ..), add_nonneg hpos (numeric_nonneg 12 e.2.amount_pos.le)⟩
    · rw [add_zero]
      exact ⟨hmem, hpos⟩
  · rw [hbalance, h.paid, owedTo_append, add_assoc]
  · have hkey : Key.balance id token ≠ Key.balance e.1 currency := by
      intro hkey
      obtain ⟨rfl, rfl⟩ := Key.balance.inj hkey
      exact hne rfl e (List.mem_append_right _ (List.mem_singleton_self e)) rfl
    rw [DB.put_rows_ne _ _ (by simp), credited, posted_rows_ne hkey]
    exact h.others id token fun ht e' he' => hne ht e' (List.mem_append_left _ he')
  · by_cases hq : e.2.tx_hash = q
    · subst hq
      rw [DB.put_rows_self]
      refine iff_of_false (Option.some_ne_none tx) fun hall => ?_
      exact hall.2 e (List.mem_append_right _ (List.mem_singleton_self e)) rfl
    · have hkey : Key.transaction q ≠ Key.transaction e.2.tx_hash := by simpa using Ne.symm hq
      rw [DB.put_rows_ne _ _ hkey, credited, posted_rows_ne (by simp), h.transactions]
      simp [List.mem_append, or_imp, forall_and, hq]
  · rcases List.mem_append.mp he' with he' | he'
    · exact h.fresh e' he'
    · obtain rfl := List.mem_singleton.mp he'
      exact hfresh
  · rw [List.map_append, List.map_singleton]
    refine List.nodup_append.mpr ⟨h.distinct, List.nodup_singleton _, fun q hq q' hq' => ?_⟩
    obtain rfl := List.mem_singleton.mp hq'
    obtain ⟨e', he', rfl⟩ := List.mem_map.mp hq
    exact hother e' he'

theorem payOne_always {quiet : Prop} {done : List (Id × SplitRecipient)} {e : Id × SplitRecipient}
    (h : Paying db₁ currency done v.db)
    (hR : (quiet → ¬(db₁.rows (Key.transaction e.2.tx_hash) = none ∧
      ∀ e' ∈ done, e'.2.tx_hash ≠ e.2.tx_hash)) → ∀ x v', v'.saved = v.saved → R x v') :
    (payOne .rounding from_agent_id currency memo e).always (Quietly quiet)
      (fun _ v' => Paying db₁ currency (done ++ [e]) v'.db ∧ v'.saved = v.saved) R v := by
  refine always_bind (credit_always fun b hb => ?_)
  subst hb
  have hsame : ∀ q, (credited v.db currency e.1 e.2.amount).rows (Key.transaction q) =
      v.db.rows (Key.transaction q) := fun q => posted_rows_ne (by simp)
  refine always_bind (always_create (fun _ hnone _ => ?_) fun r hr => ?_)
  · -- the transaction is new, but the database may still refuse it
    have hnone : v.db.rows (Key.transaction e.2.tx_hash) = none := (hsame _).symm.trans hnone
    refine always_bind (always_raiseIf (fun hfalse => absurd hfalse (by decide)) fun _ => ?_)
    refine mayFail_always ⟨h.pay e _ hnone, rfl⟩ fun y hy hfails => ?_
    exact hR (fun hquiet => absurd (hy hquiet) hfails) _ _ rfl
  · refine always_bind (always_raiseIf (fun _ => hR (fun _ => ?_) _ _ rfl) fun htrue => absurd rfl htrue)
    rw [← h.transactions, ← hsame, show (credited v.db currency e.1 e.2.amount).rows _ = some r from hr]
    exact Option.some_ne_none r

/-- Phase 3: every recipient is paid, or the session raises. -/
theorem payAll_always {quiet : Prop} {db₀ : DB schema} {done : List (Id × SplitRecipient)}
    (rest : List (Id × SplitRecipient))
    (hfresh : ¬(quiet ∧ (∀ e ∈ done ++ rest, db₁.rows (Key.transaction e.2.tx_hash) = none) ∧
      ((done ++ rest).map fun e => e.2.tx_hash).Nodup) → ∀ x v', v'.saved = db₀ → R x v')
    (h : Paying db₁ currency done v.db) (hsaved : v.saved = db₀) :
    (forEach rest (payOne .rounding from_agent_id currency memo)).always (Quietly quiet)
      (fun _ v' => Paying db₁ currency (done ++ rest) v'.db ∧ v'.saved = db₀) R v := by
  induction rest generalizing done v with
  | nil =>
      rw [List.append_nil]
      exact ⟨h, hsaved⟩
  | cons e rest ih =>
      have happend : done ++ e :: rest = (done ++ [e]) ++ rest := by
        rw [List.append_assoc, List.singleton_append]
      refine always_bind (always_mono (payOne_always h fun hrefused x v' hv' => hfresh ?_ x v'
        (hv'.trans hsaved))
        (fun _ v' h' => ?_) fun _ _ h' => h')
      · rintro ⟨hquiet, hall, hnodup⟩
        refine hrefused hquiet ⟨hall e (List.mem_append_right _ List.mem_cons_self), fun e' he' heq => ?_⟩
        rw [List.map_append, List.nodup_append] at hnodup
        exact hnodup.2.2 _ (List.mem_map_of_mem he') _ (List.mem_map_of_mem List.mem_cons_self) heq
      · rw [happend] at hfresh ⊢
        exact ih hfresh h'.1 (h'.2.trans hsaved)

/-- The database after the total was taken off the sender. -/
def charged (db : DB schema) (currency : Token) (from_agent_id : Id) (total : ℚ) : DB schema :=
  posted db from_agent_id currency { balanceOf db from_agent_id currency with
    available := Columns.rounding 12 ((balanceOf db from_agent_id currency).available - total) }
    (-total) .other

theorem deduct_always_of {Q : AgentBalance → Solo schema → Prop} {id : Id} {total : ℚ}
    (h : total ≤ availableOf v.db currency id → ∀ b, Q b { v with db := charged v.db currency id total })
    (hR : availableOf v.db currency id < total → ∀ x v', v'.saved = v.saved → R x v') :
    (deduct .rounding id total currency .other).always Ok Q R v := by
  refine always_bind (getForUpdate_always fun db' hrow hput => ?_)
  refine always_bind (always_raiseIf (fun hshort => hR hshort _ _ rfl) fun hok => ?_)
  refine always_bind (always_bind (always_assign hrow (always_insert ?_)))
  rw [hput]
  exact h (not_lt.mp hok) _

/-- Before anybody is paid. -/
theorem paying_nil {db : DB schema}
    (hstored : ∀ id, availableOf db currency id ∈ decimals 12 ∧ 0 ≤ availableOf db currency id)
    {total : ℚ} (hcovered : total ≤ availableOf db currency from_agent_id) :
    Paying (charged db currency from_agent_id total) currency []
      (charged db currency from_agent_id total) := by
  refine ⟨fun id => ?_, fun id => ?_, fun _ _ _ => rfl, fun q => by simp, by simp, List.nodup_nil⟩
  · by_cases hid : id = from_agent_id
    · subst hid
      rw [availableOf, charged, balanceOf_posted_self]
      exact ⟨numeric_mem .., numeric_nonneg 12 (sub_nonneg.mpr hcovered)⟩
    · have hne : Key.balance id currency ≠ Key.balance from_agent_id currency := by
        intro hkey
        exact hid (Key.balance.inj hkey).1
      rw [availableOf, balanceOf, charged, posted_rows_ne hne]
      exact hstored id
  · rw [owedTo, List.map_nil, List.sum_nil, add_zero]

/-- The recipients of the resolved entries. -/
theorem mem_resolved {recipients : List SplitRecipient} {resolved : List (Id × SplitRecipient)}
    (hmap : resolved.map Prod.snd = recipients) {r : SplitRecipient} :
    r ∈ recipients ↔ ∃ e ∈ resolved, e.2 = r := by
  rw [← hmap, List.mem_map]

/-- The payment as a whole: what it has moved when it returns, and that it was refused when it raises
although nothing failed. -/
theorem paySplit_always {quiet : Prop} (hnames : UniqueNames v.db)
    (hstored : ∀ id, availableOf v.db currency id ∈ decimals 12 ∧ 0 ≤ availableOf v.db currency id)
    (recipients : List SplitRecipient) :
    (paySplit .rounding from_agent_id recipients currency memo).always (Quietly quiet)
      (fun _ v' => v'.saved = v.saved ∧ Accepted v.db from_agent_id recipients currency ∧
        ∃ resolved : List (Id × SplitRecipient), resolved.map Prod.snd = recipients ∧
          (∀ e ∈ resolved, Named v.db e.2.agent_name e.1 ∧ e.1 ≠ from_agent_id) ∧
          Paying (charged v.db currency from_agent_id (totalOf recipients)) currency resolved v'.db)
      (fun _ v' => v'.saved = v.saved ∧
        (quiet → ¬Accepted v.db from_agent_id recipients currency)) v := by
  refine always_bind (always_raiseIf (fun hempty => ⟨rfl, fun _ hok => ?_⟩) fun hnonempty => ?_)
  · exact hok.nonempty (List.isEmpty_iff.mp hempty)
  refine always_bind (resolveRecipients_always recipients (fun r hr hbad e => ⟨rfl, fun _ hok => ?_⟩)
    fun resolved hmap hresolved => ?_)
  · rcases hbad with hnobody | hself
    · obtain ⟨id, hid⟩ := hok.named r hr
      exact hnobody id hid
    · exact hok.others r hr hself
  have htotal : (resolved.map fun entry => entry.2.amount).sum = totalOf recipients := by
    rw [totalOf, ← hmap, List.map_map]
    rfl
  rw [htotal]
  refine always_bind (deduct_always_of (fun hcovered _ => ?_) fun hshort x v' hv' =>
    ⟨hv', fun _ hok => absurd hok.covered (not_le.mpr hshort)⟩)
  -- the transactions of the charged database are those of the one before
  have htx : ∀ q, (charged v.db currency from_agent_id (totalOf recipients)).rows (Key.transaction q) =
      v.db.rows (Key.transaction q) := fun q => posted_rows_ne (by simp)
  have hhashes : (resolved.map fun e => e.2.tx_hash) = recipients.map SplitRecipient.tx_hash := by
    rw [← hmap, List.map_map]
    rfl
  refine always_mono (payAll_always resolved ?_ (paying_nil hstored hcovered) rfl)
    (fun _ v' ⟨hpaying, hsaved⟩ => ⟨hsaved, ?_, resolved, hmap, hresolved, hpaying⟩) fun _ _ h => h
  rotate_left
  · refine ⟨fun hnil => hnonempty (List.isEmpty_iff.mpr hnil), fun r hr => ?_, fun r hr hself => ?_,
      hcovered, fun r hr => ?_, hhashes ▸ hpaying.distinct⟩
    · obtain ⟨e, he, rfl⟩ := (mem_resolved hmap).mp hr
      exact ⟨e.1, (hresolved e he).1⟩
    · obtain ⟨e, he, rfl⟩ := (mem_resolved hmap).mp hr
      exact (hresolved e he).2 (hnames _ _ _ (hresolved e he).1 hself)
    · obtain ⟨e, he, rfl⟩ := (mem_resolved hmap).mp hr
      rw [← htx]
      exact hpaying.fresh e he
  · intro hbad x v' hv'
    refine ⟨hv', fun hquiet hok => hbad ⟨hquiet, fun e he => ?_, ?_⟩⟩
    · rw [htx]
      exact hok.fresh e.2 ((mem_resolved hmap).mpr ⟨e, he, rfl⟩)
    · rw [List.nil_append, hhashes]
      exact hok.distinct

end Alone

/-! ## What it moves -/

section Moved

variable {db db' : DB schema} {from_agent_id : Id} {recipients : List SplitRecipient} {currency : Token}
  {resolved : List (Id × SplitRecipient)}

/-- Whoever is not among the entries is owed nothing. -/
theorem owedTo_eq_zero {id : Id} (h : ∀ e ∈ resolved, e.1 ≠ id) : owedTo resolved id = 0 := by
  refine List.sum_eq_zero fun y hy => ?_
  obtain ⟨e, he, rfl⟩ := List.mem_map.mp hy
  exact if_neg (h e he)

/-- When the payment is through, it has moved what it charged iff the roundings add up. -/
theorem moves_iff (hnames : UniqueNames db)
    (hstored : ∀ id, availableOf db currency id ∈ decimals 12 ∧ 0 ≤ availableOf db currency id)
    (hok : Accepted db from_agent_id recipients currency) (hmap : resolved.map Prod.snd = recipients)
    (hresolved : ∀ e ∈ resolved, Named db e.2.agent_name e.1 ∧ e.1 ≠ from_agent_id)
    (h : Paying (charged db currency from_agent_id (totalOf recipients)) currency resolved db') :
    MovesShares db db' from_agent_id recipients currency ↔ RoundsTogether recipients := by
  have hother : ∀ id token, (token = currency → id ≠ from_agent_id) →
      Key.balance id token ≠ Key.balance from_agent_id currency := by
    intro id token hne hkey
    obtain ⟨rfl, rfl⟩ := Key.balance.inj hkey
    exact hne rfl rfl
  have hdecrease : availableOf db currency from_agent_id - availableOf db' currency from_agent_id =
      numericDown 12 (totalOf recipients) := by
    rw [h.paid, owedTo_eq_zero fun e he => (hresolved e he).2, add_zero, availableOf, availableOf, charged,
      balanceOf_posted_self]
    exact sub_numeric_sub (hstored from_agent_id).1 hok.covered
  have hincrease : ∀ id, id ≠ from_agent_id →
      availableOf db' currency id - availableOf db currency id = owedTo resolved id := by
    intro id hne
    have hsame : availableOf (charged db currency from_agent_id (totalOf recipients)) currency id =
        availableOf db currency id := by
      rw [availableOf, balanceOf, charged, posted_rows_ne (hother id currency fun _ => hne), availableOf,
        balanceOf]
    rw [h.paid, hsame, add_sub_cancel_left]
  have hmem : ∀ id, (∃ r ∈ recipients, Named db r.agent_name id) ↔ ∃ e ∈ resolved, e.1 = id := by
    intro id
    constructor
    · rintro ⟨r, hr, hnamed⟩
      obtain ⟨e, he, rfl⟩ := (mem_resolved hmap).mp hr
      exact ⟨e, he, hnames _ _ _ (hresolved e he).1 hnamed⟩
    · rintro ⟨e, he, rfl⟩
      exact ⟨e.2, (mem_resolved hmap).mpr ⟨e, he, rfl⟩, (hresolved e he).1⟩
  have hsum : ∀ ids : Finset Id, (∀ id, id ∈ ids ↔ ∃ r ∈ recipients, Named db r.agent_name id) →
      ∑ id ∈ ids, (availableOf db' currency id - availableOf db currency id) =
        (recipients.map fun r => numeric 12 r.amount).sum := by
    intro ids hids
    calc ∑ id ∈ ids, (availableOf db' currency id - availableOf db currency id)
        = ∑ id ∈ ids, owedTo resolved id := by
          refine Finset.sum_congr rfl fun id hid => hincrease id ?_
          rintro rfl
          obtain ⟨r, hr, hself⟩ := (hids id).mp hid
          exact hok.others r hr hself
      _ = (resolved.map fun e => numeric 12 e.2.amount).sum := by
          refine sum_owedTo resolved ids fun e he => ?_
          rw [hids, hmem]
          exact ⟨e, he, rfl⟩
      _ = (recipients.map fun r => numeric 12 r.amount).sum := by
          rw [← hmap, List.map_map]
          rfl
  constructor
  · intro hmoves
    have hids : ∀ id, id ∈ (resolved.map Prod.fst).toFinset ↔
        ∃ r ∈ recipients, Named db r.agent_name id := by
      intro id
      rw [List.mem_toFinset, List.mem_map, hmem]
    rw [RoundsTogether, ← hsum _ hids, ← hdecrease]
    exact (hmoves.conserved _ hids).symm
  · intro hrounds
    refine ⟨fun ids hids => ?_, fun id token hne => ?_⟩
    · rw [hdecrease, hsum ids hids]
      exact hrounds.symm
    · rw [h.others id token, charged, posted_rows_ne (hother id token fun ht => (hne ht).1)]
      rintro ht e he rfl
      exact (hne ht).2 e.2 ((mem_resolved hmap).mpr ⟨e, he, rfl⟩) (hresolved e he).1

end Moved

/-- The session of the payment raises and leaves the database as it is, or moves what it charges. -/
def SplitKept (st : Store schema) (from_agent_id : Id) (recipients : List SplitRecipient)
    (currency : Token) (memo : Option String) (x : ℕ → Input schema) : Prop :=
  let result := ((SpendingCall.paySplit from_agent_id recipients currency memo).run .rounding).serve x st
  (∃ e, result.1 = .error e ∧ result.2.db = st.db) ∨
    (result.1 = .ok () ∧ MovesShares st.db result.2.db from_agent_id recipients currency)

theorem session_always (quiet : Prop) {st : Store schema} (from_agent_id : Id)
    (recipients : List SplitRecipient) (currency : Token) (memo : Option String)
    (hnames : UniqueNames st.db)
    (hstored : ∀ id, availableOf st.db currency id ∈ decimals 12 ∧ 0 ≤ availableOf st.db currency id) :
    ((SpendingCall.paySplit from_agent_id recipients currency memo).run .rounding).always (Quietly quiet)
      (fun _ v' => Accepted st.db from_agent_id recipients currency ∧
        (MovesShares st.db v'.saved from_agent_id recipients currency ↔ RoundsTogether recipients))
      (fun _ v' => v'.saved = st.db ∧ (quiet → ¬Accepted st.db from_agent_id recipients currency))
      (Solo.ofStore st) := by
  refine always_withSession (always_mono (paySplit_always (v := Solo.ofStore st) hnames hstored recipients)
    (fun _ v' h => ?_) fun _ v' h => h)
  obtain ⟨hsaved, hok, resolved, hmap, hresolved, hpaying⟩ := h
  refine ⟨⟨hok, moves_iff hnames hstored hok hmap hresolved hpaying⟩, fun x hx hcommit => ?_⟩
  exact ⟨hsaved, fun hquiet => absurd (hcommit hquiet) hx⟩

/-- **A split payment moves what it charges**, whatever the environment does, iff it is refused or the
roundings of its shares add up. -/
theorem split_conserves_iff (st : Store schema) (hst : st.db.WF) (hnames : UniqueNames st.db)
    (from_agent_id : Id) (recipients : List SplitRecipient) (currency : Token) (memo : Option String)
    (hstored : ∀ id, availableOf st.db currency id ∈ decimals 12 ∧ 0 ≤ availableOf st.db currency id) :
    (∀ x, SplitKept st from_agent_id recipients currency memo x) ↔
      (Accepted st.db from_agent_id recipients currency → RoundsTogether recipients) := by
  constructor
  · intro hkept hok
    -- a run in which nothing fails
    obtain ⟨v, hv, -, hends⟩ := always_serve (x := fun _ => {})
      (session_always True from_agent_id recipients currency memo hnames hstored) hst
      (meets_of_inputs (fun _ _ _ _ => rfl) _ _)
    rcases hkept fun _ => {} with ⟨e, herror, -⟩ | ⟨hdone, hmoves⟩
    · rw [herror] at hends
      exact absurd hok (hends.2 trivial)
    · rw [hdone] at hends
      rw [hv] at hmoves
      exact hends.2.mp hmoves
  · intro hrounds x
    obtain ⟨v, hv, -, hends⟩ := always_serve (x := x)
      (session_always False from_agent_id recipients currency memo hnames hstored) hst
      (meets_of_inputs (fun _ _ _ hfalse => hfalse.elim) _ _)
    unfold SplitKept
    dsimp only
    rw [hv]
    revert hends
    cases (((SpendingCall.paySplit from_agent_id recipients currency memo).run .rounding).serve x st).1 with
    | ok a =>
        intro hends
        exact Or.inr ⟨rfl, hends.2.mpr (hrounds hends.1)⟩
    | error e =>
        intro hends
        exact Or.inl ⟨e, rfl, hends.1⟩

/-! ## Two halves of a piconero -/

theorem named_namedAgent {name : String} {id : Id} :
    Named namedAgent.db name id ↔ id = 2 ∧ name = "b" := by
  unfold Named namedAgent
  by_cases hid : id = 2
  · simp [hid, eq_comm]
  · simp [hid]

theorem uniqueNames_namedAgent : UniqueNames namedAgent.db := by
  intro id id' name h h'
  rw [(named_namedAgent.mp h).1, (named_namedAgent.mp h').1]

theorem namedAgent_available (id : Id) :
    availableOf namedAgent.db .XMR id ∈ decimals 12 ∧ 0 ≤ availableOf namedAgent.db .XMR id := by
  have havailable : availableOf namedAgent.db .XMR id = if id = 1 then 10 else 0 := by
    by_cases hid : id = 1 <;> simp [availableOf, balanceOf, namedAgent, hid]
  rw [havailable]
  split
  · exact ⟨mem_decimals.mpr ⟨10 ^ 13, by norm_num⟩, by norm_num⟩
  · exact ⟨zero_mem _, le_rfl⟩

/-- Three XMR to one recipient. -/
def threeXmr : List SplitRecipient := [⟨"b", "hash", 3, by decide, by decide⟩]

theorem split_conserves_three : (∀ x, SplitKept namedAgent 1 threeXmr .XMR none x) ↔
    (Accepted namedAgent.db 1 threeXmr .XMR → RoundsTogether threeXmr) :=
  split_conserves_iff namedAgent namedAgent_wf uniqueNames_namedAgent 1 threeXmr .XMR none
    namedAgent_available

/-- Half a piconero, twice, to agent 2. -/
def twoHalves : List SplitRecipient :=
  [⟨"b", "hash", 1 / (2 * 10 ^ 12), by norm_num, by norm_num⟩,
    ⟨"b", "hash'", 1 / (2 * 10 ^ 12), by norm_num, by norm_num⟩]

/-- The sender pays one piconero, and the recipient gets two. -/
theorem split_creates_money : ¬∀ (st : Store schema), st.db.WF → UniqueNames st.db →
    ∀ (from_agent_id : Id) (recipients : List SplitRecipient) (currency : Token) (memo : Option String),
    (∀ id, availableOf st.db currency id ∈ decimals 12 ∧ 0 ≤ availableOf st.db currency id) →
    ∀ x, SplitKept st from_agent_id recipients currency memo x := by
  intro h
  have hrun : (((SpendingCall.paySplit 1 twoHalves .XMR none).run .rounding).serve (fun _ => {})
      namedAgent).1 = .ok () := by decide +kernel
  rcases h namedAgent namedAgent_wf uniqueNames_namedAgent 1 twoHalves .XMR none namedAgent_available
    fun _ => {} with ⟨e, herror, -⟩ | ⟨-, hmoves⟩
  · rw [hrun] at herror
    cases herror
  · have hids : ∀ id, id ∈ ({2} : Finset Id) ↔ ∃ r ∈ twoHalves, Named namedAgent.db r.agent_name id := by
      intro id
      simp [twoHalves, named_namedAgent]
    have hequal := hmoves.conserved {2} hids
    rw [Finset.sum_singleton] at hequal
    exact absurd hequal (by decide +kernel)

end Sthrip
