import Sthrip.Services.Subscriptions
import Sthrip.Txn.Undone

set_option autoImplicit false

/-! # Recurring payments and their participants

The three methods that a participant calls end in a call of `queue_webhook` that raises: no
subscription is ever created, updated or cancelled by a request, whoever sends it. A request that is
refused changes nothing, as do all the others; and a sweep that begins when the row of a subscription
is inactive takes nothing for it, for the row stays inactive.
-/

namespace Sthrip

open Txn Prog

/-- The statements of a run are under no condition. -/
abbrev AnyStep : Store schema → Session schema → Stmt schema → Input schema → Prop :=
  fun _ _ _ _ => True

/-- The arguments of the call are valid, and its agent may make it. -/
def SubscriptionCall.Entitled (db : DB schema) : SubscriptionCall → Prop
  | .createSubscription payment_id from_agent_id to_agent_id amount _ _ =>
      db.rows (Key.recurring payment_id) = none ∧ from_agent_id ≠ to_agent_id ∧ 0 < amount
  | .updateSubscription payment_id agent_id amount _ =>
      ∃ row, db.rows (Key.recurring payment_id) = some row ∧ agent_id = row.from_agent_id ∧
        ∀ a ∈ amount, 0 < a
  | .cancelSubscription payment_id agent_id =>
      ∃ row, db.rows (Key.recurring payment_id) = some row ∧
        (agent_id = row.from_agent_id ∨ agent_id = row.to_agent_id)
  | .executeDuePayments => False

/-- What is taken off a balance for a recurring payment. -/
def debitFor (payment_id : Id) : Entry → Option ℚ
  | .posting p => if p.ref = .recurring payment_id ∧ p.amount < 0 then some p.amount else none
  | _ => none

/-- What the calls are to do in a run from `st` to `c`. A call returns when its session has
committed. -/
structure Obeyed (col : Columns) (calls : ℕ → SubscriptionCall) (st : Store schema)
    (c : Config schema Unit) : Prop where
  /-- A call that is entitled raises only when the database fails. -/
  answered : ∀ i e, (calls i).Entitled st.db → c.prog i = .raise e → e = .OperationalError
  /-- Any other changes nothing. -/
  refused : ∀ i x c', calls i ≠ .executeDuePayments → ¬(calls i).Entitled st.db →
    c.exec i x = some c' → c'.store.db = c.store.db
  /-- A sweep that has not begun when a subscription is cancelled never takes anything for it. -/
  cancelled : ∀ payment_id row, c.store.db.rows (Key.recurring payment_id) = some row →
    row.is_active = false → ∀ i, calls i = .executeDuePayments → c.prog i = (calls i).run col →
      c.sess i = Session.start → ∀ c', Config.Reaches AnyStep c c' →
        (c'.sess i).inserted.filterMap (debitFor payment_id) = []

/-! ## The requests -/

variable {col : Columns}

/-- Not the exception of a database that fails. -/
abbrev NotOperational (e : Exn) : Prop := e ≠ .OperationalError

theorem queueWebhook_fails : SubscriptionService.queueWebhook.fails NotOperational := nofun

theorem cancel_leadsUp (payment_id : Id) :
    (SubscriptionRepository.cancel payment_id).shape Stmt.NotCommit (fun _ => True) NotOperational :=
  shape_seq (shape_stmt trivial) fun _ => shape_stmt trivial

theorem update_leadsUp (payment_id : Id) (amount : Option ℚ) (interval : Option RecurringInterval) :
    (SubscriptionRepository.update col payment_id amount interval).shape Stmt.NotCommit (fun _ => True)
      NotOperational := by
  unfold SubscriptionRepository.update
  split
  · trivial
  · refine shape_seq (shape_raiseIf nofun) fun _ => ?_
    exact shape_stmt trivial

/-- The ends of `cancel_subscription` and `update_subscription`. -/
theorem refreshed_fails {α : Type} (payment_id : Id) (f : RecurringPayment → Unit → Program α) :
    ((SubscriptionService.refreshed payment_id).bind fun result =>
      SubscriptionService.queueWebhook.bind (f result)).fails NotOperational := by
  refine shape_seq ?_ fun _ => fails_bind queueWebhook_fails
  refine shape_seq (shape_stmt trivial) fun _ => ?_
  exact shape_orRaise nofun

/-- No request of a participant or of anybody else comes to its commit. -/
theorem SubscriptionCall.run_fails {call : SubscriptionCall} (h : call ≠ .executeDuePayments) :
    (call.run col).fails NotOperational := by
  refine fails_withSession ?_
  cases call with
  | createSubscription payment_id from_agent_id to_agent_id amount interval max_payments =>
      refine fails_bind ?_
      refine shape_seq (shape_raiseIf nofun) fun _ => ?_
      refine shape_seq (shape_raiseIf nofun) fun _ => ?_
      refine shape_seq (shape_stmt trivial) fun now => ?_
      refine shape_seq ?_ fun payment => fails_bind queueWebhook_fails
      -- the insert of the row
      refine shape_seq (shape_raiseIf nofun) fun _ => ?_
      refine shape_seq (shape_stmt trivial) fun inserted => ?_
      exact shape_seq (shape_raiseIf nofun) fun _ => trivial
  | updateSubscription payment_id agent_id amount interval =>
      refine fails_bind ?_
      refine shape_seq (shape_stmt trivial) fun payment => ?_
      refine shape_seq (shape_orRaise nofun) fun payment => ?_
      refine shape_seq (shape_raiseIf nofun) fun _ => ?_
      exact shape_seq (update_leadsUp ..) fun _ => refreshed_fails ..
  | cancelSubscription payment_id agent_id =>
      refine fails_bind ?_
      refine shape_seq (shape_stmt trivial) fun payment => ?_
      refine shape_seq (shape_orRaise nofun) fun payment => ?_
      refine shape_seq (shape_raiseIf nofun) fun _ => ?_
      exact shape_seq (cancel_leadsUp payment_id) fun _ => refreshed_fails ..
  | executeDuePayments => exact absurd rfl h

/-! ## Inactive subscriptions -/

def Inactive : (k : Key) → Row k → Prop
  | .recurring _, row => row.is_active = false
  | _, _ => False

/-- The statement leaves inactive rows inactive. -/
def LeavesInactive : Stmt schema → Prop
  | .update k _ set => ∀ row, Inactive k row → Inactive k (set row)
  | .assign k set => ∀ row, Inactive k row → Inactive k (set row)
  | _ => True

theorem LeavesInactive.maintains {s : Stmt schema} (h : LeavesInactive s) (st : Store schema)
    (σ : Session schema) : s.Maintains Inactive st σ := by
  cases s with
  | update k guard set => exact fun row _ _ => h row
  | assign k set => exact fun row _ => h row
  | _ => trivial

theorem allows_leavesInactive (agent_id : Id) (token : Token) :
    BalanceRepository.Allows LeavesInactive agent_id token := ⟨trivial, trivial, fun _ _ => id⟩

theorem cancel_leavesInactive (payment_id : Id) :
    (SubscriptionRepository.cancel payment_id).only LeavesInactive :=
  only_bind (only_stmt trivial) fun _ => only_stmt fun _ _ => rfl

theorem recordPayment_leavesInactive (payment_id : Id) (next_payment_at : Time) :
    (SubscriptionRepository.recordPayment col payment_id next_payment_at).only LeavesInactive := by
  refine only_bind (only_stmt trivial) fun now => only_bind (only_stmt trivial) fun payment => ?_
  cases payment with
  | none => trivial
  | some payment => exact only_stmt fun row => id

theorem executePayment_leavesInactive (payment_id : Id) (payment : RecurringPayment) :
    (SubscriptionService.executePayment col payment_id payment).only LeavesInactive := by
  unfold SubscriptionService.executePayment
  split
  · trivial
  · refine only_bind (BalanceRepository.getAvailable_only (allows_leavesInactive ..) trivial) fun _ => ?_
    split
    · trivial
    · refine only_bind (BalanceRepository.deduct_only (allows_leavesInactive ..) trivial) fun _ => ?_
      refine only_bind (BalanceRepository.credit_only (allows_leavesInactive ..) trivial) fun _ => ?_
      refine only_bind (only_stmt trivial) fun now => ?_
      refine only_bind (recordPayment_leavesInactive ..) fun _ => ?_
      refine only_bind (only_stmt trivial) fun object => ?_
      exact only_bind (only_onlyIf (cancel_leavesInactive payment_id)) fun _ => trivial

/-- A subscription that is cancelled stays so, whatever is sent. -/
theorem SubscriptionCall.run_leavesInactive (call : SubscriptionCall) :
    (call.run col).only LeavesInactive := by
  refine only_withSession trivial trivial ?_
  cases call with
  | createSubscription payment_id from_agent_id to_agent_id amount interval max_payments =>
      refine only_bind ?_ fun _ => trivial
      refine only_bind only_raiseIf fun _ => only_bind only_raiseIf fun _ => ?_
      refine only_bind (only_stmt trivial) fun now => only_bind ?_ fun payment => trivial
      refine only_bind only_raiseIf fun _ => only_bind (only_stmt trivial) fun inserted => ?_
      exact only_bind only_raiseIf fun _ => trivial
  | updateSubscription payment_id agent_id amount interval =>
      refine only_bind ?_ fun _ => trivial
      refine only_bind (only_stmt trivial) fun payment => only_bind only_orRaise fun payment => ?_
      refine only_bind only_raiseIf fun _ => only_bind ?_ fun _ => ?_
      · unfold SubscriptionRepository.update
        split
        · trivial
        · exact only_bind only_raiseIf fun _ => only_stmt fun row => id
      · exact only_bind (only_bind (only_stmt trivial) fun _ => only_orRaise) fun _ => trivial
  | cancelSubscription payment_id agent_id =>
      refine only_bind ?_ fun _ => trivial
      refine only_bind (only_stmt trivial) fun payment => only_bind only_orRaise fun payment => ?_
      refine only_bind only_raiseIf fun _ => only_bind (cancel_leavesInactive payment_id) fun _ => ?_
      exact only_bind (only_bind (only_stmt trivial) fun _ => only_orRaise) fun _ => trivial
  | executeDuePayments =>
      refine only_bind ?_ fun _ => trivial
      refine only_bind ?_ fun due => only_tally due fun p => executePayment_leavesInactive ..
      refine only_bind (only_stmt trivial) fun now => only_bind (only_stmt trivial) fun ks => ?_
      exact only_bind (only_stmt trivial) fun _ =>
        SubscriptionRepository.lockDue_only trivial (fun _ => trivial) now ks

/-! ## Sweeps -/

/-- The statement takes nothing for the payment. -/
def TakesNothing (payment_id : Id) : Stmt schema → Prop
  | .insert e => debitFor payment_id e = none
  | _ => True

theorem allows_takesNothing (payment_id agent_id : Id) (token : Token) :
    BalanceRepository.Allows (TakesNothing payment_id) agent_id token :=
  ⟨trivial, trivial, fun _ => trivial⟩

/-- The step lemma: a session that has taken nothing has taken nothing afterwards. -/
theorem TakesNothing.exec {payment_id : Id} {s : Stmt schema} (h : TakesNothing payment_id s)
    (x : Input schema) (st : Store schema) {σ : Session schema}
    (hσ : σ.inserted.filterMap (debitFor payment_id) = []) :
    (s.exec x st σ).2.2.inserted.filterMap (debitFor payment_id) = [] := by
  have hoff : s.off (fun _ => False) (debitFor payment_id) →
      (s.exec x st σ).2.2.inserted.filterMap (debitFor payment_id) = [] := by
    intro hoff
    rw [(s.exec_off x st σ hoff).2.inserted, hσ]
  cases s with
  | commit =>
      simp only [Stmt.exec]
      split
      · rfl
      · rfl
  | rollback => rfl
  | call op => cases op
  | insert e => exact hoff h
  | selectForUpdate k => exact hoff id
  | update k guard set => exact hoff id
  | assign k set => exact hoff id
  | create k row => exact hoff id
  | _ => exact hoff trivial

theorem executePayment_takesNothing {payment_id p : Id} (hp : p ≠ payment_id)
    (payment : RecurringPayment) :
    (SubscriptionService.executePayment col p payment).only (TakesNothing payment_id) := by
  have hnone : ∀ agent_id token amount,
      debitFor payment_id (.posting ⟨agent_id, token, amount, .recurring p⟩) = none := by
    intro agent_id token amount
    exact if_neg fun h => hp (Ref.recurring.inj h.1)
  unfold SubscriptionService.executePayment
  split
  · trivial
  · refine only_bind (BalanceRepository.getAvailable_only (allows_takesNothing ..) trivial) fun _ => ?_
    split
    · trivial
    · refine only_bind (BalanceRepository.deduct_only (allows_takesNothing ..) (hnone ..)) fun _ => ?_
      refine only_bind (BalanceRepository.credit_only (allows_takesNothing ..) (hnone ..)) fun _ => ?_
      refine only_bind (only_stmt trivial) fun now => only_bind ?_ fun _ => ?_
      · refine only_bind (only_stmt trivial) fun now => only_bind (only_stmt trivial) fun payment => ?_
        cases payment with
        | none => trivial
        | some payment => exact only_stmt trivial
      · refine only_bind (only_stmt trivial) fun object => ?_
        refine only_bind (only_onlyIf ?_) fun _ => trivial
        exact only_bind (only_stmt trivial) fun now => only_stmt trivial

/-- The rows that are locked are some of those the query has found. -/
theorem lockDue_shape {ok : Stmt schema → Prop} (hask : ok .ask)
    (hlock : ∀ id, ok (.selectForUpdate (Key.recurring id))) (now : Time) (ks : List Key) :
    (SubscriptionRepository.lockDue now ks).shape ok
      (fun rows => ∀ p ∈ rows, Key.recurring p.1 ∈ ks) (fun _ => True) := by
  induction ks with
  | nil => exact fun p hp => by cases hp
  | cons k ks ih =>
      have hlater : (SubscriptionRepository.lockDue now ks).shape ok
          (fun rows => ∀ p ∈ rows, Key.recurring p.1 ∈ k :: ks) (fun _ => True) :=
        shape_mono ih (fun rows h p hp => List.mem_cons_of_mem k (h p hp)) fun _ => id
      cases k with
      | recurring id =>
          refine shape_seq (shape_stmt hask) fun skip => ?_
          split
          · exact hlater
          · refine shape_seq (shape_stmt (hlock id)) fun row => ?_
            refine shape_bind hlater fun rows h p hp => ?_
            rcases List.mem_append.mp hp with hfound | hrest
            · simp only [Option.mem_toList, Option.map_eq_some_iff] at hfound
              obtain ⟨row, -, rfl⟩ := hfound
              exact List.mem_cons_self
            · exact h p hrest
      | _ => exact hlater

/-- The sweep after its query. -/
def sweepOver (col : Columns) (now : Time) (ks : List Key) : Program Unit := withSession <|
  ((expireAll.bind fun _ => SubscriptionRepository.lockDue now ks).bind fun due_payments =>
    tally due_payments fun p => SubscriptionService.executePayment col p.1 p.2).bind fun _ => ret ()

theorem executeDuePayments_eq : SubscriptionCall.executeDuePayments.run col =
    .step .now fun now => .step (.scan (SubscriptionRepository.isDue now)) fun ks =>
      sweepOver col now ks := rfl

theorem sweepOver_takesNothing {payment_id : Id} {now : Time} {ks : List Key}
    (h : Key.recurring payment_id ∉ ks) :
    (sweepOver col now ks).shape (TakesNothing payment_id) (fun _ => True) (fun _ => True) := by
  refine shape_withSession (fun _ _ => ⟨trivial, trivial⟩) trivial ?_
  refine shape_seq (shape_bind (shape_seq (shape_stmt trivial) fun _ => lockDue_shape trivial
    (fun _ => trivial) now ks) fun due hdue => shape_tally due fun p hp => ?_) fun _ => trivial
  have hne : p.1 ≠ payment_id := fun he => h (he ▸ hdue p hp)
  exact shape_of_only (executePayment_takesNothing hne p.2)

/-- A sweep that has not made its query when the subscription is inactive: it begins, it is about to
make its query, or nothing that it still has to do takes anything for the subscription. -/
inductive Sweeping (col : Columns) (payment_id : Id) : Program Unit → Session schema → Prop where
  | begins : Sweeping col payment_id (SubscriptionCall.executeDuePayments.run col) Session.start
  | queries (now : Time) : Sweeping col payment_id
      (.step (.scan (SubscriptionRepository.isDue now)) fun ks => sweepOver col now ks) Session.start
  | past {p : Program Unit} {σ : Session schema}
      (hp : p.shape (TakesNothing payment_id) (fun _ => True) (fun _ => True))
      (hσ : σ.inserted.filterMap (debitFor payment_id) = []) : Sweeping col payment_id p σ

namespace Sweeping

variable {payment_id : Id} {p : Program Unit} {σ : Session schema}

theorem inserted (h : Sweeping col payment_id p σ) :
    σ.inserted.filterMap (debitFor payment_id) = [] := by
  cases h with
  | begins => rfl
  | queries now => rfl
  | past hp hσ => exact hσ

/-- The query does not find an inactive subscription. -/
theorem not_mem_due {st : Store schema} {row : RecurringPayment} {now : Time} {l : List Key}
    (hrow : st.db.rows (Key.recurring payment_id) = some row) (hinactive : row.is_active = false)
    (hl : l.Perm ((Session.start (S := schema)).matching st.db (SubscriptionRepository.isDue now))) :
    Key.recurring payment_id ∉ l := by
  intro hmem
  have hfound := (List.mem_filter.mp (hl.mem_iff.mp hmem)).2
  rw [Session.view_of_not_held rfl, hrow, Option.any_some] at hfound
  simp [SubscriptionRepository.isDue, RecurringPaymentRepository.due, hinactive] at hfound

/-- The step lemma. -/
theorem step {s : Stmt schema} {next : s.Res → Program Unit} {st : Store schema} {x : Input schema}
    {row : RecurringPayment} (h : Sweeping col payment_id (.step s next) σ)
    (hrow : st.db.rows (Key.recurring payment_id) = some row) (hinactive : row.is_active = false) :
    Sweeping col payment_id (next (s.exec x st σ).1) (s.exec x st σ).2.2 := by
  generalize hq : Prog.step s next = q at h
  cases h with
  | begins =>
      rw [executeDuePayments_eq] at hq
      obtain ⟨rfl, hnext⟩ := Prog.step.inj hq
      rw [eq_of_heq hnext]
      exact .queries x.time
  | queries now =>
      obtain ⟨rfl, hnext⟩ := Prog.step.inj hq
      rw [eq_of_heq hnext]
      refine .past (sweepOver_takesNothing ?_) rfl
      exact not_mem_due hrow hinactive (x.arrange_perm _)
  | past hp hσ =>
      rw [← hq] at hp
      exact .past (hp.2 _) (hp.1.exec x st hσ)

end Sweeping

/-- The run lemma: a sweep that begins when a subscription is inactive takes nothing for it. -/
theorem sweep_takesNothing {calls : ℕ → SubscriptionCall} {st : Store schema} (hst : st.db.WF)
    {c c' : Config schema Unit}
    (hc : Config.Reaches AnyStep (Config.start st fun i => (calls i).run col) c) {payment_id : Id}
    {row : RecurringPayment} (hrow : c.store.db.rows (Key.recurring payment_id) = some row)
    (hinactive : row.is_active = false) {i : ℕ}
    (hp : c.prog i = SubscriptionCall.executeDuePayments.run col) (hσ : c.sess i = Session.start)
    (hc' : Config.Reaches AnyStep c c') : Sweeping col payment_id (c'.prog i) (c'.sess i) := by
  obtain ⟨hreach, honly⟩ :=
    Config.Reaches.only hc fun i => (calls i).run_leavesInactive
  have hok : ∀ st σ s x, (AnyStep st σ s x ∧ LeavesInactive s) → s.Maintains Inactive st σ :=
    fun st σ _ _ h => h.2.maintains st σ
  have hmaintained : c.Maintained Inactive :=
    hreach.maintained (Config.start_maintained hst _) hok
  induction hc' with
  | refl =>
      rw [hp, hσ]
      exact .begins
  | @exec c₁ c₂ j x s next hc₁ hprog _ hx ih =>
      obtain ⟨row₁, hrow₁, hinactive₁⟩ :=
        Config.lasts (hc₁.only honly).1 hmaintained hok hrow hinactive
      refine Config.thread_exec ih hprog hx fun hij => ?_
      rw [hij, hprog] at ih
      exact ih.step hrow₁ hinactive₁
  | crash j hc₁ ih => exact Config.thread_crash ih j (.past trivial rfl)

/-! ## The result -/

/-- **The participants are obeyed** in every run iff nobody makes a call that he is entitled to: such a
call always raises. What is refused changes nothing, and a subscription that is inactive is not
charged, in any case. -/
theorem participants_obeyed_iff (col : Columns) (calls : ℕ → SubscriptionCall) {st : Store schema}
    (hst : st.db.WF) :
    (∀ c, Config.Reaches AnyStep (Config.start st fun i => (calls i).run col) c →
      Obeyed col calls st c) ↔ ∀ i, ¬(calls i).Entitled st.db := by
  constructor
  · intro h i hentitled
    have huser : calls i ≠ .executeDuePayments := by
      intro hsweep
      rw [hsweep] at hentitled
      exact hentitled
    -- the others wait until the call has raised
    have hfails : ((calls i).run col).fails NotOperational := SubscriptionCall.run_fails huser
    obtain ⟨c, e, hc, hne, hraised⟩ :=
      Config.exists_raised st (fun i => (calls i).run col) i hfails
    exact hne ((h c hc).answered i e hentitled hraised)
  · intro h c hc
    refine ⟨fun i e hentitled => absurd hentitled (h i), ?_, ?_⟩
    · intro i x c' huser _ hx
      have hfails : (c.prog i).fails fun _ => True :=
        hc.fails trivial (shape_mono (SubscriptionCall.run_fails huser) (fun _ => id) fun _ _ => trivial)
      exact Config.exec_fails hfails hx
    · intro payment_id row hrow hinactive i hsweep hp hσ c' hc'
      rw [hsweep] at hp
      exact (sweep_takesNothing hst hc hrow hinactive hp hσ hc').inserted

/-- Agent 1 has ten units, and pays agent 2 one a day. -/
def oneSubscription : Store schema where
  db :=
    { rows := fun
        | .balance id token => if id = 1 ∧ token = .XMR then some { available := 10 } else none
        | .recurring id => if id = 7 then some ⟨1, 2, 1, .DAILY, hours 24, none, 0, none, 0, true, none⟩
            else none
        | _ => none
      keys := [.balance 1 .XMR, .recurring 7]
      log := [] }
  ext := default

theorem oneSubscription_wf : oneSubscription.db.WF := by
  refine ⟨by decide, fun k => ?_⟩
  cases k with
  | balance id token => by_cases h : id = 1 ∧ token = .XMR <;> simp [oneSubscription, h]
  | recurring id => by_cases h : id = 7 <;> simp [oneSubscription, h]
  | _ => simp [oneSubscription]

/-- A sweep makes the payment. -/
theorem participants_obeyed_by_sweep : ∃ c,
    Config.trace (turn 0 19 24) (Config.start oneSubscription fun _ =>
      SubscriptionCall.executeDuePayments.run .exact) = some c ∧ c.prog 0 = .ret () ∧
      Obeyed .exact (fun _ => .executeDuePayments) oneSubscription c := by
  refine ⟨_, rfl, rfl, ?_⟩
  exact (participants_obeyed_iff .exact (fun _ => .executeDuePayments) oneSubscription_wf).mpr
    (fun _ => id) _ (Config.reaches_trace .refl (l := turn 0 19 24) rfl)

/-- The payer cancels: the call raises, and the subscription is active. -/
theorem cancel_is_undone :
    (SubscriptionCall.cancelSubscription 7 1).Entitled oneSubscription.db ∧
    ∃ c, Config.Reaches AnyStep (Config.start oneSubscription fun _ =>
        (SubscriptionCall.cancelSubscription 7 1).run .exact) c ∧
      c.prog 0 = .raise (.TypeError "queue_webhook() got an unexpected keyword argument 'db'") ∧
      (c.store.db.rows (Key.recurring 7)).map (·.is_active) = some true ∧
      ¬Obeyed .exact (fun _ => .cancelSubscription 7 1) oneSubscription c := by
  have hentitled : (SubscriptionCall.cancelSubscription 7 1).Entitled oneSubscription.db :=
    ⟨_, rfl, Or.inl rfl⟩
  refine ⟨hentitled, _, Config.reaches_trace .refl (l := turn 0 5 0) rfl, rfl, rfl, fun h => ?_⟩
  have hraised := h.answered 0 _ hentitled rfl
  cases hraised

end Sthrip
