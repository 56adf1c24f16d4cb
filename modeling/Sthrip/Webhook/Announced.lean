import Sthrip.Services.Webhooks
import Sthrip.Txn.Footprint

set_option autoImplicit false

/-! # Webhooks and the changes they announce

An event is committed before the change that it announces. A run of requests leaves events of changes that
were undone when something raises after the first event of a request: the second of its two events, a later
statement, or the commit of the session. It misses events of changes that were committed when a method
catches the exception of an event that could not be queued.
-/

namespace Sthrip

open Txn Prog

/-! ## What a request has announced -/

/-- The rows of `webhook_events`. -/
abbrev Hooks.rows (hooks : Hooks) : List Event := hooks.events.db.log

/-- Every event that was asked for since `h₀` is in the table. -/
def Told (h₀ h : Hooks) : Prop := ∃ new, h.rows = h₀.rows ++ new ∧ h.asked = h₀.asked ++ new

/-- No event was added to the table since `h₀`. -/
def Untold (h₀ h : Hooks) : Prop := h.rows = h₀.rows ∧ ∃ asked, h.asked = h₀.asked ++ asked

theorem Told.refl (h : Hooks) : Told h h := ⟨[], by simp, by simp⟩

theorem Told.of_eq {h₀ h : Hooks} (he : h = h₀) : Told h₀ h := he ▸ Told.refl h

theorem Told.congr {h₀ h h' : Hooks} (ht : Told h₀ h) (he : h' = h) : Told h₀ h' := he ▸ ht

theorem Untold.of_eq {h₀ h : Hooks} (he : h = h₀) : Untold h₀ h := by
  subst he
  exact ⟨rfl, [], by simp⟩

/-- With nothing added, nothing was asked for. -/
theorem Told.untold {h₀ h : Hooks} (ht : Told h₀ h) (hl : ¬h₀.rows.length < h.rows.length) :
    Untold h₀ h := by
  obtain ⟨new, hrows, hasked⟩ := ht
  have hnew : new = [] := by
    rw [hrows, List.length_append] at hl
    exact List.length_eq_zero_iff.mp (by omega)
  subst hnew
  exact ⟨by simpa using hrows, [], hasked⟩

theorem perform_ok (agent_id : Id) (event_type : String) (payload : WebhookPayload) (time : ℤ)
    (h : Hooks) :
    HookOp.perform (.queueEvent agent_id event_type payload) time 0 h
      = (.ok (), { events := ⟨h.events.db.append (newEvent time time agent_id event_type payload),
                              h.events.ext⟩
                   asked := h.asked ++ [newEvent time time agent_id event_type payload] }) := rfl

theorem perform_fails (agent_id : Id) (event_type : String) (payload : WebhookPayload) (time : ℤ)
    {choice : ℕ} (hchoice : choice ≠ 0) (h : Hooks) :
    HookOp.perform (.queueEvent agent_id event_type payload) time choice h
      = (.error .OperationalError,
          { events := h.events
            asked := h.asked ++ [newEvent time time agent_id event_type payload] }) := by
  obtain ⟨n, rfl⟩ := Nat.exists_eq_succ_of_ne_zero hchoice
  rfl

/-! ## Steady requests -/

/-- After the first event of the request nothing fails, and a method that catches the exceptions of the code
that queues gets every event queued. -/
def Steady (c : WebhookCall) (h₀ : Hooks) : StepCond hookSchema := fun v s x =>
  (h₀.rows.length < v.ext.rows.length → x.choice = 0) ∧
    (c.catches = true → ∀ op, s = .call op → x.choice = 0)

section Rules

variable {c : WebhookCall} {h₀ : Hooks} {α β : Type} {v : Solo hookSchema}

theorem hookAttempt_always {Q : Unit → Solo hookSchema → Prop} {R : Exn → Solo hookSchema → Prop}
    (h : Q () v) (hfail : ¬h₀.rows.length < v.ext.rows.length → R .OperationalError v) :
    hookAttempt.always (Steady c h₀) Q R v := by
  refine always_bind (always_stmt fun x _ hok => ?_)
  show (raiseIf (S := hookSchema) (x.choice ≠ 0) Exn.OperationalError).always (Steady c h₀) Q R v
  exact always_raiseIf (fun hc => hfail fun hl => hc (hok.1 hl)) fun _ => h

/-- The program does not raise, whatever it is answered. -/
def Returns : Program α → Prop
  | .ret _ => True
  | .raise _ => False
  | .step _ next => ∀ r, Returns (next r)

theorem returns_bind {p : Program α} {f : α → Program β} (hp : Returns p) (hf : ∀ a, Returns (f a)) :
    Returns (p.bind f) := by
  induction p with
  | ret a => exact hf a
  | raise e => exact hp.elim
  | step s next ih => exact fun r => ih r (hp r)

theorem returns_query (p : (k : Key) → Row k → Bool) : Returns (query (S := schema) p) := by
  intro ks
  show Returns (selectAll ks)
  induction ks with
  | nil => trivial
  | cons k ks ih => exact returns_bind (fun row => trivial) fun row => returns_bind ih fun rows => trivial

theorem hookStmt_ext (s : Stmt schema) (x : Input hookSchema) (v : Solo hookSchema) :
    ((hookStmt s).eval x v).2.ext = v.ext := by
  cases s with
  | update k guard set =>
      simp only [hookStmt, Stmt.eval]
      split
      · split
        · rfl
        · rfl
      · rfl
  | assign k set =>
      simp only [hookStmt, Stmt.eval]
      split
      · rfl
      · rfl
  | create k row =>
      simp only [hookStmt, Stmt.eval]
      split
      · rfl
      · rfl
  | commit =>
      simp only [hookStmt, Stmt.eval]
      split
      · rfl
      · rfl
  | call op => cases op
  | _ => rfl

/-- A program over the plain tables queues nothing. It raises by itself, or because a statement fails, which
is before the first event. -/
theorem hooked_always (p : Program α) :
    (hooked p).always (Steady c h₀) (fun _ v' => v'.ext = v.ext)
      (fun _ v' => v'.ext = v.ext ∧ (Returns p → ¬h₀.rows.length < v.ext.rows.length)) v := by
  induction p generalizing v with
  | ret a => rfl
  | raise e => exact ⟨rfl, fun h => h.elim⟩
  | step s next ih =>
      refine always_bind (hookAttempt_always ?_ fun hl => ⟨rfl, fun _ => hl⟩)
      intro x _ _
      have hext := hookStmt_ext s x v
      refine always_mono (ih _) (fun _ v' h => h.trans hext) fun _ v' h => ?_
      rw [hext] at h
      exact ⟨h.1, fun hp => h.2 (hp _)⟩

/-- A webhook is queued, or it is the first of the request that fails. -/
theorem queueWebhook_always {agent_id : Id} {event_type : String} {payload : WebhookPayload}
    (h : Told h₀ v.ext) :
    (queueWebhook agent_id event_type payload).always (Steady c h₀)
      (fun _ v' => Told h₀ v'.ext ∧ v'.db = v.db)
      (fun _ v' => Untold h₀ v'.ext ∧ c.catches = false) v := by
  refine always_bind (always_stmt fun x _ hok => ?_)
  simp only [Stmt.eval]
  by_cases hx : x.choice = 0
  · rw [hx, perform_ok]
    obtain ⟨new, hrows, hasked⟩ := h
    refine ⟨⟨new ++ [newEvent x.time x.time agent_id event_type payload], ?_, ?_⟩, rfl⟩
    · rw [← List.append_assoc, ← hrows]
      rfl
    · rw [← List.append_assoc, ← hasked]
  · rw [perform_fails _ _ _ _ hx]
    obtain ⟨hrows, asked, hasked⟩ := h.untold fun hl => hx (hok.1 hl)
    refine ⟨⟨hrows, asked ++ [newEvent x.time x.time agent_id event_type payload], ?_⟩, ?_⟩
    · rw [← List.append_assoc, ← hasked]
    · exact Bool.eq_false_iff.mpr fun hc => hx (hok.2 hc _ rfl)

theorem tellBoth_always {one other : Id} {event_type : String} {payload : WebhookPayload}
    (h : Told h₀ v.ext) :
    (tellBoth one other event_type payload).always (Steady c h₀)
      (fun _ v' => Told h₀ v'.ext ∧ v'.db = v.db)
      (fun _ v' => Untold h₀ v'.ext ∧ c.catches = false) v := by
  refine always_bind (always_mono (queueWebhook_always h) (fun _ v' h' => ?_) fun _ _ h' => h')
  exact always_mono (queueWebhook_always h'.1) (fun _ _ h'' => ⟨h''.1, h''.2.trans h'.2⟩) fun _ _ h'' => h''

/-! ## Requests that catch nothing -/

/-- What comes before the first webhook of a request. -/
theorem first_always {p : Program α} {f : α → HookProgram β} {Q : β → Solo hookSchema → Prop}
    (hv : v.ext = h₀)
    (hf : ∀ a v', v'.ext = h₀ → (f a).always (Steady c h₀) Q (fun _ v'' => Untold h₀ v''.ext) v') :
    ((hooked p).bind f).always (Steady c h₀) Q (fun _ v' => Untold h₀ v'.ext) v :=
  always_bind (always_mono (hooked_always p) (fun a v' h => hf a v' (h.trans hv))
    fun _ _ h => .of_eq (h.1.trans hv))

/-- A method that tells both sides at its end. -/
theorem tellBoth_last {one other : Id} {event_type : String} {payload : WebhookPayload}
    (hv : v.ext = h₀) :
    (tellBoth one other event_type payload).always (Steady c h₀) (fun _ v' => Told h₀ v'.ext)
      (fun _ v' => Untold h₀ v'.ext) v :=
  always_mono (tellBoth_always (.of_eq hv)) (fun _ _ h => h.1) fun _ _ h => h.1

/-- A statement that does not fail once something has been told. -/
theorem hookAttempt_told {Q : Unit → Solo hookSchema → Prop} (h : Told h₀ v.ext) (hQ : Q () v) :
    hookAttempt.always (Steady c h₀) Q (fun _ v' => Untold h₀ v'.ext) v :=
  hookAttempt_always hQ fun hl => h.untold hl

/-- A program that always returns, once something may have been told. -/
theorem hooked_told {p : Program α} (hp : Returns p) (h : Told h₀ v.ext) :
    (hooked p).always (Steady c h₀) (fun _ v' => Told h₀ v'.ext) (fun _ v' => Untold h₀ v'.ext) v :=
  always_mono (hooked_always p) (fun _ _ h' => h.congr h') fun _ _ h' => h'.1 ▸ h.untold (h'.2 hp)

namespace Hooked

/-- A contract that was breached can be read again. -/
theorem enforceOne_told {contract : Id × SLAContract} (h : Told h₀ v.ext) :
    (enforceOne contract).always (Steady c h₀) (fun _ v' => Told h₀ v'.ext)
      (fun _ v' => Untold h₀ v'.ext) v := by
  have hbreach : (hooked (SLAContractRepository.breach contract.1)).always (Steady c h₀)
      (fun b v' => Told h₀ v'.ext ∧
        (b = true → (v'.db.rows (HookKey.table (.slaContract contract.1))).isSome))
      (fun _ v' => Untold h₀ v'.ext) v := by
    refine always_bind (hookAttempt_told h ?_)
    refine always_update (S := hookSchema) (fun r x _ _ _ => ⟨h, fun _ => ?_⟩) fun _ => ⟨h, nofun⟩
    simp
  refine always_bind (always_mono hbreach (fun b v₁ h₁ => ?_) fun _ _ h₁ => h₁)
  refine always_bind (always_onlyIf (fun hb => ?_) fun _ => h₁.1)
  obtain ⟨row, hrow⟩ := Option.isSome_iff_exists.mp (h₁.2 hb)
  refine always_bind (always_bind (hookAttempt_told h₁.1 ?_))
  intro x _ _
  show (hooked (orRaise _ (v₁.db.rows (HookKey.table (.slaContract contract.1))))).always _ _ _ v₁
  rw [hrow]
  show (tellBoth row.consumer_id row.provider_id _ _).always _ _ _ v₁
  exact always_mono (tellBoth_always h₁.1) (fun _ _ h₂ => h₂.1) fun _ _ h₂ => h₂.1

theorem enforceSla_told (hv : v.ext = h₀) :
    enforceSla.always (Steady c h₀) (fun _ v' => Told h₀ v'.ext) (fun _ v' => Untold h₀ v'.ext) v :=
  first_always hv fun overdue _ hv' =>
    always_tally (fun v' : Solo hookSchema => Told h₀ v'.ext) overdue (fun _ _ _ h => enforceOne_told h)
      (.of_eq hv')

theorem createMultiParty_told {col : Columns} {payment_id sender_id : Id}
    {recipients : List RecipientData} {currency : Token} {require_all_accept : Bool} {accept_hours : ℤ}
    (hv : v.ext = h₀) :
    (createMultiParty col payment_id sender_id recipients currency require_all_accept accept_hours).always
      (Steady c h₀) (fun _ v' => Told h₀ v'.ext) (fun _ v' => Untold h₀ v'.ext) v := by
  refine first_always hv fun created v₁ hv₁ => ?_
  obtain ⟨payment, rows⟩ := created
  refine always_bind (always_mono (always_forEach (fun _ (v' : Solo hookSchema) => Told h₀ v'.ext)
    (fun r _ _ h => ?_) rows (.of_eq hv₁)) (fun _ v₂ h₂ => ?_) fun _ _ h' => h')
  · exact always_mono (queueWebhook_always h) (fun _ _ h' => h'.1) fun _ _ h' => h'.1
  · exact always_bind (hooked_told (returns_bind (returns_query _) fun _ => trivial) h₂)

/-! ## The sweep of the expired deals -/

variable {col : Columns}

/-- Inside a `try` every event is queued. -/
theorem tellResolved_told {deal_id : Id} {event_type : EscrowDeal → String} {resolve : Program Bool}
    (hc : c.catches = true) (h : Told h₀ v.ext) :
    (tellResolved deal_id event_type resolve).always (Steady c h₀) (fun _ v' => Told h₀ v'.ext)
      (fun _ v' => Told h₀ v'.ext) v := by
  refine always_bind (always_mono (hooked_always resolve) (fun b v₁ h₁ => ?_) fun _ _ h₁ => h.congr h₁.1)
  refine always_bind (always_onlyIf (fun _ => ?_) fun _ => h.congr h₁)
  refine always_bind (always_mono (hooked_always _) (fun deal v₂ h₂ => ?_) fun _ _ h₂ => ?_)
  · refine always_mono (tellBoth_always ?_) (fun _ _ h₃ => h₃.1) fun _ _ h₃ => ?_
    · exact h.congr (h₂.trans h₁)
    · rw [hc] at h₃
      exact absurd h₃.2 (by decide)
  · exact h.congr (h₂.1.trans h₁)

theorem resolveSingle_told {deal_id : Id} (hc : c.catches = true) (h : Told h₀ v.ext) :
    (resolveSingle col deal_id).always (Steady c h₀) (fun _ v' => Told h₀ v'.ext)
      (fun _ v' => Told h₀ v'.ext) v := by
  refine always_bind (always_mono (hooked_always _) (fun locked v₁ h₁ => ?_) fun _ _ h₁ => h.congr h₁.1)
  have hv₁ : Told h₀ v₁.ext := h.congr h₁
  cases locked with
  | none => exact hv₁
  | some locked =>
      dsimp only
      split
      · exact tellResolved_told hc hv₁
      · exact tellResolved_told hc hv₁
      · exact tellResolved_told hc hv₁
      · exact hv₁

theorem resolveMilestoneExpiry_told {escrow_id : Id} {sequence : ℕ} (hc : c.catches = true)
    (h : Told h₀ v.ext) :
    (resolveMilestoneExpiry col escrow_id sequence).always (Steady c h₀) (fun _ v' => Told h₀ v'.ext)
      (fun _ v' => Told h₀ v'.ext) v := by
  refine always_bind (always_mono (hooked_always _) (fun deal v₁ h₁ => ?_) fun _ _ h₁ => h.congr h₁.1)
  have hv₁ : Told h₀ v₁.ext := h.congr h₁
  cases deal with
  | none => exact hv₁
  | some deal =>
      dsimp only
      split
      · exact hv₁
      · refine always_bind (always_mono (hooked_always _) (fun ms v₂ h₂ => ?_) fun _ _ h₂ => hv₁.congr h₂.1)
        have hv₂ : Told h₀ v₂.ext := hv₁.congr h₂
        cases ms with
        | none => exact hv₂
        | some ms =>
            dsimp only
            split
            · exact tellResolved_told hc hv₂
            · exact tellResolved_told hc hv₂
            · exact hv₂

theorem resolveExpired_told (hc : c.catches = true) (hv : v.ext = h₀) :
    (resolveExpired col).always (Steady c h₀) (fun _ v' => Told h₀ v'.ext)
      (fun _ v' => Untold h₀ v'.ext) v := by
  refine first_always hv fun deals v₁ hv₁ => ?_
  refine always_bind (always_mono (always_tally (fun v' : Solo hookSchema => Told h₀ v'.ext) deals
    (fun deal _ v' h => always_tryCatch (resolveSingle_told hc h)) (.of_eq hv₁)) (fun _ v₂ h₂ => ?_)
    fun _ _ h' => h')
  refine always_bind (always_mono (hooked_told ?_ h₂) (fun milestones v₃ h₃ => ?_) fun _ _ h' => h')
  · exact returns_bind (fun now => trivial) fun now => returns_bind (returns_query _) fun rows => trivial
  · exact always_bind (always_mono (always_tally (fun v' : Solo hookSchema => Told h₀ v'.ext) milestones
      (fun ms _ v' h => always_tryCatch (resolveMilestoneExpiry_told hc h)) h₃) (fun _ _ h' => h')
      fun _ _ h' => h')

/-! ## Match requests -/

/-- The statement does not end the session. -/
def Stays : Stmt schema → Prop
  | .commit => False
  | .rollback => False
  | _ => True

theorem hookStmt_requests {s : Stmt schema} (hs : Stays s) (x : Input hookSchema) (v : Solo hookSchema)
    (id : Id) :
    ((hookStmt s).eval x v).2.db.rows (.matchRequest id) = v.db.rows (.matchRequest id) := by
  have hput : ∀ (k : Key) (row : Row k),
      (v.db.put (HookKey.table k) row).rows (.matchRequest id) = v.db.rows (.matchRequest id) := by
    intro k row
    have hne : (HookKey.matchRequest id : HookKey) ≠ HookKey.table k := nofun
    exact DB.put_rows_ne (S := hookSchema) v.db row hne
  cases s with
  | update k guard set =>
      simp only [hookStmt, Stmt.eval]
      split
      · split
        · exact hput ..
        · rfl
      · rfl
  | assign k set =>
      simp only [hookStmt, Stmt.eval]
      split
      · exact hput ..
      · rfl
  | create k row =>
      simp only [hookStmt, Stmt.eval]
      split
      · rfl
      · exact hput ..
  | commit => exact hs.elim
  | rollback => exact hs.elim
  | call op => cases op
  | _ => rfl

/-- Programs over the plain tables leave the match requests alone. -/
theorem hooked_requests {p : Program α} (hp : p.only Stays) :
    (hooked p).always (Steady c h₀)
      (fun _ v' => ∀ id, v'.db.rows (.matchRequest id) = v.db.rows (.matchRequest id))
      (fun _ v' => ∀ id, v'.db.rows (.matchRequest id) = v.db.rows (.matchRequest id)) v := by
  induction p generalizing v with
  | ret a => exact fun _ => rfl
  | raise e => exact fun _ => rfl
  | step s next ih =>
      refine always_bind (hookAttempt_always ?_ fun _ _ => rfl)
      intro x _ _
      have hstep : ∀ id, ((hookStmt s).eval x v).2.db.rows (.matchRequest id)
          = v.db.rows (.matchRequest id) := fun id => hookStmt_requests hp.1 x v id
      exact always_mono (ih _ (hp.2 _)) (fun _ _ h id => (h id).trans (hstep id))
        fun _ _ h id => (h id).trans (hstep id)

theorem createContract_stays (contract_id deal_id consumer_id provider_id : Id)
    (service_description : String) (deliverables : List String)
    (response_time_secs delivery_time_secs : ℤ) (price : ℚ) (currency : Token)
    (penalty_percent : ℤ) (template_id : Option Id) :
    (SLAService.createContract col contract_id deal_id consumer_id provider_id service_description
      deliverables response_time_secs delivery_time_secs price currency penalty_percent
      template_id).only Stays := by
  have hbalance : ∀ agent_id token, BalanceRepository.Allows Stays agent_id token :=
    fun _ _ => ⟨trivial, trivial, fun _ => trivial⟩
  refine only_bind only_raiseIf fun _ => ?_
  refine only_bind (BalanceRepository.getAvailable_only (hbalance ..) trivial) fun _ => ?_
  refine only_bind only_raiseIf fun _ => only_bind ?_ fun _ => ?_
  · -- the deal
    refine only_bind only_raiseIf fun _ => only_bind only_raiseIf fun _ => ?_
    refine only_bind only_raiseIf fun _ => only_bind (only_stmt trivial) fun _ => ?_
    refine only_bind only_orRaise fun _ => only_bind only_raiseIf fun _ => ?_
    refine only_bind (BalanceRepository.deduct_only (hbalance ..) trivial) fun _ => ?_
    refine only_bind ?_ fun _ => trivial
    refine only_bind (only_stmt trivial) fun _ => only_bind (only_stmt trivial) fun _ => ?_
    exact only_bind only_raiseIf fun _ => trivial
  · exact only_bind (only_stmt trivial) fun _ => only_bind only_raiseIf fun _ => trivial

/-- Does the request exist? -/
def HasRequest (request_id : Id) (v : Solo hookSchema) : Prop :=
  (v.db.rows (.matchRequest request_id)).isSome

theorem hasRequest_put (request_id : Id) (req : MatchRequest) (v : Solo hookSchema) :
    HasRequest request_id { v with db := v.db.put (HookKey.matchRequest request_id) req } := by
  rw [HasRequest, DB.put_rows_self]
  rfl

theorem HasRequest.congr {request_id : Id} {v' : Solo hookSchema} (h : HasRequest request_id v)
    (he : v'.db.rows (.matchRequest request_id) = v.db.rows (.matchRequest request_id)) :
    HasRequest request_id v' := by
  rw [HasRequest, he]
  exact h

theorem createSlaForMatch_told {contract_id deal_id request_id matched_agent_id : Id}
    {template : Option SLATemplate} {req : MatchRequest} (hc : c.catches = true) (h : Told h₀ v.ext)
    (hreq : HasRequest request_id v) :
    (createSlaForMatch col contract_id deal_id template req matched_agent_id).always (Steady c h₀)
      (fun _ v' => Told h₀ v'.ext ∧ HasRequest request_id v') (fun _ v' => Untold h₀ v'.ext) v := by
  refine always_bind (hookAttempt_told h ?_)
  cases template with
  | none => exact ⟨h, hreq⟩
  | some template =>
      refine always_tryCatch (always_bind (always_bind (always_mono (always_and (hooked_always _)
        (hooked_requests (createContract_stays ..))) (fun contract v₁ h₁ => ?_) fun _ v₁ h₁ => ?_)))
      · refine always_bind (always_mono (tellBoth_always (h.congr h₁.1)) (fun _ v₂ h₂ => ?_)
          fun _ _ h₂ => ?_)
        · refine ⟨h₂.1, (hreq.congr (h₁.2 _)).congr ?_⟩
          rw [h₂.2]
        · rw [hc] at h₂
          exact absurd h₂.2 (by decide)
      · exact ⟨h.congr h₁.1.1, hreq.congr (h₁.2 _)⟩

theorem finishMatch_told {request_id matched_agent_id : Id} {sla_contract_id : Option Id}
    {state : MatchRequestStatus} (h : Told h₀ v.ext) (hreq : HasRequest request_id v) :
    (finishMatch request_id matched_agent_id sla_contract_id state).always (Steady c h₀)
      (fun _ v' => Told h₀ v'.ext) (fun _ v' => Untold h₀ v'.ext) v := by
  obtain ⟨req, hrow⟩ := Option.isSome_iff_exists.mp hreq
  refine always_bind (hookAttempt_told h ?_)
  refine always_bind (always_update (fun r _ _ _ _ => ?_) fun hmiss => ?_)
  · refine always_bind (hookAttempt_told h (always_bind (always_select ?_)))
    rw [DB.put_rows_self]
    exact h
  · exact absurd (hmiss req hrow) (by decide)

theorem createRequest_told {request_id contract_id deal_id requester_id : Id} {task_description : String}
    {required_capabilities : List String} {budget : ℚ} {currency : Token} {deadline_secs : ℤ}
    {min_rating : ℚ} {auto_assign : Bool} {best : Option Id} {template : Option SLATemplate}
    (hc : c.catches = true) (hv : v.ext = h₀) :
    (createRequest col request_id contract_id deal_id requester_id task_description required_capabilities
      budget currency deadline_secs min_rating auto_assign best template).always (Steady c h₀)
      (fun _ v' => Told h₀ v'.ext) (fun _ v' => Untold h₀ v'.ext) v := by
  have h : Told h₀ v.ext := .of_eq hv
  refine always_bind (always_now fun now => always_bind (hookAttempt_told h ?_))
  refine always_bind (always_create (fun _ _ _ => ?_) fun _ _ => .of_eq hv)
  refine always_bind (always_raiseIf nofun fun _ => always_bind (hookAttempt_told h ?_))
  cases best with
  | none => exact h
  | some matched_agent =>
      dsimp only
      split
      · refine always_bind (always_mono (createSlaForMatch_told hc h (hasRequest_put ..))
          (fun _ v₁ h₁ => ?_) fun _ _ h' => h')
        exact always_bind (finishMatch_told h₁.1 h₁.2)
      · exact always_bind (finishMatch_told h (hasRequest_put ..))

theorem acceptMatch_told {request_id contract_id deal_id requester_id : Id} {template : Option SLATemplate}
    (hc : c.catches = true) (hv : v.ext = h₀) :
    (acceptMatch col request_id contract_id deal_id requester_id template).always (Steady c h₀)
      (fun _ v' => Told h₀ v'.ext) (fun _ v' => Untold h₀ v'.ext) v := by
  have h : Told h₀ v.ext := .of_eq hv
  refine always_bind (hookAttempt_told h (always_bind (always_select ?_)))
  refine always_bind (always_orRaise (fun _ => .of_eq hv) fun req hrow => ?_)
  have hreq : HasRequest request_id v := by
    rw [HasRequest, hrow]
    rfl
  refine always_bind (always_raiseIf (fun _ => .of_eq hv) fun _ => ?_)
  refine always_bind (always_orRaise (fun _ => .of_eq hv) fun matched_agent_id _ => ?_)
  refine always_bind (always_mono (always_and (hooked_always _) (hooked_requests (only_stmt trivial)))
    (fun matched_agent v₁ h₁ => ?_) fun _ _ h₁ => .of_eq (h₁.1.1.trans hv))
  refine always_bind (always_orRaise (fun _ => .of_eq (h₁.1.trans hv)) fun _ _ => ?_)
  refine always_bind (always_mono (createSlaForMatch_told hc (h.congr h₁.1) (hreq.congr (h₁.2 _)))
    (fun _ v₂ h₂ => ?_) fun _ _ h' => h')
  exact always_bind (finishMatch_told h₂.1 h₂.2)

end Hooked

/-! ## The calls -/

variable (col : Columns) (floats : Floats)

/-- Every call tells all that it asks for, or raises before it has told anything. -/
theorem WebhookCall.body_told (c : WebhookCall) (hv : v.ext = h₀) :
    (c.body col floats).always (Steady c h₀) (fun _ v' => Told h₀ v'.ext)
      (fun _ v' => Untold h₀ v'.ext) v := by
  cases c with
  | createContract =>
      exact always_bind (first_always hv fun _ _ hv₁ => always_bind (tellBoth_last hv₁))
  | acceptContract => exact first_always hv fun _ _ hv₁ => tellBoth_last hv₁
  | deliverContract => exact first_always hv fun _ _ hv₁ => tellBoth_last hv₁
  | verifyContract => exact first_always hv fun _ _ hv₁ => tellBoth_last hv₁
  | disputeContract => exact first_always hv fun _ _ hv₁ => tellBoth_last hv₁
  | enforceSla => exact always_bind (Hooked.enforceSla_told hv)
  | openChannel => exact first_always hv fun _ _ hv₁ => .of_eq hv₁
  | close =>
      exact first_always hv fun _ _ hv₁ =>
        always_mono (queueWebhook_always (.of_eq hv₁)) (fun _ _ h => h.1) fun _ _ h => h.1
  | deliverMilestone =>
      exact first_always hv fun _ _ hv₁ => first_always hv₁ fun _ _ hv₂ => tellBoth_last hv₂
  | releaseMilestone =>
      exact first_always hv fun _ _ hv₁ => first_always hv₁ fun _ _ hv₂ => tellBoth_last hv₂
  | resolveExpired => exact always_bind (Hooked.resolveExpired_told rfl hv)
  | createMultiParty => exact Hooked.createMultiParty_told hv
  | fundLoan => exact first_always hv fun _ _ hv₁ => .of_eq hv₁
  | repayLoan => exact first_always hv fun _ _ hv₁ => .of_eq hv₁
  | createRequest => exact Hooked.createRequest_told rfl hv
  | acceptMatch => exact Hooked.acceptMatch_told rfl hv

end Rules

/-! ## Runs -/

section Runs

variable (col : Columns) (floats : Floats)

/-- A request of a run: the call, the environment's inputs to it, and the store on which it starts. -/
structure Visit where
  call : WebhookCall
  inputs : ℕ → Input hookSchema
  start : Store hookSchema

namespace Visit

/-- What the call returns or raises, and the store that it leaves. -/
def served (r : Visit) : Except Exn Unit × Store hookSchema :=
  (r.call.run col floats).serve r.inputs r.start

/-- Did the transaction of the call commit? -/
def committed (r : Visit) : Bool := (r.served col floats).1.isOk

/-- The events that the call has asked for. -/
def asked (r : Visit) : List Event :=
  (r.served col floats).2.ext.asked.drop r.start.ext.asked.length

/-- The rows of `webhook_events` after the call: the events of the call are among them if and only if its
transaction committed. -/
def Announced (r : Visit) : Prop :=
  (r.served col floats).2.ext.rows
    = r.start.ext.rows ++ if r.committed col floats then r.asked col floats else []

/-- Every statement of the request is steady. -/
def Steadily (r : Visit) : Prop :=
  (r.call.run col floats).meets (Steady r.call r.start.ext) r.inputs (Solo.ofStore r.start)

end Visit

/-- The requests of a run, one after another. -/
def visits : List (WebhookCall × (ℕ → Input hookSchema)) → Store hookSchema → List Visit
  | [], _ => []
  | (c, x) :: l, st => ⟨c, x, st⟩ :: visits l ((c.run col floats).serve x st).2

variable {col floats}

theorem Visit.Announced.of_steadily {r : Visit} (hwf : r.start.db.WF) (h : r.Steadily col floats) :
    r.Announced col floats := by
  have hrun : (r.call.run col floats).always (Steady r.call r.start.ext)
      (fun _ v' => Told r.start.ext v'.ext) (fun _ v' => Untold r.start.ext v'.ext)
      (Solo.ofStore r.start) := by
    refine always_withSession (always_mono (r.call.body_told col floats rfl) (fun _ v' ht => ⟨ht, ?_⟩)
      fun _ v' hu => hu)
    -- a commit that fails comes before the first event
    exact fun x hx hok => ht.untold fun hl => hx (hok.1 hl)
  obtain ⟨v, hv, -, hends⟩ := always_serve hrun hwf h
  rw [Announced, asked, committed, served, hv]
  cases hres : ((r.call.run col floats).serve r.inputs r.start).1 with
  | ok a =>
      rw [hres] at hends
      obtain ⟨new, hrows, hasked⟩ := hends
      show v.ext.rows = r.start.ext.rows ++ v.ext.asked.drop r.start.ext.asked.length
      rw [hrows, hasked, List.drop_left]
  | error e =>
      rw [hres] at hends
      show v.ext.rows = r.start.ext.rows ++ []
      rw [hends.1, List.append_nil]

theorem visits_wf {l : List (WebhookCall × (ℕ → Input hookSchema))} {st : Store hookSchema}
    (hst : st.db.WF) {r : Visit} (hr : r ∈ visits col floats l st) : r.start.db.WF := by
  induction l generalizing st with
  | nil => cases hr
  | cons a l ih =>
      obtain ⟨c, x⟩ := a
      rcases List.mem_cons.mp hr with rfl | hr
      · exact hst
      · exact ih (Prog.serve_wf _ x hst) hr

/-- The table of the events after a run whose requests have all announced what they did. -/
theorem rows_of_announced {l : List (WebhookCall × (ℕ → Input hookSchema))} {st : Store hookSchema}
    (h : ∀ r ∈ visits col floats l st, r.Announced col floats) :
    (serveAll (WebhookCall.run col floats) l st).ext.rows
      = st.ext.rows ++ (visits col floats l st).flatMap fun r =>
          if r.committed col floats then r.asked col floats else [] := by
  induction l generalizing st with
  | nil => simp [serveAll, visits]
  | cons a l ih =>
      obtain ⟨c, x⟩ := a
      have hfirst := h ⟨c, x, st⟩ (List.mem_cons_self ..)
      rw [serveAll, ih fun r hr => h r (List.mem_cons_of_mem _ hr), visits, List.flatMap_cons,
        ← List.append_assoc]
      rw [Visit.Announced] at hfirst
      rw [← hfirst]
      rfl

variable (col floats)

/-- **Webhooks follow commits** in a run of requests in which nothing fails after the first event of its
request: each request adds its events when its transaction commits, and else none, so that the table of the
events lists those of the requests that committed. -/
theorem webhooks_follow_commits (l : List (WebhookCall × (ℕ → Input hookSchema))) (st : Store hookSchema)
    (hst : st.db.WF) (h : ∀ r ∈ visits col floats l st, r.Steadily col floats) :
    (∀ r ∈ visits col floats l st, r.Announced col floats) ∧
      (serveAll (WebhookCall.run col floats) l st).ext.rows
        = st.ext.rows ++ (visits col floats l st).flatMap fun r =>
            if r.committed col floats then r.asked col floats else [] := by
  have hall : ∀ r ∈ visits col floats l st, r.Announced col floats := fun r hr =>
    .of_steadily (visits_wf hst hr) (h r hr)
  exact ⟨hall, rows_of_announced hall⟩

end Runs

/-! ## A contract that is accepted -/

/-- A request to which nothing fails is steady. -/
theorem meets_of_calm {c : WebhookCall} {h₀ : Hooks} {α : Type} (p : HookProgram α)
    {x : ℕ → Input hookSchema} (hx : ∀ n, (x n).choice = 0) (v : Solo hookSchema) :
    p.meets (Steady c h₀) x v := by
  induction p generalizing x v with
  | ret a => trivial
  | raise e => trivial
  | step s next ih => exact ⟨⟨fun _ => hx 0, fun _ _ _ => hx 0⟩, ih _ (fun n => hx (n + 1)) _⟩

def noFloats : Floats := ⟨fun _ _ => 0, fun _ => 0, fun _ _ => 0⟩

/-- One contract, which the agent 2 may accept. -/
def oneProposed : Store hookSchema where
  db := DB.put ⟨fun _ => none, [], []⟩ (HookKey.table (.slaContract 1))
    ({ provider_id := 2, consumer_id := 1, template_id := none, service_description := "report"
       deliverables := [], response_time_secs := 3600, delivery_time_secs := 3600, price := 1
       currency := .XMR, penalty_percent := 10, escrow_deal_id := none, state := .PROPOSED } : SLAContract)
  ext := { events := { db := ⟨fun k => k.elim, [], []⟩, ext := () } }

theorem oneProposed_wf : oneProposed.db.WF :=
  DB.WF.put ⟨List.nodup_nil, fun _ => by simp⟩ _ _

/-- The statement `n` fails. -/
def failAt (n : ℕ) : ℕ → Input hookSchema := fun m => { choice := if m = n then 1 else 0 }

/-- Both events are in the table, but the commit of the session fails: the contract is still `PROPOSED`. -/
theorem accepted_but_undone :
    let r : Visit := ⟨.acceptContract 1 2, failAt 12, oneProposed⟩
    r ∈ visits .rounding noFloats [(.acceptContract 1 2, failAt 12)] oneProposed ∧
      r.committed .rounding noFloats = false ∧
      ((r.served .rounding noFloats).2.db.rows (.table (.slaContract 1))).map SLAContract.state
        = some .PROPOSED ∧
      (r.served .rounding noFloats).2.ext.rows.map WebhookEvent.event_type
        = ["sla.contract.accepted", "sla.contract.accepted"] ∧
      ¬r.Announced .rounding noFloats := by
  refine ⟨List.mem_singleton.mpr rfl, by decide, by decide, by decide, fun h => ?_⟩
  have hlength := congrArg List.length h
  revert hlength
  decide

/-- Without a failure the acceptance is announced to both. -/
theorem webhooks_follow_commits_accepted :
    (∀ r ∈ visits .rounding noFloats [(.acceptContract 1 2, fun _ => {})] oneProposed,
      r.Announced .rounding noFloats) ∧
    (serveAll (WebhookCall.run .rounding noFloats) [(.acceptContract 1 2, fun _ => {})]
      oneProposed).ext.rows.length = 2 := by
  refine ⟨(webhooks_follow_commits .rounding noFloats _ oneProposed oneProposed_wf fun r hr => ?_).1,
    by decide⟩
  obtain rfl := List.mem_singleton.mp hr
  exact meets_of_calm _ (fun _ => rfl) _

end Sthrip
