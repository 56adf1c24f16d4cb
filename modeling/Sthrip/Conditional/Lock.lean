import Sthrip.Services.ConditionalPaymentService
import Sthrip.Txn.Record

set_option autoImplicit false

/-! # The lock of a conditional payment

Sessions that create, evaluate, trigger, cancel and sweep payments, interleaved in every way READ
COMMITTED allows. The amount of a payment should leave the lock once: to the recipient when the
payment is executed, to the sender when it is cancelled or expires.

Trigger and cancel lock the payment before they look at it, and the evaluation begins with the
guarded update. The sweep credits the sender first, and nobody looks at whether its update then
matches. `ExpiresPending pay` is the condition that it does: a session that sees the payment when
it expires it sees it pending. A sweep that runs alone meets it, and settles everything overdue.
-/

namespace Sthrip

open Txn Prog

/-! ## Outcomes -/

namespace ConditionalPayment

/-- What a payment was created with, as far as the money goes. -/
def terms (r : ConditionalPayment) : Id × Id × ℚ × Token :=
  (r.from_agent_id, r.to_agent_id, r.locked_amount, r.currency)

/-- The credit of an execution. -/
def payout (r : ConditionalPayment) (pay : Id) : Posting :=
  ⟨r.to_agent_id, r.currency, r.locked_amount, .conditional pay⟩

/-- The credit of a cancellation or an expiry. -/
def refund (r : ConditionalPayment) (pay : Id) : Posting :=
  ⟨r.from_agent_id, r.currency, r.locked_amount, .conditional pay⟩

theorem payout_of_terms {r r' : ConditionalPayment} (h : r.terms = r'.terms) (pay : Id) :
    r.payout pay = r'.payout pay := by
  simp only [terms, Prod.mk.injEq] at h
  rw [payout, payout, h.2.1, h.2.2.1, h.2.2.2]

theorem refund_of_terms {r r' : ConditionalPayment} (h : r.terms = r'.terms) (pay : Id) :
    r.refund pay = r'.refund pay := by
  simp only [terms, Prod.mk.injEq] at h
  rw [refund, refund, h.1, h.2.2.1, h.2.2.2]

/-- The state of a payment and the credits made for it fit together. -/
def Unlocked (r : ConditionalPayment) (pay : Id) (cs : List Posting) : Prop :=
  match r.state with
  | .PENDING => cs = []
  | .TRIGGERED => False
  | .EXECUTED => cs = [r.payout pay]
  | .EXPIRED => cs = [r.refund pay]
  | .CANCELLED => cs = [r.refund pay]

end ConditionalPayment

/-- What a journal entry put on a balance for a payment. -/
def Entry.lockCredit (pay : Id) : Entry → Option Posting
  | .posting p => if p.ref = .conditional pay then some p else none
  | _ => none

/-- The credits made for a payment. -/
def lockCredits (db : DB schema) (pay : Id) : List Posting := db.log.filterMap (Entry.lockCredit pay)

/-! ## The condition -/

/-- A session that sees the payment `pay` when it expires it sees it pending. -/
def ExpiresPending (pay : Id) : Store schema → Session schema → Stmt schema → Input schema → Prop
  | st, σ, .update (Key.conditional q) _ set, _ => q = pay → ∀ r : ConditionalPayment,
      σ.view st.db (Key.conditional q) = some r → (set r).state = .EXPIRED → r.state = .PENDING
  | _, _, _, _ => True

section Sessions

variable {pay : Id} {r₀ r r' : ConditionalPayment} {i : ℕ} {σ : Session schema}

abbrev LockRecord (pay : Id) := Record schema (Key.conditional pay) Posting
abbrev LockDraft (pay : Id) := Draft schema (Key.conditional pay) Posting

/-- The invariant: the payment is there with the terms of `r₀`, and its state fits its credits. -/
def OnceUnlocked (r₀ : ConditionalPayment) (E : LockRecord pay) : Prop :=
  ∃ r, E.row = some r ∧ r.terms = r₀.terms ∧ r.Unlocked pay E.entries

abbrev lockProtocol (pay : Id) (r₀ : ConditionalPayment) : Protocol schema Unit :=
  .ofRecord (Key.conditional pay) (Entry.lockCredit pay) (OnceUnlocked r₀) (ExpiresPending pay)

/-- What a session has of the payment. -/
abbrev lockDraft (pay : Id) (σ : Session schema) : LockDraft pay :=
  σ.draft (Key.conditional pay) (Entry.lockCredit pay)

abbrev HasTerms (r₀ r : ConditionalPayment) : Prop := r.terms = r₀.terms

theorem OnceUnlocked.hasTerms {E : LockRecord pay} (h : OnceUnlocked r₀ E) (r : ConditionalPayment)
    (hr : E.row = some r) : HasTerms r₀ r := by
  obtain ⟨r', hr', hterms, -⟩ := h
  obtain rfl := Option.some.inj (hr.symm.trans hr')
  exact hterms

/-! ## What a session may commit -/

/-- The payment leaves `PENDING` in the session, with its credit. -/
def Left (r₀ : ConditionalPayment) (D : LockDraft pay) : Prop :=
  ∃ r r', D.held = some ⟨some r, some r'⟩ ∧ r.state = .PENDING ∧ r'.state ≠ .PENDING ∧
    r'.terms = r₀.terms ∧ r'.Unlocked pay D.entries

theorem Left.ready {D : LockDraft pay} (h : Left r₀ D) : D.Ready (OnceUnlocked r₀) := by
  intro E hs
  obtain ⟨r, r', hheld, hpending, -, hterms, hunlocked⟩ := h
  obtain ⟨r'', hrow, -, hcredits⟩ := hs.fits
  obtain rfl : r'' = r := Option.some.inj (hrow.symm.trans (hs.agrees _ hheld))
  rw [ConditionalPayment.Unlocked, hpending] at hcredits
  have hview : D.view E = some r' := by rw [Draft.view, hheld]
  refine ⟨r', hview, hterms, ?_⟩
  show r'.Unlocked pay (E.entries ++ D.entries)
  rwa [hcredits, List.nil_append]

theorem Left.later {D D' : LockDraft pay} (h : Left r₀ D)
    (hl : D.Later (OnceUnlocked r₀) D') : Left r₀ D' := by
  obtain ⟨r, r', hheld, hrest⟩ := h
  exact ⟨r, r', hl.held.trans hheld, by rwa [hl.entries]⟩

/-- What a session does to the payment in the end. -/
structure LockDone (r₀ : ConditionalPayment) (D : LockDraft pay) : Prop where
  good : D.Good (HasTerms r₀)
  outcome : D.Fresh ∨ Left r₀ D

theorem LockDone.ready {D : LockDraft pay} (h : LockDone r₀ D) : D.Ready (OnceUnlocked r₀) :=
  h.outcome.elim (fun hf => hf.ready) fun hl => hl.ready

theorem LockDone.later {D D' : LockDraft pay} (h : LockDone r₀ D) (hl : D.Later (OnceUnlocked r₀) D') :
    LockDone r₀ D' :=
  ⟨h.good.later (fun _ => OnceUnlocked.hasTerms) hl, h.outcome.imp (fun hf => hl.fresh hf)
    fun hf => hf.later hl⟩

theorem done_blank : LockDone r₀ (.blank : LockDraft pay) :=
  ⟨Draft.good_blank, .inl Draft.fresh_blank⟩

/-! ## Calls about other payments -/

/-- The statement is not about the payment `pay`. -/
abbrev OffLock (pay : Id) : Stmt schema → Prop :=
  Stmt.off (· = Key.conditional pay) (Entry.lockCredit pay)

section Others

variable {q : Id} {col : Columns} {parse : Constructors}

theorem allows_lockBalance (agent_id : Id) (token : Token) :
    BalanceRepository.Allows (OffLock pay) agent_id token :=
  have hoff : Key.balance agent_id token ≠ Key.conditional pay := by simp
  ⟨hoff, hoff, fun _ => hoff⟩

theorem conditional_ne (hq : q ≠ pay) : Key.conditional q ≠ Key.conditional pay :=
  fun h => hq (Key.conditional.inj h)

theorem creditLock_only (hq : q ≠ pay) {agent_id : Id} {amount : ℚ} {token : Token} :
    (BalanceRepository.credit col agent_id amount token (.conditional q)).only (OffLock pay) :=
  BalanceRepository.credit_only (allows_lockBalance ..) (if_neg (by simpa using hq))

theorem transition_only (hq : q ≠ pay) {state : ConditionalPaymentState}
    {set : ConditionalPayment → ConditionalPayment} :
    (ConditionalPaymentRepository.transition state set q).only (OffLock pay) :=
  only_stmt (conditional_ne hq)

theorem refetchPayment_only (q : Id) (field : String) :
    (refetchPayment q field).only (OffLock pay) :=
  only_bind (only_stmt trivial) fun _ => only_orRaise

theorem executePayment_only (hq : q ≠ pay) :
    (ConditionalPaymentService.executePayment col q).only (OffLock pay) := by
  refine only_bind (only_stmt (conditional_ne hq)) fun payment => only_bind only_orRaise
    fun payment => ?_
  refine only_bind (creditLock_only hq) fun _ => ?_
  refine only_bind (only_bind (only_stmt trivial) fun _ => transition_only hq) fun executed => ?_
  exact only_bind only_raiseIf fun _ => refetchPayment_only q _

theorem attempt_only {α : Type} {x : Except Exn α} : (attempt x).only (OffLock pay) := by
  cases x with
  | ok a => trivial
  | error e => trivial

theorem getAvailable_only (agent_id : Id) (token : Token) :
    (BalanceRepository.getAvailable agent_id token).only (OffLock pay) :=
  BalanceRepository.getAvailable_only (allows_lockBalance ..) trivial

/-- Looking at a condition does nothing to any payment. -/
theorem conditionMet_only (now : Time) (payment : ConditionalPayment) :
    (ConditionalPaymentService.conditionMet parse now payment).only (OffLock pay) := by
  have caught : ∀ {c : Bool} (e : Exn),
      (if c then return false else .raise e : Program Bool).only (OffLock pay) := by
    intro c e
    split
    · trivial
    · trivial
  unfold ConditionalPaymentService.conditionMet
  simp only
  split
  · exact only_tryCatch (only_bind attempt_only fun release_at => trivial) fun e => caught e
  · refine only_tryCatch (only_bind attempt_only fun escrow_id => ?_) fun e => caught e
    refine only_bind (only_stmt trivial) fun deal => ?_
    split
    · trivial
    · trivial
  · refine only_tryCatch (only_bind attempt_only fun agent_id => ?_) fun e => caught e
    refine only_bind attempt_only fun threshold => ?_
    exact only_bind (getAvailable_only ..) fun balance => attempt_only
  · trivial

theorem evaluateOne_only (hq : q ≠ pay) (now : Time) (payment : ConditionalPayment) :
    (ConditionalPaymentService.evaluateOne col parse now q payment).only (OffLock pay) := by
  refine only_bind (conditionMet_only now payment) fun condition_met => ?_
  split
  · refine only_bind (only_bind (only_stmt trivial) fun _ => transition_only hq) fun triggered => ?_
    split
    · exact only_bind (executePayment_only hq) fun _ => trivial
    · trivial
  · trivial

theorem triggerWebhook_only (hq : q ≠ pay) (agent_id : Id) :
    (ConditionalPaymentService.triggerWebhook col q agent_id).only (OffLock pay) := by
  refine only_bind (only_stmt (conditional_ne hq)) fun payment => only_bind only_orRaise
    fun payment => ?_
  refine only_bind only_raiseIf fun _ => only_bind only_raiseIf fun _ => ?_
  refine only_bind (only_bind (only_stmt trivial) fun _ => transition_only hq) fun triggered => ?_
  exact only_bind only_raiseIf fun _ => executePayment_only hq

theorem cancelLock_only (hq : q ≠ pay) (agent_id : Id) :
    (ConditionalPaymentService.cancel col agent_id q).only (OffLock pay) := by
  refine only_bind (only_stmt (conditional_ne hq)) fun payment => only_bind only_orRaise
    fun payment => ?_
  refine only_bind only_raiseIf fun _ => only_bind only_raiseIf fun _ => ?_
  refine only_bind (creditLock_only hq) fun _ => only_bind (transition_only hq) fun cancelled => ?_
  exact only_bind only_raiseIf fun _ => refetchPayment_only q _

theorem expireLock_only (hq : q ≠ pay) (payment : ConditionalPayment) :
    (ConditionalPaymentService.expireOne col q payment).only (OffLock pay) :=
  only_bind (creditLock_only hq) fun _ => transition_only hq

theorem deductLock_only {agent_id : Id} {amount : ℚ} {token : Token} :
    (BalanceRepository.deduct col agent_id amount token .other).only (OffLock pay) :=
  BalanceRepository.deduct_only (allows_lockBalance ..) rfl

theorem validateConditionConfig_only (condition_type : String) (config : List (String × Json)) :
    (validateConditionConfig condition_type config).only (OffLock pay) :=
  only_forEach _ fun _ => only_raiseIf

end Others

/-! ## Statements -/

section Statements

variable {col : Columns} {parse : Constructors} {D : LockDraft pay}

/-- The end of a method's session: it may commit what it did to the payment. -/
abbrev Unlocks (pay : Id) (r₀ : ConditionalPayment) {α : Type} :
    α → Session schema → Unit → Prop :=
  fun _ σ _ => LockDone r₀ (lockDraft pay σ)

theorem draft_of_frame {σ' : Session schema} {l : List Entry}
    (fr : BalanceRepository.Frame σ σ' l) (hD : lockDraft pay σ = D) :
    lockDraft pay σ' = D.post (l.filterMap (Entry.lockCredit pay)) :=
  hD ▸ draft_append (fr.held _ (by simp)) (fr.loaded _ (by simp)) fr.inserted

/-- A credit for the payment. -/
theorem creditLock_safe {agent_id : Id} {amount : ℚ} {token : Token}
    {Q : AgentBalance → Session schema → Unit → Prop} (hD : lockDraft pay σ = D)
    (h : ∀ b σ', lockDraft pay σ' = D.post [⟨agent_id, token, amount, .conditional pay⟩] →
      Q b σ' ()) :
    (BalanceRepository.credit col agent_id amount token (.conditional pay)).safe
      (lockProtocol pay r₀) i Q Raised σ () := by
  refine BalanceRepository.credit_frame (fun b σ' fr => h b σ' ?_) fun _ _ => trivial
  rw [draft_of_frame fr hD]
  simp [Entry.lockCredit]

/-- The payment is locked. -/
theorem lockPayment_safe {α : Type} {next : ConditionalPayment → Program α}
    {Q : α → Session schema → Unit → Prop}
    (hD : lockDraft pay σ = D) (hgood : D.Good (HasTerms r₀))
    (h : ∀ (E : LockRecord pay) r o σ', D.Sees (OnceUnlocked r₀) E → D.view E = some r →
      o = D.loaded.getD r → HasTerms r₀ o →
      lockDraft pay σ' = ⟨some ⟨E.row, some r⟩, some o, D.entries⟩ →
      (next o).safe (lockProtocol pay r₀) i Q Raised σ' ()) :
    (do
      let payment ← ConditionalPaymentRepository.getByIdForUpdate pay
      let payment ← orRaise (.LookupError "Conditional payment not found") payment
      next payment).safe (lockProtocol pay r₀) i Q Raised σ () := by
  refine safe_bind (safe_recordLock hD fun st E x σ' _ hs _ hdraft => ?_)
  refine safe_bind (safe_orRaise (fun _ => trivial) fun o ho => ?_)
  have hterms : HasTerms r₀ o := hgood.object (fun _ => OnceUnlocked.hasTerms) hs ho
  obtain ⟨r, hv, rfl⟩ := Option.map_eq_some_iff.mp ho
  refine h E r _ σ' hs hv rfl hterms ?_
  rw [Draft.lock, hv, hs.base] at hdraft
  exact hdraft

/-- A transition of the payment: it leaves the state the session sees it in. -/
theorem lockTransition_safe {state : ConditionalPaymentState}
    {set : ConditionalPayment → ConditionalPayment} {Q : Bool → Session schema → Unit → Prop}
    (hset : ∀ r, (set r).terms = r.terms) (hD : lockDraft pay σ = D)
    (hgood : D.Good (HasTerms r₀))
    (hit : ∀ (E : LockRecord pay) r σ', D.Sees (OnceUnlocked r₀) E → D.view E = some r →
      r.state = state → HasTerms r₀ (set r) → (lockDraft pay σ').Good (HasTerms r₀) →
      (lockDraft pay σ').held = some ⟨E.row, some (set r)⟩ →
      (lockDraft pay σ').entries = D.entries → Q true σ' ())
    (miss : ∀ (st : Store schema) (E : LockRecord pay) x σ',
      st.db.record _ (Entry.lockCredit pay) = E → D.Sees (OnceUnlocked r₀) E →
      ExpiresPending pay st σ (.update (Key.conditional pay) (fun row => row.state = state) set) x →
      (∀ r, D.view E = some r → r.state ≠ state) →
      (lockDraft pay σ').Good (HasTerms r₀) → (lockDraft pay σ').held = D.held →
      (lockDraft pay σ').entries = D.entries → Q false σ' ()) :
    (ConditionalPaymentRepository.transition state set pay).safe (lockProtocol pay r₀) i Q Raised σ
      () := by
  refine safe_recordTransition (fun _ => OnceUnlocked.hasTerms)
    (fun r hr => (hset r).trans hr) hD hgood (fun E r σ' hs hv hg hgood' hheld hentries => ?_)
    fun st E x σ' hE hs hok hmiss => miss st E x σ' hE hs hok fun r hr =>
      of_decide_eq_false (hmiss r hr)
  exact hit E r σ' hs hv (of_decide_eq_true hg)
    ((hset r).trans (hgood.view (fun _ => OnceUnlocked.hasTerms) hs hv)) hgood' hheld hentries

theorem refetchPayment_safe {field : String} (hdone : LockDone r₀ (lockDraft pay σ)) :
    (refetchPayment pay field).safe (lockProtocol pay r₀) i (Unlocks pay r₀) Raised σ () :=
  safe_apart (refetchPayment_only pay field) rfl (fun _ _ hl => hdone.later hl) fun _ _ => trivial

/-! ### Methods -/

/-- The execution of a payment that the session has triggered. -/
theorem executePayment_safe (hgood : (lockDraft pay σ).Good (HasTerms r₀))
    (hheld : (lockDraft pay σ).held = some ⟨some r, some r'⟩) (hpending : r.state = .PENDING)
    (hstate : r'.state = .TRIGGERED) (hentries : (lockDraft pay σ).entries = []) :
    (ConditionalPaymentService.executePayment col pay).safe (lockProtocol pay r₀) i
      (Unlocks pay r₀) Raised σ () := by
  have hview : ∀ {D : LockDraft pay} {E : LockRecord pay} {r₁ : ConditionalPayment},
      D.held = some ⟨some r, some r'⟩ → D.view E = some r₁ → r₁ = r' := by
    intro D E r₁ hh hv
    rw [Draft.view, hh] at hv
    exact (Option.some.inj hv).symm
  refine lockPayment_safe rfl hgood fun E r₁ o σ₁ hs hv _ ho h₁ => ?_
  obtain rfl := hview hheld hv
  have hrow : E.row = some r := hs.agrees _ hheld
  rw [hrow, hentries] at h₁
  refine safe_bind (creditLock_safe h₁ fun _ σ₂ h₂ => ?_)
  have hterms : HasTerms r₀ r₁ := hgood.own _ r₁ hheld rfl
  have hgood₂ : (lockDraft pay σ₂).Good (HasTerms r₀) := by
    rw [h₂]
    refine ⟨fun hd r₂ hh hr₂ => ?_, fun o' ho' => ?_⟩
    · obtain rfl := Option.some.inj hh
      obtain rfl := Option.some.inj hr₂
      exact hterms
    · obtain rfl := Option.some.inj ho'
      exact ho
  have hheld₂ : (lockDraft pay σ₂).held = some ⟨some r, some r₁⟩ := by rw [h₂]; rfl
  have hentries₂ : (lockDraft pay σ₂).entries = [r₁.payout pay] := by
    rw [h₂, ConditionalPayment.payout_of_terms (hterms.trans ho.symm)]
    rfl
  refine safe_bind (safe_bind (safe_now fun t => lockTransition_safe (fun _ => rfl) rfl hgood₂
    (fun E' r₃ σ₃ hs' hv' _ hterms₃ hgood₃ hheld₃ hentries₃ => ?_)
    fun st E' x σ₃ _ hs' _ hmiss _ _ _ => ?_))
  · obtain rfl := hview hheld₂ hv'
    refine safe_bind (safe_raiseIf (fun _ => trivial) fun _ => refetchPayment_safe ⟨hgood₃, .inr ?_⟩)
    have hrow' : E'.row = some r := hs'.agrees _ hheld₂
    refine ⟨r, _, by rw [hheld₃, hrow'], hpending, by simp, hterms₃, ?_⟩
    rw [hentries₃, hentries₂]
    rfl
  · exact absurd hstate (hmiss r₁ (by rw [Draft.view, hheld₂]))

/-- A session that begins by locking the payment. -/
theorem lockFirst_safe {α : Type} {next : ConditionalPayment → Program α}
    {Q : α → Session schema → Unit → Prop}
    (h : ∀ r σ', HasTerms r₀ r → (lockDraft pay σ').Good (HasTerms r₀) →
      (lockDraft pay σ').held = some ⟨some r, some r⟩ → (lockDraft pay σ').entries = [] →
      (next r).safe (lockProtocol pay r₀) i Q Raised σ' ()) :
    (do
      let payment ← ConditionalPaymentRepository.getByIdForUpdate pay
      let payment ← orRaise (.LookupError "Conditional payment not found") payment
      next payment).safe (lockProtocol pay r₀) i Q Raised Session.start () := by
  refine safe_bind (safe_recordLockFirst (fun _ => OnceUnlocked.hasTerms) rfl
    (fun E σ' hE hrow _ => ?_) fun r σ' hr hgood hheld hentries => ?_)
  · trivial
  · exact safe_bind (h r σ' hr hgood hheld hentries)

theorem triggerWebhook_safe (agent_id : Id) :
    (ConditionalPaymentService.triggerWebhook col pay agent_id).safe (lockProtocol pay r₀) i
      (Unlocks pay r₀) Raised Session.start () := by
  refine lockFirst_safe fun r σ₁ hterms hgood₁ hheld₁ hentries₁ => ?_
  refine safe_bind (safe_raiseIf (fun _ => trivial) fun _ => ?_)
  refine safe_bind (safe_raiseIf (fun _ => trivial) fun hpending => ?_)
  refine safe_bind (safe_bind (safe_now fun t => lockTransition_safe (fun _ => rfl) rfl hgood₁
    (fun E r' σ₂ hs hv hstate _ hgood₂ hheld₂ hentries₂ => ?_)
    fun st E x σ₂ _ _ _ _ _ _ _ => safe_bind (safe_raiseIf (fun _ => trivial)
      fun hf => absurd rfl hf)))
  have hrow : E.row = some r := hs.agrees _ hheld₁
  refine safe_bind (safe_raiseIf (fun _ => trivial) fun _ => ?_)
  exact executePayment_safe hgood₂ (by rw [hheld₂, hrow]) (not_not.mp hpending) rfl
    (hentries₂.trans hentries₁)

theorem cancelLock_safe (agent_id : Id) :
    (ConditionalPaymentService.cancel col agent_id pay).safe (lockProtocol pay r₀) i
      (Unlocks pay r₀) Raised Session.start () := by
  refine lockFirst_safe fun r σ₁ hterms hgood₁ hheld₁ hentries₁ => ?_
  refine safe_bind (safe_raiseIf (fun _ => trivial) fun _ => ?_)
  refine safe_bind (safe_raiseIf (fun _ => trivial) fun hpending => ?_)
  refine safe_bind (creditLock_safe rfl fun _ σ₂ h₂ => ?_)
  have hgood₂ : (lockDraft pay σ₂).Good (HasTerms r₀) := h₂ ▸ hgood₁.post _
  have hheld₂ : (lockDraft pay σ₂).held = some ⟨some r, some r⟩ := by rw [h₂]; exact hheld₁
  have hentries₂ : (lockDraft pay σ₂).entries = [r.refund pay] := by
    rw [h₂, Draft.post, hentries₁]
    rfl
  refine safe_bind (lockTransition_safe (fun _ => rfl) rfl hgood₂
    (fun E r' σ₃ hs hv _ hterms' hgood₃ hheld₃ hentries₃ => ?_)
    fun st E x σ₃ _ _ _ _ _ _ _ => safe_bind (safe_raiseIf (fun _ => trivial)
      fun hf => absurd rfl hf))
  obtain rfl : r = r' := by
    rw [Draft.view, hheld₂] at hv
    exact Option.some.inj hv
  have hrow : E.row = some r := hs.agrees _ hheld₂
  refine safe_bind (safe_raiseIf (fun _ => trivial) fun _ => refetchPayment_safe ⟨hgood₃, .inr ?_⟩)
  refine ⟨r, _, by rw [hheld₃, hrow], not_not.mp hpending, by simp, hterms', ?_⟩
  rw [hentries₃, hentries₂]
  rfl

/-- The sweep of the payment, by a session that has done nothing about it. -/
theorem expireLock_safe {o : ConditionalPayment} (hterms : HasTerms r₀ o)
    (hgood : (lockDraft pay σ).Good (HasTerms r₀)) (hfresh : (lockDraft pay σ).Fresh) :
    (ConditionalPaymentService.expireOne col pay o).safe (lockProtocol pay r₀) i
      (Unlocks pay r₀) Raised σ () := by
  refine safe_bind (creditLock_safe rfl fun _ σ₁ h₁ => ?_)
  have hgood₁ : (lockDraft pay σ₁).Good (HasTerms r₀) := h₁ ▸ hgood.post _
  -- the credit changes nothing the session sees of the row
  have hrow : ∀ {E : LockRecord pay}, (lockDraft pay σ₁).Sees (OnceUnlocked r₀) E →
      (lockDraft pay σ₁).view E = E.row := by
    intro E hs
    rw [h₁] at hs ⊢
    exact hfresh.view ⟨hs.fits, hs.agrees⟩
  refine lockTransition_safe (fun _ => rfl) rfl hgood₁
    (fun E r σ₂ hs hv hpending hterms₂ hgood₂ hheld₂ hentries₂ => ⟨hgood₂, .inr ?_⟩)
    fun st E x σ₂ hE hs hok hmiss _ _ _ => ?_
  · refine ⟨r, _, ?_, hpending, by simp, hterms₂, ?_⟩
    · rw [hheld₂, ← hrow hs, hv]
    · rw [hentries₂, h₁, Draft.post, hfresh.entries, List.nil_append]
      show [o.refund pay] = [ConditionalPayment.refund _ pay]
      rw [ConditionalPayment.refund_of_terms (hterms.trans hterms₂.symm)]
  · obtain ⟨r, hr, -⟩ := hs.fits
    have hv : (lockDraft pay σ₁).view E = some r := (hrow hs).trans hr
    refine absurd (hok rfl r ?_ rfl) (hmiss r hv)
    rw [view_record rfl hE]
    exact hv

theorem asConditional_eq_some (x : Σ k : Key, Row k) (a : Id × ConditionalPayment) :
    ConditionalPaymentRepository.asConditional x = some a ↔ x = ⟨Key.conditional a.1, a.2⟩ := by
  obtain ⟨k, r⟩ := x
  constructor
  · intro ha
    cases k with
    | conditional q =>
        obtain rfl := Option.some.inj ha
        rfl
    | _ => cases ha
  · rintro ⟨⟩
    rfl

/-- A query for pending payments. -/
theorem listed_safe {p : (k : Key) → Row k → Bool}
    {Q : List (Σ k : Key, Row k) → Session schema → Unit → Prop} (hdone : LockDone r₀ (lockDraft pay σ))
    (hp : ∀ r : ConditionalPayment, p (.conditional pay) r = true → r.state = .PENDING)
    (h : ∀ rows σ',
      ((rows.filterMap ConditionalPaymentRepository.asConditional).map Prod.fst).Nodup →
      LockDone r₀ (lockDraft pay σ') →
      (∀ a ∈ rows.filterMap ConditionalPaymentRepository.asConditional, a.1 = pay →
        HasTerms r₀ a.2 ∧ (lockDraft pay σ').Fresh) → Q rows σ' ()) :
    (query (S := schema) p).safe (lockProtocol pay r₀) i Q Raised σ () := by
  refine safe_recordQuery rfl fun l σ' hl hnodup hseen => h l σ' ?_ (hdone.later hl) ?_
  · exact nodup_filterMap_rows (S := schema) asConditional_eq_some (fun a b hab => by rw [hab]) hnodup
  · rintro ⟨q, o⟩ ha rfl
    rw [mem_filterMap_rows (S := schema) asConditional_eq_some] at ha
    obtain ⟨ho, E, r, hs, hv, hmatch⟩ := hseen o ha
    refine ⟨hdone.good.seen (fun _ => OnceUnlocked.hasTerms) ho, ?_⟩
    rcases hdone.outcome with hfresh | ⟨r₁, r₂, hheld, -, hleft, -⟩
    · exact hl.fresh hfresh
    · -- a payment that has left `PENDING` in this session is not listed
      rw [Draft.view, hheld] at hv
      obtain rfl : r₂ = r := Option.some.inj hv
      exact absurd (hp r₂ hmatch) hleft

theorem expireStaleLock_safe (hdone : LockDone r₀ (lockDraft pay σ)) :
    (ConditionalPaymentService.expireStale col).safe (lockProtocol pay r₀) i (Unlocks pay r₀) Raised
      σ () := by
  refine safe_bind (safe_bind (safe_now fun t => ?_))
  refine safe_bind (listed_safe hdone (fun r hr => ?_) fun rows σ' hnodup hdone' hl => ?_)
  · simp only [ConditionalPaymentRepository.hasExpired, decide_eq_true_eq] at hr
    exact hr.1
  · refine safe_sweep Prod.fst pay hnodup rfl (fun _ _ h hl => h.later hl)
      (fun a ha => expireLock_only ha a.2) (fun a ha hme σ₁ hlater => ?_) hdone' fun _ _ => trivial
    obtain ⟨q, o⟩ := a
    obtain rfl : q = pay := hme
    obtain ⟨hterms, hfresh⟩ := hl _ ha rfl
    exact expireLock_safe hterms (hdone'.later hlater).good (hlater.fresh hfresh)

theorem evaluateLock_safe {o : ConditionalPayment} (now : Time) (hdone : LockDone r₀ (lockDraft pay σ))
    (hfresh : (lockDraft pay σ).Fresh) :
    (ConditionalPaymentService.evaluateOne col parse now pay o).safe (lockProtocol pay r₀) i
      (Unlocks pay r₀) Raised σ () := by
  refine safe_bind (safe_apart (conditionMet_only now o) rfl (fun condition_met σ₁ h₁ => ?_)
    fun _ _ => trivial)
  have hdone₁ := hdone.later h₁
  have hfresh₁ := h₁.fresh hfresh
  split
  · refine safe_bind (safe_bind (safe_now fun t => lockTransition_safe (fun _ => rfl) rfl hdone₁.good
      (fun E r σ₂ hs hv hpending _ hgood₂ hheld₂ hentries₂ => ?_)
      fun st E x σ₂ _ _ _ _ hgood₂ hheld₂ hentries₂ => ?_))
    · rw [if_pos rfl]
      rw [← hfresh₁.view hs, hv] at hheld₂
      exact safe_bind (executePayment_safe hgood₂ hheld₂ hpending rfl
        (hentries₂.trans hfresh₁.entries))
    · rw [if_neg (by simp)]
      exact ⟨hgood₂, .inl ⟨hentries₂.trans hfresh₁.entries,
        fun hd hh => hfresh₁.held hd (hheld₂.symm.trans hh)⟩⟩
  · exact hdone₁

theorem evaluateConditions_safe :
    (ConditionalPaymentService.evaluateConditions col parse).safe (lockProtocol pay r₀) i
      (Unlocks pay r₀) Raised Session.start () := by
  refine safe_bind (listed_safe (σ := Session.start) done_blank (fun r hr => ?_)
    fun rows σ' hnodup hdone' hl => ?_)
  · exact of_decide_eq_true hr
  · refine safe_bind (safe_now fun now => ?_)
    refine safe_sweep Prod.fst pay hnodup rfl (fun _ _ h hl => h.later hl)
      (fun a ha => evaluateOne_only ha now a.2) (fun a ha hme σ₁ hlater => ?_) hdone'
      fun _ _ => trivial
    obtain ⟨q, o⟩ := a
    obtain rfl : q = pay := hme
    exact evaluateLock_safe now (hdone'.later hlater) (hlater.fresh (hl _ ha rfl).2)

/-- A payment is created once. The payment `pay` is there already. -/
theorem createConditional_safe (q from_agent_id to_agent_id : Id) (amount : ℚ) (currency : Token)
    (condition_type : String) (condition_config : List (String × Json)) (expires_hours : ℤ)
    (memo : Option String) :
    (ConditionalPaymentService.createConditional col q from_agent_id to_agent_id amount currency
      condition_type condition_config expires_hours memo).safe (lockProtocol pay r₀) i
      (Unlocks pay r₀) Raised Session.start () := by
  refine safe_bind (safe_raiseIf (fun _ => trivial) fun _ => ?_)
  refine safe_bind (safe_raiseIf (fun _ => trivial) fun _ => ?_)
  refine safe_bind (safe_apart (validateConditionConfig_only ..) rfl (fun _ σ₁ h₁ => ?_)
    fun _ _ => trivial)
  refine safe_bind (safe_apart deductLock_only rfl (fun _ σ₂ h₂ => safe_bind (safe_now fun t => ?_))
    fun _ _ => trivial)
  have hlater := h₁.trans h₂
  have hdone₂ : LockDone r₀ (lockDraft pay σ₂) := done_blank.later hlater
  by_cases hq : q = pay
  · subst hq
    refine safe_bind (safe_create (fun st γ hs hv => ?_) fun _ _ _ _ _ =>
      safe_bind (safe_raiseIf (fun _ => trivial) fun hf => absurd rfl hf))
    have hinv : OnceUnlocked r₀ (st.db.record (Key.conditional q) (Entry.lockCredit q)) := hs.inv
    obtain ⟨r, hr, -⟩ := hinv
    have hheld : σ₂.held (Key.conditional q) = none := hlater.held
    rw [Session.view_of_not_held hheld] at hv
    exact absurd (hv.symm.trans hr) (by simp)
  · have hcreate : (ConditionalPaymentRepository.create col q from_agent_id to_agent_id amount
        condition_type condition_config amount (t + hours (max expires_hours 0)) currency memo).only
        (OffLock pay) := by
      refine only_bind (only_stmt (conditional_ne hq)) fun inserted => ?_
      exact only_bind only_raiseIf fun _ => trivial
    exact safe_apart hcreate rfl (fun _ _ hl => hdone₂.later hl) fun _ _ => trivial

theorem ConditionalCall.run_safe (call : ConditionalCall) :
    (call.run col parse).safe (lockProtocol pay r₀) i (fun _ _ _ => True) (fun _ _ _ => True)
      Session.start () := by
  have off : ∀ {p : Program Unit}, p.only (OffLock pay) →
      p.safe (lockProtocol pay r₀) i (Unlocks pay r₀) Raised Session.start () := fun hp =>
    safe_apart hp rfl (fun _ _ hl => done_blank.later hl) fun _ _ => trivial
  have body : (call.body col parse).safe (lockProtocol pay r₀) i (Unlocks pay r₀) Raised
      Session.start () := by
    cases call with
    | createConditional q from_agent_id to_agent_id amount currency condition_type config
        expires_hours memo => exact safe_bind (createConditional_safe ..)
    | evaluateConditions => exact safe_bind evaluateConditions_safe
    | triggerWebhook q agent_id =>
        by_cases hq : q = pay
        · subst hq
          exact safe_bind (triggerWebhook_safe agent_id)
        · exact off (only_bind (triggerWebhook_only hq agent_id) fun _ => trivial)
    | cancel agent_id q =>
        by_cases hq : q = pay
        · subst hq
          exact safe_bind (cancelLock_safe agent_id)
        · exact off (only_bind (cancelLock_only hq agent_id) fun _ => trivial)
    | expireStale => exact safe_bind (expireStaleLock_safe done_blank)
    | loop =>
        refine safe_bind (safe_mono evaluateConditions_safe (fun _ σ _ h => ?_) fun _ _ _ h => h)
        exact safe_bind (expireStaleLock_safe h)
  exact safe_withSession (safe_mono body (fun _ _ _ h => ⟨record_commits h.ready, trivial⟩)
    fun _ _ _ _ => trivial)

end Statements

end Sessions

/-! ## All interleavings -/

/-- **The lock opens once.** Start from any database with a pending payment between two agents
that has made no credit. In every interleaving in which a session that sees the payment when it
expires it sees it pending, the credits made for the payment never exceed the locked amount, the
recipient has been credited iff the payment is executed, and the sender has been refunded iff it
is cancelled or expired. -/
theorem conditional_unlocks_once (pay : Id) (col : Columns) (parse : Constructors)
    {st₀ : Store schema} (hwf : st₀.db.WF) {r₀ : ConditionalPayment}
    (hr₀ : st₀.db.rows (Key.conditional pay) = some r₀) (hs₀ : r₀.state = .PENDING)
    (hagents : r₀.from_agent_id ≠ r₀.to_agent_id) (hnew : lockCredits st₀.db pay = [])
    (calls : ℕ → ConditionalCall) {c : Config schema Unit}
    (hc : Config.Reaches (ExpiresPending pay)
      (Config.start st₀ fun i => (calls i).run col parse) c) :
    (0 ≤ r₀.locked_amount →
      ((lockCredits c.store.db pay).map (·.amount)).sum ≤ r₀.locked_amount) ∧
    ∃ r, c.store.db.rows (Key.conditional pay) = some r ∧
      ((∃ p ∈ lockCredits c.store.db pay, p.agent_id = r₀.to_agent_id) ↔ r.state = .EXECUTED) ∧
      ((∃ p ∈ lockCredits c.store.db pay, p.agent_id = r₀.from_agent_id) ↔
        r.state = .CANCELLED ∨ r.state = .EXPIRED) := by
  have hstart : OnceUnlocked r₀ (st₀.db.record (Key.conditional pay) (Entry.lockCredit pay)) := by
    refine ⟨r₀, hr₀, rfl, ?_⟩
    rw [ConditionalPayment.Unlocked, hs₀]
    exact hnew
  obtain ⟨γ, hγ⟩ := Config.invariant (P := lockProtocol pay r₀) (γ := fun _ => ()) hwf hstart
    (fun i => (calls i).run_safe) hc
  obtain ⟨r, hr, hterms, hunlocked⟩ := hγ
  have hcredits : r.Unlocked pay (lockCredits c.store.db pay) := hunlocked
  simp only [ConditionalPayment.terms, Prod.mk.injEq] at hterms
  obtain ⟨hfrom, hto, hamount, -⟩ := hterms
  have hto' : (r.payout pay).agent_id = r₀.to_agent_id := hto
  have hfrom' : (r.refund pay).agent_id = r₀.from_agent_id := hfrom
  have hpaid : (r.payout pay).amount = r₀.locked_amount := hamount
  have hrefunded : (r.refund pay).amount = r₀.locked_amount := hamount
  refine ⟨fun hpositive => ?_, r, hr, ?_, ?_⟩
  · cases hs : r.state <;> simp only [ConditionalPayment.Unlocked, hs] at hcredits <;>
      simp [hcredits, hpositive, hpaid, hrefunded]
  · cases hs : r.state <;> simp only [ConditionalPayment.Unlocked, hs] at hcredits <;>
      simp [hcredits, hto', hfrom', hagents]
  · cases hs : r.state <;> simp only [ConditionalPayment.Unlocked, hs] at hcredits <;>
      simp [hcredits, hto', hfrom', Ne.symm hagents]

/-! ### Two schedules -/

/-- Agent 1 has locked five units for agent 2, until the second hour. -/
def lockedFive : Store schema where
  db :=
    { rows := fun
        | .balance id token => if id = 1 ∧ token = .XMR then some {} else none
        | .conditional id =>
            if id = 1 then some
              { from_agent_id := 1, to_agent_id := 2, amount := 5, condition_type := "webhook"
                condition_config := [], locked_amount := 5, expires_at := hours 2 }
            else none
        | _ => none
      keys := [.balance 1 .XMR, .conditional 1]
      log := [] }
  ext := default

theorem lockedFive_wf : lockedFive.db.WF := by
  refine ⟨by decide, fun k => ?_⟩
  cases k with
  | balance id token => by_cases h : id = 1 ∧ token = .XMR <;> simp [lockedFive, h]
  | conditional id => by_cases h : id = 1 <;> simp [lockedFive, h]
  | _ => simp [lockedFive]

/-- The webhook fires, and the sweep comes. -/
def triggerAndSweep : ℕ → ConditionalCall
  | 0 => .triggerWebhook 1 1
  | _ => .expireStale

/-- No condition here is read off a configuration. -/
def readsNothing : Constructors where
  fromisoformat _ := .error (.TypeError "fromisoformat: argument must be str")
  uuid _ := .error (.ValueError "badly formed hexadecimal UUID string")
  decimal _ := .error (.ArithmeticError "InvalidOperation")

/-- The test that a schedule ends in the given state with the credits `ps`. -/
def unlocksWith (l : List (ℕ × Input schema)) (state : ConditionalPaymentState)
    (ps : List Posting) : Bool :=
  (Config.trace l (.start lockedFive fun i => (triggerAndSweep i).run .rounding readsNothing)).any
    fun c => ((c.store.db.rows (Key.conditional 1)).any fun r => r.state = state) ∧
      lockCredits c.store.db 1 = ps

theorem exists_of_unlocksWith {l : List (ℕ × Input schema)} {state : ConditionalPaymentState}
    (ps : List Posting) (h : unlocksWith l state ps = true) :
    ∃ (c : Config schema Unit) (r : ConditionalPayment),
      Config.trace l (.start lockedFive fun i => (triggerAndSweep i).run .rounding readsNothing)
        = some c ∧
      c.store.db.rows (Key.conditional 1) = some r ∧ r.state = state ∧
      lockCredits c.store.db 1 = ps := by
  simp only [unlocksWith, Option.any_eq_true, decide_eq_true_eq] at h
  obtain ⟨c, hc, ⟨r, hr, hs⟩, hps⟩ := h
  exact ⟨c, r, hc, hr, hs, hps⟩

def expiresPending : Store schema → Session schema → Stmt schema → Input schema → Bool
  | st, σ, .update (Key.conditional q) _ set, _ => (σ.view st.db (Key.conditional q)).all fun r =>
      (set r).state ≠ .EXPIRED ∨ r.state = .PENDING
  | _, _, _, _ => true

theorem expiresPending_of_test (pay : Id) (st : Store schema) (σ : Session schema)
    (s : Stmt schema) (x : Input schema) (h : expiresPending st σ s x = true) :
    ExpiresPending pay st σ s x := by
  unfold ExpiresPending
  split
  · intro _ r hr hset
    simpa [expiresPending, hr, hset] using h
  · trivial

/-- The sweep comes first. -/
theorem conditional_unlocks_once_expired :
    ∃ p ∈ [(⟨1, .XMR, 5, .conditional 1⟩ : Posting)], p.agent_id = 1 := by
  obtain ⟨c, r, hc, hr, hs, hps⟩ := exists_of_unlocksWith (l := turn 1 8 3)
    [⟨1, .XMR, 5, .conditional 1⟩] (by decide +kernel : unlocksWith _ .EXPIRED _ = true)
  have hreach := Config.reaches_of_trace expiresPending (expiresPending_of_test 1) (turn 1 8 3)
    .refl (by decide +kernel) hc
  obtain ⟨-, r', hr', -, hrefunded⟩ := conditional_unlocks_once 1 .rounding readsNothing
    lockedFive_wf rfl rfl (by decide) rfl triggerAndSweep hreach
  obtain rfl : r = r' := Option.some.inj (hr.symm.trans hr')
  rw [hps] at hrefunded
  exact hrefunded.mpr (.inr hs)

/-- The sweep has listed the payment when the webhook fires: the recipient is paid, and the sender
is refunded. -/
theorem conditional_paid_and_refunded : ¬∀ (pay : Id) (st₀ : Store schema)
    (r₀ : ConditionalPayment) (calls : ℕ → ConditionalCall) (c : Config schema Unit),
    st₀.db.WF → st₀.db.rows (Key.conditional pay) = some r₀ → r₀.state = .PENDING →
    r₀.from_agent_id ≠ r₀.to_agent_id → 0 ≤ r₀.locked_amount → lockCredits st₀.db pay = [] →
    Config.Reaches (fun _ _ _ _ => True)
      (Config.start st₀ fun i => (calls i).run .rounding readsNothing) c →
    ((lockCredits c.store.db pay).map (·.amount)).sum ≤ r₀.locked_amount := by
  intro h
  have hrace : unlocksWith (turn 1 3 3 ++ turn 0 12 1 ++ turn 1 5 3) .EXECUTED
      [⟨2, .XMR, 5, .conditional 1⟩, ⟨1, .XMR, 5, .conditional 1⟩] = true := by decide +kernel
  obtain ⟨c, r, hc, hr, hs, hps⟩ := exists_of_unlocksWith _ hrace
  have hreach := Config.reaches_of_trace (fun _ _ _ _ => true) (fun _ _ _ _ _ => trivial)
    (turn 1 3 3 ++ turn 0 12 1 ++ turn 1 5 3) .refl (by decide +kernel) hc
  have hsum := h 1 lockedFive _ triggerAndSweep c lockedFive_wf rfl rfl (by decide) (by decide) rfl
    hreach
  rw [hps] at hsum
  norm_num at hsum

/-! ## A sweep alone

Nobody else is there to move a listed payment, so the update after each refund matches, and the
sweep settles everything that is overdue. -/

/-- What the refund of a payment does to the balance of an agent. -/
def ConditionalPayment.refundTo (col : Columns) (agent_id : Id) (token : Token) (b : AgentBalance)
    (r : ConditionalPayment) : AgentBalance :=
  if r.from_agent_id = agent_id ∧ r.currency = token then
    { b with available := col 12 (b.available + r.locked_amount) }
  else b

/-- A sweep that found `db₀` has refunded the payments `l`, in this order, and done nothing
else. -/
structure Swept (col : Columns) (db₀ db : DB schema) (l : List (Id × ConditionalPayment)) :
    Prop where
  log : db.log = db₀.log ++ l.map fun a => .posting (a.2.refund a.1)
  expired : ∀ a ∈ l, db.rows (Key.conditional a.1) = some { a.2 with state := .EXPIRED }
  balance : ∀ agent_id token, BalanceRepository.balanceOf db agent_id token =
    (l.map Prod.snd).foldl (ConditionalPayment.refundTo col agent_id token)
      (BalanceRepository.balanceOf db₀ agent_id token)
  other : ∀ k, (∀ agent_id token, k ≠ Key.balance agent_id token) →
    (∀ a ∈ l, k ≠ Key.conditional a.1) → db.rows k = db₀.rows k

section Sweep

variable {col : Columns} {Ok : StepCond schema} {R : Exn → Solo schema → Prop} {v : Solo schema}
  {db₀ db : DB schema} {l : List (Id × ConditionalPayment)} {a : Id × ConditionalPayment}

theorem Swept.refl (db : DB schema) : Swept col db db [] where
  log := (List.append_nil _).symm
  expired _ ha := (List.not_mem_nil ha).elim
  balance _ _ := rfl
  other _ _ _ := rfl

/-- A payment that is still to do is as the sweep has listed it. -/
theorem Swept.untouched (h : Swept col db₀ db l) (hnew : ∀ b ∈ l, b.1 ≠ a.1) :
    db.rows (Key.conditional a.1) = db₀.rows (Key.conditional a.1) := by
  exact h.other _ (by simp) fun b hb he => hnew b hb (Key.conditional.inj he).symm

theorem Swept.trans {db' : DB schema} {l' : List (Id × ConditionalPayment)}
    (h : Swept col db₀ db l) (h' : Swept col db db' l') (hnew : ∀ a ∈ l, ∀ b ∈ l', a.1 ≠ b.1) :
    Swept col db₀ db' (l ++ l') where
  log := by rw [h'.log, h.log, List.map_append, List.append_assoc]
  expired a ha := by
    rcases List.mem_append.mp ha with ha | ha
    · have hkept : ∀ b ∈ l', Key.conditional a.1 ≠ Key.conditional b.1 :=
        fun b hb he => hnew a ha b hb (Key.conditional.inj he)
      rw [h'.other _ (by simp) hkept, h.expired a ha]
    · exact h'.expired a ha
  balance agent_id token := by
    rw [h'.balance, h.balance, List.map_append, List.foldl_append]
  other k hbal hcond := by
    rw [h'.other k hbal fun b hb => hcond b (List.mem_append_right _ hb),
      h.other k hbal fun b hb => hcond b (List.mem_append_left _ hb)]

/-- One refund, and the update that matches. -/
theorem Swept.one (db : DB schema) (a : Id × ConditionalPayment) :
    Swept col db ((BalanceRepository.posted db a.2.from_agent_id a.2.currency
      { BalanceRepository.balanceOf db a.2.from_agent_id a.2.currency with
        available := col 12 ((BalanceRepository.balanceOf db a.2.from_agent_id
          a.2.currency).available + a.2.locked_amount) }
      a.2.locked_amount (.conditional a.1)).put (Key.conditional a.1)
        { a.2 with state := .EXPIRED }) [a] where
  log := rfl
  expired b hb := by
    obtain rfl := List.mem_singleton.mp hb
    exact DB.put_rows_self ..
  balance agent_id token := by
    rw [BalanceRepository.balanceOf, DB.put_rows_ne _ _ (by simp), ← BalanceRepository.balanceOf]
    simp only [List.map_cons, List.map_nil, List.foldl_cons, List.foldl_nil,
      ConditionalPayment.refundTo]
    split
    · next hag =>
        obtain ⟨rfl, rfl⟩ := hag
        rw [BalanceRepository.balanceOf_posted_self]
    · next hag =>
        have hne : Key.balance agent_id token ≠ Key.balance a.2.from_agent_id a.2.currency := by
          intro he
          cases he
          exact hag ⟨rfl, rfl⟩
        rw [BalanceRepository.balanceOf, BalanceRepository.posted_rows_ne hne,
          BalanceRepository.balanceOf]
  other k hbal hcond := by
    rw [DB.put_rows_ne _ _ (hcond a (by simp)), BalanceRepository.posted_rows_ne (hbal _ _)]

/-- The sweep of one payment: the credit leaves the payment alone, so the update matches. -/
theorem expireOne_sweeps (h : Swept col db₀ v.db l) (hnew : ∀ b ∈ l, b.1 ≠ a.1)
    (hrow : db₀.rows (Key.conditional a.1) = some a.2) (hs : a.2.state = .PENDING) :
    (ConditionalPaymentService.expireOne col a.1 a.2).always Ok
      (fun _ v' => ∃ db', v' = { v with db := db' } ∧ Swept col db₀ db' (l ++ [a])) R v := by
  refine always_bind (BalanceRepository.credit_always fun b hb => ?_)
  have hkept : ∀ b' : AgentBalance, (BalanceRepository.posted v.db a.2.from_agent_id a.2.currency b'
      a.2.locked_amount (.conditional a.1)).rows (Key.conditional a.1) = some a.2 := by
    intro b'
    rw [BalanceRepository.posted_rows_ne (by simp), h.untouched hnew, hrow]
  refine always_update (fun r x hr _ _ => ?_) fun hmiss => ?_
  · obtain rfl : a.2 = r := Option.some.inj ((hkept _).symm.trans hr)
    subst hb
    exact ⟨_, rfl, h.trans (.one v.db a) (by simpa using hnew)⟩
  · have := hmiss _ (hkept _)
    simp [hs] at this

/-- When the sweep was over everything overdue, nothing is overdue any more. -/
theorem Swept.none_overdue (h : Swept col db₀ db l) {now : Time}
    (hl : ∀ q r, (q, r) ∈ l ↔ db₀.rows (Key.conditional q) = some r ∧ r.state = .PENDING ∧
      r.expires_at ≤ now) {q : Id} {r : ConditionalPayment}
    (hr : db.rows (Key.conditional q) = some r) (hs : r.state = .PENDING) : now < r.expires_at := by
  by_contra hdue
  by_cases hq : ∃ a ∈ l, a.1 = q
  · obtain ⟨a, ha, rfl⟩ := hq
    rw [h.expired a ha, Option.some.injEq] at hr
    rw [← hr] at hs
    cases hs
  · have hkept : db.rows (Key.conditional q) = db₀.rows (Key.conditional q) :=
      h.other _ (by simp) fun a ha he => hq ⟨a, ha, (Key.conditional.inj he).symm⟩
    exact hq ⟨(q, r), (hl q r).mpr ⟨hkept ▸ hr, hs, not_lt.mp hdue⟩, rfl⟩

/-- What a sweep that found `v` returns with: the payments overdue at `now` are refunded. -/
def Settles (col : Columns) (now : Time) (v v' : Solo schema) : Prop :=
  ∃ db' l, v' = { v with db := db' } ∧ (l.map Prod.fst).Nodup ∧
    (∀ q r, (q, r) ∈ l ↔ v.db.rows (Key.conditional q) = some r ∧ r.state = .PENDING ∧
      r.expires_at ≤ now) ∧ Swept col v.db db' l

/-- The payments that a sweep lists are settled one after the other. -/
theorem tally_sweeps (hnodup : (l.map Prod.fst).Nodup)
    (hl : ∀ a ∈ l, v.db.rows (Key.conditional a.1) = some a.2 ∧ a.2.state = .PENDING) :
    (tally l fun (payment_id, payment) =>
      ConditionalPaymentService.expireOne col payment_id payment).always Ok
      (fun _ v' => ∃ db', v' = { v with db := db' } ∧ Swept col v.db db' l) R v := by
  refine always_mono (always_tallyOver (fun todo v' => ∃ db' settled, v' = { v with db := db' } ∧
    settled ++ todo = l ∧ Swept col v.db db' settled) ?_ l ⟨v.db, [], rfl, rfl, .refl _⟩) ?_
    fun _ _ h => h
  · rintro a todo v' ⟨db', settled, rfl, rfl, h⟩
    obtain ⟨hrow, hs⟩ := hl a (by simp)
    have hnew : ∀ b ∈ settled, b.1 ≠ a.1 := by
      rw [List.map_append, List.map_cons] at hnodup
      intro b hb
      exact (List.nodup_append.mp hnodup).2.2 _ (List.mem_map_of_mem hb) _ List.mem_cons_self
    refine always_mono (expireOne_sweeps h hnew hrow hs) (fun _ v'' h' => ?_) fun _ _ h => h
    obtain ⟨db'', rfl, h''⟩ := h'
    exact ⟨db'', settled ++ [a], rfl, by simp, h''⟩
  · rintro _ v' ⟨db', settled, rfl, hdone, h⟩
    rw [List.append_nil] at hdone
    exact ⟨db', rfl, hdone ▸ h⟩

/-- The sweep from the moment it has read the clock. -/
def expireOverdue (col : Columns) (now : Time) : Program ℕ := do
  let expired_payments ← (do
    let rows ← query (ConditionalPaymentRepository.hasExpired now)
    return rows.filterMap ConditionalPaymentRepository.asConditional :
      Program (List (Id × ConditionalPayment)))
  tally expired_payments fun (payment_id, payment) =>
    ConditionalPaymentService.expireOne col payment_id payment

theorem expireOverdue_settles (now : Time) :
    (expireOverdue col now).always Ok (fun _ v' => Settles col now v v') R v := by
  refine always_bind (always_bind (always_query fun rows hnodup hrows => ?_))
  have hmem : ∀ q r, (q, r) ∈ rows.filterMap ConditionalPaymentRepository.asConditional ↔
      v.db.rows (Key.conditional q) = some r ∧ r.state = .PENDING ∧ r.expires_at ≤ now := by
    intro q r
    rw [mem_filterMap_rows (S := schema) asConditional_eq_some, hrows]
    simp [ConditionalPaymentRepository.hasExpired]
  have hnd := nodup_filterMap_rows (S := schema) asConditional_eq_some (fun a b hab => by rw [hab]) hnodup
  show (tally (rows.filterMap ConditionalPaymentRepository.asConditional)
    fun (payment_id, payment) =>
      ConditionalPaymentService.expireOne col payment_id payment).always Ok _ R v
  refine always_mono (tally_sweeps hnd fun a ha => ?_) (fun _ v' h => ?_) fun _ _ h => h
  · obtain ⟨hrow, hs, -⟩ := (hmem a.1 a.2).mp ha
    exact ⟨hrow, hs⟩
  · obtain ⟨db', rfl, h⟩ := h
    exact ⟨db', _, rfl, hnd, hmem, h⟩

/-- How a sweep alone ends: its commit fails and nothing has changed, or it has settled what was
overdue. -/
theorem sweep_outcome (col : Columns) (parse : Constructors) {st : Store schema} (hst : st.db.WF)
    (x : ℕ → Input schema) :
    (((ConditionalCall.expireStale.run col parse).serve x st).1 = .error schema.commitErr ∧
      ((ConditionalCall.expireStale.run col parse).serve x st).2 = st) ∨
    (((ConditionalCall.expireStale.run col parse).serve x st).1 = .ok () ∧
      ∃ l : List (Id × ConditionalPayment), (l.map Prod.fst).Nodup ∧
        (∀ q r, (q, r) ∈ l ↔ st.db.rows (Key.conditional q) = some r ∧ r.state = .PENDING ∧
          r.expires_at ≤ (x 0).time) ∧
        Swept col st.db ((ConditionalCall.expireStale.run col parse).serve x st).2.db l) := by
  have halways : (withSession (do
      let _ ← expireOverdue col (x 0).time : Program Unit)).always (fun _ _ _ => True)
      (fun _ v' => ∃ v'', v'.saved = v''.db ∧ v'.ext = st.ext ∧
        Settles col (x 0).time (Solo.ofStore st) v'')
      (fun e v' => e = schema.commitErr ∧ v'.saved = st.db ∧ v'.ext = st.ext)
      (Solo.ofStore st) := by
    refine always_withSession (always_bind (always_mono (expireOverdue_settles (x 0).time)
      (fun _ v' h => ?_) fun _ _ h => h))
    obtain ⟨db', l, rfl, h⟩ := h
    exact ⟨⟨_, rfl, rfl, db', l, rfl, h⟩, fun _ _ _ => ⟨rfl, rfl, rfl⟩⟩
  obtain ⟨hends, -⟩ := always_eval halways (Solo.ofStore_wf hst)
    (meets_true _ (fun n => x (n + 1)) _)
  -- reading the clock is the first statement of the request
  have hout : (ConditionalCall.expireStale.run col parse).serve x st =
      (((withSession (do let _ ← expireOverdue col (x 0).time : Program Unit)).eval
          (fun n => x (n + 1)) (Solo.ofStore st)).1,
        ((withSession (do let _ ← expireOverdue col (x 0).time : Program Unit)).eval
          (fun n => x (n + 1)) (Solo.ofStore st)).2.store) := rfl
  rw [hout]
  generalize (withSession (do let _ ← expireOverdue col (x 0).time : Program Unit)).eval
    (fun n => x (n + 1)) (Solo.ofStore st) = out at hends
  obtain ⟨result, v'⟩ := out
  cases result with
  | error e =>
      obtain ⟨rfl, hsaved, hext⟩ := hends
      exact .inl ⟨rfl, by rw [Solo.store, hsaved, hext]⟩
  | ok _ =>
      obtain ⟨v'', hsaved, -, db', l, rfl, hnodup, hl, hswept⟩ := hends
      replace hsaved : v'.store.db = db' := hsaved
      rw [← hsaved] at hswept
      exact .inr ⟨rfl, l, hnodup, hl, hswept⟩

end Sweep

/-- **A sweep alone settles everything overdue.** From any database, `expire_stale` either fails
to commit and changes nothing, or returns; then every payment that was pending past its deadline is
expired and its sender has the locked amount back, once, nothing else has changed but the balances
of these senders, and no payment is overdue any more. -/
theorem sweep_settles (col : Columns) (parse : Constructors) {st : Store schema} (hst : st.db.WF)
    (x : ℕ → Input schema) :
    (((ConditionalCall.expireStale.run col parse).serve x st).1 = .error schema.commitErr ∧
      ((ConditionalCall.expireStale.run col parse).serve x st).2 = st) ∨
    (((ConditionalCall.expireStale.run col parse).serve x st).1 = .ok () ∧
      (∃ l : List (Id × ConditionalPayment), (l.map Prod.fst).Nodup ∧
        (∀ q r, (q, r) ∈ l ↔ st.db.rows (Key.conditional q) = some r ∧ r.state = .PENDING ∧
          r.expires_at ≤ (x 0).time) ∧
        Swept col st.db ((ConditionalCall.expireStale.run col parse).serve x st).2.db l) ∧
      ∀ q r, ((ConditionalCall.expireStale.run col parse).serve x st).2.db.rows
          (Key.conditional q) = some r → r.state = .PENDING → (x 0).time < r.expires_at) := by
  refine (sweep_outcome col parse hst x).imp id ?_
  rintro ⟨hok, l, hnodup, hl, hswept⟩
  exact ⟨hok, ⟨l, hnodup, hl, hswept⟩, fun q r hr hs => hswept.none_overdue hl hr hs⟩

/-- At the third hour the payment is overdue, and agent 1 gets its five units back. -/
theorem sweep_settles_refunded :
    .posting ⟨1, .XMR, 5, .conditional 1⟩ ∈
      ((ConditionalCall.expireStale.run .rounding readsNothing).serve
        (fun _ => { time := hours 3 }) lockedFive).2.db.log := by
  rcases sweep_settles .rounding readsNothing lockedFive_wf fun _ => { time := hours 3 } with
    ⟨herr, -⟩ | ⟨-, ⟨l, -, hl, hswept⟩, -⟩
  · have hok : ((ConditionalCall.expireStale.run .rounding readsNothing).serve
        (fun _ => { time := hours 3 }) lockedFive).1 = .ok () := by decide +kernel
    rw [hok] at herr
    cases herr
  · have hdue := (hl 1 _).mpr ⟨rfl, rfl, by decide⟩
    rw [hswept.log]
    exact List.mem_append_right _ (List.mem_map_of_mem hdue)

/-- **Sweeps refund once.** However many sweeps come one after another, and whenever they come, each
payment is refunded at most once, only if it was pending, and then it is expired; nothing else has
changed but the balances of the senders. -/
theorem sweeps_refund_once (col : Columns) (parse : Constructors) {st₀ st : Store schema}
    (hst₀ : st₀.db.WF) (h : Served (fun _ _ _ _ => True)
      (fun _ : Unit => ConditionalCall.expireStale.run col parse) st₀ st) :
    ∃ l : List (Id × ConditionalPayment), (l.map Prod.fst).Nodup ∧
      (∀ a ∈ l, st₀.db.rows (Key.conditional a.1) = some a.2 ∧ a.2.state = .PENDING) ∧
      Swept col st₀.db st.db l := by
  suffices hboth : (∃ l : List (Id × ConditionalPayment), (l.map Prod.fst).Nodup ∧
      (∀ a ∈ l, st₀.db.rows (Key.conditional a.1) = some a.2 ∧ a.2.state = .PENDING) ∧
      Swept col st₀.db st.db l) ∧ st.db.WF from hboth.1
  induction h with
  | refl => exact ⟨⟨[], List.nodup_nil, by simp, .refl _⟩, hst₀⟩
  | @serve st _ x _ _ ih =>
      obtain ⟨⟨l, hnodup, hl, hswept⟩, hwf⟩ := ih
      refine ⟨?_, serve_wf _ x hwf⟩
      obtain ⟨-, hkept⟩ | ⟨-, l', hnodup', hl', hswept'⟩ := sweep_outcome col parse hwf x
      · rw [hkept]
        exact ⟨l, hnodup, hl, hswept⟩
      · -- what an earlier sweep has refunded is expired, and not listed again
        have hnew : ∀ a ∈ l, ∀ b ∈ l', a.1 ≠ b.1 := by
          intro a ha b hb he
          obtain ⟨hb', hs, -⟩ := (hl' b.1 b.2).mp hb
          have hexp := hswept.expired a ha
          rw [he, hb', Option.some.injEq] at hexp
          rw [hexp] at hs
          cases hs
        refine ⟨l ++ l', ?_, fun a ha => ?_, hswept.trans hswept' hnew⟩
        · rw [List.map_append]
          refine hnodup.append hnodup' fun q hq hq' => ?_
          obtain ⟨a, ha, rfl⟩ := List.mem_map.mp hq
          obtain ⟨b, hb, he⟩ := List.mem_map.mp hq'
          exact hnew a ha b hb he.symm
        · rcases List.mem_append.mp ha with ha | ha
          · exact hl a ha
          · obtain ⟨hrow, hs, -⟩ := (hl' a.1 a.2).mp ha
            have hfirst : ∀ b ∈ l, b.1 ≠ a.1 := fun b hb => hnew b hb a ha
            exact ⟨(hswept.untouched hfirst).symm.trans hrow, hs⟩

/-- Two sweeps, at the third hour and at the fourth. -/
theorem sweeps_refund_once_fourth :
    ∃ l : List (Id × ConditionalPayment), (l.map Prod.fst).Nodup ∧
      Swept .rounding lockedFive.db ((ConditionalCall.expireStale.run .rounding readsNothing).serve
        (fun _ => { time := hours 4 })
        ((ConditionalCall.expireStale.run .rounding readsNothing).serve
          (fun _ => { time := hours 3 }) lockedFive).2).2.db l := by
  obtain ⟨l, hnodup, -, hswept⟩ := sweeps_refund_once .rounding readsNothing lockedFive_wf
    (.serve () (fun _ => { time := hours 4 }) (.serve () (fun _ => { time := hours 3 }) .refl
      (meets_true ..)) (meets_true ..))
  exact ⟨l, hnodup, hswept⟩

end Sthrip
