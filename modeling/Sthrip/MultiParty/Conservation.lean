import Sthrip.MultiParty.Accounting

set_option autoImplicit false

/-! # Multi-party payments and conservation of money

A payment settles each share once, with one exception. When a recipient of a payment that does not
wait for all rejects, its share is refunded at once; a sweep after the deadline refunds the share
of everybody who has not accepted, and so refunds a rejected share a second time. A second way to
lose money is the rounding of the columns: the total is rounded and so is each share, and nothing
makes the rounded shares add up to the rounded total.

`RefundedOnce pay` is the condition that neither happens to the payment `pay`. Under it every run
settles every share of the payment once.
-/

namespace Sthrip

open Txn Prog

/-- The condition that the shares of the payment `pay` add up to its total as the columns keep
them, and that a sweep refunds its shares only while nobody has rejected. -/
def RefundedOnce (pay : Id) : MultiPartyCall → StepCond schema
  | .createMultiParty q _ recipients _ _ _, _, .create (Key.multiParty _) _, _ =>
      q = pay → (recipients.map fun r => numeric 8 r.amount).sum
        = numeric 8 (recipients.map fun r => r.amount).sum
  | .expireStale, v, .update (Key.multiParty q) _ _, _ =>
      q = pay → ∀ r, v.db.rows (Key.multiParty q) = some r → r.require_all_accept = false →
        ∀ j row, v.db.rows (Key.recipient q j) = some row → row.accepted ≠ some false
  | _, _, _, _ => True

/-! ## The methods -/

/-- A program moved payment `q`, and if this is `pay` it kept its books in order. -/
def KeepsPayment (pay q : Id) (v v' : Solo schema) : Prop :=
  ∃ db' E', v' = { v with db := db' } ∧ PaymentMoves v.db db' q E' ∧
    (q = pay → (payments v.db q).Accounted → E'.Accounted)

theorem KeepsPayment.accounted {pay q : Id} {v v' : Solo schema} (h : KeepsPayment pay q v v')
    (ha : (payments v.db pay).Accounted) : (payments v'.db pay).Accounted := by
  obtain ⟨db', E', rfl, hm, hE⟩ := h
  exact hm.keeps hE ha

section Methods

variable {pay q : Id} {v : Solo schema} {E E' : Payment} {r : MultiPartyPayment}

theorem KeepsPayment.refl : KeepsPayment pay q v v :=
  ⟨v.db, payments v.db q, rfl, .refl rfl, fun _ ha => ha⟩

theorem KeepsPayment.of {db' : DB schema} (hE : payments v.db q = E)
    (hm : PaymentMoves v.db db' q E') (h : q = pay → E.Accounted → E'.Accounted) :
    KeepsPayment pay q v { v with db := db' } :=
  ⟨db', E', rfl, hm, fun hq ha => h hq (hE ▸ ha)⟩

theorem findRecipient_of_lists {l : List (Id × MultiPartyRecipient)} {j : Id}
    {row : MultiPartyRecipient} (hl : E.Lists l) (h : findRecipient l j = some row) :
    E.recipients j = some row := by
  obtain ⟨a, ha, rfl⟩ := Option.map_eq_some_iff.mp h
  have hj : a.1 = j := by simpa using List.find?_some ha
  rw [← hj]
  exact (hl.mem a).mp (List.mem_of_find?_eq_some ha)

theorem findPending_always {Ok : StepCond schema} {R : Exn → Solo schema → Prop} {j : Id}
    {Q : MultiPartyPayment × MultiPartyRecipient → Solo schema → Prop}
    (hE : payments v.db q = E)
    (h : ∀ r row, E.row = some r → r.state = .PENDING → E.recipients j = some row → Q (r, row) v)
    (hR : ∀ e, R e v) : (MultiPartyService.findPending q j).always Ok Q R v := by
  refine always_bind (getPayment_always hE ?_)
  refine always_bind (always_orRaise (fun _ => hR _) fun r hr => ?_)
  refine always_bind (always_raiseIf (fun _ => hR _) fun hs => ?_)
  refine always_bind (getRecipients_always hE fun l hl => ?_)
  refine always_bind (always_orRaise (fun _ => hR _) fun row hrow => ?_)
  exact h r row hr (not_not.mp hs) (findRecipient_of_lists hl hrow)

/-- The payment leaves `PENDING`, having credited `cs`. -/
theorem settle_always {Ok : StepCond schema} {R : Exn → Solo schema → Prop}
    {state : MultiPartyPaymentState} {Q : Bool → Solo schema → Prop} {cs : List Credit}
    (hE : payments v.db q = E.credit cs) (hr : E.row = some r) (hs : r.state = .PENDING)
    (hstate : state ≠ .PENDING)
    (h : ∀ db' E', PaymentMoves v.db db' q E' →
      ((∀ t x, Ok v (.update (Key.multiParty q) (fun row => row.state = .PENDING) fun row =>
        { row with state, completed_at := some t }) x → E.Accounted → ∃ l, E.Lists l ∧
          ((E.credits ++ cs).Perm (l.map r.outcome) ∨ E.credits ++ cs = [r.refund])) →
        E.Accounted → E'.Accounted) → Q true { v with db := db' }) :
    (MultiPartyRepository.leavePending state q).always Ok Q R v := by
  refine leavePending_always hE (fun r' t x db' hr' _ hok hm => ?_) fun hmiss =>
    absurd hs (hmiss r hr)
  obtain rfl : r = r' := by
    rw [Payment.credit_row, hr, Option.some.injEq] at hr'
    exact hr'
  refine h db' _ hm fun hcredits ha => ?_
  obtain ⟨l, hl, hc⟩ := hcredits t x hok ha
  refine (Payment.accounted_of_some (Payment.setRow_row _ _)).mpr ⟨l, hl.of_recipients rfl, ?_⟩
  exact (ha.books hr hl).settle hstate hc

theorem completeIfResponded_always {Ok : StepCond schema} {R : Exn → Solo schema → Prop}
    {Q : Bool → Solo schema → Prop} (hE : payments v.db q = E) (hr : E.row = some r)
    (hs : r.state = .PENDING) (hall : r.require_all_accept = false)
    (h : ∀ b db' E', PaymentMoves v.db db' q E' → (E.Accounted → E'.Accounted) →
      Q b { v with db := db' }) :
    (MultiPartyService.completeIfResponded q).always Ok Q R v := by
  refine always_bind (always_expireAll (always_bind (getRecipients_always hE fun l hl => ?_)))
  refine always_bind (always_onlyIf (fun hans => ?_) fun _ => ?_)
  · have hE' : payments v.db q = E.credit [] := by rw [hE, Payment.credit_nil]
    refine settle_always hE' hr hs (by simp) fun db' E' hm hE' => h _ db' E' hm (hE' ?_)
    refine fun _ _ _ ha => ⟨l, hl, Or.inl ((ha.books hr hl).responded hs hall fun a hmem => ?_)⟩
    simpa using List.all_eq_true.mp hans a hmem
  · exact h _ v.db E (.refl hE) id

/-- The credits to recipients that have all accepted. -/
theorem credits_of_accepted {l : List (Id × MultiPartyRecipient)}
    (h : ∀ a ∈ l, a.2.accepted = some true) :
    (l.flatMap fun a => [(⟨a.1, a.2.amount, r.currency, some a.1⟩ : Credit)])
      = l.map r.outcome := by
  rw [← List.map_eq_flatMap]
  refine List.map_congr_left fun a ha => ?_
  simp only [MultiPartyPayment.outcome, if_pos (h a ha)]

/-- The credits of a sweep go to the sender, for everybody who has not accepted. -/
theorem credits_of_sweep (r : MultiPartyPayment) (l : List (Id × MultiPartyRecipient)) :
    (l.flatMap fun a => if a.2.accepted ≠ some true
      then [(⟨r.sender_id, a.2.amount, r.currency, some a.1⟩ : Credit)] else [])
      = (l.filter fun a => a.2.accepted ≠ some true).map r.outcome := by
  induction l with
  | nil => rfl
  | cons a l ih =>
      rw [List.flatMap_cons, ih]
      by_cases ha : a.2.accepted ≠ some true
      · rw [if_pos ha, List.filter_cons_of_pos (by simpa using ha), List.map_cons]
        simp only [MultiPartyPayment.outcome, if_neg ha, List.singleton_append]
      · rw [if_neg ha, List.filter_cons_of_neg (by simpa using ha), List.nil_append]

theorem accept_keeps (j : Id) {Ok : StepCond schema} :
    (MultiPartyService.accept .rounding j q).always Ok
      (fun _ v' => KeepsPayment pay q v v') (Unsaved v) v := by
  generalize hE : payments v.db q = E
  refine always_bind (findPending_always hE (fun r row hr hs hj => ?_) fun _ => rfl)
  simp only
  split
  · exact .refl
  refine always_bind (always_bind (always_now fun t => ?_))
  refine answer_always hE (fun row' db₁ hj' hnone m₁ => ?_) fun _ => .refl
  obtain rfl : row' = row := by rwa [hj, Option.some.injEq, eq_comm] at hj'
  have hanswer := fun ha : E.Accounted =>
    ha.answer hr hs hj hnone { row' with accepted := some true, accepted_at := some t } (by simp) rfl
  rw [if_neg Bool.true_eq_false.mp]
  split
  · next hall =>
      simp only [Payment.answered, if_pos hall, Payment.credit_nil] at hanswer
      refine always_bind (always_expireAll (always_bind (getRecipients_always m₁.self
        fun l hl => ?_)))
      split
      · next hacc =>
          have hacc' : ∀ a ∈ l, a.2.accepted = some true :=
            fun a ha => by simpa using List.all_eq_true.mp hacc a ha
          refine always_bind (creditEach_always
            (fun a => [⟨a.1, a.2.amount, r.currency, some a.1⟩]) l m₁.self
            (fun a _ _ _ _ hE h => always_bind (creditShare_always hE fun _ db' hm => h db' hm))
            fun db₂ m₂ => ?_)
          rw [credits_of_accepted hacc'] at m₂
          refine always_bind (settle_always m₂.self hr hs (by simp) fun db₃ E₃ m₃ hE₃ => ?_)
          refine .of hE ((m₁.trans m₂).trans m₃) fun _ ha => hE₃ ?_ (hanswer ha)
          exact fun _ _ _ ha => ⟨l, hl, Or.inl ((ha.books hr hl).completed hs hall)⟩
      · exact .of hE m₁ fun _ => hanswer
  · next hall =>
      have hall' : r.require_all_accept = false := by simpa using hall
      simp only [Payment.answered, if_neg hall] at hanswer
      refine always_bind (creditShare_always m₁.self fun _ db₂ m₂ => ?_)
      refine always_bind (completeIfResponded_always m₂.self hr hs hall'
        fun b db₃ E₃ m₃ hE₃ => ?_)
      exact .of hE ((m₁.trans m₂).trans m₃) fun _ ha => hE₃ (hanswer ha)

theorem reject_keeps (j : Id) {Ok : StepCond schema} :
    (MultiPartyService.reject .rounding j q).always Ok
      (fun _ v' => KeepsPayment pay q v v') (Unsaved v) v := by
  generalize hE : payments v.db q = E
  refine always_bind (findPending_always hE (fun r row hr hs hj => ?_) fun _ => rfl)
  refine always_bind (always_bind (always_now fun t => ?_))
  refine answer_always hE (fun row' db₁ hj' hnone m₁ => ?_) fun _ =>
    always_bind (always_raiseIf (fun _ => rfl) fun hf => absurd rfl hf)
  refine always_bind (always_raiseIf (fun hf => by cases hf) fun _ => ?_)
  obtain rfl : row' = row := by rwa [hj, Option.some.injEq, eq_comm] at hj'
  have hanswer := fun ha : E.Accounted =>
    ha.answer hr hs hj hnone { row' with accepted := some false, accepted_at := some t } (by simp) rfl
  split
  · next hall =>
      simp only [Payment.answered, if_pos hall, Payment.credit_nil] at hanswer
      refine always_bind (creditShare_always m₁.self fun _ db₂ m₂ => ?_)
      refine always_bind (settle_always m₂.self hr hs (by simp) fun db₃ E₃ m₃ hE₃ => ?_)
      exact .of hE ((m₁.trans m₂).trans m₃) fun _ ha =>
        hE₃ (fun _ _ _ ha => ha.refunded hr hs hall) (hanswer ha)
  · next hall =>
      have hall' : r.require_all_accept = false := by simpa using hall
      simp only [Payment.answered, if_neg hall] at hanswer
      refine always_bind (creditShare_always m₁.self fun _ db₂ m₂ => ?_)
      refine always_bind (completeIfResponded_always m₂.self hr hs hall'
        fun b db₃ E₃ m₃ hE₃ => ?_)
      exact .of hE ((m₁.trans m₂).trans m₃) fun _ ha => hE₃ (hanswer ha)

/-- The sweep of one payment. -/
theorem expireOne_keeps (hr : (payments v.db q).row = some r) (hs : r.state = .PENDING) :
    (MultiPartyService.expireOne .rounding q r).always (RefundedOnce pay .expireStale)
      (fun _ v' => KeepsPayment pay q v v') (Unsaved v) v := by
  generalize hE : payments v.db q = E at hr
  unfold MultiPartyService.expireOne
  split
  · next hall =>
      refine always_bind (creditShare_always hE fun _ db₁ m₁ => ?_)
      refine always_bind (settle_always m₁.self hr hs (by simp) fun db₂ E₂ m₂ hE₂ => ?_)
      exact .of hE (m₁.trans m₂) fun _ => hE₂ fun _ _ _ ha => ha.refunded hr hs hall
  · next hall =>
      have hall' : r.require_all_accept = false := by simpa using hall
      refine always_bind (getRecipients_always hE fun l hl => ?_)
      refine always_bind (creditEach_always (fun a => if a.2.accepted ≠ some true
        then [⟨r.sender_id, a.2.amount, r.currency, some a.1⟩] else []) l hE
        (fun a _ v' E' Q hE' h => ?_) fun db₁ m₁ => ?_)
      · refine always_onlyIf (fun ha => creditShare_always hE' fun _ db' hm => h db' ?_)
          fun ha => h v'.db ?_
        · rwa [if_pos ha]
        · rw [if_neg ha, Payment.credit_nil]
          exact .refl hE'
      rw [credits_of_sweep] at m₁
      refine always_bind (settle_always m₁.self hr hs (by simp) fun db₂ E₂ m₂ hE₂ => ?_)
      refine .of hE (m₁.trans m₂) fun hq ha => hE₂ (fun t x hok ha => ?_) ha
      refine ⟨l, hl, Or.inl ((ha.books hr hl).swept hs hall' fun a hmem => ?_)⟩
      have hrow : db₁.rows (Key.multiParty q) = some r := (congrArg Payment.row m₁.self).trans hr
      refine hok hq r hrow hall' a.1 a.2 ?_
      exact (congrFun (congrArg Payment.recipients m₁.self) a.1).trans ((hl.mem a).mp hmem)

/-- The payments a sweep has still to do are as it has listed them. -/
theorem expireStale_keeps (ha : (payments v.db pay).Accounted) :
    (MultiPartyService.expireStale .rounding).always (RefundedOnce pay .expireStale)
      (fun _ v' => (payments v'.db pay).Accounted ∧ v'.saved = v.saved) (Unsaved v) v := by
  refine always_bind (getPendingExpired_always fun listed hnodup hrows => ?_)
  refine always_bind (always_mono (always_forEach (fun listed v' =>
    (payments v'.db pay).Accounted ∧ v'.saved = v.saved ∧ (listed.map Prod.fst).Nodup ∧
      ∀ a ∈ listed, (payments v'.db a.1).row = some a.2 ∧ a.2.state = .PENDING)
    (fun a listed v' ⟨ha', hsaved, hnd, hrows'⟩ => ?_) listed ⟨ha, rfl, hnodup, hrows⟩)
    (fun _ _ h => ⟨h.1, h.2.1⟩) fun _ _ h => h)
  obtain ⟨hrow, hs⟩ := hrows' a List.mem_cons_self
  refine always_mono (expireOne_keeps hrow hs) (fun _ v'' hk => ?_) fun _ _ h => h.trans hsaved
  refine ⟨hk.accounted ha', ?_, (List.nodup_cons.mp hnd).2, fun b hb => ?_⟩
  · obtain ⟨db', E', rfl, -⟩ := hk
    exact hsaved
  · obtain ⟨db', E', rfl, hm, -⟩ := hk
    have hne : b.1 ≠ a.1 := fun he =>
      (List.nodup_cons.mp hnd).1 (he ▸ List.mem_map_of_mem (f := Prod.fst) hb)
    show (payments db' b.1).row = some b.2 ∧ _
    rw [hm.other hne]
    exact hrows' b (List.mem_cons_of_mem _ hb)

theorem resolve_always {Ok : StepCond schema} {R : Exn → Solo schema → Prop}
    (recipients : List RecipientData) {Q : List (Id × ℚ) → Solo schema → Prop}
    (h : ∀ resolved : List (Id × ℚ), resolved.map (·.2) = recipients.map (·.amount) → Q resolved v)
    (hR : ∀ e, R e v) : (MultiPartyService.resolve recipients).always Ok Q R v := by
  induction recipients generalizing Q with
  | nil => exact h [] rfl
  | cons a recipients ih =>
      refine always_bind (always_bind (always_query fun l _ _ => ?_))
      refine always_bind (always_orRaise (fun _ => hR _) fun agent _ => ?_)
      refine always_bind (always_raiseIf (fun _ => hR _) fun _ => ?_)
      refine always_bind (ih fun resolved hresolved => h _ ?_)
      rw [List.map_cons, List.map_cons, hresolved]

theorem createMultiParty_keeps (sender_id : Id) (recipients : List RecipientData)
    (currency : Token) (require_all_accept : Bool) (accept_hours : ℤ) :
    (MultiPartyService.createMultiParty .rounding q sender_id recipients currency
      require_all_accept accept_hours).always
      (RefundedOnce pay
        (.createMultiParty q sender_id recipients currency require_all_accept accept_hours))
      (fun _ v' => KeepsPayment pay q v v') (Unsaved v) v := by
  generalize hE : payments v.db q = E
  refine always_bind (always_raiseIf (fun _ => rfl) fun _ => ?_)
  refine always_bind (always_raiseIf (fun _ => rfl) fun _ => ?_)
  refine always_bind (always_raiseIf (fun _ => rfl) fun _ => ?_)
  refine always_bind (resolve_always recipients (fun resolved hresolved => ?_) fun _ => rfl)
  refine always_bind (always_raiseIf (fun _ => rfl) fun hsender => ?_)
  refine always_bind (deductTotal_always hE (fun _ db₁ m₁ => ?_) fun _ _ => rfl)
  refine always_bind (always_now fun t => always_bind (always_bind ?_))
  refine always_create (fun x hnew hok => ?_) fun r hr =>
    always_bind (always_raiseIf (fun _ => rfl) fun hf => absurd rfl hf)
  refine always_bind (always_raiseIf (fun hf => by cases hf) fun _ => ?_)
  have m₂ := PaymentMoves.put_row (p := q)
    { sender_id, total_amount := numeric 8 (resolved.map (·.2)).sum, currency, require_all_accept
      state := .PENDING, accept_deadline := t + hours accept_hours } m₁.self
  refine always_bind (addRecipients_always resolved m₂.self
    (fun db₃ E₃ m₃ hrow hcredits hlists => ?_) fun _ _ => rfl)
  refine always_bind (getRecipients_always m₃.self fun _ _ => ?_)
  refine .of hE ((m₁.trans m₂).trans m₃) fun hq ha => ?_
  -- the payment was not there before, and its recipients are those it was created with
  have hnone : E.row = none := by rw [← m₁.self]; exact hnew
  rw [Payment.accounted_of_none hnone] at ha
  subst ha
  have hl := hlists [] (Payment.lists_nil rfl)
  rw [List.nil_append] at hl
  refine (Payment.accounted_of_some hrow).mpr ⟨_, hl, ?_, ?_, ?_, fun hs => absurd rfl hs⟩
  · rw [List.map_map]
    have hshares : resolved.map (fun a => numeric 8 a.2)
        = recipients.map fun r => numeric 8 r.amount := by
      have := congrArg (List.map (numeric 8)) hresolved
      rwa [List.map_map, List.map_map] at this
    calc (resolved.map fun a => numeric 8 a.2).sum
        = numeric 8 (recipients.map fun r => r.amount).sum := by rw [hshares, hok hq]
      _ = numeric 8 (resolved.map (·.2)).sum := by rw [hresolved]
  · intro a ha hs
    obtain ⟨b, hb, rfl⟩ := List.mem_map.mp ha
    exact hsender ⟨b, hb, hs⟩
  · intro _
    rw [hcredits, MultiPartyPayment.settledShares]
    split
    · exact .refl []
    · rw [List.filter_eq_nil_iff.mpr fun a ha => ?_]
      · exact .refl []
      · obtain ⟨b, -, rfl⟩ := List.mem_map.mp ha
        simp

end Methods

/-! ## Runs -/

/-- Every call keeps the books of every payment in order. -/
theorem MultiPartyCall.body_keeps {pay : Id} (c : MultiPartyCall) {v : Solo schema}
    (ha : (payments v.db pay).Accounted) :
    (c.body .rounding).always (RefundedOnce pay c)
      (fun _ v' => (payments v'.db pay).Accounted ∧ v'.saved = v.saved) (Unsaved v) v := by
  have unit : ∀ {α : Type} {q : Id} {p : Program α} {Ok : StepCond schema},
      p.always Ok (fun _ v' => KeepsPayment pay q v v') (Unsaved v) v →
      (p.bind fun _ => .ret ()).always Ok
        (fun _ v' => (payments v'.db pay).Accounted ∧ v'.saved = v.saved) (Unsaved v) v := by
    intro α q p Ok h
    refine always_bind (always_mono h (fun _ v' hk => ⟨hk.accounted ha, ?_⟩) fun _ _ hr => hr)
    obtain ⟨db', E', rfl, -⟩ := hk
    rfl
  cases c with
  | createMultiParty => exact unit (createMultiParty_keeps _ _ _ _ _)
  | accept => exact unit (accept_keeps _)
  | reject => exact unit (reject_keeps _)
  | expireStale => exact always_bind (expireStale_keeps ha)

/-- **Conservation of multi-party payments.** Start from any database without the payment `pay`. In
every run that refunds its shares once, when the payment has left `PENDING` the credits made for
it add up to its total; each of them goes to the sender, or to a recipient that has accepted and
gets its own share; and no share is paid twice. -/
theorem multi_party_conserves (pay : Id) {st₀ st : Store schema} (hwf : st₀.db.WF)
    (hnew : payments st₀.db pay = {})
    (hrun : Served (RefundedOnce pay) (MultiPartyCall.run .rounding) st₀ st)
    {r : MultiPartyPayment} (hr : st.db.rows (Key.multiParty pay) = some r)
    (hs : r.state ≠ .PENDING) :
    ((payments st.db pay).credits.map (·.amount)).sum = r.total_amount ∧
      (payments st.db pay).recipients r.sender_id = none ∧
      (∀ c ∈ (payments st.db pay).credits, c.token = r.currency ∧ (c.agent_id = r.sender_id ∨
        ∃ row, (payments st.db pay).recipients c.agent_id = some row ∧ row.accepted = some true ∧
          c.amount = row.amount ∧ c.share = some c.agent_id)) ∧
      ∀ j, (payments st.db pay).credits.countP (Credit.covers j) ≤ 1 := by
  have h₀ : (payments st₀.db pay).Accounted :=
    (Payment.accounted_of_none (by rw [hnew])).mpr hnew
  have hinv := Served.invariant (fun st => (payments st.db pay).Accounted) h₀ hwf
    (fun c st ha => always_session (fun db => (payments db pay).Accounted) ha (c.body_keeps ha))
    hrun
  obtain ⟨l, hl, hb⟩ := (Payment.accounted_of_some hr).mp hinv.1
  obtain ⟨hsum, hdest, honce⟩ := hb.conserved hl hs
  refine ⟨hsum, ?_, hdest, honce⟩
  cases hsender : (payments st.db pay).recipients r.sender_id with
  | none => rfl
  | some row => exact absurd rfl (hb.stranger _ ((hl.mem (r.sender_id, row)).mpr hsender))

/-! ### Two runs -/

/-- Agent 1 has ten units; agents 2 and 3 are called `b` and `c`. -/
def twoPayees : Store schema where
  db :=
    { rows := fun
        | .balance id token => if id = 1 ∧ token = .XMR then some { available := 10 } else none
        | .agent id =>
            if id = 2 then some { agent_name := "b" }
            else if id = 3 then some { agent_name := "c" }
            else none
        | _ => none
      keys := [.balance 1 .XMR, .agent 2, .agent 3]
      log := [] }
  ext := default

theorem twoPayees_wf : twoPayees.db.WF := by
  refine ⟨by decide, fun k => ?_⟩
  cases k with
  | balance id token => by_cases h : id = 1 ∧ token = .XMR <;> simp [twoPayees, h]
  | agent id =>
      by_cases h : id = 2
      · simp [twoPayees, h]
      · by_cases h' : id = 3 <;> simp [twoPayees, h, h']
  | _ => simp [twoPayees]

/-- A call at which every reading of the clock is `t` hours. -/
def MultiPartyCall.at (c : MultiPartyCall) (t : ℤ) : MultiPartyCall × (ℕ → Input schema) :=
  (c, fun _ => { time := hours t })

/-- Agent 1 pays two units to agent 2 and three to agent 3, each as soon as it accepts. -/
def payEach : MultiPartyCall × (ℕ → Input schema) :=
  (MultiPartyCall.createMultiParty 1 1 [⟨"b", 2⟩, ⟨"c", 3⟩] .XMR false 2).at 0

/-- Agent 2 accepts and agent 3 rejects. -/
def answeredByBoth : List (MultiPartyCall × (ℕ → Input schema)) :=
  [payEach, (MultiPartyCall.accept 2 1).at 1, (MultiPartyCall.reject 3 1).at 1]

/-- Agent 2 rejects, and the sweep comes after the deadline. -/
def sweptAfterReject : List (MultiPartyCall × (ℕ → Input schema)) :=
  [payEach, (MultiPartyCall.reject 2 1).at 1, MultiPartyCall.expireStale.at 2]

/-- The payment after a list of calls, if it has been settled with a total of five. -/
def settlesFive (l : List (MultiPartyCall × (ℕ → Input schema))) : Bool :=
  ((serveAll (MultiPartyCall.run .rounding) l twoPayees).db.rows (Key.multiParty 1)).any fun r =>
    r.state ≠ .PENDING ∧ r.total_amount = 5

theorem exists_of_settlesFive {l : List (MultiPartyCall × (ℕ → Input schema))}
    (h : settlesFive l = true) : ∃ r : MultiPartyPayment,
      (serveAll (MultiPartyCall.run .rounding) l twoPayees).db.rows (Key.multiParty 1) = some r ∧
      r.state ≠ .PENDING ∧ r.total_amount = 5 := by
  simpa [settlesFive, Option.any_eq_true] using h

/-- The test that the shares add up to the total, in runs without sweeps. -/
def refundedOnce : MultiPartyCall → Solo schema → Stmt schema → Input schema → Bool
  | .createMultiParty _ _ recipients _ _ _, _, _, _ =>
      (recipients.map fun r => numeric 8 r.amount).sum
        = numeric 8 (recipients.map fun r => r.amount).sum
  | .expireStale, _, _, _ => false
  | _, _, _, _ => true

theorem refundedOnce_of (pay : Id) (c : MultiPartyCall) (v : Solo schema) (s : Stmt schema)
    (x : Input schema) (h : refundedOnce c v s x = true) : RefundedOnce pay c v s x := by
  unfold RefundedOnce
  split
  · intro _
    exact of_decide_eq_true h
  · cases h
  · trivial

/-- One share is paid and the other refunded. -/
theorem multi_party_conserves_answered :
    ((payments (serveAll (MultiPartyCall.run .rounding) answeredByBoth twoPayees).db 1).credits.map
      (·.amount)).sum = 5 := by
  have hrun : Served (RefundedOnce 1) (MultiPartyCall.run .rounding) twoPayees
      (serveAll (MultiPartyCall.run .rounding) answeredByBoth twoPayees) :=
    served_of_passesAll refundedOnce (refundedOnce_of 1) _ .refl (by decide +kernel)
  obtain ⟨r, hr, hs, htotal⟩ := exists_of_settlesFive (l := answeredByBoth) (by decide +kernel)
  rw [(multi_party_conserves 1 twoPayees_wf rfl hrun hr hs).1, htotal]

/-- The share of agent 2 is refunded when it rejects, and again by the sweep. -/
theorem multi_party_refunded_twice :
    ¬∀ (pay : Id) (st₀ st : Store schema) (r : MultiPartyPayment), st₀.db.WF →
      payments st₀.db pay = {} → Served (fun _ _ _ _ => True) (MultiPartyCall.run .rounding) st₀ st →
      st.db.rows (Key.multiParty pay) = some r → r.state ≠ .PENDING →
      ((payments st.db pay).credits.map (·.amount)).sum = r.total_amount ∧
        ∀ j, (payments st.db pay).credits.countP (Credit.covers j) ≤ 1 := by
  intro h
  obtain ⟨r, hr, hs, -⟩ := exists_of_settlesFive (l := sweptAfterReject) (by decide +kernel)
  have honce := (h 1 twoPayees _ r twoPayees_wf rfl
    (served_of_passesAll (fun _ _ _ _ => true) (fun _ _ _ _ _ => trivial) sweptAfterReject .refl
      (by decide +kernel)) hr hs).2 2
  have htwice : (payments (serveAll (MultiPartyCall.run .rounding) sweptAfterReject
      twoPayees).db 1).credits.countP (Credit.covers 2) = 2 := by
    decide +kernel
  omega

end Sthrip
