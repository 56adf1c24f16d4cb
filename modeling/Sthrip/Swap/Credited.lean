import Sthrip.Services.SwapService

set_option autoImplicit false

/-! # Credited iff completed

The output of a swap order is credited when the order is completed, in one commit, as long as no credit
raises in a poll that still commits: the order is completed in the session then, and the next commit
of the session makes that permanent. And an order that has a deposit with a provider is expired by
its lock time alone, also when the provider goes on to finish it.
-/

namespace Sthrip

open Txn

/-- The tables, and how the providers see the orders. -/
structure SwapState where
  tables : SwapTables
  provider : Id → ProviderStatus

/-- The provider has given the order up. -/
def ProviderStatus.ended (status : ProviderStatus) : Bool := status = .failed ∨ status = .expired

/-- The calls, and what providers do meanwhile. -/
inductive SwapCall where
  | poll (ids : List Id) (replies : Id → PollReply) (commits : Bool)
  | claim (order_id agent_id : Id) (htlc_secret : String)
  | expireStale (now : Time)
  | lock (order_id : Id) (btc_tx_hash : String)
  | refund (order_id : Id)
  | report (order_id : Id) (status : ProviderStatus)

namespace SwapCall

variable (digest : String → Option String)

/-- A session that raises leaves nothing behind. -/
def run (st : SwapState) : SwapCall → SwapState
  | .poll ids replies commits =>
      { st with
        tables := SwapService.pollExternalOrders st.provider ids replies commits st.tables }
  | .claim order_id agent_id htlc_secret =>
      match SwapService.claimSwap digest order_id agent_id htlc_secret st.tables with
      | .ok tables => { st with tables }
      | .error _ => st
  | .expireStale now => { st with tables := SwapService.expireStale now st.tables }
  | .lock order_id btc_tx_hash =>
      { st with tables := (SwapRepository.lock order_id btc_tx_hash st.tables).2 }
  | .refund order_id => { st with tables := (SwapRepository.refund order_id st.tables).2 }
  | .report order_id status =>
      { st with provider := Function.update st.provider order_id status }

def runAll (st : SwapState) (calls : List SwapCall) : SwapState := calls.foldl (run digest) st

/-- Does a poll change the order, when it comes to it? -/
def Acts (provider : Id → ProviderStatus) (replies : Id → PollReply) (id : Id) : Prop :=
  (replies id).reachable = true ∧ (provider id = .finished ∨ (provider id).ended = true)

/-- A credit for the order raises only in a poll that changes nothing afterwards and is not
committed. An order of a provider is not overdue, unless the provider has given it up. A provider does
not come back to an order that it has given up. -/
def Sound (id : Id) (st : SwapState) : SwapCall → Prop
  | .poll ids replies commits => ∀ pre post,
      SwapService.pendingExternal ids st.tables = pre ++ id :: post →
      (replies id).reachable = true → st.provider id = .finished →
      (replies id).credit_raises = true →
      commits = false ∧ ∀ j ∈ post, ¬Acts st.provider replies j
  | .expireStale now => ∀ order, st.tables.orders id = some order →
      order.external_order_id.isSome = true → SwapRepository.isOverdue now order = true →
      (st.provider id).ended = true
  | .report order_id status => order_id = id → (st.provider id).ended = true → status.ended = true
  | _ => True

end SwapCall

/-! ## One order -/

/-- What was credited for the order. -/
def SwapTables.creditsOf (t : SwapTables) (id : Id) : List SwapCredit :=
  t.credits.filter fun c => c.swap_id = id

/-- The order is credited iff it is completed, and expired only when its provider has given it up. -/
def SwapTables.Settled (id : Id) (status : ProviderStatus) (t : SwapTables) : Prop :=
  ∃ order, t.orders id = some order ∧
    t.creditsOf id = (if order.state = .COMPLETED
      then [⟨id, order.from_agent_id, order.to_amount⟩] else []) ∧
    (order.external_order_id.isSome = true → order.state = .EXPIRED → status.ended = true)

/-- Two tables have the same of an order. -/
structure SwapTables.Same (id : Id) (t t' : SwapTables) : Prop where
  orders : t'.orders id = t.orders id
  creditsOf : t'.creditsOf id = t.creditsOf id

variable {id j : Id} {status : ProviderStatus} {t t' : SwapTables}

theorem SwapTables.Same.refl (id : Id) (t : SwapTables) : t.Same id t := ⟨rfl, rfl⟩

theorem SwapTables.Same.trans {t'' : SwapTables} (h : t.Same id t') (h' : t'.Same id t'') :
    t.Same id t'' := ⟨h'.orders.trans h.orders, h'.creditsOf.trans h.creditsOf⟩

theorem SwapTables.Settled.congr (h : t.Settled id status) (hs : t.Same id t') :
    t'.Settled id status := by
  obtain ⟨order, horder, hcredits, hexpired⟩ := h
  exact ⟨order, hs.orders.trans horder, hs.creditsOf.trans hcredits, hexpired⟩

theorem SwapTables.credit_ne (h : j ≠ id) (agent_id : Id) (amount : ℚ) :
    t.Same id (t.credit j agent_id amount) := by
  refine ⟨rfl, ?_⟩
  rw [creditsOf, credit, List.filter_append, List.filter_cons_of_neg (by simpa using h)]
  exact List.append_nil _

theorem SwapTables.credit_self (agent_id : Id) (amount : ℚ) :
    (t.credit id agent_id amount).creditsOf id = t.creditsOf id ++ [⟨id, agent_id, amount⟩] := by
  rw [creditsOf, credit, List.filter_append, List.filter_cons_of_pos (by simp)]
  rfl

namespace SwapRepository

variable {guard : SwapStatus → Bool} {set : SwapOrder → SwapOrder}

/-- What a guarded update does: nothing, or the update. -/
theorem transition_cases (guard : SwapStatus → Bool) (set : SwapOrder → SwapOrder) (j : Id)
    (t : SwapTables) :
    transition guard set j t = (false, t) ∨ ∃ order, t.orders j = some order ∧
      guard order.state = true ∧ transition guard set j t
        = (true, { t with orders := Function.update t.orders j (some (set order)) }) := by
  unfold transition
  cases h : t.orders j with
  | none => exact .inl rfl
  | some order =>
      simp only
      by_cases hg : guard order.state = true
      · exact .inr ⟨order, rfl, hg, if_pos hg⟩
      · exact .inl (if_neg hg)

theorem transition_ne (h : j ≠ id) : t.Same id (transition guard set j t).2 := by
  rcases transition_cases guard set j t with heq | ⟨order, -, -, heq⟩
  · rw [heq]
    exact .refl id t
  · rw [heq]
    exact ⟨Function.update_of_ne h.symm .., rfl⟩

/-- A transition between states in which nothing is credited. -/
theorem transition_settled (h : t.Settled id status)
    (hfrom : ∀ state, guard state = true → state ≠ .COMPLETED)
    (hto : ∀ order, (set order).state ≠ .COMPLETED)
    (hexpired : ∀ order, (set order).external_order_id.isSome = true →
      (set order).state = .EXPIRED → status.ended = true) :
    (transition guard set j t).2.Settled id status := by
  by_cases hj : j = id
  · subst hj
    rcases transition_cases guard set j t with heq | ⟨order', horder', hg, heq⟩
    · rw [heq]
      exact h
    · rw [heq]
      obtain ⟨order, horder, hcredits, -⟩ := h
      rw [horder, Option.some.injEq] at horder'
      subst horder'
      -- the order was not completed before, so nothing was credited
      rw [if_neg (hfrom _ hg)] at hcredits
      refine ⟨set order, Function.update_self .., ?_, hexpired order⟩
      rw [if_neg (hto order)]
      exact hcredits
  · exact h.congr (transition_ne hj)

/-- A transition to `COMPLETED`, and the credit. -/
theorem completed_settled (h : t.Settled id status)
    (hfrom : ∀ state, guard state = true → state ≠ .COMPLETED)
    (hto : ∀ order, (set order).state = .COMPLETED)
    (hagent : ∀ order, (set order).from_agent_id = order.from_agent_id) {order : SwapOrder}
    (horder : t.orders j = some order) (hdone : (transition guard set j t).1 = true) :
    ((transition guard set j t).2.credit j order.from_agent_id (set order).to_amount).Settled id
      status := by
  by_cases hj : j = id
  · subst hj
    rcases transition_cases guard set j t with heq | ⟨order', horder', hg, heq⟩
    · rw [heq] at hdone
      cases hdone
    · rw [horder, Option.some.injEq] at horder'
      subst horder'
      obtain ⟨order', horder', hcredits, -⟩ := h
      rw [horder, Option.some.injEq] at horder'
      subst horder'
      rw [if_neg (hfrom _ hg)] at hcredits
      rw [heq]
      refine ⟨set order, Function.update_self .., ?_, fun _ hexpired => ?_⟩
      · rw [if_pos (hto order), hagent, SwapTables.credit_self]
        have hsame : ({ t with orders := Function.update t.orders j (some (set order)) } :
            SwapTables).creditsOf j = t.creditsOf j := rfl
        rw [hsame, hcredits]
        rfl
      · rw [hto order] at hexpired
        cases hexpired
  · exact h.congr ((transition_ne hj).trans (SwapTables.credit_ne hj _ _))

theorem completeFromExternal_settled (h : t.Settled id status) {to_amount : ℚ} {order : SwapOrder}
    (horder : t.orders j = some order) (hdone : (completeFromExternal j to_amount t).1 = true) :
    ((completeFromExternal j to_amount t).2.credit j order.from_agent_id to_amount).Settled id
      status := by
  unfold completeFromExternal at hdone ⊢
  refine completed_settled h ?_ ?_ ?_ horder hdone
  · simp
  · exact fun _ => rfl
  · exact fun _ => rfl

theorem complete_settled (h : t.Settled id status) {htlc_secret : String} {order : SwapOrder}
    (horder : t.orders j = some order) (hdone : (complete j htlc_secret t).1 = true) :
    ((complete j htlc_secret t).2.credit j order.from_agent_id order.to_amount).Settled id
      status := by
  unfold complete at hdone ⊢
  refine completed_settled h ?_ ?_ ?_ horder hdone
  · simp
  · exact fun _ => rfl
  · exact fun _ => rfl

end SwapRepository

/-! ## Polls -/

namespace SwapService

variable {reply : PollReply} {s : PollSession}

/-- The order is settled, as it is committed and as the session sees it. -/
def Clean (id : Id) (status : ProviderStatus) (s : PollSession) : Prop :=
  s.committed.Settled id status ∧ s.working.Settled id status

theorem clean_commit (h : t.Settled id status) : Clean id status (.commit t) := ⟨h, h⟩

/-- What a poll does with one order: nothing, an update that is committed, or a completion whose
credit raises. -/
theorem pollOne_cases (status : ProviderStatus) (reply : PollReply) (j : Id) (s : PollSession) :
    pollOne status reply j s = s ∨
      (∃ order to_amount, s.working.orders j = some order ∧ status = .finished ∧
        reply.reachable = true ∧
        (SwapRepository.completeFromExternal j to_amount s.working).1 = true ∧
        (reply.credit_raises = true ∧ pollOne status reply j s
            = { s with working := (SwapRepository.completeFromExternal j to_amount s.working).2 } ∨
          pollOne status reply j s
            = .commit ((SwapRepository.completeFromExternal j to_amount s.working).2.credit j
              order.from_agent_id to_amount))) ∨
      status.ended = true ∧ reply.reachable = true ∧
        pollOne status reply j s = .commit (SwapRepository.expire j s.working).2 := by
  unfold pollOne
  cases horder : s.working.orders j with
  | none => exact .inl rfl
  | some order =>
      simp only
      split
      · next hasks =>
          cases status with
          | finished =>
              simp only
              split
              · next hdone =>
                  refine .inr (.inl ⟨order, _, rfl, by simp, hasks.2, hdone, ?_⟩)
                  split
                  · next hraises => exact .inl ⟨hraises, rfl⟩
                  · exact .inr rfl
              · exact .inl rfl
          | failed =>
              simp only
              split
              · exact .inr (.inr ⟨rfl, hasks.2, rfl⟩)
              · exact .inl rfl
          | expired =>
              simp only
              split
              · exact .inr (.inr ⟨rfl, hasks.2, rfl⟩)
              · exact .inl rfl
          | _ => exact .inl rfl
      · exact .inl rfl

theorem completeFromExternal_same (h : j ≠ id) (to_amount : ℚ) (t : SwapTables) :
    t.Same id (SwapRepository.completeFromExternal j to_amount t).2 :=
  SwapRepository.transition_ne h

/-- An order that is polled leaves the others as they are. -/
theorem pollOne_other (h : j ≠ id) {status' : ProviderStatus} (hs : Clean id status s) :
    Clean id status (pollOne status' reply j s) := by
  rcases pollOne_cases status' reply j s with heq | ⟨order, to_amount, -, -, -, -, ⟨-, heq⟩ | heq⟩ |
    ⟨-, -, heq⟩
  · rw [heq]
    exact hs
  · rw [heq]
    exact ⟨hs.1, hs.2.congr (completeFromExternal_same h to_amount _)⟩
  · rw [heq]
    apply clean_commit
    exact hs.2.congr ((completeFromExternal_same h to_amount _).trans (SwapTables.credit_ne h _ _))
  · rw [heq]
    apply clean_commit
    exact hs.2.congr (SwapRepository.transition_ne h)

/-- The order itself stays settled, unless its credit raises. -/
theorem pollOne_self (reply : PollReply) (hs : Clean id status s) :
    Clean id status (pollOne status reply id s) ∨
      reply.reachable = true ∧ status = .finished ∧ reply.credit_raises = true ∧
        (pollOne status reply id s).committed = s.committed := by
  rcases pollOne_cases status reply id s with heq |
    ⟨order, to_amount, horder, hfinished, hreach, hdone, ⟨hraises, heq⟩ | heq⟩ | ⟨hended, -, heq⟩
  · rw [heq]
    exact .inl hs
  -- the completion stays in the session, without its credit
  · refine .inr ⟨hreach, hfinished, hraises, ?_⟩
    rw [heq]
  · rw [heq]
    exact .inl (clean_commit (SwapRepository.completeFromExternal_settled hs.2 horder hdone))
  · rw [heq]
    refine .inl (clean_commit ?_)
    -- the provider has ended, so the order may expire
    refine SwapRepository.transition_settled hs.2 ?_ (fun _ => by simp) fun _ _ _ => hended
    intro state hstate
    rcases of_decide_eq_true hstate with rfl | rfl
    · simp
    · simp

variable {provider : Id → ProviderStatus} {replies : Id → PollReply}

/-- The loop over the orders of a poll. -/
def pollAll (provider : Id → ProviderStatus) (replies : Id → PollReply) (ids : List Id)
    (s : PollSession) : PollSession :=
  ids.foldl (fun s id => pollOne (provider id) (replies id) id s) s

/-- Orders that a poll does not change are not committed either. -/
theorem pollAll_quiet {ids : List Id} (h : ∀ j ∈ ids, ¬SwapCall.Acts provider replies j) :
    (pollAll provider replies ids s).committed = s.committed := by
  induction ids generalizing s with
  | nil => rfl
  | cons j ids ih =>
      have hj := h j (List.mem_cons_self ..)
      have hsame : pollOne (provider j) (replies j) j s = s := by
        rcases pollOne_cases (provider j) (replies j) j s with heq |
          ⟨_, _, -, hfinished, hreach, -⟩ | ⟨hended, hreach, -⟩
        · exact heq
        · exact absurd ⟨hreach, .inl hfinished⟩ hj
        · exact absurd ⟨hreach, .inr hended⟩ hj
      rw [pollAll, List.foldl_cons, hsame]
      exact ih fun j' hj' => h j' (List.mem_cons_of_mem _ hj')

theorem pollAll_settled {ids : List Id} {commits : Bool} (hs : Clean id (provider id) s)
    (hraises : ∀ pre post, ids = pre ++ id :: post → (replies id).reachable = true →
      provider id = .finished → (replies id).credit_raises = true →
      commits = false ∧ ∀ j ∈ post, ¬SwapCall.Acts provider replies j) :
    (if commits then (pollAll provider replies ids s).working
      else (pollAll provider replies ids s).committed).Settled id (provider id) := by
  induction ids generalizing s with
  | nil =>
      split
      · exact hs.2
      · exact hs.1
  | cons j ids ih =>
      -- an order after `id` in the rest is after `id` in the list
      have hrest : ∀ pre post, ids = pre ++ id :: post → (replies id).reachable = true →
          provider id = .finished → (replies id).credit_raises = true →
          commits = false ∧ ∀ j ∈ post, ¬SwapCall.Acts provider replies j := by
        intro pre post heq
        exact hraises (j :: pre) post (by rw [heq]; rfl)
      by_cases hj : j = id
      · subst hj
        rcases pollOne_self (replies j) hs with hclean | ⟨hreach, hfin, hraise, hcommitted⟩
        · exact ih hclean hrest
        · -- the credit has raised: nothing of what the session sees is committed any more
          obtain ⟨hno, hquiet⟩ := hraises [] ids rfl hreach hfin hraise
          rw [hno, if_neg Bool.false_ne_true, pollAll, List.foldl_cons]
          have hkept := pollAll_quiet (s := pollOne (provider j) (replies j) j s) hquiet
          rw [pollAll] at hkept
          rw [hkept, hcommitted]
          exact hs.1
      · exact ih (pollOne_other hj hs) hrest

end SwapService

/-! ## Runs -/

namespace SwapCall

variable {digest : String → Option String} {st : SwapState}

theorem claim_settled (h : t.Settled id status) {order_id agent_id : Id} {htlc_secret : String}
    (hclaim : SwapService.claimSwap digest order_id agent_id htlc_secret t = .ok t') :
    t'.Settled id status := by
  unfold SwapService.claimSwap at hclaim
  cases horder : t.orders order_id with
  | none =>
      rw [horder] at hclaim
      cases hclaim
  | some order =>
      rw [horder] at hclaim
      simp only at hclaim
      split at hclaim
      · cases hclaim
      · next hagent =>
          split at hclaim
          · cases hclaim
          · split at hclaim
            · cases hclaim
            · split at hclaim
              · next hdone =>
                  rw [← Except.ok.inj hclaim, ← not_not.mp hagent]
                  exact SwapRepository.complete_settled h horder hdone
              · cases hclaim

theorem expireStale_settled {now : Time} (h : t.Settled id status)
    (hsound : ∀ order, t.orders id = some order → order.external_order_id.isSome = true →
      SwapRepository.isOverdue now order = true → status.ended = true) :
    (SwapService.expireStale now t).Settled id status := by
  obtain ⟨order, horder, hcredits, hexpired⟩ := h
  have hrow : (SwapService.expireStale now t).orders id
      = some (if SwapRepository.isOverdue now order then { order with state := .EXPIRED }
        else order) := by
    show (t.orders id).map _ = _
    rw [horder]
    rfl
  -- the sweep writes the state alone
  by_cases hover : SwapRepository.isOverdue now order = true
  · rw [if_pos hover] at hrow
    refine ⟨_, hrow, ?_, fun hext _ => hsound order horder hext hover⟩
    -- an overdue order has not been completed
    have hopen : order.state ≠ .COMPLETED := by
      rcases (of_decide_eq_true hover).1 with hstate | hstate
      · rw [hstate]
        decide
      · rw [hstate]
        decide
    rw [if_neg hopen] at hcredits
    exact hcredits
  · rw [if_neg hover] at hrow
    exact ⟨order, hrow, hcredits, hexpired⟩

/-- **The step lemma.** -/
theorem run_settled (h : st.tables.Settled id (st.provider id)) (call : SwapCall)
    (hsound : call.Sound id st) :
    (call.run digest st).tables.Settled id ((call.run digest st).provider id) := by
  cases call with
  | poll ids replies commits => exact SwapService.pollAll_settled ⟨h, h⟩ hsound
  | claim order_id agent_id htlc_secret =>
      cases hclaim : SwapService.claimSwap digest order_id agent_id htlc_secret st.tables with
      | ok tables =>
          have hrun : run digest st (.claim order_id agent_id htlc_secret) = { st with tables } := by
            simp only [run, hclaim]
          rw [hrun]
          exact claim_settled h hclaim
      | error e =>
          have hrun : run digest st (.claim order_id agent_id htlc_secret) = st := by
            simp only [run, hclaim]
          rw [hrun]
          exact h
  | expireStale now => exact expireStale_settled h hsound
  | lock order_id btc_tx_hash =>
      refine SwapRepository.transition_settled h ?_ (fun _ => by simp) fun _ _ hexpired => ?_
      · simp
      · simp at hexpired
  | refund order_id =>
      refine SwapRepository.transition_settled h ?_ (fun _ => by simp) fun _ _ hexpired => ?_
      · simp
      · simp at hexpired
  | report order_id status =>
      obtain ⟨order, horder, hcredits, hexpired⟩ := h
      refine ⟨order, horder, hcredits, fun hext hstate => ?_⟩
      show (Function.update st.provider order_id status id).ended = true
      by_cases hid : order_id = id
      · subst hid
        rw [Function.update_self]
        exact hsound rfl (hexpired hext hstate)
      · rw [Function.update_of_ne (Ne.symm hid)]
        exact hexpired hext hstate

/-- Every call of the run is sound when it is made. -/
def SoundAll (digest : String → Option String) (id : Id) : SwapState → List SwapCall → Prop
  | _, [] => True
  | st, call :: calls => call.Sound id st ∧ SoundAll digest id (call.run digest st) calls

/-- The run lemma. -/
theorem runAll_settled {calls : List SwapCall} (h : st.tables.Settled id (st.provider id))
    (hsound : SoundAll digest id st calls) :
    (runAll digest st calls).tables.Settled id ((runAll digest st calls).provider id) := by
  induction calls generalizing st with
  | nil => exact h
  | cons call calls ih => exact ih (run_settled h call hsound.1) hsound.2

/-- Two orders of agent 1 that wait for their providers. -/
def twoOrders : SwapState where
  tables :=
    { orders := fun id =>
        if id = 1 ∨ id = 2 then
          some { from_agent_id := 1, to_amount := 5, htlc_hash := "00", lock_expiry := hours 2
                 external_order_id := some "abc", provider_name := some "changenow" }
        else none }
  provider := fun _ => .waiting

/-- Both orders are finished, and then polled. -/
def finishBoth (reply : PollReply) : List SwapCall :=
  [.report 1 .finished, .report 2 .finished,
    .poll [1, 2] (fun id => if id = 1 then reply else {}) true]

end SwapCall

end Sthrip
