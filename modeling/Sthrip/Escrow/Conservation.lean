import Sthrip.Escrow.Accounting
import Sthrip.Escrow.Methods
import Mathlib.Tactic.NormNum

set_option autoImplicit false

/-! # Multi-milestone escrow and conservation of money

Every method of the escrow service keeps the books of every deal in order, with two exceptions,
both in the sweep that resolves expired deals:

* the expiry of a whole deal refunds its full amount, also when milestones were paid out before;
* the expiry of a milestone refunds the amount less `total_released` and `total_fees`, which is
  the unpaid rest only if these two add up to the amounts of the milestones before it. Fees are
  part of what was released, and what a partial release gave back to the buyer is in neither.

`ExpiresClean d` is the condition that neither happens to deal `d`. Under it every run conserves
the deal's money; a run with one released milestone and a deal that then expires does not.
Amounts are exact here: columns do not round.
-/

namespace Sthrip

open Txn Prog Escrow

/-! ## The condition -/

/-- A step expires deal `d` as a whole only while no milestone of it is completed, and expires
its `k`-th milestone only when the totals released and collected so far add up to the amounts of
the milestones before it. -/
def ExpiresClean (d : Id) : StepCond schema
  | v, .update (Key.deal e) guard set, _ =>
      e = d → ∀ deal, v.db.rows (Key.deal e) = some deal → guard deal = true →
        deal.is_multi_milestone = true → deal.status = .ACCEPTED →
        (set deal).status = .EXPIRED →
        ∀ j ms, v.db.rows (Key.milestone e j) = some ms → ms.status ≠ .COMPLETED
  | v, .update (Key.milestone e k) guard set, _ =>
      e = d → ∀ deal ms, v.db.rows (Key.deal e) = some deal →
        v.db.rows (Key.milestone e k) = some ms → guard ms = true →
        deal.is_multi_milestone = true → (set ms).status = .EXPIRED →
        deal.total_released + deal.total_fees = (escrows v.db e).amountBefore k
  | _, _, _ => True

/-- A program moved deal `e`, and if this is `d` it kept its books in order. -/
def Keeps (d e : Id) (v v' : Solo schema) : Prop :=
  ∃ db' E', v' = { v with db := db' } ∧ DealMoves v.db db' e E' ∧
    (e = d → (escrows v.db e).Accounted → E'.Accounted)

theorem Keeps.accounted {d e : Id} {v v' : Solo schema} (h : Keeps d e v v')
    (ha : (escrows v.db d).Accounted) : (escrows v'.db d).Accounted := by
  obtain ⟨db', E', rfl, hm, hE⟩ := h
  exact hm.keeps hE ha

theorem Keeps.refl (d e : Id) (v : Solo schema) : Keeps d e v v :=
  ⟨v.db, _, rfl, .refl rfl, fun _ h => h⟩

section Methods

variable {d e : Id} {v : Solo schema} {E E' : Escrow} {deal deal' : EscrowDeal}

/-- A method that finds a deal and leaves a deal. -/
theorem Keeps.of {db' : DB schema} (hE : escrows v.db e = E) (hd : E.deal = some deal)
    (hm : DealMoves v.db db' e E') (hd' : E'.deal = some deal')
    (hmulti : deal'.is_multi_milestone = deal.is_multi_milestone)
    (h : e = d → deal.is_multi_milestone = true → E.Terms deal → E.Books deal →
      E'.Terms deal' ∧ E'.Books deal') : Keeps d e v { v with db := db' } := by
  refine ⟨db', E', rfl, hm, fun he ha => (accounted_of_some hd').mpr fun hmul => ?_⟩
  rw [hE] at ha
  rw [hmulti] at hmul
  obtain ⟨ht, hb⟩ := (accounted_of_some hd).mp ha hmul
  exact h he hmul ht hb

/-- The exceptional end of a method: its session is rolled back. -/
abbrev Untouched (v : Solo schema) : Exn → Solo schema → Prop := fun _ v' => v'.saved = v.saved

theorem acceptEscrow_keeps (seller_id : Id) :
    (EscrowService.acceptEscrow e seller_id).always (ExpiresClean d)
      (fun _ v' => Keeps d e v v') (Untouched v) v := by
  generalize hE : escrows v.db e = E
  refine EscrowService.acceptEscrow_always hE (fun _ => rfl) ?_ ?_ ?_
  · intro deal t db' hd _ hsingle m
    exact .of hE hd m rfl rfl fun _ hmulti _ _ => absurd hmulti (by simp [hsingle])
  · intro deal t ms t' db' hd hs _ hms m
    refine .of hE hd m rfl rfl fun _ _ ht hb => ?_
    obtain ⟨hall, hpaid⟩ := hb.created hs
    exact ⟨ht.congr (map_setMilestone (E := E) _ hms rfl) rfl rfl rfl, books_of_inProgress rfl
      (inProgress_first (E := E.setDeal _) ht.count (fun j hj => ((ht.dom j).mp hj).1) hall
        hpaid rfl)⟩
  · intro deal t db' hd hs _ hmiss m
    refine .of hE hd m rfl rfl fun _ _ ht hb => ?_
    -- a deal that waits has a first milestone, which waits as well
    obtain ⟨ms, hms⟩ := Option.isSome_iff_exists.mp ((ht.dom 1).mpr ⟨le_rfl, ht.count⟩)
    exact absurd ((hb.created hs).1 1 ms hms) (hmiss ms hms)

theorem cancelEscrow_keeps (buyer_id : Id) :
    (EscrowService.cancelEscrow .exact e buyer_id).always (ExpiresClean d)
      (fun _ v' => Keeps d e v v') (Untouched v) v := by
  generalize hE : escrows v.db e = E
  refine EscrowService.cancelEscrow_always hE (fun _ => rfl) ?_
  intro deal t y db₁ db' hd hs _ _ m
  refine .of hE hd m rfl rfl fun _ _ ht hb => ?_
  refine ⟨ht.congr (fun _ => rfl) rfl rfl rfl, books_of_ended (by simp [EscrowDeal.afterCancel]) ?_⟩
  rw [setDeal_paid, pay_paid, (hb.created hs).2, zero_add, max_eq_left ht.amount_nonneg]
  rfl

theorem deliverMilestone_keeps (milestone_seq : ℕ) (seller_id : Id) :
    (EscrowService.deliverMilestone e milestone_seq seller_id).always (ExpiresClean d)
      (fun _ v' => Keeps d e v v') (Untouched v) v := by
  generalize hE : escrows v.db e = E
  refine EscrowService.deliverMilestone_always hE (fun _ => rfl) ?_
  intro deal ms t db' hd hs hms hact m
  refine .of hE hd m hd rfl fun _ _ ht hb => ⟨?_, ?_⟩
  · exact ht.congr (map_setMilestone _ hms rfl) rfl rfl rfl
  · obtain ⟨k, hk⟩ := hb.accepted hs
    obtain rfl := hk.eq_current hms (.inl hact)
    exact books_of_inProgress hs (hk.setCurrent hms rfl (.inr rfl))

theorem terms_cancelled (ht : E.Terms deal) (t : Time) :
    (E.mapMilestones (·.cancelled t)).Terms deal := by
  refine ht.congr (fun i => ?_) rfl rfl rfl
  show ((E.milestone i).map _).map _ = _
  rw [Option.map_map]
  refine congrArg (fun f => (E.milestone i).map f) (funext fun ms => ?_)
  simp only [Function.comp, EscrowMilestone.cancelled]
  split <;> rfl

/-- `advance` after the milestone `j` was paid out. -/
theorem advances_books {j : ℕ} {released fees : ℚ} (h : E.Advances .exact deal j released fees E')
    (hs : deal.status = .ACCEPTED) (ht : E.Terms deal) (hr : E.Released deal.milestone_count j)
    (hd' : E'.deal = some deal') : E'.Terms deal' ∧ E'.Books deal' := by
  have hupto : E.CompletedUpto deal.milestone_count j := ⟨ht.dom, hr.le, hr.upto, hr.after⟩
  cases h with
  | last count t t' hcount hlast =>
      obtain rfl := Option.some.inj hd'
      rw [hcount _ hupto] at hlast
      refine ⟨(terms_cancelled ht t').congr (fun _ => rfl) rfl rfl rfl, ?_⟩
      exact books_of_ended (by simp [EscrowDeal.afterLast]) (hr.last ht hlast)
  | next count ms t hcount hnext hms =>
      obtain rfl := Option.some.inj hd'
      rw [hcount _ hupto] at hnext
      refine ⟨ht.congr (map_setMilestone (E := E) _ hms rfl) rfl rfl rfl, ?_⟩
      refine books_of_inProgress hs (k := j + 1) ?_
      exact Released.next (E := E.setDeal _) ⟨hr.pos, hr.le, hr.upto, hr.after, hr.paid⟩ hnext hms
        rfl rfl
  | stuck count hcount hnext hmiss =>
      rw [hcount _ hupto] at hnext
      obtain ⟨ms, hms⟩ := Option.isSome_iff_exists.mp ((ht.dom (j + 1)).mpr ⟨by omega, hnext⟩)
      exact absurd (hr.after _ ms hms (Nat.lt_succ_self j)) (hmiss ms hms)

theorem releaseMilestone_keeps (milestone_seq : ℕ) (buyer_id : Id) (release_amount : ℚ) :
    (EscrowService.releaseMilestone .exact e milestone_seq buyer_id release_amount).always
      (ExpiresClean d) (fun _ v' => Keeps d e v v') (Untouched v) v := by
  generalize hE : escrows v.db e = E
  refine EscrowService.releaseMilestone_always hE (fun _ => rfl) ?_
  intro deal ms t db' E' hd hs hms hdel h0 h1 m hadv
  obtain ⟨deal', hd', hmulti⟩ := hadv.exists_deal
  refine .of hE hd m hd' hmulti fun _ _ ht hb => ?_
  obtain ⟨k, hk⟩ := hb.accepted hs
  obtain rfl := hk.eq_current hms (.inr hdel)
  rw [ht.rate, release, pay_release E h0 h1] at hadv
  exact advances_books hadv hs (ht.congr (map_setMilestone (E := E) _ hms rfl) rfl rfl rfl)
    (hk.release hms rfl rfl) hd'

/-! ## The sweep -/

section Sweep

variable {R : Exn → Solo schema → Prop}

theorem resolveSingle_keeps :
    (EscrowService.resolveSingle .exact e).always (ExpiresClean d)
      (fun _ v' => Keeps d e v v') R v := by
  generalize hE : escrows v.db e = E
  refine EscrowService.resolveSingle_always hE (.refl d e v) ?_ ?_
  · intro deal t y db' hd hs hok m
    have hrow : v.db.rows (Key.deal e) = some deal := by rw [← hd, ← hE]; rfl
    refine .of hE hd m rfl rfl fun he hmulti ht hb => ?_
    have hpaid : E.paid = 0 := by
      rcases hs with hs | hs
      · exact (hb.created hs).2
      · -- the condition says that no milestone is completed
        obtain ⟨k, hk⟩ := hb.accepted hs
        refine hk.paid_eq_zero ht fun j ms hms => ?_
        exact hok he deal hrow (by simp [hs]) hmulti hs rfl j ms (by rw [← hms, ← hE]; rfl)
    refine ⟨ht.congr (fun _ => rfl) rfl rfl rfl, books_of_ended (by simp [EscrowDeal.afterExpire]) ?_⟩
    rw [pay_paid, setDeal_paid, hpaid, zero_add, max_eq_left ht.amount_nonneg]
    rfl
  · -- a deal with milestones is never `DELIVERED`
    intro deal t y db' hd hs _ m
    exact .of hE hd m rfl rfl fun _ _ _ hb => absurd hs hb.not_delivered

theorem resolveMilestoneExpiry_keeps (j : ℕ) :
    (EscrowService.resolveMilestoneExpiry .exact e j).always (ExpiresClean d)
      (fun _ v' => Keeps d e v v') R v := by
  generalize hE : escrows v.db e = E
  refine EscrowService.resolveMilestoneExpiry_always hE (.refl d e v) ?_ ?_
  · intro deal ms t y t' t'' db' hd hs hms hact hok m
    refine .of hE hd m rfl rfl fun he hmulti ht hb => ?_
    obtain ⟨k, hk⟩ := hb.accepted hs
    obtain rfl := hk.eq_current hms (.inl hact)
    -- the condition makes the refund the part that has not been paid out
    have hclean : deal.total_released + deal.total_fees = E.amountBefore j := by
      subst hE
      exact hok he deal ms hd hms (by simp [hact]) hmulti rfl
    have hrest : deal.remaining = deal.amount - E.paid := by
      rw [EscrowDeal.remaining, hk.paid, ← hclean]
      ring
    have hterms : (E.setMilestone j (ms.afterExpire t)).Terms deal :=
      ht.congr (map_setMilestone (E := E) _ hms rfl) rfl rfl rfl
    refine ⟨(terms_cancelled hterms t').congr (fun _ => rfl) rfl rfl rfl, books_of_ended ?_ ?_⟩
    · unfold EscrowDeal.afterExpiry
      by_cases hj : j = 1
      · simp [hj]
      · simp [hj]
    · have hle : E.paid ≤ deal.amount := by
        rw [hk.paid]
        exact ht.amountBefore_le (by have := hk.le; omega)
      rw [setDeal_paid, pay_paid, mapMilestones_paid, setMilestone_paid, hrest,
        max_eq_left (sub_nonneg.mpr hle), add_sub_cancel]
      rfl
  · intro deal ms t db' E' hd hs hms hdel m hadv
    obtain ⟨deal', hd', hmulti⟩ := hadv.exists_deal
    refine .of hE hd m hd' hmulti fun _ _ ht hb => ?_
    obtain ⟨k, hk⟩ := hb.accepted hs
    obtain rfl := hk.eq_current hms (.inr hdel)
    rw [ht.rate, Escrow.releaseAll, pay_autoRelease _ (ht.pos j ms hms).le] at hadv
    exact advances_books hadv hs (ht.congr (map_setMilestone (E := E) _ hms rfl) rfl rfl rfl)
      (hk.release hms rfl rfl) hd'

/-- A sweep keeps the books of every deal, one deal after the other. -/
theorem resolveExpired_keeps (ha : (escrows v.db d).Accounted) :
    (EscrowService.resolveExpired .exact).always (ExpiresClean d)
      (fun _ v' => (escrows v'.db d).Accounted ∧ v'.saved = v.saved) (Untouched v) v := by
  have keep : ∀ {e v₁ v₂}, (escrows v₁.db d).Accounted ∧ v₁.saved = v.saved → Keeps d e v₁ v₂ →
      (escrows v₂.db d).Accounted ∧ v₂.saved = v.saved := by
    rintro e v₁ v₂ ⟨h₁, h₂⟩ hk
    obtain ⟨db', E', rfl, -⟩ := id hk
    exact ⟨hk.accounted h₁, h₂⟩
  refine EscrowService.resolveExpired_always (fun e v₁ h₁ => ?_) (fun e j v₁ h₁ => ?_) ⟨ha, rfl⟩
  · exact always_mono (R := fun _ _ => False) resolveSingle_keeps (fun _ _ h => keep h₁ h)
      fun _ _ h => h.elim
  · exact always_mono (R := fun _ _ => False) (resolveMilestoneExpiry_keeps j)
      (fun _ _ h => keep h₁ h) fun _ _ h => h.elim

end Sweep

/-! ## Creation -/

theorem amountBefore_milestonesOf (data : List MilestoneData) (E : Escrow)
    (hE : E.milestone = milestonesOf data) :
    E.amountBefore (data.length + 1) = (data.map (·.amount)).sum := by
  induction data using List.reverseRecOn generalizing E with
  | nil => simp [amountBefore]
  | append_singleton data m ih =>
      have ih' := ih { E with milestone := milestonesOf data } rfl
      have hlt : ∀ j ∈ Finset.Ico 1 (data.length + 1),
          E.amountOf j = { E with milestone := milestonesOf data }.amountOf j := by
        intro j hj
        rw [Finset.mem_Ico] at hj
        simp only [amountOf, hE, milestonesOf_append]
        rw [Function.update_of_ne (by omega)]
      have hlast : E.amountOf (data.length + 1) = m.amount := by
        simp only [amountOf, hE, milestonesOf_append, Function.update_self]
        rfl
      rw [List.length_append, List.length_singleton, amountBefore_succ _ (by omega), hlast,
        amountBefore, Finset.sum_congr rfl hlt, ← amountBefore, ih']
      simp

theorem createEscrow_keeps (buyer_id seller_id : Id) (amount : ℚ) (description : String)
    (accept_timeout_hours delivery_timeout_hours review_timeout_hours : ℤ)
    (milestones : Option (List MilestoneData)) :
    (EscrowService.createEscrow .exact e buyer_id seller_id amount description
      accept_timeout_hours delivery_timeout_hours review_timeout_hours milestones).always
      (ExpiresClean d) (fun _ v' => Keeps d e v v') (Untouched v) v := by
  generalize hE : escrows v.db e = E
  refine EscrowService.createEscrow_always hE (fun _ _ => rfl) ?_ ?_
  · intro deal db' _ hsingle m
    refine ⟨db', _, rfl, m, fun _ _ => ?_⟩
    exact (accounted_of_some (setDeal_deal ..)).mpr fun h => by rw [hsingle] at h; cases h
  · intro deal data db' E' hnone hpos hsum hagreed m hd' hrows
    refine ⟨db', E', rfl, m, fun _ ha => ?_⟩
    rw [hE, accounted_of_none hnone] at ha
    subst ha
    obtain ⟨rfl, hposd⟩ := hrows rfl
    have hexact : data.map (MilestoneData.kept .exact) = data := List.map_id data
    rw [hexact] at hposd ⊢
    refine (accounted_of_some rfl).mpr fun _ =>
      ⟨⟨hagreed.one_le_count hpos hsum, ?_, fun j ms hms => ?_, ?_, ?_⟩, ?_⟩
    · rw [hagreed.count]
      exact milestonesOf_dom data
    · obtain ⟨m, hm, rfl⟩ := milestonesOf_mem hms
      exact hposd m hm
    · rw [hagreed.count, hagreed.amount_eq]
      exact (amountBefore_milestonesOf data _ rfl).trans hsum
    · rw [EscrowDeal.feeRate, hagreed.fee_eq]
      norm_num [Columns.exact, computeFeePercent, defaultFeePercent]
    · unfold Books
      rw [hagreed.status]
      refine ⟨fun j ms hms => ?_, rfl⟩
      obtain ⟨m, -, rfl⟩ := milestonesOf_mem hms
      rfl

end Methods

/-! ## Runs -/

/-- The calls of a run, each in a session of its own. -/
inductive EscrowCall where
  | createEscrow (deal_id buyer_id seller_id : Id) (amount : ℚ) (description : String)
      (accept_timeout_hours delivery_timeout_hours review_timeout_hours : ℤ)
      (milestones : Option (List MilestoneData))
  | acceptEscrow (escrow_id seller_id : Id)
  | deliverMilestone (escrow_id : Id) (milestone_seq : ℕ) (seller_id : Id)
  | releaseMilestone (escrow_id : Id) (milestone_seq : ℕ) (buyer_id : Id) (release_amount : ℚ)
  | cancelEscrow (escrow_id buyer_id : Id)
  | resolveExpired

def EscrowCall.body : EscrowCall → Program Unit
  | .createEscrow deal_id buyer_id seller_id amount description accept delivery review
      milestones => do
      let _ ← EscrowService.createEscrow .exact deal_id buyer_id seller_id amount description
        accept delivery review milestones
  | .acceptEscrow escrow_id seller_id => do
      let _ ← EscrowService.acceptEscrow escrow_id seller_id
  | .deliverMilestone escrow_id milestone_seq seller_id => do
      let _ ← EscrowService.deliverMilestone escrow_id milestone_seq seller_id
  | .releaseMilestone escrow_id milestone_seq buyer_id release_amount => do
      let _ ← EscrowService.releaseMilestone .exact escrow_id milestone_seq buyer_id release_amount
  | .cancelEscrow escrow_id buyer_id => do
      let _ ← EscrowService.cancelEscrow .exact escrow_id buyer_id
  | .resolveExpired => do
      let _ ← EscrowService.resolveExpired .exact

def EscrowCall.run (c : EscrowCall) : Program Unit := withSession c.body

/-- Every call keeps the books of every deal in order. -/
theorem EscrowCall.body_keeps {d : Id} (c : EscrowCall) {v : Solo schema}
    (ha : (escrows v.db d).Accounted) :
    c.body.always (ExpiresClean d)
      (fun _ v' => (escrows v'.db d).Accounted ∧ v'.saved = v.saved) (Untouched v) v := by
  have keep : ∀ {e v'}, Keeps d e v v' →
      (escrows v'.db d).Accounted ∧ v'.saved = v.saved := by
    intro e v' hk
    obtain ⟨db', E', rfl, -⟩ := id hk
    exact ⟨hk.accounted ha, rfl⟩
  have unit : ∀ {α : Type} {e : Id} {p : Program α},
      p.always (ExpiresClean d) (fun _ v' => Keeps d e v v') (Untouched v) v →
      (p.bind fun _ => .ret ()).always (ExpiresClean d)
        (fun _ v' => (escrows v'.db d).Accounted ∧ v'.saved = v.saved) (Untouched v) v :=
    fun h => always_bind (always_mono h (fun _ _ hk => keep hk) fun _ _ hr => hr)
  cases c with
  | createEscrow => exact unit (createEscrow_keeps _ _ _ _ _ _ _ _)
  | acceptEscrow => exact unit (acceptEscrow_keeps _)
  | deliverMilestone => exact unit (deliverMilestone_keeps _ _)
  | releaseMilestone => exact unit (releaseMilestone_keeps _ _ _)
  | cancelEscrow => exact unit (cancelEscrow_keeps _)
  | resolveExpired => exact always_bind (resolveExpired_keeps ha)

/-- **Conservation of escrowed money.** Start from any database without the deal `d`. In every
run whose steps expire it cleanly, never more than its amount is paid out for it, and all of it
once it has ended. -/
theorem escrow_conserves (d : Id) {st₀ st : Store schema} (hwf : st₀.db.WF)
    (hnew : escrows st₀.db d = {}) (hrun : Served (fun _ => ExpiresClean d) EscrowCall.run st₀ st)
    {deal : EscrowDeal} (hd : st.db.rows (Key.deal d) = some deal)
    (hmulti : deal.is_multi_milestone = true) :
    (escrows st.db d).paid ≤ deal.amount ∧
      (deal.status ∈ [.COMPLETED, .PARTIALLY_COMPLETED, .EXPIRED, .CANCELLED] →
        (escrows st.db d).paid = deal.amount) := by
  have h₀ : (escrows st₀.db d).Accounted := (accounted_of_none (by rw [hnew])).mpr hnew
  have hinv := Served.invariant (fun st => (escrows st.db d).Accounted) h₀ hwf
    (fun c st ha => always_session (fun db => (escrows db d).Accounted) ha
      (c.body_keeps ha)) hrun
  exact hinv.1.conserved hd hmulti

/-! ### Two runs -/

/-- Agents 1 and 2, and a balance of agent 1. -/
def twoAgents : Store schema where
  db :=
    { rows := fun
        | .agent 1 => some {}
        | .agent 2 => some {}
        | .balance id token => if id = 1 ∧ token = .XMR then some { available := 10 } else none
        | _ => none
      keys := [.agent 1, .agent 2, .balance 1 .XMR]
      log := [] }
  ext := default

theorem twoAgents_wf : twoAgents.db.WF := by
  refine ⟨by decide, fun k => ?_⟩
  cases k with
  | agent id => rcases id with _ | _ | _ | id <;> simp [twoAgents]
  | balance id token => by_cases h : id = 1 ∧ token = .XMR <;> simp [twoAgents, h]
  | _ => simp [twoAgents]

/-- A call at which every reading of the clock is `t` hours. -/
def EscrowCall.at (c : EscrowCall) (t : ℤ) : EscrowCall × (ℕ → Input schema) :=
  (c, fun _ => { time := hours t })

/-- Agent 1 buys two milestones of one unit each from agent 2. -/
def twoMilestones : EscrowCall × (ℕ → Input schema) :=
  (EscrowCall.createEscrow 1 1 2 2 "" 24 48 24 (some [⟨"", 1, 24, 24⟩, ⟨"", 1, 24, 24⟩])).at 0

/-- No step sets a status to `EXPIRED`. -/
def noExpiry : Solo schema → Stmt schema → Input schema → Bool
  | v, .update (Key.deal e) _ set, _ =>
      (v.db.rows (Key.deal e)).all fun deal => (set deal).status ≠ .EXPIRED
  | v, .update (Key.milestone e k) _ set, _ =>
      (v.db.rows (Key.milestone e k)).all fun ms => (set ms).status ≠ .EXPIRED
  | _, _, _ => true

theorem expiresClean_of_noExpiry (d : Id) (v : Solo schema) (s : Stmt schema) (x : Input schema)
    (h : noExpiry v s x = true) : ExpiresClean d v s x := by
  unfold ExpiresClean
  split
  · next v e guard set x =>
      intro _ deal hd _ _ _ hexp
      simp [noExpiry, hd, hexp] at h
  · next v e k guard set x =>
      intro _ deal ms _ hms _ _ hexp
      simp [noExpiry, hms, hexp] at h
  · trivial

/-- The row of the deal after a list of calls, if it is multi-milestone and has this status. -/
def endsWith (l : List (EscrowCall × (ℕ → Input schema))) (status : EscrowStatus) : Bool :=
  ((serveAll EscrowCall.run l twoAgents).db.rows (Key.deal 1)).any fun deal =>
    deal.is_multi_milestone ∧ deal.status = status ∧ deal.amount = 2

theorem exists_of_endsWith (l : List (EscrowCall × (ℕ → Input schema))) (status : EscrowStatus)
    (h : endsWith l status = true) :
    ∃ deal : EscrowDeal, (serveAll EscrowCall.run l twoAgents).db.rows (Key.deal 1) = some deal ∧
      deal.is_multi_milestone = true ∧ deal.status = status ∧ deal.amount = 2 := by
  simpa [endsWith, Option.any_eq_true] using h

theorem twoAgents_new : escrows twoAgents.db 1 = {} := rfl

/-- A deal is created and cancelled: its whole amount has gone back to the buyer. -/
theorem escrow_conserves_cancelled :
    ∃ (st : Store schema) (deal : EscrowDeal), st.db.rows (Key.deal 1) = some deal ∧
      deal.status = .CANCELLED ∧ (escrows st.db 1).paid = deal.amount := by
  have hrun : Served (fun _ => ExpiresClean 1) EscrowCall.run twoAgents
      (serveAll EscrowCall.run [twoMilestones, (EscrowCall.cancelEscrow 1 1).at 1] twoAgents) :=
    served_of_passesAll (fun _ => noExpiry) (fun _ => expiresClean_of_noExpiry 1) _ .refl
      (by decide +kernel)
  obtain ⟨deal, hd, hmulti, hs, -⟩ := exists_of_endsWith
    [twoMilestones, (EscrowCall.cancelEscrow 1 1).at 1] .CANCELLED
    (by decide +kernel)
  exact ⟨_, deal, hd, hs,
    (escrow_conserves 1 twoAgents_wf twoAgents_new hrun hd hmulti).2 (by simp [hs])⟩

/-- The first milestone is released in full; then the deal's delivery deadline passes. -/
def releasedThenExpired : List (EscrowCall × (ℕ → Input schema)) :=
  [twoMilestones, (EscrowCall.acceptEscrow 1 2).at 0, (EscrowCall.deliverMilestone 1 1 2).at 1,
    (EscrowCall.releaseMilestone 1 1 1 1).at 2, EscrowCall.resolveExpired.at 48]

/-- Three units are paid out for a deal of two: the expiry refunds the whole deal although its
first milestone was paid. -/
theorem escrow_overpaid : ¬∀ (d : Id) (st₀ st : Store schema) (deal : EscrowDeal),
    st₀.db.WF → escrows st₀.db d = {} →
    Served (fun _ _ _ _ => True) EscrowCall.run st₀ st →
    st.db.rows (Key.deal d) = some deal → deal.is_multi_milestone = true →
    (escrows st.db d).paid ≤ deal.amount := by
  intro h
  obtain ⟨deal, hd, hmulti, -, hamount⟩ := exists_of_endsWith
    releasedThenExpired .EXPIRED (by decide +kernel)
  have hle := h 1 twoAgents _ deal twoAgents_wf twoAgents_new
    (served_of_passesAll (fun _ _ _ _ => true) (fun _ _ _ _ _ => trivial) releasedThenExpired
      .refl (by decide +kernel)) hd hmulti
  have hpaid : (escrows (serveAll EscrowCall.run releasedThenExpired twoAgents).db 1).paid = 3 := by
    decide +kernel
  rw [hpaid, hamount] at hle
  norm_num at hle

end Sthrip
