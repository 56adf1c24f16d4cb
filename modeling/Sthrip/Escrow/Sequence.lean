import Sthrip.Escrow.Conservation
import Sthrip.Escrow.Footprint
import Sthrip.Escrow.Stage

set_option autoImplicit false

/-! # Milestones advance in sequence

Every method of the escrow service keeps the milestones of every deal in sequence
(`Escrow.Sequenced`), with two exceptions: `cancel_escrow` and the expiry of a whole deal end a
multi-milestone deal and leave its milestones as they are. `EndsByMilestone d` is the condition
that neither happens to the deal `d`. Amounts are stored in columns that round.
-/

namespace Sthrip

open Txn Prog Escrow

/-- The milestone after `expire` at time `t`. -/
def EscrowMilestone.expired (t : Time) (ms : EscrowMilestone) : EscrowMilestone :=
  { ms with status := .EXPIRED, expires_at := some t }

/-- The milestone after `release` of `x` with `fee` at time `t`. -/
def EscrowMilestone.completed (x fee : ℚ) (t : Time) (ms : EscrowMilestone) : EscrowMilestone :=
  { ms with
    status := .COMPLETED, release_amount := some (Columns.rounding 12 x)
    fee_amount := Columns.rounding 12 fee, completed_at := some t }

/-! ## The condition -/

/-- The update of `EscrowRepository.cancel`. -/
def cancelUpdate (deal_id : Id) (now : Time) : Stmt schema :=
  .update (Key.deal deal_id) (fun deal => deal.status = .CREATED)
    fun deal => { deal with status := .CANCELLED, cancelled_at := some now }

/-- No step cancels the multi-milestone deal `d` or expires it as a whole. -/
def EndsByMilestone (d : Id) : StepCond schema := fun v s _ => ∀ deal : EscrowDeal,
  v.db.rows (Key.deal d) = some deal → deal.is_multi_milestone = true →
    ∀ now, s ≠ cancelUpdate d now ∧ s ≠ expireUpdate d now

/-- A program moved deal `e`, and if this is `d` it kept its milestones in sequence. -/
def Orders (d e : Id) (v v' : Solo schema) : Prop :=
  ∃ db' E', v' = { v with db := db' } ∧ DealMoves v.db db' e E' ∧
    (e = d → (escrows v.db e).Sequenced → E'.Sequenced)

theorem Orders.sequenced {d e : Id} {v v' : Solo schema} (h : Orders d e v v')
    (hs : (escrows v.db d).Sequenced) : (escrows v'.db d).Sequenced := by
  obtain ⟨db', E', rfl, hm, hE⟩ := h
  exact hm.keeps hE hs

theorem Orders.refl (d e : Id) (v : Solo schema) : Orders d e v v :=
  ⟨v.db, _, rfl, .refl rfl, fun _ h => h⟩

section Methods

variable {d e : Id} {v : Solo schema} {E E' : Escrow} {deal deal' : EscrowDeal}

/-- A method that finds a deal and leaves a deal. -/
theorem Orders.of {db' : DB schema} (hE : escrows v.db e = E) (hd : E.deal = some deal)
    (hm : DealMoves v.db db' e E') (hd' : E'.deal = some deal')
    (hmulti : deal'.is_multi_milestone = deal.is_multi_milestone)
    (h : e = d → deal.is_multi_milestone = true → E.Planned deal → E.Stage deal →
      E'.Planned deal' ∧ E'.Stage deal') : Orders d e v { v with db := db' } := by
  refine ⟨db', E', rfl, hm, fun he hs => (sequenced_of_some hd').mpr fun hmul => ?_⟩
  rw [hE] at hs
  rw [hmulti] at hmul
  obtain ⟨hp, hstage⟩ := (sequenced_of_some hd).mp hs hmul
  exact h he hmul hp hstage

theorem acceptEscrow_orders (seller_id : Id) :
    (EscrowService.acceptEscrow e seller_id).always (EndsByMilestone d)
      (fun _ v' => Orders d e v v') (Untouched v) v := by
  generalize hE : escrows v.db e = E
  refine EscrowService.acceptEscrow_always hE (fun _ => rfl) ?_ ?_ ?_
  · intro deal t db' hd _ hsingle m
    exact .of hE hd m rfl rfl fun _ hmulti _ _ => absurd hmulti (by simp [hsingle])
  · intro deal t ms t' db' hd hs _ hms m
    refine .of hE hd m rfl rfl fun _ _ hp hst => ?_
    refine ⟨(hp.setMilestone (ms.activated t') hms rfl).congr (fun _ => rfl) rfl rfl,
      (stage_accepted rfl).mpr ?_⟩
    have hw : (E.setMilestone 1 (ms.activated t')).UnderWay deal := underWay_first hp hst hs hms rfl
    exact ⟨⟨hw.before, hw.after⟩, hw.pos, hw.le, hw.current,
      ⟨hw.totals.released, hw.totals.fees, hw.totals.released_kept, hw.totals.fees_kept⟩⟩
  · intro deal t db' hd hs _ hmiss m
    refine .of hE hd m rfl rfl fun _ _ hp hst => ?_
    obtain ⟨ms, hms⟩ := Option.isSome_iff_exists.mp ((hp.dom 1).mpr ⟨le_rfl, hp.count⟩)
    exact absurd ((hst.created hs).1 1 ms hms) (hmiss ms hms)

theorem cancelEscrow_orders (buyer_id : Id) :
    (EscrowService.cancelEscrow .rounding e buyer_id).always (EndsByMilestone d)
      (fun _ v' => Orders d e v v') (Untouched v) v := by
  generalize hE : escrows v.db e = E
  refine EscrowService.cancelEscrow_always hE (fun _ => rfl) ?_
  intro deal t y db₁ db' hd _ m₁ hok m
  refine .of hE hd m rfl rfl fun he hmulti _ _ => ?_
  subst he
  have hrow : db₁.rows (Key.deal e) = some deal := by
    rw [← escrows_deal, m₁.self]
    exact hd
  exact absurd rfl (hok deal hrow hmulti t).1

theorem deliverMilestone_orders (milestone_seq : ℕ) (seller_id : Id) :
    (EscrowService.deliverMilestone e milestone_seq seller_id).always (EndsByMilestone d)
      (fun _ v' => Orders d e v v') (Untouched v) v := by
  generalize hE : escrows v.db e = E
  refine EscrowService.deliverMilestone_always hE (fun _ => rfl) ?_
  intro deal ms t db' hd hs hms hact m
  refine .of hE hd m hd rfl fun _ _ hp hst => ?_
  have hw := (stage_accepted hs).mp hst
  obtain rfl := hw.eq_current hms (.inl hact)
  exact ⟨hp.setMilestone _ hms rfl, (stage_accepted hs).mpr (hw.deliver hms hact rfl)⟩

/-- `advance` after the milestone `j` was completed. -/
theorem advances_stage {j : ℕ} {released fees : ℚ}
    (h : E.Advances .rounding deal j released fees E') (hs : deal.status = .ACCEPTED)
    (hp : E.Planned deal) (hr : E.Settled deal j released fees) (hd' : E'.deal = some deal') :
    E'.Planned deal' ∧ E'.Stage deal' := by
  have hupto : E.CompletedUpto deal.milestone_count j := ⟨hp.dom, hr.le, hr.upto, hr.after⟩
  cases h with
  | last count t t' hcount hlast =>
      obtain rfl := Option.some.inj hd'
      rw [hcount _ hupto] at hlast
      refine ⟨(hp.cancelled t').congr (fun _ => rfl) rfl rfl, ?_⟩
      refine (stage_completed rfl).mpr fun i ms hms => ?_
      obtain ⟨ms₁, h₁, rfl⟩ := Option.map_eq_some_iff.mp hms
      have hdone := hr.last hp hlast i ms₁ h₁
      simp [EscrowMilestone.cancelled, hdone]
  | next count ms t hcount hnext hms =>
      obtain rfl := Option.some.inj hd'
      rw [hcount _ hupto] at hnext
      refine ⟨(hp.setMilestone (ms.activated t) hms rfl).congr (fun _ => rfl) rfl rfl, ?_⟩
      have hw : (E.setMilestone (j + 1) (ms.activated t)).UnderWay
          (deal.afterMilestone .rounding released fees (j + 1)) :=
        hr.next hnext hms rfl rfl rfl rfl rfl
      refine (stage_accepted ?_).mpr ?_
      · exact hs
      · exact ⟨⟨hw.before, hw.after⟩, hw.pos, hw.le, hw.current,
          ⟨hw.totals.released, hw.totals.fees, hw.totals.released_kept, hw.totals.fees_kept⟩⟩
  | stuck count hcount hnext hmiss =>
      rw [hcount _ hupto] at hnext
      obtain ⟨ms, hms⟩ := Option.isSome_iff_exists.mp ((hp.dom (j + 1)).mpr ⟨by omega, hnext⟩)
      exact absurd (hr.after _ ms hms (Nat.lt_succ_self j)) (hmiss ms hms)

/-- What a release leaves of its milestone, and what the totals become. -/
theorem release_settled {j : ℕ} {ms : EscrowMilestone} {x : ℚ} (now : Time)
    (hp : E.Planned deal) (hst : E.Stage deal) (hs : deal.status = .ACCEPTED)
    (hms : E.milestone j = some ms) (hdel : ms.status = .DELIVERED) (hx : 0 ≤ x) :
    (E.setMilestone j (ms.completed x (x * deal.feeRate) now)).Settled deal j
      (deal.total_released + x) (deal.total_fees + x * deal.feeRate) := by
  have hw := (stage_accepted hs).mp hst
  obtain rfl := hw.eq_current hms (.inr hdel)
  exact hw.settled hms hdel rfl hx (mul_nonneg hx hp.rate) rfl rfl

theorem releaseMilestone_orders (milestone_seq : ℕ) (buyer_id : Id) (release_amount : ℚ) :
    (EscrowService.releaseMilestone .rounding e milestone_seq buyer_id release_amount).always
      (EndsByMilestone d) (fun _ v' => Orders d e v v') (Untouched v) v := by
  generalize hE : escrows v.db e = E
  refine EscrowService.releaseMilestone_always hE (fun _ => rfl) ?_
  intro deal ms t db' E' hd hs hms hdel h0 _ m hadv
  obtain ⟨deal', hd', hmulti⟩ := hadv.exists_deal
  refine .of hE hd m hd' hmulti fun _ _ hp hst => advances_stage hadv hs ?_ ?_ hd'
  · exact (hp.setMilestone (ms.completed release_amount (release_amount * deal.feeRate) t) hms
      rfl).congr (fun _ => rfl) rfl rfl
  · have hr := release_settled t hp hst hs hms hdel h0
    exact ⟨hr.pos, hr.le, hr.upto, hr.after, hr.released_sum, hr.fees_sum, hr.released_nonneg,
      hr.fees_nonneg⟩

/-! ## The sweep -/

section Sweep

variable {R : Exn → Solo schema → Prop}

theorem resolveSingle_orders :
    (EscrowService.resolveSingle .rounding e).always (EndsByMilestone d)
      (fun _ v' => Orders d e v v') R v := by
  generalize hE : escrows v.db e = E
  refine EscrowService.resolveSingle_always hE (.refl d e v) ?_ ?_
  · intro deal t y db' hd _ hok m
    refine .of hE hd m rfl rfl fun he hmulti _ _ => ?_
    subst he
    have hrow : v.db.rows (Key.deal e) = some deal := by rw [← hd, ← hE]; rfl
    exact absurd rfl (hok deal hrow hmulti t).2
  · -- a deal with milestones is never `DELIVERED`
    intro deal t y db' hd hs _ m
    exact .of hE hd m rfl rfl fun _ _ _ hst => absurd hs hst.not_delivered

theorem resolveMilestoneExpiry_orders (j : ℕ) :
    (EscrowService.resolveMilestoneExpiry .rounding e j).always (EndsByMilestone d)
      (fun _ v' => Orders d e v v') R v := by
  generalize hE : escrows v.db e = E
  refine EscrowService.resolveMilestoneExpiry_always hE (.refl d e v) ?_ ?_
  · intro deal ms t y t' t'' db' hd hs hms hact _ m
    refine .of hE hd m rfl rfl fun _ _ hp hst => ⟨?_, ?_⟩
    · exact ((hp.setMilestone (ms.expired t) hms rfl).cancelled t').congr (fun _ => rfl) rfl rfl
    · have hw := (stage_accepted hs).mp hst
      obtain rfl := hw.eq_current hms (.inl hact)
      refine (stage_closed ?_).mpr (hw.closed rfl t')
      unfold EscrowDeal.afterExpiry
      by_cases hj : deal.current_milestone = 1
      · simp [hj]
      · simp [hj]
  · intro deal ms t db' E' hd hs hms hdel m hadv
    obtain ⟨deal', hd', hmulti⟩ := hadv.exists_deal
    refine .of hE hd m hd' hmulti fun _ _ hp hst => advances_stage hadv hs ?_ ?_ hd'
    · exact (hp.setMilestone (ms.completed ms.amount (ms.amount * deal.feeRate) t) hms
        rfl).congr (fun _ => rfl) rfl rfl
    · have hr := release_settled t hp hst hs hms hdel (hp.nonneg j ms hms)
      exact ⟨hr.pos, hr.le, hr.upto, hr.after, hr.released_sum, hr.fees_sum, hr.released_nonneg,
        hr.fees_nonneg⟩

/-- A sweep keeps the milestones of every deal in sequence, one deal after the other. -/
theorem resolveExpired_orders (hseq : (escrows v.db d).Sequenced) :
    (EscrowService.resolveExpired .rounding).always (EndsByMilestone d)
      (fun _ v' => (escrows v'.db d).Sequenced ∧ v'.saved = v.saved) (Untouched v) v := by
  have keep : ∀ {e v₁ v₂}, (escrows v₁.db d).Sequenced ∧ v₁.saved = v.saved → Orders d e v₁ v₂ →
      (escrows v₂.db d).Sequenced ∧ v₂.saved = v.saved := by
    rintro e v₁ v₂ ⟨h₁, h₂⟩ hk
    obtain ⟨db', E', rfl, -⟩ := id hk
    exact ⟨hk.sequenced h₁, h₂⟩
  refine EscrowService.resolveExpired_always (fun e v₁ h₁ => ?_) (fun e j v₁ h₁ => ?_) ⟨hseq, rfl⟩
  · exact always_mono (R := fun _ _ => False) resolveSingle_orders (fun _ _ h => keep h₁ h)
      fun _ _ h => h.elim
  · exact always_mono (R := fun _ _ => False) (resolveMilestoneExpiry_orders j)
      (fun _ _ h => keep h₁ h) fun _ _ h => h.elim

end Sweep

/-! ## Creation -/

theorem createEscrow_orders (buyer_id seller_id : Id) (amount : ℚ) (description : String)
    (accept_timeout_hours delivery_timeout_hours review_timeout_hours : ℤ)
    (milestones : Option (List MilestoneData)) :
    (EscrowService.createEscrow .rounding e buyer_id seller_id amount description
      accept_timeout_hours delivery_timeout_hours review_timeout_hours milestones).always
      (EndsByMilestone d) (fun _ v' => Orders d e v v') (Untouched v) v := by
  generalize hE : escrows v.db e = E
  refine EscrowService.createEscrow_always hE (fun _ _ => rfl) ?_ ?_
  · intro deal db' _ hsingle m
    refine ⟨db', _, rfl, m, fun _ _ => ?_⟩
    exact (sequenced_of_some (setDeal_deal ..)).mpr fun h => by rw [hsingle] at h; cases h
  · intro deal data db' E' hnone hpos hsum hagreed m hd' hrows
    refine ⟨db', E', rfl, m, fun _ hseq => ?_⟩
    rw [hE, sequenced_of_none hnone] at hseq
    obtain ⟨rfl, hposd⟩ := hrows hseq
    refine (sequenced_of_some rfl).mpr fun _ =>
      ⟨⟨hagreed.one_le_count hpos hsum, ?_, fun j ms hms => ?_, ?_⟩, ?_⟩
    · intro j
      have hdom := milestonesOf_dom (data.map (MilestoneData.kept .rounding)) j
      rw [List.length_map] at hdom
      rw [hagreed.count]
      exact hdom
    · obtain ⟨m, hm, rfl⟩ := milestonesOf_mem hms
      exact (hposd m hm).le
    · rw [EscrowDeal.feeRate, hagreed.fee_eq]
      split
      · norm_num [defaultFeePercent]
      · exact numeric_nonneg 4 (by norm_num [computeFeePercent, defaultFeePercent])
    · unfold Stage
      rw [hagreed.status]
      refine ⟨fun j ms hms => ?_, hagreed.current, hagreed.released, hagreed.fees⟩
      obtain ⟨m, -, rfl⟩ := milestonesOf_mem hms
      rfl

end Methods

/-! ## Runs -/

/-- The body of a call, with columns that round. -/
def EscrowCall.stored : EscrowCall → Program Unit
  | .createEscrow deal_id buyer_id seller_id amount description accept delivery review
      milestones => do
      let _ ← EscrowService.createEscrow .rounding deal_id buyer_id seller_id amount description
        accept delivery review milestones
  | .acceptEscrow escrow_id seller_id => do
      let _ ← EscrowService.acceptEscrow escrow_id seller_id
  | .deliverMilestone escrow_id milestone_seq seller_id => do
      let _ ← EscrowService.deliverMilestone escrow_id milestone_seq seller_id
  | .releaseMilestone escrow_id milestone_seq buyer_id release_amount => do
      let _ ← EscrowService.releaseMilestone .rounding escrow_id milestone_seq buyer_id
        release_amount
  | .cancelEscrow escrow_id buyer_id => do
      let _ ← EscrowService.cancelEscrow .rounding escrow_id buyer_id
  | .resolveExpired => do
      let _ ← EscrowService.resolveExpired .rounding

def EscrowCall.runStored (c : EscrowCall) : Program Unit := withSession c.stored

/-- Every call keeps the milestones of every deal in sequence. -/
theorem EscrowCall.stored_orders {d : Id} (c : EscrowCall) {v : Solo schema}
    (hseq : (escrows v.db d).Sequenced) :
    c.stored.always (EndsByMilestone d)
      (fun _ v' => (escrows v'.db d).Sequenced ∧ v'.saved = v.saved) (Untouched v) v := by
  have keep : ∀ {e v'}, Orders d e v v' →
      (escrows v'.db d).Sequenced ∧ v'.saved = v.saved := by
    intro e v' hk
    obtain ⟨db', E', rfl, -⟩ := id hk
    exact ⟨hk.sequenced hseq, rfl⟩
  have unit : ∀ {α : Type} {e : Id} {p : Program α},
      p.always (EndsByMilestone d) (fun _ v' => Orders d e v v') (Untouched v) v →
      (p.bind fun _ => .ret ()).always (EndsByMilestone d)
        (fun _ v' => (escrows v'.db d).Sequenced ∧ v'.saved = v.saved) (Untouched v) v :=
    fun h => always_bind (always_mono h (fun _ _ hk => keep hk) fun _ _ hr => hr)
  cases c with
  | createEscrow => exact unit (createEscrow_orders _ _ _ _ _ _ _ _)
  | acceptEscrow => exact unit (acceptEscrow_orders _)
  | deliverMilestone => exact unit (deliverMilestone_orders _ _)
  | releaseMilestone => exact unit (releaseMilestone_orders _ _ _)
  | cancelEscrow => exact unit (cancelEscrow_orders _)
  | resolveExpired => exact always_bind (resolveExpired_orders hseq)

/-- **Milestones advance in sequence.** Start from any database without the deal `d`. In every run
no step of which cancels the deal or expires it as a whole, once it has milestones: while the deal
is accepted, the current milestone is the only one that is active or delivered, those before it are
completed, those after it wait, and the totals are the sums over the completed ones; a completed
deal has completed milestones only; and otherwise an ended deal has no open milestone. -/
theorem milestones_in_sequence (d : Id) {st₀ st : Store schema} (hwf : st₀.db.WF)
    (hnew : escrows st₀.db d = {})
    (hrun : Served (fun _ => EndsByMilestone d) EscrowCall.runStored st₀ st)
    {deal : EscrowDeal} (hd : st.db.rows (Key.deal d) = some deal)
    (hmulti : deal.is_multi_milestone = true) :
    (∀ j, (st.db.rows (Key.milestone d j)).isSome ↔ 1 ≤ j ∧ j ≤ deal.milestone_count) ∧
    (deal.status = .ACCEPTED →
      (∀ j, (∃ ms : EscrowMilestone, st.db.rows (Key.milestone d j) = some ms ∧
        (ms.status = .ACTIVE ∨ ms.status = .DELIVERED)) ↔ j = deal.current_milestone) ∧
      (∀ j (ms : EscrowMilestone), st.db.rows (Key.milestone d j) = some ms →
        j < deal.current_milestone → ms.status = .COMPLETED) ∧
      (∀ j (ms : EscrowMilestone), st.db.rows (Key.milestone d j) = some ms →
        deal.current_milestone < j → ms.status = .PENDING) ∧
      deal.total_released = (escrows st.db d).overCompleted deal.milestone_count
        EscrowMilestone.released ∧
      deal.total_fees = (escrows st.db d).overCompleted deal.milestone_count (·.fee_amount)) ∧
    (deal.status = .COMPLETED → ∀ j (ms : EscrowMilestone),
      st.db.rows (Key.milestone d j) = some ms → ms.status = .COMPLETED) ∧
    (deal.status ∈ [.PARTIALLY_COMPLETED, .EXPIRED, .CANCELLED] →
      ∀ j (ms : EscrowMilestone), st.db.rows (Key.milestone d j) = some ms → ¬ms.Open) := by
  have h₀ : (escrows st₀.db d).Sequenced := by
    refine (sequenced_of_none ?_).mpr ?_
    · rw [hnew]
    · rw [hnew]
  have hinv := Served.invariant (fun st => (escrows st.db d).Sequenced) h₀ hwf
    (fun c st hseq => always_session (fun db => (escrows db d).Sequenced) hseq
      (c.stored_orders hseq)) hrun
  exact hinv.1.law hd hmulti

/-! ### A deal that is cancelled -/

/-- The test that a statement neither cancels nor expires a deal. -/
def keepsGoing : Solo schema → Stmt schema → Input schema → Bool
  | v, .update (Key.deal e) _ set, _ => (v.db.rows (Key.deal e)).all fun deal =>
      (set deal).status ∉ [.CANCELLED, .EXPIRED]
  | _, _, _ => true

theorem endsByMilestone_of_keepsGoing (d : Id) (v : Solo schema) (s : Stmt schema)
    (x : Input schema) (h : keepsGoing v s x = true) : EndsByMilestone d v s x := by
  intro deal hd _ now
  constructor
  · rintro rfl
    simp [keepsGoing, cancelUpdate, hd] at h
  · rintro rfl
    simp [keepsGoing, expireUpdate, hd] at h

/-- The first of two milestones is delivered and released. -/
def firstReleased : List (EscrowCall × (ℕ → Input schema)) :=
  [twoMilestones, (EscrowCall.acceptEscrow 1 2).at 0, (EscrowCall.deliverMilestone 1 1 2).at 1,
    (EscrowCall.releaseMilestone 1 1 1 1).at 2]

/-- The row of the deal after a list of calls, if it has this status. -/
def leaves (l : List (EscrowCall × (ℕ → Input schema))) (status : EscrowStatus) : Bool :=
  ((serveAll EscrowCall.runStored l twoAgents).db.rows (Key.deal 1)).any
    fun deal => deal.is_multi_milestone ∧ deal.status = status ∧ deal.current_milestone ≤ 2

theorem exists_of_leaves {l : List (EscrowCall × (ℕ → Input schema))} {status : EscrowStatus}
    (h : leaves l status = true) : ∃ deal : EscrowDeal,
      (serveAll EscrowCall.runStored l twoAgents).db.rows (Key.deal 1)
        = some deal ∧ deal.is_multi_milestone = true ∧ deal.status = status := by
  simp only [leaves, Option.any_eq_true, decide_eq_true_eq] at h
  obtain ⟨deal, hd, hm, hs, -⟩ := h
  exact ⟨deal, hd, hm, hs⟩

/-- One milestone has been released. -/
theorem milestones_in_sequence_released : ∃ (st : Store schema) (deal : EscrowDeal),
    st.db.rows (Key.deal 1) = some deal ∧ deal.status = .ACCEPTED ∧
      deal.total_released = (escrows st.db 1).overCompleted deal.milestone_count
        EscrowMilestone.released := by
  have hrun : Served (fun _ => EndsByMilestone 1) EscrowCall.runStored twoAgents
      (serveAll EscrowCall.runStored firstReleased twoAgents) :=
    served_of_passesAll (fun _ => keepsGoing) (fun _ => endsByMilestone_of_keepsGoing 1) _ .refl
      (by decide +kernel)
  obtain ⟨deal, hd, hmulti, hs⟩ := exists_of_leaves (by decide +kernel :
    leaves firstReleased .ACCEPTED = true)
  have hlaw := milestones_in_sequence 1 twoAgents_wf twoAgents_new hrun hd hmulti
  exact ⟨_, deal, hd, hs, (hlaw.2.1 hs).2.2.2.1⟩

/-- The buyer cancels, and both milestones go on waiting. -/
theorem cancelled_deal_leaves_milestones : ¬∀ (d : Id) (st₀ st : Store schema)
    (deal : EscrowDeal), st₀.db.WF → escrows st₀.db d = {} →
    Served (fun _ _ _ _ => True) EscrowCall.runStored st₀ st →
    st.db.rows (Key.deal d) = some deal → deal.is_multi_milestone = true →
    deal.status ∈ [.PARTIALLY_COMPLETED, .EXPIRED, .CANCELLED] →
    ∀ j (ms : EscrowMilestone), st.db.rows (Key.milestone d j) = some ms → ¬ms.Open := by
  intro h
  obtain ⟨deal, hd, hmulti, hs⟩ := exists_of_leaves (by decide +kernel :
    leaves [twoMilestones, (EscrowCall.cancelEscrow 1 1).at 1] .CANCELLED = true)
  have hrun : Served (fun _ _ _ _ => True) EscrowCall.runStored twoAgents
      (serveAll EscrowCall.runStored [twoMilestones, (EscrowCall.cancelEscrow 1 1).at 1]
        twoAgents) :=
    served_of_passesAll (fun _ _ _ _ => true) (fun _ _ _ _ _ => trivial) _ .refl
      (by decide +kernel)
  have hopen : ((serveAll EscrowCall.runStored
      [twoMilestones, (EscrowCall.cancelEscrow 1 1).at 1] twoAgents).db.rows
        (Key.milestone 1 1)).any fun ms => ms.status = .PENDING := by decide +kernel
  obtain ⟨ms, hms, hpending⟩ := (Option.any_eq_true ..).mp hopen
  refine h 1 twoAgents _ deal twoAgents_wf twoAgents_new hrun hd hmulti (by simp [hs]) 1 ms hms ?_
  rw [decide_eq_true_eq] at hpending
  simp [EscrowMilestone.Open, hpending]

end Sthrip
