import Sthrip.Services.PurgeService

set_option autoImplicit false

/-! # Purges and the outcome of a deal

Whether a deal with milestones is completed is decided by counting the completed milestones in the
table, and a purge deletes completed milestones of deals that are still open. In the runs in which no
purge does so, the purges make no difference to the deal. And a deal that has ended is purged some
day, unless it ended as partially completed, a status that the purge does not know as an end.
-/

namespace Sthrip

open DealService

/-! ## Runs -/

/-- What happens to a deal. -/
inductive DealEvent where
  | accept (seller_id : Id) (is_active : Bool) (now : Time)
  | cancel (buyer_id : Id) (now : Time)
  | deliver (milestone_seq : ℕ) (seller_id : Id) (now : Time)
  | release (milestone_seq : ℕ) (buyer_id : Id) (release_amount : ℚ) (now : Time)
  | resolve (now : Time) (arrange : List ℕ → List ℕ)
  | purge (retention_days : ℤ) (now : Time)

/-- The results. -/
inductive DealAnswer where
  | deal (result : Except Exn EscrowDeal)
  | milestone (result : Except Exn EscrowMilestone)
  | released (result : Except Exn MilestoneRelease)
  | resolved (count : ℕ)
  | purged

/-- A session that raises leaves nothing behind. -/
def DealTables.settle {β : Type} (t : DealTables) :
    Except Exn (β × DealTables) → Except Exn β × DealTables
  | .ok r => (.ok r.1, r.2)
  | .error e => (.error e, t)

namespace DealEvent

def answer (t : DealTables) : DealEvent → DealAnswer × DealTables
  | accept seller_id is_active now =>
      let r := t.settle (acceptEscrow seller_id is_active now t)
      (.deal r.1, r.2)
  | cancel buyer_id now =>
      let r := t.settle (cancelEscrow buyer_id now t)
      (.deal r.1, r.2)
  | deliver milestone_seq seller_id now =>
      let r := t.settle (deliverMilestone milestone_seq seller_id now t)
      (.milestone r.1, r.2)
  | release milestone_seq buyer_id release_amount now =>
      let r := t.settle (releaseMilestone milestone_seq buyer_id release_amount now t)
      (.released r.1, r.2)
  | resolve now arrange =>
      let r := resolveExpired now arrange t
      (.resolved r.1, r.2)
  | purge retention_days now => (.purged, runFullPurge retention_days now t)

def isPurge : DealEvent → Bool
  | purge _ _ => true
  | _ => false

def run (t : DealTables) (events : List DealEvent) : DealTables :=
  events.foldl (fun t e => (e.answer t).2) t

/-- The same run without its purges. -/
def withoutPurges (events : List DealEvent) : List DealEvent := events.filter (!·.isPurge)

end DealEvent

/-! ## Ended deals -/

/-- The deal has ended: no operation changes it any more (`answer_over`). -/
def EscrowStatus.isFinal : EscrowStatus → Bool
  | .COMPLETED | .CANCELLED | .EXPIRED | .PARTIALLY_COMPLETED => true
  | _ => false

namespace DealTables

/-- The deal has ended, or is gone. -/
def Over (t : DealTables) : Prop := ∀ deal, t.deal = some deal → deal.status.isFinal = true

variable {t u : DealTables}

theorem Over.ne (h : t.Over) {deal : EscrowDeal} (hd : t.deal = some deal) :
    deal.status ≠ .CREATED ∧ deal.status ≠ .ACCEPTED ∧ deal.status ≠ .DELIVERED := by
  have hfinal := h deal hd
  refine ⟨?_, ?_, ?_⟩
  · intro hs
    rw [hs] at hfinal
    cases hfinal
  · intro hs
    rw [hs] at hfinal
    cases hfinal
  · intro hs
    rw [hs] at hfinal
    cases hfinal

theorem acceptEscrow_over (h : t.Over) (seller_id : Id) (is_active : Bool) (now : Time) :
    ∃ e, acceptEscrow seller_id is_active now t = .error e := by
  unfold acceptEscrow
  cases hd : t.deal with
  | none => exact ⟨_, rfl⟩
  | some deal =>
      dsimp only
      rw [if_pos (h.ne hd).1]
      split
      · exact ⟨_, rfl⟩
      · exact ⟨_, rfl⟩

theorem cancelEscrow_over (h : t.Over) (buyer_id : Id) (now : Time) :
    ∃ e, cancelEscrow buyer_id now t = .error e := by
  unfold cancelEscrow
  cases hd : t.deal with
  | none => exact ⟨_, rfl⟩
  | some deal =>
      dsimp only
      rw [if_pos (h.ne hd).1]
      split
      · exact ⟨_, rfl⟩
      · exact ⟨_, rfl⟩

theorem deliverMilestone_over (h : t.Over) (milestone_seq : ℕ) (seller_id : Id) (now : Time) :
    ∃ e, deliverMilestone milestone_seq seller_id now t = .error e := by
  unfold deliverMilestone
  cases hd : t.deal with
  | none => exact ⟨_, rfl⟩
  | some deal =>
      dsimp only
      rw [if_pos (h.ne hd).2.1]
      split
      · exact ⟨_, rfl⟩
      · split
        · exact ⟨_, rfl⟩
        · exact ⟨_, rfl⟩

theorem releaseMilestone_over (h : t.Over) (milestone_seq : ℕ) (buyer_id : Id)
    (release_amount : ℚ) (now : Time) :
    ∃ e, releaseMilestone milestone_seq buyer_id release_amount now t = .error e := by
  unfold releaseMilestone
  cases hd : t.deal with
  | none => exact ⟨_, rfl⟩
  | some deal =>
      dsimp only
      rw [if_pos (h.ne hd).2.1]
      split
      · exact ⟨_, rfl⟩
      · split
        · exact ⟨_, rfl⟩
        · exact ⟨_, rfl⟩

theorem resolveSingle_over (h : t.Over) (now : Time) : resolveSingle now t = (false, t) := by
  unfold resolveSingle
  cases hd : t.deal with
  | none => rfl
  | some deal =>
      obtain ⟨hcreated, haccepted, hdelivered⟩ := h.ne hd
      dsimp only
      split
      · rfl
      · cases hs : deal.status with
        | CREATED => exact absurd hs hcreated
        | ACCEPTED => exact absurd hs haccepted
        | DELIVERED => exact absurd hs hdelivered
        | _ => rfl

theorem resolveMilestoneExpiry_over (h : t.Over) (now : Time) (sequence : ℕ) :
    resolveMilestoneExpiry now t sequence = (false, t) := by
  unfold resolveMilestoneExpiry
  cases hd : t.deal with
  | none => rfl
  | some deal => exact if_pos (h.ne hd).2.1

theorem resolveExpired_over (h : t.Over) (now : Time) (arrange : List ℕ → List ℕ) :
    resolveExpired now arrange t = (0, t) := by
  -- a sweep of no deal sweeps no milestone either
  have hloop : ∀ (l : List ℕ) (n : ℕ), l.foldl (resolveNext now) (n, t) = (n, t) := by
    intro l
    induction l with
    | nil => exact fun n => rfl
    | cons sequence l ih =>
        intro n
        rw [List.foldl_cons, resolveNext, resolveMilestoneExpiry_over h]
        show l.foldl (resolveNext now) (0 + n, t) = (n, t)
        rw [zero_add, ih]
  unfold resolveExpired
  rw [resolveSingle_over h]
  exact hloop _ _

/-- Nothing but a purge changes what is left of a deal that has ended. -/
theorem answer_over (h : t.Over) {e : DealEvent} (he : e.isPurge = false) :
    (e.answer t).2 = t := by
  cases e with
  | accept seller_id is_active now =>
      obtain ⟨e, hr⟩ := acceptEscrow_over h seller_id is_active now
      rw [DealEvent.answer, hr]
      rfl
  | cancel buyer_id now =>
      obtain ⟨e, hr⟩ := cancelEscrow_over h buyer_id now
      rw [DealEvent.answer, hr]
      rfl
  | deliver milestone_seq seller_id now =>
      obtain ⟨e, hr⟩ := deliverMilestone_over h milestone_seq seller_id now
      rw [DealEvent.answer, hr]
      rfl
  | release milestone_seq buyer_id release_amount now =>
      obtain ⟨e, hr⟩ := releaseMilestone_over h milestone_seq buyer_id release_amount now
      rw [DealEvent.answer, hr]
      rfl
  | resolve now arrange =>
      rw [DealEvent.answer, resolveExpired_over h]
  | purge retention_days now => cases he

end DealTables


/-! ## Purges that spare a deal -/

/-- The purge deletes no milestone of a deal that is still open. -/
def SparesMilestones (t : DealTables) (retention_days : ℤ) (now : Time) : Prop :=
  ¬t.Over → ∀ m ∈ t.milestones, milestonePurged (cutoff retention_days now) m.2 = false

/-- Every purge of the run does so. -/
def SparesOpen (t : DealTables) : List DealEvent → Prop
  | [] => True
  | .purge retention_days now :: events =>
      SparesMilestones t retention_days now ∧ SparesOpen (runFullPurge retention_days now t) events
  | e :: events => SparesOpen (e.answer t).2 events

/-- The purges have made no difference to the deal: there is none while it is open, and of one that
has ended the row may be gone. -/
structure Unaffected (purged kept : DealTables) : Prop where
  open_eq : ¬kept.Over → purged = kept
  credits : purged.credits = kept.credits
  deal : purged.deal = kept.deal ∨ purged.deal = none ∧ kept.Over

variable {t purged kept : DealTables}

theorem unaffected_refl (t : DealTables) : Unaffected t t := ⟨fun _ => rfl, rfl, Or.inl rfl⟩

theorem Unaffected.over (h : Unaffected purged kept) (hover : kept.Over) : purged.Over := by
  intro deal hd
  rcases h.deal with heq | ⟨hnone, -⟩
  · exact hover deal (heq ▸ hd)
  · rw [hnone] at hd
    cases hd

theorem runFullPurge_credits (retention_days : ℤ) (now : Time) (t : DealTables) :
    (runFullPurge retention_days now t).credits = t.credits := by
  unfold runFullPurge purgeEscrowMilestones purgeEscrowDeals
  split
  · rfl
  · split
    · rfl
    · rfl

theorem isFinal_of_dealPurged {cutoff created_at : Time} {deal : EscrowDeal}
    (h : dealPurged cutoff created_at deal = true) : deal.status.isFinal = true := by
  rw [dealPurged, decide_eq_true_eq] at h
  have hterminal := h.2
  simp only [ESCROW_TERMINAL_STATUSES, List.mem_cons, List.not_mem_nil, or_false] at hterminal
  rcases hterminal with hs | hs | hs
  · rw [hs]
    rfl
  · rw [hs]
    rfl
  · rw [hs]
    rfl

/-- A purge deletes the deal only when it has ended. -/
theorem over_of_dealPurged {cutoff : Time}
    (h : t.deal.any (dealPurged cutoff t.created_at) = true) : t.Over := by
  intro deal hd
  rw [hd, Option.any_some] at h
  exact isFinal_of_dealPurged h

theorem runFullPurge_deal (retention_days : ℤ) (now : Time) (t : DealTables) :
    (runFullPurge retention_days now t).deal = t.deal ∨
      (runFullPurge retention_days now t).deal = none ∧ t.Over := by
  unfold runFullPurge purgeEscrowMilestones purgeEscrowDeals
  split
  · exact Or.inl rfl
  · split
    · next h => exact Or.inr ⟨rfl, over_of_dealPurged h⟩
    · exact Or.inl rfl

/-- A purge that spares the milestones of an open deal leaves it as it is. -/
theorem runFullPurge_open {retention_days : ℤ} {now : Time} (hopen : ¬t.Over)
    (h : SparesMilestones t retention_days now) : runFullPurge retention_days now t = t := by
  -- the deal is open, and only deals that have ended are purged
  have hdeal : purgeEscrowDeals (cutoff retention_days now) t = t := by
    unfold purgeEscrowDeals
    split
    · next hp => exact absurd (over_of_dealPurged hp) hopen
    · rfl
  unfold runFullPurge
  split
  · rfl
  · rw [hdeal, purgeEscrowMilestones, List.filter_eq_self.mpr]
    intro m hm
    rw [h hopen m hm]
    rfl

/-- The step lemma for a purge, which only one of the two runs has. -/
theorem Unaffected.purge (h : Unaffected purged kept) {retention_days : ℤ} {now : Time}
    (hs : SparesMilestones purged retention_days now) :
    Unaffected (runFullPurge retention_days now purged) kept := by
  by_cases hover : kept.Over
  · refine ⟨fun hopen => absurd hover hopen, ?_, ?_⟩
    · rw [runFullPurge_credits]
      exact h.credits
    · rcases runFullPurge_deal retention_days now purged with heq | ⟨hnone, -⟩
      · rw [heq]
        exact h.deal
      · exact Or.inr ⟨hnone, hover⟩
  -- the deal is open: the purge deletes neither it nor its milestones
  · obtain rfl := h.open_eq hover
    rw [runFullPurge_open hover hs]
    exact unaffected_refl _

/-- The step lemma for the other events, which both runs have. -/
theorem Unaffected.answer (h : Unaffected purged kept) {e : DealEvent} (he : e.isPurge = false) :
    Unaffected (e.answer purged).2 (e.answer kept).2 := by
  by_cases hover : kept.Over
  -- the deal has ended in both runs, and the event changes nothing in either
  · rw [DealTables.answer_over hover he, DealTables.answer_over (h.over hover) he]
    exact h
  · obtain rfl := h.open_eq hover
    exact unaffected_refl _

/-- The run lemma. -/
theorem Unaffected.run (h : Unaffected purged kept) (events : List DealEvent)
    (hs : SparesOpen purged events) :
    Unaffected (DealEvent.run purged events)
      (DealEvent.run kept (DealEvent.withoutPurges events)) := by
  induction events generalizing purged kept with
  | nil => exact h
  | cons e events ih =>
      cases e with
      | purge retention_days now => exact ih (h.purge hs.1) hs.2
      | _ => exact ih (h.answer rfl) hs

theorem spares_of_append {events rest : List DealEvent} (h : SparesOpen t (events ++ rest)) :
    SparesOpen t events := by
  induction events generalizing t with
  | nil => trivial
  | cons e events ih =>
      cases e with
      | purge retention_days now => exact ⟨h.1, ih h.2⟩
      | _ => exact ih h

/-- Exactly the deals that are not partially completed are purged some day. -/
theorem dealPurged_eventually_iff (retention_days : ℤ) (created_at : Time) {deal : EscrowDeal}
    (hfinal : deal.status.isFinal = true) :
    (∃ since, ∀ now, since ≤ now → dealPurged (cutoff retention_days now) created_at deal = true)
      ↔ deal.status ≠ .PARTIALLY_COMPLETED := by
  constructor
  -- `PARTIALLY_COMPLETED` is not among the statuses that are purged
  · rintro ⟨since, h⟩ hs
    have hpurged := h since le_rfl
    simp [dealPurged, ESCROW_TERMINAL_STATUSES, hs] at hpurged
  · intro hs
    -- one instant after the retention has passed
    refine ⟨created_at + days retention_days + 1, fun now hnow => ?_⟩
    rw [dealPurged, decide_eq_true_eq]
    constructor
    · show created_at < now - days retention_days
      linarith
    · cases hstatus : deal.status with
      | COMPLETED => decide
      | CANCELLED => decide
      | EXPIRED => decide
      | PARTIALLY_COMPLETED => exact absurd hstatus hs
      | _ =>
          rw [hstatus] at hfinal
          cases hfinal

/-! ## The outcome -/

/-- **Purges do not change the outcome of a deal.** Take any rows of a deal and any run in which no
purge deletes a milestone of the deal while it is open. At every point of the run: the rows, and with
them the result of whatever comes next, are those of the run without the purges as long as the deal
is open; the credits are the same; the deal is the same or gone after its end; and a deal that has
ended is purged some day iff it is not partially completed. -/
theorem purges_keep_outcome (t : DealTables) (events rest : List DealEvent)
    (h : SparesOpen t (events ++ rest)) :
    let purged := DealEvent.run t events
    let kept := DealEvent.run t (DealEvent.withoutPurges events)
    (¬kept.Over → purged = kept ∧ ∀ e : DealEvent, (e.answer purged).1 = (e.answer kept).1) ∧
      purged.credits = kept.credits ∧ (purged.deal = kept.deal ∨ purged.deal = none ∧ kept.Over) ∧
      ∀ deal, kept.deal = some deal → deal.status.isFinal = true → ∀ retention_days : ℤ,
        (∃ since, ∀ now, since ≤ now →
          dealPurged (cutoff retention_days now) kept.created_at deal = true) ↔
            deal.status ≠ .PARTIALLY_COMPLETED := by
  intro purged kept
  have hrun : Unaffected purged kept := (unaffected_refl t).run events (spares_of_append h)
  refine ⟨fun hopen => ?_, hrun.credits, hrun.deal, ?_⟩
  · have heq := hrun.open_eq hopen
    refine ⟨heq, fun e => ?_⟩
    rw [heq]
  · intro deal _ hfinal retention_days
    exact dealPurged_eventually_iff retention_days kept.created_at hfinal

/-! ### A deal that is completed, and one that is not -/

/-- Agent 1 has agreed on two milestones of one unit each with agent 2. -/
def twoAgreed : DealTables where
  deal := some
    { buyer_id := 1, seller_id := 2, amount := 2, description := "", fee_percent := 1 / 100
      accept_timeout_hours := 24, delivery_timeout_hours := 720, review_timeout_hours := 24
      is_multi_milestone := true, milestone_count := 2 }
  created_at := 0
  milestones :=
    [(1, { description := "", amount := 1, delivery_timeout_hours := 240, review_timeout_hours := 240 }),
      (2, { description := "", amount := 1, delivery_timeout_hours := 240, review_timeout_hours := 240 })]

/-- Both milestones are delivered and released, with a purge in between, two days after the start. -/
def releasedAround (retention_days : ℤ) : List DealEvent :=
  [.accept 2 true 0, .deliver 1 2 (hours 1), .release 1 1 1 (hours 2),
    .purge retention_days (hours 48), .deliver 2 2 (hours 49), .release 2 1 1 (hours 50)]

/-- The status of the deal, if it is there. -/
def DealTables.status (t : DealTables) : Option EscrowStatus := t.deal.map (·.status)

/-- The test of `SparesOpen`. -/
def sparesTest (t : DealTables) : List DealEvent → Bool
  | [] => true
  | .purge retention_days now :: events =>
      (t.milestones.all fun m => !milestonePurged (cutoff retention_days now) m.2) &&
        sparesTest (runFullPurge retention_days now t) events
  | e :: events => sparesTest (e.answer t).2 events

theorem spares_of_test {events : List DealEvent} (h : sparesTest t events = true) :
    SparesOpen t events := by
  induction events generalizing t with
  | nil => trivial
  | cons e events ih =>
      cases e with
      | purge retention_days now =>
          rw [sparesTest, Bool.and_eq_true, List.all_eq_true] at h
          refine ⟨fun _ m hm => ?_, ih h.2⟩
          simpa using h.1 m hm
      | _ => exact ih h

/-- With a retention of a week the deal is completed, and the purge makes no difference. -/
theorem purges_keep_outcome_week :
    (DealEvent.run twoAgreed (releasedAround 7)).status = some .COMPLETED ∧
      (DealEvent.run twoAgreed (releasedAround 7)).credits
        = (DealEvent.run twoAgreed (DealEvent.withoutPurges (releasedAround 7))).credits :=
  ⟨by decide +kernel, (purges_keep_outcome twoAgreed (releasedAround 7) []
    (spares_of_test (by decide +kernel))).2.1⟩

/-- With a retention of a day the first milestone is gone when the second one is released: the deal
stays accepted, with both milestones paid for. -/
theorem purge_leaves_deal_open : ¬∀ (t : DealTables) (events : List DealEvent),
    let purged := DealEvent.run t events
    let kept := DealEvent.run t (DealEvent.withoutPurges events)
    (¬kept.Over → purged = kept ∧ ∀ e : DealEvent, (e.answer purged).1 = (e.answer kept).1) ∧
      purged.credits = kept.credits ∧ (purged.deal = kept.deal ∨ purged.deal = none ∧ kept.Over) ∧
      ∀ deal, kept.deal = some deal → deal.status.isFinal = true → ∀ retention_days : ℤ,
        ∃ since, ∀ now, since ≤ now →
          dealPurged (cutoff retention_days now) kept.created_at deal = true := by
  intro h
  obtain ⟨-, -, hdeal, -⟩ := h twoAgreed (releasedAround 1)
  have hopen : (DealEvent.run twoAgreed (releasedAround 1)).status = some .ACCEPTED := by
    decide +kernel
  have hdone : (DealEvent.run twoAgreed (DealEvent.withoutPurges (releasedAround 1))).status
      = some .COMPLETED := by decide +kernel
  unfold DealTables.status at hopen hdone
  -- the deal of one run is accepted, the deal of the other completed
  rcases hdeal with heq | ⟨hnone, -⟩
  · rw [heq, hdone] at hopen
    cases hopen
  · rw [hnone] at hopen
    cases hopen

end Sthrip
