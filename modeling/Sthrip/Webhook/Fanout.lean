import Mathlib.Data.List.Infix
import Sthrip.Services.WebhookDelivery

set_option autoImplicit false

/-! # Which endpoints a webhook reaches

One status is kept for an event. It becomes `DELIVERED` when one of the endpoints has acknowledged the
event, so that those that have not are given up, and no call for a waiting event sends it to an endpoint
after an acknowledgement.
-/

namespace Sthrip.Fanout

variable {P : Type} {decrypt : String → Option String} {w : World P}

/-! ## What a call does -/

/-- The loop over the endpoints chooses those that can be reached. -/
theorem consider_target (decrypt : String → Option String) (event_type : String) (now : Time)
    (ep : WebhookEndpoint) :
    (consider decrypt event_type now ep).2.map Target.endpoint_id =
      if Reachable decrypt event_type ep then some ep.id else none := by
  unfold consider
  by_cases hactive : ep.is_active = false
  · rw [if_pos hactive, if_neg fun h => absurd h.1.1 (by rw [hactive]; exact Bool.false_ne_true)]
    rfl
  rw [if_neg hactive]
  by_cases hfailures : ep.failure_count ≥ maxEndpointFailures
  · rw [if_pos hfailures, if_neg fun h => absurd h.1.2 (Nat.not_lt.mpr hfailures)]
    rfl
  rw [if_neg hfailures]
  by_cases hmatch : matchesEventFilter event_type ep.event_filters = false
  · rw [if_pos hmatch, if_neg fun h => absurd h.2.2 (by rw [hmatch]; exact Bool.false_ne_true)]
    rfl
  rw [if_neg hmatch]
  dsimp only
  by_cases hurl : (getUrl decrypt ep).getD "" = ""
  · rw [if_pos hurl, if_neg fun h => h.2.1.1 hurl]
    rfl
  rw [if_neg hurl]
  cases hsecret : decrypt ep.secret_encrypted with
  | none =>
      rw [if_neg fun h => absurd h.2.1.2 (by rw [hsecret]; exact Bool.false_ne_true)]
      rfl
  | some secret =>
      have hreach : Reachable decrypt event_type ep :=
        ⟨⟨by simpa using hactive, Nat.not_le.mp hfailures⟩, ⟨hurl, by rw [hsecret]; rfl⟩,
          by simpa using hmatch⟩
      rw [if_pos hreach]
      rfl

theorem targets_eq_matching (decrypt : String → Option String) {event_id : Id} {event : WebhookEvent P}
    (hevent : w.events event_id = some event) (hagent : event.agent_id ∈ w.agents) (now : Time) :
    ((w.endpoints.map fun ep =>
        if ep.agent_id = event.agent_id then consider decrypt event.event_type now ep
        else (ep, none)).filterMap Prod.snd).map Target.endpoint_id = w.matching decrypt event_id := by
  unfold World.matching
  rw [hevent]
  dsimp only
  rw [if_neg (not_not.mpr hagent), List.filterMap_map, List.map_filterMap]
  induction w.endpoints with
  | nil => rfl
  | cons ep eps ih =>
      rw [List.filterMap_cons, List.filter_cons]
      have htarget := consider_target decrypt event.event_type now ep
      by_cases hown : ep.agent_id = event.agent_id
      · by_cases hreach : Reachable decrypt event.event_type ep
        · rw [if_pos hreach] at htarget
          rw [Function.comp_apply, if_pos hown, htarget, if_pos (by simp [hown, hreach]), List.map_cons, ih]
        · rw [if_neg hreach] at htarget
          rw [Function.comp_apply, if_pos hown, htarget, if_neg (by simp [hreach]), ih]
      · rw [Function.comp_apply, if_neg hown, if_neg (by simp [hown]), ih]
        rfl

/-- A call finds no event, or ends with its first phase because there is no endpoint to send to, or sends to
the endpoints that are active, readable and matching. -/
theorem World.phase1_cases (decrypt : String → Option String) (w : World P) (event_id : Id) (now : Time) :
    (∃ result, w.phase1 decrypt event_id now = (w, .inl result)) ∨
      (∃ endpoints result, w.phase1 decrypt event_id now =
          (World.updateEvent { w with endpoints } event_id (markDelivered now 0), .inl result) ∧
        w.matching decrypt event_id = []) ∨
      ∃ endpoints d, w.phase1 decrypt event_id now = ({ w with endpoints }, .inr d) ∧
        d.event_id = event_id ∧
        d.delivery_targets.map Target.endpoint_id = w.matching decrypt event_id ∧
        w.matching decrypt event_id ≠ [] := by
  unfold World.phase1
  cases hevent : w.events event_id with
  | none => exact .inl ⟨_, rfl⟩
  | some event =>
      dsimp only
      by_cases hagent : event.agent_id ∉ w.agents
      · rw [if_pos hagent]
        refine .inr (.inl ⟨w.endpoints, _, rfl, ?_⟩)
        unfold World.matching
        rw [hevent]
        exact if_pos hagent
      rw [if_neg hagent]
      have htargets := targets_eq_matching decrypt hevent (not_not.mp hagent) now
      split_ifs with hnone
      · rw [hnone] at htargets
        exact .inr (.inl ⟨_, _, rfl, htargets.symm⟩)
      · refine .inr (.inr ⟨_, _, rfl, rfl, htargets, fun hempty => hnone ?_⟩)
        exact List.map_eq_nil_iff.mp (htargets.trans hempty)

/-- A call succeeds when one of the endpoints acknowledges. -/
theorem World.any_success_iff (d : Delivery P) (outcomes : Id → Option WebhookResult) :
    ((d.delivery_targets.map fun target => (target.endpoint_id, outcomes target.endpoint_id)).any
        fun outcome => outcome.2.any (·.success)) = true ↔ acknowledge d outcomes ≠ [] := by
  unfold acknowledge
  simp [List.filter_eq_nil_iff]

theorem World.phase3_success (w : World P) (d : Delivery P) (outcomes : Id → Option WebhookResult)
    (now : Time) :
    (w.phase3 d outcomes now).2.success = true ↔ acknowledge d outcomes ≠ [] := by
  rw [← World.any_success_iff]
  unfold World.phase3
  cases w.events d.event_id with
  | none => rfl
  | some event =>
      dsimp only
      by_cases hwaiting : isWaiting event.status = false
      · rw [if_pos hwaiting]
      · rw [if_neg hwaiting]

/-- What a call writes in the end: nothing, that the event is delivered, or that it is to be sent again. -/
theorem World.phase3_cases (w : World P) (d : Delivery P) (outcomes : Id → Option WebhookResult)
    (now : Time) :
    ((w.phase3 d outcomes now).1 = w ∧ w.waiting d.event_id = false) ∨
      (acknowledge d outcomes ≠ [] ∧ ∃ endpoints, (w.phase3 d outcomes now).1 =
        World.updateEvent { w with endpoints } d.event_id (markDelivered now 200)) ∨
      (acknowledge d outcomes = [] ∧ w.waiting d.event_id = true ∧
        ∃ endpoints error, (w.phase3 d outcomes now).1 =
          World.updateEvent { w with endpoints } d.event_id (scheduleRetry now error)) := by
  have hany := World.any_success_iff d outcomes
  unfold World.phase3
  dsimp only
  cases hevent : w.events d.event_id with
  | none => exact .inl ⟨rfl, by simp [World.waiting, World.status, hevent]⟩
  | some event =>
      dsimp only
      by_cases hwaiting : isWaiting event.status = false
      · rw [if_pos hwaiting]
        exact .inl ⟨rfl, by simpa [World.waiting, World.status, hevent] using hwaiting⟩
      rw [if_neg hwaiting]
      refine .inr ?_
      split_ifs with hsuccess
      · exact .inl ⟨hany.mp hsuccess, _, rfl⟩
      · refine .inr ⟨by_contra fun h => hsuccess (hany.mpr h), ?_, _, _, rfl⟩
        simpa [World.waiting, World.status, hevent] using hwaiting

theorem World.noted_cases (before after : World P) (event_id : Id) (matching : List Id) :
    noted before after event_id matching = after ∨
      (after.status event_id = some .DELIVERED ∧ before.status event_id ≠ some .DELIVERED ∧
        noted before after event_id matching =
          { after with log := .delivered event_id matching :: after.log }) := by
  unfold World.noted
  split_ifs with h
  · exact .inr ⟨h.1, h.2, rfl⟩
  · exact .inl rfl

/-! ## Which events wait -/

theorem World.waiting_updateEvent_of_ne {event_id e : Id} (h : e ≠ event_id)
    (set : WebhookEvent P → WebhookEvent P) : (w.updateEvent event_id set).waiting e = w.waiting e := by
  simp [World.waiting, World.status, World.updateEvent, Function.update_of_ne h]

theorem World.waiting_markDelivered (w : World P) (event_id : Id) (now : Time) (response_code : ℕ) :
    (w.updateEvent event_id (markDelivered now response_code)).waiting event_id = false := by
  cases hevent : w.events event_id with
  | none => simp [World.waiting, World.status, World.updateEvent, hevent]
  | some event =>
      simp [World.waiting, World.status, World.updateEvent, hevent, markDelivered, isWaiting]

/-- An event that is delivered waits no more, and the others wait as before. -/
theorem World.not_waiting_of_markDelivered {event_id e : Id} {now : Time} {response_code : ℕ}
    (h : e = event_id ∨ w.waiting e = false) :
    (w.updateEvent event_id (markDelivered now response_code)).waiting e = false := by
  by_cases he : e = event_id
  · rw [he]
    exact w.waiting_markDelivered event_id now response_code
  · rw [World.waiting_updateEvent_of_ne he]
    exact h.resolve_left he

theorem World.status_scheduleRetry (w : World P) (event_id : Id) (now : Time) (error : String) :
    (w.updateEvent event_id (scheduleRetry now error)).status event_id ≠ some .DELIVERED := by
  cases hevent : w.events event_id with
  | none => simp [World.status, World.updateEvent, hevent]
  | some event => simp [World.status, World.updateEvent, hevent, scheduleRetry]

/-- The worker makes calls for events that wait. -/
theorem isWaiting_of_isPending {now : Time} {event : WebhookEvent P} (h : isPending now event = true) :
    isWaiting event.status = true :=
  (of_decide_eq_true h).1

/-! ## Runs -/

/-- What has to be noted before an entry. -/
def Justified (older : List Entry) : Entry → Prop
  | .sent e waiting _ => waiting = true → ∀ ids, .acknowledged e ids ∈ older → ids = []
  | .acknowledged _ _ => True
  | .delivered e matching =>
      matching = [] ∨ ∃ ids, .acknowledged e ids ∈ older ∧ ∃ id ∈ matching, id ∈ ids

/-- What holds in a run: an event that an endpoint has acknowledged does not wait. -/
structure Orderly (w : World P) : Prop where
  settled : ∀ e ids, .acknowledged e ids ∈ w.log → ids ≠ [] → w.waiting e = false
  targets : ∀ d ∈ w.inFlight, d.delivery_targets.map Target.endpoint_id = d.matching
  justified : ∀ x older, (x :: older) <:+ w.log → Justified older x

theorem justified_cons {log : List Entry} {x : Entry} (hx : Justified log x)
    (h : ∀ x older, (x :: older) <:+ log → Justified older x) :
    ∀ y older, (y :: older) <:+ x :: log → Justified older y := by
  intro y older hsuffix
  rcases List.suffix_cons_iff.mp hsuffix with heq | hold
  · cases heq
    exact hx
  · exact h y older hold

namespace Orderly

theorem remove (h : Orderly w) (event_id : Id) :
    Orderly { w with events := Function.update w.events event_id none } := by
  refine ⟨fun e ids hmem hids => ?_, h.targets, h.justified⟩
  by_cases he : e = event_id
  · simp [World.waiting, World.status, he]
  · have hsame := h.settled e ids hmem hids
    simpa [World.waiting, World.status, Function.update_of_ne he] using hsame

/-- Noting a delivery keeps the order, when it is justified. -/
theorem noted {before after : World P} (h : Orderly after) {event_id : Id} {matching : List Id}
    (hdelivered : after.status event_id = some .DELIVERED → before.status event_id ≠ some .DELIVERED →
      Justified after.log (.delivered event_id matching)) :
    Orderly (World.noted before after event_id matching) := by
  rcases World.noted_cases before after event_id matching with hnoted | ⟨hafter, hbefore, hnoted⟩
  · rwa [hnoted]
  · rw [hnoted]
    refine ⟨fun e ids hmem hids => ?_, h.targets, justified_cons (hdelivered hafter hbefore) h.justified⟩
    rcases List.mem_cons.mp hmem with heq | hold
    · cases heq
    · exact h.settled e ids hold hids

theorem send (h : Orderly w) (event_id : Id) (now : Time) : Orderly (w.send decrypt event_id now) := by
  unfold World.send
  rcases w.phase1_cases decrypt event_id now with
    ⟨result, heq⟩ | ⟨endpoints, result, heq, hnone⟩ | ⟨endpoints, d, heq, hid, htargets, -⟩
  · rw [heq]
    dsimp only
    apply h.noted
    intro hafter hbefore
    exact absurd hafter hbefore
  · rw [heq, hnone]
    dsimp only
    have hmark : Orderly (World.updateEvent { w with endpoints } event_id (markDelivered now 0)) :=
      ⟨fun e ids hmem hids => World.not_waiting_of_markDelivered (.inr (h.settled e ids hmem hids)),
        h.targets, h.justified⟩
    apply hmark.noted
    intro _ _
    exact .inl rfl
  · rw [heq]
    dsimp only
    refine ⟨fun e ids hmem hids => ?_, fun d' hd' => ?_, justified_cons ?_ h.justified⟩
    · rcases List.mem_cons.mp hmem with heq | hold
      · cases heq
      · exact h.settled e ids hold hids
    · rcases List.mem_cons.mp hd' with rfl | hold
      · exact htargets
      · exact h.targets d' hold
    · -- an acknowledgement would have settled the event
      intro hwaiting ids hmem
      by_contra hids
      rw [h.settled event_id ids hmem hids] at hwaiting
      cases hwaiting

theorem finish (h : Orderly w) (event_id : Id) (outcomes : Id → Option WebhookResult) (now : Time) :
    Orderly (w.finish event_id outcomes now) := by
  unfold World.finish
  cases hfind : w.inFlight.find? fun d => d.event_id = event_id with
  | none => exact h
  | some d =>
      obtain rfl : d.event_id = event_id := by simpa using List.find?_some hfind
      have htargets := h.targets d (List.mem_of_find?_eq_some hfind)
      dsimp only
      set w₁ : World P := { w with
        inFlight := w.inFlight.filter fun d' => d'.event_id ≠ d.event_id
        log := .acknowledged d.event_id (World.acknowledge d outcomes) :: w.log } with hw₁
      have hinFlight : ∀ d' ∈ w₁.inFlight, d'.delivery_targets.map Target.endpoint_id = d'.matching :=
        fun d' hd' => h.targets d' (List.mem_of_mem_filter hd')
      have hjustified : ∀ x older, (x :: older) <:+ w₁.log → Justified older x :=
        justified_cons trivial h.justified
      have hsettled : ∀ e ids, .acknowledged e ids ∈ w₁.log → ids ≠ [] →
          (e = d.event_id ∧ World.acknowledge d outcomes ≠ []) ∨ w.waiting e = false := by
        intro e ids hmem hids
        rcases List.mem_cons.mp hmem with heq | hold
        · cases heq
          exact .inl ⟨rfl, hids⟩
        · exact .inr (h.settled e ids hold hids)
      rcases w₁.phase3_cases d outcomes now with
        ⟨heq, hwaiting⟩ | ⟨hacked, endpoints, heq⟩ | ⟨hacked, hwaiting, endpoints, error, heq⟩
      · rw [heq]
        have hsame : Orderly w₁ := by
          refine ⟨fun e ids hmem hids => ?_, hinFlight, hjustified⟩
          rcases hsettled e ids hmem hids with ⟨rfl, -⟩ | hold
          · exact hwaiting
          · exact hold
        apply hsame.noted
        intro hafter hbefore
        exact absurd hafter hbefore
      · rw [heq]
        have hmark :
            Orderly (World.updateEvent { w₁ with endpoints } d.event_id (markDelivered now 200)) := by
          refine ⟨fun e ids hmem hids => World.not_waiting_of_markDelivered ?_, hinFlight, hjustified⟩
          exact (hsettled e ids hmem hids).imp_left And.left
        apply hmark.noted
        intro _ _
        obtain ⟨id, hid⟩ := List.exists_mem_of_ne_nil _ hacked
        refine .inr ⟨World.acknowledge d outcomes, List.mem_cons_self, id, ?_, hid⟩
        rw [← htargets]
        exact List.mem_of_mem_filter hid
      · rw [heq]
        have hretry :
            Orderly (World.updateEvent { w₁ with endpoints } d.event_id (scheduleRetry now error)) := by
          refine ⟨fun e ids hmem hids => ?_, hinFlight, hjustified⟩
          rcases hsettled e ids hmem hids with ⟨-, hne⟩ | hold
          · exact absurd hacked hne
          · -- the event that is sent again was waiting, so that no endpoint had acknowledged it
            have he : e ≠ d.event_id := by
              rintro rfl
              exact absurd hwaiting (by rw [show w₁.waiting d.event_id = false from hold]; decide)
            rw [World.waiting_updateEvent_of_ne he]
            exact hold
        apply hretry.noted
        intro hafter _
        exact absurd hafter (World.status_scheduleRetry _ _ _ _)

theorem step (h : Orderly w) (s : Step) : Orderly (w.step decrypt s) := by
  cases s with
  | endpoints rows => exact ⟨h.settled, h.targets, h.justified⟩
  | agents ids => exact ⟨h.settled, h.targets, h.justified⟩
  | remove event_id => exact h.remove event_id
  | send event_id now =>
      rw [World.step]
      split_ifs
      · exact h
      · exact h.send event_id now
  | finish event_id outcomes now => exact h.finish event_id outcomes now

theorem run (h : Orderly w) (steps : List Step) : Orderly (w.run decrypt steps) :=
  List.foldlRecOn steps _ h fun _ hw s _ => hw.step s

end Orderly

/-- Nothing has been sent yet. -/
def World.start (agents : List Id) (endpoints : List WebhookEndpoint)
    (events : Id → Option (WebhookEvent P)) : World P where
  agents := agents
  endpoints := endpoints
  events := events

/-- **What the fan-out reaches.** When the status of an event becomes `DELIVERED`, one of the endpoints that
were active, readable and matching has acknowledged the event, unless there was none; and a call that finds
the event waiting sends it to no endpoint after any has acknowledged it. -/
theorem fanout_justified (decrypt : String → Option String) (agents : List Id)
    (endpoints : List WebhookEndpoint) (events : Id → Option (WebhookEvent P)) (steps : List Step)
    (entry : Entry) (older : List Entry)
    (h : (entry :: older) <:+ ((World.start agents endpoints events).run decrypt steps).log) :
    Justified older entry := by
  have hstart : Orderly (World.start agents endpoints events) := by
    refine ⟨fun e ids hmem => ?_, fun d hd => ?_, fun x older hsuffix => ?_⟩
    · cases hmem
    · cases hd
    · exact absurd (List.suffix_nil.mp hsuffix) (List.cons_ne_nil _ _)
  exact (hstart.run steps).justified entry older h

/-! ### Two endpoints, one of which fails -/

def twoEndpoints : World Unit :=
  .start [1]
    [{ id := 1, agent_id := 1, url_encrypted := "https://a", secret_encrypted := "s" },
      { id := 2, agent_id := 1, url_encrypted := "https://b", secret_encrypted := "s" }]
    fun e => if e = 5 then some (newEvent 0 0 1 "payment.received" ()) else none

/-- The first endpoint acknowledges and the second fails; the event is processed once more. -/
def partialFailure : List Step :=
  [.send 5 0, .finish 5 (fun id => some { success := id = 1 }) 1, .send 5 2]

/-- The second endpoint never acknowledges, and the first is sent the event again. -/
theorem delivered_unacknowledged :
    (twoEndpoints.run some partialFailure).log =
      [.sent 5 false [1, 2], .delivered 5 [1, 2], .acknowledged 5 [1], .sent 5 true [1, 2]] := by
  decide +kernel

theorem fanout_justified_partial :
    Justified [.acknowledged 5 [1], .sent 5 true [1, 2]] (.delivered 5 [1, 2]) :=
  fanout_justified some [1] twoEndpoints.endpoints twoEndpoints.events partialFailure _ _
    (by decide +kernel)

end Sthrip.Fanout
