import Sthrip.Services.WebhookWorkers
import Sthrip.Webhook.Fanout

set_option autoImplicit false

/-! # The attempts of several workers

The lock of the first phase is given up before the requests are sent, and that phase looks neither at the
status of the event nor at its attempts. The attempts are made once, and end, while the calls happen to come
one after the other and no last attempt fails: nothing calls `mark_failed`.
-/

namespace Sthrip.Fanout

variable {P : Type}

/-! ## What is asked of the attempts -/

/-- How many attempts of an event have failed. -/
def failures (event_id : Id) (journal : List Note) : ℕ := journal.count (.failed event_id)

def World.maxAttempts (w : World P) (event_id : Id) : Option ℕ := (w.events event_id).map (·.max_attempts)

namespace Workers

/-- An event is sent neither after its status became `DELIVERED` nor after `max_attempts` failed attempts,
no attempt is made twice, and an event is `FAILED` after `max_attempts` failed attempts. -/
structure Proper (s : Workers P) : Prop where
  sent : ∀ e number older, (.sent e number :: older) <:+ s.journal →
    .delivered e ∉ older ∧ .sent e number ∉ older ∧
      ∀ m, s.world.maxAttempts e = some m → failures e older < m
  failed : ∀ e m, s.world.maxAttempts e = some m → m ≤ failures e s.journal →
    s.world.status e = some .FAILED

/-- A call that has endpoints to send to starts while the event is not yet delivered and no other call for
it is under way; one that has none does not start between the read and the write of another. -/
def MayStart (decrypt : String → Option String) (s : Workers P) (e : Id) : Prop :=
  if s.world.matching decrypt e = [] then ∀ a ∈ s.attempts, a.delivery.event_id = e → a.read.isNone
  else s.world.status e ≠ some .DELIVERED ∧ ∀ a ∈ s.attempts, a.delivery.event_id ≠ e

/-- It is not the last attempt that fails. -/
def MayAnswer (s : Workers P) (k : ℕ) (outcomes : Id → Option WebhookResult) : Prop :=
  ∀ a ∈ s.attempts[k]?, World.acknowledge a.delivery outcomes = [] →
    ∀ m ∈ s.world.maxAttempts a.delivery.event_id, a.number < m

/-- The condition on a step. -/
def Meets (decrypt : String → Option String) (s : Workers P) : WorkerStep P → Prop
  | .start e _ => e ∈ s.queue → MayStart decrypt s e
  | .answer k outcomes => MayAnswer s k outcomes
  | _ => True

/-- Every step of a run meets the condition. -/
def AllMeet (decrypt : String → Option String) : Workers P → List (WorkerStep P) → Prop
  | _, [] => True
  | s, x :: steps => Meets decrypt s x ∧ AllMeet decrypt (s.step decrypt x) steps

instance (decrypt : String → Option String) (s : Workers P) (e : Id) :
    Decidable (MayStart decrypt s e) := by
  unfold MayStart
  infer_instance

instance (s : Workers P) (k : ℕ) (outcomes : Id → Option WebhookResult) :
    Decidable (MayAnswer s k outcomes) := by
  unfold MayAnswer
  infer_instance

instance (decrypt : String → Option String) (s : Workers P) (x : WorkerStep P) :
    Decidable (Meets decrypt s x) :=
  match x with
  | .endpoints _ | .agents _ | .create .. | .pending .. | .call _ | .settle .. => .isTrue trivial
  | .start e _ => inferInstanceAs (Decidable (e ∈ s.queue → MayStart decrypt s e))
  | .answer k outcomes => inferInstanceAs (Decidable (MayAnswer s k outcomes))

instance instDecidableAllMeet (decrypt : String → Option String) :
    (steps : List (WorkerStep P)) → (s : Workers P) → Decidable (AllMeet decrypt s steps)
  | [], _ => .isTrue trivial
  | x :: steps, s =>
      have := instDecidableAllMeet decrypt steps (s.step decrypt x)
      inferInstanceAs (Decidable (Meets decrypt s x ∧ AllMeet decrypt (s.step decrypt x) steps))

/-- The events for which a call is under way. -/
def busy (s : Workers P) : List Id := s.attempts.map (·.delivery.event_id)

/-- What holds while the steps meet the condition. -/
structure Inv (s : Workers P) : Prop where
  known : ∀ x ∈ s.journal, (s.world.events x.event_id).isSome
  unfailed : ∀ e, s.world.status e ≠ some .FAILED
  delivered : ∀ e, .delivered e ∈ s.journal ↔ s.world.status e = some .DELIVERED
  sent : ∀ e n, .sent e n ∈ s.journal → n ≤ s.world.number e ∧
    (n = s.world.number e → e ∈ s.busy ∨ s.world.status e = some .DELIVERED)
  under : ∀ a ∈ s.attempts, a.number = s.world.number a.delivery.event_id ∧
    .sent a.delivery.event_id a.number ∈ s.journal
  alone : s.busy.Nodup
  counted : ∀ e, e ∈ s.busy ∨ s.world.status e ≠ some .DELIVERED →
    failures e s.journal + 1 = s.world.number e
  left : ∀ e m, s.world.maxAttempts e = some m → failures e s.journal < m
  once : ∀ e n older, (.sent e n :: older) <:+ s.journal → .delivered e ∉ older ∧ .sent e n ∉ older
  /-- The row that has been read is that of the event, and a failure is not the last. -/
  read : ∀ a ∈ s.attempts, ∀ row outcomes, a.read = some (row, outcomes) →
    s.world.events a.delivery.event_id = some row ∧ isWaiting row.status = true ∧
      (World.acknowledge a.delivery outcomes = [] →
        ∀ m, s.world.maxAttempts a.delivery.event_id = some m → a.number < m)

end Workers

/-! ## What a session writes -/

namespace World

variable {w : World P} {event_id e : Id}

theorem events_update_self (w : World P) (event_id : Id) (set : WebhookEvent P → WebhookEvent P) :
    (w.updateEvent event_id set).events event_id = (w.events event_id).map set := Function.update_self ..

theorem events_update_of_ne (h : e ≠ event_id) (set : WebhookEvent P → WebhookEvent P) :
    (w.updateEvent event_id set).events e = w.events e := Function.update_of_ne h ..

theorem status_update_of_ne (h : e ≠ event_id) (set : WebhookEvent P → WebhookEvent P) :
    (w.updateEvent event_id set).status e = w.status e :=
  congrArg (Option.map _) (events_update_of_ne h set)

theorem number_update_of_ne (h : e ≠ event_id) (set : WebhookEvent P → WebhookEvent P) :
    (w.updateEvent event_id set).number e = w.number e :=
  congrArg (fun event => (Option.map _ event).getD 0 + 1) (events_update_of_ne h set)

theorem isSome_update (w : World P) (event_id e : Id) (set : WebhookEvent P → WebhookEvent P) :
    ((w.updateEvent event_id set).events e).isSome = (w.events e).isSome := by
  by_cases h : e = event_id
  · rw [h, events_update_self, Option.isSome_map]
  · rw [events_update_of_ne h]

theorem maxAttempts_update (set : WebhookEvent P → WebhookEvent P)
    (hset : ∀ event, (set event).max_attempts = event.max_attempts) (event_id e : Id) :
    (w.updateEvent event_id set).maxAttempts e = w.maxAttempts e := by
  unfold World.maxAttempts
  by_cases h : e = event_id
  · rw [h, events_update_self, Option.map_map]
    exact Option.map_congr fun event _ => hset event
  · rw [events_update_of_ne h]

theorem number_markDelivered (w : World P) (event_id e : Id) (now : Time) (response_code : ℕ) :
    (w.updateEvent event_id (markDelivered now response_code)).number e = w.number e := by
  by_cases h : e = event_id
  · unfold World.number
    rw [h, events_update_self, Option.map_map]
    rfl
  · exact number_update_of_ne h _

theorem number_scheduleRetry (h : (w.events event_id).isSome) (now : Time) (error : String) :
    (w.updateEvent event_id (scheduleRetry now error)).number event_id = w.number event_id + 1 := by
  obtain ⟨event, hevent⟩ := Option.isSome_iff_exists.mp h
  unfold World.number
  rw [events_update_self, hevent]
  rfl

theorem status_retrying (h : (w.events event_id).isSome) (now : Time) (error : String) :
    (w.updateEvent event_id (scheduleRetry now error)).status event_id = some .RETRYING := by
  obtain ⟨event, hevent⟩ := Option.isSome_iff_exists.mp h
  unfold World.status
  rw [events_update_self, hevent]
  rfl

theorem status_delivered (w : World P) (event_id : Id) (now : Time) (response_code : ℕ) :
    (w.updateEvent event_id (markDelivered now response_code)).status event_id =
      if (w.events event_id).isSome then some .DELIVERED else none := by
  unfold World.status
  rw [events_update_self]
  cases w.events event_id <;> rfl

theorem status_none (h : ¬ (w.events event_id).isSome) : w.status event_id = none := by
  unfold World.status
  rw [Option.not_isSome_iff_eq_none.mp h]
  rfl

theorem number_none (h : ¬ (w.events event_id).isSome) : w.number event_id = 1 := by
  unfold World.number
  rw [Option.not_isSome_iff_eq_none.mp h]
  rfl

/-- An event that neither waits nor has failed is delivered. -/
theorem delivered_of_not_waiting (hsome : (w.events event_id).isSome)
    (hfailed : w.status event_id ≠ some .FAILED) (h : w.waiting event_id = false) :
    w.status event_id = some .DELIVERED := by
  obtain ⟨event, hevent⟩ := Option.isSome_iff_exists.mp hsome
  unfold World.waiting at h
  unfold World.status at h hfailed ⊢
  rw [hevent] at h hfailed ⊢
  cases hstatus : event.status with
  | PENDING => simp [hstatus, isWaiting] at h
  | RETRYING => simp [hstatus, isWaiting] at h
  | FAILED => exact absurd (congrArg some hstatus) hfailed
  | DELIVERED => exact congrArg some hstatus

theorem not_delivered_of_waiting (h : w.waiting event_id = true) :
    w.status event_id ≠ some .DELIVERED := by
  intro hdelivered
  unfold World.waiting at h
  rw [hdelivered] at h
  exact absurd h (by decide)

end World

namespace Workers

variable {s : Workers P} {decrypt : String → Option String}

theorem failures_cons_of_ne {x : Note} {e : Id} (h : x ≠ .failed e) (journal : List Note) :
    failures e (x :: journal) = failures e journal := List.count_cons_of_ne h

theorem failures_failed (e : Id) (journal : List Note) :
    failures e (.failed e :: journal) = failures e journal + 1 := List.count_cons_self

/-- A note that is no request keeps the attempts apart. -/
theorem once_cons {journal : List Note} {x : Note} (hx : ∀ e n, x ≠ .sent e n)
    (h : ∀ e n older, (.sent e n :: older) <:+ journal → .delivered e ∉ older ∧ .sent e n ∉ older) :
    ∀ e n older, (.sent e n :: older) <:+ x :: journal → .delivered e ∉ older ∧ .sent e n ∉ older := by
  intro e n older hsuffix
  rcases List.suffix_cons_iff.mp hsuffix with heq | hold
  · exact absurd (List.cons.inj heq).1.symm (hx e n)
  · exact h e n older hold

/-- The invariant says more than what is asked of the attempts. -/
theorem Inv.proper (h : Inv s) : Proper s := by
  refine ⟨fun e n older hsuffix => ⟨(h.once e n older hsuffix).1, (h.once e n older hsuffix).2, ?_⟩, ?_⟩
  · intro m hm
    have hle : failures e older ≤ failures e s.journal :=
      ((List.suffix_cons _ older).trans hsuffix).sublist.count_le _
    exact lt_of_le_of_lt hle (h.left e m hm)
  · intro e m hm hle
    exact absurd (h.left e m hm) (Nat.not_lt.mpr hle)

/-! ## The steps keep the invariant -/

/-- That an event is delivered is noted once. -/
theorem Inv.write_markDelivered (h : Inv s) (attempts : List (Attempt P)) (endpoints : List WebhookEndpoint)
    (e : Id) (now : Time) (response_code : ℕ) :
    ∃ journal, write { s with attempts } e
          (World.updateEvent { s.world with endpoints } e (markDelivered now response_code)) =
        { s with
          world := World.updateEvent { s.world with endpoints } e (markDelivered now response_code)
          attempts, journal } ∧
      (∀ x, x ∈ journal ↔ x ∈ s.journal ∨ (x = .delivered e ∧ (s.world.events e).isSome)) ∧
      (∀ e', failures e' journal = failures e' s.journal) ∧
      ∀ e' n older, (.sent e' n :: older) <:+ journal → .delivered e' ∉ older ∧ .sent e' n ∉ older := by
  have hstatus := World.status_delivered { s.world with endpoints } e now response_code
  unfold write
  by_cases hsome : (s.world.events e).isSome
  · rw [if_pos hsome] at hstatus
    by_cases hbefore : s.world.status e = some .DELIVERED
    · rw [if_neg fun hboth => hboth.2 hbefore]
      refine ⟨s.journal, rfl, fun x => ⟨Or.inl, ?_⟩, fun _ => rfl, h.once⟩
      rintro (hx | ⟨rfl, -⟩)
      · exact hx
      · exact (h.delivered e).mpr hbefore
    · rw [if_pos ⟨hstatus, hbefore⟩]
      refine ⟨.delivered e :: s.journal, rfl, fun x => ?_, fun e' => ?_, once_cons nofun h.once⟩
      · rw [List.mem_cons, or_comm, and_iff_left hsome]
      · exact failures_cons_of_ne (show Note.delivered e ≠ .failed e' from nofun) _
  · rw [if_neg hsome] at hstatus
    rw [hstatus, if_neg (by rintro ⟨hd, -⟩; cases hd)]
    exact ⟨s.journal, rfl, fun x => (or_iff_left fun hx => hsome hx.2).symm, fun _ => rfl, h.once⟩

/-- An event may become delivered while calls for it end. -/
theorem Inv.deliver (h : Inv s) {attempts : List (Attempt P)} (hsub : attempts.Sublist s.attempts) {e : Id}
    (hrest : ∀ a ∈ s.attempts, a.delivery.event_id ≠ e → a ∈ attempts)
    (hread : ∀ a ∈ attempts, a.delivery.event_id = e → a.read.isNone) (endpoints : List WebhookEndpoint)
    (now : Time) (response_code : ℕ) :
    Inv (write { s with attempts } e
      (World.updateEvent { s.world with endpoints } e (markDelivered now response_code))) := by
  obtain ⟨journal, heq, hmem, hfailures, honce⟩ :=
    h.write_markDelivered attempts endpoints e now response_code
  rw [heq]
  set w' := World.updateEvent { s.world with endpoints } e (markDelivered now response_code) with hw'
  have hnumber : ∀ e', w'.number e' = s.world.number e' := fun e' =>
    World.number_markDelivered { s.world with endpoints } e e' now response_code
  have hmax : ∀ e', w'.maxAttempts e' = s.world.maxAttempts e' := fun e' =>
    World.maxAttempts_update (markDelivered now response_code) (fun _ => rfl) e e'
  have hsome : ∀ e', (w'.events e').isSome = (s.world.events e').isSome := fun e' =>
    World.isSome_update { s.world with endpoints } e e' _
  have hself : w'.status e = if (s.world.events e).isSome then some .DELIVERED else none :=
    World.status_delivered { s.world with endpoints } e now response_code
  have hother : ∀ e', e' ≠ e → w'.status e' = s.world.status e' := fun e' he =>
    World.status_update_of_ne he _
  have hdelivered : ∀ e', w'.status e' = some .DELIVERED ↔
      s.world.status e' = some .DELIVERED ∨ (e' = e ∧ (s.world.events e).isSome) := by
    intro e'
    by_cases he : e' = e
    · rw [he, hself]
      by_cases hs : (s.world.events e).isSome
      · rw [if_pos hs]
        exact ⟨fun _ => .inr ⟨rfl, hs⟩, fun _ => rfl⟩
      · rw [if_neg hs, World.status_none hs]
        exact ⟨nofun, fun hor => hor.elim nofun fun hand => absurd hand.2 hs⟩
    · rw [hother e' he]
      exact (or_iff_left fun hand => he hand.1).symm
  refine ⟨fun x hx => ?_, fun e' => ?_, fun e' => ?_, fun e' n hsent => ?_, fun a ha => ?_,
    h.alone.sublist (hsub.map _), fun e' hcounted => ?_, fun e' m hm => ?_, honce,
    fun a ha row outcomes hr => ?_⟩
  · rw [hsome]
    rcases (hmem x).mp hx with hold | ⟨rfl, hs⟩
    · exact h.known x hold
    · exact hs
  · by_cases he : e' = e
    · show w'.status e' ≠ _
      rw [he, hself]
      split_ifs <;> exact nofun
    · show w'.status e' ≠ _
      rw [hother e' he]
      exact h.unfailed e'
  · rw [hdelivered, hmem, h.delivered, Note.delivered.injEq]
  · have hold : .sent e' n ∈ s.journal := ((hmem _).mp hsent).resolve_right fun hand => nomatch hand.1
    obtain ⟨hle, hlast⟩ := h.sent e' n hold
    rw [hnumber]
    refine ⟨hle, fun hn => ?_⟩
    by_cases he : e' = e
    · exact .inr ((hdelivered e').mpr (.inr ⟨he, he ▸ h.known _ hold⟩))
    · rcases hlast hn with hbusy | hd
      · obtain ⟨a, ha, rfl⟩ := List.mem_map.mp hbusy
        exact .inl (List.mem_map_of_mem (hrest a ha he))
      · exact .inr ((hdelivered e').mpr (.inl hd))
  · obtain ⟨hn, hsent⟩ := h.under a (hsub.subset ha)
    rw [hnumber]
    exact ⟨hn, (hmem _).mpr (.inl hsent)⟩
  · rw [hfailures, hnumber]
    refine h.counted e' (hcounted.imp (fun hbusy => (hsub.map _).subset hbusy) fun hne hd => hne ?_)
    exact (hdelivered e').mpr (.inl hd)
  · rw [hfailures]
    exact h.left e' m ((hmax e').symm.trans hm)
  · have hne : a.delivery.event_id ≠ e := by
      intro he
      have hnone := hread a ha he
      rw [hr] at hnone
      cases hnone
    obtain ⟨hrow, hwaiting, hlast⟩ := h.read a (hsub.subset ha) row outcomes hr
    refine ⟨(World.events_update_of_ne hne _).trans hrow, hwaiting, fun hacked m hm => ?_⟩
    exact hlast hacked m ((hmax _).symm.trans hm)

/-- A call for an event that is not delivered starts while no other is under way. -/
theorem Inv.begin (h : Inv s) {d : Delivery P} (hsome : (s.world.events d.event_id).isSome)
    (hstatus : s.world.status d.event_id ≠ some .DELIVERED)
    (halone : ∀ a ∈ s.attempts, a.delivery.event_id ≠ d.event_id) (endpoints : List WebhookEndpoint) :
    Inv { s with
      world := { s.world with endpoints }
      attempts := s.attempts ++ [{ number := s.world.number d.event_id, delivery := d }]
      journal := .sent d.event_id (s.world.number d.event_id) :: s.journal } := by
  have hidle : d.event_id ∉ s.busy := by
    intro hbusy
    obtain ⟨a, ha, he⟩ := List.mem_map.mp hbusy
    exact halone a ha he
  have hbusy : ∀ e, e ∈ (s.attempts ++ [Attempt.mk (s.world.number d.event_id) d none]).map
      (fun a => a.delivery.event_id) ↔ e ∈ s.busy ∨ e = d.event_id := by
    intro e
    rw [List.map_append, List.mem_append, List.map_singleton, List.mem_singleton]
    rfl
  have hfailures : ∀ e, failures e (.sent d.event_id (s.world.number d.event_id) :: s.journal) =
      failures e s.journal := fun e =>
    failures_cons_of_ne (show Note.sent d.event_id (s.world.number d.event_id) ≠ .failed e from nofun) _
  refine ⟨fun x hx => ?_, h.unfailed, fun e => ?_, fun e n hsent => ?_, fun a ha => ?_, ?_,
    fun e hcounted => ?_, fun e m hm => ?_, fun e n older hsuffix => ?_, fun a ha row outcomes hr => ?_⟩
  · rcases List.mem_cons.mp hx with rfl | hold
    · exact hsome
    · exact h.known x hold
  · rw [List.mem_cons, or_iff_right nofun]
    exact h.delivered e
  · rcases List.mem_cons.mp hsent with heq | hold
    · cases heq
      exact ⟨le_rfl, fun _ => .inl ((hbusy _).mpr (.inr rfl))⟩
    · obtain ⟨hle, hlast⟩ := h.sent e n hold
      exact ⟨hle, fun hn => (hlast hn).imp_left fun hb => (hbusy e).mpr (.inl hb)⟩
  · rcases List.mem_append.mp ha with hold | hnew
    · obtain ⟨hn, hsent⟩ := h.under a hold
      exact ⟨hn, List.mem_cons_of_mem _ hsent⟩
    · obtain rfl := List.mem_singleton.mp hnew
      exact ⟨rfl, List.mem_cons_self⟩
  · unfold busy
    rw [List.map_append, List.map_singleton]
    exact List.nodup_append.mpr ⟨h.alone, List.nodup_singleton _, fun e he e' he' hsame =>
      hidle (List.mem_singleton.mp he' ▸ hsame ▸ he)⟩
  · rw [hfailures]
    rcases hcounted with hb | hne
    · rcases (hbusy e).mp hb with hold | rfl
      · exact h.counted e (.inl hold)
      · exact h.counted d.event_id (.inr hstatus)
    · exact h.counted e (.inr hne)
  · rw [hfailures]
    exact h.left e m hm
  · rcases List.suffix_cons_iff.mp hsuffix with heq | hold
    · cases heq
      refine ⟨fun hmem => hstatus ((h.delivered _).mp hmem), fun hmem => ?_⟩
      rcases (h.sent _ _ hmem).2 rfl with hb | hd
      · exact hidle hb
      · exact hstatus hd
    · exact h.once e n older hold
  · rcases List.mem_append.mp ha with hold | hnew
    · exact h.read a hold row outcomes hr
    · obtain rfl := List.mem_singleton.mp hnew
      cases hr

/-- The event of the call that ends has no other call. -/
theorem Inv.erase (h : Inv s) {k : ℕ} {a : Attempt P} (ha : s.attempts[k]? = some a) :
    (∀ a' ∈ s.attempts, a'.delivery.event_id ≠ a.delivery.event_id → a' ∈ s.attempts.eraseIdx k) ∧
      a.delivery.event_id ∉ (s.attempts.eraseIdx k).map (·.delivery.event_id) := by
  constructor
  · intro a' ha' hne
    obtain ⟨i, hi⟩ := List.mem_iff_getElem?.mp ha'
    refine List.mem_eraseIdx_iff_getElem?.mpr ⟨i, ?_, hi⟩
    rintro rfl
    rw [ha] at hi
    exact hne (by rw [Option.some.inj hi])
  · intro hmem
    obtain ⟨a', ha', he⟩ := List.mem_map.mp hmem
    obtain ⟨i, hne, hi⟩ := List.mem_eraseIdx_iff_getElem?.mp ha'
    have hsame : s.busy[i]? = s.busy[k]? := by
      unfold busy
      rw [List.getElem?_map, List.getElem?_map, hi, ha]
      exact congrArg some he
    have hlt : i < s.busy.length := by
      unfold busy
      rw [List.length_map]
      exact (List.getElem?_eq_some_iff.mp hi).1
    exact hne ((List.getElem?_inj hlt h.alone).mp hsame)

theorem mem_busy {k : ℕ} {a : Attempt P} (ha : s.attempts[k]? = some a) : a.delivery.event_id ∈ s.busy :=
  List.mem_map_of_mem (List.mem_of_getElem? ha)

theorem Inv.isSome (h : Inv s) {k : ℕ} {a : Attempt P} (ha : s.attempts[k]? = some a) :
    (s.world.events a.delivery.event_id).isSome :=
  h.known _ (h.under a (List.mem_of_getElem? ha)).2

/-- The attempt under way is the one after those that have failed. -/
theorem Inv.number_eq (h : Inv s) {k : ℕ} {a : Attempt P} (ha : s.attempts[k]? = some a) :
    a.number = failures a.delivery.event_id s.journal + 1 := by
  rw [h.counted _ (.inl (mem_busy ha))]
  exact (h.under a (List.mem_of_getElem? ha)).1

/-- A call for a delivered event may end and write nothing. -/
theorem Inv.leave (h : Inv s) {k : ℕ} {a : Attempt P} (ha : s.attempts[k]? = some a)
    (hstatus : s.world.status a.delivery.event_id = some .DELIVERED) :
    Inv { s with attempts := s.attempts.eraseIdx k } := by
  have hsub : (s.attempts.eraseIdx k).Sublist s.attempts := List.eraseIdx_sublist ..
  refine ⟨h.known, h.unfailed, h.delivered, fun e n hsent => ?_, fun a' ha' => h.under a' (hsub.subset ha'),
    h.alone.sublist (hsub.map _), fun e hcounted => ?_, h.left, h.once,
    fun a' ha' => h.read a' (hsub.subset ha')⟩
  · obtain ⟨hle, hlast⟩ := h.sent e n hsent
    refine ⟨hle, fun hn => ?_⟩
    by_cases he : e = a.delivery.event_id
    · exact .inr (he ▸ hstatus)
    · rcases hlast hn with hb | hd
      · obtain ⟨a', ha', rfl⟩ := List.mem_map.mp hb
        exact .inl (List.mem_map_of_mem ((h.erase ha).1 a' ha' he))
      · exact .inr hd
  · exact h.counted e (hcounted.imp_left fun hb => (hsub.map _).subset hb)

/-- One more failure may be noted of a delivered event whose calls have ended. -/
theorem Inv.note_failed (h : Inv s) {e : Id} (hstatus : s.world.status e = some .DELIVERED)
    (hidle : e ∉ s.busy) (hleft : ∀ m, s.world.maxAttempts e = some m → failures e s.journal + 1 < m) :
    Inv { s with journal := .failed e :: s.journal } := by
  have hsome : (s.world.events e).isSome := by
    by_contra hnone
    rw [World.status_none hnone] at hstatus
    cases hstatus
  refine ⟨fun x hx => ?_, h.unfailed, fun e' => ?_, fun e' n hsent => ?_, fun a ha => ?_, h.alone,
    fun e' hcounted => ?_, fun e' m hm => ?_, once_cons nofun h.once, h.read⟩
  · rcases List.mem_cons.mp hx with rfl | hold
    · exact hsome
    · exact h.known x hold
  · rw [List.mem_cons, or_iff_right nofun]
    exact h.delivered e'
  · exact h.sent e' n ((List.mem_cons.mp hsent).resolve_left nofun)
  · obtain ⟨hn, hsent⟩ := h.under a ha
    exact ⟨hn, List.mem_cons_of_mem _ hsent⟩
  · have he : e' ≠ e := by
      rintro rfl
      rcases hcounted with hb | hne
      · exact hidle hb
      · exact hne hstatus
    rw [failures_cons_of_ne fun heq => he (Note.failed.inj heq).symm]
    exact h.counted e' hcounted
  · by_cases he : e' = e
    · rw [he, failures_failed]
      exact hleft m (he ▸ hm)
    · rw [failures_cons_of_ne fun heq => he (Note.failed.inj heq).symm]
      exact h.left e' m hm

/-- A call may fail while it is not the last attempt. -/
theorem Inv.retry (h : Inv s) {k : ℕ} {a : Attempt P} (ha : s.attempts[k]? = some a)
    (hwaiting : s.world.waiting a.delivery.event_id = true)
    (hlast : ∀ m, s.world.maxAttempts a.delivery.event_id = some m → a.number < m)
    (endpoints : List WebhookEndpoint) (now : Time) (error : String) :
    Inv { s with
      world := World.updateEvent { s.world with endpoints } a.delivery.event_id (scheduleRetry now error)
      attempts := s.attempts.eraseIdx k
      journal := .failed a.delivery.event_id :: s.journal } := by
  have hsub : (s.attempts.eraseIdx k).Sublist s.attempts := List.eraseIdx_sublist ..
  have hsome := h.isSome ha
  have hnumber := h.number_eq ha
  have hunder := (h.under a (List.mem_of_getElem? ha)).1
  obtain ⟨hrest, hidle⟩ := h.erase ha
  have hfresh : s.world.status a.delivery.event_id ≠ some .DELIVERED :=
    World.not_delivered_of_waiting hwaiting
  set e := a.delivery.event_id with he
  set w' := World.updateEvent { s.world with endpoints } e (scheduleRetry now error) with hw'
  have hmax : ∀ e', w'.maxAttempts e' = s.world.maxAttempts e' := fun e' =>
    World.maxAttempts_update (scheduleRetry now error) (fun _ => rfl) e e'
  have hexists : (({ s.world with endpoints } : World P).events e).isSome := hsome
  have hself : w'.status e = some .RETRYING := World.status_retrying hexists now error
  have hother : ∀ e', e' ≠ e → w'.status e' = s.world.status e' := fun e' hne =>
    World.status_update_of_ne hne _
  have hnext : w'.number e = s.world.number e + 1 := World.number_scheduleRetry hexists now error
  have hsame : ∀ e', e' ≠ e → w'.number e' = s.world.number e' := fun e' hne =>
    World.number_update_of_ne hne _
  have hfailures : ∀ e', e' ≠ e → failures e' (.failed e :: s.journal) = failures e' s.journal :=
    fun e' hne => failures_cons_of_ne (fun heq => hne (Note.failed.inj heq).symm) _
  refine ⟨fun x hx => ?_, fun e' => ?_, fun e' => ?_, fun e' n hsent => ?_, fun a' ha' => ?_,
    h.alone.sublist (hsub.map _), fun e' hcounted => ?_, fun e' m hm => ?_, once_cons nofun h.once,
    fun a' ha' row outcomes hr => ?_⟩
  · rw [World.isSome_update]
    rcases List.mem_cons.mp hx with rfl | hold
    · exact hsome
    · exact h.known x hold
  · show w'.status e' ≠ _
    by_cases hne : e' = e
    · rw [hne, hself]
      exact nofun
    · rw [hother e' hne]
      exact h.unfailed e'
  · show _ ↔ w'.status e' = _
    rw [List.mem_cons, or_iff_right nofun, h.delivered]
    by_cases hne : e' = e
    · rw [hne, hself]
      exact ⟨fun hd => absurd hd hfresh, nofun⟩
    · rw [hother e' hne]
  · obtain ⟨hle, hnow⟩ := h.sent e' n ((List.mem_cons.mp hsent).resolve_left nofun)
    show n ≤ w'.number e' ∧ (n = w'.number e' → _ ∨ w'.status e' = _)
    by_cases hne : e' = e
    · rw [hne] at hle ⊢
      rw [hnext]
      exact ⟨by omega, fun hn => by omega⟩
    · rw [hsame e' hne, hother e' hne]
      refine ⟨hle, fun hn => (hnow hn).imp_left fun hb => ?_⟩
      obtain ⟨a', ha', rfl⟩ := List.mem_map.mp hb
      exact List.mem_map_of_mem (hrest a' ha' hne)
  · obtain ⟨hn, hsent⟩ := h.under a' (hsub.subset ha')
    have hne : a'.delivery.event_id ≠ e := fun heq => hidle (heq ▸ List.mem_map_of_mem ha')
    show a'.number = w'.number _ ∧ _
    rw [hsame _ hne]
    exact ⟨hn, List.mem_cons_of_mem _ hsent⟩
  · show _ = w'.number e'
    by_cases hne : e' = e
    · rw [hne, failures_failed, hnext]
      omega
    · rw [hfailures e' hne, hsame e' hne]
      refine h.counted e' (hcounted.imp (fun hb => (hsub.map _).subset hb) fun hnd => ?_)
      rwa [← hother e' hne]
  · have hm' : s.world.maxAttempts e' = some m := (hmax e').symm.trans hm
    show failures e' (.failed e :: s.journal) < m
    by_cases hne : e' = e
    · rw [hne] at hm' ⊢
      rw [failures_failed]
      have hlt := hlast m hm'
      omega
    · rw [hfailures e' hne]
      exact h.left e' m hm'
  · have hne : a'.delivery.event_id ≠ e := fun heq => hidle (heq ▸ List.mem_map_of_mem ha')
    obtain ⟨hrow, hwait, hnot⟩ := h.read a' (hsub.subset ha') row outcomes hr
    refine ⟨(World.events_update_of_ne hne _).trans hrow, hwait, fun hacked m hm => ?_⟩
    exact hnot hacked m ((hmax _).symm.trans hm)

/-- Nothing is noted of an event before its row is created. -/
theorem Inv.create (h : Inv s) {e : Id} (hnone : ¬ (s.world.events e).isSome) {event : WebhookEvent P}
    (hpending : event.status = .PENDING) (hcount : event.attempt_count = 0)
    (hmax : 0 < event.max_attempts) :
    Inv { s with world := { s.world with events := Function.update s.world.events e (some event) } } := by
  set w' : World P := { s.world with events := Function.update s.world.events e (some event) } with hw'
  have hself : w'.events e = some event := Function.update_self ..
  have hother : ∀ e', e' ≠ e → w'.events e' = s.world.events e' := fun e' hne =>
    Function.update_of_ne hne ..
  have hstatus : ∀ e', e' ≠ e → w'.status e' = s.world.status e' := fun e' hne =>
    congrArg (Option.map _) (hother e' hne)
  have hfresh : w'.status e = some .PENDING := by
    unfold World.status
    rw [hself]
    exact congrArg some hpending
  have hnumber : ∀ e', w'.number e' = s.world.number e' := by
    intro e'
    by_cases hne : e' = e
    · rw [hne, World.number_none hnone]
      unfold World.number
      rw [hself]
      show event.attempt_count + 1 = 1
      rw [hcount]
    · exact congrArg (fun row => (Option.map _ row).getD 0 + 1) (hother e' hne)
  have hunknown : ∀ x ∈ s.journal, x.event_id ≠ e := by
    rintro x hx rfl
    exact hnone (h.known x hx)
  refine ⟨fun x hx => ?_, fun e' => ?_, fun e' => ?_, fun e' n hsent => ?_, fun a ha => ?_, h.alone,
    fun e' hcounted => ?_, fun e' m hm => ?_, h.once, fun a ha row outcomes hr => ?_⟩
  · show (w'.events x.event_id).isSome
    rw [hother _ (hunknown x hx)]
    exact h.known x hx
  · show w'.status e' ≠ _
    by_cases hne : e' = e
    · rw [hne, hfresh]
      exact nofun
    · rw [hstatus e' hne]
      exact h.unfailed e'
  · show _ ↔ w'.status e' = _
    by_cases hne : e' = e
    · rw [hne, hfresh]
      exact ⟨fun hd => absurd rfl (hunknown _ hd), nofun⟩
    · rw [hstatus e' hne]
      exact h.delivered e'
  · show n ≤ w'.number e' ∧ (n = w'.number e' → _ ∨ w'.status e' = _)
    rw [hnumber, hstatus e' (hunknown _ hsent)]
    exact h.sent e' n hsent
  · obtain ⟨hn, hsent⟩ := h.under a ha
    exact ⟨hn.trans (hnumber _).symm, hsent⟩
  · show _ = w'.number e'
    rw [hnumber]
    refine h.counted e' (hcounted.imp_right fun hnd => ?_)
    by_cases hne : e' = e
    · rw [hne, World.status_none hnone]
      exact nofun
    · rwa [← hstatus e' hne]
  · by_cases hne : e' = e
    · have hm' : event.max_attempts = m := by
        rw [hne] at hm
        unfold World.maxAttempts at hm
        rw [hself] at hm
        exact Option.some.inj hm
      have hzero : failures e' s.journal = 0 :=
        List.count_eq_zero.mpr fun hmem => hunknown _ hmem hne
      show failures e' s.journal < m
      rw [hzero, ← hm']
      exact hmax
    · exact h.left e' m ((congrArg (Option.map _) (hother e' hne)).symm.trans hm)
  · obtain ⟨hrow, hwaiting, hlast⟩ := h.read a ha row outcomes hr
    have hne : a.delivery.event_id ≠ e := hunknown _ (h.under a ha).2
    refine ⟨(hother _ hne).trans hrow, hwaiting, fun hacked m hm => ?_⟩
    exact hlast hacked m ((congrArg (Option.map _) (hother _ hne)).symm.trans hm)

theorem Inv.start (h : Inv s) {e : Id}
    (hmeets : MayStart decrypt s e) (now : Time) : Inv (s.start decrypt e now) := by
  unfold MayStart at hmeets
  unfold Workers.start
  rcases s.world.phase1_cases decrypt e now with
    ⟨result, heq⟩ | ⟨endpoints, result, heq, hnone⟩ | ⟨endpoints, d, heq, rfl, -, hmatching⟩
  · rw [heq]
    show Inv (s.write e s.world)
    unfold write
    rw [if_neg fun hboth => hboth.2 hboth.1]
    exact h
  · rw [if_pos hnone] at hmeets
    rw [heq]
    exact h.deliver (List.Sublist.refl _) (fun a ha _ => ha) hmeets endpoints now 0
  · rw [if_neg hmatching] at hmeets
    rw [heq]
    have hsome : (s.world.events d.event_id).isSome := by
      by_contra hnone
      unfold World.matching at hmatching
      rw [Option.not_isSome_iff_eq_none.mp hnone] at hmatching
      exact hmatching rfl
    exact h.begin hsome hmeets.1 hmeets.2 endpoints

/-- The row of an event that waits has been read. -/
theorem Inv.reads (h : Inv s) {k : ℕ} {a : Attempt P} (ha : s.attempts[k]? = some a) {row : WebhookEvent P}
    (hrow : s.world.events a.delivery.event_id = some row) (hwaiting : isWaiting row.status = true)
    {outcomes : Id → Option WebhookResult}
    (hlast : World.acknowledge a.delivery outcomes = [] →
      ∀ m, s.world.maxAttempts a.delivery.event_id = some m → a.number < m) :
    Inv { s with attempts := s.attempts.set k { a with read := some (row, outcomes) } } := by
  have hbusy : (s.attempts.set k { a with read := some (row, outcomes) }).map
      (fun a => a.delivery.event_id) = s.busy := by
    unfold busy
    rw [List.map_set]
    obtain ⟨hlt, hget⟩ := List.getElem?_eq_some_iff.mp ha
    have hlt' : k < s.busy.length := by simpa [busy] using hlt
    have hsame : s.busy.set k s.busy[k] = s.busy := List.set_getElem_self hlt'
    simpa [busy, hget] using hsame
  refine ⟨h.known, h.unfailed, h.delivered, fun e n hsent => ?_, fun a' ha' => ?_, ?_, fun e hcounted => ?_,
    h.left, h.once, fun a' ha' row' outcomes' hr => ?_⟩
  · unfold busy
    rw [hbusy]
    exact h.sent e n hsent
  · rcases List.mem_or_eq_of_mem_set ha' with hold | rfl
    · exact h.under a' hold
    · exact h.under a (List.mem_of_getElem? ha)
  · unfold busy
    rw [hbusy]
    exact h.alone
  · unfold busy at hcounted
    rw [hbusy] at hcounted
    exact h.counted e hcounted
  · rcases List.mem_or_eq_of_mem_set ha' with hold | rfl
    · exact h.read a' hold row' outcomes' hr
    · cases hr
      exact ⟨hrow, hwaiting, hlast⟩

/-- The third phase reads the row of an event that waits, or finds a delivered one and ends. -/
theorem Inv.answer (h : Inv s) {k : ℕ} {outcomes : Id → Option WebhookResult}
    (hmeets : MayAnswer s k outcomes) : Inv (s.answer k outcomes) := by
  unfold Workers.answer
  cases ha : s.attempts[k]? with
  | none => exact h
  | some a =>
      dsimp only
      split_ifs with hread
      · exact h
      obtain ⟨row, hrow⟩ := Option.isSome_iff_exists.mp (h.isSome ha)
      rw [hrow]
      by_cases hwaiting : isWaiting row.status = true
      · have hfilter : (some row).filter (fun row => isWaiting row.status) = some row :=
          Option.filter_eq_some_iff.mpr ⟨rfl, hwaiting⟩
        rw [hfilter]
        exact h.reads ha hrow hwaiting (hmeets a ha)
      · have hfilter : (some row).filter (fun row => isWaiting row.status) = none := by
          rw [Option.filter_some, if_neg hwaiting]
        rw [hfilter]
        dsimp only
        have hstatus : s.world.status a.delivery.event_id = some .DELIVERED := by
          refine World.delivered_of_not_waiting (h.isSome ha) (h.unfailed _) ?_
          unfold World.waiting World.status
          rw [hrow]
          exact Bool.eq_false_iff.mpr hwaiting
        have hleave := h.leave ha hstatus
        unfold Workers.leave
        by_cases hacked : World.acknowledge a.delivery outcomes = []
        · rw [if_neg (by simpa using hacked)]
          refine hleave.note_failed hstatus (h.erase ha).2 fun m hm => ?_
          rw [← h.number_eq ha]
          exact hmeets a ha hacked m hm
        · rw [if_pos (by simpa using hacked)]
          exact hleave

/-- What is written is what one session would write. -/
theorem settled_eq {w : World P} {d : Delivery P} {row : WebhookEvent P}
    (hrow : w.events d.event_id = some row) (hwaiting : isWaiting row.status = true)
    (outcomes : Id → Option WebhookResult) (now : Time) :
    { (w.phase3 d outcomes now).1 with
      events := Function.update w.events d.event_id
        (((w.phase3 d outcomes now).1.events d.event_id).bind fun written =>
          (w.events d.event_id).map (columns (w.phase3 d outcomes now).2.success written)) } =
      (w.phase3 d outcomes now).1 := by
  have hsuccess := w.phase3_success d outcomes now
  rcases w.phase3_cases d outcomes now with
    ⟨-, hnot⟩ | ⟨hacked, endpoints, heq⟩ | ⟨hacked, -, endpoints, error, heq⟩
  · unfold World.waiting World.status at hnot
    rw [hrow] at hnot
    exact absurd hwaiting (Bool.eq_false_iff.mp hnot)
  · rw [heq, hsuccess.mpr hacked, World.events_update_self]
    unfold World.updateEvent
    dsimp only
    rw [hrow]
    rfl
  · rw [heq, Bool.eq_false_iff.mpr fun hs => hsuccess.mp hs hacked, World.events_update_self]
    unfold World.updateEvent
    dsimp only
    rw [hrow]
    rfl

theorem Inv.settle (h : Inv s) (k : ℕ) (now : Time) : Inv (s.settle k now) := by
  unfold Workers.settle
  cases ha : s.attempts[k]? with
  | none => exact h
  | some a =>
      dsimp only
      cases hread : a.read with
      | none => exact h
      | some answer =>
          obtain ⟨row, outcomes⟩ := answer
          obtain ⟨hrow, hwaiting, hlast⟩ := h.read a (List.mem_of_getElem? ha) row outcomes hread
          have hbefore : Function.update s.world.events a.delivery.event_id (some row) =
              s.world.events := by
            rw [← hrow, Function.update_eq_self]
          have hsuccess := s.world.phase3_success a.delivery outcomes now
          have hsettled := settled_eq hrow hwaiting outcomes now
          dsimp only
          rw [hbefore]
          show Inv ((s.leave k a.delivery.event_id (s.world.phase3 a.delivery outcomes now).2.success).write
            a.delivery.event_id _)
          rw [hsettled]
          unfold Workers.leave
          rcases s.world.phase3_cases a.delivery outcomes now with
            ⟨-, hnot⟩ | ⟨hacked, endpoints, heq⟩ | ⟨hacked, hwait, endpoints, error, heq⟩
          · unfold World.waiting World.status at hnot
            rw [hrow] at hnot
            exact absurd hwaiting (Bool.eq_false_iff.mp hnot)
          · rw [heq, if_pos (hsuccess.mpr hacked)]
            refine h.deliver (List.eraseIdx_sublist ..) (h.erase ha).1 (fun a' ha' he => ?_) endpoints
              now 200
            exact absurd (he ▸ List.mem_map_of_mem ha') (h.erase ha).2
          · rw [heq, if_neg fun hs => hsuccess.mp hs hacked]
            have hretry :=
              World.status_scheduleRetry { s.world with endpoints } a.delivery.event_id now error
            unfold write
            rw [if_neg fun hboth => hretry hboth.1]
            exact h.retry ha hwait (hlast hacked) endpoints now error

/-- The endpoints, the agents and the calls that have not started play no part. -/
theorem Inv.of_events {t : Workers P} (h : Inv s) (hevents : t.world.events = s.world.events)
    (hattempts : t.attempts = s.attempts) (hjournal : t.journal = s.journal) : Inv t := by
  rcases s with ⟨⟨_, _, events, _, _⟩, _, attempts, journal⟩
  rcases t with ⟨⟨_, _, _, _, _⟩, _, _, _⟩
  cases hevents
  cases hattempts
  cases hjournal
  exact ⟨h.known, h.unfailed, h.delivered, h.sent, h.under, h.alone, h.counted, h.left, h.once, h.read⟩

theorem Inv.step (h : Inv s) {x : WorkerStep P} (hmeets : Meets decrypt s x) :
    Inv (s.step decrypt x) := by
  cases x with
  | endpoints rows => exact h.of_events rfl rfl rfl
  | agents ids => exact h.of_events rfl rfl rfl
  | create e timestamp now agent_id event_type payload =>
      unfold Workers.step
      dsimp only
      split_ifs with hsome
      · exact h
      · exact h.create hsome rfl rfl (Nat.succ_pos 4)
  | pending event_ids now => exact h.of_events rfl rfl rfl
  | call e => exact h.of_events rfl rfl rfl
  | start e now =>
      unfold Workers.step
      dsimp only
      split_ifs with hqueue
      · have hqueued : Inv { s with queue := s.queue.erase e } := h.of_events rfl rfl rfl
        exact hqueued.start (hmeets hqueue) now
      · exact h
  | answer k outcomes => exact h.answer hmeets
  | settle k now => exact h.settle k now

/-! ## Runs -/

/-- No event has been created yet. -/
def initial (agents : List Id) (endpoints : List WebhookEndpoint) : Workers P where
  world := .start agents endpoints fun _ => none

theorem inv_initial (agents : List Id) (endpoints : List WebhookEndpoint) :
    Inv (initial agents endpoints : Workers P) := by
  refine ⟨nofun, fun e => nofun, fun e => ⟨nofun, nofun⟩, fun e n => nofun, fun a => nofun, List.nodup_nil,
    fun e _ => rfl, fun e m => nofun, fun e n older hsuffix => ?_, fun a => nofun⟩
  exact absurd (List.suffix_nil.mp hsuffix) (List.cons_ne_nil _ _)

theorem Inv.run (h : Inv s) {steps : List (WorkerStep P)} (hmeets : AllMeet decrypt s steps) :
    Inv (s.run decrypt steps) := by
  induction steps generalizing s with
  | nil => exact h
  | cons x steps ih => exact ih (h.step hmeets.1) hmeets.2

end Workers

/-- **When the attempts are made once and end**: in every state that a run reaches whose steps meet the
condition. -/
theorem attempts_proper {decrypt : String → Option String} {agents : List Id}
    {endpoints : List WebhookEndpoint} {steps : List (WorkerStep P)}
    (hmeets : Workers.AllMeet decrypt (.initial agents endpoints) steps) :
    ((Workers.initial agents endpoints).run decrypt steps).Proper :=
  ((Workers.inv_initial agents endpoints).run hmeets).proper

/-! ### One worker, and two workers that list the same event -/

/-- The first attempt fails and the second succeeds. -/
def twoAttempts : List (WorkerStep Unit) :=
  [.create 5 0 0 1 "payment.received" (), .pending [5] 1, .start 5 2,
    .answer 0 fun _ => some { success := false }, .settle 0 3,
    .pending [5] (seconds 100), .start 5 (seconds 101),
    .answer 0 fun id => some { success := id = 1 }, .settle 0 (seconds 102)]

theorem attempts_proper_second :
    ((Workers.initial [1] twoEndpoints.endpoints).run some twoAttempts).Proper :=
  attempts_proper (by decide +kernel)

def twoWorkers : List (WorkerStep Unit) :=
  [.create 5 0 0 1 "payment.received" (), .pending [5] 1, .pending [5] 2, .start 5 3, .start 5 4]

/-- Both send the first attempt. -/
theorem twoWorkers_send_twice :
    ¬ ((Workers.initial [1] twoEndpoints.endpoints).run some twoWorkers).Proper := by
  intro hproper
  have hjournal : ((Workers.initial [1] twoEndpoints.endpoints).run some twoWorkers).journal =
      [.sent 5 1, .sent 5 1] := by
    decide +kernel
  have hsent := hproper.sent 5 1 [.sent 5 1] (by rw [hjournal])
  exact hsent.2.1 List.mem_cons_self

end Sthrip.Fanout
