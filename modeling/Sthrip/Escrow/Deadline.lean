import Sthrip.Escrow.Payout
import Sthrip.Txn.Clocked

set_option autoImplicit false

/-! # A deal expires when its deadline has passed

A sweep lists the deals whose deadline has passed, and later locks them one by one. The lock returns
the object loaded with the list, with the status the deal had then, and the update that follows
accepts two statuses. When the deal has been accepted in between, the sweep expires an accepted
deal whose delivery deadline lies in the future.

`SameStage` is the condition that this does not happen: whoever locks an open deal holds an object
in the same status. Under it, each time a sweep is about to expire a deal, the deal as committed is
past the deadline of its status.
-/

namespace Sthrip

open Txn Prog

/-! ## Deadlines -/

namespace EscrowDeal

/-- The deadline that lets the deal expire at `t` has passed. -/
def Due (deal : EscrowDeal) (t : Time) : Prop :=
  (deal.status = .CREATED ∧ ∃ a ∈ deal.accept_deadline, a ≤ t) ∨
  (deal.status = .ACCEPTED ∧ ∃ a ∈ deal.delivery_deadline, a ≤ t)

/-- `expires_at` is the deadline of the status. -/
def Dated (deal : EscrowDeal) : Prop :=
  (deal.status = .CREATED → deal.expires_at = deal.accept_deadline) ∧
  (deal.status = .ACCEPTED → deal.expires_at = deal.delivery_deadline)

/-- An object that a sweep may act on: if it can expire, its deadline has passed. -/
def Listed (deal : EscrowDeal) (t : Time) : Prop :=
  deal.status ∈ [.CREATED, .ACCEPTED] → ∃ a ∈ deal.expires_at, a ≤ t

theorem Listed.later {deal : EscrowDeal} {t t' : Time} (ht : t ≤ t') (h : deal.Listed t) :
    deal.Listed t' := fun hs =>
  have ⟨a, ha, hat⟩ := h hs
  ⟨a, ha, hat.trans ht⟩

theorem Dated.due {deal : EscrowDeal} {t : Time} (h : deal.Dated)
    (hs : deal.status ∈ [.CREATED, .ACCEPTED]) (hpast : ∃ a ∈ deal.expires_at, a ≤ t) :
    deal.Due t := by
  have hcases : deal.status = .CREATED ∨ deal.status = .ACCEPTED := by simpa using hs
  rcases hcases with hs | hs
  · exact .inl ⟨hs, h.1 hs ▸ hpast⟩
  · exact .inr ⟨hs, h.2 hs ▸ hpast⟩

end EscrowDeal

/-- Every deal is dated. -/
def DatedDeals : (k : Key) → Row k → Prop
  | .deal _, deal => deal.Dated
  | _, _ => True

theorem DealUpdate.dated {guard : EscrowDeal → Bool} {set : EscrowDeal → EscrowDeal}
    (h : DealUpdate guard set) (deal : EscrowDeal) (hd : deal.Dated) (_ : guard deal = true) :
    (set deal).Dated := by
  cases h with
  | accept now delivery_deadline => exact ⟨fun hs => (by cases hs), fun _ => rfl⟩
  | deliver now review_deadline => exact ⟨fun hs => (by cases hs), fun hs => (by cases hs)⟩
  | release now x y => exact ⟨fun hs => (by cases hs), fun hs => (by cases hs)⟩
  | cancel now => exact ⟨fun hs => (by cases hs), fun hs => (by cases hs)⟩
  | complete now x y => exact ⟨fun hs => (by cases hs), fun hs => (by cases hs)⟩
  | next x y sequence => exact hd
  | close now hs =>
      rcases hs with rfl | rfl
      · exact ⟨fun hs => (by cases hs), fun hs => (by cases hs)⟩
      · exact ⟨fun hs => (by cases hs), fun hs => (by cases hs)⟩

theorem allows_dated (e : Id) : EscrowService.Allows (Stmt.keeps DatedDeals) e where
  now := trivial
  select _ := trivial
  scan _ := trivial
  lock := trivial
  update _ _ h := h.dated
  lockMilestone _ _ := trivial
  updateMilestone _ _ _ _ _ := fun _ _ _ => trivial
  balance _ _ := ⟨trivial, trivial, fun _ _ _ => trivial⟩
  posting _ _ := trivial
  fee _ _ := trivial
  reputation _ _ _ := fun _ _ _ => trivial

theorem expire_dated (e : Id) (now : Time) : (expireUpdate e now).keeps DatedDeals :=
  fun _ _ _ => ⟨fun hs => (by cases hs), fun hs => (by cases hs)⟩

/-! ## The condition -/

section

variable {d : Id} {col : Columns} {t : ℤ} {σ : Session schema}

/-- Who locks the deal while it can expire, with an object of it that could, has the object in the
status of the row. -/
def SameStage (d : Id) : Store schema → Session schema → Stmt schema → Input schema → Prop
  | st, σ, .selectForUpdate (Key.deal e), _ => e = d → ∀ o r : EscrowDeal,
      σ.loaded (Key.deal e) = some o → σ.view st.db (Key.deal e) = some r →
      o.status ∈ [.CREATED, .ACCEPTED] → r.status ∈ [.CREATED, .ACCEPTED] →
      r.status = o.status ∧ r.expires_at = o.expires_at
  | _, _, _, _ => True

/-- What is said of the update of an expiry: the deal it is going to expire is so committed, and
due. -/
def ExpiresDue (d : Id) (st : Store schema) (σ : Session schema) (s : Stmt schema)
    (x : Input schema) : Prop :=
  ∀ now, s = expireUpdate d now → now ≤ x.time ∧ ∀ deal : EscrowDeal, σ.view st.db (Key.deal d) = some deal →
    deal.status ∈ [.CREATED, .ACCEPTED] →
    st.db.rows (Key.deal d) = some deal ∧ deal.Due now

abbrev DueOk (d : Id) (st : Store schema) (σ : Session schema) (s : Stmt schema)
    (x : Input schema) : Prop :=
  SameStage d st σ s x ∧ st.db.Kept DatedDeals ∧ σ.Kept DatedDeals

/-! ## Other statements -/

/-- The statement is not the update of an expiry of the deal. -/
abbrev NotExpiry (d : Id) (s : Stmt schema) : Prop := ∀ now, s ≠ expireUpdate d now

theorem expiresDue_of_not {st : Store schema} {s : Stmt schema} {x : Input schema}
    (h : NotExpiry d s) : ExpiresDue d st σ s x := fun now hs => absurd hs (h now)

/-- A deal in a status. -/
def dealIn (status : EscrowStatus) : EscrowDeal :=
  { buyer_id := 0, seller_id := 0, amount := 0, description := "", fee_percent := 0
    accept_timeout_hours := 0, delivery_timeout_hours := 0, review_timeout_hours := 0, status }

/-- The other updates are told apart by the statuses they leave. -/
theorem DealUpdate.not_expiry {guard : EscrowDeal → Bool} {set : EscrowDeal → EscrowDeal}
    (h : DealUpdate guard set) (e : Id) : NotExpiry d (.update (Key.deal e) guard set) := by
  intro now heq
  have hguard : ∀ deal : EscrowDeal, guard deal = decide (deal.status ∈ [.CREATED, .ACCEPTED]) := by
    unfold expireUpdate at heq
    injection heq with hk hg hs
    obtain rfl := Key.deal.inj hk
    exact congrFun hg
  cases h with
  | accept now delivery_deadline => exact absurd (hguard (dealIn .ACCEPTED)) (by decide)
  | deliver now review_deadline => exact absurd (hguard (dealIn .CREATED)) (by decide)
  | release now x y => exact absurd (hguard (dealIn .CREATED)) (by decide)
  | cancel now => exact absurd (hguard (dealIn .ACCEPTED)) (by decide)
  | complete now x y => exact absurd (hguard (dealIn .COMPLETED)) (by decide)
  | next x y sequence => exact absurd (hguard (dealIn .COMPLETED)) (by decide)
  | close now hs => exact absurd (hguard (dealIn .COMPLETED)) (by decide)

theorem allows_notExpiry (e : Id) : EscrowService.Allows (NotExpiry d) e where
  now _ := by simp [expireUpdate]
  select _ _ := by simp [expireUpdate]
  scan _ _ := by simp [expireUpdate]
  lock _ := by simp [expireUpdate]
  update _ _ h := h.not_expiry e
  lockMilestone _ _ _ := by simp [expireUpdate]
  updateMilestone _ _ _ _ _ _ := by simp [expireUpdate]
  balance _ _ := ⟨fun _ => by simp [expireUpdate], fun _ => by simp [expireUpdate],
    fun _ _ => by simp [expireUpdate]⟩
  posting _ _ _ := by simp [expireUpdate]
  fee _ _ _ := by simp [expireUpdate]
  reputation _ _ _ _ := by simp [expireUpdate]

theorem expire_notExpiry {e : Id} (he : e ≠ d) (now : Time) : NotExpiry d (expireUpdate e now) := by
  intro now' heq
  unfold expireUpdate at heq
  injection heq with hk
  exact he (Key.deal.inj hk)

theorem notExpiry_of_apart {s : Stmt schema} (h : s.apart (Key.deal d)) : NotExpiry d s := by
  rintro now rfl
  exact h.1 rfl

theorem allows_apart {e : Id} (he : e ≠ d) :
    EscrowService.Allows (Stmt.apart (Key.deal d)) e where
  now := ⟨trivial, by simp⟩
  select _ := ⟨trivial, by simp⟩
  scan _ := ⟨trivial, by simp⟩
  lock := ⟨fun h => he (Key.deal.inj h), by simp⟩
  update _ _ _ := ⟨fun h => he (Key.deal.inj h), by simp⟩
  lockMilestone _ _ := ⟨by simp [Stmt.off], by simp⟩
  updateMilestone _ _ _ _ _ := ⟨by simp [Stmt.off], by simp⟩
  balance _ _ := ⟨⟨by simp [Stmt.off], by simp⟩, ⟨by simp [Stmt.off], by simp⟩,
    fun _ => ⟨by simp [Stmt.off], by simp⟩⟩
  posting _ _ := ⟨rfl, by simp⟩
  fee _ _ := ⟨rfl, by simp⟩
  reputation _ _ _ := ⟨by simp [Stmt.off], by simp⟩

theorem expire_apart {e : Id} (he : e ≠ d) (now : Time) :
    (expireUpdate e now).apart (Key.deal d) :=
  ⟨fun h => he (Key.deal.inj h), by simp [expireUpdate]⟩

/-! ## The sweep -/

/-- What is known of the deal before a sweep comes to it. -/
abbrev ListedDeal (d : Id) : ℤ → Session schema → Prop :=
  Knows (S := schema) (Key.deal d) fun deal t => EscrowDeal.Listed deal t

theorem asserts_rest {α : Type} {p : Program α} (h : p.only (NotExpiry d)) :
    p.asserts (DueOk d) (ExpiresDue d) (fun _ _ _ => True) (fun _ _ _ => True) t σ := by
  have hA : ∀ st σ s x, NotExpiry d s → ExpiresDue d st σ s x :=
    fun _ _ _ _ hs => expiresDue_of_not hs
  exact asserts_only hA h

/-- The update of an expiry: the session has locked the deal as it is committed, and its object is
in the same status. -/
theorem expire_asserts {deal : EscrowDeal} (hheld : σ.held (Key.deal d) = some ⟨some deal, some deal⟩)
    (hdated : deal.Dated) (hlisted : deal.Listed t) :
    (EscrowRepository.expire d).asserts (DueOk d) (ExpiresDue d) (fun _ _ _ => True)
      (fun _ _ _ => True) t σ := by
  intro st x ht _ _
  refine ⟨expiresDue_of_not fun _ => (by simp [expireUpdate]),
    fun st₁ x₁ ht₁ hfit₁ _ => ⟨?_, trivial⟩⟩
  intro now hnow
  -- the clock of the update is the one that was read
  obtain rfl : x.time = now := by
    have hset := congrFun (eq_of_heq (Stmt.update.inj hnow).2.2) (dealIn .CREATED)
    exact Option.some.inj (congrArg EscrowDeal.completed_at hset)
  refine ⟨ht₁, fun v hv hs => ?_⟩
  have hview : σ.view st₁.db (Key.deal d) = some deal := Session.view_of_held hheld _
  obtain rfl : deal = v := Option.some.inj (hview.symm.trans hv)
  refine ⟨hfit₁.agrees _ _ hheld, hdated.due hs ?_⟩
  exact (hlisted.later ht) hs

/-- The sweep of the deal. -/
theorem resolveSingle_asserts (hknows : ListedDeal d t σ) :
    (EscrowService.resolveSingle col d).asserts (DueOk d) (ExpiresDue d) (fun _ _ _ => True)
      (fun _ _ _ => True) t σ := by
  obtain ⟨o, ho, hlisted⟩ := hknows.loaded
  refine asserts_bind (asserts_selectForUpdate fun st x ht _ hok =>
    ⟨expiresDue_of_not fun _ => (by simp [expireUpdate]), ?_⟩)
  obtain ⟨hsame, hdb, hkept⟩ := hok
  have hcommitted : σ.view st.db (Key.deal d) = st.db.rows (Key.deal d) :=
    Session.view_of_not_held hknows.held _
  cases hv : σ.view st.db (Key.deal d) with
  | none =>
      have hobject : σ.object st.db (Key.deal d) = none := by rw [Session.object, hv]; rfl
      rw [hobject]
      trivial
  | some r =>
      have hobject : σ.object st.db (Key.deal d) = some o := by rw [Session.object, hv, ho]; rfl
      -- the row is locked as it is committed
      have hheld : ((σ.lock st.db (Key.deal d)).load st.db (Key.deal d)).held (Key.deal d)
          = some ⟨some r, some r⟩ := by
        rw [Session.load_held, Session.lock_of_view hv, Session.write_held_self, Session.base,
          hknows.held]
        simp only [← hcommitted, hv]
      have hdated : r.Dated := hkept.view hdb hv
      have hr : o.status ∈ [.CREATED, .ACCEPTED] → r.Listed x.time := by
        intro hos hrs
        rw [(hsame rfl o r ho hv hos hrs).2]
        exact (hlisted.later ht) hos
      rw [hobject]
      dsimp only
      split
      · next hs =>
          refine asserts_bind (asserts_mono (expire_asserts hheld hdated (hr (by simp [hs])))
            (fun rows t' σ' _ => asserts_rest ?_) fun _ _ _ h => h)
          split
          · trivial
          · exact only_bind (EscrowService.creditEscrow_only (allows_notExpiry d) ..) fun _ =>
              only_bind (EscrowService.refetch_only (allows_notExpiry d).quiet) fun _ => trivial
      · next hs =>
          refine asserts_bind (asserts_mono (expire_asserts hheld hdated (hr (by simp [hs])))
            (fun rows t' σ' _ => asserts_rest ?_) fun _ _ _ h => h)
          split
          · trivial
          · exact only_bind (EscrowService.creditEscrow_only (allows_notExpiry d) ..) fun _ =>
              only_bind (EscrowService.adjustTrust_only (allows_notExpiry d).quiet ..) fun _ =>
                only_bind (EscrowService.refetch_only (allows_notExpiry d).quiet) fun _ => trivial
      · exact asserts_rest (EscrowService.autoReleaseFull_only (allows_notExpiry d) o)
      · trivial

/-- The deals of the list, one after another. -/
theorem resolveDeals_asserts {ids : List Id} (hnodup : ids.Nodup)
    (h : d ∈ ids → ListedDeal d t σ) :
    (tally ids fun e => tryCatch (EscrowService.resolveSingle col e) fun _ => return false).asserts
      (DueOk d) (ExpiresDue d) (fun _ _ _ => True) (fun _ _ _ => True) t σ := by
  induction ids generalizing t σ with
  | nil => trivial
  | cons e ids ih =>
      rw [List.nodup_cons] at hnodup
      have hhead : (tryCatch (EscrowService.resolveSingle col e) fun _ =>
          (return false : Program Bool)).asserts (DueOk d) (ExpiresDue d)
          (fun _ t σ => d ∈ ids → ListedDeal d t σ) (fun _ _ _ => True) t σ := by
        by_cases hd : d ∈ ids
        · have he : e ≠ d := fun he => hnodup.1 (he ▸ hd)
          have hapart : (tryCatch (EscrowService.resolveSingle col e) fun _ =>
              (return false : Program Bool)).only (Stmt.apart (Key.deal d)) := only_tryCatch
            (EscrowService.resolveSingle_only (allows_apart he) (expire_apart he)) fun _ => trivial
          refine asserts_mono (asserts_apart (I := fun (o : EscrowDeal) t => o.Listed t)
            (fun o t t' => EscrowDeal.Listed.later)
            (fun st σ s x hs => expiresDue_of_not (notExpiry_of_apart hs)) hapart
            (h (List.mem_cons_of_mem _ hd))) (fun _ _ _ h _ => h) fun _ _ _ _ => trivial
        · refine asserts_tryCatch (asserts_mono (Q := fun _ _ _ => True) (R := fun _ _ _ => True) ?_
            (fun _ _ _ _ hd' => absurd hd' hd) fun _ _ _ _ hd' => absurd hd' hd)
          by_cases he : e = d
          · subst he
            exact resolveSingle_asserts (h List.mem_cons_self)
          · exact asserts_rest (EscrowService.resolveSingle_only (allows_notExpiry e)
              (expire_notExpiry he))
      refine asserts_bind (asserts_mono hhead (fun _ t' σ' h' => ?_) fun _ _ _ h => h)
      exact asserts_bind (asserts_mono (ih hnodup.2 h') (fun _ _ _ _ => trivial) fun _ _ _ h => h)

/-- The list of a sweep, at the start of its session. -/
theorem getPendingExpiry_asserts :
    EscrowRepository.getPendingExpiry.asserts (DueOk d) (ExpiresDue d)
      (fun ids t σ => ids.Nodup ∧ (d ∈ ids → ListedDeal d t σ)) (fun _ _ _ => True) t
      Session.start := by
  have hsilent : ∀ {st : Store schema} {σ : Session schema} {s : Stmt schema} {x : Input schema},
      NotExpiry d s → ExpiresDue d st σ s x := expiresDue_of_not
  refine asserts_bind (asserts_now fun st x ht =>
    ⟨hsilent fun _ => (by simp [expireUpdate]), ?_⟩)
  refine asserts_bind (asserts_bind (asserts_scan fun st₁ x₁ l ht₁ hfit _ hperm =>
    ⟨hsilent fun _ => (by simp [expireUpdate]), ?_⟩))
  have hwf := hfit.sound.apply_wf hfit.agrees hfit.wf
  have hperm' : l.Perm ((st₁.db.apply Session.start).matching
      (EscrowRepository.pastDeadline x.time)) := hperm
  have hlisted : Key.deal d ∈ l → ListedDeal d x₁.time (Session.start.loadAll st₁.db l) := by
    intro hd
    obtain ⟨r, hr, hp⟩ := (hwf.mem_of_perm hperm').mp hd
    have hrow : st₁.db.rows (Key.deal d) = some r := hr
    refine ⟨rfl, r, ?_, fun hs => ?_⟩
    · show (if Key.deal d ∈ l then (Session.start : Session schema).object st₁.db (Key.deal d)
        else none) = some r
      rw [if_pos hd]
      show Option.map _ (st₁.db.rows (Key.deal d)) = some r
      rw [hrow]
      rfl
    · obtain ⟨-, a, ha, hle⟩ : r.status ∈ [.CREATED, .ACCEPTED, .DELIVERED] ∧
          ∃ a ∈ r.expires_at, a ≤ x.time := by
        simpa [EscrowRepository.pastDeadline] using hp
      exact ⟨a, ha, hle.trans ht₁⟩
  refine asserts_mono (asserts_selectAll (J := fun t σ => Key.deal d ∈ l → ListedDeal d t σ)
    (fun st σ k x => hsilent fun _ => (by simp [expireUpdate])) (fun st t t' σ k ht hJ hd => ?_) l
    hlisted) (fun rows t' σ' h => ?_) fun _ _ _ h => h
  · obtain ⟨hheld, o, ho, hIo⟩ := hJ hd
    exact ⟨by rw [Session.load_held]; exact hheld, o, Session.load_loaded ho, hIo.later ht⟩
  · have hkeys := h.1.nodup (hwf.nodup_of_perm hperm')
    refine ⟨nodup_filterMap_keys (S := schema) Key.deal ?_ hkeys, fun hd => h.2 ?_⟩
    · rintro ⟨k, row⟩ id hid
      cases k with
      | deal id' =>
          obtain rfl := Option.some.inj hid
          rfl
      | _ => cases hid
    · obtain ⟨⟨k, row⟩, hrow, hid⟩ := List.mem_filterMap.mp hd
      refine h.1.subset (List.mem_map.mpr ⟨_, hrow, ?_⟩)
      cases k with
      | deal id' =>
          obtain rfl := Option.some.inj hid
          rfl
      | _ => cases hid

theorem resolveExpired_asserts :
    (EscrowService.resolveExpired col).asserts (DueOk d) (ExpiresDue d) (fun _ _ _ => True)
      (fun _ _ _ => True) t Session.start := by
  refine asserts_bind (asserts_mono getPendingExpiry_asserts (fun ids t₁ σ₁ h => ?_)
    fun _ _ _ h => h)
  refine asserts_bind (asserts_mono (resolveDeals_asserts h.1 h.2) (fun _ t₂ σ₂ _ => ?_)
    fun _ _ _ h => h)
  have hallows := fun e => allows_notExpiry (d := d) e
  refine asserts_rest (only_bind (only_bind (only_stmt (hallows d).now) fun _ => only_bind
    (only_query ((hallows d).scan _) (hallows d).select) fun _ => trivial) fun ms => ?_)
  refine only_bind (only_tally ms fun e => ?_) fun _ => trivial
  exact only_tryCatch (EscrowService.resolveMilestoneExpiry_only (hallows e.1) e.2)
    fun _ => trivial

/-! ## Runs -/

/-- The sessions: those of a deal, and those of its milestones. -/
inductive StageCall where
  | deal (call : DealCall)
  | deliverMilestone (escrow_id : Id) (milestone_seq : ℕ) (seller_id : Id)
  | releaseMilestone (escrow_id : Id) (milestone_seq : ℕ) (buyer_id : Id) (release_amount : ℚ)

namespace StageCall

def body (col : Columns) : StageCall → Program Unit
  | deal call => call.body col
  | deliverMilestone e n a => do let _ ← EscrowService.deliverMilestone e n a
  | releaseMilestone e n a x => do let _ ← EscrowService.releaseMilestone col e n a x

def run (col : Columns) (call : StageCall) : Program Unit := withSession (call.body col)

theorem body_only {ok : Stmt schema → Prop} (h : ∀ e, EscrowService.Allows ok e)
    (hexpire : ∀ e now, ok (expireUpdate e now)) (call : StageCall) : (call.body col).only ok := by
  cases call with
  | deal call => exact call.body_only h hexpire
  | deliverMilestone e n a =>
      exact only_bind (EscrowService.deliverMilestone_only (h e) n a) fun _ => trivial
  | releaseMilestone e n a x =>
      exact only_bind (EscrowService.releaseMilestone_only (h e) n a x) fun _ => trivial

theorem run_dated (call : StageCall) : (call.run col).only (Stmt.keeps DatedDeals) :=
  only_withSession trivial trivial (call.body_only allows_dated expire_dated)

/-- All sessions but the sweep never run the update of an expiry. -/
theorem run_notExpiry {call : StageCall} (h : call ≠ .deal .resolveExpired) :
    (call.run col).only (NotExpiry d) := by
  have hallows := fun e => allows_notExpiry (d := d) e
  refine only_withSession (fun _ => by simp [expireUpdate]) (fun _ => by simp [expireUpdate]) ?_
  cases call with
  | deal call =>
      cases call with
      | acceptEscrow e a =>
          exact only_bind (EscrowService.acceptEscrow_only (hallows e) a) fun _ => trivial
      | deliverEscrow e a =>
          exact only_bind (EscrowService.deliverEscrow_only (hallows e) a) fun _ => trivial
      | releaseEscrow e a x =>
          exact only_bind (EscrowService.releaseEscrow_only (hallows e) a x) fun _ => trivial
      | cancelEscrow e a =>
          exact only_bind (EscrowService.cancelEscrow_only (hallows e) a) fun _ => trivial
      | resolveExpired => exact absurd rfl h
  | deliverMilestone e n a =>
      exact only_bind (EscrowService.deliverMilestone_only (hallows e) n a) fun _ => trivial
  | releaseMilestone e n a x =>
      exact only_bind (EscrowService.releaseMilestone_only (hallows e) n a x) fun _ => trivial

theorem run_asserts (call : StageCall) (t : ℤ) :
    (call.run col).asserts (DueOk d) (ExpiresDue d) (fun _ _ _ => True) (fun _ _ _ => True) t
      Session.start := by
  by_cases hcall : call = .deal .resolveExpired
  · subst hcall
    -- what ends the session is no expiry
    refine asserts_withSession (fun st σ x => expiresDue_of_not fun _ => (by simp [expireUpdate]))
      (fun st σ x => expiresDue_of_not fun _ => (by simp [expireUpdate])) ?_
    exact asserts_bind (asserts_mono resolveExpired_asserts (fun n t σ _ => trivial)
      fun _ _ _ h => h)
  · exact asserts_rest (run_notExpiry hcall)

end StageCall

end

/-- **An expired deal was due.** In every interleaving of sweeps and the other sessions, in which
`SameStage` holds at each statement and the clock does not go back: when a sweep is about to expire
a deal that can expire, then this is the deal as committed, and the deadline of its status has
passed. -/
theorem deal_expires_due (d : Id) (col : Columns) {st₀ : Store schema} (hwf : st₀.db.WF)
    (hdated : st₀.db.Kept DatedDeals) (calls : ℕ → StageCall) {t : ℤ} {c : Config schema Unit}
    (hc : Config.Clocked (SameStage d) (Config.start st₀ fun i => (calls i).run col) t c)
    {i : ℕ} {now : Time} {next : Bool → Program Unit}
    (hprog : c.prog i = .step (expireUpdate d now) next) {deal : EscrowDeal}
    (hv : (c.sess i).view c.store.db (Key.deal d) = some deal)
    (hs : deal.status ∈ [.CREATED, .ACCEPTED]) :
    c.store.db.rows (Key.deal d) = some deal ∧ deal.Due now ∧ now ≤ t := by
  have hkept := Config.kept hdated (fun j => (calls j).run_dated) hc.reaches
  have hassert := (hc.kept hdated fun j => (calls j).run_dated).assertion hwf
    (fun j t => (calls j).run_asserts t) hprog (x := { time := t }) (Int.le_refl t)
    ⟨trivial, hkept.db, hkept.sess i⟩
  obtain ⟨hnow, hdue⟩ := hassert now rfl
  obtain ⟨hrow, hdue⟩ := hdue deal hv hs
  exact ⟨hrow, hdue, hnow⟩

/-! ### The deal is accepted while a sweep runs -/

theorem newDeal_dated (amount : ℚ) : (newDeal amount).db.Kept DatedDeals := by
  intro k r hr
  cases k with
  | deal id =>
      by_cases h : id = 1
      · simp only [newDeal, h, if_true, Option.some.injEq] at hr
        subst hr
        exact ⟨fun _ => rfl, fun hs => (by cases hs)⟩
      · simp [newDeal, h] at hr
  | _ => trivial

/-- The seller accepts; everyone else sweeps. -/
def acceptOrSweep : ℕ → StageCall
  | 0 => .deal (.acceptEscrow 1 2)
  | _ => .deal .resolveExpired

/-- A sweep that is about to expire the deal. -/
theorem exists_of_aboutToExpire (l : List (ℕ × Input schema)) (deal : EscrowDeal)
    (h : ∃ next : Bool → Program Unit,
      (Config.trace l (.start (newDeal 1) fun i => (acceptOrSweep i).run .rounding)).map
        (fun c => (c.prog 1, (c.sess 1).view c.store.db (Key.deal 1)))
      = some (.step (expireUpdate 1 (hours 24)) next, some deal)) :
    ∃ (c : Config schema Unit) (next : Bool → Program Unit),
      Config.trace l (.start (newDeal 1) fun i => (acceptOrSweep i).run .rounding) = some c ∧
      c.prog 1 = .step (expireUpdate 1 (hours 24)) next ∧
      (c.sess 1).view c.store.db (Key.deal 1) = some deal := by
  obtain ⟨next, h⟩ := h
  obtain ⟨c, hc, hpair⟩ := Option.map_eq_some_iff.mp h
  obtain ⟨hprog, hv⟩ := Prod.mk.inj hpair
  exact ⟨c, next, hc, hprog, hv⟩

/-- The test of `SameStage`. -/
def sameStage : Store schema → Session schema → Stmt schema → Input schema → Bool
  | st, σ, .selectForUpdate (Key.deal e), _ => (σ.loaded (Key.deal e)).all fun o : EscrowDeal =>
      (σ.view st.db (Key.deal e)).all fun r : EscrowDeal =>
        r.status = o.status ∧ r.expires_at = o.expires_at
  | _, _, _, _ => true

theorem sameStage_sound (d : Id) (st : Store schema) (σ : Session schema) (s : Stmt schema)
    (x : Input schema) (h : sameStage st σ s x = true) : SameStage d st σ s x := by
  cases s with
  | selectForUpdate k =>
      cases k with
      | deal e =>
          intro _ o r ho hv _ _
          simp only [sameStage, ho, hv, Option.all_some, decide_eq_true_eq] at h
          exact h
      | _ => trivial
  | _ => trivial

/-- The deal as it is created by `newDeal`. -/
def untouchedDeal : EscrowDeal :=
  { buyer_id := 1, seller_id := 2, amount := 1, description := "", fee_percent := 1 / 100
    accept_timeout_hours := 24, delivery_timeout_hours := 48, review_timeout_hours := 24
    accept_deadline := some (hours 24), expires_at := some (hours 24) }

/-- Nobody accepts. -/
theorem deal_expires_due_untouched : ∃ c : Config schema Unit,
    c.store.db.rows (Key.deal 1) = some untouchedDeal ∧ untouchedDeal.Due (hours 24) := by
  obtain ⟨c, next, hc, hprog, hv⟩ := exists_of_aboutToExpire (turn 1 5 24) untouchedDeal
    ⟨_, rfl⟩
  obtain ⟨t, hreach⟩ := Config.clocked_of_trace sameStage (sameStage_sound 1) (turn 1 5 24)
    (.refl 0) (by decide +kernel) (by decide +kernel) hc
  have hdue := deal_expires_due 1 .rounding (newDeal_wf 1) (newDeal_dated 1) acceptOrSweep hreach
    hprog hv (by decide)
  exact ⟨c, hdue.1, hdue.2.1⟩

/-- The seller accepts at the hour before the deadline; a sweep lists the deal before the seller has
committed, and locks it afterwards. -/
def acceptedInTime : List (ℕ × Input schema) :=
  turn 0 3 23 ++ turn 1 3 24 ++ turn 0 4 24 ++ turn 1 2 24

/-- The accepted deal. -/
def acceptedDeal : EscrowDeal :=
  { untouchedDeal with
    status := .ACCEPTED, accepted_at := some (hours 24), delivery_deadline := some (hours 72)
    expires_at := some (hours 72) }

/-- The sweep expires a deal whose delivery deadline is two days away. -/
theorem accepted_deal_expired : ¬∀ (d : Id) (st₀ : Store schema) (calls : ℕ → StageCall) (t : ℤ)
    (c : Config schema Unit) (i : ℕ) (now : Time) (next : Bool → Program Unit) (deal : EscrowDeal),
    st₀.db.WF → st₀.db.Kept DatedDeals →
    Config.Clocked (fun _ _ _ _ => True) (Config.start st₀ fun i => (calls i).run .rounding) t c →
    c.prog i = .step (expireUpdate d now) next →
    (c.sess i).view c.store.db (Key.deal d) = some deal → deal.status ∈ [.CREATED, .ACCEPTED] →
    c.store.db.rows (Key.deal d) = some deal ∧ deal.Due now := by
  intro h
  obtain ⟨c, next, hc, hprog, hv⟩ := exists_of_aboutToExpire acceptedInTime acceptedDeal
    ⟨_, rfl⟩
  obtain ⟨t, hreach⟩ := Config.clocked_of_trace (fun _ _ _ _ => true) (fun _ _ _ _ _ => trivial)
    acceptedInTime (.refl 0) (by decide +kernel) (by decide +kernel) hc
  obtain ⟨-, hdue⟩ := h 1 (newDeal 1) acceptOrSweep t c 1 (hours 24) next acceptedDeal
    (newDeal_wf 1) (newDeal_dated 1) hreach hprog hv (by decide)
  rcases hdue with ⟨hs, -⟩ | ⟨-, a, ha, hle⟩
  · cases hs
  · obtain rfl := Option.mem_some_iff.mp ha
    exact absurd hle (by decide)

end Sthrip
