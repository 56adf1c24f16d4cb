import Sthrip.Wallet.HubAddresses

set_option autoImplicit false

/-! # Withdrawals to the hub itself

A withdrawal to an address of the wallet is refused when the set that it is compared with was answered
after the wallet had created the address, and it is sent to the wallet otherwise.
-/

namespace Sthrip.WalletCache

open Redis Hub

variable {subaddress : ℕ → String}

/-! ## What passes the comparison -/

/-- The withdrawal that has passed the comparison. -/
def Phase.passed : Phase → Option Withdrawal
  | .called (.transfer wd _) => some wd
  | .replied (.transfer wd _) _ => some wd
  | _ => none

variable (subaddress) in
/-- No withdrawal to an own address is sent to the wallet, and those that have ended have raised. -/
structure Refuses (w : World) : Prop where
  passed : ∀ c wd, (w.thread c).passed = some wd → ¬wd.Own subaddress
  sent : ∀ wd ∈ w.sent, ¬wd.Own subaddress
  ended : ∀ wd raised, (wd, raised) ∈ w.ended → wd.Own subaddress → raised ≠ none

/-- The withdrawal that finds a set in the process or in Redis at this step, and the set. -/
def World.found (process : ℕ → ℕ) (w : World) : Event → Option (Withdrawal × Finset String)
  | .acquire c =>
      match w.thread c with
      | .withdrawing wd =>
          if w.locked (.hubAddr (process c)) then none
          else match w.hub_addr_cache (process c) with
            | some (hub_addresses, time) =>
                if w.now - time < hubAddrCacheTtl then some (wd, hub_addresses) else none
            | none => none
      | _ => none
  | .answer c =>
      match w.thread c with
      | .replied (.cacheGet wd _) cached => cached.map fun data => (wd, data.toSet)
      | _ => none
  | _ => none

theorem World.found_acquire {process : ℕ → ℕ} {w : World} {c : ℕ} {wd : Withdrawal}
    {hub_addresses : Finset String} {time : ℚ} (hphase : w.thread c = .withdrawing wd)
    (hunlocked : ¬w.locked (.hubAddr (process c)) = true)
    (hcache : w.hub_addr_cache (process c) = some (hub_addresses, time))
    (hfresh : w.now - time < hubAddrCacheTtl) :
    w.found process (.acquire c) = some (wd, hub_addresses) := by
  simp only [World.found, hphase, if_neg hunlocked, hcache, if_pos hfresh]

theorem World.found_answer {process : ℕ → ℕ} {w : World} {c : ℕ} {wd : Withdrawal} {now : ℚ}
    {data : AddrData} (h : w.thread c = .replied (.cacheGet wd now) (some data)) :
    w.found process (.answer c) = some (wd, data.toSet) := by
  simp only [World.found, h]
  rfl

/-- What is found was answered after the address was created. -/
def Meets (process : ℕ → ℕ) (subaddress : ℕ → String) (w : World) (event : Event) : Prop :=
  ∀ wd hub_addresses, w.found process event = some (wd, hub_addresses) →
    Recent subaddress wd hub_addresses

/-- What is found was answered by the wallet. -/
theorem Inv.found {process : ℕ → ℕ} {w : World} (h : Inv subaddress w) {event : Event} {wd : Withdrawal}
    {hub_addresses : Finset String} (hfound : w.found process event = some (wd, hub_addresses)) :
    ∃ n, hub_addresses = (listed subaddress n).toSet := by
  cases event with
  | acquire c =>
      simp only [World.found] at hfound
      split at hfound
      · split at hfound
        · cases hfound
        · split at hfound
          · next hkept =>
              split at hfound
              · obtain ⟨-, rfl⟩ := Prod.mk.inj (Option.some.inj hfound)
                exact h.kept _ _ _ hkept
              · cases hfound
          · cases hfound
      · cases hfound
  | answer c =>
      have hknown := h.known c
      simp only [World.found] at hfound
      split at hfound
      · next hphase =>
          obtain ⟨data, rfl, hpair⟩ := Option.map_eq_some_iff.mp hfound
          obtain ⟨-, rfl⟩ := Prod.mk.inj hpair
          rw [hphase] at hknown
          obtain ⟨n, rfl⟩ := hknown.2 data rfl
          exact ⟨n, rfl⟩
      · cases hfound
  | _ => cases hfound

namespace Refuses

variable {process : ℕ → ℕ} {client : ℕ → Bool} {w : World} {c : ℕ} {wd : Withdrawal} {now : ℚ}

theorem goto (h : Refuses subaddress w) {next : Phase}
    (hnext : ∀ wd, next.passed = some wd → ¬wd.Own subaddress) : Refuses subaddress (w.goto c next) := by
  refine ⟨fun c' wd hwd => ?_, h.sent, h.ended⟩
  change (Function.update w.thread c next c').passed = some wd at hwd
  by_cases hc : c' = c
  · rw [hc, Function.update_self] at hwd
    exact hnext wd hwd
  · rw [Function.update_of_ne hc] at hwd
    exact h.passed c' wd hwd

/-- The thread has not compared anything yet, or has nothing more to do. -/
theorem goto_none (h : Refuses subaddress w) {next : Phase} (hnext : next.passed = none) :
    Refuses subaddress (w.goto c next) :=
  h.goto fun _ hwd => by
    rw [hnext] at hwd
    cases hwd

theorem setLock (h : Refuses subaddress w) (lock : Lock) (b : Bool) :
    Refuses subaddress (w.setLock lock b) :=
  ⟨h.passed, h.sent, h.ended⟩

theorem finish (h : Refuses subaddress w) {raised : Option RpcExn}
    (hraised : wd.Own subaddress → raised ≠ none) : Refuses subaddress (w.finish c wd raised) := by
  have hended : Refuses subaddress { w with ended := w.ended ++ [(wd, raised)] } := by
    refine ⟨h.passed, h.sent, fun wd' raised' hmem hown => ?_⟩
    rcases List.mem_append.mp hmem with hmem | hmem
    · exact h.ended wd' raised' hmem hown
    · obtain ⟨rfl, rfl⟩ := Prod.mk.inj (List.mem_singleton.mp hmem)
      exact hraised hown
  exact hended.goto_none rfl

/-- The comparison, with a set that has the address if it is an own one. -/
theorem check (h : Refuses subaddress w) {hub_addresses : Finset String}
    (hset : wd.Own subaddress → wd.to_address ∈ hub_addresses) :
    Refuses subaddress (w.check c wd hub_addresses) := by
  unfold World.check
  split
  · exact h.finish fun _ hnone => by cases hnone
  · next hnot =>
      refine h.goto fun wd' hwd' hown => ?_
      obtain rfl := Option.some.inj hwd'
      exact hnot (hset hown)

theorem keep (h : Refuses subaddress w) {data : AddrData}
    (hset : wd.Own subaddress → wd.to_address ∈ data.toSet) :
    Refuses subaddress (w.keep process c wd now data) := by
  have hkept : Refuses subaddress { w.setLock (.hubAddr (process c)) false with
      hub_addr_cache := Function.update w.hub_addr_cache (process c) (some (data.toSet, now)) } :=
    ⟨h.passed, h.sent, h.ended⟩
  exact hkept.check hset

theorem fetch (h : Refuses subaddress w) : Refuses subaddress (w.fetch process client c wd) := by
  refine (h.setLock _ _).goto_none ?_
  cases client (process c)
  · rfl
  · rfl

theorem leave (h : Refuses subaddress w) (agent_id : ℕ) :
    Refuses subaddress (w.leave process c agent_id) :=
  (h.setLock _ _).goto_none rfl

theorem retry (h : Refuses subaddress w) {e : RpcExn} {left : ℕ} {again : ℕ → Call} {give_up : World}
    (hagain : ∀ n wd, (Phase.called (again n)).passed = some wd → ¬wd.Own subaddress)
    (hgive : Refuses subaddress give_up) : Refuses subaddress (w.retry c e left again give_up) := by
  cases left with
  | zero => exact hgive
  | succ left =>
      unfold World.retry
      dsimp only
      split
      · exact h.goto (hagain left)
      · exact hgive

/-- A request is executed. -/
theorem serve (h : Refuses subaddress w) {call : Call} (hphase : w.thread c = .called call) :
    Refuses subaddress
      ((w.execute subaddress call).1.goto c (.replied call (w.execute subaddress call).2)) := by
  have hpassed := h.passed c
  rw [hphase] at hpassed
  cases call with
  | transfer wd left =>
      have hsent : Refuses subaddress { w with sent := w.sent ++ [wd] } := by
        refine ⟨h.passed, fun wd' hmem => ?_, h.ended⟩
        rcases List.mem_append.mp hmem with hmem | hmem
        · exact h.sent wd' hmem
        · rw [List.mem_singleton.mp hmem]
          exact hpassed wd rfl
      refine hsent.goto fun wd' hwd' => ?_
      obtain rfl := Option.some.inj hwd'
      exact hpassed wd rfl
  | _ =>
      refine goto_none ?_ ?_
      · exact ⟨h.passed, h.sent, h.ended⟩
      · rfl

theorem proceed (h : Refuses subaddress w) {call : Call} {reply : call.Reply}
    (hphase : w.thread c = .replied call reply) (hcall : call.Known subaddress w.created)
    (hreply : call.Answered subaddress reply)
    (hfound : ∀ wd hub_addresses, w.found process (.answer c) = some (wd, hub_addresses) →
      wd.Own subaddress → wd.to_address ∈ hub_addresses) :
    Refuses subaddress (w.proceed process client c call reply) := by
  have hpassed := h.passed c
  rw [hphase] at hpassed
  cases call with
  | cacheGet wd now =>
      cases reply with
      | none => exact h.goto_none rfl
      | some data => exact h.keep (hfound wd _ (World.found_answer hphase))
  | getAddress wd now left =>
      obtain ⟨n, hn, hdata⟩ := hreply
      unfold World.proceed
      dsimp only
      split
      · exact h.goto_none rfl
      · rw [hdata]
        exact h.keep (own_mem_listed hn)
  | cacheSet wd now data =>
      obtain ⟨n, hn, rfl⟩ := hcall
      exact h.keep (own_mem_listed hn)
  | transfer wd left => exact h.finish fun hown => absurd hown (hpassed wd rfl)
  | readBalance agent_id =>
      unfold World.proceed
      dsimp only
      split
      · exact h.leave _
      · exact h.goto_none rfl
  | createAddress agent_id left =>
      refine h.goto_none ?_
      cases client (process c)
      · rfl
      · rfl
  | cacheDelete agent_id address => exact h.goto_none rfl
  | setDepositAddress agent_id address => exact h.leave _

theorem failed (h : Refuses subaddress w) (e : RpcExn) {call : Call}
    (hpassed : ∀ wd left, call = .transfer wd left → ¬wd.Own subaddress)
    (hcall : call.Known subaddress w.created) : Refuses subaddress (w.failed process c e call) := by
  have hraised : ∀ {wd : Withdrawal}, wd.Own subaddress → some e ≠ none := fun _ hnone => by cases hnone
  have hnothing : ∀ {call : Call}, (Phase.called call).passed = none →
      ∀ wd, (Phase.called call).passed = some wd → ¬wd.Own subaddress := by
    intro call hnone wd hwd
    rw [hnone] at hwd
    cases hwd
  cases call with
  | cacheGet wd now => exact h.goto_none rfl
  | getAddress wd now left =>
      exact h.retry (fun _ => hnothing rfl) ((h.setLock _ _).finish hraised)
  | cacheSet wd now data =>
      obtain ⟨n, hn, rfl⟩ := hcall
      exact h.keep (own_mem_listed hn)
  | transfer wd left =>
      refine h.retry (fun n wd' hwd' => ?_) (h.finish hraised)
      obtain rfl := Option.some.inj hwd'
      exact hpassed wd left rfl
  | readBalance agent_id => exact h.leave _
  | createAddress agent_id left => exact h.retry (fun _ => hnothing rfl) (h.leave _)
  | cacheDelete agent_id address => exact h.goto_none rfl
  | setDepositAddress agent_id address => exact h.leave _

theorem getHubAddresses (h : Refuses subaddress w)
    (hkept : ∀ hub_addresses time, w.hub_addr_cache (process c) = some (hub_addresses, time) →
      w.now - time < hubAddrCacheTtl → wd.Own subaddress → wd.to_address ∈ hub_addresses) :
    Refuses subaddress (w.getHubAddresses process client c wd) := by
  unfold World.getHubAddresses
  split
  · next hub_addresses time hcache =>
      split
      · next hfresh => exact h.check (hkept hub_addresses time hcache hfresh)
      · exact h.fetch
  · exact h.fetch

/-- One step, at which what is found has the address if it is an own one. -/
theorem step (h : Refuses subaddress w) (hinv : Inv subaddress w) {event : Event}
    (hfound : ∀ wd hub_addresses, w.found process event = some (wd, hub_addresses) →
      wd.Own subaddress → wd.to_address ∈ hub_addresses) :
    Refuses subaddress (w.step process client subaddress event) := by
  cases event with
  | tick t => exact ⟨h.passed, h.sent, h.ended⟩
  | send_withdrawal c to_address amount =>
      simp only [World.step]
      split
      · exact h.goto_none rfl
      · exact h
  | get_or_create_deposit_address c agent_id =>
      simp only [World.step]
      split
      · exact h.goto_none rfl
      · exact h
  | acquire c =>
      simp only [World.step]
      split
      · next wd hphase =>
          split
          · exact h
          · next hunlocked =>
              refine h.getHubAddresses fun hub_addresses time hcache hfresh => ?_
              exact hfound wd hub_addresses (World.found_acquire hphase hunlocked hcache hfresh)
      · split
        · exact h
        · exact (h.setLock _ _).goto_none rfl
      · exact h
  | serve c =>
      simp only [World.step]
      split
      · next call hphase => exact h.serve hphase
      · exact h
  | answer c =>
      have hknown := hinv.known c
      simp only [World.step]
      split
      · next call reply hphase =>
          rw [hphase] at hknown
          exact h.proceed hphase hknown.1 hknown.2 hfound
      · exact h
  | fail c e =>
      have hknown := hinv.known c
      have hpassed := h.passed c
      simp only [World.step]
      split
      · next call hphase =>
          rw [hphase] at hknown hpassed
          exact h.failed e (fun wd left hcall => hpassed wd (hcall ▸ rfl)) hknown
      · next call reply hphase =>
          rw [hphase] at hknown hpassed
          refine h.failed e (fun wd left hcall => hpassed wd ?_) hknown.1
          subst hcall
          rfl
      · exact h

end Refuses

/-! ## What does not pass -/

section Passing

variable {process : ℕ → ℕ} {w : World} {wd : Withdrawal} {hub_addresses : Finset String}

theorem check_passed (c : ℕ) (hnot : wd.to_address ∉ hub_addresses) :
    ((w.check c wd hub_addresses).thread c).passed = some wd := by
  rw [World.check, if_neg hnot]
  show (Function.update w.thread c _ c).passed = some wd
  rw [Function.update_self]
  rfl

/-- A withdrawal that finds a set without its address is sent to the wallet. -/
theorem passed_of_found (client : ℕ → Bool) (subaddress : ℕ → String) {event : Event}
    (hfound : w.found process event = some (wd, hub_addresses))
    (hnot : wd.to_address ∉ hub_addresses) :
    ∃ c, ((w.step process client subaddress event).thread c).passed = some wd := by
  cases event with
  | acquire c =>
      refine ⟨c, ?_⟩
      simp only [World.found] at hfound
      split at hfound
      · next wd' hphase =>
          split at hfound
          · cases hfound
          · next hunlocked =>
              split at hfound
              · next hub_addresses' time hcache =>
                  split at hfound
                  · next hfresh =>
                      obtain ⟨rfl, rfl⟩ := Prod.mk.inj (Option.some.inj hfound)
                      simp only [World.step, hphase, if_neg hunlocked, World.getHubAddresses, hcache,
                        if_pos hfresh]
                      exact check_passed c hnot
                  · cases hfound
              · cases hfound
      · cases hfound
  | answer c =>
      refine ⟨c, ?_⟩
      simp only [World.found] at hfound
      split at hfound
      · next wd' now cached hphase =>
          obtain ⟨data, rfl, hpair⟩ := Option.map_eq_some_iff.mp hfound
          obtain ⟨rfl, rfl⟩ := Prod.mk.inj hpair
          simp only [World.step, hphase, World.proceed, World.keep]
          exact check_passed c hnot
      · cases hfound
  | _ => cases hfound

end Passing

/-- **When a withdrawal to the hub itself is refused**: in every run, as long as each set that a withdrawal
to an own address finds in the process or in Redis was answered after the address was created, and no
longer. -/
theorem ownAddress_refused_iff (huniq : Function.Injective subaddress) (process : ℕ → ℕ)
    (client : ℕ → Bool) (now : ℚ) (created : ℕ) (deposit_address : ℕ → Option String)
    (events : List Event) :
    (∀ before event, before ++ [event] <+: events → Meets process subaddress
        ((World.start now created deposit_address).run process client subaddress before) event) ↔
      ∀ before, before <+: events → Refuses subaddress
        ((World.start now created deposit_address).run process client subaddress before) := by
  have hinv : ∀ before, Inv subaddress
      ((World.start now created deposit_address).run process client subaddress before) :=
    inv_run process client now created deposit_address
  have hrun : ∀ before event, (World.start now created deposit_address).run process client subaddress
      (before ++ [event]) = ((World.start now created deposit_address).run process client subaddress
        before).step process client subaddress event := fun before event => List.foldl_append
  constructor
  · intro hmeets before
    induction before using List.reverseRecOn with
    | nil =>
        intro _
        constructor
        · exact fun _ _ h => by cases h
        · exact fun _ h => absurd h List.not_mem_nil
        · exact fun _ _ h => absurd h List.not_mem_nil
    | append_singleton before event ih =>
        intro hprefix
        rw [hrun]
        refine (ih ((List.prefix_append before [event]).trans hprefix)).step (hinv before) ?_
        intro wd hub_addresses hfound
        obtain ⟨n, rfl⟩ := (hinv before).found hfound
        exact (recent_iff huniq).mp (hmeets before event hprefix wd _ hfound)
  · intro hrefuses before event hprefix wd hub_addresses hfound
    obtain ⟨n, rfl⟩ := (hinv before).found hfound
    refine (recent_iff huniq).mpr fun hown => ?_
    by_contra hnot
    obtain ⟨c, hpassed⟩ := passed_of_found client subaddress hfound hnot
    have hafter := hrefuses (before ++ [event]) hprefix
    rw [hrun] at hafter
    exact hafter.passed c wd hpassed hown

/-! ## Two runs -/

/-- Addresses for the runs below. -/
def eights (i : ℕ) : String := String.ofList (List.replicate (i + 1) '8')

theorem eights_injective : Function.Injective eights := by
  intro i j h
  have hlist := congrArg String.toList h
  rw [eights, eights, String.toList_ofList, String.toList_ofList] at hlist
  have hlength := congrArg List.length hlist
  rw [List.length_replicate, List.length_replicate] at hlength
  exact Nat.succ.inj hlength

/-- A withdrawal to the primary address, in a process without Redis. -/
theorem ownAddress_refused_primary :
    Refuses eights ((World.start 0 0 fun _ => none).run (fun _ => 0) (fun _ => false) eights
      [.send_withdrawal 0 "8" 1, .acquire 0, .serve 0, .answer 0]) := by
  refine (ownAddress_refused_iff eights_injective (fun _ => 0) (fun _ => false) 0 0 (fun _ => none) _).mp
    ?_ _ (List.prefix_refl _)
  -- nothing is found anywhere
  rintro before event ⟨after, h⟩ wd hub_addresses hfound
  rcases before with _ | ⟨e₁, _ | ⟨e₂, _ | ⟨e₃, _ | ⟨e₄, before⟩⟩⟩⟩
  · cases h
    cases hfound
  · cases h
    cases hfound
  · cases h
    cases hfound
  · cases h
    cases hfound
  · simp at h

/-- A withdrawal to elsewhere, a deposit address, and a withdrawal to that address, in one process. -/
def staleRun : List Event :=
  [.send_withdrawal 0 "elsewhere" 1, .acquire 0, .serve 0, .answer 0, .serve 0, .answer 0,
    .serve 0, .answer 0, .serve 0, .answer 0,
    .get_or_create_deposit_address 1 7, .acquire 1, .serve 1, .answer 1, .serve 1, .answer 1, .serve 1,
    .answer 1, .serve 1, .answer 1,
    .send_withdrawal 0 "88" 1, .acquire 0, .serve 0, .answer 0]

/-- The process still has the addresses that it has asked for before the deposit address was created. -/
theorem ownAddress_sent :
    ¬∀ events, Refuses eights
      ((World.start 0 0 fun _ => none).run (fun _ => 0) (fun _ => true) eights events) := by
  intro hclaim
  have hsent : (⟨"88", 1, 1⟩ : Withdrawal) ∈
      ((World.start 0 0 fun _ => none).run (fun _ => 0) (fun _ => true) eights staleRun).sent := by
    decide +kernel
  exact (hclaim staleRun).sent _ hsent ⟨1, Nat.le_refl 1, by decide +kernel⟩

end Sthrip.WalletCache
