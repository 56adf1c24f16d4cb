import Sthrip.Services.WalletCache

set_option autoImplicit false

/-! # The sets of addresses that are kept

Every set of addresses that a process, Redis or a thread has is one that the wallet has answered. An answer
that a withdrawal has waited for was given after the withdrawal began.
-/

namespace Sthrip.WalletCache

open Redis Hub

variable (subaddress : ℕ → String)

/-! ## What the wallet answers -/

/-- The answer of the wallet, when it has created `n` subaddresses. -/
def listed (n : ℕ) : AddrData := ⟨subaddress 0, (List.range (n + 1)).map subaddress⟩

/-- The withdrawal goes to an address that the wallet had when it began. -/
def Withdrawal.Own (wd : Withdrawal) : Prop := ∃ i ≤ wd.since, subaddress i = wd.to_address

/-- The set has so many addresses that the one the withdrawal goes to had been created when it was
answered. -/
def Recent (wd : Withdrawal) (hub_addresses : Finset String) : Prop :=
  ∀ i ≤ wd.since, subaddress i = wd.to_address → i < hub_addresses.card

variable {subaddress}

theorem mem_listed {n : ℕ} {a : String} : a ∈ (listed subaddress n).toSet ↔ ∃ i ≤ n, subaddress i = a := by
  rw [AddrData.toSet, Finset.mem_insert, List.mem_toFinset, listed]
  constructor
  · rintro (rfl | ha)
    · exact ⟨0, Nat.zero_le n, rfl⟩
    · obtain ⟨i, hi, rfl⟩ := List.mem_map.mp ha
      exact ⟨i, Nat.le_of_lt_succ (List.mem_range.mp hi), rfl⟩
  · rintro ⟨i, hi, rfl⟩
    exact Or.inr (List.mem_map.mpr ⟨i, List.mem_range.mpr (Nat.lt_succ_of_le hi), rfl⟩)

theorem card_listed (huniq : Function.Injective subaddress) (n : ℕ) :
    (listed subaddress n).toSet.card = n + 1 := by
  have himage : (listed subaddress n).toSet = (Finset.range (n + 1)).image subaddress := by
    ext a
    rw [mem_listed, Finset.mem_image]
    constructor
    · rintro ⟨i, hi, rfl⟩
      exact ⟨i, Finset.mem_range.mpr (Nat.lt_succ_of_le hi), rfl⟩
    · rintro ⟨i, hi, rfl⟩
      exact ⟨i, Nat.le_of_lt_succ (Finset.mem_range.mp hi), rfl⟩
  rw [himage, Finset.card_image_of_injective _ huniq, Finset.card_range]

/-- A set is recent when the comparison with it finds what it should find. -/
theorem recent_iff (huniq : Function.Injective subaddress) {wd : Withdrawal} {n : ℕ} :
    Recent subaddress wd (listed subaddress n).toSet ↔
      (wd.Own subaddress → wd.to_address ∈ (listed subaddress n).toSet) := by
  rw [Recent, card_listed huniq]
  constructor
  · rintro hrecent ⟨i, hi, hto⟩
    exact mem_listed.mpr ⟨i, Nat.le_of_lt_succ (hrecent i hi hto), hto⟩
  · intro hfound i hi hto
    obtain ⟨j, hj, hto'⟩ := mem_listed.mp (hfound ⟨i, hi, hto⟩)
    obtain rfl := huniq (hto.trans hto'.symm)
    exact Nat.lt_succ_of_le hj

/-- An answer that was given after the withdrawal began. -/
theorem own_mem_listed {wd : Withdrawal} {n : ℕ} (hn : wd.since ≤ n) (hown : wd.Own subaddress) :
    wd.to_address ∈ (listed subaddress n).toSet := by
  obtain ⟨i, hi, hto⟩ := hown
  exact mem_listed.mpr ⟨i, hi.trans hn, hto⟩

/-! ## What is known of the sets -/

variable (subaddress) in
/-- What a request carries was answered by the wallet. -/
def Call.Known (created : ℕ) : Call → Prop
  | .cacheGet wd _ | .getAddress wd _ _ => wd.since ≤ created
  | .cacheSet wd _ data => ∃ n, wd.since ≤ n ∧ data = listed subaddress n
  | _ => True

variable (subaddress) in
def Call.Answered : (call : Call) → call.Reply → Prop
  | .cacheGet _ _, cached => ∀ data, cached = some data → ∃ n, data = listed subaddress n
  | .getAddress wd _ _, data => ∃ n, wd.since ≤ n ∧ data = listed subaddress n
  | _, _ => True

variable (subaddress) in
def Phase.Known (created : ℕ) : Phase → Prop
  | .withdrawing wd => wd.since ≤ created
  | .called call => call.Known subaddress created
  | .replied call reply => call.Known subaddress created ∧ call.Answered subaddress reply
  | _ => True

variable (subaddress) in
/-- The invariant: what is kept in the processes, in Redis and by the threads was answered by the
wallet. -/
structure Inv (w : World) : Prop where
  kept : ∀ p hub_addresses time, w.hub_addr_cache p = some (hub_addresses, time) →
    ∃ n, hub_addresses = (listed subaddress n).toSet
  stored : ∀ s, w.db addressKey = some s → ∃ n, s.value = listed subaddress n
  known : ∀ c, (w.thread c).Known subaddress w.created

theorem Call.Known.mono {created created' : ℕ} (hle : created ≤ created') {call : Call}
    (h : call.Known subaddress created) : call.Known subaddress created' := by
  cases call with
  | cacheGet wd now => exact Nat.le_trans h hle
  | getAddress wd now left => exact Nat.le_trans h hle
  | cacheSet wd now data => exact h
  | _ => trivial

theorem Phase.Known.mono {created created' : ℕ} (hle : created ≤ created') {phase : Phase}
    (h : phase.Known subaddress created) : phase.Known subaddress created' := by
  cases phase with
  | withdrawing wd => exact Nat.le_trans h hle
  | called call => exact Call.Known.mono hle h
  | replied call reply => exact ⟨h.1.mono hle, h.2⟩
  | _ => trivial

namespace Inv

variable {process : ℕ → ℕ} {client : ℕ → Bool} {w : World} {c : ℕ} {wd : Withdrawal} {now : ℚ}

theorem goto (h : Inv subaddress w) {next : Phase} (hnext : next.Known subaddress w.created) :
    Inv subaddress (w.goto c next) := by
  refine ⟨h.kept, h.stored, fun c' => ?_⟩
  show (Function.update w.thread c next c').Known subaddress w.created
  by_cases hc : c' = c
  · rw [hc, Function.update_self]
    exact hnext
  · rw [Function.update_of_ne hc]
    exact h.known c'

theorem setLock (h : Inv subaddress w) (lock : Lock) (b : Bool) : Inv subaddress (w.setLock lock b) :=
  ⟨h.kept, h.stored, h.known⟩

theorem finish (h : Inv subaddress w) (raised : Option RpcExn) :
    Inv subaddress (w.finish c wd raised) := by
  have hended : Inv subaddress { w with ended := w.ended ++ [(wd, raised)] } := ⟨h.kept, h.stored, h.known⟩
  exact hended.goto trivial

theorem check (h : Inv subaddress w) (hub_addresses : Finset String) :
    Inv subaddress (w.check c wd hub_addresses) := by
  unfold World.check
  split
  · exact h.finish _
  · exact h.goto trivial

theorem keep (h : Inv subaddress w) (n : ℕ) :
    Inv subaddress (w.keep process c wd now (listed subaddress n)) := by
  have hunlocked := h.setLock (.hubAddr (process c)) false
  have hkept : Inv subaddress { w.setLock (.hubAddr (process c)) false with
      hub_addr_cache := Function.update w.hub_addr_cache (process c)
        (some ((listed subaddress n).toSet, now)) } := by
    refine ⟨fun p hub_addresses time hp => ?_, h.stored, h.known⟩
    by_cases hself : p = process c
    · change Function.update w.hub_addr_cache _ _ p = _ at hp
      rw [hself, Function.update_self] at hp
      exact ⟨n, (Prod.mk.inj (Option.some.inj hp)).1.symm⟩
    · change Function.update w.hub_addr_cache _ _ p = _ at hp
      rw [Function.update_of_ne hself] at hp
      exact h.kept p hub_addresses time hp
  exact hkept.check _

theorem fetch (h : Inv subaddress w) (hsince : wd.since ≤ w.created) :
    Inv subaddress (w.fetch process client c wd) := by
  refine (h.setLock _ _).goto ?_
  show Call.Known subaddress w.created (if client (process c) then _ else _)
  split
  · exact hsince
  · exact hsince

theorem getHubAddresses (h : Inv subaddress w) (hsince : wd.since ≤ w.created) :
    Inv subaddress (w.getHubAddresses process client c wd) := by
  unfold World.getHubAddresses
  split
  · split
    · exact h.check _
    · exact h.fetch hsince
  · exact h.fetch hsince

theorem leave (h : Inv subaddress w) (agent_id : ℕ) : Inv subaddress (w.leave process c agent_id) :=
  (h.setLock _ _).goto trivial

theorem retry (h : Inv subaddress w) {e : RpcExn} {left : ℕ} {again : ℕ → Call} {give_up : World}
    (hagain : ∀ n, (again n).Known subaddress w.created) (hgive : Inv subaddress give_up) :
    Inv subaddress (w.retry c e left again give_up) := by
  cases left with
  | zero => exact hgive
  | succ left =>
      unfold World.retry
      dsimp only
      split
      · exact h.goto (hagain left)
      · exact hgive

/-- A request is executed: the answer is the wallet's, or one that Redis has kept. -/
theorem execute (h : Inv subaddress w) {call : Call} (hcall : call.Known subaddress w.created) :
    Inv subaddress (w.execute subaddress call).1 ∧
      (call.Known subaddress (w.execute subaddress call).1.created ∧
        call.Answered subaddress (w.execute subaddress call).2) := by
  cases call with
  | cacheGet wd now =>
      refine ⟨h, hcall, fun data hdata => ?_⟩
      obtain ⟨s, hs, rfl⟩ := Option.map_eq_some_iff.mp hdata
      exact h.stored s (Option.filter_eq_some_iff.mp hs).1
  | getAddress wd now left => exact ⟨h, hcall, w.created, hcall, rfl⟩
  | cacheSet wd now data =>
      refine ⟨⟨h.kept, fun s hs => ?_, h.known⟩, hcall, trivial⟩
      change w.db.setex addressKey data (w.now + ADDRESS_TTL) addressKey = some s at hs
      rw [Keyspace.setex_self] at hs
      obtain ⟨n, -, hdata⟩ := hcall
      obtain rfl := Option.some.inj hs
      exact ⟨n, hdata⟩
  | createAddress agent_id left =>
      exact ⟨⟨h.kept, h.stored, fun c' => (h.known c').mono (Nat.le_succ _)⟩, trivial, trivial⟩
  | cacheDelete agent_id address =>
      refine ⟨⟨h.kept, fun s hs => ?_, h.known⟩, trivial, trivial⟩
      change w.db.del addressKey addressKey = some s at hs
      rw [Keyspace.del_self] at hs
      cases hs
  | _ => exact ⟨⟨h.kept, h.stored, h.known⟩, trivial, trivial⟩

theorem proceed (h : Inv subaddress w) {call : Call} {reply : call.Reply}
    (hcall : call.Known subaddress w.created) (hreply : call.Answered subaddress reply) :
    Inv subaddress (w.proceed process client c call reply) := by
  cases call with
  | cacheGet wd now =>
      cases reply with
      | none => exact h.goto hcall
      | some data =>
          obtain ⟨n, rfl⟩ := hreply data rfl
          exact h.keep n
  | getAddress wd now left =>
      obtain ⟨n, hn, hdata⟩ := hreply
      unfold World.proceed
      dsimp only
      split
      · exact h.goto ⟨n, hn, hdata⟩
      · rw [hdata]
        exact h.keep n
  | cacheSet wd now data =>
      obtain ⟨n, -, rfl⟩ := hcall
      exact h.keep n
  | transfer wd left => exact h.finish _
  | readBalance agent_id =>
      unfold World.proceed
      dsimp only
      split
      · exact h.leave _
      · exact h.goto trivial
  | createAddress agent_id left =>
      refine h.goto ?_
      show Call.Known subaddress w.created (if client (process c) then _ else _)
      split
      · trivial
      · trivial
  | cacheDelete agent_id address => exact h.goto trivial
  | setDepositAddress agent_id address => exact h.leave _

theorem failed (h : Inv subaddress w) (e : RpcExn) {call : Call} (hcall : call.Known subaddress w.created) :
    Inv subaddress (w.failed process c e call) := by
  cases call with
  | cacheGet wd now => exact h.goto hcall
  | getAddress wd now left => exact h.retry (fun _ => hcall) ((h.setLock _ _).finish _)
  | cacheSet wd now data =>
      obtain ⟨n, -, rfl⟩ := hcall
      exact h.keep n
  | transfer wd left => exact h.retry (fun _ => trivial) (h.finish _)
  | readBalance agent_id => exact h.leave _
  | createAddress agent_id left => exact h.retry (fun _ => trivial) (h.leave _)
  | cacheDelete agent_id address => exact h.goto trivial
  | setDepositAddress agent_id address => exact h.leave _

/-- One step. -/
theorem step (h : Inv subaddress w) (event : Event) :
    Inv subaddress (w.step process client subaddress event) := by
  cases event with
  | tick t => exact ⟨h.kept, h.stored, h.known⟩
  | send_withdrawal c to_address amount =>
      simp only [World.step]
      split
      · exact h.goto (Nat.le_refl _)
      · exact h
  | get_or_create_deposit_address c agent_id =>
      simp only [World.step]
      split
      · exact h.goto trivial
      · exact h
  | acquire c =>
      have hknown := h.known c
      simp only [World.step]
      split
      · next wd hphase =>
          rw [hphase] at hknown
          split
          · exact h
          · exact h.getHubAddresses hknown
      · split
        · exact h
        · exact (h.setLock _ _).goto trivial
      · exact h
  | serve c =>
      have hknown := h.known c
      simp only [World.step]
      split
      · next call hphase =>
          rw [hphase] at hknown
          obtain ⟨hexecuted, hreplied⟩ := h.execute hknown
          exact hexecuted.goto hreplied
      · exact h
  | answer c =>
      have hknown := h.known c
      simp only [World.step]
      split
      · next call reply hphase =>
          rw [hphase] at hknown
          exact h.proceed hknown.1 hknown.2
      · exact h
  | fail c e =>
      have hknown := h.known c
      simp only [World.step]
      split
      · next call hphase =>
          rw [hphase] at hknown
          exact h.failed e hknown
      · next call reply hphase =>
          rw [hphase] at hknown
          exact h.failed e hknown.1
      · exact h

end Inv

theorem inv_start (now : ℚ) (created : ℕ) (deposit_address : ℕ → Option String) :
    Inv subaddress (World.start now created deposit_address) := by
  constructor
  · exact fun _ _ _ h => by cases h
  · exact fun _ h => by cases h
  · exact fun _ => trivial

theorem inv_run (process : ℕ → ℕ) (client : ℕ → Bool) (now : ℚ) (created : ℕ)
    (deposit_address : ℕ → Option String) (events : List Event) :
    Inv subaddress ((World.start now created deposit_address).run process client subaddress events) :=
  List.foldlRecOn events _ (inv_start now created deposit_address) fun _ h event _ => h.step event

end Sthrip.WalletCache
