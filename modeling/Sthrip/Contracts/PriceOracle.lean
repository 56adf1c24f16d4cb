import Sthrip.Contracts.SthripBridge
import Sthrip.Python.Values
import Mathlib.Data.List.Chain
import Mathlib.Tactic.Ring
import Mathlib.Tactic.Linarith

set_option autoImplicit false

/-! # The price oracle

`contracts/PriceOracle.sol`. The price of ether comes from a feed, of which only the last answer matters
here. The price of XMR moves by the updates of the authorized oracles, each at most five percent, where the
deviation is rounded down to a hundredth of a percent. The number of updates is not limited, so the bound
is on a number of updates and not on a time. Below 20 the price does not move any more.
-/

namespace Sthrip.PriceOracle

open Evm
open Bridge (Address require checked require_bind_eq_ok checked_bind_eq_ok)

/-! ## The state -/

inductive Role where
  | DEFAULT_ADMIN_ROLE | ORACLE_ROLE
  deriving DecidableEq

inductive Event where
  | XmrPriceUpdated (oldPrice newPrice : ℕ) (oracle : Address)
  | OracleAuthorized (oracle : Address) (authorized : Bool)

structure State where
  xmrPrice : ℕ := 0
  xmrPriceLastUpdate : ℕ := 0
  authorizedOracles : Address → Bool := fun _ => false
  hasRole : Role → Address → Bool
  events : List Event := []

inductive Call where
  | authorizeOracle (oracle : Address) (authorized : Bool)
  | updateXmrPrice (newPrice : ℕ)
  | grantRole (role : Role) (account : Address)
  | revokeRole (role : Role) (account : Address)
  | renounceRole (role : Role) (account : Address)

structure Msg where
  sender : Address
  value : ℕ := 0
  call : Call

structure Env where
  timestamp : ℕ
  /-- The price that `ethUsdFeed.latestRoundData()` has. -/
  ethUsd : ℤ

/-! ## The functions -/

def MAX_PRICE_AGE : ℕ := 3600
def MAX_DEVIATION : ℕ := 500

def emit (e : Event) (s : State) : State := { s with events := s.events ++ [e] }

def setRole (role : Role) (account : Address) (b : Bool) (s : State) : State :=
  { s with hasRole := fun r a => if r = role ∧ a = account then b else s.hasRole r a }

def calculateDeviation (old new : ℕ) : Except String ℕ :=
  if new < old then do
    let product ← checked ((old - new) * 10000)
    return product / old
  else do
    let product ← checked ((new - old) * 10000)
    return product / old

def nonPayable (m : Msg) : Except String Unit := require (m.value = 0) ""

def onlyAdmin (m : Msg) (s : State) : Except String Unit :=
  require (s.hasRole .DEFAULT_ADMIN_ROLE m.sender = true) "AccessControl: account is missing role"

def authorizeOracle (m : Msg) (oracle : Address) (authorized : Bool) (s : State) :
    Except String State := do
  onlyAdmin m s
  let authorizedOracles := Function.update s.authorizedOracles oracle authorized
  return emit (.OracleAuthorized oracle authorized) { s with authorizedOracles }

def updateXmrPrice (env : Env) (m : Msg) (newPrice : ℕ) (s : State) : Except String State := do
  require (s.authorizedOracles m.sender = true) "Not authorized"
  require (0 < newPrice) "Invalid price"
  if 0 < s.xmrPrice then
    let deviation ← calculateDeviation s.xmrPrice newPrice
    require (deviation ≤ MAX_DEVIATION) "Price deviation too high"
  return emit (.XmrPriceUpdated s.xmrPrice newPrice m.sender)
    { s with xmrPrice := newPrice, xmrPriceLastUpdate := env.timestamp }

/-- `grantRole` and `revokeRole` of `AccessControl`. -/
def changeRole (m : Msg) (role : Role) (account : Address) (b : Bool) (s : State) :
    Except String State := do
  onlyAdmin m s
  return setRole role account b s

/-- `renounceRole` of `AccessControl` -/
def renounceRole (m : Msg) (role : Role) (account : Address) (s : State) : Except String State := do
  require (account = m.sender) "AccessControl: can only renounce roles for self"
  return setRole role account false s

def call (env : Env) (m : Msg) (s : State) : Except String State :=
  match m.call with
  | .authorizeOracle oracle authorized => authorizeOracle m oracle authorized s
  | .updateXmrPrice newPrice => updateXmrPrice env m newPrice s
  | .grantRole role account => changeRole m role account true s
  | .revokeRole role account => changeRole m role account false s
  | .renounceRole role account => renounceRole m role account s

/-- No function calls out. -/
def oracle : Contract where
  Env := Env
  Msg := Msg
  State := State
  enter env m s := do
    nonPayable m
    let s ← call env m s
    return .stop s

/-- The constructor. -/
def deploy (sender ethUsdFeed : Address) : Except String State := do
  require (ethUsdFeed ≠ 0) "Invalid feed"
  return { hasRole := fun role account => role = .DEFAULT_ADMIN_ROLE ∧ account = sender }

/-! The views -/

def getEthPrice (env : Env) : Except String ℕ := do
  require (0 < env.ethUsd) "Invalid ETH price"
  return env.ethUsd.toNat

def getXmrPrice (env : Env) (s : State) : Except String ℕ := do
  require (s.xmrPriceLastUpdate ≤ env.timestamp) "Panic(0x11)"
  require (env.timestamp - s.xmrPriceLastUpdate ≤ MAX_PRICE_AGE) "XMR price stale"
  return s.xmrPrice

def getXmrToEthRate (env : Env) (s : State) : Except String ℕ := do
  let ethUsd ← getEthPrice env
  let xmrUsd ← getXmrPrice env s
  let product ← checked (xmrUsd * 10 ^ 18)
  return product / ethUsd

def quoteXmrToEth (env : Env) (xmrAmount : ℕ) (s : State) : Except String ℕ := do
  let rate ← getXmrToEthRate env s
  let product ← checked (xmrAmount * rate)
  return product / 10 ^ 12

/-! ## One update -/

/-- A price and the next, apart by less than 5.01 percent of the first. -/
def Near (p q : ℕ) : Prop := p * 9499 < q * 10000 ∧ q * 10000 < p * 10501

theorem calculateDeviation_eq {p q d : ℕ} (h : calculateDeviation p q = .ok d) :
    ((p - q) + (q - p)) * 10000 / p = d := by
  rw [calculateDeviation] at h
  split at h
  · next hlt =>
      simp only [checked_bind_eq_ok, pure, Except.pure, Except.ok.injEq] at h
      rw [Nat.sub_eq_zero_of_le hlt.le, Nat.add_zero]
      exact h.2
  · next hge =>
      simp only [checked_bind_eq_ok, pure, Except.pure, Except.ok.injEq] at h
      rw [Nat.sub_eq_zero_of_le (Nat.le_of_not_lt hge), Nat.zero_add]
      exact h.2

theorem near_of_deviation {p q d : ℕ} (hp : 0 < p) (h : calculateDeviation p q = .ok d)
    (hd : d ≤ MAX_DEVIATION) : Near p q := by
  rw [MAX_DEVIATION] at hd
  have hlt := Nat.lt_mul_div_succ (((p - q) + (q - p)) * 10000) hp
  rw [calculateDeviation_eq h] at hlt
  have hgap : ((p - q) + (q - p)) * 10000 < p * 501 :=
    hlt.trans_le (Nat.mul_le_mul_left p (Nat.succ_le_succ hd))
  have hlow : p ≤ q + ((p - q) + (q - p)) := by omega
  have hhigh : q ≤ p + ((p - q) + (q - p)) := by omega
  constructor <;> linarith

/-- Five percent of less than 20 is less than one. -/
theorem Near.eq_of_lt {p q : ℕ} (h : Near p q) (hp : p < 20) : q = p := by
  obtain ⟨hlow, hhigh⟩ := h
  omega

/-! ## Any number of updates -/

/-- What `n` updates may do to a price. -/
def Drift (n p q : ℕ) : Prop := p * 9499 ^ n ≤ q * 10000 ^ n ∧ q * 10000 ^ n ≤ p * 10501 ^ n

theorem Drift.refl (p : ℕ) : Drift 0 p p := ⟨le_rfl, le_rfl⟩

theorem Drift.step {n p q r : ℕ} (h : Drift n p q) (hr : Near q r) : Drift (n + 1) p r := by
  obtain ⟨hlow, hhigh⟩ := h
  obtain ⟨hlow', hhigh'⟩ := hr
  constructor
  · calc p * 9499 ^ (n + 1) = p * 9499 ^ n * 9499 := by ring
      _ ≤ q * 10000 ^ n * 9499 := Nat.mul_le_mul_right _ hlow
      _ = q * 9499 * 10000 ^ n := by ring
      _ ≤ r * 10000 * 10000 ^ n := Nat.mul_le_mul_right _ hlow'.le
      _ = r * 10000 ^ (n + 1) := by ring
  · calc r * 10000 ^ (n + 1) = r * 10000 * 10000 ^ n := by ring
      _ ≤ q * 10501 * 10000 ^ n := Nat.mul_le_mul_right _ hhigh'.le
      _ = q * 10000 ^ n * 10501 := by ring
      _ ≤ p * 10501 ^ n * 10501 := Nat.mul_le_mul_right _ hhigh
      _ = p * 10501 ^ (n + 1) := by ring

/-- From one price of a list to a later one, by induction on the number of updates between. -/
theorem drift_of_isChain {prices : List ℕ} (h : prices.IsChain Near) {i n p q : ℕ}
    (hp : prices[i]? = some p) (hq : prices[i + n]? = some q) : Drift n p q ∧ (p < 20 → q = p) := by
  induction n generalizing q with
  | zero =>
      have heq : p = q := Option.some.inj (hp.symm.trans hq)
      exact heq ▸ ⟨Drift.refl p, fun _ => rfl⟩
  | succ n ih =>
      obtain ⟨hlt, hget⟩ := List.getElem?_eq_some_iff.mp hq
      have hnear : Near prices[i + n] q := hget ▸ List.isChain_iff_getElem.mp h (i + n) hlt
      obtain ⟨hdrift, hfrozen⟩ := ih (List.getElem?_eq_getElem (by omega))
      refine ⟨hdrift.step hnear, fun hsmall => ?_⟩
      have hsame := hfrozen hsmall
      exact (hnear.eq_of_lt (by omega)).trans hsame

/-! ## The invariant -/

def Event.newPrice? : Event → Option ℕ
  | .XmrPriceUpdated _ newPrice _ => some newPrice
  | _ => none

/-- All the prices so far, the last of which is current. -/
def State.prices (s : State) : List ℕ := s.events.filterMap Event.newPrice?

structure Valid (now : ℕ) (s : State) : Prop where
  current : s.prices.getLast?.getD 0 = s.xmrPrice
  pos : ∀ p ∈ s.prices, 0 < p
  near : s.prices.IsChain Near
  updated : s.xmrPriceLastUpdate ≤ now
  unset : s.xmrPrice = 0 → s.xmrPriceLastUpdate = 0

variable {now : ℕ} {s s' : State} {env : Env} {m : Msg}

theorem Valid.later (h : Valid now s) {now' : ℕ} (hle : now ≤ now') : Valid now' s :=
  ⟨h.current, h.pos, h.near, h.updated.trans hle, h.unset⟩

theorem prices_update {old new : ℕ} {by_ : Address} (s : State) :
    (emit (.XmrPriceUpdated old new by_) s).prices = s.prices ++ [new] := by
  simp [State.prices, emit, Event.newPrice?, List.filterMap_append]

/-- A price that is near the current one, if there is one. -/
theorem Valid.update (h : Valid env.timestamp s) {new : ℕ} {by_ : Address} (hpos : 0 < new)
    (hnear : 0 < s.xmrPrice → Near s.xmrPrice new) :
    Valid env.timestamp (emit (.XmrPriceUpdated s.xmrPrice new by_)
      { s with xmrPrice := new, xmrPriceLastUpdate := env.timestamp }) := by
  have hprices : (emit (.XmrPriceUpdated s.xmrPrice new by_)
      { s with xmrPrice := new, xmrPriceLastUpdate := env.timestamp }).prices = s.prices ++ [new] :=
    prices_update _
  constructor
  · rw [hprices, List.getLast?_concat]
    rfl
  · intro p hp
    rw [hprices] at hp
    rcases List.mem_append.mp hp with hp | hp
    · exact h.pos p hp
    · rw [List.mem_singleton.mp hp]
      exact hpos
  · rw [hprices]
    refine h.near.append (List.isChain_singleton new) ?_
    intro p hp q hq
    have hq' : new = q := Option.some.inj hq
    have hp' : s.xmrPrice = p := by
      rw [← h.current, Option.mem_def.mp hp]
      rfl
    rw [← hq', ← hp']
    exact hnear (hp' ▸ h.pos p (List.mem_of_getLast? hp))
  · exact le_rfl
  · exact fun hzero => absurd hzero hpos.ne'

theorem updateXmrPrice_valid (h : Valid env.timestamp s) {newPrice : ℕ}
    (hrun : updateXmrPrice env m newPrice s = .ok s') : Valid env.timestamp s' := by
  simp only [updateXmrPrice, require_bind_eq_ok] at hrun
  obtain ⟨-, hpos, hrun⟩ := hrun
  split at hrun
  · next hold =>
      obtain ⟨deviation, hdeviation, hrun⟩ := Python.bind_eq_ok.mp hrun
      rw [require_bind_eq_ok] at hrun
      cases hrun.2
      exact h.update hpos fun _ => near_of_deviation hold hdeviation hrun.1
  · next hfirst =>
      cases hrun
      exact h.update hpos fun hold => absurd hold hfirst

/-- The other functions leave the price. -/
theorem Valid.congr (h : Valid now s) (hprice : s'.xmrPrice = s.xmrPrice)
    (hprices : s'.prices = s.prices) (hupdate : s'.xmrPriceLastUpdate = s.xmrPriceLastUpdate) :
    Valid now s' := by
  obtain ⟨hcurrent, hpos, hnear, hupdated, hunset⟩ := h
  rw [← hprices] at hcurrent hpos hnear
  rw [← hprice] at hcurrent hunset
  rw [← hupdate] at hupdated hunset
  exact ⟨hcurrent, hpos, hnear, hupdated, hunset⟩

theorem call_valid (h : Valid env.timestamp s) (hrun : call env m s = .ok s') :
    Valid env.timestamp s' := by
  rw [call] at hrun
  split at hrun
  case h_1 oracle authorized _ =>
    simp only [authorizeOracle, onlyAdmin, require_bind_eq_ok] at hrun
    cases hrun.2
    refine h.congr rfl ?_ rfl
    simp [State.prices, emit, Event.newPrice?, List.filterMap_append]
  case h_2 => exact updateXmrPrice_valid h hrun
  case h_3 | h_4 =>
    simp only [changeRole, onlyAdmin, require_bind_eq_ok] at hrun
    cases hrun.2
    exact h.congr rfl rfl rfl
  case h_5 =>
    simp only [renounceRole, require_bind_eq_ok] at hrun
    cases hrun.2
    exact h.congr rfl rfl rfl

theorem oracle_upholds (env : Env) : oracle.Upholds env (Valid env.timestamp) := by
  intro m s n h hrun
  change (nonPayable m >>= fun _ => call env m s >>= fun s => pure (Next.stop s)) = .ok n at hrun
  obtain ⟨-, -, hrun⟩ := Python.bind_eq_ok.mp hrun
  obtain ⟨s', hcall, hn⟩ := Python.bind_eq_ok.mp hrun
  cases hn
  exact call_valid h hcall

theorem deploy_valid {sender ethUsdFeed : Address} (hdeploy : deploy sender ethUsdFeed = .ok s) :
    Valid now s := by
  rw [deploy, require_bind_eq_ok] at hdeploy
  cases hdeploy.2
  exact ⟨rfl, nofun, List.isChain_nil, Nat.zero_le _, fun _ => rfl⟩

/-! ## Every run -/

/-- What the prices so far show. -/
structure State.Drifts (s : State) : Prop where
  current : s.prices.getLast?.getD 0 = s.xmrPrice
  pos : ∀ p ∈ s.prices, 0 < p
  drift : ∀ i n p q : ℕ, s.prices[i]? = some p → s.prices[i + n]? = some q → Drift n p q
  /-- The price has come so low that no update can move it. -/
  frozen : ∀ i n p q : ℕ, s.prices[i]? = some p → s.prices[i + n]? = some q → p < 20 → q = p

/-- **After `n` updates the price is within `0.9499ⁿ` and `1.0501ⁿ` times what it was**, and below 20 it
is what it was, in every state that is reached, whoever sends the messages. -/
theorem price_drifts {sender ethUsdFeed : Address} (hdeploy : deploy sender ethUsdFeed = .ok s)
    (txs : List (Env × Tx Msg)) (hsorted : txs.Pairwise fun t t' => t.1.timestamp ≤ t'.1.timestamp) :
    ∀ s' ∈ oracle.seenByAll txs s, s'.Drifts := by
  have hdrifts (now : ℕ) (s : State) (h : Valid now s) : s.Drifts := by
    refine ⟨h.current, h.pos, ?_, ?_⟩
    · exact fun _ _ _ _ hp hq => (drift_of_isChain h.near hp hq).1
    · exact fun _ _ _ _ hp hq => (drift_of_isChain h.near hp hq).2
  refine Contract.Upholds.seenByAll (c := oracle) (r := fun e e' => e.timestamp ≤ e'.timestamp)
    oracle_upholds ?_ (fun _ => hdrifts _) (hdrifts 0 _ (deploy_valid hdeploy)) txs
    (fun _ _ => deploy_valid hdeploy) hsorted
  exact fun _ _ _ hle h => h.later hle

def deployed : State := (deploy 1 5).toOption.get rfl

/-- An oracle raises the price and lowers it, and tries to do too much. -/
def updates : List (Env × Tx Msg) :=
  let update (newPrice : ℕ) : Tx Msg := .mk ⟨7, 0, .updateXmrPrice newPrice⟩ [] true
  [(⟨1000, 3000⟩, .mk ⟨1, 0, .authorizeOracle 7 true⟩ [] true), (⟨1000, 3000⟩, update 15000000000),
    (⟨2000, 3000⟩, update 15750000000), (⟨2000, 3000⟩, update 20000000000),
    (⟨5000, 3000⟩, update 14962500000)]

/-- The state after that. -/
def updated : State := (oracle.seenByAll updates deployed).getLast (oracle.seenByAll_ne_nil _ _)

theorem price_drifts_updates : updated.Drifts := by
  have hdeploy : deploy 1 5 = .ok deployed := rfl
  exact price_drifts hdeploy updates (by simp [updates]) updated (List.getLast_mem _)

example : updated.prices = [15000000000, 15750000000, 14962500000] := by decide +kernel

/-! ## Quotes -/

theorem getXmrToEthRate_eq {rate : ℕ} (h : getXmrToEthRate env s = .ok rate) :
    0 < env.ethUsd ∧ s.xmrPriceLastUpdate ≤ env.timestamp
      ∧ env.timestamp ≤ s.xmrPriceLastUpdate + MAX_PRICE_AGE
      ∧ rate = s.xmrPrice * 10 ^ 18 / env.ethUsd.toNat := by
  obtain ⟨ethUsd, heth, h⟩ := Python.bind_eq_ok.mp h
  obtain ⟨xmrUsd, hxmr, h⟩ := Python.bind_eq_ok.mp h
  rw [getEthPrice, require_bind_eq_ok] at heth
  rw [getXmrPrice, require_bind_eq_ok, require_bind_eq_ok] at hxmr
  rw [checked_bind_eq_ok] at h
  obtain ⟨hpos, heth⟩ := heth
  obtain ⟨hupdated, hage, hxmr⟩ := hxmr
  cases heth
  cases hxmr
  refine ⟨hpos, hupdated, by omega, (Except.ok.inj h.2).symm⟩

theorem quoteXmrToEth_eq {xmrAmount q : ℕ} (h : quoteXmrToEth env xmrAmount s = .ok q) :
    ∃ rate, getXmrToEthRate env s = .ok rate ∧ q = xmrAmount * rate / 10 ^ 12 := by
  obtain ⟨rate, hrate, h⟩ := Python.bind_eq_ok.mp h
  rw [checked_bind_eq_ok] at h
  exact ⟨rate, hrate, (Except.ok.inj h.2).symm⟩

/-- What the quotes of a state show, at a time and a price of ether. -/
structure State.Quotes (s : State) (env : Env) : Prop where
  /-- The price is not older than an hour. -/
  fresh : ∀ a q, quoteXmrToEth env a s = .ok q →
    s.xmrPriceLastUpdate ≤ env.timestamp ∧ env.timestamp ≤ s.xmrPriceLastUpdate + 3600
  pos : ∀ a q, quoteXmrToEth env a s = .ok q → 3600 < env.timestamp → 0 < s.xmrPrice
  /-- Both divisions are rounded down. -/
  below : ∀ a q, quoteXmrToEth env a s = .ok q →
    q * 10 ^ 12 * env.ethUsd.toNat ≤ a * (s.xmrPrice * 10 ^ 18)
  /-- The first costs less than one unit of the rate, the second less than one wei. -/
  above : ∀ a q, quoteXmrToEth env a s = .ok q →
    a * (s.xmrPrice * 10 ^ 18) < (q + 1) * 10 ^ 12 * env.ethUsd.toNat + a * env.ethUsd.toNat
  /-- An amount in two parts gets the same, or one wei less. -/
  split : ∀ a b x y z, quoteXmrToEth env a s = .ok x → quoteXmrToEth env b s = .ok y →
    quoteXmrToEth env (a + b) s = .ok z → x + y ≤ z ∧ z ≤ x + y + 1

/-- Two roundings of a product. -/
theorem mul_div_bounds {a p e r q k : ℕ} (he : 0 < e) (hk : 0 < k) (hr : r = p / e)
    (hq : q = a * r / k) : q * k * e ≤ a * p ∧ a * p < (q + 1) * k * e + a * e := by
  have hrate : r * e ≤ p := hr ▸ Nat.div_mul_le_self p e
  have hrate' : p ≤ (r + 1) * e := by
    rw [hr, Nat.mul_comm]
    exact (Nat.lt_mul_div_succ p he).le
  have hquote : q * k ≤ a * r := hq ▸ Nat.div_mul_le_self (a * r) k
  have hquote' : a * r < (q + 1) * k := by
    rw [hq, Nat.mul_comm _ k]
    exact Nat.lt_mul_div_succ (a * r) hk
  constructor
  · calc q * k * e ≤ a * r * e := Nat.mul_le_mul_right e hquote
      _ = a * (r * e) := Nat.mul_assoc ..
      _ ≤ a * p := Nat.mul_le_mul_left a hrate
  · calc a * p ≤ a * ((r + 1) * e) := Nat.mul_le_mul_left a hrate'
      _ = a * r * e + a * e := by ring
      _ < (q + 1) * k * e + a * e :=
        Nat.add_lt_add_right (Nat.mul_lt_mul_of_pos_right hquote' he) _

theorem Valid.quotes (h : Valid now s) (env : Env) : s.Quotes env := by
  have hspec {a q : ℕ} (hq : quoteXmrToEth env a s = .ok q) :
      0 < env.ethUsd.toNat ∧ s.xmrPriceLastUpdate ≤ env.timestamp
        ∧ env.timestamp ≤ s.xmrPriceLastUpdate + MAX_PRICE_AGE
        ∧ q = a * (s.xmrPrice * 10 ^ 18 / env.ethUsd.toNat) / 10 ^ 12 := by
    obtain ⟨rate, hrate, hq⟩ := quoteXmrToEth_eq hq
    obtain ⟨hpos, hupdated, hage, heq⟩ := getXmrToEthRate_eq hrate
    exact ⟨Int.pos_iff_toNat_pos.mp hpos, hupdated, hage, heq ▸ hq⟩
  have hbounds {a q : ℕ} (hq : quoteXmrToEth env a s = .ok q) :=
    mul_div_bounds (hspec hq).1 (by norm_num : 0 < 10 ^ 12) rfl (hspec hq).2.2.2
  refine ⟨?_, ?_, fun a q hq => (hbounds hq).1, fun a q hq => (hbounds hq).2, ?_⟩
  · exact fun a q hq => ⟨(hspec hq).2.1, (hspec hq).2.2.1⟩
  · intro a q hq htime
    have hage := (hspec hq).2.2.1
    by_contra hzero
    rw [h.unset (by omega), MAX_PRICE_AGE] at hage
    omega
  · intro a b x y z hx hy hz
    rw [(hspec hx).2.2.2, (hspec hy).2.2.2, (hspec hz).2.2.2, Nat.add_mul]
    generalize a * (s.xmrPrice * 10 ^ 18 / env.ethUsd.toNat) = u
    generalize b * (s.xmrPrice * 10 ^ 18 / env.ethUsd.toNat) = v
    omega

/-- **A quote is fresh and rounded down**, in every state that is reached, at any time and for any price of
ether after that. -/
theorem quotes_rounded {sender ethUsdFeed : Address} (hdeploy : deploy sender ethUsdFeed = .ok s)
    (txs : List (Env × Tx Msg)) (hsorted : txs.Pairwise fun t t' => t.1.timestamp ≤ t'.1.timestamp) :
    ∀ s' ∈ oracle.seenByAll txs s, ∀ env, s'.Quotes env := by
  have hvalid : Valid 0 s := deploy_valid hdeploy
  refine Contract.Upholds.seenByAll (c := oracle) (r := fun e e' => e.timestamp ≤ e'.timestamp)
    oracle_upholds ?_ (fun _ _ => Valid.quotes) hvalid.quotes txs (fun _ _ => deploy_valid hdeploy) hsorted
  exact fun _ _ _ hle h => h.later hle

theorem quotes_rounded_updates : updated.Quotes ⟨6000, 300000000000⟩ := by
  have hdeploy : deploy 1 5 = .ok deployed := rfl
  exact quotes_rounded hdeploy updates (by simp [updates]) updated (List.getLast_mem _) _

example : quoteXmrToEth ⟨6000, 300000000000⟩ (5 * 10 ^ 11) updated = .ok 24937500000000000 := by
  decide +kernel

end Sthrip.PriceOracle
