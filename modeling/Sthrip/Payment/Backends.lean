import Sthrip.Bitcoin.Script
import Sthrip.Payment.Atomicity
import Sthrip.Services.AuditLogger
import Sthrip.Services.PaymentDispatch

set_option autoImplicit false

/-! # The two backends of a hub payment

A payment is made once, by the TEE or here (`paid_once`), unless the TEE does its work and its answer
is lost, or the hash or the route that the payment gets is already there.
-/

namespace Sthrip

open Txn Prog BalanceRepository

/-- A payment keeps the balances whole. -/
theorem Paid.whole_all {db db' : DB schema} {tx_hash : String} {from_agent_id to_agent_id : Id}
    {token : Token} {amount fee : ℤ} {tx : Transaction}
    (h : Paid db db' tx_hash from_agent_id to_agent_id token amount fee tx)
    (hwhole : ∀ a, (balanceOf db a token).available ∈ decimals 12) (a : Id) :
    (balanceOf db' a token).available ∈ decimals 12 := by
  by_cases hfrom : a = from_agent_id
  · rw [hfrom]
    exact h.whole.1
  by_cases hto : a = to_agent_id
  · rw [hto]
    exact h.whole.2
  have hrow := h.others a token (fun hboth => hfrom hboth.1) (fun hboth => hto hboth.1)
  unfold balanceOf
  rw [hrow]
  exact hwhole a

namespace PaymentDispatch

/-- The payment debits its sender and credits its recipient once, and moves no other balance. -/
def PaidOnce (p : HubPayment) (db db' : DB schema) : Prop :=
  ∃ tx_hash fee tx, computeFee (amountPiconero p.amount) p.tier = .ok fee ∧
    Paid db db' tx_hash p.agent_id p.recipient.id .XMR (amountPiconero p.amount) fee tx

/-- What the columns of the database give. -/
structure Sound (st : Store schema) : Prop where
  wf : st.db.WF
  whole : ∀ a, (balanceOf st.db a .XMR).available ∈ decimals 12

section Backends

variable {p : HubPayment} {c : Circumstances} {st : Store schema} {key tx_hash : String}

theorem Sound.of_paidOnce {st' : Store schema} (hs : Sound st) (hwf : st'.db.WF)
    (h : PaidOnce p st.db st'.db) : Sound st' := by
  obtain ⟨tx_hash, fee, tx, -, hpaid⟩ := h
  exact ⟨hwf, hpaid.whole_all hs.whole⟩

/-- A session either leaves the store as it was, or makes the payment. -/
def Makes (p : HubPayment) (program : Program Transaction) (st : Store schema) : Prop :=
  program.always (fun _ _ _ => True)
    (fun _ v => v.saved = st.db ∧ v.ext = st.ext ∧ PaidOnce p st.db v.db)
    (fun _ v => v.saved = st.db ∧ v.ext = st.ext) (Solo.ofStore st)

theorem makes_transfer (hne : p.agent_id ≠ p.recipient.id) (hs : Sound st)
    (hfresh : st.db.rows (Key.transaction tx_hash) = none) (idempotency_key : Option String) :
    Makes p (transfer p tx_hash idempotency_key) st := by
  refine always_tryCatch (always_mono (createWithCommission_always hne hs.whole _) ?_ fun _ _ h => h)
  rintro tx v ⟨hsaved, hext, -, hdone⟩
  refine ⟨hsaved, hext, ?_⟩
  rcases hdone with ⟨-, hrow, -⟩ | ⟨fee, hfee, hpaid⟩
  · rw [hfresh] at hrow
    cases hrow
  · exact ⟨tx_hash, fee, tx, hfee, hpaid⟩

/-- The session in the TEE. -/
theorem makes_hubSession (hne : p.agent_id ≠ p.recipient.id) (hs : Sound st)
    (hfresh : st.db.rows (Key.transaction (teeHash key)) = none) : Makes p (hubSession p key) st := by
  refine always_bind (always_select ?_)
  refine always_bind (always_raiseIf (fun _ => ⟨rfl, rfl⟩) fun _ => ?_)
  exact makes_transfer hne hs hfresh (some key)

theorem Makes.serve {program : Program Transaction} (h : Makes p program st) (hs : Sound st)
    (x : ℕ → Input schema) :
    (∃ e, program.withSession.serve x st = (.error e, st)) ∨
      ∃ tx st', program.withSession.serve x st = (.ok tx, st') ∧ Sound st' ∧
        PaidOnce p st.db st'.db := by
  have halways : program.withSession.always (fun _ _ _ => True)
      (fun _ v => v.saved = v.db ∧ PaidOnce p st.db v.db) (fun _ v => v.saved = st.db ∧ v.ext = st.ext)
      (Solo.ofStore st) := by
    refine always_withSession (always_mono h ?_ fun _ _ h => h)
    rintro tx v ⟨hsaved, hext, hpaid⟩
    exact ⟨⟨rfl, hpaid⟩, fun _ _ _ => ⟨hsaved, hext⟩⟩
  obtain ⟨v, hstore, hwf, hends⟩ := always_serve halways hs.wf (meets_true _ x _)
  cases hrun : program.withSession.serve x st with
  | mk result st' =>
      rw [hrun] at hstore hends
      obtain rfl : st' = v.store := hstore
      cases result with
      | error e =>
          obtain ⟨hsaved, hext⟩ := hends
          left
          have hsame : v.store = st := by
            show Store.mk v.saved v.ext = st
            rw [hsaved, hext]
          exact ⟨e, by rw [hsame]⟩
      | ok tx =>
          obtain ⟨hsaved, hpaid⟩ := hends
          right
          have honce : PaidOnce p st.db v.store.db := by
            show PaidOnce p st.db v.saved
            rw [hsaved]
            exact hpaid
          exact ⟨tx, v.store, rfl, hs.of_paidOnce hwf.saved honce, honce⟩

/-- The TEE confirms a payment that it has made, or has done nothing. -/
theorem hubRouting_cases (hne : p.agent_id ≠ p.recipient.id) (hs : Sound st)
    (hfresh : st.db.rows (Key.transaction (teeHash key)) = none) :
    (∃ status_code detail, hubRouting p c key st = (.userError status_code detail, st)) ∨
      hubRouting p c key st = (.serverError, st) ∨
        ∃ payment_id fee st', hubRouting p c key st = (.ok payment_id fee, st') ∧ Sound st' ∧
          PaidOnce p st.db st'.db := by
  unfold hubRouting
  split
  · exact Or.inl ⟨_, _, rfl⟩
  split
  · exact Or.inl ⟨_, _, rfl⟩
  split
  · exact Or.inl ⟨_, _, rfl⟩
  rcases (makes_hubSession hne hs hfresh).serve hs c.tee with
    ⟨e, hrun⟩ | ⟨tx, st', hrun, hs', hpaid⟩
  · rw [hrun]
    cases e with
    | HTTPException status_code detail => exact Or.inl ⟨_, _, rfl⟩
    | _ => exact Or.inr (Or.inl rfl)
  · rw [hrun]
    exact Or.inr (Or.inr ⟨_, _, st', rfl, hs', hpaid⟩)

/-- A payment whose hash the TEE knows is not made. -/
theorem hubRouting_known (hs : Sound st) {tx : Transaction}
    (hknown : st.db.rows (Key.transaction (teeHash key)) = some tx) : (hubRouting p c key st).2 = st := by
  unfold hubRouting
  split
  · rfl
  split
  · rfl
  split
  · rfl
  next hpos =>
    have halways : (hubSession p key).withSession.always (fun _ _ _ => True)
        (fun _ v => v.saved = st.db ∧ v.ext = st.ext) (fun _ v => v.saved = st.db ∧ v.ext = st.ext)
        (Solo.ofStore st) := by
      refine always_withSession (always_bind (always_select ?_))
      refine always_bind (always_raiseIf (fun _ => ⟨rfl, rfl⟩) fun _ => ?_)
      exact always_tryCatch (createWithCommission_replay _ (not_le.mp hpos).le hknown key
        ⟨⟨rfl, rfl⟩, fun _ _ _ => ⟨rfl, rfl⟩⟩)
    obtain ⟨v, hstore, -, hends⟩ := always_serve halways hs.wf (meets_true _ c.tee _)
    generalize (hubSession p key).withSession.serve c.tee st = r at hstore hends
    obtain ⟨result, st'⟩ := r
    obtain rfl : st' = v.store := hstore
    have hsame : v.saved = st.db ∧ v.ext = st.ext := by
      cases result with
      | error e => exact hends
      | ok tx => exact hends
    have hstore : v.store = st := by
      show Store.mk v.saved v.ext = st
      rw [hsame.1, hsame.2]
    split
    · next heq => exact (congrArg Prod.snd heq).symm.trans hstore
    · next heq => exact (congrArg Prod.snd heq).symm.trans hstore
    · next heq => exact (congrArg Prod.snd heq).symm.trans hstore

/-- What a backend does with a payment. -/
structure Settles (p : HubPayment) (s : Hub) (r : Except Exn Route × Hub) : Prop where
  sound : Sound r.2.store
  once : ∀ route, r.1 = .ok route → PaidOnce p s.store.db r.2.store.db

theorem settles_error {s s' : Hub} {e : Exn} (hs : Sound s'.store) : Settles p s (.error e, s') :=
  ⟨hs, nofun⟩

/-- Nothing is recorded under the id. -/
def Fresh (s : Hub) (payment_id : String) : Prop :=
  s.routes payment_id = none ∧ s.store.db.rows (Key.transaction payment_id) = none

variable {str : Id → String} {sha256 : String → String} {s : Hub}

theorem localDispatch_settles {idempotency_key : Option String} (hne : p.agent_id ≠ p.recipient.id)
    (hs : Sound s.store) (hfresh : Fresh s (paymentId str sha256 p idempotency_key c.token_hex)) :
    Settles p s (localDispatch str sha256 p c idempotency_key s) := by
  obtain ⟨hroute, hrow⟩ := hfresh
  unfold localDispatch
  simp only [hroute]
  rcases (makes_transfer hne hs hrow idempotency_key).serve hs c.here with
    ⟨e, hrun⟩ | ⟨tx, st', hrun, hs', hpaid⟩
  · rw [hrun]
    exact settles_error hs
  · rw [hrun]
    exact ⟨hs', fun _ _ => hpaid⟩

end Backends

/-! ## Sequences of payments -/

section Runs

variable (str : Id → String) (sha256 : String → String)

/-- The condition on a payment: the TEE's answer is not lost once it has done its work; its hash is new to
the TEE, and where the payment is made here, so is its id. -/
def Meets (p : HubPayment) (c : Circumstances) (s : Hub) : Prop :=
  let key := teeKey str sha256 p
  let fallback := Fresh s (paymentId str sha256 p (some key) c.token_hex)
  reserve p c s = .reserved →
    if c.tee_enabled = true then
      match c.outcome with
      | .answers =>
          s.store.db.rows (Key.transaction (teeHash key)) = none ∧
            ((hubRouting p c key s.store).1.isServerError = true → fallback)
      | .unreached => fallback
      | .lost => False
      | .late => False
    else Fresh s (paymentId str sha256 p p.idempotency_key c.token_hex)

/-- A payment that has been answered, with the database before and after. -/
structure Answered where
  payment : HubPayment
  answer : Answer
  before : DB schema
  after : DB schema

/-- An accepted payment has been made once. -/
def Answered.Exact (a : Answered) : Prop := a.answer.accepted = true → PaidOnce a.payment a.before a.after

structure Config where
  hub : Hub
  answered : List Answered := []

/-- Every accepted payment has been made once. -/
def Config.Exact (cfg : Config) : Prop := ∀ a ∈ cfg.answered, a.Exact

def Config.step (cfg : Config) (p : HubPayment) (c : Circumstances) : Config :=
  let r := sendHubPayment str sha256 p c cfg.hub
  { hub := r.2
    answered := { payment := p, answer := r.1, before := cfg.hub.store.db, after := r.2.store.db }
      :: cfg.answered }

/-- The configurations that sequences lead to whose payments meet `Ok`. -/
inductive Reaches (Ok : HubPayment → Circumstances → Hub → Prop) (start : Hub) : Config → Prop where
  | refl : Reaches Ok start { hub := start }
  | step {cfg : Config} (p : HubPayment) (c : Circumstances) : Reaches Ok start cfg → Ok p c cfg.hub →
      Reaches Ok start (cfg.step str sha256 p c)

variable {str sha256} {p : HubPayment} {c : Circumstances} {s : Hub}

theorem teeDispatch_settles (hne : p.agent_id ≠ p.recipient.id) (hs : Sound s.store)
    (hmeets : Meets str sha256 p c s) (hreserved : reserve p c s = .reserved)
    (hon : c.tee_enabled = true) : Settles p s (teeDispatch str sha256 p c s) := by
  have hcond := hmeets hreserved
  rw [if_pos hon] at hcond
  unfold teeDispatch
  dsimp only
  cases hout : c.outcome with
  | answers =>
      rw [hout] at hcond
      obtain ⟨hfresh, hfallback⟩ := hcond
      rcases hubRouting_cases hne hs hfresh with
        ⟨status_code, detail, hrun⟩ | hrun | ⟨payment_id, fee, st', hrun, hs', hpaid⟩
      · rw [hrun]
        exact settles_error hs
      · rw [hrun] at hfallback ⊢
        exact localDispatch_settles hne hs (hfallback rfl)
      · rw [hrun]
        dsimp only
        split
        · exact settles_error hs'
        · exact ⟨hs', fun _ _ => hpaid⟩
  | unreached =>
      rw [hout] at hcond
      exact localDispatch_settles hne hs hcond
  | lost =>
      rw [hout] at hcond
      exact hcond.elim
  | late =>
      rw [hout] at hcond
      exact hcond.elim

theorem dispatch_settles (hne : p.agent_id ≠ p.recipient.id) (hs : Sound s.store)
    (hmeets : Meets str sha256 p c s) (hreserved : reserve p c s = .reserved) :
    Settles p s (dispatchHubRouting str sha256 p c s) := by
  unfold dispatchHubRouting
  split
  · next hon => exact teeDispatch_settles hne hs hmeets hreserved hon
  · next hoff =>
      have hcond := hmeets hreserved
      rw [if_neg hoff] at hcond
      exact localDispatch_settles hne hs hcond

theorem storeResponse_store (r : HubPaymentResponse) : (storeResponse p r s).store = s.store := by
  unfold storeResponse
  split <;> rfl

/-- The step lemma. -/
theorem sendHubPayment_settles {r : Answer × Hub} (hr : sendHubPayment str sha256 p c s = r)
    (hs : Sound s.store) (hmeets : Meets str sha256 p c s) :
    Sound r.2.store ∧ (r.1.accepted = true → PaidOnce p s.store.db r.2.store.db) := by
  unfold sendHubPayment at hr
  cases hreserve : reserve p c s with
  | reserved =>
      rw [hreserve] at hr
      dsimp only at hr
      split at hr
      · rw [← hr]
        exact ⟨hs, nofun⟩
      · next hne =>
          obtain ⟨hs', honce⟩ := dispatch_settles hne hs hmeets hreserve
          generalize dispatchHubRouting str sha256 p c s = d at hr hs' honce
          obtain ⟨result, s'⟩ := d
          cases result with
          | error e =>
              rw [← hr]
              exact ⟨hs', nofun⟩
          | ok route =>
              have hpaid := honce route rfl
              dsimp only at hr
              split at hr
              · rw [← hr]
                exact ⟨hs', fun _ => hpaid⟩
              · rw [← hr, storeResponse_store]
                exact ⟨hs', fun _ => hpaid⟩
  | cached _ | conflict | keyReuse =>
      rw [hreserve] at hr
      rw [← hr]
      exact ⟨hs, nofun⟩

/-- The run lemma. -/
theorem sound_of_reaches {start : Hub} {cfg : Config} (hs : Sound start.store)
    (h : Reaches str sha256 (Meets str sha256) start cfg) : Sound cfg.hub.store ∧ cfg.Exact := by
  induction h with
  | refl => exact ⟨hs, fun a ha => absurd ha List.not_mem_nil⟩
  | step p c _ hmeets ih =>
      unfold Config.step
      generalize hr : sendHubPayment str sha256 p c _ = r
      obtain ⟨hsound, hexact⟩ := sendHubPayment_settles hr ih.1 hmeets
      refine ⟨hsound, fun a ha => ?_⟩
      rcases List.mem_cons.mp ha with rfl | ha
      · exact hexact
      · exact ih.2 a ha

/-- **The backends agree**: in a sequence whose payments all meet the condition, each accepted payment
debits its sender and credits its recipient exactly once, whichever way it takes. -/
theorem paid_once {start : Hub} {cfg : Config} (hs : Sound start.store)
    (h : Reaches str sha256 (Meets str sha256) start cfg) : cfg.Exact :=
  (sound_of_reaches hs h).2

instance (s : Hub) (payment_id : String) : Decidable (Fresh s payment_id) := by
  unfold Fresh
  infer_instance

instance (str : Id → String) (sha256 : String → String) (p : HubPayment) (c : Circumstances) (s : Hub) :
    Decidable (Meets str sha256 p c s) := by
  unfold Meets
  dsimp only
  cases c.outcome <;> infer_instance

/-- Make payments, one after the other. -/
def run (str : Id → String) (sha256 : String → String) (l : List (HubPayment × Circumstances))
    (cfg : Config) : Config := l.foldl (fun cfg pc => cfg.step str sha256 pc.1 pc.2) cfg

/-- Does every payment of a sequence meet the condition? -/
def passes (str : Id → String) (sha256 : String → String) :
    List (HubPayment × Circumstances) → Config → Bool
  | [], _ => true
  | pc :: l, cfg =>
      Meets str sha256 pc.1 pc.2 cfg.hub && passes str sha256 l (cfg.step str sha256 pc.1 pc.2)

theorem reaches_of_passes {start : Hub} {cfg : Config} {l : List (HubPayment × Circumstances)}
    (h : Reaches str sha256 (Meets str sha256) start cfg) (hpasses : passes str sha256 l cfg = true) :
    Reaches str sha256 (Meets str sha256) start (run str sha256 l cfg) := by
  induction l generalizing cfg with
  | nil => exact h
  | cons pc l ih =>
      obtain ⟨hmeets, hrest⟩ := Bool.and_eq_true_iff.mp hpasses
      exact ih (.step pc.1 pc.2 h (of_decide_eq_true hmeets)) hrest

theorem reaches_always {start : Hub} {cfg : Config} (l : List (HubPayment × Circumstances))
    (h : Reaches str sha256 (fun _ _ _ => True) start cfg) :
    Reaches str sha256 (fun _ _ _ => True) start (run str sha256 l cfg) := by
  induction l generalizing cfg with
  | nil => exact h
  | cons pc l ih => exact ih (.step pc.1 pc.2 h trivial)

/-- `hashlib.sha256(s.encode()).hexdigest()` -/
def hexdigest (s : String) : String :=
  String.ofList ((Bitcoin.sha256 s.toUTF8.toList).flatMap fun b => Audit.hexDigits 2 b.toNat)

/-- Agents 1 and 2 have ten units each. -/
def funded : Hub where
  store :=
    { db :=
        { rows := fun
            | .agent id => if id = 1 ∨ id = 2 then some {} else none
            | .balance id token =>
                if (id = 1 ∨ id = 2) ∧ token = .XMR then some { available := 10 } else none
            | _ => none
          keys := [.agent 1, .agent 2, .balance 1 .XMR, .balance 2 .XMR]
          log := [] }
      ext := default }

theorem sound_funded : Sound funded.store := by
  refine ⟨⟨by decide, fun k => ?_⟩, fun a => ?_⟩
  · cases k with
    | agent id => by_cases h : id = 1 ∨ id = 2 <;> simp [funded, h]
    | balance id token =>
        simp only [funded]
        split
        · next h => simp [h.1, h.2]
        · next h =>
            have hxmr (hid : id = 1 ∨ id = 2) : token ≠ .XMR := fun ht => h ⟨hid, ht⟩
            simpa using ⟨fun hid => hxmr (.inl hid), fun hid => hxmr (.inr hid)⟩
    | _ => simp [funded]
  · by_cases ha : a = 1 ∨ a = 2
    · exact mem_decimals.mpr ⟨10 ^ 13, by norm_num [balanceOf, funded, ha]⟩
    · have hrow : funded.store.db.rows (Key.balance a .XMR) = none := by simp [funded, ha]
      rw [balanceOf, hrow]
      exact zero_mem _

/-- One unit to agent 3. -/
def payOne (agent_id : Id) (idempotency_key : Option String) : HubPayment :=
  { agent_id, idempotency_key, amount := 1, amount_text := "1"
    recipient := { id := 3, agent_name := "carol", xmr_address := "4A" } }

/-- Through the TEE with a key, by the fallback without one, and here. -/
def threeWays : List (HubPayment × Circumstances) :=
  [(payOne 1 (some "first-01"), {}), (payOne 1 none, { outcome := .unreached }),
    (payOne 2 none, { tee_enabled := false, token_hex := "00" })]

theorem paid_once_threeWays : (run Audit.uuidStr hexdigest threeWays { hub := funded }).Exact :=
  paid_once sound_funded (reaches_of_passes .refl (by decide +kernel))

/-- Is each payment accepted, and what has its sender then? -/
def told (l : List (HubPayment × Circumstances)) : List (Bool × ℚ) :=
  (run Audit.uuidStr hexdigest l { hub := funded }).answered.map fun a =>
    (a.answer.accepted, (balanceOf a.after a.payment.agent_id .XMR).available)

/-- Two agents have one key: the second is told that its payment is confirmed, and pays nothing. -/
example : told [(payOne 1 (some "first-01"), {}), (payOne 2 (some "first-01"), {})]
    = [(true, 10), (true, 8997 / 1000)] := by decide +kernel

/-- Two equal payments without a key are one in the TEE. -/
example : told [(payOne 1 none, {}), (payOne 1 none, {})]
    = [(true, 8997 / 1000), (true, 8997 / 1000)] := by decide +kernel

/-- The TEE makes the payment, its answer is lost, and the fallback makes it again. -/
theorem lost_charged_twice : ¬∀ (start : Hub) (cfg : Config), Sound start.store →
    Reaches Audit.uuidStr hexdigest (fun _ _ _ => True) start cfg → cfg.Exact := by
  intro h
  have hexact := h funded _ sound_funded
    (reaches_always [(payOne 1 (some "first-01"), { outcome := .lost })] .refl) _ (List.mem_cons_self ..)
  obtain ⟨tx_hash, fee, tx, hfee, hpaid⟩ := hexact (by decide +kernel)
  have hamount : computeFee (amountPiconero 1) .FREE = .ok (3 * 10 ^ 9) := by decide +kernel
  obtain rfl : 3 * 10 ^ 9 = fee := Except.ok.inj (hamount.symm.trans hfee)
  exact absurd hpaid.sender (by decide +kernel)

end Runs

end PaymentDispatch

end Sthrip
