import Sthrip.Api.HubRouting
import Sthrip.Spending.DailyLimit

set_option autoImplicit false

/-! # What a rejected payment leaves recorded

The scripts record a spend as soon as it is within their own limit, and what they recorded stays when a
check after them rejects the payment, or a later step of the request raises. So a rejected payment
leaves the recorded spend as it was exactly when no script had recorded it (`records`).
-/

namespace Sthrip

open Redis

namespace SpendingPolicyService

/-- The recorded spend of the agent, as the script sums it up. -/
def dailySpend (db : SpendingDb) (now : ℚ) (agent_id : String) : ℚ :=
  (db.amounts.whole now (amountsKey (dailyKey agent_id))).values.sum

def sessionSpend (db : SpendingDb) (now : ℚ) (agent_id session_id : String) : ℚ :=
  (db.sessions.get now (sessionKey agent_id session_id)).getD 0

/-- Every agent has the same recorded spend in both. -/
def SameDaily (now : ℚ) (db db' : SpendingDb) : Prop :=
  ∀ agent_id, dailySpend db' now agent_id = dailySpend db now agent_id

def SameSessions (now : ℚ) (db db' : SpendingDb) : Prop :=
  ∀ agent_id session_id,
    sessionSpend db' now agent_id session_id = sessionSpend db now agent_id session_id

/-- No check before the daily limit raises. -/
def reachesLimits (texts : NumberTexts) (policy : SpendingPolicy) (amount : ℚ)
    (recipient_name : String) : Bool :=
  policy.is_active && (checkMaxPerTx texts policy amount).isOk &&
    (checkAllowedAgents policy recipient_name).isOk && (checkBlockedAgents policy recipient_name).isOk

def dailyRefuses (redis : Bool) (policy : SpendingPolicy) (amount now : ℚ) (db : SpendingDb) : Bool :=
  redis && policy.daily_limit.any fun limit => limit < dailySpend db now policy.agent_id + amount

/-- The spend is within the daily limit, and the hash does not have it yet. -/
def dailyRecords (redis : Bool) (policy : SpendingPolicy) (amount now : ℚ) (tx_id : String)
    (db : SpendingDb) : Bool :=
  redis &&
    (policy.daily_limit.any fun limit => dailySpend db now policy.agent_id + amount ≤ limit) &&
    !decide ((db.amounts.whole now (amountsKey (dailyKey policy.agent_id))).lookup tx_id = some amount)

def sessionRecords (redis : Bool) (policy : SpendingPolicy) (amount now : ℚ) (session_id : String)
    (db : SpendingDb) : Bool :=
  redis && policy.max_per_session.any fun limit =>
    sessionSpend db now policy.agent_id session_id + amount ≤ limit

/-- A script records the spend. -/
def records (texts : NumberTexts) (redis : Bool) (policy : SpendingPolicy) (amount : ℚ)
    (recipient_name session_id : String) (tx_id : Option String) (drawn now : ℚ) (db : SpendingDb) :
    Bool :=
  reachesLimits texts policy amount recipient_name &&
    (dailyRecords redis policy amount now (effectiveTxId texts drawn tx_id) db ||
      (!dailyRefuses redis policy amount now db &&
        sessionRecords redis policy amount now session_id db))

/-! ## Checks -/

/-- What a check leaves, whether it raises or not. -/
def Check.after (check : Check) (db : SpendingDb) : SpendingDb :=
  match check db with
  | .ok _ db => db
  | .error _ db => db

variable {texts : NumberTexts} {redis is_escrow : Bool} {policy : SpendingPolicy}
  {amount drawn now : ℚ} {recipient_name session_id : String} {tx_id : Option String}
  {db db' : SpendingDb}

theorem after_of_ok {check : Check} {next : Check} (h : check db = .ok () db') :
    Check.after (do check; next) db = next.after db' := by
  show Check.after (EStateM.bind check fun _ => next) db = _
  rw [Check.after, EStateM.bind, h, Check.after]

theorem after_of_error {check : Check} {next : Check} {e : PolicyViolation}
    (h : check db = .error e db') : Check.after (do check; next) db = db' := by
  show Check.after (EStateM.bind check fun _ => next) db = _
  rw [Check.after, EStateM.bind, h]

/-- A check that records nothing stands between what is before it and what is after it. -/
theorem after_ofExcept (x : Except PolicyViolation Unit) (next : Check) :
    Check.after (do Check.ofExcept x; next) db = if x.isOk then next.after db else db := by
  cases x with
  | error e => exact after_of_error rfl
  | ok u => exact after_of_ok rfl

/-- What records nothing does not matter at the end. -/
theorem after_then_ofExcept (check : Check) (x : Except PolicyViolation Unit) :
    Check.after (do check; Check.ofExcept x) db = check.after db := by
  cases hcheck : check db with
  | error e db' => rw [after_of_error hcheck, Check.after, hcheck]
  | ok u db' =>
      rw [after_of_ok hcheck, Check.after, Check.after, hcheck]
      cases x with
      | error e => rfl
      | ok u => rfl

theorem after_congr {check next next' : Check} (h : ∀ db, next.after db = next'.after db) :
    Check.after (do check; next) db = Check.after (do check; next') db := by
  cases hcheck : check db with
  | error e db' => rw [after_of_error hcheck, after_of_error hcheck]
  | ok u db' => rw [after_of_ok hcheck, after_of_ok hcheck, h]

/-- The scripts are reached when no check before them raises. -/
theorem after_validate :
    Check.after (validate texts redis policy amount recipient_name session_id is_escrow tx_id drawn
      now) db =
      if reachesLimits texts policy amount recipient_name then
        Check.after (do
          checkDailyLimit texts redis policy amount tx_id drawn now
          checkSessionLimit texts redis policy amount session_id now) db
      else db := by
  unfold validate reachesLimits
  cases policy.is_active with
  | false => rfl
  | true =>
      have hend : Check.after (do
          checkDailyLimit texts redis policy amount tx_id drawn now
          checkSessionLimit texts redis policy amount session_id now
          Check.ofExcept (checkRequireEscrowAbove texts policy amount is_escrow)) db =
          Check.after (do
            checkDailyLimit texts redis policy amount tx_id drawn now
            checkSessionLimit texts redis policy amount session_id now) db :=
        after_congr fun db => after_then_ofExcept _ _
      rw [if_neg (by decide), after_ofExcept, after_ofExcept, after_ofExcept, hend]
      simp only [Bool.true_and, Bool.and_eq_true, ite_and]

/-! ## The daily limit -/

theorem amountsKey_dailyKey_inj {a b : String}
    (h : amountsKey (dailyKey a) = amountsKey (dailyKey b)) : a = b := by
  unfold amountsKey dailyKey at h
  exact (String.append_right_inj _).mp ((String.append_left_inj _).mp h)

/-- What the script records shows, unless the hash has it already. -/
theorem sameDaily_record_iff (hamount : 0 < amount) (id : String) :
    SameDaily now db (db.record (dailyKey policy.agent_id) id amount now) ↔
      (db.amounts.whole now (amountsKey (dailyKey policy.agent_id))).lookup id = some amount := by
  have hlive : now ≤ now + (86400 + 60) := by linarith
  have hown : dailySpend (db.record (dailyKey policy.agent_id) id amount now) now policy.agent_id =
      dailySpend db now policy.agent_id -
        ((db.amounts.whole now (amountsKey (dailyKey policy.agent_id))).lookup id).getD 0 + amount := by
    rw [dailySpend, SpendingDb.record, Keyspace.whole_expireAt_write, if_pos hlive,
      Pairs.sum_values_insert, dailySpend]
  constructor
  · intro h
    have hsame := h policy.agent_id
    rw [hown] at hsame
    cases hid : (db.amounts.whole now (amountsKey (dailyKey policy.agent_id))).lookup id with
    | none =>
        rw [hid, Option.getD_none] at hsame
        linarith
    | some old =>
        rw [hid, Option.getD_some] at hsame
        have hold : old = amount := by linarith
        rw [hold]
  · intro hid agent_id
    by_cases ha : agent_id = policy.agent_id
    · subst ha
      rw [hown, hid, Option.getD_some, sub_add_cancel]
    · rw [dailySpend, SpendingDb.record,
        Keyspace.whole_expireAt_write_ne (mt amountsKey_dailyKey_inj ha), dailySpend]

/-- The daily limit refuses: the amounts are as before. -/
theorem checkDailyLimit_refuses (texts : NumberTexts) (tx_id : Option String) (drawn : ℚ)
    (h : dailyRefuses redis policy amount now db = true) :
    ∃ e, checkDailyLimit texts redis policy amount tx_id drawn now db =
      .error e (db.prune (dailyKey policy.agent_id) now) := by
  obtain ⟨rfl, hany⟩ := (Bool.and_eq_true _ _).mp h
  obtain ⟨limit, hlimit, hover⟩ := (Option.any_eq_true _ _).mp hany
  exact checkDailyLimit_over hlimit (of_decide_eq_true hover)

/-- The daily limit lets the spend through. -/
theorem checkDailyLimit_passes (texts : NumberTexts) (tx_id : Option String) (drawn : ℚ)
    (hamount : 0 < amount) (h : dailyRefuses redis policy amount now db = false) :
    ∃ db', checkDailyLimit texts redis policy amount tx_id drawn now db = .ok () db' ∧
      db'.sessions = db.sessions ∧
      (SameDaily now db db' ↔
        dailyRecords redis policy amount now (effectiveTxId texts drawn tx_id) db = false) := by
  have hskip : SameDaily now db db := fun _ => rfl
  cases hlimit : policy.daily_limit with
  | none =>
      refine ⟨db, ?_, rfl, iff_of_true hskip ?_⟩
      · rw [checkDailyLimit, hlimit]
        rfl
      · simp [dailyRecords, hlimit]
  | some limit =>
      cases redis with
      | false =>
          refine ⟨db, ?_, rfl, iff_of_true hskip rfl⟩
          rw [checkDailyLimit, hlimit]
          rfl
      | true =>
          have hroom : ¬limit < dailySpend db now policy.agent_id + amount := by
            simpa [dailyRefuses, hlimit] using h
          refine ⟨_, checkDailyLimit_within hlimit hroom, rfl, ?_⟩
          rw [sameDaily_record_iff hamount]
          simp [dailyRecords, hlimit, not_lt.mp hroom]

/-! ## The session limit -/

/-- What an accepted spend leaves of the counter of its session. -/
def SpendingDb.count (key : String) (amount now : ℚ) (db : SpendingDb) : SpendingDb :=
  { db with
    sessions := (db.sessions.put now key ((db.sessions.get now key).getD 0 + amount)).expireAt now key
      (now + 3600) }

theorem checkSessionLimit_over {limit : ℚ} (hlimit : policy.max_per_session = some limit)
    (hover : limit < sessionSpend db now policy.agent_id session_id + amount) :
    (checkSessionLimit texts true policy amount session_id now).after db = db := by
  unfold sessionSpend at hover
  rw [Check.after, checkSessionLimit, hlimit]
  simp only [↓reduceIte, sessionLimitLua, if_pos hover, Bool.false_eq_true]

theorem checkSessionLimit_within {limit : ℚ} (hlimit : policy.max_per_session = some limit)
    (hroom : ¬limit < sessionSpend db now policy.agent_id session_id + amount) :
    (checkSessionLimit texts true policy amount session_id now).after db =
      db.count (sessionKey policy.agent_id session_id) amount now := by
  unfold sessionSpend at hroom
  rw [Check.after, checkSessionLimit, hlimit]
  simp only [↓reduceIte, sessionLimitLua, if_neg hroom]
  rfl

theorem sessionSpend_count :
    sessionSpend (db.count (sessionKey policy.agent_id session_id) amount now) now policy.agent_id
      session_id = sessionSpend db now policy.agent_id session_id + amount := by
  have hlive : now ≤ now + 3600 := by linarith
  rw [sessionSpend, SpendingDb.count, Keyspace.get_expireAt_self, if_pos hlive,
    Keyspace.get_put_self, Option.getD_some, sessionSpend]

/-- The session limit touches no amounts, and what it counts shows. -/
theorem checkSessionLimit_after (texts : NumberTexts) (redis : Bool) (policy : SpendingPolicy)
    (session_id : String) (now : ℚ) (db : SpendingDb) (hamount : 0 < amount) :
    ((checkSessionLimit texts redis policy amount session_id now).after db).amounts = db.amounts ∧
      (SameSessions now db
        ((checkSessionLimit texts redis policy amount session_id now).after db) ↔
        sessionRecords redis policy amount now session_id db = false) := by
  have hskip : SameSessions now db db := fun _ _ => rfl
  cases hlimit : policy.max_per_session with
  | none =>
      rw [checkSessionLimit, hlimit]
      exact ⟨rfl, iff_of_true hskip (by simp [sessionRecords, hlimit])⟩
  | some limit =>
      cases redis with
      | false =>
          rw [checkSessionLimit, hlimit]
          exact ⟨rfl, iff_of_true hskip rfl⟩
      | true =>
          by_cases hover : limit < sessionSpend db now policy.agent_id session_id + amount
          · rw [checkSessionLimit_over hlimit hover]
            exact ⟨rfl, iff_of_true hskip (by simp [sessionRecords, hlimit, hover])⟩
          · rw [checkSessionLimit_within hlimit hover]
            refine ⟨rfl, iff_of_false ?_ (by simp [sessionRecords, hlimit, not_lt.mp hover])⟩
            intro hsame
            have hcount := hsame policy.agent_id session_id
            rw [sessionSpend_count] at hcount
            linarith

/-! ## A payment -/

theorem dailyRecords_of_refuses {id : String}
    (h : dailyRefuses redis policy amount now db = true) :
    dailyRecords redis policy amount now id db = false := by
  obtain ⟨rfl, hany⟩ := (Bool.and_eq_true _ _).mp h
  obtain ⟨limit, hlimit, hover⟩ := (Option.any_eq_true _ _).mp hany
  have hroom : ¬dailySpend db now policy.agent_id + amount ≤ limit :=
    not_le.mpr (of_decide_eq_true hover)
  simp [dailyRecords, hlimit, hroom]

theorem SameDaily.congr_right {db₁ db₂ : SpendingDb} (h : db₁.amounts = db₂.amounts) :
    SameDaily now db db₁ ↔ SameDaily now db db₂ := by
  unfold SameDaily dailySpend
  rw [h]

theorem SameSessions.congr_left {db₁ db₂ : SpendingDb} (h : db₁.sessions = db₂.sessions) :
    SameSessions now db₁ db ↔ SameSessions now db₂ db := by
  unfold SameSessions sessionSpend
  rw [h]

theorem sessionRecords_congr {db₁ db₂ : SpendingDb} (h : db₁.sessions = db₂.sessions) :
    sessionRecords redis policy amount now session_id db₁ =
      sessionRecords redis policy amount now session_id db₂ := by
  unfold sessionRecords sessionSpend
  rw [h]

/-- `validate` leaves the recorded spend as it was when no script records it. -/
theorem validate_keeps_iff (hamount : 0 < amount) :
    (SameDaily now db ((validate texts redis policy amount recipient_name session_id is_escrow tx_id
        drawn now).after db) ∧
      SameSessions now db ((validate texts redis policy amount recipient_name session_id is_escrow
        tx_id drawn now).after db)) ↔
      records texts redis policy amount recipient_name session_id tx_id drawn now db = false := by
  rw [after_validate, records]
  cases reachesLimits texts policy amount recipient_name with
  | false => exact iff_of_true ⟨fun _ => rfl, fun _ _ => rfl⟩ rfl
  | true =>
      rw [if_pos rfl, Bool.true_and]
      cases hrefuses : dailyRefuses redis policy amount now db with
      | true =>
          obtain ⟨e, hcheck⟩ := checkDailyLimit_refuses texts tx_id drawn hrefuses
          rw [after_of_error hcheck, dailyRecords_of_refuses hrefuses]
          exact iff_of_true ⟨fun _ => rfl, fun _ _ => rfl⟩ rfl
      | false =>
          obtain ⟨db', hcheck, hsessions, hdaily⟩ :=
            checkDailyLimit_passes texts tx_id drawn hamount hrefuses
          obtain ⟨hamounts, hsession⟩ :=
            checkSessionLimit_after texts redis policy session_id now db' hamount
          rw [after_of_ok hcheck, SameDaily.congr_right hamounts, hdaily,
            ← SameSessions.congr_left hsessions, hsession, sessionRecords_congr hsessions]
          simp

section Payments

variable {R E : Type}

/-- The handler records what `validate` does. -/
theorem sendHubRoutedPayment_state (texts : NumberTexts) (redis : Bool) (policy : SpendingPolicy)
    (amount drawn now : ℚ) (to_agent_name : String) (x_sthrip_session : Option String)
    (later : Except E R) (db : SpendingDb) :
    (sendHubRoutedPayment texts redis (.ok none) (some policy) amount to_agent_name x_sthrip_session
      drawn now later db).2 =
      (validate texts redis policy amount to_agent_name (hubSessionId x_sthrip_session) false none
        drawn now).after db := by
  cases hcheck : validate texts redis policy amount to_agent_name (hubSessionId x_sthrip_session)
      false none drawn now db with
  | error pv db' => simp only [sendHubRoutedPayment, Check.after, hcheck]
  | ok u db' =>
      cases later with
      | error e => simp only [sendHubRoutedPayment, Check.after, hcheck]
      | ok response => simp only [sendHubRoutedPayment, Check.after, hcheck]

/-- A payment that ends in an error leaves the recorded spend as it was exactly when no script had
recorded it. -/
theorem rejected_payment_keeps_spend_iff (texts : NumberTexts) (redis : Bool)
    (reserve : Except E (Option R)) (spending_policy : Option SpendingPolicy) (amount : ℚ)
    (hamount : 0 < amount) (to_agent_name : String) (x_sthrip_session : Option String)
    (drawn now : ℚ) (later : Except E R) (db db' : SpendingDb) (e : HubRoutingError E)
    (herror : sendHubRoutedPayment texts redis reserve spending_policy amount to_agent_name
      x_sthrip_session drawn now later db = (.error e, db')) :
    SameDaily now db db' ∧ SameSessions now db db' ↔
      ∀ policy, reserve = .ok none → spending_policy = some policy →
        records texts redis policy amount to_agent_name (hubSessionId x_sthrip_session) none drawn now
          db = false := by
  have hskip : SameDaily now db db ∧ SameSessions now db db := ⟨fun _ => rfl, fun _ _ => rfl⟩
  cases reserve with
  | error e' =>
      obtain ⟨-, rfl⟩ := Prod.mk.inj herror
      refine iff_of_true hskip ?_
      intro policy hreserve
      cases hreserve
  | ok cached =>
      cases cached with
      | some response => cases (Prod.mk.inj herror).1
      | none =>
          cases spending_policy with
          | none =>
              have hdb : db' = db := by
                unfold sendHubRoutedPayment at herror
                cases later with
                | error e' => exact (Prod.mk.inj herror).2.symm
                | ok response => exact (Prod.mk.inj herror).2.symm
              subst hdb
              refine iff_of_true hskip ?_
              intro policy _ hpolicy
              cases hpolicy
          | some policy =>
              have hdb := sendHubRoutedPayment_state texts redis policy amount drawn now to_agent_name
                x_sthrip_session later db
              rw [herror] at hdb
              change db' = _ at hdb
              rw [hdb, validate_keeps_iff hamount]
              constructor
              · intro hrecords p _ hp
                exact Option.some.inj hp ▸ hrecords
              · intro h
                exact h policy rfl rfl

/-- At most ten a day, and only with an escrow above one. -/
def escrowAboveOne : SpendingPolicy where
  agent_id := "a"
  daily_limit := some 10
  require_escrow_above := some 1

/-- Eleven above the daily limit of ten. -/
def overTen : Except (HubRoutingError Unit) Unit × SpendingDb :=
  sendHubRoutedPayment plainTexts true (.ok none) (some escrowAboveOne) 11 "b" none 0 0 (.ok ()) {}

/-- A payment above the daily limit leaves what was recorded. -/
theorem rejected_payment_keeps_spend_iff_over :
    ∃ e, overTen = (.error e, overTen.2) ∧
      (SameDaily 0 {} overTen.2 ∧ SameSessions 0 {} overTen.2 ↔
        ∀ policy, (.ok none : Except Unit (Option Unit)) = .ok none →
          some escrowAboveOne = some policy →
          records plainTexts true policy 11 "b" (hubSessionId none) none 0 0 {} = false) := by
  have hfails : overTen.1.isOk = false := by decide +kernel
  cases herror : overTen.1 with
  | error e =>
      have hresult : overTen = (.error e, overTen.2) := Prod.ext herror rfl
      exact ⟨e, hresult, rejected_payment_keeps_spend_iff plainTexts true (.ok none) _ 11 (by norm_num)
        "b" none 0 0 (.ok ()) {} overTen.2 e hresult⟩
  | ok response =>
      rw [herror] at hfails
      cases hfails

/-- A payment that needs an escrow is rejected, and uses up the daily limit. -/
theorem rejected_payment_recorded :
    let result : Except (HubRoutingError Unit) Unit × SpendingDb :=
      sendHubRoutedPayment plainTexts true (.ok none) (some escrowAboveOne) 5 "b" none 0 0 (.ok ()) {}
    result.1.isOk = false ∧ dailySpend {} 0 "a" = 0 ∧ dailySpend result.2 0 "a" = 5 := by
  decide +kernel

end Payments

end SpendingPolicyService

end Sthrip
