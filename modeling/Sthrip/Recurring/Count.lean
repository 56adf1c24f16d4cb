import Sthrip.Services.RecurringService
import Mathlib.Algebra.BigOperators.Group.List.Basic
import Mathlib.Algebra.Group.Submonoid.BigOperators
import Mathlib.Tactic.Linarith

set_option autoImplicit false

/-! # How often a recurring payment is made

A payment with `max_payments = n` is to be made `n` times. The sweep counts one payment too many: it
adds one to the counter of the loaded object, which the update before has already raised. So the
payment stops after `n - 1` times, unless `n` is 1. The books are right: the counter and the total
are those of the transfers, and there is at most one transfer for each interval that has passed.
-/

namespace Sthrip

open Txn RecurringService

/-! ## A sweep and one payment -/

/-- A sweep, with what the agents have when it begins. -/
structure RecurringSweep where
  now : Time
  clock : Id → Time
  ids : List Id
  available : Id → ℚ

namespace RecurringState

/-- The transfers of a payment. -/
def transfersOf (s : RecurringState) (p : Id) : List RecurringTransfer :=
  s.transfers.filter fun t => t.payment_id = p

end RecurringState

namespace RecurringSweep

variable (col : Columns)

def start (r : RecurringSweep) (s : RecurringState) : RecurringState :=
  { s with available := r.available }

/-- The payments that the sweep finds due. -/
def due (r : RecurringSweep) (s : RecurringState) : List Id :=
  r.ids.filter fun id => (s.payments id).any (RecurringPaymentRepository.due r.now)

/-- The loop over some payments. -/
def loop (r : RecurringSweep) (ids : List Id) (s : RecurringState) : RecurringState :=
  ids.foldl (fun s id => (s.payments id).elim s fun payment =>
    executePayment col (r.clock id) id payment s) s

def apply (r : RecurringSweep) (s : RecurringState) : RecurringState :=
  executeDuePayments col r.now r.clock r.ids (r.start s)

/-- The sweep lists the payment once, and its clock does not go back. -/
structure Lists (r : RecurringSweep) (p : Id) : Prop where
  nodup : r.ids.Nodup
  mem : p ∈ r.ids
  clock : r.now ≤ r.clock p

/-- When the loop comes to the payment, its sender has the amount. -/
def Funds (r : RecurringSweep) (p : Id) (s : RecurringState) : Prop :=
  ∀ pre post payment, r.due s = pre ++ p :: post → s.payments p = some payment →
    payment.amount ≤ (r.loop col pre (r.start s)).available payment.from_agent_id

/-- How often a payment that never stops would be made: at each sweep that comes at `next` or later,
and then an interval later. -/
def occasions (p : Id) (length : Time) : Time → List RecurringSweep → ℕ
  | _, [] => 0
  | next, r :: l =>
      if next ≤ r.now then occasions p length (r.clock p + length) l + 1
      else occasions p length next l

end RecurringSweep

/-- The row after the payment is made. -/
def RecurringPayment.paidAt (col : Columns) (now : Time) (payment : RecurringPayment) :
    RecurringPayment :=
  { payment with
    payments_made := payment.payments_made + 1
    total_paid := col 8 (payment.total_paid + payment.amount)
    last_payment_at := some now
    next_payment_at := calculateNextPayment payment.interval now
    is_active := !payment.max_payments.any (· ≤ payment.payments_made + 2) && payment.is_active
    cancelled_at := if payment.max_payments.any (· ≤ payment.payments_made + 2) then some now
      else payment.cancelled_at }

namespace RecurringService

variable {col : Columns} {now : Time} {p q : Id} {payment : RecurringPayment} {s : RecurringState}

/-- What the loop does with one payment. -/
theorem executePayment_paid (col : Columns) (now : Time) (p : Id) (hactive : payment.is_active = true)
    (hfunds : payment.amount ≤ s.available payment.from_agent_id) :
    (executePayment col now p payment s).payments
        = Function.update s.payments p (some (payment.paidAt col now)) ∧
      (executePayment col now p payment s).transfers = s.transfers ++ [⟨p, payment.amount, now⟩] := by
  have hnot : ¬s.available payment.from_agent_id < payment.amount := not_lt.mpr hfunds
  refine ⟨?_, ?_⟩
  · simp only [executePayment, hactive, Bool.true_eq_false, if_false, hnot]
    congr 2
    show LoadedPayment.row (if payment.max_payments.any (· ≤ payment.payments_made + 2) = true then
      RecurringPaymentRepository.cancel now (RecurringPaymentRepository.recordPayment col now
        (calculateNextPayment payment.interval now) ⟨payment, payment⟩)
      else RecurringPaymentRepository.recordPayment col now
        (calculateNextPayment payment.interval now) ⟨payment, payment⟩) = _
    unfold RecurringPayment.paidAt
    by_cases hmax : payment.max_payments.any (· ≤ payment.payments_made + 2) = true
    · simp only [hmax, if_true, Bool.not_true, Bool.false_and]
      rfl
    · simp only [hmax, Bool.not_false, Bool.true_and]
      rfl
  · simp only [executePayment, hactive, Bool.true_eq_false, if_false, hnot]

/-- A payment leaves the others alone. -/
theorem executePayment_other (h : q ≠ p) :
    (executePayment col now p payment s).payments q = s.payments q ∧
      (executePayment col now p payment s).transfersOf q = s.transfersOf q := by
  unfold executePayment
  split
  · exact ⟨rfl, rfl⟩
  · split
    · exact ⟨rfl, rfl⟩
    · refine ⟨Function.update_of_ne h _ _, ?_⟩
      simp [RecurringState.transfersOf, h.symm]

end RecurringService

namespace RecurringSweep

variable {col : Columns} {p : Id} {payment : RecurringPayment} {r : RecurringSweep}
  {s : RecurringState}

theorem loop_other (col : Columns) (r : RecurringSweep) (s : RecurringState) {ids : List Id}
    (h : p ∉ ids) :
    (r.loop col ids s).payments p = s.payments p ∧
      (r.loop col ids s).transfersOf p = s.transfersOf p := by
  induction ids generalizing s with
  | nil => exact ⟨rfl, rfl⟩
  | cons q ids ih =>
      obtain ⟨hpq, hids⟩ := not_or.mp (mt List.mem_cons.mpr h)
      obtain ⟨hpay, htr⟩ := ih ((s.payments q).elim s fun payment =>
        executePayment col (r.clock q) q payment s) hids
      have hone : ((s.payments q).elim s fun payment =>
          executePayment col (r.clock q) q payment s).payments p = s.payments p ∧
          ((s.payments q).elim s fun payment =>
            executePayment col (r.clock q) q payment s).transfersOf p = s.transfersOf p := by
        cases s.payments q with
        | none => exact ⟨rfl, rfl⟩
        | some payment => exact executePayment_other hpq
      exact ⟨hpay.trans hone.1, htr.trans hone.2⟩

theorem apply_eq_loop : r.apply col s = r.loop col (r.due s) (r.start s) := rfl

/-- A payment that is not due stays as it is. -/
theorem apply_not_due (col : Columns) (hp : s.payments p = some payment)
    (hdue : RecurringPaymentRepository.due r.now payment = false) :
    (r.apply col s).payments p = some payment ∧
      (r.apply col s).transfersOf p = s.transfersOf p := by
  have hnot : p ∉ r.due s := by
    intro hmem
    have := (List.mem_filter.mp hmem).2
    rw [hp, Option.any_some, hdue] at this
    cases this
  obtain ⟨hpay, htr⟩ := loop_other col r (r.start s) hnot
  exact ⟨hpay.trans hp, htr⟩

/-- A payment that is due is made once. -/
theorem apply_due (hr : r.Lists p) (hp : s.payments p = some payment) (hfunds : r.Funds col p s)
    (hdue : RecurringPaymentRepository.due r.now payment = true) :
    (r.apply col s).payments p = some (payment.paidAt col (r.clock p)) ∧
      (r.apply col s).transfersOf p = s.transfersOf p ++ [⟨p, payment.amount, r.clock p⟩] := by
  have hmem : p ∈ r.due s :=
    List.mem_filter.mpr ⟨hr.mem, by rw [hp, Option.any_some, hdue]⟩
  obtain ⟨pre, post, heq⟩ := List.append_of_mem hmem
  have hnodup : (pre ++ p :: post).Nodup := heq ▸ hr.nodup.filter _
  -- the sweep lists the payment once
  have hpre : p ∉ pre := by
    intro hin
    exact (List.nodup_append.mp hnodup).2.2 p hin p (List.mem_cons_self ..) rfl
  have hpost : p ∉ post := (List.nodup_cons.mp (List.nodup_append.mp hnodup).2.1).1
  have hamount := hfunds pre post payment heq hp
  obtain ⟨hpay₁, htr₁⟩ := loop_other col r (r.start s) hpre
  have hp₁ : (r.loop col pre (r.start s)).payments p = some payment := hpay₁.trans hp
  have hactive : payment.is_active = true := (of_decide_eq_true hdue).1
  obtain ⟨hpay₂, htr₂⟩ := executePayment_paid col (r.clock p) p hactive hamount
  have hloop : r.apply col s = r.loop col post
      (executePayment col (r.clock p) p payment (r.loop col pre (r.start s))) := by
    rw [apply_eq_loop, heq]
    unfold loop
    rw [List.foldl_append, List.foldl_cons]
    congr 1
    exact congrArg (fun o => Option.elim o _ _) hp₁
  obtain ⟨hpay₃, htr₃⟩ := loop_other col r
    (executePayment col (r.clock p) p payment (r.loop col pre (r.start s))) hpost
  -- what comes before and after in the list leaves the payment alone
  rw [hloop]
  refine ⟨hpay₃.trans (by rw [hpay₂, Function.update_self]), htr₃.trans ?_⟩
  show List.filter _ _ = _
  rw [htr₂, List.filter_append, List.filter_singleton]
  simp only [decide_true]
  congr 1

/-! ## The books -/

/-- A payment of `n`, and the transfers made for it since `t₀`. -/
structure Booked (n : ℕ) (t₀ : Time) (length : Time) (amount : ℚ) (payment : RecurringPayment)
    (transfers : List RecurringTransfer) : Prop where
  max : payment.max_payments = some n
  interval : payment.interval.length = length
  amount_eq : payment.amount = amount
  digits : amount ∈ decimals 8
  made : payment.payments_made = transfers.length
  total : payment.total_paid = (transfers.map (·.amount)).sum
  amounts : ∀ t ∈ transfers, t.amount = amount
  /-- The transfer number `i`, from 0 on, comes after `i + 1` intervals. -/
  spaced : ∀ pre t post, transfers = pre ++ t :: post → t₀ + (pre.length + 1) * length ≤ t.time
  next : t₀ + (transfers.length + 1) * length ≤ payment.next_payment_at

variable {n : ℕ} {t₀ length : Time} {amount : ℚ} {transfers : List RecurringTransfer}

/-- The sum of transfers is a sum of decimals. -/
theorem Booked.total_mem (h : Booked n t₀ length amount payment transfers) :
    payment.total_paid ∈ decimals 8 := by
  rw [h.total]
  refine list_sum_mem fun x hx => ?_
  obtain ⟨t, ht, rfl⟩ := List.mem_map.mp hx
  rw [h.amounts t ht]
  exact h.digits

/-- A payment that is due is booked. -/
theorem Booked.paidAt (h : Booked n t₀ length amount payment transfers)
    (hdue : RecurringPaymentRepository.due r.now payment = true) (hclock : r.now ≤ r.clock p) :
    Booked n t₀ length amount (payment.paidAt Columns.rounding (r.clock p))
      (transfers ++ [⟨p, payment.amount, r.clock p⟩]) := by
  have hnext : payment.next_payment_at ≤ r.now := (of_decide_eq_true hdue).2
  have hlast : t₀ + (transfers.length + 1) * length ≤ r.clock p :=
    h.next.trans (hnext.trans hclock)
  refine ⟨h.max, h.interval, h.amount_eq, h.digits, ?_, ?_, fun t ht => ?_, fun pre t post heq => ?_,
    ?_⟩
  · show payment.payments_made + 1 = _
    rw [h.made, List.length_append, List.length_singleton]
  · show Columns.rounding 8 (payment.total_paid + payment.amount) = _
    -- the column keeps the sum as it is
    have hmem : payment.total_paid + payment.amount ∈ decimals 8 :=
      AddSubgroup.add_mem _ h.total_mem (h.amount_eq ▸ h.digits)
    rw [Columns.rounding_keeps 8 _ hmem, h.total, List.map_append, List.sum_append]
    simp
  · rcases List.mem_append.mp ht with ht | ht
    · exact h.amounts t ht
    · rw [List.mem_singleton.mp ht]
      exact h.amount_eq
  · rcases List.eq_nil_or_concat post with rfl | ⟨post', t', rfl⟩
    · obtain ⟨rfl, ht⟩ := List.append_inj' heq rfl
      obtain rfl := (List.cons.inj ht).1
      exact hlast
    · have hsplit : transfers ++ [⟨p, payment.amount, r.clock p⟩] = (pre ++ t :: post') ++ [t'] := by
        rw [heq]
        simp
      exact h.spaced pre t post' (List.append_inj' hsplit rfl).1
  · show t₀ + ((transfers ++ [_]).length + 1) * length ≤ r.clock p + payment.interval.length
    rw [h.interval, List.length_append, List.length_singleton]
    push_cast
    linarith

/-! ## Runs -/

/-- The state after some sweeps. -/
def applyAll (col : Columns) (s : RecurringState) (l : List RecurringSweep) : RecurringState :=
  l.foldl (fun s r => r.apply col s) s

/-- Each sweep finds the amount with the sender. -/
def FundsAll (col : Columns) (p : Id) : RecurringState → List RecurringSweep → Prop
  | _, [] => True
  | s, r :: l => r.Funds col p s ∧ FundsAll col p (r.apply col s) l

/-- How often the code makes a payment of `n`. -/
def stopsAfter (n : ℕ) : ℕ := if n = 1 then 1 else n - 1

/-- A payment that is made once more goes on iff it has not been made often enough for the code. -/
theorem Booked.paidAt_active_iff (h : Booked n t₀ length amount payment transfers)
    (hactive : payment.is_active = true) (hleft : transfers.length < stopsAfter n) (now : Time) :
    (payment.paidAt Columns.rounding now).is_active = true ↔ transfers.length + 1 < stopsAfter n := by
  show (!payment.max_payments.any (· ≤ payment.payments_made + 2) && payment.is_active) = true ↔ _
  rw [hactive, h.max, h.made, Bool.and_true, Option.any_some, Bool.not_eq_true',
    decide_eq_false_iff_not]
  -- the object already counts the payment when the code adds one to it
  unfold stopsAfter at hleft ⊢
  split at hleft
  · next hone =>
      rw [if_pos hone]
      omega
  · next hone =>
      rw [if_neg hone]
      omega

/-- A payment that has stopped. -/
theorem applyAll_stopped (col : Columns) (l : List RecurringSweep) (hp : s.payments p = some payment)
    (hstop : payment.is_active = false) :
    (applyAll col s l).payments p = some payment ∧
      (applyAll col s l).transfersOf p = s.transfersOf p := by
  induction l generalizing s with
  | nil => exact ⟨hp, rfl⟩
  | cons r l ih =>
      have hdue : RecurringPaymentRepository.due r.now payment = false := by
        simp [RecurringPaymentRepository.due, hstop]
      obtain ⟨hpay, htr⟩ := apply_not_due col hp hdue
      obtain ⟨hpay', htr'⟩ := ih hpay
      exact ⟨hpay', htr'.trans htr⟩

/-- The run lemma: the books are right after any sweeps, and the payment is made at each occasion
until it stops. -/
theorem applyAll_booked {l : List RecurringSweep} (hlists : ∀ r ∈ l, r.Lists p)
    (hfunds : FundsAll Columns.rounding p s l) (hp : s.payments p = some payment)
    (hactive : payment.is_active = true)
    (hbooked : Booked n t₀ length amount payment (s.transfersOf p))
    (hleft : (s.transfersOf p).length < stopsAfter n) :
    ∃ payment', (applyAll Columns.rounding s l).payments p = some payment' ∧
      Booked n t₀ length amount payment' ((applyAll Columns.rounding s l).transfersOf p) ∧
      ((applyAll Columns.rounding s l).transfersOf p).length
        = min ((s.transfersOf p).length + occasions p length payment.next_payment_at l)
            (stopsAfter n) ∧
      (payment'.is_active = true ↔
        (s.transfersOf p).length + occasions p length payment.next_payment_at l < stopsAfter n) := by
  induction l generalizing s payment with
  | nil =>
      refine ⟨payment, hp, hbooked, ?_, fun _ => hleft, fun _ => hactive⟩
      exact (Nat.min_eq_left hleft.le).symm
  | cons r l ih =>
      have hr := hlists r (List.mem_cons_self ..)
      have hl := fun r' hr' => hlists r' (List.mem_cons_of_mem r hr')
      have hcons : applyAll Columns.rounding s (r :: l)
          = applyAll Columns.rounding (r.apply Columns.rounding s) l := rfl
      rw [hcons]
      by_cases hnext : payment.next_payment_at ≤ r.now
      · have hdue : RecurringPaymentRepository.due r.now payment = true := by
          simp [RecurringPaymentRepository.due, hactive, hnext]
        obtain ⟨hpay, htr⟩ := apply_due hr hp hfunds.1 hdue
        have hbooked' := hbooked.paidAt (p := p) hdue hr.clock
        rw [← htr] at hbooked'
        have hlen : ((r.apply Columns.rounding s).transfersOf p).length
            = (s.transfersOf p).length + 1 := by rw [htr, List.length_append, List.length_singleton]
        have hocc : occasions p length payment.next_payment_at (r :: l)
            = occasions p length (r.clock p + length) l + 1 := if_pos hnext
        have hstill := hbooked.paidAt_active_iff hactive hleft (r.clock p)
        -- after this payment the code goes on, or stops
        by_cases hgo : (s.transfersOf p).length + 1 < stopsAfter n
        · have hnext' : (payment.paidAt Columns.rounding (r.clock p)).next_payment_at
              = r.clock p + length := by
            show r.clock p + payment.interval.length = _
            rw [hbooked.interval]
          obtain ⟨payment', hpay', hbooked'', hlen', hact⟩ :=
            ih hl hfunds.2 hpay (hstill.mpr hgo) hbooked' (by rw [hlen]; exact hgo)
          rw [hlen, hnext'] at hlen' hact
          refine ⟨payment', hpay', hbooked'', ?_, ?_⟩
          · rw [hocc]
            exact hlen'.trans (by congr 1; omega)
          · rw [hocc, hact]
            omega
        · have hstop : (payment.paidAt Columns.rounding (r.clock p)).is_active = false := by
            rw [Bool.eq_false_iff]
            exact fun h => hgo (hstill.mp h)
          obtain ⟨hpay', htr'⟩ := applyAll_stopped Columns.rounding l hpay hstop
          refine ⟨_, hpay', by rw [htr']; exact hbooked', ?_, ?_⟩
          · rw [htr', hlen, hocc]
            omega
          · rw [hstop, hocc]
            constructor
            · intro h
              cases h
            · omega
      -- the sweep comes before the payment is due
      · have hdue : RecurringPaymentRepository.due r.now payment = false := by
          simp [RecurringPaymentRepository.due, hnext]
        obtain ⟨hpay, htr⟩ := apply_not_due Columns.rounding hp hdue
        have hocc : occasions p length payment.next_payment_at (r :: l)
            = occasions p length payment.next_payment_at l := if_neg hnext
        obtain ⟨payment', hpay', hbooked', hlen', hact⟩ :=
          ih hl hfunds.2 hpay hactive (by rw [htr]; exact hbooked) (by rw [htr]; exact hleft)
        rw [htr] at hlen' hact
        rw [hocc]
        exact ⟨payment', hpay', hbooked', hlen', hact⟩

/-- A payment that was just created. -/
theorem created {from_agent_id to_agent_id : Id} {interval : RecurringInterval} {s₀ : RecurringState}
    (h : createSubscription Columns.rounding p from_agent_id to_agent_id amount interval (some n) t₀ s
      = .ok s₀) (hfresh : s.transfersOf p = []) :
    ∃ payment, s₀.payments p = some payment ∧ payment.is_active = true ∧
      payment.next_payment_at = t₀ + interval.length ∧ s₀.transfersOf p = [] ∧
      Booked n t₀ interval.length (numeric 8 amount) payment (s₀.transfersOf p) := by
  unfold createSubscription at h
  split at h
  · cases h
  · split at h
    · cases h
    · split at h
      · cases h
      · obtain rfl := Except.ok.inj h
        refine ⟨_, Function.update_self .., rfl, rfl, hfresh, ?_⟩
        show Booked n t₀ interval.length (numeric 8 amount) _ (s.transfersOf p)
        rw [hfresh]
        refine ⟨rfl, rfl, rfl, numeric_mem 8 amount, rfl, rfl, fun t ht => (by cases ht),
          fun pre t post heq => ?_, ?_⟩
        · exact absurd heq (by simp)
        · show t₀ + ((0 : ℕ) + 1) * interval.length ≤ t₀ + interval.length
          simp

/-- **When a recurring payment is made as often as agreed.** After any sweeps the counter and the
total are those of the transfers, and there is at most one transfer for each interval that has
passed. Given enough sweeps the payment is made `n` times and then stops iff `n` is 1. -/
theorem recurring_exact_iff {from_agent_id to_agent_id : Id} {interval : RecurringInterval}
    {s₀ : RecurringState} (hn : 1 ≤ n)
    (hcreate : createSubscription Columns.rounding p from_agent_id to_agent_id amount interval (some n)
      t₀ s = .ok s₀) (hfresh : s.transfersOf p = []) {l : List RecurringSweep}
    (hlists : ∀ r ∈ l, r.Lists p) (hfunds : FundsAll Columns.rounding p s₀ l) :
    ∃ payment, (applyAll Columns.rounding s₀ l).payments p = some payment ∧
      Booked n t₀ interval.length (numeric 8 amount) payment
        ((applyAll Columns.rounding s₀ l).transfersOf p) ∧
      (n ≤ occasions p interval.length (t₀ + interval.length) l →
        (((applyAll Columns.rounding s₀ l).transfersOf p).length = n ∧ payment.is_active = false ↔
          n = 1)) := by
  obtain ⟨payment, hp, hactive, hnext, htr, hbooked⟩ := created hcreate hfresh
  have hpos : (s₀.transfersOf p).length < stopsAfter n := by
    rw [htr, List.length_nil]
    unfold stopsAfter
    split
    · omega
    · omega
  obtain ⟨payment', hp', hbooked', hlen, hact⟩ :=
    applyAll_booked hlists hfunds hp hactive hbooked hpos
  refine ⟨payment', hp', hbooked', fun henough => ?_⟩
  rw [hnext, htr, List.length_nil, Nat.zero_add] at hlen hact
  have hstops : stopsAfter n ≤ n := by
    unfold stopsAfter
    split
    · omega
    · omega
  have hstopped : payment'.is_active = false := by
    rw [Bool.eq_false_iff]
    intro h
    have := hact.mp h
    omega
  rw [hlen, Nat.min_eq_right (hstops.trans henough)]
  unfold stopsAfter
  constructor
  · rintro ⟨h, -⟩
    by_contra hne
    rw [if_neg hne] at h
    omega
  · intro hone
    exact ⟨by rw [if_pos hone, hone], hstopped⟩

section Runs

/-- The table before the first payment is created. -/
def noPayments : RecurringState := ⟨fun _ => none, fun _ => 0, []⟩

/-- One XMR an hour from the agent 1 to the agent 2, `n` times. -/
def hourly (n : ℕ) : RecurringPayment :=
  { from_agent_id := 1, to_agent_id := 2, amount := 1, interval := .HOURLY
    next_payment_at := hours 1, max_payments := some n }

/-- A sweep at some hour, while every agent has plenty. -/
def richSweep (h : ℤ) : RecurringSweep := ⟨hours h, fun _ => hours h, [5], fun _ => 1000⟩

/-- The table after the payment is created. -/
def withHourly (n : ℕ) : RecurringState := ⟨fun id => if id = 5 then some (hourly n) else none,
  fun _ => 0, []⟩

theorem create_hourly (n : ℕ) :
    createSubscription Columns.rounding 5 1 2 1 .HOURLY (some n) 0 noPayments
      = .ok (withHourly n) := by
  have hone : Columns.rounding 8 1 = 1 :=
    Columns.rounding_keeps 8 1 (mem_decimals.mpr ⟨10 ^ 8, by norm_num⟩)
  have hrow : Function.update noPayments.payments 5 (some (hourly n)) = (withHourly n).payments := by
    funext id
    by_cases hid : id = 5
    · subst hid
      simp [withHourly]
    · simp [withHourly, noPayments, hid]
  norm_num [createSubscription, hone, RecurringPaymentRepository.create, calculateNextPayment,
    RecurringInterval.length]
  exact congrArg (fun payments => RecurringState.mk payments _ _) hrow

theorem richSweep_lists (h : ℤ) : (richSweep h).Lists 5 :=
  ⟨List.nodup_singleton 5, List.mem_singleton.mpr rfl, le_rfl⟩

theorem richSweep_funds {h : ℤ} (hp : s.payments 5 = some payment) (hamount : payment.amount = 1) :
    (richSweep h).Funds Columns.rounding 5 s := by
  intro pre post payment' heq hp'
  have hlen : ((richSweep h).due s).length ≤ 1 := List.length_filter_le _ [5]
  rw [heq, List.length_append, List.length_cons] at hlen
  obtain rfl : pre = [] := List.length_eq_zero_iff.mp (by omega)
  obtain rfl := Option.some.inj (hp.symm.trans hp')
  rw [hamount]
  show (1 : ℚ) ≤ 1000
  norm_num

/-- A payment that is made once. -/
theorem recurring_once : ∃ payment,
    (applyAll Columns.rounding (withHourly 1) [richSweep 1]).payments 5 = some payment ∧
      Booked 1 0 RecurringInterval.HOURLY.length (numeric 8 1) payment
        ((applyAll Columns.rounding (withHourly 1) [richSweep 1]).transfersOf 5) ∧
      (1 ≤ occasions 5 RecurringInterval.HOURLY.length (0 + RecurringInterval.HOURLY.length)
        [richSweep 1] →
        (((applyAll Columns.rounding (withHourly 1) [richSweep 1]).transfersOf 5).length = 1 ∧
          payment.is_active = false ↔ 1 = 1)) :=
  recurring_exact_iff le_rfl (create_hourly 1) rfl
    (fun r hr => by rw [List.mem_singleton.mp hr]; exact richSweep_lists 1)
    ⟨richSweep_funds (show (withHourly 1).payments 5 = some (hourly 1) from rfl) rfl, trivial⟩

/-- Two payments are agreed, two sweeps find the payment due, and one payment is made. -/
theorem recurring_stops_early : ¬∀ (n : ℕ) (s₀ : RecurringState) (l : List RecurringSweep), 1 ≤ n →
    createSubscription Columns.rounding 5 1 2 1 .HOURLY (some n) 0 noPayments = .ok s₀ →
    (∀ r ∈ l, r.Lists 5) → FundsAll Columns.rounding 5 s₀ l →
    n ≤ occasions 5 (hours 1) (hours 1) l →
      ((applyAll Columns.rounding s₀ l).transfersOf 5).length = n := by
  intro h
  obtain ⟨payment, hp, hactive, hnext, htr, hbooked⟩ := created (create_hourly 2) rfl
  obtain rfl : hourly 2 = payment := Option.some.inj hp
  have hlists : ∀ r ∈ [richSweep 1, richSweep 2], r.Lists 5 := by
    intro r hr
    rcases List.mem_cons.mp hr with rfl | hr
    · exact richSweep_lists 1
    · rw [List.mem_singleton.mp hr]
      exact richSweep_lists 2
  have hfirst : (richSweep 1).Funds Columns.rounding 5 (withHourly 2) := richSweep_funds hp rfl
  have hpaid := (apply_due (richSweep_lists 1) hp hfirst (by decide)).1
  have hfunds : FundsAll Columns.rounding 5 (withHourly 2) [richSweep 1, richSweep 2] :=
    ⟨hfirst, richSweep_funds hpaid rfl, trivial⟩
  have htwo := h 2 _ _ (by decide) (create_hourly 2) hlists hfunds (by decide)
  obtain ⟨-, -, -, hlen, -⟩ := applyAll_booked hlists hfunds hp hactive hbooked (by decide)
  rw [htwo] at hlen
  exact absurd hlen (by decide)

end Runs

end RecurringSweep

end Sthrip
