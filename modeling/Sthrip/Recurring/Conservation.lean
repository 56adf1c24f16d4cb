import Sthrip.Recurring.Count
import Mathlib.Algebra.BigOperators.Group.Finset.Piecewise

set_option autoImplicit false

/-! # The fee of a recurring payment

A sweep takes the amount from the payer and gives the payee what is left of it after the fee. It
writes no fee row, so the fee is lost. What the agents have and what the fee rows say stay the same
together iff the fee of each payment that is made is rounded to zero.
-/

namespace Sthrip

open Txn RecurringService

/-- The payments and the balances, with the fee rows. -/
structure RecurringBooks where
  state : RecurringState
  fees : List FeeCollection

namespace RecurringBooks

/-- What the agents have and what was collected from them. -/
def total (agents : Finset Id) (b : RecurringBooks) : ℚ :=
  ∑ a ∈ agents, b.state.available a + (b.fees.map (·.amount)).sum

/-- The books when a sweep begins. -/
def start (r : RecurringSweep) (b : RecurringBooks) : RecurringBooks :=
  { b with state := r.start b.state }

/-- The books after some payments of a sweep, which writes no fee row. -/
def loop (col : Columns) (r : RecurringSweep) (ids : List Id) (b : RecurringBooks) : RecurringBooks :=
  { b with state := r.loop col ids b.state }

end RecurringBooks

/-- `amount` leaves one balance and `credit` is added to another. -/
def moved (available : Id → ℚ) (from_agent_id to_agent_id : Id) (amount credit : ℚ) : Id → ℚ :=
  let deducted := Function.update available from_agent_id (available from_agent_id - amount)
  Function.update deducted to_agent_id (deducted to_agent_id + credit)

namespace RecurringSweep

variable (col : Columns) (agents : Finset Id) (r : RecurringSweep) (b : RecurringBooks)

/-- The loop comes to a payment, after those of `pre`. -/
structure Turn (pre : List Id) (p : Id) (payment : RecurringPayment) : Prop where
  due : ∃ post, r.due b.state = pre ++ p :: post
  loaded : ((b.start r).loop col r pre).state.payments p = some payment

/-- The payment can be made when the loop comes to it. -/
def Makes (pre : List Id) (payment : RecurringPayment) : Prop :=
  payment.is_active = true ∧
    payment.amount ≤ ((b.start r).loop col r pre).state.available payment.from_agent_id

/-- A sweep keeps the money. -/
structure Conserves : Prop where
  total : ((b.start r).loop col r (r.due b.state)).total agents = (b.start r).total agents
  /-- The amount that the payer loses is what the payee gets and what is recorded as the fee. -/
  made : ∀ pre p payment, r.Turn col b pre p payment → r.Makes col b pre payment →
    ∃ credit recorded : ℚ,
      ((b.start r).loop col r (pre ++ [p])).state.available
        = moved ((b.start r).loop col r pre).state.available payment.from_agent_id
            payment.to_agent_id payment.amount credit ∧
      (((b.start r).loop col r (pre ++ [p])).fees.map (·.amount)).sum
        = (((b.start r).loop col r pre).fees.map (·.amount)).sum + recorded ∧
      payment.amount = credit + recorded
  skipped : ∀ pre p payment, r.Turn col b pre p payment → ¬r.Makes col b pre payment →
    (b.start r).loop col r (pre ++ [p]) = (b.start r).loop col r pre

end RecurringSweep

/-- What the tables hold: the parties of a payment are agents, and the digits are those of the
columns. -/
structure RecurringState.Stored (agents : Finset Id) (s : RecurringState) : Prop where
  parties : ∀ p payment, s.payments p = some payment →
    payment.from_agent_id ∈ agents ∧ payment.to_agent_id ∈ agents
  amount : ∀ p payment, s.payments p = some payment → 0 < payment.amount ∧ payment.amount ∈ decimals 8
  available : ∀ a, s.available a ∈ decimals 12

/-! ## One payment -/

theorem sum_update_add (f : Id → ℚ) {agents : Finset Id} {a : Id} (ha : a ∈ agents) (x : ℚ) :
    ∑ i ∈ agents, Function.update f a (f a + x) i = ∑ i ∈ agents, f i + x := by
  have hsum : ∑ i ∈ agents, f i = f a + ∑ i ∈ agents \ {a}, f i := by
    rw [← Finset.sum_update_of_mem ha f (f a), Function.update_eq_self]
  rw [Finset.sum_update_of_mem ha, hsum]
  ring

theorem sum_moved (f : Id → ℚ) {agents : Finset Id} {a b : Id} (ha : a ∈ agents) (hb : b ∈ agents)
    (amount credit : ℚ) :
    ∑ i ∈ agents, moved f a b amount credit i = ∑ i ∈ agents, f i - amount + credit := by
  rw [moved, sum_update_add _ hb, sub_eq_add_neg (f a), sum_update_add _ ha, ← sub_eq_add_neg]

theorem moved_inj {f : Id → ℚ} {a b : Id} {amount credit credit' : ℚ}
    (h : moved f a b amount credit = moved f a b amount credit') : credit = credit' := by
  have hb := congrFun h b
  simp only [moved, Function.update_self] at hb
  exact add_left_cancel hb

/-- The fee of a payment. -/
def RecurringPayment.fee (payment : RecurringPayment) : ℚ :=
  quantize 8 (payment.amount * recurringFeeRate)

/-- The fee is rounded to zero up to this amount. -/
theorem RecurringPayment.fee_eq_zero_iff {payment : RecurringPayment} (h : 0 < payment.amount) :
    payment.fee = 0 ↔ payment.amount ≤ 5 / 10 ^ 7 := by
  have hnonneg : 0 ≤ payment.amount * recurringFeeRate * 10 ^ 8 := by
    unfold recurringFeeRate
    positivity
  rw [fee, quantize, div_eq_zero_iff, or_iff_left (by positivity), Int.cast_eq_zero,
    roundHalfEven_eq_zero_iff hnonneg]
  unfold recurringFeeRate
  constructor
  · intro hle
    linarith
  · intro hle
    linarith

namespace RecurringService

variable {agents : Finset Id} {now : Time} {p : Id} {payment : RecurringPayment} {s : RecurringState}

/-- What a payment that is made moves. -/
theorem executePayment_available (hs : s.Stored agents) (hp : s.payments p = some payment)
    (hactive : payment.is_active = true)
    (hfunds : payment.amount ≤ s.available payment.from_agent_id) :
    (executePayment Columns.rounding now p payment s).available
      = moved s.available payment.from_agent_id payment.to_agent_id payment.amount
          (payment.amount - payment.fee) := by
  have hamount : payment.amount ∈ decimals 12 := decimals_mono (by decide) (hs.amount p payment hp).2
  have hfee : quantize 8 (payment.amount * recurringFeeRate) ∈ decimals 12 :=
    decimals_mono (by decide) (quantize_mem 8 _)
  have hdebit : s.available payment.from_agent_id - payment.amount ∈ decimals 12 :=
    sub_mem (hs.available _) hamount
  have hdeducted (a : Id) : Function.update s.available payment.from_agent_id
      (s.available payment.from_agent_id - payment.amount) a ∈ decimals 12 := by
    by_cases ha : a = payment.from_agent_id
    · rw [ha, Function.update_self]
      exact hdebit
    · rw [Function.update_of_ne ha]
      exact hs.available a
  simp only [executePayment, hactive, Bool.true_eq_false, if_false, not_lt.mpr hfunds]
  rw [Columns.rounding_keeps 12 _ hdebit,
    Columns.rounding_keeps 12 _ (add_mem (hdeducted _) (sub_mem hamount hfee))]
  rfl

/-- A payment that is not made changes nothing. -/
theorem executePayment_skipped (col : Columns) (now : Time) (p : Id)
    (h : ¬(payment.is_active = true ∧ payment.amount ≤ s.available payment.from_agent_id)) :
    executePayment col now p payment s = s := by
  unfold executePayment
  split
  · rfl
  · next hactive =>
      have hactive : payment.is_active = true := by simpa using hactive
      rw [if_pos (not_le.mp fun hle => h ⟨hactive, hle⟩)]

/-- The tables hold what they should after a payment. -/
theorem executePayment_stored (hs : s.Stored agents) (hp : s.payments p = some payment) :
    (executePayment Columns.rounding now p payment s).Stored agents := by
  by_cases hmakes : payment.is_active = true ∧ payment.amount ≤ s.available payment.from_agent_id
  · obtain ⟨hpayments, -⟩ := executePayment_paid Columns.rounding now p hmakes.1 hmakes.2
    have hrow {q : Id} {payment' : RecurringPayment}
        (hq : (executePayment Columns.rounding now p payment s).payments q = some payment') :
        ∃ payment₀, s.payments q = some payment₀ ∧ payment'.from_agent_id = payment₀.from_agent_id ∧
          payment'.to_agent_id = payment₀.to_agent_id ∧ payment'.amount = payment₀.amount := by
      rw [hpayments] at hq
      by_cases hqp : q = p
      · subst hqp
        rw [Function.update_self] at hq
        exact ⟨payment, hp, Option.some.inj hq ▸ ⟨rfl, rfl, rfl⟩⟩
      · rw [Function.update_of_ne hqp] at hq
        exact ⟨payment', hq, rfl, rfl, rfl⟩
    constructor
    · intro q payment' hq
      obtain ⟨payment₀, hq₀, hfrom, hto, -⟩ := hrow hq
      rw [hfrom, hto]
      exact hs.parties q payment₀ hq₀
    · intro q payment' hq
      obtain ⟨payment₀, hq₀, -, -, hamount⟩ := hrow hq
      rw [hamount]
      exact hs.amount q payment₀ hq₀
    · intro a
      simp only [executePayment, hmakes.1, Bool.true_eq_false, if_false, not_lt.mpr hmakes.2]
      -- what was written to a balance is rounded, and the others are as before
      by_cases hto : a = payment.to_agent_id
      · rw [hto, Function.update_self]
        exact numeric_mem 12 _
      · rw [Function.update_of_ne hto]
        by_cases hfrom : a = payment.from_agent_id
        · rw [hfrom, Function.update_self]
          exact numeric_mem 12 _
        · rw [Function.update_of_ne hfrom]
          exact hs.available a
  · rw [executePayment_skipped Columns.rounding now p hmakes]
    exact hs

end RecurringService

/-! ## Sweeps -/

namespace RecurringSweep

variable {agents : Finset Id} {r : RecurringSweep} {b : RecurringBooks} {pre : List Id} {p : Id}
  {payment : RecurringPayment}

theorem loop_concat (col : Columns) (r : RecurringSweep) (s : RecurringState) (pre : List Id) (p : Id) :
    r.loop col (pre ++ [p]) s = ((r.loop col pre s).payments p).elim (r.loop col pre s) fun payment =>
      executePayment col (r.clock p) p payment (r.loop col pre s) := by
  rw [loop, List.foldl_append]
  rfl

theorem loop_stored {s : RecurringState} (hs : s.Stored agents) (ids : List Id) :
    (r.loop Columns.rounding ids s).Stored agents := by
  induction ids using List.reverseRecOn with
  | nil => exact hs
  | append_singleton pre p ih =>
      rw [loop_concat]
      cases hp : (r.loop Columns.rounding pre s).payments p with
      | none => exact ih
      | some payment => exact executePayment_stored ih hp

/-- The state after the turn of a payment. -/
theorem Turn.loop_eq {col : Columns} (h : r.Turn col b pre p payment) :
    ((b.start r).loop col r (pre ++ [p])).state
      = executePayment col (r.clock p) p payment ((b.start r).loop col r pre).state := by
  show r.loop col (pre ++ [p]) (r.start b.state) = _
  rw [loop_concat]
  have hloaded : (r.loop col pre (r.start b.state)).payments p = some payment := h.loaded
  rw [hloaded]
  rfl

/-- Payments whose fee is zero keep the total. -/
theorem total_loop (hs : (b.start r).state.Stored agents)
    (hfee : ∀ pre p payment, r.Turn Columns.rounding b pre p payment →
      r.Makes Columns.rounding b pre payment → payment.fee = 0)
    (pre : List Id) : ∀ post, r.due b.state = pre ++ post →
      ((b.start r).loop Columns.rounding r pre).total agents = (b.start r).total agents := by
  induction pre using List.reverseRecOn with
  | nil => exact fun _ _ => rfl
  | append_singleton pre p ih =>
      intro post hdue
      rw [List.append_assoc] at hdue
      have hstored : (r.loop Columns.rounding pre (r.start b.state)).Stored agents := loop_stored hs pre
      rw [← ih _ hdue]
      show ∑ a ∈ agents, (r.loop Columns.rounding (pre ++ [p]) (r.start b.state)).available a + _
        = ∑ a ∈ agents, (r.loop Columns.rounding pre (r.start b.state)).available a + _
      congr 1
      rw [loop_concat]
      cases hp : (r.loop Columns.rounding pre (r.start b.state)).payments p with
      | none => rfl
      | some payment =>
          have hturn : r.Turn Columns.rounding b pre p payment := ⟨⟨post, hdue⟩, hp⟩
          simp only [Option.elim_some]
          by_cases hmakes : r.Makes Columns.rounding b pre payment
          · obtain ⟨hfrom, hto⟩ := hstored.parties p payment hp
            have hfunds : payment.amount ≤ (r.loop Columns.rounding pre
              (r.start b.state)).available payment.from_agent_id := hmakes.2
            rw [executePayment_available hstored hp hmakes.1 hfunds, sum_moved _ hfrom hto,
              hfee pre p payment hturn hmakes]
            ring
          · have hskip : executePayment Columns.rounding (r.clock p) p payment
                (r.loop Columns.rounding pre (r.start b.state))
                = r.loop Columns.rounding pre (r.start b.state) :=
              executePayment_skipped Columns.rounding (r.clock p) p hmakes
            rw [hskip]

/-- **A sweep keeps the money iff the fees of the payments it makes are zero**, which is when the
amounts are at most half a millionth. -/
theorem conserves_iff (hs : (b.start r).state.Stored agents) :
    r.Conserves Columns.rounding agents b ↔
      ∀ pre p payment, r.Turn Columns.rounding b pre p payment →
        r.Makes Columns.rounding b pre payment → payment.amount ≤ 5 / 10 ^ 7 := by
  have hpos {pre p payment} (hturn : r.Turn Columns.rounding b pre p payment) : 0 < payment.amount :=
    ((loop_stored hs pre).amount p payment hturn.loaded).1
  have hmoved {pre p payment} (hturn : r.Turn Columns.rounding b pre p payment)
      (hmakes : r.Makes Columns.rounding b pre payment) :=
    (congrArg RecurringState.available hturn.loop_eq).trans
      (executePayment_available (loop_stored hs pre) hturn.loaded hmakes.1 hmakes.2)
  constructor
  · intro h pre p payment hturn hmakes
    obtain ⟨credit, recorded, havailable, hrecorded, hamount⟩ := h.made pre p payment hturn hmakes
    -- nothing is recorded, so the payee would have to get the whole amount
    have hzero : recorded = 0 := left_eq_add.mp hrecorded
    have hcredit : payment.amount - payment.fee = credit :=
      moved_inj ((hmoved hturn hmakes).symm.trans havailable)
    rw [← RecurringPayment.fee_eq_zero_iff (hpos hturn)]
    linarith
  · intro h
    have hfee (pre p payment) (hturn : r.Turn Columns.rounding b pre p payment)
        (hmakes : r.Makes Columns.rounding b pre payment) : payment.fee = 0 :=
      (RecurringPayment.fee_eq_zero_iff (hpos hturn)).mpr (h pre p payment hturn hmakes)
    constructor
    · exact total_loop hs hfee (r.due b.state) [] (List.append_nil _).symm
    · intro pre p payment hturn hmakes
      refine ⟨payment.amount, 0, ?_, (add_zero _).symm, (add_zero _).symm⟩
      rw [hmoved hturn hmakes, hfee pre p payment hturn hmakes, sub_zero]
    · intro pre p payment hturn hmakes
      have hskip := executePayment_skipped Columns.rounding (r.clock p) p hmakes
      show RecurringBooks.mk _ _ = RecurringBooks.mk _ _
      congr 1
      exact hturn.loop_eq.trans hskip

/-! ## Runs -/

/-- The books after some sweeps. -/
def sweepAll (col : Columns) (b : RecurringBooks) (l : List RecurringSweep) : RecurringBooks :=
  l.foldl (fun b r => (b.start r).loop col r (r.due b.state)) b

theorem start_stored {s : RecurringState} (hs : s.Stored agents)
    (havailable : ∀ a, r.available a ∈ decimals 12) : (r.start s).Stored agents :=
  ⟨hs.parties, hs.amount, havailable⟩

theorem sweepAll_stored {l : List RecurringSweep} (hs : b.state.Stored agents)
    (havailable : ∀ r ∈ l, ∀ a, r.available a ∈ decimals 12) :
    (sweepAll Columns.rounding b l).state.Stored agents := by
  induction l generalizing b with
  | nil => exact hs
  | cons r l ih =>
      refine ih (loop_stored (start_stored hs (havailable r (List.mem_cons_self ..))) _) ?_
      exact fun r' hr' => havailable r' (List.mem_cons_of_mem r hr')

/-- **Each sweep of a run keeps the money iff no sweep makes a payment with a fee.** -/
theorem sweepAll_conserves_iff {l : List RecurringSweep} (hs : b.state.Stored agents)
    (havailable : ∀ r ∈ l, ∀ a, r.available a ∈ decimals 12) :
    (∀ done r todo, l = done ++ r :: todo →
      r.Conserves Columns.rounding agents (sweepAll Columns.rounding b done)) ↔
    ∀ done r todo, l = done ++ r :: todo → ∀ pre p payment,
      r.Turn Columns.rounding (sweepAll Columns.rounding b done) pre p payment →
      r.Makes Columns.rounding (sweepAll Columns.rounding b done) pre payment →
        payment.amount ≤ 5 / 10 ^ 7 := by
  refine forall_congr' fun done => forall_congr' fun r => forall_congr' fun todo => ?_
  refine forall_congr' fun hl => conserves_iff ?_
  have hdone : ∀ r' ∈ done, ∀ a, r'.available a ∈ decimals 12 := by
    intro r' hr'
    exact havailable r' (hl ▸ List.mem_append_left _ hr')
  have hr : r ∈ l := hl ▸ List.mem_append_right done (List.mem_cons_self ..)
  exact start_stored (sweepAll_stored hs hdone) (havailable r hr)

theorem withHourly_stored (n : ℕ) : (withHourly n).Stored {1, 2} := by
  have hrow {p : Id} {payment : RecurringPayment} (hp : (withHourly n).payments p = some payment) :
      payment = hourly n := by
    simp only [withHourly] at hp
    split at hp
    · exact (Option.some.inj hp).symm
    · cases hp
  constructor
  · intro p payment hp
    rw [hrow hp]
    exact ⟨Finset.mem_insert_self 1 {2}, Finset.mem_insert_of_mem (Finset.mem_singleton_self 2)⟩
  · intro p payment hp
    rw [hrow hp]
    exact ⟨one_pos, mem_decimals.mpr ⟨10 ^ 8, by norm_num [hourly]⟩⟩
  · exact fun a => zero_mem _

theorem richSweep_available (h : ℤ) (a : Id) : (richSweep h).available a ∈ decimals 12 :=
  mem_decimals.mpr ⟨1000 * 10 ^ 12, by norm_num [richSweep]⟩

/-- A run with one payment of one XMR. -/
theorem sweepAll_conserves_iff_hourly :
    (∀ done r todo, [richSweep 1] = done ++ r :: todo →
      r.Conserves Columns.rounding {1, 2} (sweepAll Columns.rounding ⟨withHourly 1, []⟩ done)) ↔
    ∀ done r todo, [richSweep 1] = done ++ r :: todo → ∀ pre p payment,
      r.Turn Columns.rounding (sweepAll Columns.rounding ⟨withHourly 1, []⟩ done) pre p payment →
      r.Makes Columns.rounding (sweepAll Columns.rounding ⟨withHourly 1, []⟩ done) pre payment →
        payment.amount ≤ 5 / 10 ^ 7 := by
  refine sweepAll_conserves_iff (withHourly_stored 1) ?_
  intro r hr
  rw [List.mem_singleton.mp hr]
  exact richSweep_available 1

/-- The fee of one XMR is lost. -/
theorem hourly_not_conserved : ¬(richSweep 1).Conserves Columns.rounding {1, 2} ⟨withHourly 1, []⟩ := by
  intro h
  have hstored := start_stored (withHourly_stored 1) (richSweep_available 1)
  have hturn : (richSweep 1).Turn Columns.rounding ⟨withHourly 1, []⟩ [] 5 (hourly 1) :=
    ⟨⟨[], by decide⟩, rfl⟩
  have hmakes : (richSweep 1).Makes Columns.rounding ⟨withHourly 1, []⟩ [] (hourly 1) := by
    refine ⟨rfl, ?_⟩
    show (1 : ℚ) ≤ 1000
    norm_num
  have hle : (1 : ℚ) ≤ 5 / 10 ^ 7 := (conserves_iff hstored).mp h [] 5 _ hturn hmakes
  norm_num at hle

end RecurringSweep

end Sthrip
