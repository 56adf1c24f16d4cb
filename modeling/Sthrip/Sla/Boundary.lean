import Mathlib.Tactic.Linarith
import Sthrip.Sla.Agreement

set_option autoImplicit false

/-! # The deadline of a contract

Two code paths judge whether a provider was in time. `verify_contract` compares the whole seconds up to
the delivery with the limit for the delivery. The sweep compares the exact time with both limits. So a
delivery in the first second after its limit is in time to one and late to the other, and so is a
delivery after the limit for the response.
-/

namespace Sthrip

open Txn Prog

variable {contract delivered verified swept : SLAContract} {id provider_id consumer_id : Id}
  {started t : ℤ} {col : Columns}

/-! ## The two tests -/

namespace SLAContractRepository

/-- The whole seconds are within the limit until the next second begins. -/
theorem wholeSeconds_le_iff {d : ℤ} (hd : 0 ≤ d) :
    wholeSeconds t started ≤ d ↔ t - started < (d + 1) * 1000000 := by
  unfold wholeSeconds
  rcases le_or_gt 0 (t - started) with he | he
  · rw [Int.tdiv_eq_ediv_of_nonneg he]
    omega
  · -- the fraction is cut off towards zero
    have hneg : Int.tdiv (t - started) 1000000 ≤ 0 := by
      have hpos : 0 ≤ Int.tdiv (-(t - started)) 1000000 := Int.tdiv_nonneg (by omega) (by omega)
      rw [Int.neg_tdiv] at hpos
      omega
    constructor
    · intro _
      omega
    · intro _
      omega

theorem elapsed_lt_iff (n : ℤ) : (n : ℚ) < elapsed t started ↔ n * 1000000 < t - started := by
  rw [elapsed, lt_div_iff₀ (by norm_num)]
  exact_mod_cast Iff.rfl

theorem isPastDeadline_iff (hstarted : contract.started_at = some started) :
    isPastDeadline t contract = true ↔ contract.delivery_time_secs * 1000000 < t - started ∨
      contract.response_time_secs * 1000000 < t - started := by
  rw [isPastDeadline, hstarted, Option.any_some, decide_eq_true_eq, elapsed_lt_iff, elapsed_lt_iff]

end SLAContractRepository

open SLAContractRepository SLAService

/-- After so many microseconds, the two tests agree: it is within both limits, or at least a second
after the limit for the delivery. -/
def AgreeAfter (contract : SLAContract) (e : ℤ) : Prop :=
  (e ≤ contract.response_time_secs * 1000000 ∧ e ≤ contract.delivery_time_secs * 1000000) ∨
    (contract.delivery_time_secs + 1) * 1000000 ≤ e

theorem agreeAfter_iff (hlimit : 0 ≤ contract.delivery_time_secs)
    (hstarted : contract.started_at = some started) :
    (wholeSeconds t started ≤ contract.delivery_time_secs ↔ isPastDeadline t contract = false) ↔
      AgreeAfter contract (t - started) := by
  rw [wholeSeconds_le_iff hlimit, Bool.eq_false_iff, ne_eq, isPastDeadline_iff hstarted, AgreeAfter]
  constructor
  · intro h
    by_cases hlate : t - started < (contract.delivery_time_secs + 1) * 1000000
    · have := h.mp hlate
      omega
    · omega
  · intro h
    constructor
    · intro hin hlate
      omega
    · intro hin
      omega

/-! ## What the sessions leave -/

/-- The session commits, and leaves the contract so. -/
def SlaCall.Leaves (col : Columns) (call : SlaCall) (x : ℕ → Input schema) (st : Store schema)
    (id : Id) (c : SLAContract) : Prop :=
  ((call.run col).serve x st).1 = .ok () ∧
    ((call.run col).serve x st).2.db.rows (Key.slaContract id) = some c

section Alone

variable {Ok : StepCond schema} {R : Exn → Solo schema → Prop} {v : Solo schema} {st : Store schema}

/-- What a session commits, when its body ends with `Q`. -/
theorem leaves_of_always {p : Program Unit} {x : ℕ → Input schema} {Q : DB schema → Prop}
    (hst : st.db.WF) (h : p.always (fun _ _ _ => True) (fun _ v => Q v.db) (fun _ _ => True)
      (Solo.ofStore st)) (hok : ((withSession p).serve x st).1 = .ok ()) :
    Q ((withSession p).serve x st).2.db := by
  have hsession : p.withSession.always (fun _ _ _ => True) (fun _ v => Q v.saved) (fun _ _ => True)
      (Solo.ofStore st) :=
    always_withSession (always_mono h (fun _ _ hv => ⟨hv, fun _ _ _ => trivial⟩) fun _ _ _ => trivial)
  obtain ⟨v, hv, -, hends⟩ := always_serve hsession hst (meets_true _ _ _)
  rw [hok] at hends
  rw [hv]
  exact hends

/-- The contract that a session has locked for a caller. -/
theorem lockFor_always {may : SLAContract → Bool} {text : String} {Q : SLAContract → Solo schema → Prop}
    (hrow : v.db.rows (Key.slaContract id) = some contract) (h : Q contract v) :
    (lockFor id may text).always Ok Q (fun _ _ => True) v := by
  refine always_bind (always_selectForUpdate (always_bind (always_orRaise (fun _ => trivial) ?_)))
  intro c hc
  obtain rfl := Option.some.inj (hrow.symm.trans hc)
  exact always_bind (always_raiseIf (fun _ => trivial) fun _ => h)

theorem refetchContract_always {Q : Solo schema → Prop} (h : Q v) :
    (refetch id).always Ok (fun _ v => Q v) (fun _ _ => True) v :=
  always_bind (always_select (always_orRaise (fun _ => trivial) fun _ _ => h))

/-- The contract as a delivery at the time leaves it. -/
def deliveredAt (contract : SLAContract) (hash : String) (t : Time) : SLAContract :=
  { contract with
    state := .DELIVERED, delivered_at := some t, result_hash := some hash
    delivery_time_actual := contract.started_at.map fun started => wholeSeconds t started }

theorem deliver_leaves {x : ℕ → Input schema} {hash : String} (hst : st.db.WF)
    (hrow : st.db.rows (Key.slaContract id) = some contract)
    (h : (SlaCall.deliverContract id provider_id hash).Leaves col x st id delivered) :
    ∃ t, delivered = deliveredAt contract hash t := by
  have hbody : ((SlaCall.deliverContract id provider_id hash).body col).always (fun _ _ _ => True)
      (fun _ v => ∃ t, v.db.rows (Key.slaContract id) = some (deliveredAt contract hash t))
      (fun _ _ => True) (Solo.ofStore st) := by
    refine always_bind (always_bind (lockFor_always hrow (always_bind ?_)))
    refine always_bind (always_now fun t => always_bind (always_select ?_))
    rw [show (Solo.ofStore st).db.rows (Key.slaContract id) = some contract from hrow]
    dsimp only
    -- a contract that is not active is refused after all
    by_cases hstate : contract.state = .ACTIVE
    · rw [if_neg (not_not.mpr hstate)]
      refine always_update (fun c _ hc _ _ => ?_) fun _ => always_bind (always_raiseIf (fun _ => trivial)
        fun h => absurd rfl h)
      obtain rfl := Option.some.inj (hrow.symm.trans hc)
      refine always_bind (always_raiseIf (fun _ => trivial) fun _ => ?_)
      exact refetchContract_always (Q := fun v => ∃ t, v.db.rows (Key.slaContract id) =
        some (deliveredAt contract hash t)) ⟨t, DB.put_rows_self ..⟩
    · rw [if_pos hstate]
      exact always_bind (always_raiseIf (fun _ => trivial) fun h => absurd rfl h)
  obtain ⟨t, ht⟩ := leaves_of_always (Q := fun db => ∃ t, db.rows (Key.slaContract id) =
    some (deliveredAt contract hash t)) hst hbody h.1
  exact ⟨t, Option.some.inj (h.2.symm.trans ht)⟩

theorem verify_leaves {x : ℕ → Input schema} (hst : st.db.WF)
    (hrow : st.db.rows (Key.slaContract id) = some contract)
    (h : (SlaCall.verifyContract id consumer_id).Leaves col x st id verified) :
    verified = { contract with state := .COMPLETED, sla_met := some (slaMet contract) } := by
  have hbody : ((SlaCall.verifyContract id consumer_id).body col).always (fun _ _ _ => True)
      (fun _ v => v.db.rows (Key.slaContract id) =
        some { contract with state := .COMPLETED, sla_met := some (slaMet contract) })
      (fun _ _ => True) (Solo.ofStore st) := by
    refine always_bind (always_bind (lockFor_always hrow (always_bind ?_)))
    refine always_update (fun c _ hc _ _ => ?_) fun _ => always_bind (always_raiseIf (fun _ => trivial)
      fun h => absurd rfl h)
    obtain rfl := Option.some.inj (hrow.symm.trans hc)
    refine always_bind (always_raiseIf (fun _ => trivial) fun _ => ?_)
    exact refetchContract_always (Q := fun v => v.db.rows (Key.slaContract id) = some _)
      (DB.put_rows_self ..)
  have hleft := leaves_of_always (Q := fun db => db.rows (Key.slaContract id) =
    some { contract with state := .COMPLETED, sla_met := some (slaMet contract) }) hst hbody h.1
  exact Option.some.inj (h.2.symm.trans hleft)

/-! ## The sweep -/

/-- The contract as the sweep leaves it when it breaches it. -/
def breached (contract : SLAContract) : SLAContract :=
  { contract with state := .BREACHED, sla_met := some false }

/-- The sweep has come to the contract if it is past its deadline, unless it is still to come to it;
`rest` are the overdue contracts it has still to do. -/
structure SweepAt (id : Id) (contract : SLAContract) (t : Time) (rest : List (Id × SLAContract))
    (v : Solo schema) : Prop where
  overdue : ∀ c ∈ rest, c.1 = id → isPastDeadline t contract = true
  row : (v.db.rows (Key.slaContract id) = some contract ∧
      (isPastDeadline t contract = true → (id, contract) ∈ rest)) ∨
    (v.db.rows (Key.slaContract id) = some (breached contract) ∧ isPastDeadline t contract = true)

theorem enforceOne_always (hactive : contract.state = .ACTIVE) {c : Id × SLAContract}
    {rest : List (Id × SLAContract)} (h : SweepAt id contract t (c :: rest) v) :
    (enforceOne c).always Ok (fun _ v => SweepAt id contract t rest v) (fun _ _ => True) v := by
  have hrest : ∀ c ∈ rest, c.1 = id → isPastDeadline t contract = true :=
    fun c' hc' => h.overdue c' (List.mem_cons_of_mem c hc')
  have hnext : ∀ v', SweepAt id contract t rest v' →
      ∀ b : Bool, ((onlyIf (b = true) ((refetch c.1).bind fun _ => ret ())).bind fun _ => ret b).always Ok
        (fun _ v => SweepAt id contract t rest v) (fun _ _ => True) v' := by
    intro v' hv' b
    refine always_bind (always_onlyIf (fun _ => ?_) fun _ => hv')
    exact always_bind (refetchContract_always (Q := fun v => SweepAt id contract t rest v) hv')
  refine always_bind (always_update (fun r _ hr hg _ => ?_) fun hmiss => ?_)
  · refine hnext _ ⟨hrest, ?_⟩ true
    by_cases hid : c.1 = id
    · -- it is this contract's turn
      have hpast := h.overdue c List.mem_cons_self hid
      subst hid
      rcases h.row with ⟨hrow, -⟩ | ⟨hrow, -⟩
      · obtain rfl := Option.some.inj (hrow.symm.trans hr)
        exact Or.inr ⟨DB.put_rows_self .., hpast⟩
      · obtain rfl := Option.some.inj (hrow.symm.trans hr)
        exact absurd hg (by simp [breached])
    · have hsame : (v.db.put (Key.slaContract c.1)
          { r with state := .BREACHED, sla_met := some false }).rows (Key.slaContract id) =
            v.db.rows (Key.slaContract id) :=
        DB.put_rows_ne _ _ fun he => hid (Key.slaContract.inj he).symm
      rcases h.row with ⟨hrow, hmem⟩ | ⟨hrow, hpast⟩
      · refine Or.inl ⟨hsame.trans hrow, fun hpast => ?_⟩
        rcases List.mem_cons.mp (hmem hpast) with rfl | hmem
        · exact absurd rfl hid
        · exact hmem
      · exact Or.inr ⟨hsame.trans hrow, hpast⟩
  · refine hnext _ ⟨hrest, ?_⟩ false
    rcases h.row with ⟨hrow, hmem⟩ | hbreached
    · refine Or.inl ⟨hrow, fun hpast => ?_⟩
      rcases List.mem_cons.mp (hmem hpast) with rfl | hmem
      · -- an active contract is not missed
        have := hmiss contract hrow
        simp [hactive] at this
      · exact hmem
    · exact Or.inr hbreached

/-- The sweep, when its clock has answered. -/
def sweepFrom (t : Time) : Program Unit :=
  (((query isRunning).bind fun active =>
      ret ((active.filterMap asContract).filter fun c => isPastDeadline t c.2)).bind fun overdue =>
    tally overdue enforceOne).bind fun _ => ret ()

theorem asContract_eq_some (x : Σ k : Key, Row k) (a : Id × SLAContract) :
    asContract x = some a ↔ x = ⟨Key.slaContract a.1, a.2⟩ := by
  obtain ⟨k, r⟩ := x
  constructor
  · intro ha
    cases k with
    | slaContract q =>
        obtain rfl := Option.some.inj ha
        rfl
    | _ => cases ha
  · rintro ⟨⟩
    rfl

theorem sweepFrom_always (Ok : StepCond schema) (hactive : contract.state = .ACTIVE)
    (hstarted : contract.started_at = some started)
    (hrow : v.db.rows (Key.slaContract id) = some contract) :
    (sweepFrom t).always Ok (fun _ v => SweepAt id contract t [] v) (fun _ _ => True) v := by
  refine always_bind (always_bind (always_bind (always_query fun rows _ hrows => ?_)))
  have hmem : ∀ a : Id × SLAContract, a ∈ (rows.filterMap asContract).filter
      (fun c => isPastDeadline t c.2) ↔ (v.db.rows (Key.slaContract a.1) = some a.2 ∧
        isRunning (Key.slaContract a.1) a.2 = true) ∧ isPastDeadline t a.2 = true := by
    intro a
    rw [List.mem_filter, mem_filterMap_rows (S := schema) asContract_eq_some, hrows]
  have hstart : SweepAt id contract t
      ((rows.filterMap asContract).filter fun c => isPastDeadline t c.2) v := by
    refine ⟨fun a ha hid => ?_, Or.inl ⟨hrow, fun hpast => ?_⟩⟩
    · obtain ⟨⟨ha, -⟩, hpast⟩ := (hmem a).mp ha
      rw [hid, hrow] at ha
      obtain rfl := Option.some.inj ha
      exact hpast
    · refine (hmem (id, contract)).mpr ⟨⟨hrow, ?_⟩, hpast⟩
      simp [isRunning, hactive, hstarted]
  show (tally _ _).always _ _ _ v
  exact always_mono (always_tallyOver (SweepAt id contract t) (fun _ _ _ h => enforceOne_always hactive h)
    _ hstart) (fun _ _ h => h) fun _ _ h => h

theorem sweep_leaves {z : ℕ → Input schema} (hst : st.db.WF)
    (hrow : st.db.rows (Key.slaContract id) = some contract) (hactive : contract.state = .ACTIVE)
    (hstarted : contract.started_at = some started)
    (h : SlaCall.enforceSla.Leaves col z st id swept) :
    swept.state = .BREACHED ↔ isPastDeadline (z 0).time contract = true := by
  have hbody := sweepFrom_always (fun _ _ _ => True) (v := Solo.ofStore st) (t := (z 0).time)
    hactive hstarted hrow
  have hend : SweepAt id contract (z 0).time [] ⟨((SlaCall.enforceSla.run col).serve z st).2.db,
      ((SlaCall.enforceSla.run col).serve z st).2.db, ((SlaCall.enforceSla.run col).serve z st).2.ext⟩ :=
    leaves_of_always (x := fun n => z (n + 1)) (Q := fun db => SweepAt id contract (z 0).time []
      ⟨db, db, ((SlaCall.enforceSla.run col).serve z st).2.ext⟩) hst
      (always_mono hbody (fun _ _ h => ⟨h.overdue, h.row⟩) fun _ _ h => h) h.1
  rcases hend.row with ⟨hsame, hnot⟩ | ⟨hbreached, hpast⟩
  · obtain rfl := Option.some.inj (h.2.symm.trans hsame)
    refine iff_of_false ?_ fun hpast => absurd (hnot hpast) List.not_mem_nil
    rw [hactive]
    decide
  · obtain rfl := Option.some.inj (h.2.symm.trans hbreached)
    exact iff_of_true rfl hpast

end Alone

/-! ## The boundary -/

/-- **One contract, two verdicts.** A contract that is delivered and verified is judged to have met its
limits iff a sweep at the time of the delivery would have left it alone, exactly when that time is within
both limits or at least a second after the limit for the delivery. -/
theorem sla_verdicts_agree_iff (col : Columns) (id provider_id consumer_id : Id) (hash : String)
    (contract delivered verified swept : SLAContract) (started : Time)
    (hactive : contract.state = .ACTIVE) (hstarted : contract.started_at = some started)
    (hlimit : 0 ≤ contract.delivery_time_secs) (st st' st'' : Store schema) (x y z : ℕ → Input schema)
    (hst : st.db.WF) (hrow : st.db.rows (Key.slaContract id) = some contract)
    (hdeliver : (SlaCall.deliverContract id provider_id hash).Leaves col x st id delivered)
    (hst' : st'.db.WF) (hrow' : st'.db.rows (Key.slaContract id) = some delivered)
    (hverify : (SlaCall.verifyContract id consumer_id).Leaves col y st' id verified)
    (hst'' : st''.db.WF) (hrow'' : st''.db.rows (Key.slaContract id) = some contract)
    (hsweep : SlaCall.enforceSla.Leaves col z st'' id swept)
    (htime : delivered.delivered_at = some (z 0).time) :
    (verified.sla_met = some true ↔ swept.state ≠ .BREACHED) ↔
      AgreeAfter contract ((z 0).time - started) := by
  obtain ⟨t, rfl⟩ := deliver_leaves hst hrow hdeliver
  obtain rfl := verify_leaves hst' hrow' hverify
  have hswept := sweep_leaves hst'' hrow'' hactive hstarted hsweep
  obtain rfl : t = (z 0).time := Option.some.inj htime
  have hmet : slaMet (deliveredAt contract hash (z 0).time) = true ↔
      wholeSeconds (z 0).time started ≤ contract.delivery_time_secs := by
    simp [slaMet, deliveredAt, hstarted]
  rw [ne_eq, hswept, Option.some.injEq, hmet, Bool.not_eq_true]
  exact agreeAfter_iff hlimit hstarted

/-! ## A contract -/

/-- An answer within five minutes, a delivery within the hour; it runs since time 0. -/
def runningContract : SLAContract where
  provider_id := 1
  consumer_id := 2
  service_description := "translation"
  response_time_secs := 300
  delivery_time_secs := 3600
  price := 1
  state := .ACTIVE
  started_at := some 0

/-- The contract is all there is. -/
def onlyContract (contract : SLAContract) : Store schema where
  db :=
    { rows := fun
        | .slaContract id => if id = 1 then some contract else none
        | _ => none
      keys := [.slaContract 1]
      log := [] }
  ext := default

theorem onlyContract_wf (contract : SLAContract) : (onlyContract contract).db.WF := by
  refine ⟨List.nodup_singleton _, fun k => ?_⟩
  cases k with
  | slaContract id => by_cases h : id = 1 <;> simp [onlyContract, h]
  | _ => simp [onlyContract]

/-- The clock stands still in a session. -/
def atSecond (n : ℤ) (_ : ℕ) : Input schema := { time := n * 1000000 }

theorem delivery_leaves (n : ℤ) (hn : n = 200 ∨ n = 600) :
    (SlaCall.deliverContract 1 1 "hash").Leaves .exact (atSecond n) (onlyContract runningContract) 1
      (deliveredAt runningContract "hash" (n * 1000000)) := by
  rcases hn with rfl | rfl <;> exact ⟨by decide +kernel, by decide +kernel⟩

/-- Two hundred seconds are within both limits. -/
theorem sla_verdicts_agree_early : (some true = some true ↔ SLAStatus.ACTIVE ≠ .BREACHED) ↔
    AgreeAfter runningContract (200 * 1000000 - 0) :=
  sla_verdicts_agree_iff .exact 1 1 2 "hash" runningContract
    (deliveredAt runningContract "hash" (200 * 1000000))
    { deliveredAt runningContract "hash" (200 * 1000000) with
      state := .COMPLETED, sla_met := some true }
    runningContract 0 rfl rfl (by decide) (onlyContract runningContract)
    (onlyContract (deliveredAt runningContract "hash" (200 * 1000000))) (onlyContract runningContract)
    (atSecond 200) (atSecond 5000) (atSecond 200) (onlyContract_wf _) rfl
    (delivery_leaves 200 (Or.inl rfl)) (onlyContract_wf _) rfl ⟨by decide +kernel, by decide +kernel⟩
    (onlyContract_wf _) rfl ⟨by decide +kernel, by decide +kernel⟩ rfl

/-- After ten minutes the provider is too late to the sweep, and in time to the consumer. -/
theorem sla_verdicts_differ : ¬∀ (col : Columns) (id provider_id consumer_id : Id) (hash : String)
    (contract delivered verified swept : SLAContract) (started : Time), contract.state = .ACTIVE →
    contract.started_at = some started → 1 ≤ contract.delivery_time_secs →
    1 ≤ contract.response_time_secs →
    ∀ (st st' st'' : Store schema) (x y z : ℕ → Input schema), st.db.WF →
    st.db.rows (Key.slaContract id) = some contract →
    (SlaCall.deliverContract id provider_id hash).Leaves col x st id delivered →
    st'.db.WF → st'.db.rows (Key.slaContract id) = some delivered →
    (SlaCall.verifyContract id consumer_id).Leaves col y st' id verified →
    st''.db.WF → st''.db.rows (Key.slaContract id) = some contract →
    SlaCall.enforceSla.Leaves col z st'' id swept → delivered.delivered_at = some (z 0).time →
    (verified.sla_met = some true ↔ swept.state ≠ .BREACHED) := by
  intro h
  have hboth := h .exact 1 1 2 "hash" runningContract
    (deliveredAt runningContract "hash" (600 * 1000000))
    { deliveredAt runningContract "hash" (600 * 1000000) with
      state := .COMPLETED, sla_met := some true }
    (breached runningContract) 0 rfl rfl (by decide) (by decide) (onlyContract runningContract)
    (onlyContract (deliveredAt runningContract "hash" (600 * 1000000))) (onlyContract runningContract)
    (atSecond 600) (atSecond 5000) (atSecond 600) (onlyContract_wf _) rfl
    (delivery_leaves 600 (Or.inr rfl)) (onlyContract_wf _) rfl ⟨by decide +kernel, by decide +kernel⟩
    (onlyContract_wf _) rfl ⟨by decide +kernel, by decide +kernel⟩ rfl
  exact hboth.mp rfl rfl

end Sthrip
