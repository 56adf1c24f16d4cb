import Sthrip.Channel.View
import Mathlib.Tactic.Linarith
import Mathlib.Tactic.NormNum

set_option autoImplicit false

/-! # Channels and conservation of money

A channel pays out the positive balances of its row when it is closed, and the fee of its
settlement is recorded next to them. The deposits are conserved exactly when the two add up to
the deposits. Only an update checks the sum of the balances it is given: `settle` and `dispute`
take any balances, and the fee comes out of nobody's balance.

`Balanced ch` is the condition that every settlement and dispute of channel `ch` names balances
that leave room for the fee, and nothing else. Under it every run conserves the deposits.
-/

namespace Sthrip

open Txn Prog

/-! ## The books of a channel -/

def PaymentChannel.deposits (r : PaymentChannel) : ℚ := r.deposit_a + r.deposit_b

/-- What closing the channel credits. -/
def PaymentChannel.payout (r : PaymentChannel) : ℚ := max r.balance_a 0 + max r.balance_b 0

/-- The books of a channel whose row is `r`. -/
def Channel.Books (E : Channel) (r : PaymentChannel) : Prop :=
  match r.status with
  | .OPEN => E.credited = 0 ∧ E.fees = 0 ∧ 0 ≤ r.deposits
  | .CLOSING => E.credited = 0 ∧ r.payout + E.fees = r.deposits
  | .SETTLED => E.credited = 0 ∧ r.payout + E.fees = r.deposits
  | .CLOSED => E.credited + E.fees = r.deposits
  | _ => False

/-- A channel that is not there has paid nothing; one that is there has its books in order. -/
def Channel.Accounted (E : Channel) : Prop :=
  match E.row with
  | none => E = {}
  | some r => E.Books r

/-- The condition that the deposits of channel `ch` are not negative in sum, and that a settlement
or a dispute of it that takes effect names balances which, with the fee, add up to them. -/
def Balanced (ch : Id) : ChannelCall → StepCond schema
  | .openChannel c _ _ deposit_a deposit_b _, _, .create (Key.channel _) _, _ =>
      c = ch → 0 ≤ numeric 8 deposit_a + numeric 8 deposit_b
  | .settle c _ _ balance_a balance_b _ _, v, .update (Key.channel _) _ _, _ =>
      c = ch → ∀ r, v.db.rows (Key.channel c) = some r → r.status = .OPEN →
        max (numeric 8 balance_a) 0 + max (numeric 8 balance_b) 0
          + settlementFee r.deposit_a balance_a = r.deposits
  | .dispute c _ _ balance_a balance_b _ _, v, .update (Key.channel _) _ _, _ =>
      c = ch → ∀ r, v.db.rows (Key.channel c) = some r → r.status = .CLOSING →
        max (numeric 8 balance_a) 0 + max (numeric 8 balance_b) 0 + (channels v.db c).fees
          = r.deposits
  | _, _, _, _ => True

namespace Channel

variable {E : Channel} {r : PaymentChannel}

theorem accounted_of_some (h : E.row = some r) : E.Accounted ↔ E.Books r := by
  unfold Accounted
  rw [h]

theorem accounted_of_none (h : E.row = none) : E.Accounted ↔ E = {} := by
  unfold Accounted
  rw [h]

theorem PaymentChannel.payout_nonneg (r : PaymentChannel) : 0 ≤ r.payout :=
  add_nonneg (le_max_right _ _) (le_max_right _ _)

/-- **What the books are for.** -/
theorem Accounted.conserved (h : E.Accounted) (hr : E.row = some r) :
    E.credited + E.fees ≤ r.deposits ∧
      (r.status = .CLOSED → E.credited + E.fees = r.deposits) ∧
      (r.status ≠ .CLOSED → E.credited = 0) := by
  rw [accounted_of_some hr] at h
  have hpayout := PaymentChannel.payout_nonneg r
  unfold Books at h
  cases hs : r.status with
  | OPEN =>
      rw [hs] at h
      obtain ⟨hc, hf, hd⟩ := h
      exact ⟨by linarith, by simp, fun _ => hc⟩
  | CLOSING =>
      rw [hs] at h
      exact ⟨by linarith [h.1, h.2], by simp, fun _ => h.1⟩
  | SETTLED =>
      rw [hs] at h
      exact ⟨by linarith [h.1, h.2], by simp, fun _ => h.1⟩
  | CLOSED =>
      rw [hs] at h
      exact ⟨le_of_eq h, fun _ => h, fun hne => absurd rfl hne⟩
  | PENDING => rw [hs] at h; exact h.elim
  | DISPUTED => rw [hs] at h; exact h.elim

end Channel

theorem settlementFee_nonneg (deposit_a balance_a : ℚ) : 0 ≤ settlementFee deposit_a balance_a :=
  quantize_nonneg 8 (mul_nonneg (abs_nonneg _) (by norm_num [channelFeePercent]))

/-- The fee has eight digits, so that the column keeps it. -/
theorem recorded_settlementFee (deposit_a balance_a : ℚ) :
    (if 0 < settlementFee deposit_a balance_a
      then Columns.rounding 12 (settlementFee deposit_a balance_a) else 0)
      = settlementFee deposit_a balance_a := by
  split
  · exact numeric_of_mem (decimals_mono (by norm_num) (quantize_mem 8 _))
  · next h => exact le_antisymm (settlementFee_nonneg ..) (not_lt.mp h)

/-! ## The methods -/

/-- A program moved channel `c`, and if this is `ch` it kept its books in order. -/
def KeepsChannel (ch c : Id) (v v' : Solo schema) : Prop :=
  ∃ db' E', v' = { v with db := db' } ∧ ChannelMoves v.db db' c E' ∧
    (c = ch → (channels v.db c).Accounted → E'.Accounted)

theorem KeepsChannel.accounted {ch c : Id} {v v' : Solo schema} (h : KeepsChannel ch c v v')
    (ha : (channels v.db ch).Accounted) : (channels v'.db ch).Accounted := by
  obtain ⟨db', E', rfl, hm, hE⟩ := h
  exact hm.keeps hE ha

section Methods

variable {ch c : Id} {v : Solo schema} {E E' : Channel} {r r' : PaymentChannel}

/-- A method that finds a channel and leaves a channel. -/
theorem KeepsChannel.of {db' : DB schema} (hE : channels v.db c = E) (hr : E.row = some r)
    (hm : ChannelMoves v.db db' c E') (hr' : E'.row = some r')
    (h : c = ch → E.Books r → E'.Books r') : KeepsChannel ch c v { v with db := db' } := by
  refine ⟨db', E', rfl, hm, fun hc ha => ?_⟩
  rw [hE, Channel.accounted_of_some hr] at ha
  exact (Channel.accounted_of_some hr').mpr (h hc ha)

theorem openChannel_keeps (agent_a_id agent_b_id : Id) (deposit_a deposit_b : ℚ)
    (settlement_period : ℤ) :
    (ChannelService.openChannel .rounding c agent_a_id agent_b_id deposit_a deposit_b
      settlement_period).always
      (Balanced ch (.openChannel c agent_a_id agent_b_id deposit_a deposit_b settlement_period))
      (fun _ v' => KeepsChannel ch c v v') (Unsaved v) v := by
  generalize hE : channels v.db c = E
  refine always_bind (always_raiseIf (fun _ => rfl) fun _ => ?_)
  refine always_bind (always_raiseIf (fun _ => rfl) fun _ => ?_)
  refine always_bind (deductPositive_channel hE (fun db₁ m₁ => ?_) fun _ _ => rfl)
  refine always_bind (deductPositive_channel m₁.self (fun db₂ m₂ => ?_) fun _ _ => rfl)
  refine always_bind (always_create (fun x hnew hok => ?_) fun r hr =>
    always_bind (always_raiseIf (fun _ => rfl) fun hf => absurd rfl hf))
  refine always_bind (always_raiseIf (fun hf => by cases hf) fun _ => ?_)
  refine ⟨_, _, rfl, (m₁.trans m₂).trans (ChannelMoves.put_row _ m₂.self), fun hc ha => ?_⟩
  have hrow : E.row = none := by rw [← m₂.self]; exact hnew
  rw [hE, Channel.accounted_of_none hrow] at ha
  subst ha
  exact (Channel.accounted_of_some (Channel.setRow_row _ _)).mpr ⟨rfl, rfl, hok hc⟩

theorem submitUpdate_keeps (agent_id : Id) (nonce : ℤ) (balance_a balance_b : ℚ)
    (signature_a signature_b : String) {Ok : StepCond schema} :
    (ChannelService.submitUpdate .rounding c agent_id nonce balance_a balance_b signature_a
      signature_b).always Ok (fun _ v' => KeepsChannel ch c v v') (Unsaved v) v := by
  generalize hE : channels v.db c = E
  refine always_bind (getAsParticipant_always hE (fun r hr => ?_) fun _ => rfl)
  refine always_bind (always_bind (always_query fun l _ _ => ?_))
  refine always_bind (always_raiseIf (fun _ => rfl) fun _ => ?_)
  refine always_bind (always_raiseIf (fun _ => rfl) fun _ => ?_)
  refine always_bind (always_bind (always_create (fun _ _ _ => ?_) fun r hr =>
    always_bind (always_raiseIf (fun _ => rfl) fun hf => absurd rfl hf)))
  refine always_bind (always_raiseIf (fun hf => by cases hf) fun _ => ?_)
  have m₁ := ChannelMoves.put (k := Key.channelUpdate c nonce)
    ⟨Columns.rounding 8 balance_a, Columns.rounding 8 balance_b, some signature_a,
      some signature_b⟩ (by simp) hE
  refine always_bind (note_channel m₁.self (fun _ => rfl) (fun _ => rfl) fun db₂ m₂ => ?_)
  exact .of hE hr (m₁.trans m₂) hr fun _ hb => hb

theorem settle_keeps (agent_id : Id) (nonce : ℤ) (balance_a balance_b : ℚ)
    (sig_a sig_b : String) :
    (ChannelService.settle .rounding c agent_id nonce balance_a balance_b sig_a sig_b).always
      (Balanced ch (.settle c agent_id nonce balance_a balance_b sig_a sig_b))
      (fun _ v' => KeepsChannel ch c v v') (Unsaved v) v := by
  generalize hE : channels v.db c = E
  refine always_bind (always_raiseIf (fun _ => rfl) fun _ => ?_)
  refine always_bind (getAsParticipant_always hE (fun r hr => ?_) fun _ => rfl)
  refine always_bind (always_raiseIf (fun _ => rfl) fun hs => ?_)
  rw [not_not] at hs
  refine always_bind (always_bind (getChannel_always hE (always_bind (always_now fun t => ?_))))
  refine updateChannel_always hE (fun r' x db₁ hr' _ hok m₁ => ?_) fun _ =>
    always_bind (always_raiseIf (fun _ => rfl) fun hf => absurd rfl hf)
  obtain rfl : r' = r := by rwa [hr, Option.some.injEq, eq_comm] at hr'
  refine always_bind (always_raiseIf (fun hf => by cases hf) fun _ => ?_)
  refine always_bind (note_channel m₁.self (fun _ => rfl) (fun _ => rfl) fun db₂ m₂ => ?_)
  refine always_bind (recordChannelFee_channel m₂.self fun db₃ m₃ => ?_)
  refine always_bind (refetchChannel_always m₃.self rfl ?_)
  refine .of hE hr ((m₁.trans m₂).trans m₃) rfl fun hc hb => ?_
  have hsum := hok hc r' (by rw [← hr, ← hE]; rfl) hs
  unfold Channel.Books at hb
  rw [hs] at hb
  refine ⟨hb.1, ?_⟩
  rw [Channel.fee_fees, recorded_settlementFee, Channel.setRow_fees, hb.2.1, zero_add]
  exact hsum

theorem settleIfDue_always {Ok : StepCond schema} {R : Exn → Solo schema → Prop}
    {Q : PaymentChannel → Solo schema → Prop} (hE : channels v.db c = E) (hr : E.row = some r)
    (h : ∀ r' db', ChannelMoves v.db db' c (E.setRow r') → (E.Books r → (E.setRow r').Books r') →
      Q r' { v with db := db' })
    (hR : ∀ e, R e v) : (ChannelService.settleIfDue c r).always Ok Q R v := by
  unfold ChannelService.settleIfDue
  split
  · next hs =>
      refine always_bind (always_now fun t => always_bind (always_raiseIf (fun _ => hR _)
        fun _ => ?_))
      refine always_bind (always_bind (always_now fun t' => ?_))
      refine updateChannel_always hE (fun r' x db₁ hr' _ _ m₁ => ?_) fun hmiss => ?_
      · obtain rfl : r' = r := by rwa [hr, Option.some.injEq, eq_comm] at hr'
        refine refetchChannel_always m₁.self rfl (h _ db₁ m₁ fun hb => ?_)
        unfold Channel.Books at hb ⊢
        rw [hs] at hb
        exact hb
      · have := hmiss r hr
        simp [hs] at this
  · refine h r v.db ?_ fun hb => hb
    have : E.setRow r = E := Channel.ext hr.symm rfl rfl
    rw [this]
    exact .refl hE

theorem close_keeps (agent_id : Id) {Ok : StepCond schema} :
    (ChannelService.close .rounding c agent_id).always Ok
      (fun _ v' => KeepsChannel ch c v v') (Unsaved v) v := by
  generalize hE : channels v.db c = E
  refine always_bind (getAsParticipant_always hE (fun r hr => ?_) fun _ => rfl)
  refine always_bind (settleIfDue_always hE hr (fun r₁ db₁ m₁ hb₁ => ?_) fun _ => rfl)
  refine always_bind (always_raiseIf (fun _ => rfl) fun hs => ?_)
  rw [not_not] at hs
  refine always_bind (creditPositive_channel m₁.self fun db₂ m₂ => ?_)
  refine always_bind (creditPositive_channel m₂.self fun db₃ m₃ => ?_)
  refine always_bind (always_bind (always_now fun t => ?_))
  refine updateChannel_always m₃.self (fun r₂ x db₄ hr₂ _ _ m₄ => ?_) fun _ =>
    always_bind (always_raiseIf (fun _ => rfl) fun hf => absurd rfl hf)
  obtain rfl : r₁ = r₂ := by simpa using hr₂
  refine always_bind (always_raiseIf (fun hf => by cases hf) fun _ => ?_)
  refine always_bind (note_channel m₄.self (fun _ => rfl) (fun _ => rfl) fun db₅ m₅ => ?_)
  refine refetchChannel_always m₅.self rfl ?_
  refine .of hE hr ((((m₁.trans m₂).trans m₃).trans m₄).trans m₅) rfl fun _ hb => ?_
  -- the balances of the row are what has just been credited
  replace hb := hb₁ hb
  unfold Channel.Books at hb
  rw [hs] at hb
  show (E.credited + max r₁.balance_a 0) + max r₁.balance_b 0 + E.fees = r₁.deposits
  have hcredited : E.credited = 0 := hb.1
  have hsum : max r₁.balance_a 0 + max r₁.balance_b 0 + E.fees = r₁.deposits := hb.2
  linarith

theorem dispute_keeps (agent_id : Id) (nonce : ℤ) (balance_a balance_b : ℚ)
    (sig_a sig_b : String) :
    (ChannelService.dispute .rounding c agent_id nonce balance_a balance_b sig_a sig_b).always
      (Balanced ch (.dispute c agent_id nonce balance_a balance_b sig_a sig_b))
      (fun _ v' => KeepsChannel ch c v v') (Unsaved v) v := by
  generalize hE : channels v.db c = E
  refine always_bind (getAsParticipant_always hE (fun r hr => ?_) fun _ => rfl)
  refine always_bind (always_raiseIf (fun _ => rfl) fun hs => ?_)
  rw [not_not] at hs
  refine always_bind (always_raiseIf (fun _ => rfl) fun _ => ?_)
  refine always_bind (updateChannel_always hE (fun r' x db₁ hr' _ hok m₁ => ?_) fun _ =>
    always_bind (always_raiseIf (fun _ => rfl) fun hf => absurd rfl hf))
  obtain rfl : r' = r := by rwa [hr, Option.some.injEq, eq_comm] at hr'
  refine always_bind (always_raiseIf (fun hf => by cases hf) fun _ => ?_)
  refine always_bind (always_now fun t => ?_)
  refine always_bind (note_channel m₁.self (fun _ => rfl) (fun _ => rfl) fun db₂ m₂ => ?_)
  refine refetchChannel_always m₂.self rfl ?_
  refine .of hE hr (m₁.trans m₂) rfl fun hc hb => ?_
  have hsum := hok hc r' (by rw [← hr, ← hE]; rfl) hs
  rw [hE] at hsum
  unfold Channel.Books at hb ⊢
  rw [hs] at hb
  simp only [hs]
  exact ⟨hb.1, hsum⟩

/-- The sweep settles one channel after another. -/
theorem autoSettleExpired_keeps {Ok : StepCond schema} (ha : (channels v.db ch).Accounted) :
    ChannelService.autoSettleExpired.always Ok
      (fun _ v' => (channels v'.db ch).Accounted ∧ v'.saved = v.saved) (Unsaved v) v := by
  refine always_bind (always_bind (always_now fun t => always_bind (always_query fun l _ _ => ?_)))
  refine always_tally (fun v' => (channels v'.db ch).Accounted ∧ v'.saved = v.saved) _
    (fun c _ v' ⟨ha', hsaved⟩ => ?_) ⟨ha, rfl⟩
  refine always_bind (always_now fun t' => ?_)
  refine updateChannel_always rfl (fun r x db₁ hr hg _ m₁ => ?_) fun _ => ⟨ha', hsaved⟩
  refine ⟨?_, hsaved⟩
  have hk : KeepsChannel ch c v' { v' with db := db₁ } := by
    refine .of rfl hr m₁ rfl fun _ hb => ?_
    have hs : r.status = .CLOSING := by simpa using hg
    unfold Channel.Books at hb ⊢
    rw [hs] at hb
    exact hb
  exact hk.accounted ha'

end Methods

/-! ## Runs -/

/-- Every call keeps the books of every channel in order. -/
theorem ChannelCall.body_keeps {ch : Id} (c : ChannelCall) {v : Solo schema}
    (ha : (channels v.db ch).Accounted) :
    (c.body .rounding).always (Balanced ch c)
      (fun _ v' => (channels v'.db ch).Accounted ∧ v'.saved = v.saved) (Unsaved v) v := by
  have unit : ∀ {α : Type} {c' : Id} {p : Program α} {Ok : StepCond schema},
      p.always Ok (fun _ v' => KeepsChannel ch c' v v') (Unsaved v) v →
      (p.bind fun _ => .ret ()).always Ok
        (fun _ v' => (channels v'.db ch).Accounted ∧ v'.saved = v.saved) (Unsaved v) v := by
    intro α c' p Ok h
    refine always_bind (always_mono h (fun _ v' hk => ⟨hk.accounted ha, ?_⟩) fun _ _ hr => hr)
    obtain ⟨db', E', rfl, -⟩ := hk
    rfl
  cases c with
  | openChannel => exact unit (openChannel_keeps _ _ _ _ _)
  | submitUpdate => exact unit (submitUpdate_keeps _ _ _ _ _ _)
  | settle => exact unit (settle_keeps _ _ _ _ _ _)
  | close => exact unit (close_keeps _)
  | dispute => exact unit (dispute_keeps _ _ _ _ _ _)
  | autoSettleExpired => exact always_bind (autoSettleExpired_keeps ha)

/-- A call at which every reading of the clock is `t` hours. -/
def ChannelCall.at (c : ChannelCall) (t : ℤ) : ChannelCall × (ℕ → Input schema) :=
  (c, fun _ => { time := hours t })

/-- Agent 1 opens a channel with five units, settles on the balances and closes it. -/
def openSettleClose (balance_a balance_b : ℚ) : List (ChannelCall × (ℕ → Input schema)) :=
  [(ChannelCall.openChannel 1 1 2 5 0 3600).at 0,
    (ChannelCall.settle 1 1 1 balance_a balance_b "a" "b").at 0, (ChannelCall.close 1 1).at 2]

/-- The test that a settlement names balances that leave room for the fee, in runs without
disputes. -/
def balanced : ChannelCall → Solo schema → Stmt schema → Input schema → Bool
  | .openChannel _ _ _ deposit_a deposit_b _, _, _, _ =>
      0 ≤ numeric 8 deposit_a + numeric 8 deposit_b
  | .settle c _ _ balance_a balance_b _ _, v, .update (Key.channel _) _ _, _ =>
      (v.db.rows (Key.channel c)).all fun r =>
        max (numeric 8 balance_a) 0 + max (numeric 8 balance_b) 0
          + settlementFee r.deposit_a balance_a = r.deposits
  | .dispute .., _, _, _ => false
  | _, _, _, _ => true

theorem balanced_of (ch : Id) (c : ChannelCall) (v : Solo schema) (s : Stmt schema)
    (x : Input schema) (h : balanced c v s x = true) : Balanced ch c v s x := by
  unfold Balanced
  split
  · intro _
    exact of_decide_eq_true h
  · intro _ r hr _
    simp only [balanced, hr, Option.all_some, decide_eq_true_eq] at h
    exact h
  · cases h
  · trivial

/-- The channel after a list of calls, if it is closed with deposits of five. -/
def closesAt (l : List (ChannelCall × (ℕ → Input schema))) : Bool :=
  ((serveAll (ChannelCall.run .rounding) l tenUnits).db.rows (Key.channel 1)).any fun r =>
    r.status = .CLOSED ∧ r.deposit_a = 5 ∧ r.deposit_b = 0

theorem exists_of_closesAt {l : List (ChannelCall × (ℕ → Input schema))}
    (h : closesAt l = true) : ∃ r : PaymentChannel,
      (serveAll (ChannelCall.run .rounding) l tenUnits).db.rows (Key.channel 1) = some r ∧
      r.status = .CLOSED ∧ r.deposit_a = 5 ∧ r.deposit_b = 0 := by
  simpa [closesAt, Option.any_eq_true] using h

end Sthrip
