import Sthrip.Services.ChannelService
import Sthrip.Txn.View

set_option autoImplicit false

/-! # The channels of a database

What a database says about one channel: its row, what has been credited to its agents, and the
fees recorded for it. The lemmas say how the methods of `ChannelRepository` move a channel.
-/

namespace Sthrip

open Txn Prog

/-! ## One channel -/

/-- A channel: its row, what has been credited for it, and the fees recorded for it. -/
@[ext] structure Channel where
  row : Option PaymentChannel := none
  credited : ℚ := 0
  fees : ℚ := 0

namespace Channel

def setRow (E : Channel) (r : PaymentChannel) : Channel := { E with row := some r }
def credit (E : Channel) (x : ℚ) : Channel := { E with credited := E.credited + x }
def fee (E : Channel) (x : ℚ) : Channel := { E with fees := E.fees + x }

@[simp] theorem setRow_row (E : Channel) (r : PaymentChannel) : (E.setRow r).row = some r := rfl
@[simp] theorem setRow_credited (E : Channel) (r : PaymentChannel) :
    (E.setRow r).credited = E.credited := rfl
@[simp] theorem setRow_fees (E : Channel) (r : PaymentChannel) : (E.setRow r).fees = E.fees := rfl
@[simp] theorem credit_row (E : Channel) (x : ℚ) : (E.credit x).row = E.row := rfl
@[simp] theorem credit_credited (E : Channel) (x : ℚ) :
    (E.credit x).credited = E.credited + x := rfl
@[simp] theorem credit_fees (E : Channel) (x : ℚ) : (E.credit x).fees = E.fees := rfl
@[simp] theorem fee_row (E : Channel) (x : ℚ) : (E.fee x).row = E.row := rfl
@[simp] theorem fee_credited (E : Channel) (x : ℚ) : (E.fee x).credited = E.credited := rfl
@[simp] theorem fee_fees (E : Channel) (x : ℚ) : (E.fee x).fees = E.fees + x := rfl

theorem credit_zero (E : Channel) : E.credit 0 = E := by
  simp only [credit, add_zero]

theorem fee_zero (E : Channel) : E.fee 0 = E := by
  simp only [fee, add_zero]

end Channel

/-! ## The channels of a database -/

/-- What an entry credits for a channel. -/
def Entry.creditedFor (channel_id : Id) : Entry → ℚ
  | .posting p => if p.ref = .channel channel_id then max p.amount 0 else 0
  | _ => 0

/-- The fee an entry records for a channel. -/
def Entry.feeFor (channel_id : Id) : Entry → ℚ
  | .fee f => if f.source_type = "channel" ∧ f.source_id = some channel_id then f.amount else 0
  | _ => 0

def channels (db : DB schema) (channel_id : Id) : Channel where
  row := db.rows (Key.channel channel_id)
  credited := (db.log.map (Entry.creditedFor channel_id)).sum
  fees := (db.log.map (Entry.feeFor channel_id)).sum

@[simp] theorem channels_row (db : DB schema) (c : Id) :
    (channels db c).row = db.rows (Key.channel c) := rfl

/-- From `db` to `db'`, the channel `c` becomes `E` and the other channels stay as they are. -/
abbrev ChannelMoves (db db' : DB schema) (c : Id) (E : Channel) : Prop := Moves channels db db' c E

namespace ChannelMoves

variable {db : DB schema} {c : Id} {E : Channel}

/-- A row of another table. -/
theorem put {k : Key} (row : Row k) (hk : ∀ d, Key.channel d ≠ k) (h : channels db c = E) :
    ChannelMoves db (db.put k row) c E := by
  refine .of_same (fun d => Channel.ext ?_ rfl rfl) h
  simp only [channels_row, DB.put_rows_ne db row (hk d)]

theorem put_row (r : PaymentChannel) (h : channels db c = E) :
    ChannelMoves db (db.put (Key.channel c) r) c (E.setRow r) := by
  refine .of_change ?_ fun d hd => Channel.ext ?_ rfl rfl
  · rw [← h]
    refine Channel.ext ?_ rfl rfl
    simp only [channels_row, Channel.setRow_row]
    exact DB.put_rows_self ..
  · simp only [channels_row]
    exact DB.put_rows_ne _ _ (by simp [hd])

/-- An entry that is about no other channel. -/
theorem append {a : Entry} {x y : ℚ} (hx : a.creditedFor c = x) (hy : a.feeFor c = y)
    (hd : ∀ d, d ≠ c → a.creditedFor d = 0 ∧ a.feeFor d = 0) (h : channels db c = E) :
    ChannelMoves db (db.append a) c ((E.credit x).fee y) := by
  have hcredited : ∀ d, (channels (db.append a) d).credited
      = (channels db d).credited + a.creditedFor d := by
    intro d
    simp only [channels, DB.append_log, List.map_append, List.map_singleton, List.sum_append,
      List.sum_singleton]
  have hfees : ∀ d, (channels (db.append a) d).fees = (channels db d).fees + a.feeFor d := by
    intro d
    simp only [channels, DB.append_log, List.map_append, List.map_singleton, List.sum_append,
      List.sum_singleton]
  refine .of_change ?_ fun d hne => Channel.ext rfl ?_ ?_
  · rw [← h]
    exact Channel.ext rfl (hx ▸ hcredited c) (hy ▸ hfees c)
  · rw [hcredited, (hd d hne).1, add_zero]
  · rw [hfees, (hd d hne).2, add_zero]

theorem append_credit {a : Entry} {x : ℚ} (hx : a.creditedFor c = x)
    (hd : ∀ d, d ≠ c → a.creditedFor d = 0) (hfee : ∀ d, a.feeFor d = 0)
    (h : channels db c = E) : ChannelMoves db (db.append a) c (E.credit x) := by
  have := append hx (hfee c) (fun d hne => ⟨hd d hne, hfee d⟩) h
  rwa [Channel.fee_zero] at this

end ChannelMoves

/-! ## How the repositories move a channel -/

section Specs

variable {col : Columns} {Ok : StepCond schema} {R : Exn → Solo schema → Prop}
  {v : Solo schema} {c : Id} {E : Channel}

theorem updateChannel_always {guard : PaymentChannel → Bool}
    {set : PaymentChannel → PaymentChannel} {Q : Bool → Solo schema → Prop}
    (hE : channels v.db c = E)
    (hit : ∀ r x db', E.row = some r → guard r = true →
      Ok v (.update (Key.channel c) guard set) x → ChannelMoves v.db db' c (E.setRow (set r)) →
      Q true { v with db := db' })
    (miss : (∀ r, E.row = some r → guard r = false) → Q false v) :
    (update (S := schema) (Key.channel c) guard set).always Ok Q R v := by
  subst hE
  exact always_update (fun r x hr hg hok => hit r x _ hr hg hok (.put_row _ rfl)) miss

theorem getChannel_always {Q : Option PaymentChannel → Solo schema → Prop}
    (hE : channels v.db c = E) (h : Q E.row v) :
    (ChannelRepository.getById c).always Ok Q R v :=
  always_select (by subst hE; exact h)

theorem getAsParticipant_always {agent_id : Id} {Q : PaymentChannel → Solo schema → Prop}
    (hE : channels v.db c = E) (h : ∀ r, E.row = some r → Q r v) (hR : ∀ e, R e v) :
    (getAsParticipant c agent_id).always Ok Q R v := by
  refine always_bind (getChannel_always hE ?_)
  refine always_bind (always_orRaise (fun _ => hR _) fun r hr => ?_)
  exact always_bind (always_raiseIf (fun _ => hR _) fun _ => h r hr)

/-- The row of a channel that was there a moment ago. -/
theorem refetchChannel_always {r : PaymentChannel} {Q : PaymentChannel → Solo schema → Prop}
    (hE : channels v.db c = E) (hr : E.row = some r) (h : Q r v) :
    (refetchChannel c).always Ok Q R v := by
  refine always_bind (getChannel_always hE ?_)
  rw [hr]
  exact h

theorem posted_channel {db : DB schema} (agent_id : Id) (token : Token) (b : AgentBalance)
    (amount : ℚ) (hE : channels db c = E) :
    ChannelMoves db (BalanceRepository.posted db agent_id token b amount (.channel c)) c
      (E.credit (max amount 0)) := by
  have hput : ChannelMoves db (db.put (Key.balance agent_id token) b) c E :=
    .put _ (by simp) hE
  refine hput.trans (ChannelMoves.append_credit ?_ (fun d hd => ?_) (fun _ => rfl) hput.self)
  · simp [Entry.creditedFor]
  · simp [Entry.creditedFor, hd.symm]

theorem creditPositive_channel {agent_id : Id} {amount : ℚ} {token : Token}
    {Q : Unit → Solo schema → Prop} (hE : channels v.db c = E)
    (h : ∀ db', ChannelMoves v.db db' c (E.credit (max amount 0)) → Q () { v with db := db' }) :
    (onlyIf (0 < amount)
      (BalanceRepository.credit col agent_id amount token (.channel c))).always Ok Q R v := by
  refine always_onlyIf (fun _ => BalanceRepository.credit_always fun _ _ =>
    h _ (posted_channel _ _ _ _ hE)) fun hpos => h v.db ?_
  rw [max_eq_right (not_lt.mp hpos), Channel.credit_zero]
  exact .refl hE

theorem deductPositive_channel {agent_id : Id} {amount : ℚ} {token : Token}
    {Q : Unit → Solo schema → Prop} (hE : channels v.db c = E)
    (h : ∀ db', ChannelMoves v.db db' c E → Q () { v with db := db' })
    (hR : ∀ x db', R x { v with db := db' }) :
    (onlyIf (0 < amount)
      (BalanceRepository.deduct col agent_id amount token (.channel c))).always Ok Q R v := by
  refine always_onlyIf (fun hpos => BalanceRepository.deduct_always (fun b _ _ => h _ ?_) hR)
    fun _ => h v.db (.refl hE)
  have := posted_channel agent_id token { b with available := col 12 (b.available - amount) }
    (-amount) hE
  rwa [max_eq_right (neg_nonpos.mpr hpos.le), Channel.credit_zero] at this

theorem recordChannelFee_channel {amount : ℚ} {token : Token} {Q : Unit → Solo schema → Prop}
    (hE : channels v.db c = E)
    (h : ∀ db', ChannelMoves v.db db' c (E.fee (if 0 < amount then col 12 amount else 0)) →
      Q () { v with db := db' }) :
    (recordChannelFee col c token amount).always Ok Q R v := by
  refine always_onlyIf (fun hpos => always_insert (h _ ?_)) fun hpos => h v.db ?_
  · have := ChannelMoves.append (a := .fee
      { source_type := "channel", source_id := some c, amount := col 12 amount, token
        status := .PENDING })
      (x := 0) (y := col 12 amount) rfl (by simp [Entry.feeFor])
      (fun d hd => ⟨rfl, by simp [Entry.feeFor, hd.symm]⟩) hE
    rw [if_pos hpos]
    rwa [Channel.credit_zero] at this
  · rw [if_neg hpos, Channel.fee_zero]
    exact .refl hE

/-- An entry of the journal that is about no money. -/
theorem note_channel {a : Entry} {Q : Unit → Solo schema → Prop} (hE : channels v.db c = E)
    (ha : ∀ d, a.creditedFor d = 0) (hfee : ∀ d, a.feeFor d = 0)
    (h : ∀ db', ChannelMoves v.db db' c E → Q () { v with db := db' }) :
    (insert (S := schema) a).always Ok Q R v := by
  refine always_insert (h _ ?_)
  have := ChannelMoves.append_credit (x := 0) (ha c) (fun d _ => ha d) hfee hE
  rwa [Channel.credit_zero] at this

end Specs

end Sthrip
