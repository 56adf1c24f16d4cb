import Sthrip.Python.Loops
import Sthrip.Services.PaymentEnvelope

set_option autoImplicit false

/-! # The backfill of the payment envelopes

`scripts/backfill_payment_envelope.py`. The four tables are lists of rows in the order of their ids. Each
batch is read, written and committed before the next, and nothing else writes meanwhile. The columns that
the script does not read are those of the rows in `Db/Models.lean`, and the bucket of the amount, which is
written with the envelope and shown only, is left out.
-/

namespace Sthrip.Backfill

inductive Table where
  | transactions | escrow_deals | escrow_milestones | message_relays
  deriving DecidableEq

structure MilestoneRow extends EscrowMilestone where
  escrow_id : Id

structure MessageRelay where
  from_agent_id : Id
  to_agent_id : Id
  payment_id : Option String

abbrev Table.Row : Table → Type
  | .transactions => Transaction
  | .escrow_deals => EscrowDeal
  | .escrow_milestones => MilestoneRow
  | .message_relays => MessageRelay

/-- What an entry of `_SPECS` reads from a row. -/
structure TableSpec (R : Type) where
  from_attr : R → Option Id
  to_attr : R → Option Id
  amount_attr : Option (R → ℚ)
  description_attr : Option (R → Option String)

def Table.spec : (t : Table) → TableSpec t.Row
  | .transactions =>
      { from_attr := Transaction.from_agent_id
        to_attr := Transaction.to_agent_id
        amount_attr := some Transaction.amount
        description_attr := some Transaction.memo }
  | .escrow_deals =>
      { from_attr := fun deal => some deal.buyer_id
        to_attr := fun deal => some deal.seller_id
        amount_attr := some EscrowDeal.amount
        description_attr := some fun deal => some deal.description }
  | .escrow_milestones =>
      -- the participants come from the parent deal
      { from_attr := fun _ => none
        to_attr := fun _ => none
        amount_attr := some fun ms => ms.amount
        description_attr := some fun ms => some ms.description }
  | .message_relays =>
      { from_attr := fun relay => some relay.from_agent_id
        to_attr := fun relay => some relay.to_agent_id
        amount_attr := none
        description_attr := some MessageRelay.payment_id }

/-- The order of `_SPECS`. -/
def specs : List Table := [.transactions, .escrow_deals, .escrow_milestones, .message_relays]

variable (E : EnvelopeCrypto)

structure Stored (R : Type) extends Sealed E R where
  id : Id

abbrev Tables : Type := (t : Table) → List (Stored E t.Row)

variable {E}

/-- `_resolve_milestone_parents` -/
def resolveMilestoneParents (deals : List (Stored E EscrowDeal))
    (milestones : List (Stored E MilestoneRow)) : List (Id × (Id × Id)) :=
  let escrow_ids := milestones.map fun ms => ms.row.escrow_id
  (deals.filter fun p => p.id ∈ escrow_ids).map fun p => (p.id, (p.row.buyer_id, p.row.seller_id))

/-- The map of the parents for a batch. -/
def parentMap (T : Tables E) : (t : Table) → List (Stored E t.Row) → List (Id × (Id × Id))
  | .escrow_milestones, rows => resolveMilestoneParents (T .escrow_deals) rows
  | _, _ => []

/-- Who is in the envelope of a row; nothing for a milestone that is skipped. -/
def participants (parent_map : List (Id × (Id × Id))) :
    (t : Table) → t.Row → Option (Option Id × Option Id)
  | .escrow_milestones, ms =>
      (parent_map.lookup ms.escrow_id).map fun (buyer, seller) => (some buyer, some seller)
  | t, row => some (t.spec.from_attr row, t.spec.to_attr row)

/-- `_backfill_row`: the row, and whether it has been mutated. -/
def backfillRow (t : Table) (drawn : ℕ) (row : Stored E t.Row) (parent_map : List (Id × (Id × Id)))
    (dry_run : Bool) : Stored E t.Row × Bool :=
  if row.participant_envelope.isSome then (row, false)
  else
    match participants parent_map t row.row with
    | none => (row, false)
    | some (from_id, to_id) =>
        if dry_run then (row, true)
        else
          let amount := t.spec.amount_attr.map fun attr => attr row.row
          let description := t.spec.description_attr.bind fun attr => attr row.row
          ({ row with
              toSealed := applyEnvelope E drawn row.toSealed from_id to_id amount description }, true)

structure Stats where
  processed : ℕ := 0
  skipped : ℕ := 0

/-- The rows that a batch reads. -/
def batch {R : Type} (batch_size : ℕ) (table : List (Stored E R)) : List (Stored E R) :=
  (table.filter fun row => row.participant_envelope.isNone).take batch_size

/-- What each encryption draws, by the row that it is for. -/
abbrev Draws : Type := Table → Id → ℕ

/-- One turn of the loop of `backfill_table`, and whether the loop ends with it. -/
def backfillTurn (batch_size : ℕ) (dry_run : Bool) (draws : Draws) (t : Table) (s : Tables E × Stats) :
    (Tables E × Stats) × Bool :=
  let (T, stats) := s
  let rows := batch batch_size (T t)
  if rows.isEmpty then (s, true)
  else
    let parent_map := parentMap T t rows
    let backfilled row := backfillRow t (draws t row.id) row parent_map dry_run
    let table := (T t).map fun row => if row.id ∈ rows.map Stored.id then (backfilled row).1 else row
    let stats : Stats :=
      { processed := stats.processed + rows.countP fun row => (backfilled row).2
        skipped := stats.skipped + rows.countP fun row => (backfilled row).2 = false }
    ((Function.update T t table, stats), dry_run || rows.length < batch_size)

/-- Nothing, when the fuel runs out. -/
def backfillTable (batch_size : ℕ) (dry_run : Bool) (draws : Draws) (fuel : ℕ) (t : Table) (T : Tables E) :
    Option (Tables E × Stats) :=
  Python.whileTrue (backfillTurn batch_size dry_run draws t) fuel (T, {})

def runTables (table_filter : Option Table) (batch_size : ℕ) (dry_run : Bool) (draws : Draws) (fuel : ℕ) :
    List Table → Tables E → Option (Tables E × List (Table × Stats))
  | [], T => some (T, [])
  | t :: ts, T =>
      if table_filter.any (fun name => t ≠ name) then
        runTables table_filter batch_size dry_run draws fuel ts T
      else do
        let (T, stats) ← backfillTable batch_size dry_run draws fuel t T
        let (T, results) ← runTables table_filter batch_size dry_run draws fuel ts T
        return (T, (t, stats) :: results)

def runBackfill (table_filter : Option Table) (batch_size : ℕ) (dry_run : Bool) (draws : Draws) (fuel : ℕ)
    (T : Tables E) : Option (Tables E × List (Table × Stats)) :=
  runTables table_filter batch_size dry_run draws fuel specs T

end Sthrip.Backfill
