import Sthrip.Db.TransactionRepo
import Sthrip.Services.WalletService

set_option autoImplicit false

/-! # The deposit monitor

`DepositMonitor` of `sthrip/services/deposit_monitor.py`, with `get_incoming_transfers` of
`sthrip/services/wallet_service.py`.

A poll asks the wallet for the transfers from the last height on. A transfer that has no row yet
gets one, and is credited at once or put on the pending balance; a transfer whose row is pending is
credited when it has enough confirmations. The poll lock is left out: it ends by itself after two
poll intervals, whatever its holder is doing.

A deposit address belongs to the agent it was made for. `owner` is that assignment, the column
`deposit_address` of the balances. The object of the balance in which a poll finds an address is
dropped before the balance is locked, so that it is not in the session then.
-/

namespace Sthrip

open Txn Prog

/-! ## The wallet -/

/-- An incoming transfer as the wallet lists it; `minor` is the index of its subaddress. -/
structure Incoming where
  tx_hash : String
  amount : ℕ
  block_height : ℕ := 0
  minor : ℕ := 0
  deriving DecidableEq

/-- What the wallet answers when a poll asks it. -/
structure WalletView where
  incoming_transfers : List Incoming
  height : ℕ
  addresses : List (ℕ × String)

structure Transfer where
  txid : String
  amount : ℚ
  confirmations : ℤ
  height : ℕ
  address : String
  deriving DecidableEq

namespace WalletService

/-- The entry of a transfer in the list, if it has one. -/
def listed (w : WalletView) (min_height : ℕ) (tx : Incoming) : Option Transfer :=
  if 0 < min_height ∧ tx.block_height < min_height then none
  else
    let confirmations : ℤ := if 0 < tx.block_height then w.height - tx.block_height else 0
    -- the primary address is not a deposit address
    if tx.minor = 0 then none
    else
      match w.addresses.lookup tx.minor with
      | none => none
      | some address =>
          if address = "" then none
          else
            some
              { txid := tx.tx_hash
                amount := Hub.piconeroToXmr tx.amount
                confirmations
                height := tx.block_height
                address }

def getIncomingTransfers (w : WalletView) (min_height : ℕ) : List Transfer :=
  w.incoming_transfers.filterMap (listed w min_height)

end WalletService

/-! ## The monitor -/

def HEIGHT_KEY : String := "last_scanned_height"

/-- The settings of a monitor. -/
structure DepositMonitor where
  min_confirmations : ℤ := 10
  network : String := "mainnet"

namespace DepositMonitor

variable (col : Columns) (m : DepositMonitor) (owner : String → Option Id)

/-- `_handle_new_transfer`; the answer is whether there is a webhook to fire. -/
def handleNewTransfer (agent_id : Id) (transfer : Transfer) : Program Bool := do
  let is_confirmed := decide (m.min_confirmations ≤ transfer.confirmations)
  TransactionRepository.create col transfer.txid m.network none (some agent_id) transfer.amount .XMR
    .DEPOSIT (if is_confirmed then .CONFIRMED else .PENDING)
  if is_confirmed then
    let _ ← BalanceRepository.deposit col agent_id transfer.amount .XMR (.deposit transfer.txid)
    return true
  else
    let _ ← BalanceRepository.addPending col agent_id transfer.amount .XMR
    return false

/-- The attributes a poll sets on a row it has found. -/
def refreshed (transfer : Transfer) (newly_confirmed : Bool) (now : Time) (tx : Transaction) :
    Transaction :=
  let tx := { tx with confirmations := transfer.confirmations }
  let tx := if transfer.height = 0 then tx else { tx with block_number := some transfer.height }
  if newly_confirmed then { tx with status := .CONFIRMED, confirmed_at := some now } else tx

/-- `_handle_existing_transfer`. An attribute that keeps its value is not written, and a row of
which nothing is written is not locked. -/
def handleExistingTransfer (agent_id : Id) (existing_tx : Transaction) (transfer : Transfer) :
    Program Bool := do
  let was_pending := decide (existing_tx.status = .PENDING)
  let is_now_confirmed := decide (m.min_confirmations ≤ transfer.confirmations)
  let newly_confirmed := was_pending && is_now_confirmed
  let now ← now
  let tx := refreshed transfer newly_confirmed now existing_tx
  onlyIf (tx ≠ existing_tx)
    (assign (S := schema) (Key.transaction transfer.txid) fun row =>
      { row with
        confirmations :=
          if tx.confirmations = existing_tx.confirmations then row.confirmations
          else tx.confirmations
        block_number :=
          if tx.block_number = existing_tx.block_number then row.block_number
          else tx.block_number
        status := if newly_confirmed then tx.status else row.status
        confirmed_at := if newly_confirmed then tx.confirmed_at else row.confirmed_at })
  if newly_confirmed then
    let _ ← BalanceRepository.deposit col agent_id existing_tx.amount .XMR (.deposit transfer.txid)
    let _ ← BalanceRepository.clearPendingOnConfirm col agent_id existing_tx.amount .XMR
    return true
  else return false

/-- The body of the loop of `_process_transfers`. -/
def processTransfer (transfer : Transfer) : Program Bool :=
  match owner transfer.address with
  | none => return false
  | some agent_id => do
      let existing_tx ← TransactionRepository.getByHash transfer.txid
      match existing_tx with
      | none => handleNewTransfer col m agent_id transfer
      | some existing_tx => handleExistingTransfer col m agent_id existing_tx transfer

/-- The highest block of a list of transfers, at least `last_height`. -/
def maxHeight (last_height : ℕ) (transfers : List Transfer) : ℕ :=
  transfers.foldl (fun max_height transfer => max max_height transfer.height) last_height

/-- `_process_transfers`: the answer is the highest block. The webhooks to fire are counted, and
their contents left out. -/
def processTransfers (last_height : ℕ) (transfers : List Transfer) : Program ℕ := do
  let _ ← tally transfers (processTransfer col m owner)
  let max_height := maxHeight last_height transfers
  onlyIf (0 < max_height) (SystemStateRepository.set HEIGHT_KEY (toString max_height))
  return max_height

/-- `_do_poll_with_session`: the answer is the height to continue from. -/
def doPollWithSession (w : WalletView) (last_height : ℕ) : Program ℕ := do
  let transfers := WalletService.getIncomingTransfers w last_height
  if transfers = [] then return last_height
  else
    let new_height ← withSession (processTransfers col m owner last_height transfers)
    return max last_height new_height

/-- `poll_once` and the handler of `start`: the height of the monitor after the poll. It moves with
the commit of the poll, whether or not the session's own commit after it succeeds. -/
def pollOnce (w : WalletView) (last_height : ℕ) : Program ℕ := do
  let last_height ← tryCatch (doPollWithSession col m owner w last_height) fun _ =>
    return last_height
  tryCatch (withSession (return last_height)) fun _ => return last_height

/-- A monitor that polls again and again; the wallet answers each time what it can see. -/
def polls : List WalletView → ℕ → Program Unit
  | [], _ => return ()
  | w :: views, last_height => do
      let last_height ← pollOnce col m owner w last_height
      polls views last_height

end DepositMonitor

end Sthrip
