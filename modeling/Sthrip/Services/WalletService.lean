import Sthrip.Rpc.Retry
import Mathlib.Algebra.Order.Floor.Ring
import Mathlib.Data.Rat.Floor

set_option autoImplicit false

/-! # The hub wallet

`MoneroWalletRPC` of `sthrip/wallet.py`, the withdrawals of `WalletService` in
`sthrip/services/wallet_service.py`, and `_process_onchain_withdrawal` of
`api/routers/balance.py`.

Every request goes over a wire on which anything may happen to it (`Wire`): the wallet executes it
or not, and the caller gets a result, an error, or nothing. A request is repeated when the
connection failed or timed out, at most three times in all.
-/

namespace Sthrip.Hub

/-! ## The wire -/

inductive RpcExn where
  | ConnectionError
  | Timeout
  | HTTPError (status : ℕ)
  | WalletRPCError (message : String)
  | KeyError (key : String)
  | ValueError (text : String)
  deriving DecidableEq

/-- `retry_if_exception_type((requests.ConnectionError, requests.Timeout))` -/
def RpcExn.isTransient : RpcExn → Bool
  | .ConnectionError => true
  | .Timeout => true
  | _ => false

/-- The results the modelled code reads. -/
inductive RpcResult where
  | addresses (address : String) (addresses : List String)
  | transfer (tx_hash : String) (fee : Option ℤ)
  | other
  deriving DecidableEq

/-- The parameters of `transfer`. -/
structure TransferParams where
  address : String
  amount : ℤ
  priority : ℕ := 2
  ring_size : ℕ := 11
  payment_id : Option String := none
  deriving DecidableEq

inductive Request where
  | get_address (account_index : ℕ)
  | transfer (params : TransferParams)
  deriving DecidableEq

/-- The transfers the wallet makes when it executes a request. -/
def Request.moves : Request → List TransferParams
  | .get_address _ => []
  | .transfer params => [params]

/-- What will happen to the requests, one after another, and the transfers the wallet has made. -/
structure Wire where
  attempts : ℕ → Rpc.Attempt RpcExn RpcResult
  sent : List TransferParams := []

/-- The wire after one request. -/
def Wire.shift (w : Wire) (r : Request) : Wire where
  attempts := fun n => w.attempts (n + 1)
  sent := w.sent ++ if (w.attempts 0).executed then r.moves else []

/-! ## Calls -/

namespace MoneroWalletRPC

/-- The request, and `n` more while it fails transiently. -/
def callAgain : ℕ → Request → Wire → Except RpcExn RpcResult × Wire
  | 0, r, w => ((w.attempts 0).reply, w.shift r)
  | n + 1, r, w =>
      match (w.attempts 0).reply with
      | .ok a => (.ok a, w.shift r)
      | .error e => if e.isTransient then callAgain n r (w.shift r) else (.error e, w.shift r)

/-- `_call`: `stop_after_attempt(3)`. -/
def call : Request → Wire → Except RpcExn RpcResult × Wire := callAgain 2

/-- XMR in atomic units: `int(Decimal(str(amount)) * Decimal("1000000000000"))`. -/
def atomic (amount : ℚ) : ℤ :=
  if 0 ≤ amount then ⌊amount * 10 ^ 12⌋ else -⌊-(amount * 10 ^ 12)⌋

def transfer (destination : String) (amount : ℚ) : Wire → Except RpcExn RpcResult × Wire :=
  call (.transfer { address := destination, amount := atomic amount })

def getAddress (account_index : ℕ) : Wire → Except RpcExn RpcResult × Wire :=
  call (.get_address account_index)

end MoneroWalletRPC

/-! ## Withdrawals -/

/-- The wallet service; `hub_addr_cache` is the set of the hub's addresses and the time it was
fetched. -/
structure WalletService where
  account_index : ℕ := 0
  hub_addr_cache : Option (List String × ℚ) := none
  hub_addr_cache_ttl : ℚ := 300

/-- What a sent withdrawal returns. -/
structure Sent where
  tx_hash : String
  fee : ℚ
  amount : ℚ

def piconeroToXmr (piconero : ℤ) : ℚ := piconero / 10 ^ 12

namespace WalletService

/-- `_get_hub_addresses`, at the time `now`. -/
def getHubAddresses (svc : WalletService) (now : ℚ) (w : Wire) :
    Except RpcExn (List String) × Wire :=
  let fetch : Except RpcExn (List String) × Wire :=
    match MoneroWalletRPC.getAddress svc.account_index w with
    | (.ok (.addresses address addresses), w) => (.ok (address :: addresses), w)
    | (.ok _, w) => (.error (.KeyError "address"), w)
    | (.error e, w) => (.error e, w)
  match svc.hub_addr_cache with
  | some (addresses, time) =>
      if now - time < svc.hub_addr_cache_ttl then (.ok addresses, w) else fetch
  | none => fetch

def sendWithdrawal (svc : WalletService) (now : ℚ) (to_address : String) (amount : ℚ) (w : Wire) :
    Except RpcExn Sent × Wire :=
  match svc.getHubAddresses now w with
  | (.error e, w) => (.error e, w)
  | (.ok hub_addresses, w) =>
      if to_address ∈ hub_addresses then
        (.error (.ValueError
          "Cannot withdraw to hub wallet's own address — self-send would create an accounting discrepancy"), w)
      else
        match MoneroWalletRPC.transfer to_address amount w with
        | (.error e, w) => (.error e, w)
        | (.ok (.transfer tx_hash fee), w) =>
            (.ok { tx_hash, fee := piconeroToXmr (fee.getD 0), amount }, w)
        | (.ok _, w) => (.error (.KeyError "tx_hash"), w)

end WalletService

/-- How a withdrawal ends: the response, and what is noted at the pending withdrawal. -/
inductive WithdrawalEnd where
  | sent (result : Sent)
  | timedOut (reason : String := "RPC timeout — verify on-chain before refunding")
  | failed (e : RpcExn)

/-- `_process_onchain_withdrawal`. The withdrawal runs in a thread of its own; when the handler
gives up waiting (`gaveUp`), the thread goes on. -/
def processOnchainWithdrawal (svc : WalletService) (now : ℚ) (amount : ℚ) (address : String)
    (gaveUp : Bool) (w : Wire) : WithdrawalEnd × Wire :=
  match svc.sendWithdrawal now address amount w with
  | (result, w) =>
      if gaveUp then (.timedOut, w)
      else
        match result with
        | .ok sent => (.sent sent, w)
        | .error e => (.failed e, w)

end Sthrip.Hub
