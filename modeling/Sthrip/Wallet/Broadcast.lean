import Sthrip.Services.WalletService
import Mathlib.Tactic.Linarith

set_option autoImplicit false

/-! # How often a withdrawal is broadcast

A withdrawal should leave the hub wallet at most once, and with no more than the amount that was
taken off the agent's balance. The request that moves the money goes through the same retries as
every other one (`MoneroWalletRPC.call`): it is sent again when its reply is lost, whether the
wallet has executed it or not. `RepliesArrive` is the condition on what happens on the wire under
which that is harmless.
-/

namespace Sthrip.Hub

open Rpc

variable {svc : WalletService} {now amount : ℚ} {address : String} {gaveUp : Bool} {w : Wire}

/-- The attempts at a request that may be repeated twice. -/
abbrev Wire.tries (w : Wire) (n : ℕ) : List (Attempt RpcExn RpcResult) :=
  Rpc.tries RpcExn.isTransient n w.attempts

/-- A request moves what it moves as often as it is executed. -/
theorem callAgain_sent (n : ℕ) (r : Request) (w : Wire) :
    (MoneroWalletRPC.callAgain n r w).2.sent = w.sent ++
      (List.replicate ((w.tries n).countP (·.executed)) r.moves).flatten := by
  have hone : (w.shift r).sent = w.sent ++
      (List.replicate (if (w.attempts 0).executed then 1 else 0) r.moves).flatten := by
    rw [Wire.shift]
    split
    · rw [List.replicate_one, List.flatten_singleton]
    · rw [List.replicate_zero, List.flatten_nil]
  induction n generalizing w with
  | zero =>
      rw [MoneroWalletRPC.callAgain, hone, Wire.tries, Rpc.tries, List.countP_singleton]
  | succ n ih =>
      have stops : (w.attempts 0).lost RpcExn.isTransient = false →
          (w.tries (n + 1)).countP (·.executed) = if (w.attempts 0).executed then 1 else 0 := by
        intro h
        rw [Wire.tries, Rpc.tries, if_neg (by simp [h]), List.countP_singleton]
      rw [MoneroWalletRPC.callAgain]
      split
      · next a ha => rw [hone, stops (by rw [Attempt.lost, ha])]
      · next e he =>
          split
          · next htransient =>
              have hlost : (w.attempts 0).lost RpcExn.isTransient = true := by
                rw [Attempt.lost, he]
                exact htransient
              have htries : w.tries (n + 1) = w.attempts 0 :: (w.shift r).tries n := by
                rw [Wire.tries, Rpc.tries, if_pos hlost]
                rfl
              rw [ih (w.shift r) (by
                rw [Wire.shift]
                split
                · rw [List.replicate_one, List.flatten_singleton]
                · rw [List.replicate_zero, List.flatten_nil]), hone, htries, List.countP_cons,
                List.append_assoc, ← List.flatten_append, ← List.replicate_add, Nat.add_comm]
          · next htransient =>
              rw [hone, stops (by rw [Attempt.lost, he]; simpa using htransient)]

/-- Asking for the addresses moves nothing. -/
theorem getHubAddresses_sent (svc : WalletService) (now : ℚ) (w : Wire) :
    (svc.getHubAddresses now w).2.sent = w.sent := by
  have hcall : (MoneroWalletRPC.getAddress svc.account_index w).2.sent = w.sent := by
    rw [MoneroWalletRPC.getAddress, MoneroWalletRPC.call, callAgain_sent]
    simp [Request.moves]
  unfold WalletService.getHubAddresses
  dsimp only
  split
  · split
    · rfl
    · rw [← hcall]
      split <;> next h => rw [h]
  · rw [← hcall]
    split <;> next h => rw [h]

/-- The request that moves the money. -/
def withdrawalParams (address : String) (amount : ℚ) : TransferParams :=
  { address, amount := MoneroWalletRPC.atomic amount }

/-- The wire on which the transfer is requested, if it comes to that. -/
def transferWire (svc : WalletService) (now : ℚ) (address : String) (w : Wire) : Option Wire :=
  match svc.getHubAddresses now w with
  | (.ok hub_addresses, w₁) => if address ∈ hub_addresses then none else some w₁
  | (.error _, _) => none

/-- How often the wallet executes the transfer of a withdrawal. -/
def broadcasts (svc : WalletService) (now : ℚ) (address : String) (w : Wire) : ℕ :=
  (transferWire svc now address w).elim 0 fun w₁ => (w₁.tries 2).countP (·.executed)

theorem withdrawal_sent :
    (processOnchainWithdrawal svc now amount address gaveUp w).2.sent = w.sent ++
      List.replicate (broadcasts svc now address w) (withdrawalParams address amount) := by
  have hend : (processOnchainWithdrawal svc now amount address gaveUp w).2
      = (svc.sendWithdrawal now address amount w).2 := by
    unfold processOnchainWithdrawal
    split
    next result w' h =>
      rw [h]
      split
      · rfl
      · split <;> rfl
  have hlook := getHubAddresses_sent svc now w
  rw [hend]
  unfold WalletService.sendWithdrawal broadcasts transferWire
  split
  · next e w₁ h =>
      rw [h] at hlook ⊢
      exact hlook.trans (List.append_nil _).symm
  · next hub_addresses w₁ h =>
      rw [h] at hlook ⊢
      dsimp only
      split
      · exact hlook.trans (List.append_nil _).symm
      · have hcall := callAgain_sent 2
          (.transfer { address, amount := MoneroWalletRPC.atomic amount }) w₁
        have hsent : (MoneroWalletRPC.transfer address amount w₁).2.sent
            = w.sent ++ List.replicate ((w₁.tries 2).countP (·.executed))
              (withdrawalParams address amount) := by
          refine hcall.trans ?_
          rw [hlook, Request.moves, List.flatten_replicate_singleton]
          rfl
        rw [Option.elim_some, ← hsent]
        split <;> next h' => rw [h']

/-! ## The condition -/

/-- Of the attempts at the transfer, none that the wallet executes is followed by another that it
executes; an attempt follows while the replies to all before it are lost. -/
def RepliesArrive (svc : WalletService) (now : ℚ) (address : String) (w : Wire) : Prop :=
  ∀ w₁, transferWire svc now address w = some w₁ →
    ∀ i j, i < j → (w₁.attempts i).executed = true → j ≤ 2 →
      (∀ k < j, (w₁.attempts k).lost RpcExn.isTransient = true) →
      (w₁.attempts j).executed = false

theorem broadcasts_le_one :
    broadcasts svc now address w ≤ 1 ↔ RepliesArrive svc now address w := by
  unfold broadcasts RepliesArrive
  cases transferWire svc now address w with
  | none => simp
  | some w₁ =>
      rw [Option.elim_some, executed_le_one]
      constructor
      · rintro h w₂ ⟨⟩ i j hij hi hj hlost
        exact Bool.eq_false_iff.mpr fun hex => h i j hij hi ⟨hj, hlost, hex⟩
      · rintro h i j hij hi ⟨hj, hlost, hex⟩
        rw [h w₁ rfl i j hij hi hj hlost] at hex
        cases hex

/-- What the wallet sends is no more than what was asked for. -/
theorem atomic_le (h : 0 ≤ amount) : (MoneroWalletRPC.atomic amount : ℚ) / 10 ^ 12 ≤ amount := by
  have hfloor : ((⌊amount * 10 ^ 12⌋ : ℤ) : ℚ) ≤ amount * 10 ^ 12 := Int.floor_le _
  rw [MoneroWalletRPC.atomic, if_pos h, div_le_iff₀ (by norm_num)]
  exact hfloor

/-- **At most one broadcast.** For every withdrawal and everything that may happen on the wire, the
wallet executes the transfer at most once iff `RepliesArrive`; and then no more than the amount of
the withdrawal leaves the wallet. -/
theorem withdrawal_broadcast_once (svc : WalletService) (now amount : ℚ) (address : String)
    (gaveUp : Bool) (w : Wire) :
    ∃ n, (processOnchainWithdrawal svc now amount address gaveUp w).2.sent
        = w.sent ++ List.replicate n (withdrawalParams address amount) ∧
      (n ≤ 1 ↔ RepliesArrive svc now address w) ∧
      (0 ≤ amount → n ≤ 1 →
        n * ((withdrawalParams address amount).amount : ℚ) / 10 ^ 12 ≤ amount) := by
  refine ⟨broadcasts svc now address w, withdrawal_sent, broadcasts_le_one, fun hpos hle => ?_⟩
  have hatomic := atomic_le hpos
  have hamount : (withdrawalParams address amount).amount = MoneroWalletRPC.atomic amount := rfl
  rw [hamount]
  have hcases : broadcasts svc now address w = 0 ∨ broadcasts svc now address w = 1 := by omega
  rcases hcases with h | h
  · rw [h]
    simpa using hpos
  · rw [h, Nat.cast_one, one_mul]
    exact hatomic

/-- The first attempt is executed and its reply times out; the second is executed as well. -/
def replyLost : Wire where
  attempts n := if n = 0 then ⟨true, .error .Timeout⟩ else ⟨true, .ok (.transfer "tx" none)⟩

/-- A withdrawal of one unit leaves the wallet twice. -/
theorem withdrawal_broadcast_twice : ¬∀ (svc : WalletService) (now amount : ℚ) (address : String)
    (gaveUp : Bool) (w : Wire), 0 ≤ amount →
    (((processOnchainWithdrawal svc now amount address gaveUp w).2.sent.drop w.sent.length).map
      fun p => (p.amount : ℚ) / 10 ^ 12).sum ≤ amount := by
  intro h
  have hle := h { hub_addr_cache := some ([], 0) } 0 1 "recipient" false replyLost (by norm_num)
  have hsent : (processOnchainWithdrawal { hub_addr_cache := some ([], 0) } 0 1 "recipient" false
      replyLost).2.sent
      = [withdrawalParams "recipient" 1, withdrawalParams "recipient" 1] := by decide +kernel
  rw [hsent] at hle
  have hone : (withdrawalParams "recipient" 1).amount = 10 ^ 12 := by decide +kernel
  norm_num [replyLost, hone] at hle

end Sthrip.Hub
