import Sthrip.Txn.Program
import Sthrip.Txn.Numeric

set_option autoImplicit false

/-! # The tables

The rows of `sthrip/db/models.py` with the columns the modelled code uses. A row's primary key,
or the unique columns that identify it, is its `Key`; the rest is its record. All tables live in
one schema, so that programs of different services can run against one database.

Identifiers are numbers, times are microseconds, amounts are exact decimals. A nullable column
is an `Option`.

Some rows are only ever added: the fee rows (`FeeCollection`), and a journal of the amounts put on
and taken off the balances (`Posting`), of the channel states the service has accepted
(`Acceptance`) and of the closing of channels. The journal is not a table of the program. It is there
to say what "all credits made for a deal" are.
-/

namespace Sthrip

open Txn

abbrev Id := ℕ

/-- Microseconds. -/
abbrev Time := ℤ

/-- `timedelta(hours=h)`. -/
def hours (h : ℤ) : Time := h * 3600000000

/-- The code of a currency, such as `XMR`, `xUSD` or `xEUR`. -/
abbrev Token := String

abbrev Token.XMR : Token := "XMR"

/-! ## Enumerations -/

inductive EscrowStatus where
  | CREATED | ACCEPTED | DELIVERED | COMPLETED | CANCELLED | EXPIRED | PARTIALLY_COMPLETED
  deriving DecidableEq, Repr

def EscrowStatus.value : EscrowStatus → String
  | CREATED => "created"
  | ACCEPTED => "accepted"
  | DELIVERED => "delivered"
  | COMPLETED => "completed"
  | CANCELLED => "cancelled"
  | EXPIRED => "expired"
  | PARTIALLY_COMPLETED => "partially_completed"

inductive MilestoneStatus where
  | PENDING | ACTIVE | DELIVERED | COMPLETED | EXPIRED | CANCELLED
  deriving DecidableEq, Repr

def MilestoneStatus.value : MilestoneStatus → String
  | PENDING => "pending"
  | ACTIVE => "active"
  | DELIVERED => "delivered"
  | COMPLETED => "completed"
  | EXPIRED => "expired"
  | CANCELLED => "cancelled"

inductive ChannelStatus where
  | PENDING | OPEN | CLOSING | SETTLED | CLOSED | DISPUTED
  deriving DecidableEq, Repr

/-- The member as a format string prints it. -/
def ChannelStatus.name : ChannelStatus → String
  | PENDING => "ChannelStatus.PENDING"
  | OPEN => "ChannelStatus.OPEN"
  | CLOSING => "ChannelStatus.CLOSING"
  | SETTLED => "ChannelStatus.SETTLED"
  | CLOSED => "ChannelStatus.CLOSED"
  | DISPUTED => "ChannelStatus.DISPUTED"

inductive ConditionalPaymentState where
  | PENDING | TRIGGERED | EXECUTED | EXPIRED | CANCELLED
  deriving DecidableEq, Repr

def ConditionalPaymentState.value : ConditionalPaymentState → String
  | PENDING => "pending"
  | TRIGGERED => "triggered"
  | EXECUTED => "executed"
  | EXPIRED => "expired"
  | CANCELLED => "cancelled"

inductive LoanStatus where
  | REQUESTED | ACTIVE | REPAID | DEFAULTED | LIQUIDATED | CANCELLED
  deriving DecidableEq, Repr

def LoanStatus.value : LoanStatus → String
  | REQUESTED => "requested"
  | ACTIVE => "active"
  | REPAID => "repaid"
  | DEFAULTED => "defaulted"
  | LIQUIDATED => "liquidated"
  | CANCELLED => "cancelled"

inductive MultiPartyPaymentState where
  | PENDING | ACCEPTED | COMPLETED | REJECTED | EXPIRED
  deriving DecidableEq, Repr

inductive SLAStatus where
  | PROPOSED | ACCEPTED | ACTIVE | DELIVERED | COMPLETED | BREACHED | DISPUTED
  deriving DecidableEq, Repr

inductive WithdrawalStatus where
  | PENDING | COMPLETED | FAILED | NEEDS_REVIEW
  deriving DecidableEq, Repr

inductive TransactionStatus where
  | PENDING | CONFIRMED | FAILED | ORPHANED
  deriving DecidableEq, Repr

inductive PaymentType where
  | P2P | HUB_ROUTING | DEPOSIT | WITHDRAWAL | ESCROW_DEPOSIT | ESCROW_RELEASE | CHANNEL_OPEN
  | CHANNEL_CLOSE | FEE_COLLECTION
  deriving DecidableEq, Repr

inductive AgentTier where
  | FREE | VERIFIED | PREMIUM | ENTERPRISE
  deriving DecidableEq, Repr

inductive FeeCollectionStatus where
  | PENDING | COLLECTED | WITHDRAWN
  deriving DecidableEq, Repr

inductive RecurringInterval where
  | HOURLY | DAILY | WEEKLY | MONTHLY
  deriving DecidableEq, Repr

/-! ## Rows -/

structure Agent where
  agent_name : String := ""
  is_active : Bool := true
  created_at : Option Time := none
  deriving DecidableEq

structure AgentReputation where
  trust_score : ℤ := 0
  total_transactions : ℤ := 0
  calculated_at : Option Time := none
  deriving DecidableEq

structure AgentBalance where
  available : ℚ := 0
  pending : ℚ := 0
  total_deposited : ℚ := 0
  total_withdrawn : ℚ := 0
  deriving DecidableEq

structure EscrowDeal where
  buyer_id : Id
  seller_id : Id
  amount : ℚ
  token : Token := .XMR
  description : String
  fee_percent : ℚ
  fee_amount : ℚ := 0
  accept_timeout_hours : ℤ
  delivery_timeout_hours : ℤ
  review_timeout_hours : ℤ
  accept_deadline : Option Time := none
  delivery_deadline : Option Time := none
  review_deadline : Option Time := none
  release_amount : Option ℚ := none
  is_multi_milestone : Bool := false
  milestone_count : ℕ := 1
  current_milestone : ℕ := 1
  total_released : ℚ := 0
  total_fees : ℚ := 0
  status : EscrowStatus := .CREATED
  accepted_at : Option Time := none
  delivered_at : Option Time := none
  completed_at : Option Time := none
  cancelled_at : Option Time := none
  expires_at : Option Time := none
  deriving DecidableEq

structure EscrowMilestone where
  description : String
  amount : ℚ
  delivery_timeout_hours : ℤ
  review_timeout_hours : ℤ
  delivery_deadline : Option Time := none
  review_deadline : Option Time := none
  release_amount : Option ℚ := none
  fee_amount : ℚ := 0
  status : MilestoneStatus := .PENDING
  activated_at : Option Time := none
  delivered_at : Option Time := none
  completed_at : Option Time := none
  cancelled_at : Option Time := none
  expires_at : Option Time := none
  deriving DecidableEq

structure PaymentChannel where
  agent_a_id : Id
  agent_b_id : Id
  capacity : ℚ
  status : ChannelStatus := .PENDING
  deposit_a : ℚ := 0
  deposit_b : ℚ := 0
  balance_a : ℚ := 0
  balance_b : ℚ := 0
  nonce : ℤ := 0
  last_update_sig_a : Option String := none
  last_update_sig_b : Option String := none
  settlement_period : ℤ := 3600
  settled_at : Option Time := none
  closes_at : Option Time := none
  closed_at : Option Time := none
  deriving DecidableEq

/-- A row is identified by its channel and its nonce. -/
structure ChannelUpdate where
  balance_a : ℚ
  balance_b : ℚ
  signature_a : Option String
  signature_b : Option String
  deriving DecidableEq

/-- The value of a JSON column. -/
inductive Json where
  | null
  | bool (b : Bool)
  | num (x : ℚ)
  | str (s : String)
  | arr (l : List Json)
  | obj (l : List (String × Json))

structure ConditionalPayment where
  from_agent_id : Id
  to_agent_id : Id
  amount : ℚ
  currency : Token := .XMR
  memo : Option String := none
  condition_type : String
  condition_config : List (String × Json)
  locked_amount : ℚ
  state : ConditionalPaymentState := .PENDING
  expires_at : Time
  triggered_at : Option Time := none
  executed_at : Option Time := none

structure MultiPartyPayment where
  sender_id : Id
  total_amount : ℚ
  currency : Token := .XMR
  require_all_accept : Bool := true
  state : MultiPartyPaymentState := .PENDING
  accept_deadline : Time
  completed_at : Option Time := none
  deriving DecidableEq

/-- A row is identified by its payment and its recipient. -/
structure MultiPartyRecipient where
  amount : ℚ
  accepted : Option Bool := none
  accepted_at : Option Time := none
  deriving DecidableEq

structure AgentCreditScore where
  credit_score : ℤ := 0
  total_loans_taken : ℤ := 0
  total_loans_repaid : ℤ := 0
  total_loans_defaulted : ℤ := 0
  total_borrowed_volume : ℚ := 0
  avg_repayment_time_secs : Option ℤ := none
  longest_default_secs : Option ℤ := none
  max_borrow_amount : ℚ := 0
  max_concurrent_loans : ℤ := 0
  calculated_at : Option Time := none
  deriving DecidableEq

structure LendingOffer where
  lender_id : Id
  max_amount : ℚ
  currency : Token := .XMR
  interest_rate_bps : ℤ
  max_duration_secs : ℤ
  min_borrower_credit_score : ℤ := 0
  require_collateral : Bool := false
  collateral_ratio_pct : ℤ := 100
  is_active : Bool := true
  remaining_amount : ℚ
  expires_at : Time
  deriving DecidableEq

structure AgentLoan where
  lender_id : Id
  borrower_id : Id
  principal : ℚ
  currency : Token := .XMR
  interest_rate_bps : ℤ
  duration_secs : ℤ
  collateral_amount : ℚ := 0
  collateral_currency : Option Token := none
  repayment_amount : ℚ
  repaid_amount : ℚ := 0
  state : LoanStatus := .REQUESTED
  expires_at : Time
  grace_period_secs : ℤ := 300
  funded_at : Option Time := none
  repaid_at : Option Time := none
  defaulted_at : Option Time := none
  platform_fee : ℚ := 0
  deriving DecidableEq

/-- A row is identified by its hash. -/
structure Transaction where
  network : String
  token : Token := .XMR
  from_agent_id : Option Id
  to_agent_id : Option Id
  amount : ℚ
  fee : ℚ := 0
  fee_collected : ℚ := 0
  payment_type : PaymentType := .P2P
  status : TransactionStatus := .PENDING
  block_number : Option ℤ := none
  confirmations : ℤ := 0
  memo : Option String := none
  confirmed_at : Option Time := none
  deriving DecidableEq

structure PendingWithdrawal where
  agent_id : Id
  amount : ℚ
  address : String
  status : WithdrawalStatus := .PENDING
  tx_hash : Option String := none
  error : Option String := none
  created_at : Option Time := none
  completed_at : Option Time := none
  deriving DecidableEq

structure SLAContract where
  provider_id : Id
  consumer_id : Id
  template_id : Option Id := none
  service_description : String
  /-- The texts of the JSON list. -/
  deliverables : List String := []
  response_time_secs : ℤ
  delivery_time_secs : ℤ
  price : ℚ
  currency : Token := .XMR
  penalty_percent : ℤ := 10
  state : SLAStatus := .PROPOSED
  escrow_deal_id : Option Id := none
  started_at : Option Time := none
  delivered_at : Option Time := none
  delivery_time_actual : Option ℤ := none
  sla_met : Option Bool := none
  result_hash : Option String := none
  deriving DecidableEq

structure SystemState where
  value : String
  deriving DecidableEq

structure MultisigEscrow where
  escrow_deal_id : Id
  multisig_address : Option String := none
  state : String := "setup_round_1"
  fee_collected : ℚ := 0
  funded_amount : Option ℚ := none
  funded_tx_hash : Option String := none
  release_tx_hex : Option String := none
  release_initiator : Option String := none
  dispute_reason : Option String := none
  disputed_by : Option String := none
  timeout_at : Time
  deriving DecidableEq

/-- A row is identified by its escrow, its round and its participant. -/
structure MultisigRound where
  multisig_info : String
  deriving DecidableEq

structure FeeCollection where
  source_type : String
  source_id : Option Id
  amount : ℚ
  token : Token
  status : FeeCollectionStatus
  payer_agent_id : Option Id := none
  amount_piconero : Option ℤ := none
  rate_applied_bps : Option ℤ := none
  transaction_ref : Option String := none
  collected_at : Option Time := none
  deriving DecidableEq

/-- A row is identified by its agent and its month. -/
structure AgentMonthlyStats where
  transaction_count : ℤ
  last_updated : Option Time := none
  deriving DecidableEq

/-- A schedule of payments from one agent to another. -/
structure RecurringPayment where
  from_agent_id : Id
  to_agent_id : Id
  amount : ℚ
  interval : RecurringInterval
  next_payment_at : Time
  last_payment_at : Option Time := none
  total_paid : ℚ := 0
  max_payments : Option ℕ := none
  payments_made : ℕ := 0
  is_active : Bool := true
  cancelled_at : Option Time := none
  deriving DecidableEq

/-! ## The schema -/

/-- The primary keys of the tables. -/
inductive Key where
  | agent (id : Id)
  | reputation (agent_id : Id)
  | balance (agent_id : Id) (token : Token)
  | deal (id : Id)
  | milestone (escrow_id : Id) (sequence : ℕ)
  | channel (id : Id)
  | channelUpdate (channel_id : Id) (nonce : ℤ)
  | conditional (id : Id)
  | multiParty (id : Id)
  | recipient (payment_id : Id) (recipient_id : Id)
  | creditScore (agent_id : Id)
  | offer (id : Id)
  | loan (id : Id)
  | transaction (tx_hash : String)
  | systemState (key : String)
  | pendingWithdrawal (id : Id)
  | slaContract (id : Id)
  | multisig (id : Id)
  | multisigRound (multisig_escrow_id : Id) (round_number : ℤ) (participant : String)
  /-- The month is counted as the calendar does. -/
  | monthlyStats (agent_id : Id) (month_start : ℕ)
  | recurring (id : Id)
  deriving DecidableEq

/-- The record of a row. -/
@[reducible] def Row : Key → Type
  | .agent _ => Agent
  | .reputation _ => AgentReputation
  | .balance _ _ => AgentBalance
  | .deal _ => EscrowDeal
  | .milestone _ _ => EscrowMilestone
  | .channel _ => PaymentChannel
  | .channelUpdate _ _ => ChannelUpdate
  | .conditional _ => ConditionalPayment
  | .multiParty _ => MultiPartyPayment
  | .recipient _ _ => MultiPartyRecipient
  | .creditScore _ => AgentCreditScore
  | .offer _ => LendingOffer
  | .loan _ => AgentLoan
  | .transaction _ => Transaction
  | .systemState _ => SystemState
  | .pendingWithdrawal _ => PendingWithdrawal
  | .slaContract _ => SLAContract
  | .multisig _ => MultisigEscrow
  | .multisigRound _ _ _ => MultisigRound
  | .monthlyStats _ _ => AgentMonthlyStats
  | .recurring _ => RecurringPayment

/-- What a loan moves. -/
inductive LoanPart where
  | principal | repayment | collateral
  deriving DecidableEq

/-- What an amount was put on or taken off a balance for. -/
inductive Ref where
  | escrow (id : Id)
  | channel (id : Id)
  | conditional (id : Id)
  /-- The share of one recipient of a multi-party payment, or all of it. -/
  | share (payment_id : Id) (recipient_id : Option Id)
  | loan (id : Id) (part : LoanPart)
  /-- A transfer on the chain, by its transaction. -/
  | deposit (txid : String)
  | recurring (id : Id)
  | other
  deriving DecidableEq

/-- An amount put on a balance, or taken off it when negative. -/
structure Posting where
  agent_id : Id
  token : Token
  amount : ℚ
  ref : Ref
  deriving DecidableEq

/-- The method that accepted a channel state, and for a dispute the time. -/
inductive AcceptedBy where
  | update
  | settle
  | dispute (time : Time)
  deriving DecidableEq

/-- A channel state the service has accepted, as it is stored. -/
structure Acceptance where
  channel_id : Id
  nonce : ℤ
  balance_a : ℚ
  balance_b : ℚ
  accepted_by : AcceptedBy
  deriving DecidableEq

/-- The rows that are only ever added. -/
inductive Entry where
  | posting (p : Posting)
  | fee (f : FeeCollection)
  | acceptance (a : Acceptance)
  /-- The balances of the channel have been paid out. -/
  | closing (channel_id : Id)
  /-- A ghost: the offer that a loan is matched to, which the source keeps in the audit log only. -/
  | matched (loan_id offer_id : Id) (principal : ℚ)
  deriving DecidableEq

/-- An argument of a message: `%s` in its text. -/
inductive Arg where
  | dec (x : ℚ)
  | int (n : ℤ)
  | str (s : String)
  deriving DecidableEq

/-- The exceptions, with the texts of the source. -/
inductive Exn where
  | ValueError (text : String) (args : List Arg := [])
  | LookupError (text : String) (args : List Arg := [])
  | PermissionError (text : String) (args : List Arg := [])
  | RuntimeError (text : String) (args : List Arg := [])
  | AttributeError (text : String)
  | TypeError (text : String)
  | HTTPException (status_code : ℕ) (detail : String)
  | ArithmeticError (text : String)
  /-- A constraint of the database rejected a row. -/
  | IntegrityError
  /-- The database could not commit. -/
  | OperationalError
  deriving DecidableEq

/-- The stores outside the database. -/
structure Ext where
  deriving Inhabited

inductive ExtOp where

abbrev schema : Schema where
  Key := Key
  Row := Row
  Entry := Entry
  Ext := Ext
  Op := ExtOp
  Res := fun op => nomatch op
  perform := fun op => nomatch op
  Err := Exn
  commitErr := .OperationalError

/-- A handler, or a part of one. -/
abbrev Program (α : Type) := Prog schema α

end Sthrip
