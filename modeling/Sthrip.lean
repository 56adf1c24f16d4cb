import Sthrip.Txn.Refine
import Sthrip.Escrow.Conservation
import Sthrip.Escrow.Payout
import Sthrip.Escrow.Deadline
import Sthrip.Escrow.Sequence
import Sthrip.Escrow.Retention
import Sthrip.Multisig.OnePath
import Sthrip.Balance.LostUpdate
import Sthrip.Channel.Conservation
import Sthrip.Channel.LatestState
import Sthrip.MultiParty.Conservation
import Sthrip.MultiParty.Atomicity
import Sthrip.Conditional.Lock
import Sthrip.Credit.Loan
import Sthrip.Credit.OverCommit
import Sthrip.Wallet.Broadcast
import Sthrip.Audit.Chain
import Sthrip.Audit.Tamper
import Sthrip.Deposit.Overlap
import Sthrip.Deposit.Settled
import Sthrip.Idempotency.KeyReuse
import Sthrip.Idempotency.AtMostOnce
import Sthrip.Services.StreamService
import Sthrip.Api.Withdrawal
import Sthrip.Swap.Credited
import Sthrip.Sla.Agreement
import Sthrip.Billing.Grace
import Sthrip.Billing.Cap
import Sthrip.Billing.Rate
import Sthrip.Recurring.Count
import Sthrip.Api.Tiers
import Sthrip.Btc.Address
import Sthrip.Btc.Spending
import Sthrip.Contracts.Solvency
import Sthrip.Recurring.Conservation
import Sthrip.Payment.Atomicity
import Sthrip.Api.TierLimit
import Sthrip.Matchmaking.OneDeal
import Sthrip.Reputation.Sound
import Sthrip.Review.Thresholds
import Sthrip.Envelope.DualRead
import Sthrip.Envelope.Backfill
import Sthrip.Audit.Migration
import Sthrip.Contracts.Requests
import Sthrip.RangeProof.Hiding
import Sthrip.Reputation.Hiding
import Sthrip.Review.Hiding
import Sthrip.Db.WebhookRepo
import Sthrip.Services.Webhooks
import Sthrip.Webhook.Announced
import Sthrip.Recurring.Participants
import Sthrip.Txn.Ensures
import Sthrip.Balance.OwnConsent
import Sthrip.Channel.Signatures
import Sthrip.Redis.Keyspace
import Sthrip.Services.RateLimiter
import Sthrip.RateLimit.Backends
import Sthrip.RateLimit.FailedAuth
import Sthrip.RateLimit.Runs
import Sthrip.Api.HubRouting
import Sthrip.Services.TreasuryService
import Sthrip.Spending.DailyLimit
import Sthrip.Spending.Rejected
import Sthrip.Idempotency.Replayed
import Sthrip.Payment.Backends
import Sthrip.Treasury.Rebalance
import Sthrip.Escrow.Rounding
import Sthrip.Credit.DueDate
import Sthrip.Credit.Limits
import Sthrip.Deposit.SharedTxids
import Sthrip.Withdrawal.Matching
import Sthrip.Payment.Split
import Sthrip.Review.Counted
import Sthrip.Sla.Boundary
import Sthrip.Treasury.Reserve
import Sthrip.Services.ConversionService
import Sthrip.Message.Inbox
import Sthrip.Ip.Network
import Sthrip.Python.Ipaddress
import Sthrip.Services.UrlValidator
import Sthrip.Webhook.Contactable
import Sthrip.Webhook.Fanout
import Sthrip.Webhook.Attempts
import Sthrip.Envelope.Sealing
import Sthrip.Services.DistributedLease
import Sthrip.Services.PowService
import Sthrip.Wallet.OwnAddress
import Sthrip.Tss.Threshold
import Sthrip.Tss.Nonces
import Sthrip.Wallet.Base58
import Sthrip.Oracle.Tolerance
import Sthrip.Btc.Encoding
import Sthrip.Gossip.Once
import Sthrip.Contracts.InsuranceFund
import Sthrip.Contracts.PriceOracle
import Sthrip.Api.SessionStore
import Sthrip.Hub.Balances
