import CorpoPay.Data.Allocation
import CorpoPay.Transaction.Debt
import CorpoPay.Transaction.Environment
import CorpoPay.Transaction.Frame
import CorpoPay.Settlement.Ledger
import CorpoPay.Settlement.Operations
import CorpoPay.Settlement.PayoutRoutes
import CorpoPay.Settlement.RefundRoutes
import CorpoPay.Settlement.StripeWebhooks
import CorpoPay.Settlement.Webhooks
import CorpoPay.Settlement.Requests
import CorpoPay.Settlement.Lemmas.Course
import CorpoPay.Settlement.Theorems.Capture
import CorpoPay.Settlement.Theorems.Refund
import CorpoPay.Settlement.Theorems.Payout
import CorpoPay.Settlement.Theorems.CaptureOnce
import CorpoPay.Settlement.Theorems.Dispute
import CorpoPay.Settlement.Theorems.PayoutStatus
import CorpoPay.Settlement.Theorems.ReversalFunding
import CorpoPay.Settlement.Theorems.Disbursement
import CorpoPay.Settlement.Theorems.Available
import CorpoPay.Settlement.Theorems.SplitBacking
import CorpoPay.Settlement.Theorems.Escrow
import CorpoPay.Settlement.Theorems.TakenOnce
import CorpoPay.Settlement.Theorems.StripeEvents
import CorpoPay.Settlement.Theorems.RefundRequests
import CorpoPay.Settlement.Theorems.WebhookBinding
import CorpoPay.Settlement.Theorems.CapturedStatus
import CorpoPay.Settlement.Theorems.DoubleEntry
import CorpoPay.Settlement.Theorems.WalletBalance
import CorpoPay.Settlement.Theorems.IntentMoney
import CorpoPay.Settlement.Theorems.Resolvable
import CorpoPay.Settlement.ReconciliationDb
import CorpoPay.Settlement.Lemmas.Reconcile
import CorpoPay.Settlement.Theorems.Reconciliation
import CorpoPay.Settlement.IntentRoutes
import CorpoPay.Settlement.Theorems.ChargedAmount
import CorpoPay.Billing.Theorems.ChargedOnce
import CorpoPay.Billing.Theorems.DueDates
import CorpoPay.Billing.Theorems.Cancelled
import CorpoPay.Settlement.Theorems.ReleaseOnce
import CorpoPay.Settlement.Theorems.Restored
import CorpoPay.Settlement.Theorems.HoldExclusion
import CorpoPay.Settlement.Theorems.Collected
import CorpoPay.Settlement.Theorems.LockedRate
import CorpoPay.Settlement.Theorems.OneActive
import CorpoPay.Settlement.Theorems.Summary
import CorpoPay.Settlement.Theorems.HoldTimeout
import CorpoPay.Settlement.Theorems.Funding
import CorpoPay.Settlement.Theorems.Reserve
import CorpoPay.Settlement.Theorems.SplitShares
import CorpoPay.Settlement.Theorems.ReconcilePartition
import CorpoPay.Settlement.Theorems.Conversion
import CorpoPay.Settlement.Theorems.RunningBalance
import CorpoPay.Settlement.Theorems.Statements
import CorpoPay.Onboarding.OnboardingDb
import CorpoPay.Transaction.Watch
import CorpoPay.Onboarding.Lifecycle
import CorpoPay.Onboarding.Theorems.Integrity
import CorpoPay.Tenancy.TenantDb
import CorpoPay.Tenancy.Theorems.Isolation
import CorpoPay.Transaction.Commits
import CorpoPay.Data.DedupQueue
import CorpoPay.Settlement.WebhookIntake
import CorpoPay.Settlement.Lemmas.Notifications
import CorpoPay.Settlement.Lemmas.WebhookEvents
import CorpoPay.Settlement.Theorems.Deduplication
import CorpoPay.Data.Newest
import CorpoPay.Settlement.Lemmas.Submissions
import CorpoPay.Settlement.Theorems.DoubleSubmit
import CorpoPay.Settlement.Theorems.Amortization
import CorpoPay.Settlement.Theorems.Preview
import CorpoPay.Data.Months
import CorpoPay.Billing.Theorems.Periods
import CorpoPay.Data.Upsert
import CorpoPay.Billing.Theorems.AttemptRecords
import CorpoPay.Transaction.Replay
import CorpoPay.Settlement.Poller
import CorpoPay.Settlement.Theorems.PollerEnds
import CorpoPay.Risk.Engine
import CorpoPay.Risk.Decisions
import CorpoPay.Risk.Theorems.Replay
import CorpoPay.Risk.Theorems.Window
import CorpoPay.Settlement.Theorems.Masking
import CorpoPay.Billing.Theorems.Ladder
import CorpoPay.Settlement.Lemmas.Bypasses
import CorpoPay.Settlement.Theorems.BookedStatus
import CorpoPay.Transaction.Holding
import CorpoPay.Transaction.Budget
import CorpoPay.Transaction.Obligation
import CorpoPay.Billing.Agreements
import CorpoPay.Billing.Lemmas.AgreementJobs
import CorpoPay.Billing.Theorems.PaidCount
import CorpoPay.Data.Relay
import CorpoPay.Billing.Theorems.InstallmentChain
import CorpoPay.Access.Theorems.SessionLag
import CorpoPay.Transaction.OneByOne
import CorpoPay.Access.Lemmas.Keys
import CorpoPay.Access.Lemmas.Acting
import CorpoPay.Access.Theorems.KeyRevocation
import CorpoPay.Access.Theorems.TenantRows
import CorpoPay.Access.Theorems.Owners
import CorpoPay.Data.Base64
import CorpoPay.Notify.Encryption
import CorpoPay.Notify.WebhookSign
import CorpoPay.Notify.Notifications
import CorpoPay.Notify.Theorems.Delivery
import CorpoPay.Transaction.Tickets
import CorpoPay.Settlement.Theorems.LinkAttempts
import CorpoPay.Providers.ProviderConfigs
import CorpoPay.Providers.Theorems.TestMode
import CorpoPay.Providers.Theorems.Connected
