import CorpoPay.Settlement.Fees
import CorpoPay.Settlement.Splits
import CorpoPay.Transaction.Program

/-!
# Tables, locks and the outside world

The tables are lists of rows in insertion order. A column is kept when a modelled function reads or writes it.
An id is a number; the word `cuid()` of the schema becomes a question to the outside world, and an insert checks
the primary key like the database does.
-/

namespace CorpoPay.Settlement

open Transaction (Interface)

inductive Provider
  | naps | vps | stripe | paypal | adyen
  deriving DecidableEq, Repr

/-! ## JSON columns -/

inductive Json
  | null
  | bool (b : Bool)
  | num (n : Rat)
  | str (s : String)
  | arr (xs : List Json)
  | obj (fields : List (String × Json))
  deriving Repr

/-! ## Configuration rows -/

inductive TenantStatus
  | active | disabled
  deriving DecidableEq, Repr

structure Tenant where
  id : Id
  status : TenantStatus := .active
  settlementCurrency : Currency
  taxRateBps : Int
  taxExempt : Bool
  deriving DecidableEq, Repr

structure FeeSchedule extends FeeScheduleSpec where
  id : Id
  tenantId : Id
  version : Nat
  name : Option String := none
  currency : Currency := .mad
  isActive : Bool
  deriving DecidableEq, Repr

def toFeeSpec (row : FeeSchedule) : FeeScheduleSpec := row.toFeeScheduleSpec

structure SettlementPolicy extends PolicySpec where
  id : Id
  tenantId : Id
  version : Nat
  name : Option String := none
  feeScheduleId : Option Id := none
  isActive : Bool
  deriving DecidableEq, Repr

structure SplitParty where
  id : Id
  tenantId : Id
  deriving DecidableEq, Repr

structure SplitRule where
  id : Id
  tenantId : Id
  trigger : SplitTrigger
  shares : List ShareSpec
  isActive : Bool
  createdAt : Nat
  deriving DecidableEq, Repr

inductive WalletCommissionBasis
  | usage | load
  deriving DecidableEq, Repr

structure FinanceConfig where
  tenantId : Id
  walletCommissionBasis : WalletCommissionBasis
  deriving DecidableEq, Repr

inductive ProviderConfigStatus
  | connected | invalid | missing | disabled
  deriving DecidableEq, Repr

structure ProviderConfig where
  tenantId : Id
  provider : Provider
  encryptedCredentials : String
  status : ProviderConfigStatus
  deriving DecidableEq, Repr

/-- What a tenant and the platform set up: no money operation writes it. -/
structure Config where
  tenants : List Tenant
  feeSchedules : List FeeSchedule
  settlementPolicies : List SettlementPolicy
  splitParties : List SplitParty
  splitRules : List SplitRule
  financeConfigs : List FinanceConfig
  providerConfigs : List ProviderConfig
  deriving DecidableEq, Repr

/-! ## Money rows -/

structure LedgerEntry extends Movement where
  id : Id
  postingId : Id
  balanceAfter : Int
  createdAt : Nat
  deriving DecidableEq, Repr

structure Split where
  id : Id
  tenantId : Id
  splitRuleId : Option Id
  sourceType : SourceType
  sourceId : Id
  partyId : Id
  amount : Int
  currency : Currency
  status : SplitStatus
  heldUntil : Option Nat
  deriving DecidableEq, Repr

inductive PayoutStatus
  | draft | scheduled | pending | processing | paid | failed | cancelled
  deriving DecidableEq, Repr

inductive PayoutMethod
  | bankTransfer | card | wallet
  deriving DecidableEq, Repr

structure Payout where
  id : Id
  tenantId : Id
  amount : Int
  currency : Currency
  status : PayoutStatus
  provider : Provider
  providerTransferId : Option String
  method : PayoutMethod
  idempotencyKey : String
  deriving DecidableEq, Repr

structure PayoutItem where
  id : Id
  payoutId : Id
  ledgerEntryId : Id
  amount : Int
  deriving DecidableEq, Repr

inductive DisputeStatus
  | open | won | lost
  deriving DecidableEq, Repr

structure Dispute where
  id : Id
  tenantId : Id
  paymentIntentId : Option Id
  provider : Provider
  providerDisputeId : String
  status : DisputeStatus
  amount : Int
  feeAmount : Int
  currency : Currency
  reason : Option String
  evidenceDueDate : Option Nat
  deriving DecidableEq, Repr

inductive RecoveryStatus
  | pending | collected | waived
  deriving DecidableEq, Repr

structure Recovery where
  id : Id
  tenantId : Id
  disputeId : Id
  status : RecoveryStatus
  amount : Int
  currency : Currency
  deriving DecidableEq, Repr

inductive WalletStatus
  | active | suspended | closed
  deriving DecidableEq, Repr

inductive WalletOwnerType
  | tenant | customer
  deriving DecidableEq, Repr

structure Wallet where
  id : Id
  tenantId : Id
  ownerType : WalletOwnerType
  ownerId : String
  balance : Int
  currency : Currency
  status : WalletStatus
  deriving DecidableEq, Repr

inductive WalletTransactionType
  | topUp | debit | refund | adjustment
  deriving DecidableEq, Repr

structure WalletTransaction where
  id : Id
  walletId : Id
  tenantId : Id
  type : WalletTransactionType
  amount : Int
  currency : Currency
  balanceAfter : Int
  sourceType : SourceType
  sourceId : Id
  deriving DecidableEq, Repr

/-- The `PAYOUT_MARKED_PAID` entries of the audit log. -/
structure AuditLog where
  tenantId : Id
  entityId : Id
  providerTransferId : Option String
  deriving DecidableEq, Repr

/-! ## Payment rows -/

inductive PaymentIntentStatus
  | created | requiresAction | authorized | processing | succeeded | failed | canceled | refunded
  deriving DecidableEq, Repr

inductive PaymentLinkStatus
  | active | paid | expired | canceled
  deriving DecidableEq, Repr

structure PaymentLink where
  id : Id
  tenantId : Id
  slug : String := ""
  amount : Int
  currency : Currency
  reference : String := ""
  provider : Provider := .vps
  status : PaymentLinkStatus
  maxAttempts : Nat := 1
  attemptCount : Nat := 0
  expiresAt : Option Nat := none
  isRecurring : Bool := false
  isInstallment : Bool := false
  /-- The column has twelve digits. -/
  amount_lt : amount.natAbs < 1000000000000 := by decide
  deriving DecidableEq, Repr

inductive RiskVerdict
  | allow | review | block
  deriving DecidableEq, Repr

structure PaymentIntent where
  id : Id
  tenantId : Id
  paymentLinkId : Option Id
  status : PaymentIntentStatus
  provider : Provider
  providerRef : Option String
  correlationId : String
  metadata : Option Json
  riskVerdict : Option RiskVerdict
  createdAt : Nat
  providerData : Option Json := none
  /-- In 10^-8. -/
  fxRate : Option Nat := none
  fxCurrencyPair : Option String := none
  fxExpiresAt : Option Nat := none
  deriving Repr

inductive RefundStatus
  | pending | succeeded | failed
  deriving DecidableEq, Repr

structure Refund where
  id : Id
  paymentIntentId : Id
  tenantId : Id
  status : RefundStatus
  providerRefundRef : Option String
  amount : Int
  currency : String
  deriving DecidableEq, Repr

structure ProviderTransaction where
  id : Id
  paymentIntentId : Id
  providerTransactionId : Option String
  deriving DecidableEq, Repr

structure WebhookEvent where
  id : Id
  provider : Provider
  tenantId : Option Id
  paymentIntentId : Option Id
  signatureVerified : Bool
  processed : Bool
  /-- The column has its message. -/
  processingError : Option Failure
  mappedStatus : Option String
  idempotencyKey : Option String
  deriving DecidableEq, Repr

/-! ## Installment rows -/

/-- The rate is in percent a year. -/
structure InstallmentPlan where
  id : String
  tenantId : Id
  durationMonths : Nat
  annualInterestRate : Rat
  minAmount : Option Int
  maxAmount : Option Int
  isActive : Bool
  deriving DecidableEq, Repr

inductive InstallmentAgreementStatus
  | pendingCheckout | active | completed | defaulted | cancelled
  deriving DecidableEq, Repr

structure InstallmentAgreement where
  id : String
  tenantId : Id
  planId : String
  paymentLinkId : Option Id
  initialPaymentIntentId : Id
  encryptedStoredProfileId : String
  status : InstallmentAgreementStatus
  principalAmount : Int
  downPayment : Int
  installmentAmount : Int
  totalInstallments : Nat
  paidCount : Nat
  currency : Currency
  nextChargeDate : Option Nat
  inngestRunId : Option Nat
  deriving DecidableEq, Repr

/-- The outcome of an attempt to charge. -/
inductive ChargeStatus
  | charged | declined
  deriving DecidableEq, Repr

structure InstallmentCharge where
  id : String
  agreementId : String
  installmentNumber : Nat
  dueDate : Nat
  amount : Int
  currency : Currency
  status : ChargeStatus
  chargeId : String
  vpsTransactionId : Option String
  attemptNumber : Nat
  processedAt : Nat
  errorMessage : Option String
  deriving DecidableEq, Repr

/-! ## Subscription rows -/

inductive BillingInterval
  | daily | weekly | monthly | quarterly | annual | custom
  deriving DecidableEq, Repr

inductive SubscriptionStatus
  | pending | active | paused | cancelled | pastDue | expired
  deriving DecidableEq, Repr

structure Subscription where
  id : String
  tenantId : Id
  customerId : String
  encryptedStoredProfileId : String
  initialPaymentIntentId : Id
  inngestRunId : Option Nat
  status : SubscriptionStatus
  amount : Int
  currency : Currency
  intervalType : BillingInterval
  intervalValue : Nat
  nextBillingDate : Option Nat
  currentPeriodStart : Option Nat
  currentPeriodEnd : Option Nat
  retryCount : Nat
  deriving DecidableEq, Repr

structure BillingEvent where
  id : String
  subscriptionId : String
  chargeId : String
  vpsTransactionId : Option String
  amount : Int
  currency : Currency
  status : ChargeStatus
  attemptNumber : Nat
  processedAt : Nat
  errorMessage : Option String
  deriving DecidableEq, Repr

/-! ## Reconciliation rows -/

inductive ReconciliationStatus
  | pending | matched | unmatched | resolved
  deriving DecidableEq, Repr

inductive ReconciliationMatchStatus
  | unmatched | exact | amountDiff
  deriving DecidableEq, Repr

/-- The stored outcome of a reconciliation. A break is a reference with its amount. -/
structure ReconciliationSummary where
  exactCount : Nat
  amountDiffCount : Nat
  missingInternal : List (Id × Int)
  missingExternal : List (Id × Int)
  externalTotalCents : Int
  internalTotalCents : Int
  netDifferenceCents : Int
  deriving DecidableEq, Repr

structure ReconciliationReport where
  id : Id
  tenantId : Id
  provider : Provider
  currency : Currency
  status : ReconciliationStatus
  summary : Option ReconciliationSummary
  deriving DecidableEq, Repr

/-- A reference is a text like the source ids of the ledger. One that is not among them matches nothing. -/
structure ReconciliationLine where
  id : Id
  reportId : Id
  reference : Id
  amount : Int
  currency : Currency
  status : ReconciliationMatchStatus
  matchedAmount : Option Int
  differenceAmount : Option Int
  deriving DecidableEq, Repr

inductive SettlementStatementStatus
  | draft | finalized | void
  deriving DecidableEq, Repr

/-- One category of a statement: its gross volume and its number of postings. -/
structure StatementItem where
  category : LedgerCategory
  amountCents : Int
  entryCount : Nat
  deriving DecidableEq, Repr

/-- A row of `SettlementStatement` with its items. -/
structure SettlementStatement where
  id : Id
  tenantId : Id
  periodStart : Int
  periodEnd : Int
  currency : String
  status : SettlementStatementStatus
  openingBalance : Int
  closingBalance : Int
  netAmount : Int
  items : List StatementItem
  deriving DecidableEq, Repr

structure Db extends Config where
  ledgerEntries : List LedgerEntry
  splits : List Split
  payouts : List Payout
  payoutItems : List PayoutItem
  disputes : List Dispute
  recoveries : List Recovery
  wallets : List Wallet
  walletTransactions : List WalletTransaction
  auditLogs : List AuditLog
  paymentIntents : List PaymentIntent
  paymentLinks : List PaymentLink
  refunds : List Refund
  providerTransactions : List ProviderTransaction
  webhookEvents : List WebhookEvent
  installmentPlans : List InstallmentPlan
  installmentAgreements : List InstallmentAgreement
  installmentCharges : List InstallmentCharge
  subscriptions : List Subscription
  billingEvents : List BillingEvent
  reconciliationReports : List ReconciliationReport
  reconciliationLines : List ReconciliationLine
  settlementStatements : List SettlementStatement
  deriving Repr

/-- A database with a configuration and nothing else. -/
def Db.empty (config : Config) : Db :=
  { toConfig := config, ledgerEntries := [], splits := [], payouts := [], payoutItems := [], disputes := [],
    recoveries := [], wallets := [], walletTransactions := [], auditLogs := [], paymentIntents := [],
    paymentLinks := [], refunds := [], providerTransactions := [], webhookEvents := [], installmentPlans := [],
    installmentAgreements := [], installmentCharges := [], subscriptions := [], billingEvents := [],
    reconciliationReports := [], reconciliationLines := [], settlementStatements := [] }

/-! ## Locks -/

/-- What a transaction can hold until it ends: the advisory lock of a tenant, a row it updates or deletes, and the
entry of a unique index it inserts. -/
inductive DbLock
  | tenant (tenantId : Id)
  | payout (id : Id)
  | payoutItem (id : Id)
  | dispute (id : Id)
  | split (id : Id)
  | wallet (id : Id)
  | payoutKey (tenantId : Id) (idempotencyKey : String)
  | payoutItemOf (ledgerEntryId : Id)
  | disputeKey (tenantId : Id) (providerDisputeId : String)
  | recoveryOf (disputeId : Id)
  | walletOwner (tenantId : Id) (ownerType : WalletOwnerType) (ownerId : String)
  | paymentIntent (id : Id)
  | paymentLink (id : Id)
  | providerTransaction (id : Id)
  | refund (id : Id)
  | activeRefundOf (paymentIntentId : Id)
  | webhookEventKey (idempotencyKey : String)
  | installmentAgreement (id : String)
  | installmentAgreementOf (paymentIntentId : Id)
  | installmentCharge (id : String)
  | subscription (id : String)
  | billingEvent (id : String)
  | reconciliationReport (id : Id)
  | reconciliationLine (id : Id)
  | feeSchedule (id : Id)
  | feeScheduleVersion (tenantId : Id) (version : Nat)
  | settlementPolicy (id : Id)
  | settlementPolicyVersion (tenantId : Id) (version : Nat)
  deriving DecidableEq, Repr

/-! ## The outside world -/

structure CreatePayoutParams where
  amount : Int
  currency : Currency
  reference : String
  method : PayoutMethod
  deriving DecidableEq, Repr

structure PayoutResult where
  success : Bool
  providerTransferId : Option String
  deriving DecidableEq, Repr

/-- A command of an adapter on a payment: a capture, a cancellation or a refund. -/
structure PaymentCommand where
  provider : Provider
  providerRef : String
  amount : Int
  currency : Json
  deriving Repr

/-- What `capturePayment` and `cancelPayment` report. -/
structure CommandResult where
  success : Bool
  status : Option PaymentIntentStatus
  deriving DecidableEq, Repr

structure RefundResult where
  success : Bool
  providerRefundRef : Option String
  deriving DecidableEq, Repr

/-- What `createCheckoutSession` is asked to charge. The customer and the URLs are left out. -/
structure CheckoutSession where
  provider : Provider
  amount : Int
  currency : String
  reference : String
  correlationId : String
  isPreauth : Bool
  storePaymentProfile : Bool
  deriving DecidableEq, Repr

structure CheckoutResult where
  providerRef : String
  redirectUrl : String
  providerData : List (String × Json)
  deriving Repr

inductive Query
  /-- A generated identifier. -/
  | freshId
  /-- A generated identifier as a text. -/
  | cuid
  | now
  /-- The locked rate of a currency pair, times 10^8. -/
  | quoteFx (base quote : Currency)
  /-- `createPayout` of the provider adapter. -/
  | createPayout (provider : Provider) (params : CreatePayoutParams)
  | queryTransactionStatus (provider : Provider) (providerRef : String)
  | createCheckoutSession (session : CheckoutSession)
  /-- The verdict on a charge, from the rules and the history of the tenant. -/
  | scoreRisk (tenantId : Id) (amountCents : Int)
  | capturePayment (command : PaymentCommand)
  | cancelPayment (command : PaymentCommand)
  | refund (command : PaymentCommand)
  deriving Repr

/-- An adapter that throws answers with its message. -/
abbrev Answer : Query → Type
  | .freshId => Id
  | .cuid => String
  | .now => Nat
  | .quoteFx _ _ => Nat
  | .createPayout _ _ => Except String PayoutResult
  | .queryTransactionStatus _ _ => Except String PaymentIntentStatus
  | .createCheckoutSession _ => Except String CheckoutResult
  | .scoreRisk _ _ => RiskVerdict
  | .capturePayment _ => Except String CommandResult
  | .cancelPayment _ => Except String CommandResult
  | .refund _ => Except String RefundResult

/-- The outside world answers each question as it likes. The logs are what the providers did: each payout that is
accepted is a transfer, each checkout session is a charge, and a payment is captured or refunded when its command
succeeds. -/
structure World where
  clock : Nat
  oracle : Nat → (q : Query) → Answer q
  transfers : List CreatePayoutParams
  charges : List CheckoutSession
  captures : List PaymentCommand
  refunds : List PaymentCommand

def World.reply (w : World) (q : Query) : Answer q × World :=
  let answer := w.oracle w.clock q
  let transfers :=
    match q, answer with
    | .createPayout _ params, .ok result => if result.success then w.transfers ++ [params] else w.transfers
    | _, _ => w.transfers
  let charges :=
    match q, answer with
    | .createCheckoutSession session, .ok _ => w.charges ++ [session]
    | _, _ => w.charges
  let captures :=
    match q, answer with
    | .capturePayment command, .ok result => if result.success then w.captures ++ [command] else w.captures
    | _, _ => w.captures
  let refunds :=
    match q, answer with
    | .refund command, .ok result => if result.success then w.refunds ++ [command] else w.refunds
    | _, _ => w.refunds
  (answer, { w with clock := w.clock + 1, transfers, charges, captures, refunds })

/-- A world that numbers its answers, quotes par and accepts every command. -/
def World.counting : World where
  clock := 0
  oracle := fun n q =>
    match q with
    | .freshId => n
    | .cuid => toString n
    | .now => n
    | .quoteFx _ _ => 100000000
    | .createPayout _ _ => .ok ⟨true, none⟩
    | .queryTransactionStatus _ _ => .ok .succeeded
    | .createCheckoutSession _ => .ok ⟨toString n, "", []⟩
    | .scoreRisk _ _ => .allow
    | .capturePayment _ => .ok ⟨true, none⟩
    | .cancelPayment _ => .ok ⟨true, none⟩
    | .refund _ => .ok ⟨true, none⟩
  transfers := []
  charges := []
  captures := []
  refunds := []

abbrev Backend : Interface where
  Store := Db
  Lock := DbLock
  World := World
  Query := Query
  Answer := Answer
  reply := World.reply
  Err := Failure
  aborted := .aborted

instance : DecidableEq Backend.Lock := inferInstanceAs (DecidableEq DbLock)

abbrev Tx := Transaction.Tx Backend

abbrev Job := Transaction.Job Backend

/-! ## Statements -/

export Transaction (select change transaction selectOnce)
export Transaction.Tx (lift when forEach collect)

abbrev freshId : Tx Id := @Transaction.Tx.query Backend .freshId

abbrev now : Tx Nat := @Transaction.Tx.query Backend .now

end CorpoPay.Settlement
