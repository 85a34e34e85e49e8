import CorpoPay.Settlement.Installments
import CorpoPay.Settlement.IntentDb
import CorpoPay.Settlement.PayoutDb

/-!
# Creation of intents (`routes/paymentIntents.ts`)

`POST /payment-intents` and `POST /public/checkout/:slug/pay`. The customer and the URLs are left out: nothing modelled
reads them. The event that starts the poller is left out too, a poll may start at any time.
-/

namespace CorpoPay.Settlement

abbrev cuid : Tx String := @Transaction.Tx.query Backend .cuid

/-! ## Rows -/

/-- Insert a `PaymentIntent` row: its id and its correlation id are unique. -/
def PaymentIntent.create (row : Id → String → Nat → PaymentIntent) : Tx PaymentIntent := do
  let id ← freshId
  let correlationId ← cuid
  let createdAt ← now
  let taken ← select (·.paymentIntents.any fun r => r.id = id ∨ r.correlationId = correlationId)
  if taken then Backend.fail (.prismaError "P2002")
  else do
    change fun db => { db with paymentIntents := db.paymentIntents ++ [row id correlationId createdAt] }
    pure (row id correlationId createdAt)

/-- Insert an `InstallmentAgreement` row: its id and its intent are unique. -/
def InstallmentAgreement.create (row : String → InstallmentAgreement) : Tx InstallmentAgreement := do
  let id ← cuid
  let agreement := row id
  Backend.lock (.installmentAgreementOf agreement.initialPaymentIntentId)
  let taken ← select (·.installmentAgreements.any fun r =>
    r.id = id ∨ r.initialPaymentIntentId = agreement.initialPaymentIntentId)
  if taken then Backend.fail (.prismaError "P2002")
  else do
    change fun db => { db with installmentAgreements := db.installmentAgreements ++ [agreement] }
    pure agreement

/-- `updateMany({ where: { id, attemptCount: { lt: maxAttempts } }, data: { attemptCount: { increment: 1 } } })` -/
def PaymentLink.bumpAttempts (link : PaymentLink) : Tx Bool := do
  Backend.lock (.paymentLink link.id)
  let open_ ← select (·.paymentLinks.any fun r => r.id = link.id ∧ r.attemptCount < link.maxAttempts)
  if open_ then do
    change fun db =>
      { db with paymentLinks := db.paymentLinks.map fun r =>
          if r.id = link.id then { r with attemptCount := r.attemptCount + 1 } else r }
    pure true
  else pure false

/-! ## The checkout -/

/-- `{ ...fields, [key]: value }` -/
def setField (fields : List (String × Json)) (field : String × Json) : List (String × Json) :=
  if fields.any (·.1 = field.1) then fields.map fun f => if f.1 = field.1 then field else f else fields ++ [field]

def CheckoutResult.stored (result : CheckoutResult) : Json :=
  .obj (if result.redirectUrl = "" then result.providerData
    else setField result.providerData ("redirectUrl", .str result.redirectUrl))

/-- The call of the adapter, and the intent afterwards. -/
def openCheckout (session : CheckoutSession) (intentId : Id) (metadata : Option Json → Option Json) :
    Job CheckoutResult := do
  let result ← @Transaction.Job.query Backend (.createCheckoutSession session)
  match result with
  | .error message => Transaction.Job.throw (Failure.providerError message)
  | .ok result => do
      transaction do
        let _ ← PaymentIntent.update intentId fun r =>
          { r with
            status := .requiresAction
            providerRef := some result.providerRef
            providerData := some result.stored
            metadata := metadata r.metadata }
        let _ ← ProviderTransaction.create fun id => { id, paymentIntentId := intentId, providerTransactionId := none }
        pure ()
      pure result

/-- The verdict on a charge. BLOCK refuses the request. -/
def scoreRisk (tenantId : Id) (amountCents : Int) : Job RiskVerdict := do
  let verdict ← @Transaction.Job.query Backend (.scoreRisk tenantId amountCents)
  if verdict = .block then Transaction.Job.throw (Failure.appError 402 "RISK_BLOCKED" "Payment blocked by risk policy")
  else pure verdict

/-! ## `POST /payment-intents` -/

structure CreateIntentBody where
  provider : Provider
  amount : Int
  currency : String
  reference : String
  description : String
  isPreauth : Option Bool
  metadata : Option (List (String × Json))
  isWallet : Bool
  /-- `z.number().int().positive()` -/
  amount_pos : 0 < amount
  deriving Repr

/-- What the intent keeps of the request. -/
def CreateIntentBody.stored (body : CreateIntentBody) : Json :=
  .obj ([("amount", Json.num body.amount), ("currency", .str body.currency), ("reference", .str body.reference),
    ("description", .str body.description), ("isPreauth", .bool (body.isPreauth.getD false))].foldl setField
      (body.metadata.getD []))

/-- `typeof value === "string" && !!value` -/
def Json.isText : Json → Bool
  | .str s => s ≠ ""
  | _ => false

/-- The stored session has a client secret. -/
def PaymentIntent.isWallet (intent : PaymentIntent) : Bool :=
  match intent.providerData with
  | some (.obj fields) => fields.any fun field => field.1 = "clientSecret" && field.2.isText
  | _ => false

/-- The newest open intent with the reference that is at most five minutes old. -/
def Db.recentIntent (db : Db) (rt : Runtime) (tenantId : Id) (reference : String) (now : Nat) : Option PaymentIntent :=
  ((db.paymentIntents.filter fun r => r.tenantId = tenantId && r.status ∉ PaymentIntentStatus.TERMINAL
      && now - 5 * 60 * 1000 ≤ r.createdAt && r.hasReference rt (.str reference)).insertionSort
    fun a b => b.createdAt ≤ a.createdAt).head?

structure CreatedIntent where
  intentId : Id
  idempotent : Bool
  deriving DecidableEq, Repr

/-- A rate is quoted when the customer pays in another supported currency than the tenant's settlement currency. -/
def lockFx (tenantId : Id) (currency : String) : Job (Option FxQuote) := do
  let settlementCurrency ← selectOnce (·.settlementCurrency tenantId)
  match Currency.ofJson (.str currency) with
  | none => pure none
  | some base =>
      if base = settlementCurrency then pure none
      else do
        let fx ← quoteFx base settlementCurrency
        pure (some fx)

/-- A new intent and its checkout. -/
def openIntent (rt : Runtime) (tenantId : Id) (body : CreateIntentBody) (config : ProviderConfig) : Job CreatedIntent := do
  let verdict ← scoreRisk tenantId body.amount
  let fx ← lockFx tenantId body.currency
  let intent ← transaction (PaymentIntent.create fun id correlationId createdAt =>
    { id, tenantId, paymentLinkId := none, status := .created, provider := body.provider, providerRef := none,
      correlationId, metadata := body.metadata.map .obj, riskVerdict := some verdict, createdAt,
      fxRate := fx.map (·.rate), fxCurrencyPair := fx.map fun fx => currencyPairKey fx.base fx.quote,
      fxExpiresAt := fx.map (·.expiresAt) })
  let _ ← @Transaction.Job.ofExcept Backend _ (getAdapter rt body.provider config.encryptedCredentials)
  let _ ← openCheckout
    { provider := body.provider, amount := body.amount, currency := body.currency, reference := body.reference,
      correlationId := intent.correlationId, isPreauth := body.isPreauth.getD false || verdict = .review,
      storePaymentProfile := false }
    intent.id fun _ => some body.stored
  pure { intentId := intent.id, idempotent := false }

def createIntent (rt : Runtime) (tenantId : Id) (body : CreateIntentBody) : Job CreatedIntent := do
  let config ← selectOnce (·.providerConfig tenantId body.provider)
  match config.filter (·.status = .connected) with
  | none => Transaction.Job.throw (Failure.appError 503 "PROVIDER_UNAVAILABLE"
      (if config.any (·.status = .disabled) then "Provider " ++ body.provider.code ++ " is disabled"
        else "Provider " ++ body.provider.code ++ " is not configured or not connected"))
  | some config => do
      let now ← @Transaction.Job.query Backend .now
      let existing ← selectOnce (·.recentIntent rt tenantId body.reference now)
      match existing.filter (·.isWallet = body.isWallet) with
      | some existing => pure { intentId := existing.id, idempotent := true }
      | none => openIntent rt tenantId body config

/-! ## `POST /public/checkout/:slug/pay` -/

structure PayBody where
  installmentPlanId : Option String
  /-- In major units, and positive. -/
  downPaymentAmount : Option Rat
  downPayment_pos : ∀ x ∈ downPaymentAmount, 0 < x
  deriving Repr

theorem PayBody.none_pos : ∀ x ∈ (none : Option Rat), 0 < x := by
  intro x hx
  cases hx

/-- The plan that the request names: an empty id is none. -/
def PayBody.planId (body : PayBody) : Option String := body.installmentPlanId.filter (· ≠ "")

structure PaidLink where
  intentId : Id
  agreementId : Option String
  deriving DecidableEq, Repr

def Db.linkOfSlug (db : Db) (slug : String) : Option PaymentLink := db.paymentLinks.find? (·.slug = slug)

def checkLink (link : PaymentLink) (tenant : Option Tenant) (now : Nat) : Except Failure Unit :=
  if tenant.any (·.status = .disabled) then .error (.appError 403 "TENANT_DISABLED" "Merchant not accepting payments")
  else if link.status ≠ .active then .error (.appError 410 "LINK_INACTIVE" "This payment link is no longer active")
  else if link.expiresAt.any (· < now) then .error (.appError 410 "LINK_EXPIRED" "Payment link expired")
  else .ok ()

/-- An installment link needs a plan, and only an installment link takes one. -/
def checkPlanId (link : PaymentLink) (planId : Option String) : Except Failure Unit :=
  if link.isInstallment ∧ planId = none then
    .error (.appError 400 "PLAN_REQUIRED" "An installment plan must be selected for this payment link")
  else if planId ≠ none ∧ ¬ link.isInstallment then
    .error (.appError 400 "NOT_INSTALLMENT_LINK" "This payment link does not support installments")
  else .ok ()

def Db.activePlan (db : Db) (tenantId : Id) (planId : String) : Option InstallmentPlan :=
  db.installmentPlans.find? fun p => p.id = planId ∧ p.tenantId = tenantId ∧ p.isActive

/-- The metadata of an intent that pays an installment agreement. -/
def bnplMetadata (agreementId : Option String) : Json :=
  .obj (("bnpl", .bool true) :: (agreementId.map fun id => ("installmentAgreementId", Json.str id)).toList)

/-- The down payment is charged, and the agreement holds the rest. -/
def payDown (rt : Runtime) (link : PaymentLink) (plan : InstallmentPlan) (body : PayBody) : Job PaidLink := do
  let terms ← @Transaction.Job.ofExcept Backend _ (plan.terms rt.arithmetic link.amount body.downPaymentAmount)
  let chargeCentimes := toCentimes rt.arithmetic (major rt.arithmetic terms.downPayment)
  let verdict ← scoreRisk link.tenantId chargeCentimes
  let draftIntent ← transaction (PaymentIntent.create fun id correlationId createdAt =>
    { id, tenantId := link.tenantId, paymentLinkId := some link.id, status := .created, provider := link.provider,
      providerRef := none, correlationId, metadata := some (bnplMetadata none), riskVerdict := some verdict, createdAt })
  let agreement ← transaction (InstallmentAgreement.create fun id =>
    { id, tenantId := link.tenantId, planId := plan.id, paymentLinkId := some link.id,
      initialPaymentIntentId := draftIntent.id, encryptedStoredProfileId := "", status := .pendingCheckout,
      principalAmount := link.amount, downPayment := terms.downPayment, installmentAmount := terms.installmentAmount,
      totalInstallments := terms.totalInstallments, paidCount := 0, currency := link.currency, nextChargeDate := none,
      inngestRunId := none })
  let _ ← transaction (PaymentIntent.update draftIntent.id fun r =>
    { r with metadata := some (bnplMetadata (some agreement.id)) })
  let _ ← openCheckout
    { provider := link.provider, amount := chargeCentimes, currency := link.currency.code, reference := link.reference,
      correlationId := draftIntent.correlationId, isPreauth := false, storePaymentProfile := true }
    draftIntent.id id
  pure { intentId := draftIntent.id, agreementId := some agreement.id }

/-- The whole amount of the link is charged. -/
def payFull (link : PaymentLink) : Job PaidLink := do
  let verdict ← scoreRisk link.tenantId link.amount
  let intent ← transaction (PaymentIntent.create fun id correlationId createdAt =>
    { id, tenantId := link.tenantId, paymentLinkId := some link.id, status := .created, provider := link.provider,
      providerRef := none, correlationId, metadata := none, riskVerdict := some verdict, createdAt })
  let _ ← openCheckout
    { provider := link.provider, amount := link.amount, currency := link.currency.code, reference := link.reference,
      correlationId := intent.correlationId, isPreauth := verdict = .review && !link.isRecurring,
      storePaymentProfile := link.isRecurring }
    intent.id id
  pure { intentId := intent.id, agreementId := none }

/-- What follows the checks of the link. -/
def payChecked (rt : Runtime) (link : PaymentLink) (body : PayBody) : Job PaidLink := do
  let config ← selectOnce (·.providerConfig link.tenantId link.provider)
  match config.filter (·.status = .connected) with
  | none => Transaction.Job.throw (Failure.appError 503 "PROVIDER_UNAVAILABLE"
      (if config.any (·.status = .disabled) then "Payment provider is disabled" else "Payment provider not available"))
  | some config => do
      let _ ← @Transaction.Job.ofExcept Backend _ (getAdapter rt link.provider config.encryptedCredentials)
      let _ ← @Transaction.Job.ofExcept Backend _ (checkPlanId link body.planId)
      match body.planId with
      | none => payFull link
      | some planId => do
          let plan ← selectOnce (·.activePlan link.tenantId planId)
          match plan with
          | none =>
              Transaction.Job.throw (Failure.appError 404 "PLAN_NOT_FOUND" "Installment plan not found or not active")
          | some plan => payDown rt link plan body

def payLink (rt : Runtime) (slug : String) (body : PayBody) : Job PaidLink := do
  let link ← selectOnce (·.linkOfSlug slug)
  match link with
  | none => Transaction.Job.throw (Failure.appError 404 "LINK_NOT_FOUND" "Payment link not found")
  | some link => do
      let tenant ← selectOnce (·.tenant link.tenantId)
      let now ← @Transaction.Job.query Backend .now
      let _ ← @Transaction.Job.ofExcept Backend _ (checkLink link tenant now)
      let bumped ← transaction link.bumpAttempts
      if bumped then payChecked rt link body
      else Transaction.Job.throw (Failure.appError 429 "MAX_ATTEMPTS" "Maximum payment attempts reached")

/-! ## What creates an intent -/

inductive CreationRequest
  | direct (tenantId : Id) (body : CreateIntentBody)
  | link (slug : String) (body : PayBody)
  deriving Repr

def CreationRequest.job (rt : Runtime) : CreationRequest → Job CreatedIntent
  | .direct tenantId body => createIntent rt tenantId body
  | .link slug body => do
      let paid ← payLink rt slug body
      pure { intentId := paid.intentId, idempotent := false }

end CorpoPay.Settlement
