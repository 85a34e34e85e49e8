import CorpoPay.Settlement.IntentDb

/-!
# Provider webhooks (`webhook-verify.ts`, `webhookProcessor.inngest.ts`, `routes/webhooks.ts`)

The route verifies a notification and queues it; the job looks the intent up again and processes it. What is logged, the
notifications that the job sends on and the subscriptions and installments that it starts are left out: they write no
table of payments.
-/

namespace CorpoPay.Settlement

/-! ## Verification -/

inductive VerifyWebhookResult
  | ok (payload : Json) (tenantId : Id)
  | fail (failReason : String)
  deriving Repr

/-- The value that the rows are looked up by. -/
def webhookIdentifier (provider : Provider) (payload : Json) : Except Failure (Option Json) :=
  match provider with
  | .stripe => do
      let eventData ← payload.coalesce ["data"]
      let object ← (eventData.getD (.obj [])).coalesce ["object"]
      let metadata ← (object.getD (.obj [])).coalesce ["metadata"]
      (metadata.getD (.obj [])).coalesce ["correlationId", "corpopayRef"]
  | _ => payload.coalesce ["chargeId", "customerId", "orderId"]

/-- The intent with the identifier as its correlation id, else the newest one with it as its reference. -/
def findVerified (rt : Runtime) (provider : Provider) (identifier : Json) : Job (Option PaymentIntent) := do
  match ← findIntent provider (some identifier) rt.byCorrelationId with
  | some intent => pure (some intent)
  | none => if provider = .stripe then pure none else selectOnce (·.newestIntent rt provider identifier)

/-- The signature under the key of a tenant. -/
def checkSignature (rt : Runtime) (provider : Provider) (rawBody : Buffer) (headers : Headers) (config : ProviderConfig) :
    Except Failure Bool := do
  let adapter ← getAdapter rt provider config.encryptedCredentials
  adapter.verifyWebhookSignature rt rawBody headers

def verifyPayload (rt : Runtime) (provider : Provider) (payload : Json) (rawBody : Buffer) (headers : Headers) :
    Job VerifyWebhookResult := do
  let identifier ← @Transaction.Job.ofExcept Backend _ (webhookIdentifier provider payload)
  match identifier.filter (·.truthy) with
  | none => pure (.fail (if provider = .stripe then "no_correlation_id" else "no_charge_id"))
  | some identifier => do
      match ← findVerified rt provider identifier with
      | none => pure (.fail "intent_not_found")
      | some intent => do
          match ← selectOnce (·.providerConfig intent.tenantId provider) with
          | none => pure (.fail "provider_config_not_found")
          | some config => do
              let valid ← @Transaction.Job.ofExcept Backend _ (checkSignature rt provider rawBody headers config)
              pure (if valid then .ok payload intent.tenantId else .fail "signature_mismatch")

def verifyWebhook (rt : Runtime) (provider : Provider) (rawBody : Buffer) (headers : Headers) :
    Job VerifyWebhookResult :=
  match rt.parseJson rawBody with
  | .error _ => pure (.fail "invalid_json")
  | .ok payload => (verifyPayload rt provider payload rawBody headers).orElse fun _ => pure (.fail "exception")

/-! ## The queued job -/

structure WebhookNotification where
  provider : Provider
  payloadJson : Json
  rawBody : Buffer
  headers : Headers
  idempotencyKey : String
  deriving Repr

/-- Steps are retried four times by default. -/
def DEFAULT_RETRIES : Nat := 4

/-- Step `find-intent`. -/
def findNotified (rt : Runtime) (event : WebhookNotification) : Job (Option PaymentIntent) := do
  let orderId ← @Transaction.Job.ofExcept Backend _ (event.payloadJson.coalesce ["orderId", "OrderID", "paymentId"])
  let correlationId ← @Transaction.Job.ofExcept Backend _ (event.payloadJson.coalesce ["customerId"])
  match ← findIntent event.provider correlationId rt.byCorrelationId with
  | some intent => pure (some intent)
  | none => do
      match ← findIntent event.provider orderId rt.byProviderRef with
      | some intent => pure (some intent)
      | none =>
          match orderId.filter (·.truthy) with
          | none => pure none
          | some value => selectOnce (·.newestIntent rt event.provider value)

/-- `include: { paymentLink: … }` -/
def withPaymentLink (intent : Option PaymentIntent) : Job (Option IntentWithLink) :=
  selectOnce fun db => intent.map db.withLink

/-- Step `verify-signature`: its result is recorded and nothing else. -/
def verifySignature (rt : Runtime) (event : WebhookNotification) (tenantId : Option Id) : Job Bool :=
  match tenantId with
  | none => pure false
  | some tenantId => do
      match ← selectOnce (·.providerConfig tenantId event.provider) with
      | none => pure false
      | some config =>
          pure (((checkSignature rt event.provider event.rawBody event.headers config).toOption).getD false)

structure WebhookResult where
  mappedStatus : Option Json
  processingError : Option Failure
  processed : Bool

/-- The transaction of the provider, when there is a row for it. -/
def recordTransaction (intentId : Id) (providerTransactionId : Option Json) : Job Unit :=
  match providerTransactionId.filter (·.truthy) with
  | none => pure ()
  | some value => do
      match ← selectOnce (·.providerTransactions.find? (·.paymentIntentId = intentId)) with
      | none => pure ()
      | some existing => do
          let column ← @Transaction.Job.ofExcept Backend _ (textColumn value)
          transaction (ProviderTransaction.update existing.id fun r => { r with providerTransactionId := some column })

/-- The status is written unless the intent, as it was found, is terminal. -/
def writeStatus (intent : IntentWithLink) (internalStatus : Json) : Job Unit :=
  if intent.status ∈ PaymentIntentStatus.TERMINAL then pure ()
  else do
    let status ← @Transaction.Job.ofExcept Backend _ (statusColumn internalStatus)
    let _ ← transaction (PaymentIntent.setStatus intent.id status)
    pure ()

def markNotifiedLinkPaid (intent : IntentWithLink) (internalStatus : Json) : Job Unit :=
  match intent.paymentLinkId with
  | none => pure ()
  | some paymentLinkId =>
      if internalStatus.isStr PaymentIntentStatus.succeeded.code then
        transaction (PaymentLink.setStatus paymentLinkId .paid)
      else pure ()

/-- The writes of a mapped status. -/
def applyStatus (payload : Json) (intent : IntentWithLink) (internalStatus : Json) : Job Unit := do
  let providerTransactionId ← @Transaction.Job.ofExcept Backend _
    (payload.coalesce ["transactionId", "TransactionID", "id", "internalId"])
  writeStatus intent internalStatus
  recordTransaction intent.id providerTransactionId
  markNotifiedLinkPaid intent internalStatus

/-- The internal status under the adapter of the tenant. -/
def mapNotifiedStatus (rt : Runtime) (provider : Provider) (providerStatus : Json) (config : ProviderConfig) :
    Except Failure Json := do
  let adapter ← getAdapter rt provider config.encryptedCredentials
  adapter.mapStatusToInternal rt providerStatus

/-- Step `update-intent-status`: an error is part of its result. -/
def updateNotified (rt : Runtime) (event : WebhookNotification) (intent : IntentWithLink) (providerStatus : Json) :
    Job WebhookResult := do
  match ← selectOnce (·.providerConfig intent.tenantId event.provider) with
  | none => pure ⟨none, some (.error "No provider config"), false⟩
  | some config =>
      let update : Job WebhookResult := do
        let internalStatus ← @Transaction.Job.ofExcept Backend _
          (mapNotifiedStatus rt event.provider providerStatus config)
        applyStatus event.payloadJson intent internalStatus
        pure ⟨some internalStatus, none, true⟩
      update.orElse fun e => pure ⟨none, some e, false⟩

/-- The status update, when the notification has a status and an intent. -/
def processStatus (rt : Runtime) (event : WebhookNotification) (intent : Option IntentWithLink)
    (providerStatus : Option Json) : Job WebhookResult :=
  match intent, providerStatus.filter (·.truthy) with
  | some intent, some providerStatus => stepRun DEFAULT_RETRIES (updateNotified rt event intent providerStatus)
  | _, _ => pure ⟨none, none, false⟩

/-- Step `settle-capture`: what was mapped to SUCCEEDED is settled. -/
def settleNotified (rt : Runtime) (intent : Option IntentWithLink) (result : WebhookResult) : Job Bool :=
  match intent with
  | none => pure false
  | some intent =>
      if result.processed && result.mappedStatus.any (·.isStr PaymentIntentStatus.succeeded.code) then
        stepRun DEFAULT_RETRIES (settleCharge intent.tenantId intent.id (resolveIntentCharge rt intent))
      else pure false

/-- Step `store-webhook-event`. -/
def storeNotification (event : WebhookNotification) (intent : Option IntentWithLink) (signatureVerified : Bool)
    (result : WebhookResult) : Job WebhookEvent := do
  let mappedStatus ← @Transaction.Job.ofExcept Backend _ (result.mappedStatus.mapM textColumn)
  transaction (WebhookEvent.create event.idempotencyKey fun id =>
    { id, provider := event.provider, tenantId := intent.map (·.tenantId), paymentIntentId := intent.map (·.id),
      signatureVerified, processed := result.processed, processingError := result.processingError, mappedStatus,
      idempotencyKey := some event.idempotencyKey })

def webhookProcessor (rt : Runtime) (event : WebhookNotification) : Job Id := do
  let intent ← stepRun DEFAULT_RETRIES ((findNotified rt event).bind withPaymentLink)
  let signatureVerified ← stepRun DEFAULT_RETRIES (verifySignature rt event (intent.map (·.tenantId)))
  let providerStatus ← @Transaction.Job.ofExcept Backend _
    (event.payloadJson.coalesce ["Status", "status", "transactionStatus"])
  let result ← processStatus rt event intent providerStatus
  let _ ← settleNotified rt intent result
  let webhookEvent ← stepRun DEFAULT_RETRIES (storeNotification event intent signatureVerified result)
  pure webhookEvent.id

/-! ## The route -/

inductive WebhookResponse
  | rejected (status : Nat)
  | duplicate
  | queued (event : WebhookNotification)
  deriving Repr

/-- The event id of the provider, else the digest of the body. -/
def notificationKey (rt : Runtime) (payload : Json) (rawBody : Buffer) : Except Failure String := do
  match ← payload.coalesce ["eventId", "webhookId", "notification_id"] with
  | some key => textColumn key
  | none => pure (rt.sha256 rawBody)

def handleProviderWebhook (rt : Runtime) (provider : Provider) (rawBody : Buffer) (headers : Headers) :
    Job WebhookResponse := do
  match ← verifyWebhook rt provider rawBody headers with
  | .fail failReason => pure (.rejected (if failReason = "invalid_json" then 400 else 401))
  | .ok payload _ => do
      let idempotencyKey ← @Transaction.Job.ofExcept Backend _ (notificationKey rt payload rawBody)
      let existing ← selectOnce (·.webhookEvents.any (·.idempotencyKey = some idempotencyKey))
      if existing then pure .duplicate
      else pure (.queued { provider, payloadJson := payload, rawBody, headers, idempotencyKey })

end CorpoPay.Settlement
