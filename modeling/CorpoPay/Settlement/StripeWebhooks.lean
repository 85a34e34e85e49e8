import CorpoPay.Settlement.IntentDb

/-!
# Stripe events (`stripeWebhookProcessor.inngest.ts`)

An event was verified before it is queued. What the job sends on and the note it logs are left out: nothing reads them.
-/

namespace CorpoPay.Settlement

/-! ## The event -/

/-- A queued event with the key it was deduplicated by. -/
structure StripeEvent where
  payloadJson : Json
  idempotencyKey : String
  deriving Repr

/-- `stripeEvent.data?.object ?? {}` -/
def StripeEvent.object (event : StripeEvent) : Except Failure Json := do
  match ← event.payloadJson.coalesce ["data"] with
  | none => pure (.obj [])
  | some data => pure ((← data.coalesce ["object"]).getD (.obj []))

def Json.isObject (value : Json) : Bool :=
  match value with
  | .arr _ | .obj _ => true
  | _ => false

/-- The payment intent of an event about it, or the one that a session embeds. -/
def extractPaymentIntent (obj : Json) : Except Failure (Option Json) := do
  let kind ← obj.get "object"
  if kind.any (·.isStr "payment_intent") then pure (some obj)
  else if kind.any (·.isStr "checkout.session") then do
    let pi ← obj.get "payment_intent"
    pure (pi.filter (·.isObject))
  else pure none

def extractCorrelationId (obj : Json) : Except Failure (Option Json) := do
  let metadata ← obj.coalesce ["metadata"]
  (metadata.getD (.obj [])).coalesce ["correlationId", "corpopayRef"]

def extractPiId (obj : Json) : Except Failure (Option Json) := do
  if (← obj.get "object").any (·.isStr "payment_intent") then obj.get "id" else obj.coalesce ["payment_intent"]

/-- The status that a type of event reports. -/
def stripeEventStatus (eventType : Option Json) : Option PaymentIntentStatus :=
  if eventType.any (·.isStr "checkout.session.completed") || eventType.any (·.isStr "payment_intent.succeeded") then
    some .succeeded
  else if eventType.any (·.isStr "payment_intent.amount_capturable_updated") then some .authorized
  else if eventType.any (·.isStr "payment_intent.payment_failed") then some .failed
  else if eventType.any (·.isStr "payment_intent.canceled") then some .canceled
  else if eventType.any (·.isStr "charge.refunded") then some .refunded
  else none

/-- The charge that an event names. -/
def stripeTransactionId (newStatus : PaymentIntentStatus) (obj : Json) : Except Failure (Option Json) :=
  match newStatus with
  | .succeeded | .authorized => do
      match ← extractPaymentIntent obj with
      | none => pure none
      | some pi => pi.coalesce ["latest_charge"]
  | .refunded => obj.coalesce ["id"]
  | _ => pure none

/-! ## Steps -/

/-- Step `find-intent`. -/
def findStripeIntent (rt : Runtime) (obj : Json) : Job (Option PaymentIntent) := do
  let correlationId ← @Transaction.Job.ofExcept Backend _ (extractCorrelationId obj)
  let piId ← @Transaction.Job.ofExcept Backend _ (extractPiId obj)
  match ← findIntent .stripe correlationId rt.byCorrelationId with
  | some found => pure (some found)
  | none => findIntent .stripe piId rt.byProviderRef

/-- The guard of the update. -/
def keepsStatus (current newStatus : PaymentIntentStatus) : Bool :=
  let alreadyTerminal := current ∈ PaymentIntentStatus.TERMINAL
  let incomingTerminal := newStatus ∈ PaymentIntentStatus.TERMINAL
  alreadyTerminal && current = newStatus
    || alreadyTerminal && current ≠ .succeeded && newStatus = .refunded
    || alreadyTerminal && !incomingTerminal

/-- Step `update-intent-status`. -/
def updateStripeStatus (intentId : Id) (newStatus : PaymentIntentStatus) : Job (Option PaymentIntentStatus) := do
  match ← selectOnce (·.paymentIntent intentId) with
  | none => pure none
  | some current =>
      if keepsStatus current.status newStatus then pure none
      else do
        let _ ← transaction (PaymentIntent.setStatus intentId newStatus)
        pure (some newStatus)

/-- Step `settle-capture`. -/
def settleStripe (rt : Runtime) (intent : PaymentIntent) : Job Bool := do
  match ← selectOnce fun db => (db.paymentIntent intent.id).map db.withLink with
  | none => pure false
  | some withAmount => settleCharge intent.tenantId intent.id (resolveIntentCharge rt withAmount)

/-- Step `upsert-provider-transaction`. -/
def upsertProviderTransaction (intentId : Id) (providerTransactionId : Option Json) : Job Unit := do
  let existing ← selectOnce (·.providerTransactions.find? (·.paymentIntentId = intentId))
  match existing, providerTransactionId.filter (·.truthy) with
  | some existing, some value => do
      let chargeId ← @Transaction.Job.ofExcept Backend _ (textColumn value)
      transaction (ProviderTransaction.update existing.id fun r => { r with providerTransactionId := some chargeId })
  | some existing, none => transaction (ProviderTransaction.update existing.id id)
  | none, _ => do
      let chargeId ← @Transaction.Job.ofExcept Backend _ (providerTransactionId.mapM textColumn)
      let _ ← transaction (ProviderTransaction.create fun id =>
        { id, paymentIntentId := intentId, providerTransactionId := chargeId })
      pure ()

/-- Step `mark-link-paid`. -/
def markLinkPaid (intent : PaymentIntent) (newStatus : PaymentIntentStatus) : Job Unit :=
  match intent.paymentLinkId with
  | none => pure ()
  | some paymentLinkId =>
      if newStatus = .succeeded then stepRun 5 (transaction (PaymentLink.setStatus paymentLinkId .paid)) else pure ()

/-- Step `store-webhook-event`. -/
def storeStripeEvent (event : StripeEvent) (intent : PaymentIntent) (newStatus : PaymentIntentStatus) (processed : Bool) :
    Job WebhookEvent :=
  transaction (WebhookEvent.create event.idempotencyKey fun id =>
    { id, provider := .stripe, tenantId := some intent.tenantId, paymentIntentId := some intent.id,
      signatureVerified := true, processed, processingError := none, mappedStatus := some newStatus.code,
      idempotencyKey := some event.idempotencyKey })

/-! ## The job -/

inductive StripeOutcome
  | skipped (reason : String)
  | stored (webhookEventId intentId : Id) (newStatus : PaymentIntentStatus)
  deriving DecidableEq, Repr

/-- What was captured is settled. -/
def settleUpdated (rt : Runtime) (intent : PaymentIntent) (updated : Option PaymentIntentStatus) : Job Bool :=
  if updated = some .succeeded then stepRun 5 (settleStripe rt intent) else pure false

/-- What follows the status update. -/
def finishStripeEvent (rt : Runtime) (event : StripeEvent) (intent : PaymentIntent) (newStatus : PaymentIntentStatus)
    (providerTransactionId : Option Json) (updated : Option PaymentIntentStatus) : Job StripeOutcome := do
  let _ ← settleUpdated rt intent updated
  stepRun 5 (upsertProviderTransaction intent.id providerTransactionId)
  markLinkPaid intent newStatus
  let webhookEvent ← stepRun 5 (storeStripeEvent event intent newStatus updated.isSome)
  pure (.stored webhookEvent.id intent.id newStatus)

/-- What an event about a known intent does. -/
def routeStripeEvent (rt : Runtime) (event : StripeEvent) (eventType : Option Json) (obj : Json)
    (intent : PaymentIntent) : Job StripeOutcome :=
  match stripeEventStatus eventType with
  | none => pure (.skipped "unhandled-event-type")
  | some newStatus => do
      let providerTransactionId ← @Transaction.Job.ofExcept Backend _ (stripeTransactionId newStatus obj)
      let updated ← stepRun 5 (updateStripeStatus intent.id newStatus)
      finishStripeEvent rt event intent newStatus providerTransactionId updated

def stripeWebhookProcessor (rt : Runtime) (event : StripeEvent) : Job StripeOutcome := do
  let eventType ← @Transaction.Job.ofExcept Backend _ (event.payloadJson.get "type")
  let obj ← @Transaction.Job.ofExcept Backend _ event.object
  match ← stepRun 5 (findStripeIntent rt obj) with
  | none => pure (.skipped "intent-not-found")
  | some intent => routeStripeEvent rt event eventType obj intent

end CorpoPay.Settlement
