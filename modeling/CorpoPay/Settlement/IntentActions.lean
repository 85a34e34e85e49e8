import CorpoPay.Settlement.Webhooks

/-!
# Capture and void (`intent-actions.ts`, `routes/paymentIntents.ts`, `routes/admin.ts`, `paymentPoller.inngest.ts`)

What merchants, admins and the poller do to an intent. The events that the jobs send on and the rows of the audit log
are left out: nothing reads them.
-/

namespace CorpoPay.Settlement

/-! ## Rows -/

/-- `where: { id, ...(tenantId ? { tenantId } : {}) }` -/
def PaymentIntent.inScope (intentId : Id) (tenantId : Option Id) (r : PaymentIntent) : Bool :=
  r.id = intentId ∧ ∀ t ∈ tenantId, r.tenantId = t

def Db.scopedIntent (db : Db) (intentId : Id) (tenantId : Option Id) : Option PaymentIntent :=
  db.paymentIntents.find? (·.inScope intentId tenantId)

/-- AUTHORIZED → PROCESSING, and the number of rows it was. -/
def lockAuthorized (intentId : Id) (tenantId : Option Id) : Tx Nat := do
  let held : PaymentIntent → Bool := fun r => r.inScope intentId tenantId && r.status = .authorized
  Backend.lock (.paymentIntent intentId)
  let count ← select fun db => (db.paymentIntents.filter held).length
  change fun db =>
    { db with paymentIntents := db.paymentIntents.map fun r => if held r then { r with status := .processing } else r }
  pure count

/-- Revert the AUTHORIZED → PROCESSING lock so a retry is possible. -/
def revertLock (intentId : Id) : Job Unit :=
  transaction do
    Backend.lock (.paymentIntent intentId)
    change fun db =>
      { db with
        paymentIntents := db.paymentIntents.map fun r => if r.id = intentId then { r with status := .authorized } else r }

/-! ## Actions -/

/-- The amount as it stands and the currency. -/
def resolveCharge (intent : IntentWithLink) : Json × Json :=
  match intent.paymentLink with
  | some link => (.num link.amount, .str link.currency.code)
  | none => (intent.metadataOr "amount" (.num 0), intent.metadataOr "currency" (.str Currency.mad.code))

def intentNotFound : Failure := .appError 404 "INTENT_NOT_FOUND" "Payment intent not found"

/-- Load the intent with the fields the action needs, honoring an optional tenant scope. -/
def loadIntent (intentId : Id) (tenantId : Option Id) : Job IntentWithLink := do
  match ← selectOnce fun db => (db.scopedIntent intentId tenantId).map db.withLink with
  | none => Transaction.Job.throw intentNotFound
  | some intent => pure intent

/-- Nothing was locked. -/
def refuseAction {α : Type} (verb : String) (intentId : Id) (tenantId : Option Id) : Job α := do
  match ← selectOnce (·.scopedIntent intentId tenantId) with
  | none => Transaction.Job.throw intentNotFound
  | some existing =>
      Transaction.Job.throw (Failure.appError 409 "INVALID_STATE"
        ("Cannot " ++ verb ++ " intent in " ++ existing.status.code ++ " state — may already be processing"))

/-- The held intent with its reference at the provider, whose adapter is there. -/
def heldIntent (rt : Runtime) (verb : String) (intentId : Id) (tenantId : Option Id) : Job (IntentWithLink × String) := do
  let intent ← loadIntent intentId tenantId
  match intent.providerRef with
  | none | some "" => do
      revertLock intentId
      Transaction.Job.throw (Failure.appError 400 "MISSING_PROVIDER_REF"
        ("Intent has no provider reference to " ++ verb))
  | some providerRef => do
      match ← selectOnce (·.providerConfig intent.tenantId intent.provider) with
      | none => Transaction.Job.throw (Failure.appError 400 "PROVIDER_NOT_CONFIGURED" "Provider config missing")
      | some config => do
          let _ ← @Transaction.Job.ofExcept Backend _ (getAdapter rt intent.provider config.encryptedCredentials)
          pure (intent, providerRef)

/-- The status and the record of the provider's answer. -/
def recordAction (intentId : Id) (status : PaymentIntentStatus) : Tx Unit := do
  let _ ← PaymentIntent.setStatus intentId status
  let _ ← ProviderTransaction.create fun id => { id, paymentIntentId := intentId, providerTransactionId := none }
  pure ()

def commandOf (rt : Runtime) (intent : IntentWithLink) (providerRef : String) : PaymentCommand :=
  { provider := intent.provider, providerRef, amount := (rt.toNumber (resolveCharge intent).1).getD 0,
    currency := (resolveCharge intent).2 }

/-- What follows the answer of the provider to a capture. -/
def finishCapture (rt : Runtime) (intentId : Id) (intent : IntentWithLink) (result : CommandResult) :
    Job PaymentIntentStatus :=
  if !result.success then do
    revertLock intentId
    Transaction.Job.throw (Failure.appError 502 "CAPTURE_FAILED" "Provider rejected the capture request.")
  else do
    let status := result.status.getD .succeeded
    transaction (recordAction intentId status)
    let charge : Charge := { amountCents := rt.toNumber (resolveCharge intent).1, currency := (resolveCharge intent).2 }
    if status = .succeeded then do
      let _ ← settleCharge intent.tenantId intentId charge
      pure status
    else pure status

/-- What is done with a locked intent. -/
def captureHeld (rt : Runtime) (intentId : Id) (tenantId : Option Id) : Job PaymentIntentStatus := do
  let (intent, providerRef) ← heldIntent rt "capture" intentId tenantId
  if !(resolveCharge intent).1.truthy then do
    revertLock intentId
    Transaction.Job.throw (Failure.appError 400 "MISSING_AMOUNT" "Cannot determine amount to capture")
  else do
    let result ← @Transaction.Job.query Backend (.capturePayment (commandOf rt intent providerRef))
    match result with
    | .error message => Transaction.Job.throw (Failure.providerError message)
    | .ok result => finishCapture rt intentId intent result

/-- Settle a pre-authorised payment. -/
def captureIntent (rt : Runtime) (intentId : Id) (tenantId : Option Id) : Job PaymentIntentStatus := do
  let count ← transaction (lockAuthorized intentId tenantId)
  if count = 0 then refuseAction "capture" intentId tenantId else captureHeld rt intentId tenantId

/-- What follows the answer of the provider to a void. -/
def finishVoid (intentId : Id) (result : CommandResult) : Job PaymentIntentStatus :=
  if !result.success then do
    revertLock intentId
    Transaction.Job.throw (Failure.appError 502 "CANCEL_FAILED" "Provider rejected the cancellation request.")
  else do
    let status := result.status.getD .canceled
    transaction (recordAction intentId status)
    pure status

/-- Void a pre-authorised payment. -/
def voidIntent (rt : Runtime) (intentId : Id) (tenantId : Option Id) : Job PaymentIntentStatus := do
  let count ← transaction (lockAuthorized intentId tenantId)
  if count = 0 then refuseAction "cancel" intentId tenantId
  else do
    let (intent, providerRef) ← heldIntent rt "cancel" intentId tenantId
    let result ← @Transaction.Job.query Backend (.cancelPayment (commandOf rt intent providerRef))
    match result with
    | .error message => Transaction.Job.throw (Failure.providerError message)
    | .ok result => finishVoid intentId result

/-! ## Routes -/

/-- `GET /payment-intents/:id/status` -/
def intentStatus (rt : Runtime) (tenantId id : Id) : Job PaymentIntentStatus := do
  match ← selectOnce (·.scopedIntent id (some tenantId)) with
  | none => Transaction.Job.throw intentNotFound
  | some intent =>
      if intent.status ∈ PaymentIntentStatus.TERMINAL then pure intent.status
      else
        match intent.providerRef with
        | none | some "" => pure intent.status
        | some providerRef => do
            match ← selectOnce (·.providerConfig tenantId intent.provider) with
            | none => Transaction.Job.throw (Failure.appError 400 "PROVIDER_NOT_CONFIGURED" "Provider config missing")
            | some config => do
                let _ ← @Transaction.Job.ofExcept Backend _ (getAdapter rt intent.provider config.encryptedCredentials)
                match ← @Transaction.Job.query Backend (.queryTransactionStatus intent.provider providerRef) with
                | .error _ => pure intent.status
                | .ok status =>
                    if status ≠ intent.status then do
                      let _ ← transaction (PaymentIntent.setStatus intent.id status)
                      pure status
                    else pure status

/-- The decision of an admin on a held intent. -/
inductive Resolution
  | allow | block
  deriving DecidableEq, Repr

def Resolution.verdict : Resolution → RiskVerdict
  | .allow => .allow
  | .block => .block

/-- Approve captures a held intent, reject voids it. -/
def actOnHeld (rt : Runtime) (intent : PaymentIntent) (resolution : Resolution) : Job Unit :=
  if intent.status = .authorized then do
    let _ ← match resolution with
      | .allow => captureIntent rt intent.id none
      | .block => voidIntent rt intent.id none
    pure ()
  else pure ()

/-- `POST /admin/risk-decisions/:id/resolve` -/
def resolveRisk (rt : Runtime) (id : Id) (resolution : Resolution) : Job PaymentIntent := do
  match ← selectOnce (·.paymentIntent id) with
  | none => Transaction.Job.throw intentNotFound
  | some intent => do
      actOnHeld rt intent resolution
      transaction (PaymentIntent.update intent.id fun r => { r with riskVerdict := some resolution.verdict })

/-! ## The poller -/

def MAX_DURATION_MS_DEFAULT : Nat := 900000

def MAX_DURATION_MS_STRIPE : Nat := 86400000

/-- The timeout for the given provider (ms). -/
def maxDurationFor (provider : Provider) : Nat :=
  if provider = .stripe then MAX_DURATION_MS_STRIPE else MAX_DURATION_MS_DEFAULT

/-- `metadata?.isPreauth === true` -/
def PaymentIntent.isPreauth (intent : PaymentIntent) : Bool :=
  match intent.metadata with
  | some (.obj fields) =>
      match fields.find? (·.1 = "isPreauth") with
      | some (_, .bool true) => true
      | _ => false
  | _ => false

structure PollStatus where
  intentId : Id
  provider : Provider
  tenantId : Id
  deriving Repr

/-- Step `query-provider`: an adapter that is not there is passed over, a query that fails is not. -/
def queryProvider (rt : Runtime) (event : PollStatus) (intent : PaymentIntent) : Job (Option PaymentIntentStatus) := do
  match ← selectOnce fun db => db.providerConfigs.find? fun r =>
      r.tenantId = event.tenantId ∧ r.provider = event.provider ∧ r.status = .connected with
  | none => pure none
  | some config =>
      match getAdapter rt event.provider config.encryptedCredentials with
      | .error _ => pure none
      | .ok _ => do
          match ← @Transaction.Job.query Backend (.queryTransactionStatus event.provider (intent.providerRef.getD "")) with
          | .error message => Transaction.Job.throw (Failure.providerError message)
          | .ok status => pure (some status)

/-- Write what the provider reports. The result says whether polling goes on. -/
def updatePolled (intent : PaymentIntent) (newStatus : PaymentIntentStatus) : Job Bool :=
  if newStatus ≠ intent.status then do
    let _ ← stepRun DEFAULT_RETRIES (transaction (PaymentIntent.setStatus intent.id newStatus))
    pure (newStatus ∉ PaymentIntentStatus.TERMINAL)
  else pure true

/-- One round, for an intent that is not terminal. -/
def pollOpen (rt : Runtime) (event : PollStatus) (started : Nat) (intent : PaymentIntent) : Job Bool := do
  if intent.isPreauth then pure true
  else do
    let now ← @Transaction.Job.query Backend .now
    if started + maxDurationFor event.provider ≤ now then do
      let _ ← stepRun DEFAULT_RETRIES (transaction (PaymentIntent.setStatus intent.id .failed))
      pure false
    else if event.provider = .stripe ∧ intent.status = .requiresAction then pure true
    else do
      match ← stepRun DEFAULT_RETRIES (queryProvider rt event intent) with
      | none => pure true
      | some newStatus => updatePolled intent newStatus

def pollRound (rt : Runtime) (event : PollStatus) (started : Nat) : Job Bool := do
  match ← stepRun DEFAULT_RETRIES (selectOnce (·.paymentIntent event.intentId)) with
  | none => pure false
  | some intent =>
      if intent.status ∈ PaymentIntentStatus.TERMINAL then pure false else pollOpen rt event started intent

/-- The loop of the poller, up to a number of rounds. -/
def pollRounds (rt : Runtime) (event : PollStatus) (started : Nat) : Nat → Job Unit
  | 0 => pure ()
  | rounds + 1 => do
      let goesOn ← pollRound rt event started
      if goesOn then pollRounds rt event started rounds else pure ()

def paymentPoller (rt : Runtime) (event : PollStatus) (rounds : Nat) : Job Unit := do
  let started ← @Transaction.Job.query Backend .now
  pollRounds rt event started rounds

end CorpoPay.Settlement
