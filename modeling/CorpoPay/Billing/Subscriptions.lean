import CorpoPay.Billing.Dunning

/-!
# Subscriptions (`billing.ts`, `routes/subscriptions.ts`, `billingDailySweep.inngest.ts`, `billingRenewal.inngest.ts`,
`subscriptionActivated.inngest.ts`)

The notifications of the customer are left out, they write a line to the console. The events that ask a run to stop are
left out too: no job takes them, and a failure to send one is ignored.
-/

namespace CorpoPay.Billing

open Settlement (BillingInterval Db Failure Id Subscription SubscriptionStatus)
open Data (DAY_MS)

/-! ## Dates -/

def computeNextBillingDate (date : Nat) (intervalType : BillingInterval) (intervalValue : Nat) : Nat :=
  match intervalType with
  | .daily => Data.addDays date intervalValue
  | .weekly => Data.addDays date (intervalValue * 7)
  | .monthly => Data.addMonths date intervalValue
  | .quarterly => Data.addMonths date (intervalValue * 3)
  | .annual => Data.addYears date intervalValue
  | .custom => Data.addDays date intervalValue

/-- `{subscriptionId}-{YYYY-MM-DD}` -/
def billingIdempotencyKey (subscriptionId : String) (date : Nat) : String := subscriptionId ++ "-" ++ Data.isoDay date

/-- The texts of the charge of a period. -/
def periodKey (subscriptionId : String) (date : Nat) : ChargeKey :=
  { chargeId := "renewal-" ++ billingIdempotencyKey subscriptionId date
    idempotencyId := billingIdempotencyKey subscriptionId date
    dueDate := date }

/-- The renewal of a subscription at a date. -/
def renewalOf (sub : Subscription) (date : Nat) : RenewalDue :=
  { subscriptionId := sub.id, tenantId := sub.tenantId, amount := sub.amount, currency := sub.currency,
    intervalType := sub.intervalType, intervalValue := sub.intervalValue, key := periodKey sub.id date }

/-! ## `billing-daily-sweep` -/

/-- The subscriptions to renew. -/
def dueSubscriptions (db : Db) (now : Nat) : List Subscription :=
  db.subscriptions.filter fun r =>
    (r.status = .active || r.status = .pastDue) && r.nextBillingDate.any (· ≤ now)

def findDueSubscriptions : Job (List Subscription) := do
  let now ← now
  selectOnce (dueSubscriptions · now)

def dispatchRenewals (due : List Subscription) : Job Nat := do
  let now ← now
  send (due.map fun sub => .renewalDue (renewalOf sub (sub.nextBillingDate.getD now)))
  pure due.length

def billingDailySweep : Job Nat := do
  let due ← stepRun DEFAULT_RETRIES findDueSubscriptions
  if due.isEmpty then pure 0 else stepRun DEFAULT_RETRIES (dispatchRenewals due)

/-! ## `billing/renewal.due` -/

inductive RenewalResult
  | advanced (nextBillingDate : Nat)
  | cancelled
  deriving DecidableEq, Repr

/-- Advance the billing cycle after a successful charge. -/
def advanceBillingCycle (data : RenewalDue) : Job RenewalResult := do
  let now ← now
  let nextBilling := computeNextBillingDate now data.intervalType data.intervalValue
  let _ ← transaction (updateSubscription data.subscriptionId fun r =>
    { r with
      status := .active
      retryCount := 0
      currentPeriodStart := some now
      currentPeriodEnd := some nextBilling
      nextBillingDate := some nextBilling })
  send [.renewalDue { data with key := periodKey data.subscriptionId nextBilling }]
  pure (.advanced nextBilling)

/-- Step `mark-past-due`, after the first attempt only. -/
def markPastDue (data : RenewalDue) (attempt : Nat) : Job Unit :=
  if attempt = 1 then do
    let _ ← transaction (updateSubscription data.subscriptionId fun r => { r with status := .pastDue, retryCount := 1 })
    pure ()
  else pure ()

/-- Step `cancel-subscription`. -/
def cancelExhausted (data : RenewalDue) : Job RenewalResult := do
  let _ ← transaction (updateSubscription data.subscriptionId fun r =>
    { r with status := .cancelled, inngestRunId := none })
  pure .cancelled

/-- The status is checked again before a retry. -/
def stopsRenewal (data : RenewalDue) (nextAttempt : Nat) : Job (Option String) := do
  match ← selectOnce (·.subscription data.subscriptionId) with
  | none => pure none
  | some sub =>
      if sub.status = .cancelled ∨ sub.status = .paused then
        pure (some ("Subscription " ++ sub.status.code ++ " before retry " ++ toString nextAttempt))
      else pure none

def renewalLadder (rt : Runtime) (data : RenewalDue) : DunningLadder RenewalResult where
  maxAttempts := 4
  delays := [1, 2, 4]
  attempt := chargeSubscription rt data
  shouldStop := stopsRenewal data
  onSuccess _ := advanceBillingCycle data
  onFailure := markPastDue data
  onExhausted := cancelExhausted data

def billingRenewal (rt : Runtime) (data : RenewalDue) : Job (LadderResult RenewalResult) := do
  let runId ← Backend.ask .runId
  match ← selectOnce (·.subscription data.subscriptionId) with
  | none => Backend.throw notFound
  | some sub =>
      if sub.status = .cancelled ∨ sub.status = .expired ∨ sub.status = .paused then
        pure (.skipped ("Subscription is " ++ sub.status.code))
      else do
        let _ ← transaction (updateSubscription data.subscriptionId fun r => { r with inngestRunId := some runId })
        runDunningLadder (renewalLadder rt data)

/-! ## `billing/subscription.activated` -/

/-- Step `activate-subscription`. -/
def activateSubscription (data : SubscriptionActivated) : Job Subscription := do
  let now ← now
  let nextBilling := computeNextBillingDate now data.intervalType data.intervalValue
  transaction (updateSubscription data.subscriptionId fun r =>
    { r with
      status := .active
      currentPeriodStart := some now
      currentPeriodEnd := some nextBilling
      nextBillingDate := some nextBilling })

/-- Step `trigger-first-renewal`. -/
def triggerFirstRenewal (data : SubscriptionActivated) (sub : Subscription) : Job Unit := do
  let now ← now
  let date := sub.nextBillingDate.getD now
  stepRun DEFAULT_RETRIES (send [.renewalDue
    { subscriptionId := data.subscriptionId, tenantId := data.tenantId, amount := data.amount, currency := data.currency,
      intervalType := data.intervalType, intervalValue := data.intervalValue, key := periodKey data.subscriptionId date }])

def onSubscriptionCreated (data : SubscriptionActivated) : Job Unit := do
  let sub ← stepRun DEFAULT_RETRIES (activateSubscription data)
  match data.trialDays with
  | none | some 0 => triggerFirstRenewal data sub
  | some trialDays => do
      sleep (trialDays * DAY_MS)
      triggerFirstRenewal data sub

/-! ## Routes -/

def subscriptionNotFound : Failure := .appError 404 "SUBSCRIPTION_NOT_FOUND" "Subscription not found"

def invalidState (verb : String) (status : SubscriptionStatus) : Failure :=
  .appError 400 "INVALID_STATE" ("Cannot " ++ verb ++ " a subscription in " ++ status.code ++ " state")

/-- `forTenant(tenantId).subscription.findFirst({ where: { id } })` -/
def findSubscription (tenantId : Id) (id : String) : Job Subscription := do
  match ← selectOnce fun db => db.subscriptions.find? fun r => r.id = id ∧ r.tenantId = tenantId with
  | none => Backend.throw subscriptionNotFound
  | some sub => pure sub

/-- `POST /subscriptions/:id/pause` -/
def pauseSubscription (tenantId : Id) (id : String) : Job SubscriptionStatus := do
  let sub ← findSubscription tenantId id
  if sub.status ≠ .active ∧ sub.status ≠ .pastDue then Backend.throw (invalidState "pause" sub.status)
  else do
    let updated ← transaction (updateSubscription sub.id fun r => { r with status := .paused, inngestRunId := none })
    pure updated.status

/-- `POST /subscriptions/:id/resume` -/
def resumeSubscription (tenantId : Id) (id : String) : Job SubscriptionStatus := do
  let sub ← findSubscription tenantId id
  if sub.status ≠ .paused then Backend.throw (invalidState "resume" sub.status)
  else do
    let now ← now
    let dueDate := max (sub.nextBillingDate.getD now) now
    let _ ← transaction (updateSubscription sub.id fun r => { r with status := .active })
    send [.renewalDue (renewalOf sub dueDate)]
    pure .active

/-- `DELETE /subscriptions/:id` -/
def deleteSubscription (tenantId : Id) (id : String) : Job SubscriptionStatus := do
  let sub ← findSubscription tenantId id
  if sub.status = .cancelled then Backend.throw (.appError 400 "ALREADY_CANCELLED" "Subscription is already cancelled")
  else do
    let updated ← transaction (updateSubscription sub.id fun r => { r with status := .cancelled, inngestRunId := none })
    pure updated.status

/-! ## What happens to subscriptions -/

/-- The sweep, the jobs that the queue starts, and the requests of merchants. -/
inductive SubscriptionRequest
  | sweep
  | renewal (data : RenewalDue)
  | activated (data : SubscriptionActivated)
  | pause (tenantId : Id) (id : String)
  | resume (tenantId : Id) (id : String)
  | delete (tenantId : Id) (id : String)
  deriving DecidableEq, Repr

/-- A job that the queue starts for an event, if it delivers it. -/
def onEvent {α : Type} (event : Event) (job : Job α) : Job Unit := do
  if ← Backend.ask (.deliver event) then do
    let _ ← job
    pure ()
  else pure ()

def discard {α : Type} (j : Job α) : Job Unit := do
  let _ ← j
  pure ()

def SubscriptionRequest.job (rt : Runtime) : SubscriptionRequest → Job Unit
  | .sweep => discard billingDailySweep
  | .renewal data => onEvent (.renewalDue data) (billingRenewal rt data)
  | .activated data => onEvent (.subscriptionActivated data) (onSubscriptionCreated data)
  | .pause tenantId id => discard (pauseSubscription tenantId id)
  | .resume tenantId id => discard (resumeSubscription tenantId id)
  | .delete tenantId id => discard (deleteSubscription tenantId id)

/-! ## A subscription -/

/-- A runtime where every profile is stored as it is. -/
def billingRuntime : Runtime where
  demoMode := false
  decryptCredentials _ := .ok .null
  newStripe _ := .ok ()
  constructEvent _ _ _ := false
  hmacSha256 _ _ := .error (.error "no key")
  sha256 _ := ""
  parseJson _ := .error (.error "no body")
  toUpperCase s := s
  toLowerCase s := s
  stringFilter _ := .ok fun _ => false
  nullableStringFilter _ := .ok fun _ => false
  jsonEquals _ _ := false
  toNumber _ := none
  arithmetic := .correct
  decrypt s := .ok s

/-- The 1st of March 2024. -/
def dueDay : Nat := Data.dayOfCivil ⟨2024, 3, 1⟩ * DAY_MS

/-- 100.00 a month, due on `dueDay`. -/
def monthly : Subscription :=
  { id := "s", tenantId := 1, customerId := "c", encryptedStoredProfileId := "profile", initialPaymentIntentId := 1,
    inngestRunId := none, status := .active, amount := 10000, currency := .mad, intervalType := .monthly,
    intervalValue := 1, nextBillingDate := some dueDay, currentPeriodStart := none, currentPeriodEnd := some dueDay,
    retryCount := 0 }

def monthlyDb : Db :=
  { Db.empty {
      tenants := [{ id := 1, settlementCurrency := .mad, taxRateBps := 0, taxExempt := false }]
      feeSchedules := [], settlementPolicies := [], splitParties := [], splitRules := [], financeConfigs := []
      providerConfigs := [⟨1, .vps, "key", .connected⟩] } with
    subscriptions := [monthly] }

def monthlyRenewal : RenewalDue := renewalOf monthly dueDay

/-- The first of the days, with an outside world where the queue is always there and delivers once. The time that passes
and the fate of a charge go by the number of the answer. -/
def World.start (tick : Nat → Nat) (succeeds : Nat → Bool) (pending : List Event) : World where
  clock := dueDay
  answered := 0
  oracle :=
    { tick, cuid := fun k => "id" ++ toString k, runId := id, sendError := fun _ => none, redelivers := fun _ => false
      chargeRenewal := fun k _ =>
        .ok { success := succeeds k, providerTransactionId := some "v", message := none } }
  pending := pending
  accepted := []
  submissions := []

end CorpoPay.Billing
