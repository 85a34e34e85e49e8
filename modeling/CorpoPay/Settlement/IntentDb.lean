import CorpoPay.Settlement.Registry
import CorpoPay.Settlement.SettlementDb

/-!
# Payment intents (`settlement.ts`, `intent-actions.ts`)

The rows of an intent, and the settlement of what it charges.
-/

namespace CorpoPay.Settlement

def PaymentIntentStatus.TERMINAL : List PaymentIntentStatus := [.succeeded, .failed, .canceled, .refunded]

/-! ## Rows -/

/-- `findUnique({ where: { id } })` -/
def Db.paymentIntent (db : Db) (id : Id) : Option PaymentIntent := db.paymentIntents.find? (·.id = id)

def Db.paymentLink (db : Db) (id : Id) : Option PaymentLink := db.paymentLinks.find? (·.id = id)

structure IntentWithLink extends PaymentIntent where
  paymentLink : Option PaymentLink
  deriving Repr

/-- `include: { paymentLink: … }` -/
def Db.withLink (db : Db) (intent : PaymentIntent) : IntentWithLink :=
  { toPaymentIntent := intent, paymentLink := intent.paymentLinkId.bind db.paymentLink }

/-- Update a `PaymentIntent` row by id and return it. -/
def PaymentIntent.update (id : Id) (f : PaymentIntent → PaymentIntent) : Tx PaymentIntent := do
  Backend.lock (.paymentIntent id)
  let row ← select (·.paymentIntent id)
  match row with
  | none => Backend.fail (.prismaError "P2025")
  | some row => do
      change fun db => { db with paymentIntents := db.paymentIntents.map fun r => if r.id = id then f r else r }
      pure (f row)

def PaymentIntent.setStatus (id : Id) (status : PaymentIntentStatus) : Tx PaymentIntent :=
  PaymentIntent.update id fun r => { r with status }

/-- Update a `PaymentLink` row by id. -/
def PaymentLink.setStatus (id : Id) (status : PaymentLinkStatus) : Tx Unit := do
  Backend.lock (.paymentLink id)
  let row ← select (·.paymentLink id)
  match row with
  | none => Backend.fail (.prismaError "P2025")
  | some _ =>
      change fun db => { db with paymentLinks := db.paymentLinks.map fun r => if r.id = id then { r with status } else r }

/-- The first intent that a query with one condition returns. -/
def Db.firstIntent (db : Db) (provider : Provider) (selects : PaymentIntent → Bool) : Option PaymentIntent :=
  db.paymentIntents.find? fun r => r.provider = provider && selects r

/-- The value of a text column. -/
def textColumn : Json → Except Failure String
  | .str s => .ok s
  | _ => .error (.error "Invalid value provided. Expected String")

/-- Insert a `ProviderTransaction` row. -/
def ProviderTransaction.create (row : Id → ProviderTransaction) : Tx ProviderTransaction := do
  let id ← freshId
  let taken ← select (·.providerTransactions.any (·.id = id))
  if taken then Backend.fail (.prismaError "P2002")
  else do
    change fun db => { db with providerTransactions := db.providerTransactions ++ [row id] }
    pure (row id)

/-- Update a `ProviderTransaction` row by id. -/
def ProviderTransaction.update (id : Id) (f : ProviderTransaction → ProviderTransaction) : Tx Unit := do
  Backend.lock (.providerTransaction id)
  let row ← select (·.providerTransactions.find? (·.id = id))
  match row with
  | none => Backend.fail (.prismaError "P2025")
  | some _ =>
      change fun db =>
        { db with providerTransactions := db.providerTransactions.map fun r => if r.id = id then f r else r }

/-- Insert a `WebhookEvent` row: its id and its idempotency key are unique. -/
def WebhookEvent.create (idempotencyKey : String) (row : Id → WebhookEvent) : Tx WebhookEvent := do
  let id ← freshId
  Backend.lock (.webhookEventKey idempotencyKey)
  let taken ← select (·.webhookEvents.any fun r => r.id = id ∨ r.idempotencyKey = some idempotencyKey)
  if taken then Backend.fail (.prismaError "P2002")
  else do
    change fun db => { db with webhookEvents := db.webhookEvents ++ [row id] }
    pure (row id)

/-! ## Queries with values of a payload -/

/-- Rows whose correlation id a value selects. -/
def Runtime.byCorrelationId (rt : Runtime) (value : Json) : Except Failure (PaymentIntent → Bool) :=
  (rt.stringFilter value).map fun selects r => selects r.correlationId

/-- Rows whose provider reference a value selects. -/
def Runtime.byProviderRef (rt : Runtime) (value : Json) : Except Failure (PaymentIntent → Bool) :=
  (rt.nullableStringFilter value).map fun selects r => selects r.providerRef

/-- `if (value) findFirst({ where: { [column]: value, provider } })` -/
def findIntent (provider : Provider) (value : Option Json) (selects : Json → Except Failure (PaymentIntent → Bool)) :
    Job (Option PaymentIntent) :=
  match value.filter (·.truthy) with
  | none => pure none
  | some value => do
      let selected ← @Transaction.Job.ofExcept Backend _ (selects value)
      selectOnce (·.firstIntent provider selected)

/-- `metadata: { path: ["reference"], equals: value }` -/
def PaymentIntent.hasReference (rt : Runtime) (value : Json) (r : PaymentIntent) : Bool :=
  match r.metadata with
  | some (.obj fields) => fields.any fun field => field.1 = "reference" ∧ rt.jsonEquals field.2 value
  | _ => false

/-- `findFirst({ where: { provider, metadata: { path: ["reference"], equals: value } }, orderBy: { createdAt: "desc" } })` -/
def Db.newestIntent (db : Db) (rt : Runtime) (provider : Provider) (value : Json) : Option PaymentIntent :=
  ((db.paymentIntents.filter fun r => r.provider = provider && r.hasReference rt value).insertionSort
    fun a b => b.createdAt ≤ a.createdAt).head?

/-- The value of the status column. -/
def statusColumn (value : Json) : Except Failure PaymentIntentStatus :=
  match PaymentIntentStatus.ofJson value with
  | some status => .ok status
  | none => .error (.error "Invalid value for argument status")

/-! ## Steps -/

/-- `step.run(…)` of a durable function: a step that throws is run again. -/
def stepRun {α : Type} (retries : Nat) (j : Job α) : Job α := j.retry retries

/-! ## The charge -/

/-- What an intent charges: no amount stands for `NaN`. -/
structure Charge where
  amountCents : Option Int
  currency : Json
  deriving Repr

/-- `(metadata ?? {})[key] ?? fallback` -/
def PaymentIntent.metadataOr (intent : PaymentIntent) (key : String) (fallback : Json) : Json :=
  match intent.metadata with
  | none | some .null => fallback
  | some metadata =>
      match metadata.coalesce [key] with
      | .ok (some value) => value
      | _ => fallback

/-- The amount of the payment link, or the one of the metadata, which is in centimes already. -/
def resolveIntentCharge (rt : Runtime) (intent : IntentWithLink) : Charge :=
  match intent.paymentLink with
  | some link => { amountCents := some link.amount, currency := .str link.currency.code }
  | none =>
      { amountCents := rt.toNumber (intent.metadataOr "amount" (.num 0)),
        currency := intent.metadataOr "currency" (.str Currency.mad.code) }

def Currency.ofJson (value : Json) : Option Currency := SUPPORTED_CURRENCIES.find? fun c => value.isStr c.code

theorem Currency.ofJson_code (c : Currency) : ofJson (.str c.code) = some c := by cases c <;> rfl

/-- No column takes the amounts: only the check for an earlier settlement is passed. -/
def refuseSettlement (tenantId intentId : Id) : Job Bool :=
  transaction do
    let alreadySettled ← select (·.ledgerEntries.any (·.toMovement.isCaptureOf tenantId intentId))
    if alreadySettled then pure false else Backend.fail (.error "Invalid value for argument amount")

/-- `settleCapture(tenantId, { intentId, amountCents, currency })` -/
def settleCharge (tenantId intentId : Id) (charge : Charge) : Job Bool :=
  match charge.amountCents, Currency.ofJson charge.currency with
  | some amountCents, some currency =>
      settleCapture tenantId { intentId, amountCents, currency := some currency, method := none }
  | some amountCents, none => if amountCents ≤ 0 then pure false else refuseSettlement tenantId intentId
  | none, _ => refuseSettlement tenantId intentId

end CorpoPay.Settlement
