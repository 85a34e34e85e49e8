import CorpoPay.Notify.WebhookSign
import CorpoPay.Settlement.Registry
import CorpoPay.Transaction.Pool

/-!
# Notifications of merchants (`jobs/notifications.inngest.ts`, `routes/tenant.ts`)

The job posts a payment to the URL of its tenant, signed with the secret of the tenant. The owner of the tenant sets the URL,
and has the secret made or replaced. What reads the other columns of a tenant is left out.
-/

namespace CorpoPay.Notify

open Settlement (Json)
open Transaction.Job (ofExcept)

structure Tenant where
  id : String
  notifyWebhookUrl : Option String
  /-- Encrypted. -/
  webhookSigningSecret : Option String
  deriving DecidableEq, Repr

structure PaymentLink where
  reference : Option String
  amount : Rat
  currency : String
  deriving DecidableEq, Repr

structure PaymentIntent where
  id : String
  metadata : Option Json
  paymentLink : Option PaymentLink
  deriving Repr

structure Db where
  tenants : List Tenant
  paymentIntents : List PaymentIntent
  deriving Repr

/-! ## The outside world -/

structure Post where
  url : String
  headers : List (String × String)
  body : String
  deriving DecidableEq, Repr

structure NotificationContext where
  messageBody : String
  tenantId : String
  intentId : String
  status : String
  deriving DecidableEq, Repr

inductive Query
  | now
  /-- `crypto.randomBytes(32)`, for the secret of a tenant. -/
  | secretBytes (tenantId : String)
  | randomIv
  /-- The status of the response, or the message of an error. -/
  | post (post : Post)
  /-- The id of the message, where a publisher has one. -/
  | publish (ctx : NotificationContext)
  deriving Repr

abbrev Answer : Query → Type
  | .now => Nat
  | .secretBytes _ => Buffer
  | .randomIv => Buffer
  | .post _ => Except String Nat
  | .publish _ => Except Failure (Option String)

structure Oracle where
  tick : Nat → Nat
  secretBytes : Nat → String → Buffer
  randomIv : Nat → Buffer
  post : Nat → Post → Except String Nat
  publish : Nat → NotificationContext → Except Failure (Option String)

structure World where
  clock : Nat
  answered : Nat
  oracle : Oracle
  sent : List Post

namespace World

def answer (w : World) : (q : Query) → Answer q
  | .now => w.clock
  | .secretBytes tenantId => w.oracle.secretBytes w.answered tenantId
  | .randomIv => w.oracle.randomIv w.answered
  | .post post => w.oracle.post w.answered post
  | .publish ctx => w.oracle.publish w.answered ctx

def effect (w : World) : Query → World
  | .now | .secretBytes _ | .randomIv | .publish _ => w
  | .post post => { w with sent := w.sent ++ [post] }

/-- Time passes with every answer. -/
def pass (w : World) : World := { w with clock := w.clock + w.oracle.tick w.answered, answered := w.answered + 1 }

def reply (w : World) (q : Query) : Answer q × World := (w.answer q, (w.effect q).pass)

end World

inductive DbLock
  | tenant (id : String)
  deriving DecidableEq, Repr

abbrev Backend : Transaction.Interface where
  Store := Db
  Lock := DbLock
  World := World
  Query := Query
  Answer := Answer
  reply := World.reply
  Err := Failure
  aborted := .aborted

abbrev Tx := Transaction.Tx Backend

abbrev Job := Transaction.Job Backend

export Transaction (select change transaction selectOnce)

namespace Db

def tenant (db : Db) (id : String) : Option Tenant := db.tenants.find? (·.id = id)

def paymentIntent (db : Db) (id : String) : Option PaymentIntent := db.paymentIntents.find? (·.id = id)

def setTenant (id : String) (f : Tenant → Tenant) (db : Db) : Db :=
  { db with tenants := db.tenants.map fun r => if r.id = id then f r else r }

end Db

/-- `prisma.tenant.update(…)` returns the row. -/
def updateTenant (id : String) (f : Tenant → Tenant) : Tx Tenant := do
  Backend.lock (.tenant id)
  match ← select (·.tenant id) with
  | none => Backend.fail (.prismaError "P2025")
  | some tenant => do
      change (·.setTenant id f)
      pure (f tenant)

/-- What the jobs call besides. -/
structure JobRuntime extends Runtime where
  stringify : Json → String
  isoString : Nat → String

/-- What `if (text)` tests. -/
def present : Option String → Option String
  | some "" => none
  | text => text

/-! ## The tenant (`PATCH /tenant`) -/

/-- The outer option is `undefined`. -/
structure UpdateTenant where
  notifyWebhookUrl : Option (Option String)
  rotateWebhookSigningSecret : Option Bool
  deriving DecidableEq, Repr

inductive Response
  | tenant (hasWebhookSigningSecret : Bool) (webhookSigningSecret : Option String)
  | skipped (reason : String)
  | published (messageId : String)
  | notified
  deriving DecidableEq, Repr

def generateWebhookSecret (tenantId : String) : Job String := do
  let bytes ← Backend.ask (.secretBytes tenantId)
  pure (String.ofList (hexText bytes))

/-- A new secret is made when it is asked for, and when a tenant without one sets a URL. -/
def newSecret (tenantId : String) (data : UpdateTenant) : Job (Option String) :=
  if data.rotateWebhookSigningSecret = some true then do
    let secret ← generateWebhookSecret tenantId
    pure (some secret)
  else
    match present data.notifyWebhookUrl.join with
    | none => pure none
    | some _ => do
        let existing ← selectOnce (·.tenant tenantId)
        match present (existing.bind (·.webhookSigningSecret)) with
        | some _ => pure none
        | none => do
            let secret ← generateWebhookSecret tenantId
            pure (some secret)

def encryptSecret (rt : Runtime) : Option String → Job (Option String)
  | none => pure none
  | some secret => do
      let iv ← Backend.ask .randomIv
      let encrypted ← @ofExcept Backend _ (encrypt rt iv secret)
      pure (some encrypted)

def Tenant.update (data : UpdateTenant) (encrypted : Option String) (tenant : Tenant) : Tenant :=
  { tenant with
    notifyWebhookUrl := data.notifyWebhookUrl.getD tenant.notifyWebhookUrl
    webhookSigningSecret := encrypted.or tenant.webhookSigningSecret }

def patchTenant (rt : JobRuntime) (tenantId : String) (data : UpdateTenant) : Job Response := do
  let secret ← newSecret tenantId data
  let encrypted ← encryptSecret rt.toRuntime secret
  let tenant ← transaction (updateTenant tenantId (·.update data encrypted))
  pure (.tenant ((present tenant.webhookSigningSecret).isSome || secret.isSome) secret)

/-! ## The job (`payment/notify`) -/

structure PaymentNotify where
  intentId : String
  tenantId : String
  status : String
  deriving DecidableEq, Repr

/-- `intentMeta[key] ?? null` -/
def metaField (intentMeta : Json) (key : String) : Json :=
  match intentMeta with
  | .obj fields => ((fields.find? (·.1 = key)).map (·.2)).getD .null
  | _ => .null

def messageBody (rt : JobRuntime) (event : PaymentNotify) (intent : PaymentIntent) (now : Nat) : String :=
  let intentMeta : Json := match intent.metadata with
    | none | some .null => .obj []
    | some metadata => metadata
  let payload : List (String × Json) := match intent.paymentLink with
    | some link =>
        [("reference", (link.reference.map .str).getD .null), ("amount", .num link.amount), ("currency", .str link.currency)]
    | none =>
        [("reference", .null), ("amount", metaField intentMeta "amount"), ("currency", metaField intentMeta "currency"),
          ("metadata", intentMeta)]
  rt.stringify (.obj ([("event", .str "payment.updated"), ("status", .str event.status), ("intentId", .str event.intentId)] ++
    payload ++ [("occurredAt", .str (rt.isoString now))]))

/-- The headers of a post. A tenant without a secret is not signed for. -/
def postHeaders (rt : JobRuntime) (event : PaymentNotify) (tenant : Tenant) (body : String) : Job (List (String × String)) := do
  let headers := [("Content-Type", "application/json"), ("X-CorpoPay-Webhook-Id", event.intentId ++ ":" ++ event.status)]
  match present tenant.webhookSigningSecret with
  | none => pure headers
  | some webhookSigningSecret => do
      let signingSecret ← @ofExcept Backend _ (decrypt rt.toRuntime webhookSigningSecret)
      let now ← Backend.ask .now
      let (signature, timestamp) := buildWebhookSignatureHeader rt.toRuntime now signingSecret body
      pure (headers ++ [("X-CorpoPay-Signature", String.ofList signature),
        ("X-CorpoPay-Timestamp", numberText rt.toRuntime timestamp)])

def deliver (post : Post) : Job Unit := do
  match ← Backend.ask (.post post) with
  | .error message => Backend.throw (.retryAfter ("outbound webhook failed: " ++ message))
  | .ok status =>
      if 200 ≤ status ∧ status < 300 then pure () else Backend.throw (.retryAfter ("outbound webhook returned HTTP " ++ toString status))

def publishNotification (ctx : NotificationContext) : Job Response := do
  let result ← Backend.ask (.publish ctx)
  let messageId ← @ofExcept Backend _ result
  match present messageId with
  | some messageId => pure (.published messageId)
  | none => pure .notified

def notifications (rt : JobRuntime) (event : PaymentNotify) : Job Response := do
  match ← selectOnce (·.paymentIntent event.intentId) with
  | none => pure (.skipped "intent-not-found")
  | some intent =>
      match ← selectOnce (·.tenant event.tenantId) with
      | none => pure (.skipped "tenant-not-found")
      | some tenant => do
          let now ← Backend.ask .now
          let body := messageBody rt event intent now
          match present tenant.notifyWebhookUrl with
          | none => pure (.skipped "no-notify-url")
          | some url => do
              let headers ← postHeaders rt event tenant body
              deliver { url, headers, body }
              publishNotification
                { messageBody := body, tenantId := event.tenantId, intentId := event.intentId, status := event.status }

/-- `retries: 3` -/
def NOTIFY_RETRIES : Nat := 3

inductive NotifyRequest
  | patchTenant (tenantId : String) (data : UpdateTenant)
  | notify (event : PaymentNotify)
  deriving Repr

def NotifyRequest.job (rt : JobRuntime) : NotifyRequest → Job Response
  | .patchTenant tenantId data => Notify.patchTenant rt tenantId data
  | .notify event => (notifications rt event).retry NOTIFY_RETRIES

end CorpoPay.Notify
