import CorpoPay.Notify.Encryption
import CorpoPay.Settlement.Registry
import CorpoPay.Transaction.Pool

/-!
# Provider configurations (`routes/providerConfig.ts`)

The owner of a tenant stores the credentials of a payment provider, tests them, and turns the provider off and on again. Who
the owner is was settled before. The audit log and the dates of a row are left out: nothing reads them.
-/

namespace CorpoPay.Providers

open Notify (Buffer utf8Bytes)
open Settlement (Json Provider ProviderConfigStatus)
open Transaction.Job (ofExcept)

inductive Environment
  | sandbox
  | production
  deriving DecidableEq, Repr

structure ProviderConfig where
  id : String
  tenantId : String
  provider : Provider
  encryptedCredentials : String
  status : ProviderConfigStatus
  environment : Environment
  deriving DecidableEq, Repr

structure Db where
  providerConfigs : List ProviderConfig
  deriving DecidableEq, Repr

/-! ## The outside world -/

structure TestConnectionResult where
  connected : Bool
  error : Option String
  deriving DecidableEq, Repr

inductive Failure
  | validationError (paths : List String)
  | appError (statusCode : Nat) (code message : String)
  | crypto (e : Notify.Failure)
  | adapter (e : Settlement.Failure)
  | error (message : String)
  | prismaError (code : String)
  | aborted
  deriving DecidableEq, Repr

inductive Query
  | cuid
  | randomIv
  /-- By the adapter of the provider with the credentials. -/
  | testConnection (provider : Provider) (encryptedCredentials : String)
  deriving Repr

abbrev Answer : Query → Type
  | .cuid => String
  | .randomIv => Buffer
  | .testConnection _ _ => Except Failure TestConnectionResult

structure Oracle where
  cuid : Nat → String
  randomIv : Nat → Buffer
  testConnection : Nat → Provider → String → Except Failure TestConnectionResult

structure World where
  answered : Nat
  oracle : Oracle
  /-- The credentials that passed a test. -/
  passed : List (Provider × String)

namespace World

def answer (w : World) : (q : Query) → Answer q
  | .cuid => w.oracle.cuid w.answered
  | .randomIv => w.oracle.randomIv w.answered
  | .testConnection provider encryptedCredentials => w.oracle.testConnection w.answered provider encryptedCredentials

def passes : Except Failure TestConnectionResult → Bool
  | .ok result => result.connected
  | .error _ => false

def effect (w : World) : Query → World
  | .cuid | .randomIv => w
  | .testConnection provider encryptedCredentials =>
      if passes (w.oracle.testConnection w.answered provider encryptedCredentials) then
        { w with passed := w.passed ++ [(provider, encryptedCredentials)] }
      else w

def reply (w : World) (q : Query) : Answer q × World := (w.answer q, { w.effect q with answered := w.answered + 1 })

end World

inductive DbLock
  | providerConfig (id : String)
  /-- The entry of the unique index. -/
  | entry (tenantId : String) (provider : Provider)
  deriving DecidableEq, Repr

abbrev Backend : Transaction.Interface where
  Store := Db
  Lock := DbLock
  World := World
  Query := Query
  Answer := Answer
  reply := World.reply
  Err := Failure
  aborted := .aborted

abbrev Tx := Transaction.Tx Backend

abbrev Job := Transaction.Job Backend

export Transaction (select change transaction selectOnce)

/-! ## Rows -/

namespace Db

/-- `findFirst({ where: { id } })` of the tenant. -/
def providerConfig (db : Db) (tenantId id : String) : Option ProviderConfig :=
  db.providerConfigs.find? fun r => r.id = id ∧ r.tenantId = tenantId

/-- `findUnique({ where: { tenantId_provider } })` -/
def ofProvider (db : Db) (tenantId : String) (provider : Provider) : Option ProviderConfig :=
  db.providerConfigs.find? fun r => r.tenantId = tenantId ∧ r.provider = provider

def hasId (db : Db) (id : String) : Bool := db.providerConfigs.any (·.id = id)

def insert (row : ProviderConfig) (db : Db) : Db := { db with providerConfigs := db.providerConfigs ++ [row] }

def update (id : String) (f : ProviderConfig → ProviderConfig) (db : Db) : Db :=
  { db with providerConfigs := db.providerConfigs.map fun r => if r.id = id then f r else r }

def delete (id : String) (db : Db) : Db := { db with providerConfigs := db.providerConfigs.filter (·.id ≠ id) }

end Db

/-- A row that is deleted while the upsert waits for it is inserted again. -/
def upsert (tenantId : String) (provider : Provider) (create : String → ProviderConfig)
    (update : ProviderConfig → ProviderConfig) : Tx ProviderConfig := do
  let id ← @Transaction.Tx.query Backend .cuid
  Backend.lock (.entry tenantId provider)
  match ← select (·.ofProvider tenantId provider) with
  | none => insert id
  | some row => do
      Backend.lock (.providerConfig row.id)
      match ← select (·.providerConfig tenantId row.id) with
      | none => insert id
      | some row => do
          change (·.update row.id update)
          pure (update row)
where
  insert (id : String) : Tx ProviderConfig := do
    if ← select (·.hasId id) then Backend.fail (.prismaError "P2002")
    else do
      change (·.insert (create id))
      pure (create id)

def setStatus (id : String) (status : ProviderConfigStatus) : Tx Unit := do
  Backend.lock (.providerConfig id)
  if ← select (·.hasId id) then change (·.update id fun r => { r with status }) else Backend.fail (.prismaError "P2025")

def deleteConfig (id : String) : Tx Unit := do
  Backend.lock (.providerConfig id)
  if ← select (·.hasId id) then change (·.delete id) else Backend.fail (.prismaError "P2025")

/-! ## Schemas (`schemas/provider-config.ts`) -/

inductive FieldType
  /-- `z.string().min(1)` -/
  | nonEmpty
  | string
  | url
  | boolean
  deriving DecidableEq, Repr

structure SchemaField where
  name : String
  type : FieldType
  isOptional : Bool := false
  deriving DecidableEq, Repr

def napsCredentialsSchema : List SchemaField :=
  [{ name := "merchantId", type := .nonEmpty }, { name := "terminalId", type := .nonEmpty },
    { name := "secretKey", type := .nonEmpty }, { name := "baseUrl", type := .url }]

def vpsCredentialsSchema : List SchemaField :=
  [{ name := "merchantAccount", type := .nonEmpty }, { name := "paywallSecretKey", type := .nonEmpty },
    { name := "paywallUrl", type := .url }, { name := "skin", type := .string, isOptional := true },
    { name := "doFundsAuthOnly", type := .boolean, isOptional := true },
    { name := "mode", type := .string, isOptional := true }, { name := "paymentMethod", type := .string, isOptional := true },
    { name := "showPaymentProfiles", type := .string, isOptional := true }, { name := "apiUrl", type := .url },
    { name := "callerName", type := .nonEmpty }, { name := "callerPassword", type := .nonEmpty },
    { name := "notificationKey", type := .string, isOptional := true },
    { name := "callbackTestMode", type := .boolean, isOptional := true }]

def stripeCredentialsSchema : List SchemaField :=
  [{ name := "secretKey", type := .nonEmpty }, { name := "webhookSecret", type := .nonEmpty },
    { name := "publishableKey", type := .string, isOptional := true }]

def providerConfigStatusSchema : List SchemaField := [{ name := "enabled", type := .boolean }]

abbrev Fields := List (String × Json)

def fieldOf (fields : Fields) (name : String) : Option Json := (fields.find? (·.1 = name)).map (·.2)

def FieldType.accepts (isUrl : String → Bool) : FieldType → Json → Bool
  | .nonEmpty, .str s => s ≠ ""
  | .string, .str _ => true
  | .url, .str s => isUrl s
  | .boolean, .bool _ => true
  | _, _ => false

def SchemaField.accepts (isUrl : String → Bool) (field : SchemaField) (fields : Fields) : Bool :=
  match fieldOf fields field.name with
  | none => field.isOptional
  | some value => field.type.accepts isUrl value

/-- `z.object(…).parse(value)`: what the schema does not name is dropped. -/
def parseObject (isUrl : String → Bool) (schema : List SchemaField) (value : Json) : Except Failure Fields :=
  match value with
  | .obj fields =>
      if schema.all (·.accepts isUrl fields) then
        .ok (schema.filterMap fun field => (fieldOf fields field.name).map (field.name, ·))
      else .error (.validationError ((schema.filter fun field => !field.accepts isUrl fields).map (·.name)))
  | _ => .error (.validationError [""])

def ProviderParamSchema (value : Option Json) : Except Failure Provider :=
  match [Provider.naps, .vps, .stripe].find? fun p => value.any (·.isStr p.code) with
  | some provider => .ok provider
  | none => .error (.validationError [""])

def credentialsSchema : Provider → List SchemaField
  | .naps => napsCredentialsSchema
  | .stripe => stripeCredentialsSchema
  | .vps | .paypal | .adyen => vpsCredentialsSchema

/-! ## Credentials -/

/-- What the routes call besides. -/
structure ConfigRuntime where
  crypto : Notify.Runtime
  adapters : Settlement.Runtime
  stringify : Json → String
  /-- What `z.string().url()` accepts. -/
  isUrl : String → Bool

variable (rt : ConfigRuntime)

def encryptCredentials (iv : Buffer) (credentials : Fields) : Except Failure String :=
  (Notify.encrypt rt.crypto iv (rt.stringify (.obj credentials))).mapError .crypto

def cryptoMessage : Notify.Failure → String
  | .error message | .appError _ _ message | .retryAfter message => message
  | .prismaError code => code
  | .aborted => ""

def decryptCredentials (ciphertext : String) : Except Settlement.Failure Json :=
  match Notify.decrypt rt.crypto ciphertext with
  | .ok plain => rt.adapters.parseJson (utf8Bytes plain)
  | .error e => .error (.error (cryptoMessage e))

/-- The runtime of the adapters, with the ciphers. -/
def ConfigRuntime.registry : Settlement.Runtime := { rt.adapters with decryptCredentials := decryptCredentials rt }

def SENSITIVE : List String :=
  ["secretKey", "apiKey", "password", "token", "paywallSecretKey", "callerPassword", "notificationKey", "webhookSecret"]

def utf16Units (text : String) : List UInt16 :=
  text.toList.flatMap fun c =>
    if c.val < 0x10000 then [c.val.toUInt16]
    else [0xD800 + ((c.val - 0x10000) / 0x400).toUInt16, 0xDC00 + ((c.val - 0x10000) % 0x400).toUInt16]

/-- What is shown of a value: a text by its UTF-16 units. -/
inductive Masked
  | plain (value : Json)
  | text (units : List UInt16)
  deriving Repr

def stars (n : Nat) : List UInt16 := List.replicate n 0x2A

def maskValue : Json → Masked
  | .str v =>
      let units := utf16Units v
      if units.length > 4 then .text (units.take 4 ++ stars (max (units.length - 4) 4)) else .text (stars 4)
  | _ => .text (stars 4)

def maskCredentials (creds : Fields) : List (String × Masked) :=
  creds.map fun (k, v) => (k, if k ∈ SENSITIVE then maskValue v else .plain v)

/-! ## The routes -/

structure ConfigView where
  id : String
  provider : Provider
  status : ProviderConfigStatus
  environment : Environment
  credentials : List (String × Masked)
  deriving Repr

inductive Response
  | configs (views : List ConfigView)
  | saved (id : String) (provider : Provider) (status : ProviderConfigStatus) (warnings : List String)
  | updated (id : String) (provider : Provider) (status : ProviderConfigStatus)
  | tested (connected : Bool) (status : ProviderConfigStatus) (error : Option String)
  | noContent
  deriving Repr

/-- Credentials that cannot be decrypted are shown empty. -/
def viewConfig (c : ProviderConfig) : ConfigView where
  id := c.id
  provider := c.provider
  status := c.status
  environment := c.environment
  credentials := match decryptCredentials rt c.encryptedCredentials with
    | .ok (.obj creds) => maskCredentials creds
    | _ => []

/-- `GET /provider-configs`, and the same for an admin. -/
def listConfigs (tenantId : String) : Job Response := do
  let configs ← selectOnce (·.providerConfigs.filter (·.tenantId = tenantId))
  pure (.configs (configs.map (viewConfig rt)))

def readField (value : Json) (key : String) : Except Failure (Option Json) := (value.get key).mapError .adapter

/-- `value === true` -/
def isTrue : Option Json → Bool
  | some (.bool b) => b
  | _ => false

/-- `value ?? fallback` -/
def orElse (value : Option Json) (fallback : Json) : Json :=
  match value with
  | none | some .null => fallback
  | some value => value

/-- The value of the column, which the database client checks. -/
def environmentColumn (value : Json) : Except Failure Environment :=
  if value.isStr "SANDBOX" then .ok .sandbox
  else if value.isStr "PRODUCTION" then .ok .production
  else .error (.error "Invalid value for argument environment")

/-- A test mode that is left on in production. -/
def isUnsafe (environment : Json) (provider : Provider) (credentials : Fields) : Bool :=
  environment.isStr "PRODUCTION" && provider = .vps && isTrue (fieldOf credentials "callbackTestMode")

def warnings (provider : Provider) (credentials : Fields) : List String :=
  (if provider = .vps ∧ ¬ (fieldOf credentials "notificationKey").any (·.truthy) then
    ["notificationKey is not set: inbound Payzone webhooks will be rejected. Set it to enable payment confirmation callbacks."]
  else []) ++
  if provider = .stripe ∧ ¬ (fieldOf credentials "webhookSecret").any (·.truthy) then
    ["webhookSecret is not set: inbound Stripe webhooks will be rejected. Retrieve it from the Stripe Dashboard → Webhooks."]
  else []

structure SaveInput where
  provider : Provider
  credentials : Fields
  environment : Json

/-- What is read of the body, and checked. -/
def readBody (body : Json) : Except Failure SaveInput := do
  let provider ← ProviderParamSchema (← readField body "provider")
  let rawCredentials := orElse (← readField body "credentials") body
  let credentials ← parseObject rt.isUrl (credentialsSchema provider) rawCredentials
  let environment := orElse (← readField body "environment") (.str "SANDBOX")
  if isUnsafe environment provider credentials then
    .error (.appError 400 "UNSAFE_TEST_CONFIG"
      "callbackTestMode must not be enabled in production — it disables webhook signature verification")
  else pure { provider, credentials, environment }

/-- `POST /provider-configs` -/
def saveConfig (tenantId : String) (body : Json) : Job Response := do
  let input ← @ofExcept Backend _ (readBody rt body)
  let iv ← Backend.ask .randomIv
  let encrypted ← @ofExcept Backend _ (encryptCredentials rt iv input.credentials)
  let existing ← selectOnce (·.ofProvider tenantId input.provider)
  let updateStatus := if existing.any (·.status = .disabled) then ProviderConfigStatus.disabled else .missing
  let environment ← @ofExcept Backend _ (environmentColumn input.environment)
  let config ← transaction (upsert tenantId input.provider
    (fun id =>
      { id, tenantId, provider := input.provider, encryptedCredentials := encrypted, status := .missing, environment })
    fun r => { r with encryptedCredentials := encrypted, environment, status := updateStatus })
  pure (.saved config.id config.provider config.status (warnings input.provider input.credentials))

def findConfig (tenantId id : String) : Job ProviderConfig := do
  match ← selectOnce (·.providerConfig tenantId id) with
  | none => Backend.throw (.appError 404 "CONFIG_NOT_FOUND" "Provider config not found")
  | some config => pure config

def parseEnabled (body : Json) : Except Failure Bool := do
  let data ← parseObject rt.isUrl providerConfigStatusSchema body
  pure (isTrue (fieldOf data "enabled"))

def checkEnabled (enabled : Bool) (config : ProviderConfig) : Except Failure Unit :=
  if enabled ∧ config.status = .missing then
    .error (.appError 409 "CONFIG_NOT_TESTED" "Provider config has not been tested yet. Run the connection test first.")
  else if enabled ∧ config.status = .invalid then
    .error (.appError 409 "CONFIG_INVALID"
      "Provider config failed its last connection test. Fix the credentials and re-test before enabling.")
  else .ok ()

/-- `PATCH /provider-configs/:id/status` -/
def toggleConfig (tenantId id : String) (body : Json) : Job Response := do
  let enabled ← @ofExcept Backend _ (parseEnabled rt body)
  let config ← findConfig tenantId id
  let _ ← @ofExcept Backend _ (checkEnabled enabled config)
  let newStatus := if enabled then ProviderConfigStatus.connected else .disabled
  let _ ← transaction (setStatus config.id newStatus)
  pure (.updated config.id config.provider newStatus)

/-- `POST /provider-configs/:id/test` -/
def testConfig (tenantId id : String) : Job Response := do
  let config ← findConfig tenantId id
  if config.status = .disabled then
    Backend.throw (.appError 409 "CONFIG_DISABLED"
      "Provider config is disabled. Enable it first before running the connection test.")
  else do
    let _ ← @ofExcept Backend _ ((Settlement.getAdapter rt.registry config.provider config.encryptedCredentials).mapError .adapter)
    let answer ← Backend.ask (.testConnection config.provider config.encryptedCredentials)
    let result ← @ofExcept Backend _ answer
    let newStatus := if result.connected then ProviderConfigStatus.connected else .invalid
    let _ ← transaction (setStatus config.id newStatus)
    pure (.tested result.connected newStatus result.error)

/-- `DELETE /provider-configs/:id` -/
def removeConfig (tenantId id : String) : Job Response := do
  let config ← findConfig tenantId id
  let _ ← transaction (deleteConfig config.id)
  pure .noContent

inductive ConfigRequest
  | list (tenantId : String)
  | save (tenantId : String) (body : Json)
  | toggle (tenantId id : String) (body : Json)
  | test (tenantId id : String)
  | remove (tenantId id : String)
  deriving Repr

def ConfigRequest.job : ConfigRequest → Job Response
  | .list tenantId => listConfigs rt tenantId
  | .save tenantId body => saveConfig rt tenantId body
  | .toggle tenantId id body => toggleConfig rt tenantId id body
  | .test tenantId id => testConfig rt tenantId id
  | .remove tenantId id => removeConfig tenantId id

end CorpoPay.Providers
