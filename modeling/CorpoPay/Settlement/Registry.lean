import CorpoPay.Data.Double
import CorpoPay.Settlement.Db

/-!
# Provider adapters (`registry.ts`, `status-maps.ts`, `*.adapter.ts`)

What an adapter answers to a request is a question to the outside world. Here is what it computes on its own. Ciphers,
hashes and the case of letters come from the runtime.
-/

namespace CorpoPay.Settlement

/-! ## JSON values -/

namespace Json

/-- `value[key]`. -/
def get (value : Json) (key : String) : Except Failure (Option Json) :=
  match value with
  | .null => .error (.error ("Cannot read properties of null (reading '" ++ key ++ "')"))
  | .obj fields => .ok ((fields.find? (·.1 = key)).map (·.2))
  | _ => .ok none

/-- The operand of `??` is passed over. -/
def isNull : Json → Bool
  | .null => true
  | _ => false

/-- `value[key₁] ?? value[key₂] ?? …`, where `null` is `undefined` too. -/
def coalesce (value : Json) : List String → Except Failure (Option Json)
  | [] => .ok none
  | key :: keys =>
      match value.get key with
      | .error e => .error e
      | .ok (some v) => if v.isNull then value.coalesce keys else .ok (some v)
      | .ok none => value.coalesce keys

/-- What `if (value)` tests. -/
def truthy : Json → Bool
  | .null => false
  | .bool b => b
  | .num n => n ≠ 0
  | .str s => s ≠ ""
  | .arr _ | .obj _ => true

def isStr (value : Json) (s : String) : Bool :=
  match value with
  | .str s' => s' = s
  | _ => false

end Json

/-! ## The runtime -/

abbrev Buffer := List UInt8

/-- The headers of a request by name. -/
abbrev Headers := List (String × String)

def Headers.get? (headers : Headers) (name : String) : Option String := (headers.find? (·.1 = name)).map (·.2)

/-- What the code calls outside its own source and without any effect. -/
structure Runtime where
  /-- `process.env.DEMO_MODE === "true"` -/
  demoMode : Bool
  decryptCredentials : String → Except Failure Json
  /-- `new Stripe(…)` on the stored credentials. -/
  newStripe : Json → Except Failure Unit
  /-- `stripe.webhooks.constructEvent` accepts the body under the secret. -/
  constructEvent : Buffer → String → Json → Bool
  /-- `createHmac("sha256", key).update(body).digest("hex")`, where the key may be missing. -/
  hmacSha256 : Option Json → Buffer → Except Failure String
  /-- `createHash("sha256").update(body).digest("hex")` -/
  sha256 : Buffer → String
  /-- `JSON.parse(body.toString("utf-8"))` -/
  parseJson : Buffer → Except Failure Json
  toUpperCase : String → String
  toLowerCase : String → String
  /-- The rows that a value selects in the place of a string: a string selects its equals. -/
  stringFilter : Json → Except Failure (String → Bool)
  /-- The same for a column that may be empty. -/
  nullableStringFilter : Json → Except Failure (Option String → Bool)
  /-- Equality of JSON values in the database. -/
  jsonEquals : Json → Json → Bool
  /-- `Math.round(Number(value))`, when it is a number. -/
  toNumber : Json → Option Int
  /-- How numbers that need not be whole are computed with. -/
  arithmetic : Data.Arithmetic

/-! ## Statuses -/

namespace PaymentIntentStatus

def code : PaymentIntentStatus → String
  | .created => "CREATED"
  | .requiresAction => "REQUIRES_ACTION"
  | .authorized => "AUTHORIZED"
  | .processing => "PROCESSING"
  | .succeeded => "SUCCEEDED"
  | .failed => "FAILED"
  | .canceled => "CANCELED"
  | .refunded => "REFUNDED"

def all : List PaymentIntentStatus :=
  [.created, .requiresAction, .authorized, .processing, .succeeded, .failed, .canceled, .refunded]

/-- The status of a value that is written to the column. -/
def ofJson (value : Json) : Option PaymentIntentStatus := all.find? fun s => value.isStr s.code

theorem ofJson_code (s : PaymentIntentStatus) : ofJson (.str s.code) = some s := by cases s <;> rfl

end PaymentIntentStatus

def VPS_STATUS_MAP : List (String × PaymentIntentStatus) :=
  [("AUTHORISED", .authorized), ("AUTHORIZED", .authorized), ("AUTHORIZATION", .authorized),
   ("PREAUTHORIZED", .authorized), ("PRE_AUTHORIZED", .authorized), ("REDIRECTED", .requiresAction),
   ("AUTHORIZE_PENDING", .requiresAction), ("AUTHORIZATION_PENDING", .requiresAction),
   ("CHALLENGE_REQUIRED", .requiresAction), ("CHALLENGED", .requiresAction), ("PENDING_3DS", .requiresAction),
   ("THREE_DS_PENDING", .requiresAction), ("CHARGED", .succeeded), ("CAPTURED", .succeeded), ("PAID", .succeeded),
   ("SETTLED", .succeeded), ("SETTLEMENT", .succeeded), ("COMPLETED", .succeeded), ("REFUSED", .failed),
   ("DECLINED", .failed), ("FAILED", .failed), ("ERROR", .failed), ("CANCELLED", .canceled), ("CANCELED", .canceled),
   ("AUTH_REVERSED", .canceled), ("VOIDED", .canceled), ("PENDING", .processing), ("IN_PROGRESS", .processing),
   ("PROCESSING", .processing), ("SETTLEMENT_PROCESSING", .processing), ("REFUNDED", .refunded)]

def NAPS_STATUS_MAP : List (String × PaymentIntentStatus) :=
  [("APPROVED", .succeeded), ("CAPTURED", .succeeded), ("DECLINED", .failed), ("REFUSED", .failed),
   ("EXPIRED", .failed), ("CANCELLED", .canceled), ("CANCELED", .canceled), ("PENDING", .processing),
   ("INPROGRESS", .processing), ("INITIATED", .requiresAction), ("REFUNDED", .refunded),
   ("PARTIALLREFUNDED", .refunded)]

def STRIPE_STATUS_MAP : List (String × PaymentIntentStatus) :=
  [("succeeded", .succeeded), ("requires_action", .requiresAction), ("requires_source_action", .requiresAction),
   ("requires_payment_method", .requiresAction), ("requires_source", .requiresAction), ("processing", .processing),
   ("requires_capture", .authorized), ("requires_confirmation", .processing), ("canceled", .canceled),
   ("cancelled", .canceled)]

def STRIPE_SESSION_STATUS_MAP : List (String × PaymentIntentStatus) :=
  [("paid", .succeeded), ("unpaid", .requiresAction), ("no_payment_required", .succeeded), ("expired", .failed)]

/-- The entry of a status map, PROCESSING by default. -/
def mapStatus (statusMap : List (String × PaymentIntentStatus)) (status : String) : PaymentIntentStatus :=
  ((statusMap.find? (·.1 = status)).map (·.2)).getD .processing

def mapStripeStatus (status : String) : PaymentIntentStatus :=
  mapStatus (STRIPE_STATUS_MAP ++ STRIPE_SESSION_STATUS_MAP) status

/-! ## Adapters -/

/-- An adapter with its credentials. The fake one stands in for all of them in demo mode. -/
inductive ProviderAdapter
  | fake
  | naps (credentials : Json)
  | vps (credentials : Json)
  | stripe (credentials : Json)
  deriving Repr

def Provider.code : Provider → String
  | .naps => "NAPS"
  | .vps => "VPS"
  | .stripe => "STRIPE"
  | .paypal => "PAYPAL"
  | .adyen => "ADYEN"

def Config.providerConfig (c : Config) (tenantId : Id) (provider : Provider) : Option ProviderConfig :=
  c.providerConfigs.find? fun r => r.tenantId = tenantId ∧ r.provider = provider

def getAdapter (rt : Runtime) (provider : Provider) (encryptedCredentials : String) : Except Failure ProviderAdapter :=
  if rt.demoMode then .ok .fake
  else do
    let credentials ← rt.decryptCredentials encryptedCredentials
    match provider with
    | .naps => pure (.naps credentials)
    | .vps => pure (.vps credentials)
    | .stripe => do
        rt.newStripe credentials
        pure (.stripe credentials)
    | .paypal | .adyen => throw (.error ("Provider " ++ provider.code ++ " is not yet implemented"))

namespace ProviderAdapter

/-- The first header of the list, `""` when there is none. -/
def signatureHeader (headers : Headers) (names : List String) : String := (names.findSome? headers.get?).getD ""

def verifyWebhookSignature (rt : Runtime) (rawBody : Buffer) (headers : Headers) :
    ProviderAdapter → Except Failure Bool
  | .fake => .ok true
  | .naps credentials => do
      let receivedSig := signatureHeader headers ["x-naps-signature", "X-Naps-Signature"]
      if receivedSig = "" then pure false
      else do
        let expectedSig ← rt.hmacSha256 (← credentials.get "secretKey") rawBody
        pure (rt.toUpperCase receivedSig = rt.toUpperCase expectedSig)
  | .vps credentials => do
      let callbackTestMode ← credentials.get "callbackTestMode"
      if callbackTestMode.any (·.truthy) then pure true
      else do
        let notificationKey ← credentials.get "notificationKey"
        if notificationKey.all (!·.truthy) then pure false
        else do
          let sig := signatureHeader headers
            ["x-callback-signature", "x-payzone-signature", "x-vps-signature", "x-signature"]
          if sig = "" then pure false
          else do
            let expected ← rt.hmacSha256 notificationKey rawBody
            pure (rt.toLowerCase sig = rt.toLowerCase expected)
  | .stripe credentials => do
      let sig := signatureHeader headers ["stripe-signature", "Stripe-Signature"]
      let secret ← credentials.get "webhookSecret"
      pure (sig ≠ "" ∧ secret.any fun key => key.truthy ∧ rt.constructEvent rawBody sig key)

/-- The internal status, as the value that is written to the column. -/
def mapStatusToInternal (rt : Runtime) (providerStatus : Json) : ProviderAdapter → Except Failure Json
  | .fake => .ok providerStatus
  | .naps _ =>
      match providerStatus with
      | .str s => .ok (.str (mapStatus NAPS_STATUS_MAP (rt.toUpperCase s)).code)
      | _ => .error (.error "providerStatus.toUpperCase is not a function")
  | .vps _ =>
      match providerStatus with
      | .str s => .ok (.str (mapStatus VPS_STATUS_MAP (rt.toUpperCase s)).code)
      | _ => .error (.error "providerStatus.toUpperCase is not a function")
  | .stripe _ =>
      match providerStatus with
      | .str s => .ok (.str (mapStripeStatus s).code)
      | _ => .ok (.str PaymentIntentStatus.processing.code)

end ProviderAdapter

end CorpoPay.Settlement
