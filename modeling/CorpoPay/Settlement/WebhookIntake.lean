import CorpoPay.Data.Calendar
import CorpoPay.Data.DedupQueue
import CorpoPay.Settlement.Operations
import CorpoPay.Settlement.StripeWebhooks
import CorpoPay.Settlement.Webhooks
import CorpoPay.Transaction.Pool

/-!
# The intake of webhooks (`routes/webhooks.ts`)

The routes look a verified request up by its key and queue it, and the queue starts a job for what it did not see within a
day. Requests and jobs run side by side over one database.
-/

namespace CorpoPay.Settlement

/-! ## The routes -/

/-- A request with the tenant whose key it is signed with. -/
structure VerifiedWebhook where
  provider : Provider
  payload : Json
  rawBody : Buffer
  headers : Headers
  tenantId : Id
  deriving Repr

/-- What is sent as `webhook/process`, or as `webhook/stripe.process`. -/
inductive QueuedWebhook
  | process (event : WebhookNotification)
  | stripeProcess (event : StripeEvent)
  deriving Repr

def QueuedWebhook.idempotencyKey : QueuedWebhook → String
  | .process event => event.idempotencyKey
  | .stripeProcess event => event.idempotencyKey

def QueuedWebhook.provider : QueuedWebhook → Provider
  | .process event => event.provider
  | .stripeProcess _ => .stripe

/-- `${provider}:${idempotencyKey}` -/
def QueuedWebhook.id (event : QueuedWebhook) : String := event.provider.code ++ ":" ++ event.idempotencyKey

/-- The job that the queue starts. -/
def QueuedWebhook.job (rt : Runtime) : QueuedWebhook → Job Unit
  | .process event => discard (webhookProcessor rt event)
  | .stripeProcess event => discard (stripeWebhookProcessor rt event)

/-- `payload["id"]`: a row cannot be looked up without it. -/
def stripeKey (payload : Json) : Except Failure String := do
  match ← payload.get "id" with
  | some id => textColumn id
  | none => throw (.error "Argument where needs at least one of id or idempotencyKey")

def VerifiedWebhook.idempotencyKey (rt : Runtime) (request : VerifiedWebhook) : Except Failure String :=
  match request.provider with
  | .stripe => stripeKey request.payload
  | _ => notificationKey rt request.payload request.rawBody

def VerifiedWebhook.queued (request : VerifiedWebhook) (idempotencyKey : String) : QueuedWebhook :=
  match request.provider with
  | .stripe => .stripeProcess { payloadJson := request.payload, idempotencyKey }
  | provider =>
      .process { provider, payloadJson := request.payload, rawBody := request.rawBody, headers := request.headers, idempotencyKey }

inductive IntakeResponse
  | rejected (status : Nat)
  | duplicate
  | queued (event : QueuedWebhook)
  deriving Repr

def IntakeResponse.isDuplicate : IntakeResponse → Bool
  | .duplicate => true
  | _ => false

/-- The look-up of a key: what has no row is sent. -/
def lookUp (event : QueuedWebhook) : Job IntakeResponse := do
  let existing ← selectOnce (·.webhookEvents.any (·.idempotencyKey = some event.idempotencyKey))
  pure (if existing then .duplicate else .queued event)

/-- What a route does with a request that passed verification. -/
def receive (rt : Runtime) (request : VerifiedWebhook) : Job IntakeResponse := do
  let idempotencyKey ← @Transaction.Job.ofExcept Backend _ (request.idempotencyKey rt)
  lookUp (request.queued idempotencyKey)

def receiveWebhook (rt : Runtime) (provider : Provider) (rawBody : Buffer) (headers : Headers) : Job IntakeResponse := do
  match ← verifyWebhook rt provider rawBody headers with
  | .fail failReason => pure (.rejected (if failReason = "invalid_json" then 400 else 401))
  | .ok payload tenantId => receive rt { provider, payload, rawBody, headers, tenantId }

/-- `POST /webhooks/stripe` -/
def handleStripeWebhook (rt : Runtime) (rawBody : Buffer) (headers : Headers) : Job IntakeResponse :=
  receiveWebhook rt .stripe rawBody headers

def WebhookResponse.intake : WebhookResponse → IntakeResponse
  | .rejected status => .rejected status
  | .duplicate => .duplicate
  | .queued event => .queued (.process event)

/-- The routes of NAPS and VPS receive in the same way. -/
theorem receiveWebhook_eq (rt : Runtime) {provider : Provider} (hprovider : provider ≠ .stripe) (rawBody : Buffer)
    (headers : Headers) : receiveWebhook rt provider rawBody headers =
      (handleProviderWebhook rt provider rawBody headers).bind fun response => .ret response.intake := by
  unfold receiveWebhook handleProviderWebhook
  simp only [Transaction.Job.bind_eq, Transaction.Job.bind_assoc]
  congr 1
  funext result
  cases result with
  | fail failReason => rfl
  | ok payload tenantId =>
      have hkey : ({ provider, payload, rawBody, headers, tenantId } : VerifiedWebhook).idempotencyKey rt =
          notificationKey rt payload rawBody := by
        cases provider with
        | stripe => exact absurd rfl hprovider
        | _ => rfl
      have hqueued : ∀ idempotencyKey,
          ({ provider, payload, rawBody, headers, tenantId } : VerifiedWebhook).queued idempotencyKey =
            .process { provider, payloadJson := payload, rawBody, headers, idempotencyKey } := by
        cases provider with
        | stripe => exact absurd rfl hprovider
        | _ => exact fun _ => rfl
      dsimp only
      unfold receive lookUp
      simp only [hkey, hqueued, Transaction.Job.bind_eq, Transaction.Job.bind_assoc]
      congr 1
      funext key
      congr 1
      funext existing
      cases existing <;> rfl

/-! ## The queue -/

/-- What a route or a job of the queue ends with. -/
inductive IntakeResult
  | answered (response : IntakeResponse)
  | processed

section Intake

variable {ι : Type} [DecidableEq ι]

/-- The routes of the requests and the jobs of their events. -/
def intakeJobs (rt : Runtime) (request : ι → VerifiedWebhook) : ι ⊕ ι → Job IntakeResult
  | .inl i => do pure (.answered (← receive rt (request i)))
  | .inr i => do
      let idempotencyKey ← @Transaction.Job.ofExcept Backend _ ((request i).idempotencyKey rt)
      ((request i).queued idempotencyKey).job rt
      pure .processed

structure Intake (ι : Type) : Type 1 where
  pool : Transaction.Pool Backend (ι ⊕ ι) IntakeResult
  queue : Data.DedupQueue (Option String) ι
  sent : List ι
  /-- The rows that were stored, each with the request whose job stored it. -/
  stored : List (ι × WebhookEvent)

def Intake.init (rt : Runtime) (request : ι → VerifiedWebhook) (db : Db) (w : World) (clock : Nat) : Intake ι where
  pool := .init (intakeJobs rt request) db w
  queue := .empty clock
  sent := []
  stored := []

namespace Intake

/-- The response of the route of a request. -/
def response (s : Intake ι) (i : ι) : Option IntakeResponse :=
  match (s.pool.threads (.inl i)).phase with
  | .between (.ret (.answered response)) => some response
  | _ => none

/-- A job runs once its event was delivered. -/
def mayRun (s : Intake ι) : ι ⊕ ι → Bool
  | .inl _ => true
  | .inr i => i ∈ s.queue.delivered

/-- A step of a route or a job, with the rows that it stored. -/
def advance (s : Intake ι) (thread : ι ⊕ ι) (pool : Transaction.Pool Backend (ι ⊕ ι) IntakeResult) : Intake ι :=
  let new := pool.shared.store.webhookEvents.drop s.pool.shared.store.webhookEvents.length
  { s with pool, stored := s.stored ++ new.map fun row => (thread.elim id id, row) }

end Intake

inductive Action (ι : Type)
  | run (thread : ι ⊕ ι)
  /-- The database ends the transaction. -/
  | abort (thread : ι ⊕ ι)
  /-- The route of the request sends its event. -/
  | send (i : ι)
  /-- The queue starts the job of the request. -/
  | deliver (i : ι)
  | wait (duration : Nat)
  deriving DecidableEq, Repr

/-- The id of the event of a request. -/
def VerifiedWebhook.eventId (rt : Runtime) (request : VerifiedWebhook) : Option String :=
  ((request.idempotencyKey rt).toOption).map fun key => (request.queued key).id

namespace Intake

variable (rt : Runtime) (request : ι → VerifiedWebhook)

/-- An event whose id was seen in the last 24 hours is dropped. -/
def accept (s : Intake ι) (i : ι) : Intake ι :=
  { s with queue := s.queue.take Data.DAY_MS (fun i => (request i).eventId rt) i, sent := s.sent ++ [i] }

def step (s : Intake ι) : Action ι → Option (Intake ι)
  | .run thread => if s.mayRun thread then (s.pool.step thread).map (s.advance thread) else none
  | .abort thread => if s.mayRun thread then (s.pool.abort thread).map (s.advance thread) else none
  | .send i =>
      match s.response i with
      | some (.queued _) => if i ∈ s.sent then none else some (s.accept rt request i)
      | _ => none
  | .deliver i => (s.queue.deliver i).map fun queue => { s with queue }
  | .wait duration => some { s with queue := s.queue.wait duration }

/-- What the runs from a state reach whose steps all meet a condition. -/
def Reaches (cond : Intake ι → Action ι → Prop) (s s' : Intake ι) : Prop :=
  Relation.ReflTransGen (fun s s' => ∃ a, cond s a ∧ s.step rt request a = some s') s s'

/-- The run of a list of actions: those that are not possible are passed over. -/
def exec (check : Intake ι → Action ι → Bool) (s : Intake ι) : List (Action ι) → Intake ι
  | [] => s
  | a :: as =>
      match s.step rt request a with
      | some s' => if check s a then exec check s' as else exec check s as
      | none => exec check s as

variable {rt : Runtime} {request : ι → VerifiedWebhook}

theorem reaches_exec {cond : Intake ι → Action ι → Prop} {check : Intake ι → Action ι → Bool}
    (hcheck : ∀ s a, check s a = true → cond s a) (s : Intake ι) (as : List (Action ι)) :
    Reaches rt request cond s (exec rt request check s as) := by
  induction as generalizing s with
  | nil => exact .refl
  | cons a as ih =>
      unfold exec
      split
      · rename_i s' hstep
        split_ifs with hpass
        · exact .head ⟨a, hcheck s a hpass, hstep⟩ (ih s')
        · exact ih s
      · exact ih s

end Intake

end Intake

end CorpoPay.Settlement
