import CorpoPay.Settlement.IntentActions
import CorpoPay.Transaction.Replay

/-!
# The poller under re-execution (`paymentPoller.inngest.ts`)

The body of the poller as the job engine runs it. What its steps do to the rows is left to the answers of the engine: the
intent that is fetched and the status that is queried can be any.
-/

namespace CorpoPay.Settlement

open Transaction (Deed Durable)

inductive PollStep
  | pollDelay
  | fetchIntent
  | markTimeoutFailed
  | queryProvider
  | updateStatus
  | sendNotification
  deriving DecidableEq

instance : Fintype PollStep where
  elems := {.pollDelay, .fetchIntent, .markTimeoutFailed, .queryProvider, .updateStatus, .sendNotification}
  complete s := by cases s <;> decide

abbrev PollStep.Result : PollStep → Type
  | .fetchIntent => Option PaymentIntent
  | .queryProvider => Option PaymentIntentStatus
  | .pollDelay | .markTimeoutFailed | .updateStatus | .sendNotification => Unit

/-- The points of the body, with the variables that are read after them. -/
inductive PollPoint
  | start
  | loop (started : Nat)
  | fetch (started : Nat)
  | check (started : Nat) (intent : PaymentIntent)
  | timeout
  | query (started : Nat) (intent : PaymentIntent)
  | update (started : Nat) (newStatus : PaymentIntentStatus)
  | notify
  | done

/-- 30 s between polls -/
def POLL_INTERVAL_MS : Nat := 30000

namespace PollPoint

def fetched (started : Nat) : Option PaymentIntent → PollPoint
  | none => .done
  | some intent =>
      if intent.status ∈ PaymentIntentStatus.TERMINAL then .done
      else if intent.isPreauth then .loop started
      else .check started intent

/-- A Stripe session that waits for its customer is not queried. -/
def waits (provider : Provider) (intent : PaymentIntent) : Prop :=
  provider = .stripe ∧ intent.status = .requiresAction

instance (provider : Provider) (intent : PaymentIntent) : Decidable (waits provider intent) :=
  inferInstanceAs (Decidable (_ ∧ _))

def checked (provider : Provider) (started : Nat) (intent : PaymentIntent) (now : Nat) : PollPoint :=
  if started + maxDurationFor provider ≤ now then .timeout
  else if waits provider intent then .loop started
  else .query started intent

def queried (started : Nat) (intent : PaymentIntent) : Option PaymentIntentStatus → PollPoint
  | none => .loop started
  | some newStatus => if newStatus = intent.status then .loop started else .update started newStatus

def written (started : Nat) (newStatus : PaymentIntentStatus) : PollPoint :=
  if newStatus = .succeeded ∨ newStatus = .refunded then .notify
  else if newStatus = .failed ∨ newStatus = .canceled then .done
  else .loop started

def deed (provider : Provider) : PollPoint → Deed PollStep PollStep.Result PollPoint
  | .start => .now .loop
  | .loop started => .step .pollDelay fun _ => .fetch started
  | .fetch started => .step .fetchIntent (fetched started)
  | .check started intent => .now (checked provider started intent)
  | .timeout => .step .markTimeoutFailed fun _ => .done
  | .query started intent => .step .queryProvider (queried started intent)
  | .update started newStatus => .step .updateStatus fun _ => written started newStatus
  | .notify => .step .sendNotification fun _ => .done
  | .done => .done

/-- The body has been left. -/
def isDone : PollPoint → Bool
  | .done => true
  | _ => false

end PollPoint

def durablePoller (provider : Provider) : Durable PollStep PollStep.Result PollPoint where
  start := .start
  deed := PollPoint.deed provider
  lasts
    | .pollDelay => POLL_INTERVAL_MS
    | _ => 0

end CorpoPay.Settlement
