import CorpoPay.Data.Calendar
import CorpoPay.Settlement.Db

/-!
# The event queue (`inngest.ts`)

The jobs of recurring billing, the queue that starts them, and the provider that they charge. An event has no time of
delivery, so it can be delivered as soon as it is sent. One whose id was accepted less than a day ago is dropped.
-/

namespace CorpoPay.Billing

open Settlement (BillingInterval Currency Db DbLock Failure Id)
open Data (DAY_MS)

/-! ## Events -/

/-- The texts that a charge is made with. The date that they were made for is not sent. -/
structure ChargeKey where
  chargeId : String
  idempotencyId : String
  dueDate : Nat
  deriving DecidableEq, Repr

structure RenewalDue where
  subscriptionId : String
  tenantId : Id
  amount : Int
  currency : Currency
  intervalType : BillingInterval
  intervalValue : Nat
  key : ChargeKey
  deriving DecidableEq, Repr

structure SubscriptionActivated where
  id : String
  subscriptionId : String
  tenantId : Id
  amount : Int
  currency : Currency
  intervalType : BillingInterval
  intervalValue : Nat
  trialDays : Option Nat
  deriving DecidableEq, Repr

structure InstallmentDue where
  agreementId : String
  installmentNumber : Nat
  tenantId : Id
  key : ChargeKey
  deriving DecidableEq, Repr

inductive Event
  | renewalDue (data : RenewalDue)
  | subscriptionActivated (data : SubscriptionActivated)
  | installmentDue (data : InstallmentDue)
  deriving DecidableEq, Repr

def Event.id : Event → String
  | .renewalDue data => data.key.idempotencyId
  | .subscriptionActivated data => data.id
  | .installmentDue data => data.key.idempotencyId

/-! ## Charges -/

/-- `chargeRenewal` of the adapter. The subscription or agreement that is charged is not sent. -/
structure RenewalCharge where
  source : String
  profileId : String
  amountCentimes : Int
  currency : Currency
  key : ChargeKey
  attempt : Nat
  deriving DecidableEq, Repr

/-- `n === 1 ? text : text-rn` -/
def retryText (text : String) (attempt : Nat) : String :=
  if attempt = 1 then text else text ++ "-r" ++ toString attempt

def RenewalCharge.chargeId (charge : RenewalCharge) : String := retryText charge.key.chargeId charge.attempt

def RenewalCharge.idempotencyId (charge : RenewalCharge) : String := retryText charge.key.idempotencyId charge.attempt

structure ChargeRenewalResult where
  success : Bool
  providerTransactionId : Option String
  message : Option String
  deriving DecidableEq, Repr

/-- A charge that reached the provider. -/
structure Submission where
  charge : RenewalCharge
  time : Nat
  success : Bool
  deriving DecidableEq, Repr

/-! ## The outside world -/

inductive Query
  | now
  | cuid
  | runId
  | send (events : List Event)
  /-- The queue starts a job for the event. -/
  | deliver (event : Event)
  | sleepUntil (time : Nat)
  | chargeRenewal (charge : RenewalCharge)
  deriving Repr

/-- A call that throws answers with its message. -/
abbrev Answer : Query → Type
  | .now => Nat
  | .cuid => String
  | .runId => Nat
  | .send _ => Except String Unit
  | .deliver _ => Bool
  | .sleepUntil _ => Unit
  | .chargeRenewal _ => Except String ChargeRenewalResult

/-- What the outside world decides at each answer: the time that passes, the identifiers, whether the queue can be
reached, whether it delivers an event once more, and what becomes of a charge. -/
structure Oracle where
  tick : Nat → Nat
  cuid : Nat → String
  runId : Nat → Nat
  sendError : Nat → Option String
  redelivers : Nat → Bool
  chargeRenewal : Nat → RenewalCharge → Except String ChargeRenewalResult

structure World where
  clock : Nat
  answered : Nat
  oracle : Oracle
  pending : List Event
  /-- The ids of the events and the times when they were accepted. -/
  accepted : List (String × Nat)
  submissions : List Submission

namespace World

/-- An event whose id was seen in the last 24 hours is dropped. -/
def accept (w : World) (event : Event) : World :=
  if w.accepted.any fun seen => seen.1 = event.id ∧ w.clock < seen.2 + DAY_MS then w
  else { w with pending := w.pending ++ [event], accepted := w.accepted ++ [(event.id, w.clock)] }

def answer (w : World) : (q : Query) → Answer q
  | .now => w.clock
  | .cuid => w.oracle.cuid w.answered
  | .runId => w.oracle.runId w.answered
  | .send _ =>
      match w.oracle.sendError w.answered with
      | some message => .error message
      | none => .ok ()
  | .deliver event => decide (event ∈ w.pending)
  | .sleepUntil _ => ()
  | .chargeRenewal charge => w.oracle.chargeRenewal w.answered charge

/-- The provider reports that it charged. -/
def charged : Except String ChargeRenewalResult → Bool
  | .ok result => result.success
  | .error _ => false

def effect (w : World) : Query → World
  | .now | .cuid | .runId => w
  | .send events => if w.oracle.sendError w.answered = none then events.foldl accept w else w
  | .deliver event => if w.oracle.redelivers w.answered then w else { w with pending := w.pending.erase event }
  | .sleepUntil time => { w with clock := max w.clock time }
  | .chargeRenewal charge =>
      { w with
        submissions := w.submissions ++
          [{ charge, time := w.clock, success := charged (w.oracle.chargeRenewal w.answered charge) }] }

def reply (w : World) (q : Query) : Answer q × World :=
  (w.answer q, { w.effect q with answered := w.answered + 1, clock := (w.effect q).clock + w.oracle.tick w.answered })

end World

abbrev Backend : Transaction.Interface where
  Store := Db
  Lock := DbLock
  World := World
  Query := Query
  Answer := Answer
  reply := World.reply
  Err := Failure
  aborted := .aborted

abbrev Tx := Transaction.Tx Backend

abbrev Job := Transaction.Job Backend

/-! ## Statements -/

export Transaction (select change transaction selectOnce)
export Transaction.Job (ofExcept)

abbrev cuid : Tx String := @Transaction.Tx.query Backend .cuid

abbrev now : Job Nat := Backend.ask .now

/-- `inngest.send(events)` -/
def send (events : List Event) : Job Unit := do
  match ← Backend.ask (.send events) with
  | .ok () => pure ()
  | .error message => Backend.throw (.error message)

/-- `step.sleep(…)` -/
def sleep (duration : Nat) : Job Unit := do
  let started ← now
  Backend.ask (.sleepUntil (started + duration))

/-- `step.run(…)` of a function with retries: a step that throws is run again. -/
def stepRun {α : Type} (retries : Nat) (j : Job α) : Job α := j.retry retries

/-- The retries of a function that states none. -/
def DEFAULT_RETRIES : Nat := 4

end CorpoPay.Billing
