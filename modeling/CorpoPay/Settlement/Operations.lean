import CorpoPay.Settlement.PayoutDb
import CorpoPay.Settlement.RefundRoutes
import CorpoPay.Settlement.ReversalsDb
import CorpoPay.Settlement.WalletDb
import CorpoPay.Transaction.Ensures

/-!
# Runs of the money operations

One operation at a time, in any order, for any tenants and with any answers of the outside world. A configuration
may change at any point, and to anything.
-/

namespace CorpoPay.Settlement

inductive Operation
  | configure (config : Config)
  | settleCapture (tenantId : Id) (input : SettleCaptureInput)
  | settleRefund (tenantId : Id) (input : SettleRefundInput)
  | refundRoute (rt : Runtime) (tenantId id : Id)
  | createDispute (tenantId : Id) (input : CreateDisputeInput)
  | resolveDispute (tenantId id : Id) (outcome : Outcome)
  | createWallet (tenantId : Id) (ownerType : WalletOwnerType) (ownerId : String) (currency : Option Currency)
  | topUpWallet (tenantId id : Id) (amountCents : Int) (paymentIntentId : Option Id)
  | debitWallet (tenantId id : Id) (amountCents : Int) (method : Option String)
  | refundWallet (tenantId id : Id) (amountCents : Int)
  | adjustWallet (tenantId id : Id) (amountCents : Int)
  | executeSplit (tenantId : Id) (input : ExecuteSplitInput)
  | releaseSplit (tenantId id : Id)
  | createPayout (tenantId : Id) (input : CreatePayoutInput)
  | cancelPayout (tenantId id : Id)
  | markPayoutFailed (tenantId id : Id)
  | markPayoutPaid (tenantId id : Id) (providerTransferId : Option String)

/-- Run a job for its effect. -/
def discard {α : Type} (j : Job α) : Job Unit := j.bind fun _ => .ret ()

theorem ensures_discard {α : Type} {j : Job α} {db : Db} {P : Db → Prop} (h : j.Ensures (fun _ db' => P db') db) :
    (discard j).Ensures (fun _ db' => P db') db := by
  rw [discard, Transaction.Job.ensures_bind]
  exact h.mono fun r _ hp => by cases r <;> exact hp

/-- Whatever the routes of the configuration do. -/
def configure (config : Config) : Job Unit := transaction (change fun db => { db with toConfig := config })

def Operation.job : Operation → Job Unit
  | .configure config => Settlement.configure config
  | .settleCapture t input => discard (Settlement.settleCapture t input)
  | .settleRefund t input => discard (Settlement.settleRefund t input)
  | .refundRoute rt t id => discard (Settlement.refundRoute rt t id)
  | .createDispute t input => discard (Settlement.createDispute t input)
  | .resolveDispute t id outcome => discard (Settlement.resolveDispute t id outcome)
  | .createWallet t ownerType ownerId currency => discard (Settlement.createWallet t ownerType ownerId currency)
  | .topUpWallet t id amountCents paymentIntentId =>
      discard (Settlement.topUpWallet t id amountCents paymentIntentId)
  | .debitWallet t id amountCents method => discard (Settlement.debitWallet t id amountCents method)
  | .refundWallet t id amountCents => discard (Settlement.refundWallet t id amountCents)
  | .adjustWallet t id amountCents => discard (Settlement.adjustWallet t id amountCents)
  | .executeSplit t input => discard (Settlement.executeSplit t input)
  | .releaseSplit t id => discard (Settlement.releaseSplit t id)
  | .createPayout t input => discard (Settlement.createPayout t input)
  | .cancelPayout t id => discard (Settlement.cancelPayout t id)
  | .markPayoutFailed t id => discard (Settlement.markPayoutFailed t id)
  | .markPayoutPaid t id providerTransferId => discard (Settlement.markPayoutPaid t id providerTransferId)

/-- The databases that runs reach from one without any money row. -/
inductive Reached : Db → Prop
  | init (config : Config) : Reached (.empty config)
  | step {db db' : Db} {w w' : World} {r : Except Failure Unit} (op : Operation) (h : Reached db)
      (hrun : op.job.run db w = (r, db', w')) : Reached db'

/-- The rule for runs. -/
theorem Reached.invariant {P : Db → Prop} (hinit : ∀ config, P (.empty config))
    (hstep : ∀ (op : Operation) db, P db → op.job.Ensures (fun _ db' => P db') db) {db : Db} (h : Reached db) :
    P db := by
  induction h with
  | init config => exact hinit config
  | step op _ hrun ih => exact (hstep op _ ih).run _ hrun

/-- The databases that runs reach when every operation meets a condition on the state it starts from. -/
inductive ReachedIf (cond : Operation → Db → Prop) : Db → Prop
  | init (config : Config) : ReachedIf cond (.empty config)
  | step {db db' : Db} {w w' : World} {r : Except Failure Unit} (op : Operation) (h : ReachedIf cond db)
      (hcond : cond op db) (hrun : op.job.run db w = (r, db', w')) : ReachedIf cond db'

theorem ReachedIf.invariant {cond : Operation → Db → Prop} {P : Db → Prop} (hinit : ∀ config, P (.empty config))
    (hstep : ∀ (op : Operation) db, cond op db → P db → op.job.Ensures (fun _ db' => P db') db) {db : Db}
    (h : ReachedIf cond db) : P db := by
  induction h with
  | init config => exact hinit config
  | step op _ hcond hrun ih => exact (hstep op _ hcond ih).run _ hrun

/-- Run the operations one after the other. -/
def execute (ops : List Operation) (db : Db) (w : World) : Db × World :=
  ops.foldl (fun s op => (op.job.run s.1 s.2).2) (db, w)

theorem Reached.execute (ops : List Operation) {db : Db} (h : Reached db) (w : World) :
    Reached (execute ops db w).1 := by
  induction ops generalizing db w with
  | nil => exact h
  | cons op ops ih => exact ih (h.step op rfl) _

/-- Every operation of the run meets the condition. -/
def Meets (cond : Operation → Db → Prop) : List Operation → Db → World → Prop
  | [], _, _ => True
  | op :: ops, db, w => cond op db ∧ Meets cond ops (op.job.run db w).2.1 (op.job.run db w).2.2

theorem ReachedIf.execute {cond : Operation → Db → Prop} (ops : List Operation) {db : Db} (h : ReachedIf cond db)
    (w : World) (hmeets : Meets cond ops db w) : ReachedIf cond (execute ops db w).1 := by
  induction ops generalizing db w with
  | nil => exact h
  | cons op ops ih => exact ih (h.step op hmeets.1 rfl) _ hmeets.2

/-- One tenant that is charged nothing. -/
def plainConfig : Config :=
  { tenants := [{ id := 1, settlementCurrency := .mad, taxRateBps := 0, taxExempt := false }]
    feeSchedules := [{
      feeType := .flat, flatCents := some 0, percentageBps := none, perMethodCents := none, tiersCents := none,
      id := 1, tenantId := 1, version := 1, isActive := true }]
    settlementPolicies := [], splitParties := [], splitRules := [], financeConfigs := [], providerConfigs := [] }

/-- The capture of 10.00 for one intent. -/
def plainCapture : SettleCaptureInput := { intentId := 7, amountCents := 1000, currency := none, method := none }

end CorpoPay.Settlement
