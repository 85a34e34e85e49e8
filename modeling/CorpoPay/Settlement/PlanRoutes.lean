import Mathlib.Data.List.Sort
import CorpoPay.Settlement.IntentRoutes

/-!
# The preview of installments (`billing.ts`, `routes/installmentPlans.ts`)

`GET /public/installment-plans/:slug`. The names of the plans are left out.
-/

namespace CorpoPay.Settlement

open Data (Arithmetic)

/-- Total interest paid = n × monthly − principal. -/
def totalInterest (a : Arithmetic) (principal : Int) (annualRatePct : Rat) (n : Nat) : Except Failure Int :=
  if annualRatePct = 0 then .ok 0
  else do
    let monthly ← computeInstallmentAmount a principal annualRatePct n
    .ok (toCentimes a (a.round (a.round (major a monthly * n) - major a principal)))

structure PlanPreview where
  planId : String
  durationMonths : Nat
  annualInterestRate : Rat
  installmentAmount : Int
  totalAmount : Int
  totalInterest : Int
  minAmount : Option Int
  maxAmount : Option Int
  deriving DecidableEq, Repr

def InstallmentPlan.preview (a : Arithmetic) (plan : InstallmentPlan) (principal : Int) : Except Failure PlanPreview := do
  let apr := a.round plan.annualInterestRate
  let installment ← computeInstallmentAmount a principal apr plan.durationMonths
  let interest ← totalInterest a principal apr plan.durationMonths
  .ok { planId := plan.id, durationMonths := plan.durationMonths, annualInterestRate := apr,
        installmentAmount := installment, totalAmount := toCentimes a (a.round (major a principal + major a interest)),
        totalInterest := interest, minAmount := plan.minAmount, maxAmount := plan.maxAmount }

structure LinkPreview where
  currency : Currency
  principal : Int
  plans : List PlanPreview
  deriving DecidableEq, Repr

/-- `where: { tenantId, isActive: true }, orderBy: { durationMonths: "asc" }` -/
def Db.activePlans (db : Db) (tenantId : Id) : List InstallmentPlan :=
  (db.installmentPlans.filter fun p => p.tenantId = tenantId && p.isActive).insertionSort
    fun a b => a.durationMonths ≤ b.durationMonths

def checkPreview (link : PaymentLink) (tenant : Option Tenant) : Except Failure Unit :=
  if !link.isInstallment then .error (.appError 400 "NOT_INSTALLMENT" "This link does not support installments")
  else if tenant.any (·.status = .disabled) then
    .error (.appError 403 "TENANT_DISABLED" "Merchant not accepting payments")
  else .ok ()

def previewPlans (rt : Runtime) (slug : String) : Job LinkPreview := do
  let found ← selectOnce fun db => (db.linkOfSlug slug).map fun link => (link, db.tenant link.tenantId)
  match found with
  | none => Transaction.Job.throw (Failure.appError 404 "LINK_NOT_FOUND" "Payment link not found")
  | some (link, tenant) => do
      let _ ← @Transaction.Job.ofExcept Backend _ (checkPreview link tenant)
      let plans ← selectOnce (·.activePlans link.tenantId)
      let previews ← @Transaction.Job.ofExcept Backend _ (plans.mapM (·.preview rt.arithmetic link.amount))
      pure { currency := link.currency, principal := link.amount, plans := previews }

end CorpoPay.Settlement
