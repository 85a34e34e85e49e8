import CorpoPay.Data.Double
import CorpoPay.Settlement.Db

/-!
# Installments (`billing.ts`, `routes/paymentIntents.ts`)

Amounts are in centimes. The source computes in major units: an amount is the double of its hundredth there.
-/

namespace CorpoPay.Settlement

open Data (Arithmetic)

/-- `Math.round` of a number that need not be whole. -/
def roundRat (x : Rat) : Int := (x + 1 / 2).floor

/-- An amount in major units. -/
def major (a : Arithmetic) (cents : Int) : Rat := a.round (cents / 100)

/-- `Math.round(x * 100)`. Divided by 100 again it is the amount with so many centimes. -/
def toCentimes (a : Arithmetic) (x : Rat) : Int := roundRat (a.round (x * 100))

/-- The equal monthly payment that pays off the principal: rounded up, and an equal split when there is no interest. -/
def computeInstallmentAmount (a : Arithmetic) (principal : Int) (annualRatePct : Rat) (n : Nat) : Except Failure Int :=
  if n = 0 then .error (.error "n must be positive")
  else if principal ≤ 0 then .ok 0
  else if annualRatePct = 0 then .ok (toCentimes a (a.round (major a principal / n)))
  else
    let r := a.round (a.round (annualRatePct / 100) / 12)
    let factor := a.pow (a.round (1 + r)) n
    if factor = 1 then .ok (toCentimes a (a.round (major a principal / n)))
    else
      let payment := a.round (a.round (major a principal * a.round (r * factor)) / a.round (factor - 1))
      .ok (a.round (payment * 100)).ceil

/-- A `Decimal` in the text of an error: no zeros at the end. -/
def decimalText (cents : Int) : String :=
  let whole := cents / 100
  let part := cents % 100
  if part = 0 then toString whole
  else if part % 10 = 0 then toString whole ++ "." ++ toString (part / 10)
  else if part < 10 then toString whole ++ ".0" ++ toString part
  else toString whole ++ "." ++ toString part

/-- The bounds of a plan. -/
def InstallmentPlan.checkAmount (plan : InstallmentPlan) (principal : Int) : Except Failure Unit :=
  if plan.minAmount.any (principal < ·) then
    .error (.appError 400 "AMOUNT_BELOW_MIN"
      ("Minimum amount for this plan is " ++ decimalText (plan.minAmount.getD 0)))
  else if plan.maxAmount.any (· < principal) then
    .error (.appError 400 "AMOUNT_ABOVE_MAX"
      ("Maximum amount for this plan is " ++ decimalText (plan.maxAmount.getD 0)))
  else .ok ()

/-- At least one standard installment and at most the principal. The request is in major units. -/
def capDownPayment (a : Arithmetic) (principal standardInstallment : Int) (downPaymentAmount : Option Rat) : Int :=
  let downPayment := downPaymentAmount.getD (major a standardInstallment)
  let downPayment := if downPayment < major a standardInstallment then major a standardInstallment else downPayment
  let downPayment := if major a principal < downPayment then major a principal else downPayment
  toCentimes a downPayment

/-- What an agreement charges: the down payment, then `totalInstallments - 1` times the installment. -/
structure InstallmentTerms where
  downPayment : Int
  installmentAmount : Int
  totalInstallments : Nat
  deriving DecidableEq, Repr

def InstallmentPlan.terms (a : Arithmetic) (plan : InstallmentPlan) (principal : Int) (downPaymentAmount : Option Rat) :
    Except Failure InstallmentTerms := do
  plan.checkAmount principal
  let apr := a.round plan.annualInterestRate
  let standardInstallment ← computeInstallmentAmount a principal apr plan.durationMonths
  let downPayment := capDownPayment a principal standardInstallment downPaymentAmount
  let remainingPrincipal := max 0 (toCentimes a (a.round (major a principal - major a downPayment)))
  let remainingInstallments := plan.durationMonths - 1
  let remainingMonthlyAmt ←
    if 0 < remainingInstallments then computeInstallmentAmount a remainingPrincipal apr remainingInstallments
    else .ok 0
  .ok { downPayment
        installmentAmount := if 0 < remainingMonthlyAmt then remainingMonthlyAmt else downPayment
        totalInstallments := 1 + remainingInstallments }

end CorpoPay.Settlement
