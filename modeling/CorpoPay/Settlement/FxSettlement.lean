import CorpoPay.Settlement.LedgerDb

/-!
# FX quotes and the FX sweep (`fx.ts`, `fx-settlement.ts`, `fx-settlement-db.ts`)

A rate is a decimal with eight places; the model keeps it as a number of 10^-8.
-/

namespace CorpoPay.Settlement

/-- 10 to the power of `FX_RATE_PRECISION`. -/
def FX_RATE_UNIT : Int := 100000000

/-- On the exact product of the decimals, which the code computes in doubles. -/
def convertMinor (amountMinor : Int) (rate : Nat) : Int := roundDiv (amountMinor * rate) FX_RATE_UNIT

/-- How long a quoted rate stays valid: 24 hours. -/
def FX_QUOTE_TTL_MS : Nat := 24 * 60 * 60 * 1000

/-- The source of the rate is left out, nothing modelled reads it. -/
structure FxQuote where
  base : Currency
  quote : Currency
  rate : Nat
  expiresAt : Nat
  deriving DecidableEq, Repr

/-- A locked rate for a currency pair. -/
def quoteFx (base quote : Currency) : Job FxQuote := do
  let issuedAt ← @Transaction.Job.query Backend .now
  let rate ← @Transaction.Job.query Backend (.quoteFx base quote)
  pure { base, quote, rate, expiresAt := issuedAt + FX_QUOTE_TTL_MS }

/-- `"EUR/MAD"` -/
def currencyPairKey (base quote : Currency) : String := base.code ++ "/" ++ quote.code

structure FxConversionPlan where
  amountToMinor : Int
  gainLossMinor : Int
  postings : List LedgerPosting
  deriving DecidableEq, Repr

/-- The postings of a conversion: drain the foreign balance, credit the settlement balance at the locked rate, and
record the difference to the reference rate. -/
def planFxConversion (base quote : Currency) (amountFromMinor : Int) (lockedRate referenceRate : Nat) :
    Except Failure FxConversionPlan := do
  if base = quote then .error (.error "planFxConversion requires a cross-currency pair")
  else
    let amountToMinor := convertMinor amountFromMinor lockedRate
    let gainLossMinor := convertMinor amountFromMinor referenceRate - amountToMinor
    let drainSource ← posting (debit .available amountFromMinor .adjustment none base)
      (credit .cash amountFromMinor .adjustment none base) ⟨some .fxConversion, none⟩
    let creditSettlement ← posting (debit .cash amountToMinor .adjustment none quote)
      (credit .available amountToMinor .adjustment none quote) ⟨some .fxConversion, none⟩
    if 0 < gainLossMinor then
      let gain ← posting (debit .cash gainLossMinor .fxAdjustment none quote)
        (credit .fees gainLossMinor .fxAdjustment none quote) ⟨some .fxAdjustment, none⟩
      .ok { amountToMinor, gainLossMinor, postings := [drainSource, creditSettlement, gain] }
    else if gainLossMinor < 0 then
      let loss ← posting (debit .fees (-gainLossMinor) .fxAdjustment none quote)
        (credit .cash (-gainLossMinor) .fxAdjustment none quote) ⟨some .fxAdjustment, none⟩
      .ok { amountToMinor, gainLossMinor, postings := [drainSource, creditSettlement, loss] }
    else .ok { amountToMinor, gainLossMinor, postings := [drainSource, creditSettlement] }

/-- Convert the AVAILABLE balance in one currency, if there is one. -/
def convertForeignBalance (tenantId : Id) (settlementCurrency base : Currency) : Tx Unit :=
  when (base ≠ settlementCurrency) do
    let balance ← accountBalanceCents tenantId .available base
    when (0 < balance) do
      let rate ← @Transaction.Tx.query Backend (.quoteFx base settlementCurrency)
      let plan ← lift (planFxConversion base settlementCurrency balance rate rate)
      forEach (fun p => do let _ ← postEntry tenantId p; pure ()) plan.postings

/-- Convert every AVAILABLE balance in another currency into the settlement currency. -/
def convertForeignBalancesToSettlement (tenantId : Id) (settlementCurrency : Currency) : Tx Unit :=
  forEach (convertForeignBalance tenantId settlementCurrency) SUPPORTED_CURRENCIES

end CorpoPay.Settlement
