import CorpoPay.Settlement.SplitsDb

/-!
# Capture settlement (`settlement.ts`, `settlement-db.ts`)
-/

namespace CorpoPay.Settlement

/-! ## The plan -/

/-- `sourceType` of every capture posting. -/
def CAPTURE_SOURCE_TYPE : SourceType := .paymentIntent

structure CaptureSettlementPlan where
  feeCents : Int
  taxCents : Int
  reserveCents : Int
  netCents : Int
  deriving DecidableEq, Repr

/-- `fee + tax + reserve + net = gross`. -/
def planCaptureSettlement (grossCents : Int) (fee : FeeScheduleSpec) (policy : PolicySpec)
    (method : Option String) (tax : TaxSpec) : Except Failure CaptureSettlementPlan := do
  let feeCents ← computeFee fee grossCents method
  let taxCents ← computeTax feeCents tax
  let reserveCents ← computeReserve policy grossCents
  pure { feeCents, taxCents, reserveCents, netCents := grossCents - feeCents - taxCents - reserveCents }

structure SettleCaptureInput where
  intentId : Id
  amountCents : Int
  currency : Option Currency
  method : Option String
  deriving DecidableEq, Repr

/-! ## What a capture reads -/

/-- The row that shows that the intent is already settled. -/
def Movement.isCaptureOf (m : Movement) (tenantId intentId : Id) : Bool :=
  m.tenantId = tenantId ∧ m.sourceType = some CAPTURE_SOURCE_TYPE ∧ m.sourceId = some intentId ∧
    m.category = .capture ∧ m.account = .collected ∧ m.direction = .credit

def Config.activeFeeSchedule (c : Config) (tenantId : Id) : Option FeeSchedule :=
  c.feeSchedules.find? fun r => r.tenantId = tenantId ∧ r.isActive

def Config.activeSettlementPolicy (c : Config) (tenantId : Id) : Option SettlementPolicy :=
  c.settlementPolicies.find? fun r => r.tenantId = tenantId ∧ r.isActive

def Config.tenant (c : Config) (tenantId : Id) : Option Tenant := c.tenants.find? (·.id = tenantId)

def Config.taxSpec (c : Config) (tenantId : Id) : TaxSpec :=
  { taxRateBps := ((c.tenant tenantId).map (·.taxRateBps)).getD 0,
    taxExempt := ((c.tenant tenantId).map (·.taxExempt)).getD false }

/-- The oldest active AT_CAPTURE rule. -/
def Config.captureRule (c : Config) (tenantId : Id) : Option SplitRule :=
  ((c.splitRules.filter fun r => r.tenantId = tenantId ∧ r.isActive ∧ r.trigger = .atCapture).insertionSort
    fun a b => a.createdAt ≤ b.createdAt).head?

/-! ## The postings -/

/-- A leg pair that is posted only when its amount is positive. -/
def postPositive (tenantId : Id) (amount : Int) (debitLeg creditLeg : LedgerLeg) (source : Meta) : Tx Unit :=
  when (0 < amount) (post tenantId debitLeg creditLeg source)

/-- The postings of a capture. A rule divides the gross, and fee, tax and reserve then come from AVAILABLE. -/
def bookCapture (tenantId : Id) (input : SettleCaptureInput) (rule : Option SplitRule) (plan : CaptureSettlementPlan) :
    Tx Bool := do
  let gross := input.amountCents
  let currency := input.currency.getD .mad
  let source : Meta := ⟨some CAPTURE_SOURCE_TYPE, some input.intentId⟩
  -- 1. Gross into COLLECTED.
  post tenantId (debit .cash gross .capture none currency) (credit .collected gross .capture none currency) source
  -- 2. Split the gross among beneficiaries and the platform remainder.
  match rule with
  | some rule => do
      let _ ← executeSplitInTx tenantId
        { sourceType := CAPTURE_SOURCE_TYPE, sourceId := input.intentId, sourceCents := gross,
          currency := some currency, splitRuleId := some rule.id, trigger := none, shares := none, held := none,
          heldUntil := none }
        .atCapture rule.shares
      pure ()
  | none => pure ()
  -- 3. to 5. Fee, tax and reserve, from COLLECTED or from the platform remainder.
  let feeFrom : LedgerAccount := if rule.isSome then .available else .collected
  postPositive tenantId plan.feeCents
    (debit feeFrom plan.feeCents .fee none currency) (credit .fees plan.feeCents .fee none currency) source
  postPositive tenantId plan.taxCents
    (debit feeFrom plan.taxCents .tax none currency) (credit .taxPayable plan.taxCents .tax none currency) source
  postPositive tenantId plan.reserveCents
    (debit feeFrom plan.reserveCents .capture none currency) (credit .reserve plan.reserveCents .capture none currency)
    source
  -- 6. The payout-eligible remainder.
  when (rule.isNone) do
    postPositive tenantId plan.netCents
      (debit .collected plan.netCents .capture none currency) (credit .available plan.netCents .capture none currency)
      source
  pure true

/-- What fee, tax and reserve are computed from: the gross, or the platform's share of it. -/
def planBase (grossCents : Int) : Option SplitRule → Except Failure Int
  | some rule => (split grossCents rule.shares).map (·.platformCents)
  | none => .ok grossCents

/-- Everything `settleCapture` does after the already-settled check. -/
def settleCaptureInTx (tenantId : Id) (input : SettleCaptureInput) : Tx Bool := do
  let gross := input.amountCents
  let feeRow ← select (·.activeFeeSchedule tenantId)
  let policyRow ← select (·.activeSettlementPolicy tenantId)
  let fee := resolveFeeSpec (feeRow.map toFeeSpec) (policyRow.bind (·.industry))
  let policy := (policyRow.map (·.toPolicySpec)).getD (resolvePolicy DEFAULT_PRESET)
  let tax ← select (·.taxSpec tenantId)
  let rule ← if policy.splittingEnabled then select (·.captureRule tenantId) else pure none
  let base ← lift (planBase gross rule)
  let plan ← lift (planCaptureSettlement base fee policy input.method tax)
  bookCapture tenantId input rule plan

/-- Settle a successful capture. The result says whether this call booked it. -/
def settleCapture (tenantId : Id) (input : SettleCaptureInput) : Job Bool :=
  if input.amountCents ≤ 0 then pure false
  else
    transaction do
      let alreadySettled ← select (·.ledgerEntries.any (·.toMovement.isCaptureOf tenantId input.intentId))
      if alreadySettled then pure false else settleCaptureInTx tenantId input

end CorpoPay.Settlement
