import CorpoPay.Settlement.Money

/-!
# Fees, tax and settlement policies

The pure engines that say what is taken from a capture: the fee engine (`fees.ts`), the tax engine (`tax.ts`),
the settlement policy (`settlement-policy.ts`) and the industry presets (`settlement-presets.ts`).
-/

namespace CorpoPay.Settlement

/-! ## Fee engine -/

inductive FeeType
  | flat | percentage | perMethod | tiered
  deriving DecidableEq, Repr

structure FeeTier where
  upToCents : Int
  percentageBps : Int
  deriving DecidableEq, Repr

structure FeeScheduleSpec where
  feeType : FeeType
  flatCents : Option Int
  percentageBps : Option Int
  perMethodCents : Option (List (String × Int))
  tiersCents : Option (List FeeTier)
  deriving DecidableEq, Repr

/-- Basis points per whole unit (100% = 10 000 bps). -/
def BPS_PER_UNIT : Int := 10000

/-- Apply a basis-point rate to an amount, rounded to the nearest centime. -/
def applyBps (amountCents : Int) (bps : Int) : Except Failure Int :=
  if bps < 0 then .error (.feeError "bps must be non-negative")
  else .ok (roundDiv (amountCents * bps) BPS_PER_UNIT)

def percentFee (amountCents : Int) (bps : Int) : Except Failure Int := applyBps amountCents bps

/-- The fee of a transaction. `method` selects the entry of a `perMethod` schedule. -/
def computeFee (schedule : FeeScheduleSpec) (amountCents : Int) (method : Option String) :
    Except Failure Int :=
  if amountCents < 0 then .error (.feeError "amount must be non-negative")
  else
    match schedule.feeType with
    | .flat =>
        let flat := schedule.flatCents.getD 0
        if flat < 0 then .error (.feeError "flatCents must be non-negative") else .ok flat
    | .percentage => percentFee amountCents (schedule.percentageBps.getD 0)
    | .perMethod =>
        let perMethod := schedule.perMethodCents.getD []
        let flat := (method.bind (perMethod.lookup ·)).getD 0
        if flat < 0 then .error (.feeError "per-method fee must be non-negative") else .ok flat
    | .tiered =>
        let tiers := schedule.tiersCents.getD []
        match (tiers.find? (amountCents ≤ ·.upToCents)).or tiers.getLast? with
        | some tier => percentFee amountCents tier.percentageBps
        | none => .ok 0

/-! ## Tax engine -/

structure TaxSpec where
  taxRateBps : Int
  taxExempt : Bool
  deriving DecidableEq, Repr

/-- Tax on the fee (exclusive pricing). -/
def computeTax (feeCents : Int) (tax : TaxSpec) : Except Failure Int :=
  if tax.taxExempt ∨ tax.taxRateBps = 0 then .ok 0
  else if tax.taxRateBps < 0 then .error (.taxError "taxRateBps must be non-negative")
  else applyBps feeCents tax.taxRateBps

/-! ## Settlement policy -/

inductive AvailabilityMode
  | immediate | delay | onFulfillment | onCollection
  deriving DecidableEq, Repr

inductive PayoutSchedule
  | manual | autoDaily | autoWeekly | autoMonthly | threshold | instant
  deriving DecidableEq, Repr

inductive ReserveType
  | none | fixed | rolling
  deriving DecidableEq, Repr

inductive ReversalFundingPolicy
  | netFromAvailable | debitReserve | invoiceTenant | allowNegative
  deriving DecidableEq, Repr

inductive PayoutRail
  | stripeConnect | manual
  deriving DecidableEq, Repr

structure PolicySpec where
  industry : Option String
  mcc : Option String
  availabilityMode : AvailabilityMode
  availabilityDelayDays : Option Int
  reserveType : ReserveType
  reservePercentageBps : Option Int
  reserveHoldDays : Option Int
  reserveFixedCents : Option Int
  payoutSchedule : PayoutSchedule
  payoutMinCents : Option Int
  reversalFunding : ReversalFundingPolicy
  allowNegative : Bool
  splittingEnabled : Bool
  payoutRail : PayoutRail
  deriving DecidableEq, Repr

/-- Per-transaction reserve hold. -/
def computeReserve (policy : PolicySpec) (grossCents : Int) : Except Failure Int :=
  if grossCents < 0 then .error (.policyError "gross must be non-negative")
  else
    match policy.reserveType with
    | .none => .ok 0
    | .fixed => .ok (min (policy.reserveFixedCents.getD 0) grossCents)
    | .rolling => applyBps grossCents (policy.reservePercentageBps.getD 0)

/-- Gross minus the reserve hold. -/
def availableAfterReserve (policy : PolicySpec) (grossCents : Int) : Except Failure Int := do
  let reserveCents ← computeReserve policy grossCents
  pure (grossCents - reserveCents)

def nonNeg (v : Option Int) (name : String) : Except Failure Unit :=
  if ∃ n ∈ v, n < 0 then .error (.policyError (name ++ " must be non-negative")) else .ok ()

/-- The first violation of a policy's dimensions. -/
def validatePolicy (policy : PolicySpec) : Except Failure Unit := do
  nonNeg policy.reservePercentageBps "reservePercentageBps"
  nonNeg policy.reserveFixedCents "reserveFixedCents"
  nonNeg policy.availabilityDelayDays "availabilityDelayDays"
  nonNeg policy.reserveHoldDays "reserveHoldDays"
  nonNeg policy.payoutMinCents "payoutMinCents"
  if policy.reserveType = .fixed ∧ policy.reserveFixedCents = none then
    .error (.policyError "FIXED reserve requires reserveFixedCents")
  else if policy.reserveType = .rolling ∧ policy.reservePercentageBps = none then
    .error (.policyError "ROLLING reserve requires reservePercentageBps")
  else if policy.availabilityMode = .delay ∧ policy.availabilityDelayDays = none then
    .error (.policyError "DELAY availability requires availabilityDelayDays")
  else if policy.payoutSchedule = .threshold ∧ policy.payoutMinCents = none then
    .error (.policyError "THRESHOLD payout requires payoutMinCents")
  else if policy.reversalFunding = .allowNegative ∧ policy.allowNegative = false then
    .error (.policyError "ALLOW_NEGATIVE reversal funding requires allowNegative")
  else .ok ()

/-! ## Industry presets -/

structure IndustryPreset where
  industry : String
  mcc : Option String
  fee : FeeScheduleSpec
  availabilityMode : AvailabilityMode
  availabilityDelayDays : Option Int
  reserveType : ReserveType
  reservePercentageBps : Option Int
  reserveHoldDays : Option Int
  reserveFixedCents : Option Int
  payoutSchedule : PayoutSchedule
  payoutMinCents : Option Int
  reversalFunding : ReversalFundingPolicy
  allowNegative : Bool
  splittingEnabled : Bool
  payoutRail : Option PayoutRail
  deriving DecidableEq, Repr

/-- The fee of most presets: a rate. -/
def percentageSpec (bps : Int) : FeeScheduleSpec :=
  { feeType := .percentage, flatCents := none, percentageBps := some bps, perMethodCents := none, tiersCents := none }

def DEFAULT_PRESET : IndustryPreset :=
  { industry := "default", mcc := none, fee := percentageSpec 290,
    availabilityMode := .immediate, availabilityDelayDays := none,
    reserveType := .rolling, reservePercentageBps := some 500, reserveHoldDays := some 30, reserveFixedCents := none,
    payoutSchedule := .autoDaily, payoutMinCents := none,
    reversalFunding := .netFromAvailable, allowNegative := false, splittingEnabled := false, payoutRail := none }

def INDUSTRY_PRESETS : List IndustryPreset :=
  [{ industry := "saas", mcc := some "5734", fee := percentageSpec 290,
     availabilityMode := .immediate, availabilityDelayDays := none,
     reserveType := .none, reservePercentageBps := none, reserveHoldDays := none, reserveFixedCents := none,
     payoutSchedule := .autoDaily, payoutMinCents := none,
     reversalFunding := .netFromAvailable, allowNegative := false, splittingEnabled := false, payoutRail := none },
   { industry := "marketplace", mcc := some "5262", fee := percentageSpec 350,
     availabilityMode := .onFulfillment, availabilityDelayDays := none,
     reserveType := .rolling, reservePercentageBps := some 1000, reserveHoldDays := some 30,
     reserveFixedCents := none, payoutSchedule := .threshold, payoutMinCents := some 100000,
     reversalFunding := .debitReserve, allowNegative := false, splittingEnabled := true, payoutRail := none },
   { industry := "retail", mcc := some "5999", fee := percentageSpec 250,
     availabilityMode := .immediate, availabilityDelayDays := none,
     reserveType := .rolling, reservePercentageBps := some 300, reserveHoldDays := some 14,
     reserveFixedCents := none, payoutSchedule := .autoDaily, payoutMinCents := none,
     reversalFunding := .netFromAvailable, allowNegative := false, splittingEnabled := false, payoutRail := none },
   { industry := "travel", mcc := some "4722", fee := percentageSpec 320,
     availabilityMode := .delay, availabilityDelayDays := some 7,
     reserveType := .rolling, reservePercentageBps := some 1000, reserveHoldDays := some 60,
     reserveFixedCents := none, payoutSchedule := .autoWeekly, payoutMinCents := none,
     reversalFunding := .debitReserve, allowNegative := false, splittingEnabled := false, payoutRail := none },
   { industry := "escrow", mcc := some "7399", fee := percentageSpec 150,
     availabilityMode := .onFulfillment, availabilityDelayDays := none,
     reserveType := .none, reservePercentageBps := none, reserveHoldDays := none, reserveFixedCents := none,
     payoutSchedule := .manual, payoutMinCents := none,
     reversalFunding := .invoiceTenant, allowNegative := false, splittingEnabled := false, payoutRail := none },
   { industry := "lending", mcc := some "6012",
     fee := { feeType := .flat, flatCents := some 500, percentageBps := none, perMethodCents := none,
              tiersCents := none },
     availabilityMode := .immediate, availabilityDelayDays := none,
     reserveType := .none, reservePercentageBps := none, reserveHoldDays := none, reserveFixedCents := none,
     payoutSchedule := .manual, payoutMinCents := none,
     reversalFunding := .allowNegative, allowNegative := true, splittingEnabled := false, payoutRail := none },
   { industry := "on_demand", mcc := some "4121", fee := percentageSpec 400,
     availabilityMode := .immediate, availabilityDelayDays := none,
     reserveType := .none, reservePercentageBps := none, reserveHoldDays := none, reserveFixedCents := none,
     payoutSchedule := .instant, payoutMinCents := none,
     reversalFunding := .netFromAvailable, allowNegative := false, splittingEnabled := false, payoutRail := none }]

/-- The preset of an industry, or the general default. -/
def presetForIndustry (industry : Option String) : IndustryPreset :=
  (industry.bind fun i => INDUSTRY_PRESETS.find? (·.industry = i)).getD DEFAULT_PRESET

/-- `resolvePolicy` without overrides. -/
def resolvePolicy (preset : IndustryPreset) : PolicySpec :=
  { industry := some preset.industry, mcc := preset.mcc,
    availabilityMode := preset.availabilityMode, availabilityDelayDays := preset.availabilityDelayDays,
    reserveType := preset.reserveType, reservePercentageBps := preset.reservePercentageBps,
    reserveHoldDays := preset.reserveHoldDays, reserveFixedCents := preset.reserveFixedCents,
    payoutSchedule := preset.payoutSchedule, payoutMinCents := preset.payoutMinCents,
    reversalFunding := preset.reversalFunding, allowNegative := preset.allowNegative,
    splittingEnabled := preset.splittingEnabled, payoutRail := preset.payoutRail.getD .manual }

/-- An explicit active `FeeSchedule` wins, else the fee of the tenant's industry preset. -/
def resolveFeeSpec (feeRow : Option FeeScheduleSpec) (industry : Option String) : FeeScheduleSpec :=
  match feeRow with
  | some row => row
  | none => (presetForIndustry industry).fee

/-! ## What the API accepts -/

/-- The bounds of `createFeeScheduleSchema`. -/
structure FeeScheduleSpec.Valid (f : FeeScheduleSpec) : Prop where
  flatCents : ∀ n ∈ f.flatCents, 0 ≤ n
  percentageBps : ∀ n ∈ f.percentageBps, 0 ≤ n
  perMethodCents : ∀ ms ∈ f.perMethodCents, ∀ m ∈ ms, 0 ≤ m.2
  tiersCents : ∀ ts ∈ f.tiersCents, ∀ t ∈ ts, 0 ≤ t.upToCents ∧ 0 ≤ t.percentageBps

/-- The bounds of `updateTenantSchema` on the tax settings. -/
def TaxSpec.Valid (t : TaxSpec) : Prop := 0 ≤ t.taxRateBps ∧ t.taxRateBps ≤ 10000

/-- A policy that `createSettlementPolicy` stores. -/
def PolicySpec.Valid (p : PolicySpec) : Prop := validatePolicy p = .ok ()

instance (p : PolicySpec) : Decidable p.Valid := inferInstanceAs (Decidable (validatePolicy p = .ok ()))

theorem nonNeg_eq_ok {v : Option Int} {name : String} : nonNeg v name = .ok () ↔ ∀ n ∈ v, 0 ≤ n := by
  unfold nonNeg
  split_ifs with h
  · obtain ⟨n, hn, hlt⟩ := h
    exact ⟨by simp, fun h' => absurd (h' n hn) (not_le.mpr hlt)⟩
  · exact ⟨fun _ n hn => not_lt.mp fun hlt => h ⟨n, hn, hlt⟩, fun _ => rfl⟩

/-- The presets pass their own check. -/
theorem resolvePolicy_valid_of_mem {preset : IndustryPreset} (h : preset ∈ DEFAULT_PRESET :: INDUSTRY_PRESETS) :
    (resolvePolicy preset).Valid := by
  unfold PolicySpec.Valid
  revert preset
  decide

theorem presetForIndustry_mem (industry : Option String) :
    presetForIndustry industry ∈ DEFAULT_PRESET :: INDUSTRY_PRESETS := by
  unfold presetForIndustry
  cases h : industry.bind fun i => INDUSTRY_PRESETS.find? (·.industry = i) with
  | none => exact List.mem_cons_self
  | some p =>
      obtain ⟨i, -, hi⟩ := Option.bind_eq_some_iff.mp h
      exact List.mem_cons_of_mem _ (List.mem_of_find?_eq_some hi)

end CorpoPay.Settlement
