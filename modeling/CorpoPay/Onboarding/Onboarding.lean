import CorpoPay.Settlement.Fees

/-!
# Onboarding

The pure engine of `onboarding.ts`: the statuses of an application, what a merchant must have filled in, and the policy
that an industry begins with.
-/

namespace CorpoPay.Onboarding

open Settlement (PolicySpec presetForIndustry presetForIndustry_mem resolvePolicy resolvePolicy_valid_of_mem)

inductive OnboardingStatus
  | draft | submitted | approved | rejected | needsInfo
  deriving DecidableEq, Repr

def OnboardingStatus.code : OnboardingStatus → String
  | .draft => "DRAFT"
  | .submitted => "SUBMITTED"
  | .approved => "APPROVED"
  | .rejected => "REJECTED"
  | .needsInfo => "NEEDS_INFO"

inductive RiskTier
  | low | medium | high
  deriving DecidableEq, Repr

structure OnboardingError where
  message : String
  statusCode : Nat
  code : String
  deriving DecidableEq, Repr

/-- Allowed outgoing transitions per status. -/
def TRANSITIONS : OnboardingStatus → List OnboardingStatus
  | .draft => [.submitted]
  | .submitted => [.approved, .rejected, .needsInfo]
  | .approved => []
  | .rejected => [.submitted]
  | .needsInfo => [.submitted]

def canTransition (source target : OnboardingStatus) : Bool := target ∈ TRANSITIONS source

def assertTransition (source target : OnboardingStatus) : Except OnboardingError Unit :=
  if canTransition source target then .ok ()
  else .error ⟨"illegal onboarding transition " ++ source.code ++ " -> " ++ target.code, 409, "ONBOARDING_CONFLICT"⟩

/-- The texts that a merchant fills in. -/
structure KycFields where
  legalName : Option String
  entityType : Option String
  registrationNumber : Option String
  country : Option String
  businessAddress : Option String
  website : Option String
  contactEmail : Option String
  industry : Option String
  mcc : Option String
  deriving DecidableEq, Repr

structure OnboardingFields extends KycFields where
  riskTier : Option RiskTier
  deriving DecidableEq, Repr

/-- The characters that `trim` removes. -/
def isTrimmed (c : Char) : Bool :=
  c.toNat ∈ [0x9, 0xA, 0xB, 0xC, 0xD, 0x20, 0xA0, 0x1680, 0x2028, 0x2029, 0x202F, 0x205F, 0x3000, 0xFEFF] ∨
    0x2000 ≤ c.toNat ∧ c.toNat ≤ 0x200A

/-- `value == null || value.trim() === ""` -/
def isBlank : Option String → Bool
  | none => true
  | some value => value.toList.all isTrimmed

/-- Fields that must be present (and non-blank) before submission. -/
def REQUIRED_SUBMIT_FIELDS : List (String × (KycFields → Option String)) :=
  [("legalName", (·.legalName)), ("entityType", (·.entityType)), ("country", (·.country)), ("industry", (·.industry)),
    ("mcc", (·.mcc))]

/-- The error names the first missing field. -/
def validateOnboarding (fields : KycFields) : Except OnboardingError Unit :=
  match REQUIRED_SUBMIT_FIELDS.find? fun field => isBlank (field.2 fields) with
  | some field => .error ⟨"cannot submit: " ++ field.1 ++ " is required", 422, "ONBOARDING_INCOMPLETE"⟩
  | none => .ok ()

def suggestedRiskTier : Option String → RiskTier
  | some "travel" | some "lending" => .high
  | some "marketplace" | some "on_demand" => .medium
  | some "saas" | some "retail" | some "escrow" => .low
  | _ => .medium

/-- The settlement policy that an industry begins with. -/
def policySpecForIndustry (industry mcc : Option String) : PolicySpec :=
  let preset := presetForIndustry industry
  { resolvePolicy preset with industry := some (industry.getD preset.industry), mcc := mcc.or preset.mcc }

/-! ## Complete applications -/

/-- Every required field is present and not blank. -/
def KycFields.Complete (fields : KycFields) : Prop :=
  ∀ field ∈ REQUIRED_SUBMIT_FIELDS, ∃ value, field.2 fields = some value ∧ ∃ c ∈ value.toList, isTrimmed c = false

theorem isBlank_eq_false {value : Option String} :
    isBlank value = false ↔ ∃ v, value = some v ∧ ∃ c ∈ v.toList, isTrimmed c = false := by
  cases value with
  | none => simp [isBlank]
  | some v => simp [isBlank, List.all_eq_false]

theorem validateOnboarding_eq_ok {fields : KycFields} : validateOnboarding fields = .ok () ↔ fields.Complete := by
  have hfind : validateOnboarding fields = .ok () ↔
      REQUIRED_SUBMIT_FIELDS.find? (fun field => isBlank (field.2 fields)) = none := by
    unfold validateOnboarding
    split
    · rename_i hsome
      simp [hsome]
    · rename_i hnone
      simp [hnone]
  rw [hfind, List.find?_eq_none]
  exact forall₂_congr fun field _ => by rw [Bool.not_eq_true, isBlank_eq_false]

instance (fields : KycFields) : Decidable fields.Complete := decidable_of_iff _ validateOnboarding_eq_ok

theorem assertTransition_eq_ok {source target : OnboardingStatus} :
    assertTransition source target = .ok () ↔ canTransition source target = true := by
  unfold assertTransition
  split_ifs with h <;> simp [h]

/-- No industry begins with a policy that the engine refuses. -/
theorem policySpecForIndustry_valid (industry mcc : Option String) : (policySpecForIndustry industry mcc).Valid :=
  resolvePolicy_valid_of_mem (presetForIndustry_mem industry)

end CorpoPay.Onboarding
