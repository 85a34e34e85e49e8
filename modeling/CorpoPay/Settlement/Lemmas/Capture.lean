import CorpoPay.Settlement.Lemmas.LedgerDb
import CorpoPay.Settlement.Lemmas.Splits
import CorpoPay.Settlement.RefundDb

/-!
# What a capture books

`capturePlan` is what `settleCapture` computes before its first posting, `captureMovements` is what it then
appends to the ledger.
-/

namespace CorpoPay.Settlement

open Transaction.Tx

/-! ## What the API accepts -/

/-- Every stored schedule, tax setting, policy and split rule passed the checks of its route. -/
structure Config.Accepted (c : Config) : Prop where
  feeSchedules : ∀ f ∈ c.feeSchedules, f.toFeeScheduleSpec.Valid
  tenants : ∀ t ∈ c.tenants, (TaxSpec.mk t.taxRateBps t.taxExempt).Valid
  settlementPolicies : ∀ p ∈ c.settlementPolicies, p.toPolicySpec.Valid
  splitRules : ∀ r ∈ c.splitRules, ValidShares r.shares

/-! ## The plan -/

/-- The AT_CAPTURE rule with the division of the gross, if there is one, and the plan of the rest. -/
structure CapturePlan where
  rule : Option (SplitRule × SplitResult)
  plan : CaptureSettlementPlan

def Config.capturePolicy (c : Config) (tenantId : Id) : PolicySpec :=
  ((c.activeSettlementPolicy tenantId).map (·.toPolicySpec)).getD (resolvePolicy DEFAULT_PRESET)

def Config.captureFee (c : Config) (tenantId : Id) : FeeScheduleSpec :=
  resolveFeeSpec ((c.activeFeeSchedule tenantId).map toFeeSpec) ((c.activeSettlementPolicy tenantId).bind (·.industry))

def capturePlan (c : Config) (tenantId : Id) (input : SettleCaptureInput) : Except Failure CapturePlan :=
  match if (c.capturePolicy tenantId).splittingEnabled then c.captureRule tenantId else none with
  | none =>
      (planCaptureSettlement input.amountCents (c.captureFee tenantId) (c.capturePolicy tenantId) input.method
        (c.taxSpec tenantId)).map fun plan => ⟨none, plan⟩
  | some rule =>
      (split input.amountCents rule.shares).bind fun result =>
        (planCaptureSettlement result.platformCents (c.captureFee tenantId) (c.capturePolicy tenantId) input.method
          (c.taxSpec tenantId)).map fun plan => ⟨some (rule, result), plan⟩

/-- The account that fee, tax and reserve are taken from. -/
def CapturePlan.feeFrom (cp : CapturePlan) : LedgerAccount := if cp.rule.isSome then .available else .collected

/-! ## The movements -/

def shareMovements (tenantId : Id) (sourceAccount beneficiaryAccount : LedgerAccount) (currency : Currency)
    (source : Meta) (a : ShareAllocation) : List Movement :=
  (⟨debit sourceAccount a.amountCents .split none currency,
    credit beneficiaryAccount a.amountCents .split (some a.partyId) currency, source⟩ : LedgerPosting).movements
      tenantId

def platformMovements (tenantId : Id) (trigger : SplitTrigger) (currency : Currency) (source : Meta)
    (platformCents : Int) : List Movement :=
  if trigger = .atCapture ∧ 0 < platformCents then
    (⟨debit (sourceAccountFor trigger) platformCents .split none currency,
      credit .available platformCents .split none currency, source⟩ : LedgerPosting).movements tenantId
  else []

def splitMovements (tenantId : Id) (trigger : SplitTrigger) (held : Bool) (currency : Currency) (source : Meta)
    (result : SplitResult) : List Movement :=
  result.shares.flatMap
      (shareMovements tenantId (sourceAccountFor trigger) (if held then .reserve else .available) currency source) ++
    platformMovements tenantId trigger currency source result.platformCents

def SettleCaptureInput.captureCurrency (input : SettleCaptureInput) : Currency := input.currency.getD .mad

def SettleCaptureInput.source (input : SettleCaptureInput) : Meta := ⟨some CAPTURE_SOURCE_TYPE, some input.intentId⟩

/-- Move a positive amount from one account to another. -/
def moved (tenantId : Id) (input : SettleCaptureInput) (amount : Int) (category : LedgerCategory)
    (src dst : LedgerAccount) : List Movement :=
  positiveMovements tenantId amount (debit src amount category none input.captureCurrency)
    (credit dst amount category none input.captureCurrency) input.source

def grossMovements (tenantId : Id) (input : SettleCaptureInput) : List Movement :=
  (⟨debit .cash input.amountCents .capture none input.captureCurrency,
    credit .collected input.amountCents .capture none input.captureCurrency, input.source⟩ : LedgerPosting).movements
      tenantId

/-- The division of the gross and, without a rule, the net: the two ways to empty COLLECTED. -/
def ruleMovements (tenantId : Id) (input : SettleCaptureInput) (cp : CapturePlan) : List Movement :=
  match cp.rule with
  | some (_, result) => splitMovements tenantId .atCapture false input.captureCurrency input.source result
  | none => []

def netMovements (tenantId : Id) (input : SettleCaptureInput) (cp : CapturePlan) : List Movement :=
  match cp.rule with
  | some _ => []
  | none => moved tenantId input cp.plan.netCents .capture .collected .available

def captureMovements (tenantId : Id) (input : SettleCaptureInput) (cp : CapturePlan) : List Movement :=
  grossMovements tenantId input ++ (ruleMovements tenantId input cp ++
    (moved tenantId input cp.plan.feeCents .fee cp.feeFrom .fees ++
      (moved tenantId input cp.plan.taxCents .tax cp.feeFrom .taxPayable ++
        (moved tenantId input cp.plan.reserveCents .capture cp.feeFrom .reserve ++
          netMovements tenantId input cp))))

/-! ## The code books them -/

theorem keeps_splitCreate {R : Db → Db → Prop} [IsPreorder Db R] {row : Id → Split}
    (h : ∀ db ss, R db { db with splits := ss }) : (Split.create row).Keeps R := by
  refine keeps_bind (keeps_query _) fun id => keeps_bind (keeps_get _) fun _ => ?_
  split
  · exact keeps_throw _
  · exact keeps_bind (keeps_modify fun db => h db _) fun _ => keeps_ret _

theorem books_executeSplitInTx {tenantId : Id} {input : ExecuteSplitInput} {trigger : SplitTrigger}
    {shares : List ShareSpec} {db : Db} {Q : List Split → Db → Prop}
    (h : ∀ result rows db', split input.sourceCents shares = .ok result →
      Appends (splitMovements tenantId trigger (input.held.getD false) (input.currency.getD .mad)
        ⟨some input.sourceType, some input.sourceId⟩ result) db db' → Q rows db') :
    (executeSplitInTx tenantId input trigger shares).Ensures Q (fun _ => True) db := by
  simp only [executeSplitInTx, bind_eq, pure_eq, ensures_bind]
  refine (ensures_lift _).mpr ⟨fun result hr => ?_, fun _ _ => trivial⟩
  apply Ensures.mono
  · exact books_collect (fun a => books_bind_of_keeps books_post fun _ => keeps_splitCreate fun _ _ => rfl) _ _
  · intro rows db₁ h₁
    rw [ensures_when]
    constructor
    · intro hp
      refine ensures_post fun db₂ _ h₂ => h result rows db₂ hr ?_
      rw [splitMovements, platformMovements, if_pos hp]
      exact h₁.trans h₂
    · intro hp
      refine h result rows db₁ hr ?_
      rw [splitMovements, platformMovements, if_neg hp, List.append_nil]
      exact h₁
  · exact fun _ h => h

/-- The movements of a capture, from the rule and the plan. -/
theorem ensures_bookCapture {tenantId : Id} {input : SettleCaptureInput} {rule : Option SplitRule}
    {plan : CaptureSettlementPlan} {db : Db} {Q : Bool → Db → Prop}
    (h : ∀ result db', (∀ r ∈ rule, split input.amountCents r.shares = .ok result) →
      Appends (captureMovements tenantId input ⟨rule.map fun r => (r, result), plan⟩) db db' → Q true db') :
    (bookCapture tenantId input rule plan).Ensures Q (fun _ => True) db := by
  unfold bookCapture
  simp only [bind_eq, pure_eq, ensures_bind]
  refine ensures_post fun db₁ _ h₁ => ?_
  cases rule with
  | none =>
      simp only [ensures_bind]
      refine ensures_postPositive fun db₂ h₂ => ensures_postPositive fun db₃ h₃ => ensures_postPositive fun db₄ h₄ => ?_
      rw [ensures_when]
      refine ⟨fun _ => ensures_postPositive fun db₅ h₅ => ?_, fun hn => absurd rfl hn⟩
      exact h ⟨[], 0⟩ db₅ (by simp) (h₁.trans (.trans (.refl _) (h₂.trans (h₃.trans (h₄.trans h₅)))))
  | some rule =>
      simp only [ensures_bind]
      refine books_executeSplitInTx fun result rows db₂ hr h₂ => ?_
      refine ensures_postPositive fun db₃ h₃ => ensures_postPositive fun db₄ h₄ => ensures_postPositive fun db₅ h₅ => ?_
      rw [ensures_when]
      refine ⟨fun hn => absurd hn (by simp), fun _ => ?_⟩
      refine h result db₅ (by rintro _ ⟨⟩; exact hr) (h₁.trans (h₂.trans (h₃.trans (h₄.trans ?_))))
      exact h₅.trans (.refl _)

/-- A capture that does not fail appends the movements of its plan. -/
theorem ensures_settleCaptureInTx {tenantId : Id} {input : SettleCaptureInput} {db : Db} {Q : Bool → Db → Prop}
    (h : ∀ cp db', capturePlan db.toConfig tenantId input = .ok cp →
      Appends (captureMovements tenantId input cp) db db' → Q true db') :
    (settleCaptureInTx tenantId input).Ensures Q (fun _ => True) db := by
  simp only [settleCaptureInTx, bind_eq, pure_eq, ensures_bind, ensures_get, ensures_ite, ensures_ret]
  have hbook : ∀ rule, (if (db.capturePolicy tenantId).splittingEnabled then db.captureRule tenantId else none) = rule →
      (lift (planBase input.amountCents rule)).Ensures
        (fun base s => (lift (planCaptureSettlement base (db.captureFee tenantId) (db.capturePolicy tenantId)
          input.method (db.taxSpec tenantId))).Ensures
            (fun plan s' => (bookCapture tenantId input rule plan).Ensures Q (fun _ => True) s') (fun _ => True) s)
        (fun _ => True) db := by
    intro rule hrule
    cases rule with
    | none =>
        refine (ensures_lift _).mpr ⟨?_, fun _ _ => trivial⟩
        rintro _ ⟨⟩
        refine (ensures_lift _).mpr ⟨fun plan hp => ensures_bookCapture fun result db' _ ha => ?_, fun _ _ => trivial⟩
        exact h _ db' (by rw [capturePlan, hrule]; simp only [hp, Except.map]; rfl) ha
    | some rule =>
        refine (ensures_lift _).mpr ⟨fun base hb => ?_, fun _ _ => trivial⟩
        refine (ensures_lift _).mpr ⟨fun plan hp => ensures_bookCapture fun result db' hr ha => ?_, fun _ _ => trivial⟩
        have hr' := hr rule rfl
        rw [planBase, hr'] at hb
        cases hb
        exact h _ db' (by rw [capturePlan, hrule]; simp only [hr', Except.bind, hp, Except.map]; rfl) ha
  exact ⟨fun hs => hbook _ (by rw [if_pos]; exact hs), fun hs => hbook _ (by rw [if_neg]; exact hs)⟩

/-- A capture either books the movements of its plan or changes nothing. -/
theorem settleCapture_spec (t : Id) (input : SettleCaptureInput) (db : Db) :
    (settleCapture t input).Ensures (fun r db' =>
      (r = .ok true ∧ 0 < input.amountCents ∧ db.movements.any (·.isCaptureOf t input.intentId) = false ∧
        ∃ cp, capturePlan db.toConfig t input = .ok cp ∧ Appends (captureMovements t input cp) db db') ∨
      (r ≠ .ok true ∧ db' = db)) db := by
  unfold settleCapture
  split_ifs with hg
  · exact .inr ⟨by simp, rfl⟩
  · rw [Transaction.Job.ensures_transaction]
    simp only [bind_eq, ensures_bind, ensures_get, ensures_ite, pure_eq, ensures_ret]
    refine ⟨fun _ => .inr ⟨by simp, trivial⟩, fun hnot => ?_⟩
    refine Ensures.mono (ensures_settleCaptureInTx fun cp db' hcp ha => ?_) (fun _ _ h => h)
      fun e _ => .inr ⟨by simp, trivial⟩
    refine .inl ⟨rfl, not_le.mp hg, ?_, cp, hcp, ha⟩
    simpa [Db.movements] using hnot

theorem settleCapture_run {t : Id} {input : SettleCaptureInput} {db db' : Db} {w w' : World}
    {r : Except Failure Bool} (h : (settleCapture t input).run db w = (r, db', w')) :
    (r = .ok true ∧ 0 < input.amountCents ∧
        db.movements.any (·.isCaptureOf t input.intentId) = false ∧ ∃ cp,
        capturePlan db.toConfig t input = .ok cp ∧ Appends (captureMovements t input cp) db db') ∨
      (r ≠ .ok true ∧ db' = db) := (settleCapture_spec t input db).run w h

/-! ## Rows of a capture -/

section Rows

variable {t t' i : Id} {input : SettleCaptureInput} {cp : CapturePlan}

theorem mem_posting {p : LedgerPosting} {m : Movement} (h : m ∈ p.movements t) :
    m = p.debit.movement t p.source ∨ m = p.credit.movement t p.source := by
  simpa [LedgerPosting.movements] using h

theorem mem_positive {amount : Int} {d c : LedgerLeg} {source : Meta} {m : Movement}
    (h : m ∈ positiveMovements t amount d c source) : m = d.movement t source ∨ m = c.movement t source := by
  unfold positiveMovements at h
  split_ifs at h
  · exact mem_posting h
  · cases h

/-- The movements of a split carry its source, its tenant and the category SPLIT. -/
theorem mem_split {trigger : SplitTrigger} {held : Bool} {currency : Currency} {source : Meta} {result : SplitResult}
    {m : Movement} (h : m ∈ splitMovements t trigger held currency source result) :
    m.category = .split ∧ m.sourceType = source.sourceType := by
  rcases List.mem_append.mp h with h | h
  · obtain ⟨a, -, h⟩ := List.mem_flatMap.mp h
    rcases mem_posting h with rfl | rfl <;> exact ⟨rfl, rfl⟩
  · unfold platformMovements at h
    split_ifs at h
    · rcases mem_posting h with rfl | rfl <;> exact ⟨rfl, rfl⟩
    · cases h

theorem mem_moved {amount : Int} {category : LedgerCategory} {src dst : LedgerAccount} {m : Movement}
    (h : m ∈ moved t input amount category src dst) : m.sourceType = some .paymentIntent ∧ m.category = category ∧
      (m.account = src ∧ m.direction = .debit ∨ m.account = dst ∧ m.direction = .credit) := by
  rcases mem_positive h with rfl | rfl
  · exact ⟨rfl, rfl, .inl ⟨rfl, rfl⟩⟩
  · exact ⟨rfl, rfl, .inr ⟨rfl, rfl⟩⟩

/-- The only capture row of a capture is its gross. -/
theorem mem_capture {m : Movement} (h : m ∈ captureMovements t' input cp) : m.sourceType = some .paymentIntent ∧
    (m.isCaptureOf t i → t' = t ∧ input.intentId = i ∧ m.amount = input.amountCents ∧
      m.currency = input.captureCurrency) := by
  have hmoved : ∀ {amount category src dst}, dst ≠ .collected → m ∈ moved t' input amount category src dst →
      m.sourceType = some .paymentIntent ∧ m.isCaptureOf t i = false := by
    intro amount category src dst hdst hm
    obtain ⟨hsource, -, ⟨-, hdir⟩ | ⟨hacc, -⟩⟩ := mem_moved hm
    · exact ⟨hsource, by simp [Movement.isCaptureOf, hdir]⟩
    · exact ⟨hsource, by simp [Movement.isCaptureOf, hacc, hdst]⟩
  have hother : m.sourceType = some .paymentIntent ∧ m.isCaptureOf t i = false → m.sourceType = some .paymentIntent ∧
      (m.isCaptureOf t i → t' = t ∧ input.intentId = i ∧ m.amount = input.amountCents ∧
        m.currency = input.captureCurrency) := fun hm => ⟨hm.1, fun hc => by rw [hm.2] at hc; cases hc⟩
  simp only [captureMovements, List.mem_append] at h
  rcases h with h | h | h | h | h | h
  · rcases mem_posting h with rfl | rfl
    · exact hother ⟨rfl, by simp [Movement.isCaptureOf, LedgerLeg.movement, debit]⟩
    · refine ⟨rfl, fun hc => ?_⟩
      have hrow := of_decide_eq_true hc
      exact ⟨hrow.1, Option.some.inj hrow.2.2.1, rfl, rfl⟩
  · unfold ruleMovements at h
    split at h
    · obtain ⟨hcategory, hsource⟩ := mem_split h
      exact hother ⟨hsource, by simp [Movement.isCaptureOf, hcategory]⟩
    · cases h
  · exact hother (hmoved (by decide) h)
  · exact hother (hmoved (by decide) h)
  · exact hother (hmoved (by decide) h)
  · unfold netMovements at h
    split at h
    · cases h
    · exact hother (hmoved (by decide) h)

/-- The capture of the intent is in the ledger. -/
def Db.isCaptured (db : Db) (t intentId : Id) : Bool := db.movements.any (·.isCaptureOf t intentId)

theorem any_capture (t i : Id) :
    (captureMovements t' input cp).any (·.isCaptureOf t i) = decide (t' = t ∧ input.intentId = i) := by
  rw [Bool.eq_iff_iff, List.any_eq_true, decide_eq_true_iff]
  constructor
  · rintro ⟨m, hm, hcapture⟩
    obtain ⟨ht, hi, -⟩ := (mem_capture hm).2 hcapture
    exact ⟨ht, hi⟩
  · rintro ⟨rfl, rfl⟩
    refine ⟨_, List.mem_append_left _ (List.mem_cons_of_mem _ List.mem_cons_self), ?_⟩
    simp [Movement.isCaptureOf, LedgerLeg.movement, credit, SettleCaptureInput.source]

theorem Appends.isCaptured_capture {db db' : Db} (h : Appends (captureMovements t' input cp) db db') (t i : Id) :
    db'.isCaptured t i = (db.isCaptured t i || decide (t' = t ∧ input.intentId = i)) := by
  rw [Db.isCaptured, h.movements_eq, List.any_append, any_capture]
  rfl

end Rows

end CorpoPay.Settlement
