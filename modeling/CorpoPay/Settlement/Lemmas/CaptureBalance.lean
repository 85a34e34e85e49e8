import CorpoPay.Data.Allocation
import CorpoPay.Settlement.Lemmas.Capture

/-!
# The balances of a capture

What each group of movements of a capture adds to each account.
-/

namespace CorpoPay.Settlement

/-! ## Single postings -/

/-- `amount` if the account is the one that is asked for. -/
def hit (account : LedgerAccount) (currency : Currency) (a : LedgerAccount) (c : Currency) (amount : Int) :
    Int := if account = a ∧ currency = c then amount else 0

@[simp] theorem hit_zero (account : LedgerAccount) (currency : Currency) (a : LedgerAccount) (c : Currency) :
    hit account currency a c 0 = 0 := by simp [hit]

@[simp] theorem hit_currency (account a : LedgerAccount) (c : Currency) (amount : Int) :
    hit account c a c amount = if account = a then amount else 0 := by simp [hit]

theorem hit_sum {α : Type} (as : List α) (f : α → Int) (account : LedgerAccount) (currency : Currency)
    (a : LedgerAccount) (c : Currency) :
    (as.map fun x => hit account currency a c (f x)).sum = hit account currency a c (as.map f).sum := by
  unfold hit
  split_ifs with h
  · rfl
  · simp

section

variable (t : Id) (a : LedgerAccount) (c : Currency) (amount : Int) (category : LedgerCategory)
  (src dst : LedgerAccount) (p q : Option Id) (currency : Currency) (source : Meta)

/-- A posting moves its amount from the debited to the credited account. -/
theorem balance_posting :
    balance ((⟨debit src amount category p currency, credit dst amount category q currency, source⟩ :
        LedgerPosting).movements t) t a c =
      hit dst currency a c amount - hit src currency a c amount := by
  simp only [LedgerPosting.movements, LedgerLeg.movement, debit, credit, balance_cons, balance_nil, Movement.on,
    Movement.delta, delta, true_and, hit]
  split_ifs <;> ring

theorem balance_positive :
    balance (positiveMovements t amount (debit src amount category p currency) (credit dst amount category q currency)
        source) t a c =
      hit dst currency a c (max amount 0) - hit src currency a c (max amount 0) := by
  unfold positiveMovements
  split_ifs with h
  · rw [balance_posting, max_eq_left h.le]
  · simp [max_eq_right (not_lt.mp h)]

end

/-! ## Groups of movements -/

section

variable (t : Id) (a : LedgerAccount) (c : Currency) (input : SettleCaptureInput)

theorem balance_gross :
    balance (grossMovements t input) t a c =
      hit .collected input.captureCurrency a c input.amountCents - hit .cash input.captureCurrency a c input.amountCents :=
  balance_posting ..

theorem balance_moved (amount : Int) (category : LedgerCategory) (src dst : LedgerAccount) :
    balance (moved t input amount category src dst) t a c =
      hit dst input.captureCurrency a c (max amount 0) - hit src input.captureCurrency a c (max amount 0) :=
  balance_positive ..

/-- What a split gives to its beneficiaries. -/
def SplitResult.sharesCents (r : SplitResult) : Int := (r.shares.map (·.amountCents)).sum

theorem balance_shares (currency : Currency) (source : Meta) (src dst : LedgerAccount) (shares : List ShareAllocation) :
    balance (shares.flatMap (shareMovements t src dst currency source)) t a c =
      hit dst currency a c (shares.map (·.amountCents)).sum - hit src currency a c (shares.map (·.amountCents)).sum := by
  rw [balance_flatMap]
  simp only [shareMovements, balance_posting]
  rw [← hit_sum, ← hit_sum, Data.sum_map_sub]

theorem balance_platform (currency : Currency) (source : Meta) (trigger : SplitTrigger) {platformCents : Int} (h : 0 ≤ platformCents) :
    balance (platformMovements t trigger currency source platformCents) t a c =
      if trigger = .atCapture then
        hit .available currency a c platformCents - hit .collected currency a c platformCents else 0 := by
  unfold platformMovements
  by_cases htrigger : trigger = .atCapture
  · subst htrigger
    by_cases hpos : 0 < platformCents
    · simp only [hpos, and_self, ↓reduceIte, balance_posting, sourceAccountFor]
    · obtain rfl : platformCents = 0 := by omega
      simp
  · simp [htrigger]

theorem balance_splitMovements (currency : Currency) (source : Meta) (trigger : SplitTrigger) (held : Bool) {result : SplitResult}
    (h : 0 ≤ result.platformCents) :
    balance (splitMovements t trigger held currency source result) t a c =
      hit (if held then .reserve else .available) currency a c result.sharesCents
        - hit (sourceAccountFor trigger) currency a c result.sharesCents
        + if trigger = .atCapture then
            hit .available currency a c result.platformCents - hit .collected currency a c result.platformCents else 0 := by
  rw [splitMovements, balance_append, balance_shares, balance_platform t a c currency source trigger h]
  rfl

/-- The shares and the platform remainder move the whole source. -/
theorem balance_split {gross : Int} {shares : List ShareSpec} {result : SplitResult} (currency : Currency)
    (source : Meta) (hr : split gross shares = .ok result) :
    balance (splitMovements t .atCapture false currency source result) t a c =
      hit .available currency a c gross - hit .collected currency a c gross := by
  obtain ⟨hsum, -, hp, -, -⟩ := split_spec hr
  rw [balance_splitMovements t a c currency source .atCapture false hp, ← hsum]
  simp only [sourceAccountFor, SplitResult.sharesCents, Bool.false_eq_true, ↓reduceIte]
  unfold hit
  split_ifs <;> ring

end

/-! ## The amounts of a plan -/

theorem applyBps_nonneg {n : Int} {bps : Int} {x : Int} (hn : 0 ≤ n) (h : applyBps n bps = .ok x) :
    0 ≤ x := by
  unfold applyBps at h
  split_ifs at h with hb
  cases h
  exact roundDiv_nonneg (Int.mul_nonneg hn (not_lt.mp hb)) (by decide)

theorem computeFee_nonneg {f : FeeScheduleSpec} {n : Int} {method : Option String} {x : Int}
    (h : computeFee f n method = .ok x) : 0 ≤ x := by
  unfold computeFee at h
  split_ifs at h with hn
  have hn := not_lt.mp hn
  split at h
  · dsimp only at h
    split_ifs at h with hf
    cases h; exact not_lt.mp hf
  · exact applyBps_nonneg hn h
  · dsimp only at h
    split_ifs at h with hf
    cases h; exact not_lt.mp hf
  · dsimp only at h
    split at h
    · exact applyBps_nonneg hn h
    · cases h; exact le_refl _

theorem computeTax_nonneg {fee : Int} {tax : TaxSpec} {x : Int} (hf : 0 ≤ fee)
    (h : computeTax fee tax = .ok x) : 0 ≤ x := by
  unfold computeTax at h
  split_ifs at h with h₁ h₂
  · cases h; exact le_refl _
  · exact applyBps_nonneg hf h

theorem PolicySpec.Valid.reserveFixedCents_nonneg {p : PolicySpec} (h : p.Valid) :
    ∀ n ∈ p.reserveFixedCents, 0 ≤ n := by
  unfold Valid validatePolicy at h
  cases h₁ : nonNeg p.reservePercentageBps "reservePercentageBps" with
  | error e => rw [h₁] at h; cases h
  | ok _ =>
      cases h₂ : nonNeg p.reserveFixedCents "reserveFixedCents" with
      | error e => rw [h₁, h₂] at h; cases h
      | ok _ => exact nonNeg_eq_ok.mp h₂

theorem computeReserve_nonneg {p : PolicySpec} {n : Int} {x : Int} (hp : p.Valid)
    (h : computeReserve p n = .ok x) : 0 ≤ x := by
  unfold computeReserve at h
  split_ifs at h with hn
  have hn := not_lt.mp hn
  split at h
  · cases h; exact le_refl _
  · cases h
    refine le_min ?_ hn
    cases hf : p.reserveFixedCents with
    | none => exact le_refl _
    | some m => exact hp.reserveFixedCents_nonneg m hf
  · exact applyBps_nonneg hn h

/-- The amounts of a plan, and the net is what they leave. -/
theorem planCaptureSettlement_amounts {base : Int} {fee : FeeScheduleSpec} {policy : PolicySpec}
    {method : Option String} {tax : TaxSpec} {plan : CaptureSettlementPlan}
    (h : planCaptureSettlement base fee policy method tax = .ok plan) :
    0 ≤ plan.feeCents ∧ 0 ≤ plan.taxCents ∧ computeReserve policy base = .ok plan.reserveCents ∧
      plan.netCents = base - plan.feeCents - plan.taxCents - plan.reserveCents := by
  unfold planCaptureSettlement at h
  cases hf : computeFee fee base method with
  | error e => rw [hf] at h; cases h
  | ok f =>
      cases ht : computeTax f tax with
      | error e => simp only [hf, ht, bind, Except.bind] at h; cases h
      | ok x =>
          cases hr : computeReserve policy base with
          | error e => simp only [hf, ht, hr, bind, Except.bind] at h; cases h
          | ok r =>
              simp only [hf, ht, hr, bind, Except.bind, pure, Except.pure, Except.ok.injEq] at h
              subst h
              have hf0 := computeFee_nonneg hf
              exact ⟨hf0, computeTax_nonneg hf0 ht, rfl, rfl⟩

/-- A stored policy, or the default one, is valid. -/
theorem Config.capturePolicy_valid {c : Config} (h : ∀ p ∈ c.settlementPolicies, p.toPolicySpec.Valid) (t : Id) :
    (c.capturePolicy t).Valid := by
  unfold capturePolicy
  cases hp : c.activeSettlementPolicy t with
  | none => exact resolvePolicy_valid_of_mem (by simp)
  | some p => exact h p (List.mem_of_find?_eq_some hp)

/-- The plan is the one of some base, which is the gross when there is no rule. -/
theorem capturePlan_base {c : Config} {t : Id} {input : SettleCaptureInput} {cp : CapturePlan}
    (h : capturePlan c t input = .ok cp) : ∃ base,
      planCaptureSettlement base (c.captureFee t) (c.capturePolicy t) input.method (c.taxSpec t) = .ok cp.plan ∧
      (cp.rule = none → base = input.amountCents) ∧
      ∀ rule result, cp.rule = some (rule, result) → split input.amountCents rule.shares = .ok result := by
  unfold capturePlan at h
  split at h
  · cases hplan : planCaptureSettlement input.amountCents (c.captureFee t) (c.capturePolicy t) input.method
      (c.taxSpec t) with
    | error e => rw [hplan] at h; cases h
    | ok plan =>
        rw [hplan] at h
        cases h
        exact ⟨_, hplan, fun _ => rfl, by rintro _ _ ⟨⟩⟩
  · rename_i rule hrule
    cases hs : split input.amountCents rule.shares with
    | error e => rw [hs] at h; cases h
    | ok result =>
        rw [hs] at h
        simp only [Except.bind] at h
        cases hplan : planCaptureSettlement result.platformCents (c.captureFee t) (c.capturePolicy t) input.method
          (c.taxSpec t) with
        | error e => rw [hplan] at h; cases h
        | ok plan =>
            rw [hplan] at h
            cases h
            exact ⟨_, hplan, by rintro ⟨⟩, by rintro _ _ ⟨⟩; exact hs⟩

/-- What `capturePlan` says about its parts. -/
theorem capturePlan_spec {c : Config} {t : Id} {input : SettleCaptureInput} {cp : CapturePlan}
    (hvalid : ∀ p ∈ c.settlementPolicies, p.toPolicySpec.Valid) (h : capturePlan c t input = .ok cp) :
    0 ≤ cp.plan.feeCents ∧ 0 ≤ cp.plan.taxCents ∧ 0 ≤ cp.plan.reserveCents ∧
      (cp.rule = none → cp.plan.netCents =
        input.amountCents - cp.plan.feeCents - cp.plan.taxCents - cp.plan.reserveCents) ∧
      ∀ rule result, cp.rule = some (rule, result) → split input.amountCents rule.shares = .ok result := by
  obtain ⟨base, hplan, hbase, hsplit⟩ := capturePlan_base h
  obtain ⟨hf, ht, hr, hn⟩ := planCaptureSettlement_amounts hplan
  refine ⟨hf, ht, computeReserve_nonneg (c.capturePolicy_valid hvalid t) hr, fun hrule => ?_, hsplit⟩
  rw [hn, hbase hrule]

/-! ## The whole capture -/

/-- What a capture without a rule takes from COLLECTED beyond the gross. -/
def CapturePlan.overdraw (cp : CapturePlan) (gross : Int) : Int :=
  if cp.rule.isSome then 0
  else cp.plan.feeCents + cp.plan.taxCents + max cp.plan.reserveCents 0 + max cp.plan.netCents 0 - gross

theorem balance_capture_any {c : Config} {t : Id} {input : SettleCaptureInput} {cp : CapturePlan}
    (h : capturePlan c t input = .ok cp) (a : LedgerAccount) (k : Currency) :
    balance (captureMovements t input cp) t a k =
      hit .fees input.captureCurrency a k cp.plan.feeCents
        + hit .taxPayable input.captureCurrency a k cp.plan.taxCents
        + hit .reserve input.captureCurrency a k (max cp.plan.reserveCents 0)
        + hit .available input.captureCurrency a k (input.amountCents - cp.plan.feeCents - cp.plan.taxCents
            - max cp.plan.reserveCents 0 + cp.overdraw input.amountCents)
        - hit .collected input.captureCurrency a k (cp.overdraw input.amountCents)
        - hit .cash input.captureCurrency a k input.amountCents := by
  obtain ⟨base, hplan, -, hsplit⟩ := capturePlan_base h
  obtain ⟨hf, ht, -, -⟩ := planCaptureSettlement_amounts hplan
  simp only [captureMovements, balance_append, balance_gross, balance_moved, max_eq_left hf, max_eq_left ht]
  rcases hrule : cp.rule with _ | ⟨rule, result⟩
  · simp only [ruleMovements, netMovements, hrule, CapturePlan.feeFrom, CapturePlan.overdraw, balance_nil,
      balance_moved, Option.isSome_none, Bool.false_eq_true, ↓reduceIte]
    unfold hit
    split_ifs <;> omega
  · simp only [ruleMovements, netMovements, hrule, CapturePlan.feeFrom, CapturePlan.overdraw, balance_nil,
      balance_split t a k _ _ (hsplit _ _ hrule), Option.isSome_some, ↓reduceIte]
    unfold hit
    split_ifs <;> omega

theorem overdraw_nonneg {c : Config} {t : Id} {input : SettleCaptureInput} {cp : CapturePlan}
    (h : capturePlan c t input = .ok cp) : 0 ≤ cp.overdraw input.amountCents := by
  obtain ⟨base, hplan, hbase, -⟩ := capturePlan_base h
  obtain ⟨-, -, -, hnet⟩ := planCaptureSettlement_amounts hplan
  unfold CapturePlan.overdraw
  cases hrule : cp.rule with
  | none =>
      rw [hbase hrule] at hnet
      simp only [Option.isSome_none, Bool.false_eq_true, ↓reduceIte]
      omega
  | some _ => simp

/-- What is left in COLLECTED: the part of fee, tax and reserve that the gross does not cover. -/
def CapturePlan.shortfall (cp : CapturePlan) (gross : Int) : Int :=
  if cp.rule.isSome then 0 else max (cp.plan.feeCents + cp.plan.taxCents + cp.plan.reserveCents - gross) 0

theorem balance_capture {c : Config} {t : Id} {input : SettleCaptureInput} {cp : CapturePlan}
    (hvalid : ∀ p ∈ c.settlementPolicies, p.toPolicySpec.Valid) (h : capturePlan c t input = .ok cp)
    (a : LedgerAccount) (k : Currency) :
    balance (captureMovements t input cp) t a k =
      hit .fees input.captureCurrency a k cp.plan.feeCents
        + hit .taxPayable input.captureCurrency a k cp.plan.taxCents
        + hit .reserve input.captureCurrency a k cp.plan.reserveCents
        + hit .available input.captureCurrency a k (input.amountCents - cp.plan.feeCents - cp.plan.taxCents
            - cp.plan.reserveCents + cp.shortfall input.amountCents)
        - hit .collected input.captureCurrency a k (cp.shortfall input.amountCents)
        - hit .cash input.captureCurrency a k input.amountCents := by
  obtain ⟨-, -, hr, hnet, -⟩ := capturePlan_spec hvalid h
  have hshort : cp.overdraw input.amountCents = cp.shortfall input.amountCents := by
    unfold CapturePlan.overdraw CapturePlan.shortfall
    cases hrule : cp.rule with
    | none =>
        have := hnet hrule
        simp only [Option.isSome_none, Bool.false_eq_true, ↓reduceIte]
        omega
    | some _ => rfl
  rw [balance_capture_any h, max_eq_left hr, hshort]

end CorpoPay.Settlement
