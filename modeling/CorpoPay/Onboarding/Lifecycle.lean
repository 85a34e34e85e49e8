import CorpoPay.Onboarding.OnboardingDb
import Mathlib.Logic.Relation

/-!
# The lifecycle of an application

What an application should go through: its owner edits it while nobody reviews it, submits it complete, and a reviewer
decides on what was submitted.
-/

namespace CorpoPay.Onboarding

/-- Everything that the merchant has answered. -/
def MerchantOnboarding.answers (r : MerchantOnboarding) : KycFields × RiskTier := (r.toKycFields, r.riskTier)

def OnboardingStatus.UnderReview (status : OnboardingStatus) : Prop := status = .submitted ∨ status = .approved

instance (status : OnboardingStatus) : Decidable status.UnderReview := inferInstanceAs (Decidable (_ ∨ _))

namespace Lifecycle

/-- One step of an application. -/
inductive Step : Option MerchantOnboarding → Option MerchantOnboarding → Prop
  | stay (o : Option MerchantOnboarding) : Step o o
  | create {r : MerchantOnboarding} (hstatus : r.status = .draft) : Step none (some r)
  | edit {r r' : MerchantOnboarding} (hfree : ¬ r.status.UnderReview) (hstatus : r'.status = r.status) :
      Step (some r) (some r')
  | move {r r' : MerchantOnboarding} (hmove : canTransition r.status r'.status = true) (hanswers : r'.answers = r.answers)
      (hcomplete : r'.status = .submitted → r.toKycFields.Complete) : Step (some r) (some r')

/-- An application under review is complete. -/
def Sound (o : Option MerchantOnboarding) : Prop := ∀ r ∈ o, r.status.UnderReview → r.toKycFields.Complete

variable {o o' : Option MerchantOnboarding} {r r' : MerchantOnboarding}

/-- No transition leaves an approval. -/
theorem canTransition_approved (target : OnboardingStatus) : canTransition .approved target = false := by
  cases target <;> rfl

theorem eq_submitted_of_canTransition {source : OnboardingStatus} (h : canTransition source .approved = true) :
    source = .submitted := by
  cases source <;> first | rfl | cases h

/-- Approval is final, and the answers with it. -/
theorem Step.approved (h : Step (some r) o') (hr : r.status = .approved) : o' = some r := by
  cases h with
  | stay => rfl
  | edit hfree _ => exact absurd (.inr hr) hfree
  | move hmove _ _ =>
      rw [hr, canTransition_approved] at hmove
      cases hmove

/-- An application is under review because it was, with the same answers, or because it has just been submitted. -/
theorem Step.underReview (h : Step o (some r')) (hr' : r'.status.UnderReview) :
    ∃ r, o = some r ∧ r.answers = r'.answers ∧
      (r.status.UnderReview ∨
        canTransition r.status .submitted = true ∧ r'.status = .submitted ∧ r.toKycFields.Complete) := by
  cases h with
  | stay => exact ⟨r', rfl, rfl, .inl hr'⟩
  | create hstatus => rw [hstatus] at hr'; exact absurd hr' (by decide)
  | edit hfree hstatus => exact absurd (hstatus ▸ hr') hfree
  | @move r _ hmove hanswers hcomplete =>
      refine ⟨r, rfl, hanswers.symm, ?_⟩
      rcases hr' with hsubmitted | happroved
      · exact .inr ⟨hsubmitted ▸ hmove, hsubmitted, hcomplete hsubmitted⟩
      · exact .inl (.inl (eq_submitted_of_canTransition (happroved ▸ hmove)))

theorem Step.sound (h : Step o o') (ho : Sound o) : Sound o' := by
  rintro r' hr' hreview
  obtain rfl := Option.mem_def.mp hr'
  obtain ⟨r, rfl, hanswers, hcase⟩ := h.underReview hreview
  have hfields : r.toKycFields = r'.toKycFields := congrArg Prod.fst hanswers
  rcases hcase with hbefore | hnow
  · exact hfields ▸ ho r rfl hbefore
  · exact hfields ▸ hnow.2.2

end Lifecycle

end CorpoPay.Onboarding
