import CorpoPay.Settlement.Lemmas.Intents
import CorpoPay.Settlement.Lemmas.Requests

/-!
# What a request has read

Rows that were read stay known as far as the course of the run keeps what they showed.
-/

namespace CorpoPay.Settlement

open Transaction (Course Shared)
open Transaction.Job (Returns amid_bind amid_ofExcept_bind amid_ret amid_select returns_error)

/-! ## Look-ups -/

section Lookups

variable {C : Course Backend} {own : Shared Backend → Shared Backend → Prop} {σ : Shared Backend} {rt : Runtime}
  {R : PaymentIntent → Shared Backend → Prop}

/-- A row that was found is as `R` says. -/
def FoundAs {α : Type} (R : α → Shared Backend → Prop) (found : Option α) (σ : Shared Backend) : Prop :=
  ∀ row, found = some row → R row σ

variable (hR : ∀ row σ σ', C.Reach σ σ' → R row σ → R row σ')
  (hread : ∀ row (σ : Shared Backend), C.inv σ → row ∈ σ.store.paymentIntents → R row σ)

include hR hread

theorem amid_findIntent {G : Shared Backend → Shared Backend → Job (Option PaymentIntent) → Prop}
    (hG : ∀ σ r, G σ σ r) (provider : Provider) (value : Option Json)
    (selects : Json → Except Failure (PaymentIntent → Bool)) :
    (findIntent provider value selects).Amid C own G (fun _ _ => True) (Returns (FoundAs R)) σ := by
  unfold findIntent
  split
  · exact amid_ret fun _ _ _ h => by cases h
  · refine amid_ofExcept_bind (fun selected _ => ?_) fun e _ _ => returns_error e
    refine amid_select hG (fun found σ σ' hr h row hrow => hR row σ σ' hr (h row hrow)) fun σ' hr row hrow => ?_
    exact hread row σ' hr.2 (List.mem_of_find?_eq_some hrow)

theorem amid_findNotified {L : IntentWithLink → Shared Backend → Prop}
    {G : Shared Backend → Shared Backend → Job (Option IntentWithLink) → Prop} (hG : ∀ σ r, G σ σ r)
    (hL : ∀ row σ σ', C.Reach σ σ' → L row σ → L row σ')
    (hlink : ∀ row (σ : Shared Backend), C.inv σ → R row σ → L (σ.store.withLink row) σ) (hσ : C.inv σ)
    (event : WebhookNotification) :
    ((findNotified rt event).bind withPaymentLink).Amid C own G (fun _ _ => True) (Returns (FoundAs L)) σ := by
  refine amid_bind (R := FoundAs R) hσ (fun _ _ => trivial) ?_ (fun found σ' hr hfound _ => ?_)
    fun e _ _ => returns_error e
  · refine amid_ofExcept_bind (fun orderId _ => ?_) fun e _ _ => returns_error e
    refine amid_ofExcept_bind (fun correlationId _ => ?_) fun e _ _ => returns_error e
    refine amid_bind hσ (fun _ _ => trivial) (amid_findIntent hR hread (fun σ _ => hG σ _) _ _ _)
      (fun found σ₁ hr₁ hfound _ => ?_) fun e _ _ => returns_error e
    cases found with
    | some found => exact amid_ret fun σ₂ hr₂ row hrow => hR row σ₁ σ₂ hr₂ (hfound row hrow)
    | none =>
        refine amid_bind hr₁.2 (fun _ _ => trivial) (amid_findIntent hR hread (fun σ _ => hG σ _) _ _ _)
          (fun found σ₂ hr₂ hfound _ => ?_) fun e _ _ => returns_error e
        cases found with
        | some found => exact amid_ret fun σ₃ hr₃ row hrow => hR row σ₂ σ₃ hr₃ (hfound row hrow)
        | none =>
            dsimp only
            split
            · exact amid_ret fun _ _ _ h => by cases h
            · refine amid_select (fun σ _ => hG σ _) (fun found σ σ' hr h row hrow => hR row σ σ' hr (h row hrow))
                fun σ' hr row hrow => ?_
              exact hread row σ' hr.2 (mem_of_newestIntent hrow)
  · refine amid_select hG (fun found σ σ' hr h row hrow => hL row σ σ' hr (h row hrow)) fun σ₁ hr₁ row hrow => ?_
    obtain ⟨intent, rfl, rfl⟩ := Option.map_eq_some_iff.mp hrow
    exact hlink intent σ₁ hr₁.2 (hR intent σ' σ₁ hr₁ (hfound intent rfl))

theorem amid_findStripeIntent {G : Shared Backend → Shared Backend → Job (Option PaymentIntent) → Prop}
    (hG : ∀ σ r, G σ σ r) (hσ : C.inv σ) (obj : Json) :
    (findStripeIntent rt obj).Amid C own G (fun _ _ => True) (Returns (FoundAs R)) σ := by
  refine amid_ofExcept_bind (fun correlationId _ => ?_) fun e _ _ => returns_error e
  refine amid_ofExcept_bind (fun piId _ => ?_) fun e _ _ => returns_error e
  refine amid_bind hσ (fun _ _ => trivial) (amid_findIntent (G := fun σ τ r => G σ τ (r.bind _)) hR hread (fun σ _ => hG σ _) _ _ _)
    (fun found σ₁ hr₁ hfound _ => ?_) fun e _ _ => returns_error e
  cases found with
  | some found => exact amid_ret fun σ₂ hr₂ row hrow => hR row σ₁ σ₂ hr₂ (hfound row hrow)
  | none => exact amid_findIntent hR hread hG _ _ _

end Lookups

end CorpoPay.Settlement
