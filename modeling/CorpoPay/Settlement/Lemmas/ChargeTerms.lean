import CorpoPay.Settlement.Lemmas.Requests

/-!
# The terms of an intent stay

No request changes the link or the metadata of an intent, or the price of a link, so what an intent charges is settled
when it is created.
-/

namespace CorpoPay.Settlement

open Transaction.Job (Does Does.bind Does.retry Does.mono does_ret does_throw does_ofExcept does_transaction does_query)

/-- Of the intents only the status and the verdict change, and the links keep their prices. -/
structure KeepsTerms (v : Db → Db) : Prop where
  intents : ∃ f : PaymentIntent → PaymentIntent, (∀ db, (v db).paymentIntents = db.paymentIntents.map f) ∧
    ∀ r, f r = { r with status := (f r).status, riskVerdict := (f r).riskVerdict }
  prices : ∀ db id, ((v db).paymentLink id).map PaymentLink.price = (db.paymentLink id).map PaymentLink.price

section Terms

variable {rt : Runtime} {v : Db → Db}

theorem Touches.keepsTerms {P : Movement → Prop} (h : Touches P v) : KeepsTerms v := by
  obtain ⟨ms, f, hv, -, hf⟩ := h
  refine ⟨⟨f, hv.paymentIntents, fun r => ?_⟩, hv.prices⟩
  have hrisk : (f r).riskVerdict = r.riskVerdict := by rw [hf]
  rw [hrisk]
  exact hf r

theorem SetsStatus.keepsTerms {i : Id} (h : SetsStatus i v) : KeepsTerms v :=
  Touches.keepsTerms (P := fun _ => True) h.touches

/-- The charge of an intent is resolved from its terms. -/
theorem resolveIntentCharge_eq {db db' : Db} {r r' : PaymentIntent} (hlink : r'.paymentLinkId = r.paymentLinkId)
    (hmetadata : r'.metadata = r.metadata)
    (hprice : ∀ id, (db'.paymentLink id).map PaymentLink.price = (db.paymentLink id).map PaymentLink.price) :
    resolveIntentCharge rt (db'.withLink r') = resolveIntentCharge rt (db.withLink r) := by
  have hor : ∀ key fallback, r'.metadataOr key fallback = r.metadataOr key fallback := fun key fallback => by
    simp only [PaymentIntent.metadataOr, hmetadata]
  have hsame : (r'.paymentLinkId.bind db'.paymentLink).map PaymentLink.price =
      (r.paymentLinkId.bind db.paymentLink).map PaymentLink.price := by
    rw [hlink]
    cases r.paymentLinkId with
    | none => rfl
    | some id => exact hprice id
  simp only [resolveIntentCharge, Db.withLink, hor]
  generalize r'.paymentLinkId.bind db'.paymentLink = link' at hsame ⊢
  generalize r.paymentLinkId.bind db.paymentLink = link at hsame ⊢
  cases link' with
  | none =>
      cases link with
      | none => rfl
      | some link => cases hsame
  | some link' =>
      cases link with
      | none => cases hsame
      | some link =>
          obtain ⟨hamount, hcurrency⟩ := Prod.mk.inj (Option.some.inj hsame)
          simp only [hamount, hcurrency]

/-! ## Requests -/

theorem OnlyTouches.keepsTerms {α : Type} {P : Movement → Prop} {j : Job α} (h : OnlyTouches P j) :
    j.Does KeepsTerms fun _ => True := Does.mono h (fun _ hv => hv.keepsTerms) fun _ _ => trivial

theorem keepsTerms_discard {α : Type} {j : Job α} (h : j.Does KeepsTerms fun _ => True) :
    (discard j).Does KeepsTerms fun _ => True := h.bind fun _ => does_ret _

theorem notifies_keepsTerms : Notifies KeepsTerms fun _ => True where
  select f := (only_select (P := fun _ => True) f).keepsTerms
  setStatus id status := (only_setStatus (P := fun _ => True) id status).keepsTerms
  linkStatus id status := OnlyTouches.keepsTerms ((observes_touches (P := fun _ => True)).linkStatus id status)
  transactionUpdate id f := OnlyTouches.keepsTerms ((observes_touches (P := fun _ => True)).transactionUpdate id f)
  transactionCreate row := OnlyTouches.keepsTerms ((observes_touches (P := fun _ => True)).transactionCreate row)

theorem keepsTerms_notification (event : WebhookNotification) :
    (webhookProcessor rt event).Does KeepsTerms fun _ => True :=
  notifies_keepsTerms.webhookProcessor (fun _ _ charge => (only_settleCharge charge).keepsTerms)
    fun intent verified result => (only_posts (P := fun _ => True) (posts_storeNotification event intent verified result)).keepsTerms

theorem keepsTerms_stripeEvent (event : StripeEvent) :
    (stripeWebhookProcessor rt event).Does KeepsTerms fun _ => True :=
  notifies_keepsTerms.stripeWebhookProcessor (fun _ _ charge => (only_settleCharge charge).keepsTerms)
    fun _ _ _ => (only_posts (P := fun _ => True) (posts_webhookCreate _ _)).keepsTerms

theorem acts_keepsTerms (intentId : Id) : Acts KeepsTerms (fun _ => True) intentId where
  select f := (only_select (P := fun _ => True) f).keepsTerms
  lockAuthorized tenantId := (only_lockAuthorized (P := fun _ => True) _ tenantId).keepsTerms
  revertLock := (only_revertLock (P := fun _ => True) _).keepsTerms
  recordAction status := (only_recordAction (P := fun _ => True) _ status).keepsTerms

theorem keepsTerms_capture (intentId : Id) (tenantId : Option Id) :
    (captureIntent rt intentId tenantId).Does KeepsTerms fun _ => True :=
  (acts_keepsTerms intentId).captureIntent (fun _ charge => (only_settleCharge charge).keepsTerms) (fun _ => trivial) tenantId

theorem keepsTerms_verdict (id : Id) (verdict : RiskVerdict) :
    (transaction (PaymentIntent.update id fun r => { r with riskVerdict := some verdict })).Does KeepsTerms
      fun _ => True := by
  refine does_transaction ((commits_intentUpdate commits_nothing).mono fun v _ hv => ?_) (asks_intentUpdate _ _)
  refine ⟨⟨_, hv.paymentIntents, fun r => ?_⟩, hv.prices⟩
  simp only [Function.comp_apply, id_eq]
  split_ifs <;> rfl

theorem keepsTerms_resolve (id : Id) (resolution : Resolution) :
    (resolveRisk rt id resolution).Does KeepsTerms fun _ => True := by
  refine (only_select (P := fun _ => True) _).keepsTerms.bind fun found => ?_
  cases found with
  | none => exact does_throw _
  | some intent =>
      refine Does.bind ?_ fun _ => keepsTerms_verdict _ _
      unfold actOnHeld
      split_ifs
      · cases resolution with
        | allow => exact (keepsTerms_capture _ _).bind fun _ => does_ret _
        | block => exact (only_voidIntent (P := fun _ => True) _ _).keepsTerms.bind fun _ => does_ret _
      · exact does_ret _

theorem keepsTerms_request (request : Request) : (request.job rt).Does KeepsTerms fun _ => True := by
  cases request with
  | notification event => exact keepsTerms_discard (keepsTerms_notification event)
  | stripeEvent event => exact keepsTerms_discard (keepsTerms_stripeEvent event)
  | poll event rounds => exact (only_paymentPoller (P := fun _ => True) event rounds).keepsTerms
  | status tenantId id => exact keepsTerms_discard (only_intentStatus (P := fun _ => True) tenantId id).keepsTerms
  | capture intentId tenantId => exact keepsTerms_discard (keepsTerms_capture intentId tenantId)
  | void intentId tenantId => exact keepsTerms_discard (only_voidIntent (P := fun _ => True) intentId tenantId).keepsTerms
  | resolve id resolution => exact keepsTerms_discard (keepsTerms_resolve id resolution)
  | refund tenantId id => exact keepsTerms_discard (only_refundRoute id).keepsTerms

end Terms

end CorpoPay.Settlement
