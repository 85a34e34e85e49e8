import CorpoPay.Settlement.StripeWebhooks
import CorpoPay.Settlement.Webhooks
import CorpoPay.Transaction.Amid

/-!
# The statements of a notification

The jobs of the webhooks write through few statements. Whatever holds of what these commit and ask holds of the jobs.
-/

namespace CorpoPay.Settlement

open Transaction.Job (Does Does.bind Does.orElse Does.retry does_ret does_ofExcept)

/-- What the jobs write beside the ledger and the table of events, and what they look at. -/
structure Notifies (W : (Db → Db) → Prop) (A : Query → Prop) : Prop where
  select : ∀ {α : Type} (f : Db → α), (selectOnce f : Job α).Does W A
  setStatus : ∀ id status, (transaction (PaymentIntent.setStatus id status)).Does W A
  linkStatus : ∀ id status, (transaction (PaymentLink.setStatus id status)).Does W A
  transactionUpdate : ∀ id f, (transaction (ProviderTransaction.update id f)).Does W A
  transactionCreate : ∀ row, (transaction (ProviderTransaction.create row)).Does W A

/-- The statements that leave the intents as they are. -/
structure Observes (W : (Db → Db) → Prop) (A : Query → Prop) : Prop where
  select : ∀ {α : Type} (f : Db → α), (selectOnce f : Job α).Does W A
  linkStatus : ∀ id status, (transaction (PaymentLink.setStatus id status)).Does W A
  transactionUpdate : ∀ id f, (transaction (ProviderTransaction.update id f)).Does W A
  transactionCreate : ∀ row, (transaction (ProviderTransaction.create row)).Does W A

variable {W : (Db → Db) → Prop} {A : Query → Prop} {rt : Runtime} {event : WebhookNotification}

/-! ## Beside the status -/

namespace Observes

section Statements

variable (h : Observes W A)

include h

theorem findIntent (provider : Provider) (value : Option Json) (selects : Json → Except Failure (PaymentIntent → Bool)) :
    (findIntent provider value selects).Does W A := by
  unfold Settlement.findIntent
  split
  · exact does_ret _
  · exact (does_ofExcept _).bind fun _ => h.select _

theorem findNotified (event : WebhookNotification) : ((findNotified rt event).bind withPaymentLink).Does W A := by
  refine Does.bind ?_ fun _ => h.select _
  refine (does_ofExcept _).bind fun orderId => (does_ofExcept _).bind fun correlationId =>
    (h.findIntent _ _ _).bind fun found => ?_
  cases found with
  | some found => exact does_ret _
  | none =>
      refine (h.findIntent _ _ _).bind fun found => ?_
      cases found with
      | some found => exact does_ret _
      | none =>
          dsimp only
          split
          · exact does_ret _
          · exact h.select _

theorem verifySignature (event : WebhookNotification) (tenantId : Option Id) :
    (verifySignature rt event tenantId).Does W A := by
  cases tenantId with
  | none => exact does_ret _
  | some tenantId =>
      refine (h.select _).bind fun config => ?_
      cases config with
      | none => exact does_ret _
      | some config => exact does_ret _

theorem recordTransaction (intentId : Id) (providerTransactionId : Option Json) :
    (recordTransaction intentId providerTransactionId).Does W A := by
  unfold Settlement.recordTransaction
  split
  · exact does_ret _
  · refine (h.select _).bind fun existing => ?_
    cases existing with
    | none => exact does_ret _
    | some existing => exact (does_ofExcept _).bind fun _ => h.transactionUpdate _ _

theorem markNotifiedLinkPaid (intent : IntentWithLink) (internalStatus : Json) :
    (markNotifiedLinkPaid intent internalStatus).Does W A := by
  unfold Settlement.markNotifiedLinkPaid
  split
  · exact does_ret _
  · split_ifs
    · exact h.linkStatus _ _
    · exact does_ret _

theorem findStripeIntent (obj : Json) : (findStripeIntent rt obj).Does W A := by
  refine (does_ofExcept _).bind fun _ => (does_ofExcept _).bind fun _ => (h.findIntent _ _ _).bind fun found => ?_
  cases found with
  | some found => exact does_ret _
  | none => exact h.findIntent _ _ _

theorem upsertProviderTransaction (intentId : Id) (providerTransactionId : Option Json) :
    (upsertProviderTransaction intentId providerTransactionId).Does W A := by
  refine (h.select _).bind fun existing => ?_
  dsimp only
  split
  · exact (does_ofExcept _).bind fun _ => h.transactionUpdate _ _
  · exact h.transactionUpdate _ _
  · exact (does_ofExcept _).bind fun _ => (h.transactionCreate _).bind fun _ => does_ret _

theorem markLinkPaid (intent : PaymentIntent) (newStatus : PaymentIntentStatus) :
    (markLinkPaid intent newStatus).Does W A := by
  unfold Settlement.markLinkPaid
  split
  · exact does_ret _
  · split_ifs
    · exact (h.linkStatus _ _).retry _
    · exact does_ret _

theorem updateNotified {intent : IntentWithLink} {providerStatus : Json}
    (hwrite : ∀ internalStatus, (writeStatus intent internalStatus).Does W A) :
    (updateNotified rt event intent providerStatus).Does W A := by
  refine (h.select _).bind fun config => ?_
  cases config with
  | none => exact does_ret _
  | some config =>
      refine Does.orElse ((does_ofExcept _).bind fun internalStatus => ?_) fun _ => does_ret _
      refine Does.bind ((does_ofExcept _).bind fun _ => ?_) fun _ => does_ret _
      exact (hwrite _).bind fun _ => (h.recordTransaction _ _).bind fun _ => h.markNotifiedLinkPaid _ _

theorem updateStripeStatus {intentId : Id} {newStatus : PaymentIntentStatus}
    (hset : ∀ status, (transaction (PaymentIntent.setStatus intentId status)).Does W A) :
    (updateStripeStatus intentId newStatus).Does W A := by
  refine (h.select _).bind fun current => ?_
  cases current with
  | none => exact does_ret _
  | some current =>
      dsimp only
      split_ifs
      · exact does_ret _
      · exact (hset _).bind fun _ => does_ret _

omit h in
theorem settleNotified {intent : Option IntentWithLink} {result : WebhookResult}
    (hsettle : ∀ found ∈ intent, ∀ charge, (settleCharge found.tenantId found.id charge).Does W A) :
    (settleNotified rt intent result).Does W A := by
  cases intent with
  | none => exact does_ret _
  | some intent =>
      unfold Settlement.settleNotified
      dsimp only
      split_ifs
      · exact (hsettle intent rfl _).retry _
      · exact does_ret _

theorem settleStripe {intent : PaymentIntent} (hsettle : ∀ charge, (settleCharge intent.tenantId intent.id charge).Does W A) :
    (settleStripe rt intent).Does W A := by
  refine (h.select _).bind fun found => ?_
  cases found with
  | none => exact does_ret _
  | some withAmount => exact hsettle _

theorem settleUpdated {intent : PaymentIntent} {updated : Option PaymentIntentStatus}
    (hsettle : updated = some .succeeded → ∀ charge, (settleCharge intent.tenantId intent.id charge).Does W A) :
    (settleUpdated rt intent updated).Does W A := by
  unfold Settlement.settleUpdated
  split_ifs with hupdated
  · exact (h.settleStripe (hsettle hupdated)).retry _
  · exact does_ret _

theorem finishStripeEvent {event : StripeEvent} {intent : PaymentIntent} {newStatus : PaymentIntentStatus}
    {providerTransactionId : Option Json} {updated : Option PaymentIntentStatus}
    (hsettle : updated = some .succeeded → ∀ charge, (settleCharge intent.tenantId intent.id charge).Does W A)
    (hstore : ∀ processed, (storeStripeEvent event intent newStatus processed).Does W A) :
    (finishStripeEvent rt event intent newStatus providerTransactionId updated).Does W A :=
  (h.settleUpdated hsettle).bind fun _ => ((h.upsertProviderTransaction _ _).retry _).bind fun _ =>
    (h.markLinkPaid _ _).bind fun _ => ((hstore _).retry _).bind fun _ => does_ret _

end Statements

end Observes

/-! ## The jobs -/

namespace Notifies

section Statements

variable (h : Notifies W A)

include h

theorem observes : Observes W A := ⟨h.select, h.linkStatus, h.transactionUpdate, h.transactionCreate⟩

theorem writeStatus (intent : IntentWithLink) (internalStatus : Json) : (writeStatus intent internalStatus).Does W A := by
  unfold Settlement.writeStatus
  split_ifs
  · exact does_ret _
  · exact (does_ofExcept _).bind fun _ => (h.setStatus _ _).bind fun _ => does_ret _

theorem updateNotified (event : WebhookNotification) (intent : IntentWithLink) (providerStatus : Json) :
    (updateNotified rt event intent providerStatus).Does W A := h.observes.updateNotified (h.writeStatus intent)

theorem processStatus (event : WebhookNotification) (intent : Option IntentWithLink) (providerStatus : Option Json) :
    (processStatus rt event intent providerStatus).Does W A := by
  unfold Settlement.processStatus
  split
  · exact (h.updateNotified _ _ _).retry _
  · exact does_ret _

theorem updateStripeStatus (intentId : Id) (newStatus : PaymentIntentStatus) :
    (updateStripeStatus intentId newStatus).Does W A := h.observes.updateStripeStatus (h.setStatus intentId)

theorem webhookProcessor (hsettle : ∀ t i charge, (settleCharge t i charge).Does W A)
    (hstore : ∀ intent verified result, (storeNotification event intent verified result).Does W A) :
    (webhookProcessor rt event).Does W A := by
  refine ((h.observes.findNotified event).retry _).bind fun intent =>
    ((h.observes.verifySignature event _).retry _).bind fun _ => ?_
  refine (does_ofExcept _).bind fun providerStatus => (h.processStatus event intent providerStatus).bind fun result => ?_
  exact (Observes.settleNotified fun _ _ => hsettle _ _).bind fun _ => ((hstore _ _ _).retry _).bind fun _ => does_ret _

theorem stripeWebhookProcessor {event : StripeEvent} (hsettle : ∀ t i charge, (settleCharge t i charge).Does W A)
    (hstore : ∀ intent newStatus processed, (storeStripeEvent event intent newStatus processed).Does W A) :
    (stripeWebhookProcessor rt event).Does W A := by
  refine (does_ofExcept _).bind fun eventType => (does_ofExcept _).bind fun obj =>
    ((h.observes.findStripeIntent obj).retry _).bind fun found => ?_
  cases found with
  | none => exact does_ret _
  | some intent =>
      dsimp only
      unfold routeStripeEvent
      split
      · exact does_ret _
      · exact (does_ofExcept _).bind fun _ => ((h.updateStripeStatus intent.id _).retry _).bind fun _ =>
          h.observes.finishStripeEvent (fun _ => hsettle _ _) fun _ => hstore _ _ _

end Statements

end Notifies

end CorpoPay.Settlement
