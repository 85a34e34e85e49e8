import CorpoPay.Settlement.IntentActions
import CorpoPay.Settlement.Operations
import CorpoPay.Settlement.StripeWebhooks

/-!
# What happens to intents

The requests of merchants and admins, the notifications of providers and the poller, each one a job. A notification of
Stripe is a job of its own.
-/

namespace CorpoPay.Settlement

inductive Request
  | notification (event : WebhookNotification)
  | stripeEvent (event : StripeEvent)
  | poll (event : PollStatus) (rounds : Nat)
  | status (tenantId id : Id)
  | capture (intentId : Id) (tenantId : Option Id)
  | void (intentId : Id) (tenantId : Option Id)
  | resolve (id : Id) (resolution : Resolution)
  | refund (tenantId id : Id)
  deriving Repr

def Request.job (rt : Runtime) : Request → Job Unit
  | .notification event => discard (webhookProcessor rt event)
  | .stripeEvent event => discard (stripeWebhookProcessor rt event)
  | .poll event rounds => paymentPoller rt event rounds
  | .status tenantId id => discard (intentStatus rt tenantId id)
  | .capture intentId tenantId => discard (captureIntent rt intentId tenantId)
  | .void intentId tenantId => discard (voidIntent rt intentId tenantId)
  | .resolve id resolution => discard (resolveRisk rt id resolution)
  | .refund tenantId id => discard (refundRoute rt tenantId id)

end CorpoPay.Settlement
