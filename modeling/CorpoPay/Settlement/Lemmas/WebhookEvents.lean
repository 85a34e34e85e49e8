import CorpoPay.Settlement.Lemmas.Notifications
import CorpoPay.Settlement.WebhookIntake
import CorpoPay.Transaction.Commits

/-!
# Who stores events

The job of a webhook stores rows with the key of its event only, and a route stores none.
-/

namespace CorpoPay.Settlement

open Transaction.Tx
open Transaction.Job (Does Does.bind does_ret does_throw does_get does_ofExcept does_transaction)

/-! ## Statements that leave the events -/

theorem leaves_create (m : Movement) (postingId : Id) (balanceAfter : Int) :
    (LedgerEntry.create m postingId balanceAfter).Leaves Db.webhookEvents := by
  refine leaves_bind (leaves_query _) fun _ => leaves_bind (leaves_query _) fun _ => ?_
  refine leaves_bind (leaves_get _) fun idTaken => leaves_bind (leaves_get _) fun partyMissing => ?_
  split_ifs
  · exact leaves_throw _
  · exact leaves_throw _
  · exact leaves_bind (leaves_modify fun _ => rfl) fun _ => leaves_ret _

variable {t i : Id}

theorem leaves_post (d c : LedgerLeg) (source : Meta) : (post t d c source).Leaves Db.webhookEvents := by
  refine leaves_bind (leaves_lift _) fun p => leaves_bind ?_ fun _ => leaves_ret _
  refine leaves_bind (leaves_lift _) fun p' => leaves_bind (leaves_query _) fun postingId => ?_
  refine leaves_bind (leaves_acquire _) fun _ => leaves_bind (leaves_get _) fun _ => leaves_bind (leaves_get _) fun _ => ?_
  exact leaves_bind (leaves_create _ _ _) fun _ => leaves_bind (leaves_create _ _ _) fun _ => leaves_ret _

theorem leaves_postPositive (amount : Int) (d c : LedgerLeg) (source : Meta) :
    (postPositive t amount d c source).Leaves Db.webhookEvents := leaves_when (leaves_post _ _ _)

theorem leaves_splitCreate (row : Id → Split) : (Split.create row).Leaves Db.webhookEvents := by
  refine leaves_bind (leaves_query _) fun _ => leaves_bind (leaves_get _) fun taken => ?_
  split_ifs
  · exact leaves_throw _
  · exact leaves_bind (leaves_modify fun _ => rfl) fun _ => leaves_ret _

theorem leaves_executeSplit (input : ExecuteSplitInput) (trigger : SplitTrigger) (shares : List ShareSpec) :
    (executeSplitInTx t input trigger shares).Leaves Db.webhookEvents := by
  refine leaves_bind (leaves_lift _) fun result => leaves_bind (leaves_collect (fun _ => ?_) _) fun _ =>
    leaves_bind (leaves_when (leaves_post _ _ _)) fun _ => leaves_ret _
  exact leaves_bind (leaves_post _ _ _) fun _ => leaves_splitCreate _

theorem leaves_bookCapture (input : SettleCaptureInput) (rule : Option SplitRule) (plan : CaptureSettlementPlan) :
    (bookCapture t input rule plan).Leaves Db.webhookEvents := by
  have hpositive := @leaves_postPositive t
  refine leaves_bind (leaves_post _ _ _) fun _ => ?_
  cases rule with
  | none =>
      exact leaves_bind (hpositive _ _ _ _) fun _ => leaves_bind (hpositive _ _ _ _) fun _ =>
        leaves_bind (hpositive _ _ _ _) fun _ => leaves_bind (leaves_when (hpositive _ _ _ _)) fun _ => leaves_ret _
  | some rule =>
      exact leaves_bind (leaves_executeSplit _ _ _) fun _ => leaves_bind (hpositive _ _ _ _) fun _ =>
        leaves_bind (hpositive _ _ _ _) fun _ => leaves_bind (hpositive _ _ _ _) fun _ =>
        leaves_bind (leaves_when (hpositive _ _ _ _)) fun _ => leaves_ret _

theorem leaves_settleCapture (input : SettleCaptureInput) : (settleCaptureInTx t input).Leaves Db.webhookEvents := by
  refine leaves_bind (leaves_get _) fun _ => leaves_bind (leaves_get _) fun _ => leaves_bind (leaves_get _) fun _ => ?_
  dsimp only
  split_ifs
  · exact leaves_bind (leaves_get _) fun _ => leaves_bind (leaves_lift _) fun _ => leaves_bind (leaves_lift _) fun _ =>
      leaves_bookCapture _ _ _
  · exact leaves_bind (leaves_ret _) fun _ => leaves_bind (leaves_lift _) fun _ => leaves_bind (leaves_lift _) fun _ =>
      leaves_bookCapture _ _ _

theorem leaves_intentUpdate (f : PaymentIntent → PaymentIntent) : (PaymentIntent.update i f).Leaves Db.webhookEvents := by
  refine leaves_bind (leaves_acquire _) fun _ => leaves_bind (leaves_get _) fun row => ?_
  cases row with
  | none => exact leaves_throw _
  | some row => exact leaves_bind (leaves_modify fun _ => rfl) fun _ => leaves_ret _

theorem leaves_linkStatus (status : PaymentLinkStatus) : (PaymentLink.setStatus i status).Leaves Db.webhookEvents := by
  refine leaves_bind (leaves_acquire _) fun _ => leaves_bind (leaves_get _) fun row => ?_
  cases row with
  | none => exact leaves_throw _
  | some row => exact leaves_modify fun _ => rfl

theorem leaves_transactionCreate (row : Id → ProviderTransaction) :
    (ProviderTransaction.create row).Leaves Db.webhookEvents := by
  refine leaves_bind (leaves_query _) fun _ => leaves_bind (leaves_get _) fun taken => ?_
  split_ifs
  · exact leaves_throw _
  · exact leaves_bind (leaves_modify fun _ => rfl) fun _ => leaves_ret _

theorem leaves_transactionUpdate (f : ProviderTransaction → ProviderTransaction) :
    (ProviderTransaction.update i f).Leaves Db.webhookEvents := by
  refine leaves_bind (leaves_acquire _) fun _ => leaves_bind (leaves_get _) fun row => ?_
  cases row with
  | none => exact leaves_throw _
  | some row => exact leaves_modify fun _ => rfl

/-! ## What the jobs store -/

/-- Rows with `P` are added to the events. -/
def Stores (P : WebhookEvent → Prop) (v : Db → Db) : Prop :=
  ∀ db, ∃ new, (v db).webhookEvents = db.webhookEvents ++ new ∧ ∀ row ∈ new, P row

/-- The events stay, and others may follow. -/
def EventsGrow (db db' : Db) : Prop := db.webhookEvents <+: db'.webhookEvents

instance : IsPreorder Db EventsGrow where
  refl := fun _ => List.prefix_rfl
  trans := fun _ _ _ h h' => h.trans h'

section Jobs

variable {α : Type} {P P' : WebhookEvent → Prop} {v : Db → Db} {rt : Runtime}

theorem Stores.grow (h : Stores P v) (db : Db) : EventsGrow db (v db) := by
  obtain ⟨new, heq, -⟩ := h db
  exact ⟨new, heq.symm⟩

theorem Stores.mono (h : Stores P v) (hP : ∀ row, P row → P' row) : Stores P' v := by
  intro db
  obtain ⟨new, heq, hnew⟩ := h db
  exact ⟨new, heq, fun row hrow => hP row (hnew row hrow)⟩

theorem stores_of_same (h : ∀ db, (v db).webhookEvents = db.webhookEvents) : Stores P v :=
  fun db => ⟨[], (h db).trans (List.append_nil _).symm, fun _ hrow => absurd hrow List.not_mem_nil⟩

theorem stores_of_leaves {body : Tx α} (h : body.Leaves Db.webhookEvents) :
    (transaction body).Does (Stores P) fun _ => True :=
  does_transaction (h.writes.mono fun _ _ hv => stores_of_same hv) (Asks.of_forall fun _ => trivial)

theorem stores_select (f : Db → α) : (selectOnce f : Job α).Does (Stores P) fun _ => True :=
  does_get (stores_of_same fun _ => rfl) f

theorem notifies_stores : Notifies (Stores P) fun _ => True where
  select := stores_select
  setStatus _ _ := stores_of_leaves (leaves_intentUpdate _)
  linkStatus _ _ := stores_of_leaves (leaves_linkStatus _)
  transactionUpdate _ _ := stores_of_leaves (leaves_transactionUpdate _)
  transactionCreate _ := stores_of_leaves (leaves_transactionCreate _)

theorem stores_settleCharge (charge : Charge) : (settleCharge t i charge).Does (Stores P) fun _ => True := by
  have hcapture : ∀ input, (settleCapture t input).Does (Stores P) fun _ => True := by
    intro input
    unfold settleCapture
    split_ifs
    · exact does_ret _
    · refine stores_of_leaves (leaves_bind (leaves_get _) fun settled => ?_)
      cases settled
      · exact leaves_settleCapture _
      · exact leaves_ret _
  have hrefuse : (refuseSettlement t i).Does (Stores P) fun _ => True := by
    refine stores_of_leaves (leaves_bind (leaves_get _) fun settled => ?_)
    cases settled
    · exact leaves_throw _
    · exact leaves_ret _
  unfold settleCharge
  split
  · exact hcapture _
  · split_ifs
    · exact does_ret _
    · exact hrefuse
  · exact hrefuse

theorem stores_create {key : String} {row : Id → WebhookEvent} (hrow : ∀ id, P (row id)) :
    (transaction (WebhookEvent.create key row)).Does (Stores P) fun _ => True := by
  refine does_transaction ?_ (Asks.of_forall fun _ => trivial)
  simp only [WebhookEvent.create, bind_eq, pure_eq, writes_bind, writes_acquire, writes_get]
  intro id s
  refine writes_ite _ (fun _ => trivial) fun _ db => ⟨[row id], rfl, fun r hr => ?_⟩
  obtain rfl := List.mem_singleton.mp hr
  exact hrow id

/-- The rows of a job have the key of its event. -/
theorem stores_job (event : QueuedWebhook) :
    (event.job rt).Does (Stores (·.idempotencyKey = some event.idempotencyKey)) fun _ => True := by
  cases event with
  | process event =>
      refine (notifies_stores.webhookProcessor (fun _ _ charge => stores_settleCharge charge) fun _ _ _ => ?_).bind
        fun _ => does_ret _
      exact (does_ofExcept _).bind fun _ => stores_create fun _ => rfl
  | stripeProcess event =>
      exact (notifies_stores.stripeWebhookProcessor (fun _ _ charge => stores_settleCharge charge)
        fun _ _ _ => stores_create fun _ => rfl).bind fun _ => does_ret _

end Jobs

end CorpoPay.Settlement
