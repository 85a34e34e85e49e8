import CorpoPay.Settlement.Lemmas.Bypasses
import CorpoPay.Transaction.Abiding

/-!
# Requests on a paid intent

A request that begins when an intent is SUCCEEDED or REFUNDED leaves it so: it looks at the status before it writes one,
or its lock finds no row. The exception is an event of Stripe, which looks for intents of Stripe only.
-/

namespace CorpoPay.Settlement

open Transaction.Tx
open Transaction (Enters Job.Abides.bind Job.Follows.bind Job.Follows.get Job.Follows.mono Job.Follows.ofExcept
  Job.Follows.orElse Job.Follows.query Job.Follows.retry Job.Follows.transaction)
open Transaction.Job (Does Does.bind Does.mono Does.orElse Does.retry does_ofExcept does_query does_ret does_throw
  does_transaction)

/-! ## Paid intents -/

/-- The intent is SUCCEEDED or REFUNDED. -/
def Db.WasPaid (db : Db) (id : Id) : Prop := db.statusOf id = some .succeeded ∨ db.statusOf id = some .refunded

instance (db : Db) (id : Id) : Decidable (db.WasPaid id) := by unfold Db.WasPaid; infer_instance

/-- The intents with their providers, which no request changes. -/
def Db.intentRows (db : Db) : List (Id × Provider) := db.paymentIntents.map fun r => (r.id, r.provider)

def OnRows (rows : List (Id × Provider)) (db : Db) : Prop := db.intentRows = rows

def PaidOn (rows : List (Id × Provider)) (id : Id) (db : Db) : Prop := db.intentRows = rows ∧ db.WasPaid id

instance (rows : List (Id × Provider)) (id : Id) : DecidablePred (PaidOn rows id) := fun _ => instDecidableAnd

/-- The writes leave the rows and the status of the intent. -/
def KeepsStatus (id : Id) (v : Db → Db) : Prop :=
  ∀ db, (v db).intentRows = db.intentRows ∧ (v db).statusOf id = db.statusOf id

section Writes

variable {rows : List (Id × Provider)} {id i : Id} {P : Movement → Prop} {ms : List Movement}
  {f : PaymentIntent → PaymentIntent} {v : Db → Db} {db : Db}

theorem Commits.intentRows (h : Commits ms f v) (hf : ∀ r, (f r).id = r.id ∧ (f r).provider = r.provider) (db : Db) :
    (v db).intentRows = db.intentRows := by
  rw [Db.intentRows, h.paymentIntents, List.map_map]
  exact List.map_congr_left fun r _ => Prod.ext (hf r).1 (hf r).2

theorem Commits.keepsStatus (h : Commits ms f v) (hf : ∀ r, (f r).id = r.id ∧ (f r).provider = r.provider)
    (hstatus : ∀ r, r.id = id → (f r).status = r.status) : KeepsStatus id v := by
  refine fun db => ⟨h.intentRows hf db, ?_⟩
  rw [h.statusOf fun r => (hf r).1, Db.statusOf]
  cases hrow : db.paymentIntent id with
  | none => rfl
  | some r => exact congrArg some (hstatus r (by simpa using List.find?_some hrow))

theorem Posts.keepsStatus (h : Posts P v) : KeepsStatus id v := by
  obtain ⟨ms, hv, -⟩ := h
  exact hv.keepsStatus (fun _ => ⟨rfl, rfl⟩) fun _ _ => rfl

theorem keepsStatus_setStatus {status : PaymentIntentStatus} (hi : i ≠ id)
    (h : Commits [] (fun r => if r.id = i then { r with status } else r) v) : KeepsStatus id v := by
  refine h.keepsStatus (fun r => by split_ifs <;> exact ⟨rfl, rfl⟩) fun r hr => ?_
  rw [if_neg fun hri => hi (hri.symm.trans hr)]

theorem KeepsStatus.wasPaid (h : KeepsStatus id v) : (v db).WasPaid id ↔ db.WasPaid id := by
  rw [Db.WasPaid, Db.WasPaid, (h db).2]

theorem KeepsStatus.paidOn (h : KeepsStatus id v) : PaidOn rows id (v db) ↔ PaidOn rows id db := by
  rw [PaidOn, PaidOn, (h db).1, h.wasPaid]

theorem KeepsStatus.not_enters (h : KeepsStatus id v) : ¬ Enters (I := Backend) (OnRows rows) (PaidOn rows id) v :=
  fun ⟨_, _, hnot, hpaid⟩ => hnot (h.paidOn.mp hpaid)

theorem not_enters_of (h : Commits ms f v) (hid : ∀ r, (f r).id = r.id)
    (hstatus : ∀ r, r.id = id → (f r).status = .succeeded ∨ (f r).status = .refunded →
      r.status = .succeeded ∨ r.status = .refunded) : ¬ Enters (I := Backend) (OnRows rows) (PaidOn rows id) v := by
  rintro ⟨db, hdb, hnot, -, hpaid⟩
  refine hnot ⟨hdb, ?_⟩
  rw [Db.WasPaid, h.statusOf hid] at hpaid
  rw [Db.WasPaid, Db.statusOf]
  cases hrow : db.paymentIntent id with
  | none => rw [hrow] at hpaid; rcases hpaid with hpaid | hpaid <;> cases hpaid
  | some r =>
      rw [hrow] at hpaid
      exact (hstatus r (by simpa using List.find?_some hrow) (hpaid.imp Option.some.inj Option.some.inj)).imp
        (congrArg some) (congrArg some)

/-- Only a status of a paid intent leads there. -/
theorem paid_of_enters {status : PaymentIntentStatus}
    (h : Commits [] (fun r => if r.id = i then { r with status } else r) v)
    (henters : Enters (I := Backend) (OnRows rows) (PaidOn rows id) v) : status = .succeeded ∨ status = .refunded := by
  by_contra hstatus
  refine not_enters_of h (fun r => by split_ifs <;> rfl) (fun r _ hr => ?_) henters
  split_ifs at hr
  · exact absurd hr hstatus
  · exact hr

/-- A paid intent that is set to such a status stays paid. -/
theorem PaidOn.sets {status : PaymentIntentStatus} (hdb : PaidOn rows id db)
    (h : Commits [] (fun r => if r.id = i then { r with status } else r) v)
    (hstatus : status = .succeeded ∨ status = .refunded) : PaidOn rows id (v db) := by
  refine ⟨(h.intentRows (fun r => by split_ifs <;> exact ⟨rfl, rfl⟩) db).trans hdb.1, ?_⟩
  have hpaid := hdb.2
  rw [Db.WasPaid, Db.statusOf] at hpaid
  rw [Db.WasPaid, h.statusOf fun r => by split_ifs <;> rfl]
  cases hrow : db.paymentIntent id with
  | none => rw [hrow] at hpaid; rcases hpaid with hpaid | hpaid <;> cases hpaid
  | some r =>
      rw [hrow] at hpaid
      show some _ = _ ∨ some _ = _
      dsimp only
      split_ifs
      · exact hstatus.imp (congrArg some) (congrArg some)
      · exact hpaid

end Writes

/-! ## Quiet jobs -/

/-- Jobs under `J` and `C` may write what keeps the status of the intent. -/
structure Calm {α : Type} (rows : List (Id × Provider)) (id : Id) (J : Db → Prop) (C : (Db → Db) → Job α → Prop) : Prop where
  rows : ∀ db, J db → db.intentRows = rows
  keeps : ∀ v, KeepsStatus id v → ∀ db, J db → J (v db)
  commits : ∀ v r, KeepsStatus id v → C v r

/-- The job leaves the status of the intent. -/
abbrev Quiet {α : Type} (id : Id) (j : Job α) : Prop := j.Does (KeepsStatus id) fun _ => True

section Calm

variable {α β : Type} {rows : List (Id × Provider)} {id : Id} {J : Db → Prop} {rt : Runtime} {P : Movement → Prop}
  {C : (Db → Db) → Job α → Prop}

theorem Calm.of_rest (h : Calm rows id J C) {C' : (Db → Db) → Job β → Prop} (hC : ∀ v r, KeepsStatus id v → C' v r) :
    Calm rows id J C' := ⟨h.rows, h.keeps, hC⟩

theorem Quiet.follows {j : Job α} (h : Quiet id j) (hcalm : Calm rows id J C) : j.Follows J C fun _ => True :=
  Does.follows h hcalm.keeps fun v r hv _ => hcalm.commits v r hv

theorem quiet_posts {j : Job α} (h : j.Does (Posts P) (Query.isCapture · = false)) : Quiet id j :=
  Does.mono h (fun _ hv => hv.keepsStatus) fun _ _ => trivial

theorem observes_quiet : Observes (KeepsStatus id) fun _ => True where
  select f := quiet_posts ((observes_posts (P := fun _ => True)).select f)
  linkStatus i status := quiet_posts ((observes_posts (P := fun _ => True)).linkStatus i status)
  transactionUpdate i f := quiet_posts ((observes_posts (P := fun _ => True)).transactionUpdate i f)
  transactionCreate row := quiet_posts ((observes_posts (P := fun _ => True)).transactionCreate row)

theorem calm_paid : Calm rows id (PaidOn rows id) fun (_ : Db → Db) (_ : Job α) => True :=
  ⟨fun _ hdb => hdb.1, fun _ hv _ hdb => hv.paidOn.mpr hdb, fun _ _ _ => trivial⟩

/-- After a commit that makes the intent paid, what is left of the job leaves its status. -/
abbrev Concludes {α : Type} (rows : List (Id × Provider)) (id : Id) (j : Job α) : Prop :=
  j.Enters (OnRows rows) (PaidOn rows id) (Quiet id) fun _ => True

theorem calm_rows {G : Job α → Prop} : Calm rows id (OnRows rows) fun v rest =>
    Enters (I := Backend) (OnRows rows) (PaidOn rows id) v → G rest :=
  ⟨fun _ hdb => hdb, fun _ hv db hdb => ((hv db).1).trans hdb, fun _ _ hv henters => absurd henters hv.not_enters⟩

theorem Quiet.concludes {j : Job α} (h : Quiet id j) : Concludes rows id j := h.follows calm_rows

theorem Quiet.abides {j : Job α} (h : Quiet id j) : j.Abides (PaidOn rows id) fun _ => True := h.follows calm_paid

theorem Quiet.bind_follows {C : (Db → Db) → Job β → Prop} {Q : β → Prop} {j : Job α} {f : α → Job β} (h : Quiet id j)
    (hcalm : Calm rows id J C) (hf : ∀ a, (f a).Follows J C Q) : (j.bind f).Follows J C Q :=
  Job.Follows.bind (Job.Follows.mono (h.follows (hcalm.of_rest fun v r hv => hcalm.commits v (r.bind f) hv)) (fun _ _ h => h)
    fun a _ => hf a)

theorem Quiet.bind_concludes {j : Job α} {f : α → Job β} (h : Quiet id j) (hf : ∀ a, Concludes rows id (f a)) :
    Concludes rows id (j.bind f) := h.bind_follows calm_rows hf

theorem Concludes.bind {j : Job α} {f : α → Job β} (h : Concludes rows id j) (hf : ∀ a, Quiet id (f a)) :
    Concludes rows id (j.bind f) :=
  Job.Follows.bind (h.mono (fun _ _ hr henters => (hr henters).bind hf) fun a _ => (hf a).concludes)

theorem concludes_ofExcept {r : Except Failure α} {f : α → Job β} (hf : ∀ a, r = .ok a → Concludes rows id (f a)) :
    Concludes rows id ((Transaction.Job.ofExcept r).bind f) := Job.Follows.bind (Job.Follows.ofExcept hf)

theorem quiet_discard {j : Job α} (h : Quiet id j) : Quiet id (discard j) := h.bind fun _ => does_ret _

theorem quiet_setStatus {i : Id} (hi : i ≠ id) (status : PaymentIntentStatus) :
    Quiet id (transaction (PaymentIntent.setStatus i status)) :=
  does_transaction ((commits_intentUpdate commits_nothing).mono fun _ _ hv => keepsStatus_setStatus hi hv)
    (asks_intentUpdate _ _)

/-- A transaction that sets a status ends with it. -/
theorem follows_sets {C : (Db → Db) → Job α → Prop} {body : Tx α} {i : Id} {status : PaymentIntentStatus}
    (hwrites : body.Writes (fun v _ => Commits [] (fun r => if r.id = i then { r with status } else r) v) fun db : Db => db)
    (hC : ∀ v b, Commits [] (fun r => if r.id = i then { r with status } else r) v → C v (.ret b)) :
    (transaction body).Follows (OnRows rows) C fun _ => True := by
  refine Job.Follows.transaction (hwrites.mono fun v b hv => ⟨fun db hdb => ?_, hC v b hv, trivial⟩).passes
  exact (hv.intentRows (fun r => by split_ifs <;> exact ⟨rfl, rfl⟩) db).trans hdb

theorem concludes_sets {body : Tx α} {i : Id} {status : PaymentIntentStatus}
    (hwrites : body.Writes (fun v _ => Commits [] (fun r => if r.id = i then { r with status } else r) v) fun db : Db => db) :
    Concludes rows id (transaction body) := follows_sets hwrites fun _ _ _ _ => does_ret _

/-! ## Look-ups -/

theorem Calm.select (h : Calm rows id J C) {Q : α → Prop} {f : Db → α} (hQ : ∀ db, J db → Q (f db)) :
    (selectOnce f : Job _).Follows J C Q :=
  Job.Follows.get (fun r => h.commits _ r fun _ => ⟨rfl, rfl⟩) hQ

theorem Calm.findIntent {C : (Db → Db) → Job (Option PaymentIntent) → Prop} (h : Calm rows id J C) {L : PaymentIntent → Prop}
    {provider : Provider} (hmem : ∀ db, J db → ∀ row ∈ db.paymentIntents, row.provider = provider → L row)
    (value : Option Json) (selects : Json → Except Failure (PaymentIntent → Bool)) :
    (findIntent provider value selects).Follows J C fun found => ∀ row ∈ found, L row := by
  unfold Settlement.findIntent
  split
  · exact fun row hrow => absurd hrow (Option.not_mem_none row)
  · refine Job.Follows.bind ((Job.Follows.ofExcept fun selected _ => ?_))
    refine h.select fun db hdb row hrow => ?_
    have hfound := List.find?_some hrow
    simp only [Bool.and_eq_true, decide_eq_true_eq] at hfound
    exact hmem db hdb row (List.mem_of_find?_eq_some hrow) hfound.1

theorem Calm.findNotified {C : (Db → Db) → Job (Option IntentWithLink) → Prop} (h : Calm rows id J C)
    {L : PaymentIntent → Prop} (hmem : ∀ db, J db → ∀ row ∈ db.paymentIntents, L row) (event : WebhookNotification) :
    ((findNotified rt event).bind withPaymentLink).Follows J C fun found => ∀ row ∈ found, L row.toPaymentIntent := by
  have hfind : ∀ {C : (Db → Db) → Job (Option PaymentIntent) → Prop}, Calm rows id J C → ∀ value selects,
      (Settlement.findIntent event.provider value selects).Follows J C fun found => ∀ row ∈ found, L row :=
    fun h => h.findIntent fun db hdb row hrow _ => hmem db hdb row hrow
  have hcalm : ∀ {β γ : Type} (f : β → Job γ) {C' : (Db → Db) → Job γ → Prop}, Calm rows id J C' →
      Calm rows id J fun v (r : Job β) => C' v (r.bind f) := fun f _ h => h.of_rest fun v r hv => h.commits v _ hv
  refine Job.Follows.bind (Job.Follows.mono (Q := fun found => ∀ row ∈ found, L row) ?_ (fun _ _ h => h) fun found hfound => ?_)
  · refine Job.Follows.bind (Job.Follows.ofExcept fun orderId _ => ?_)
    refine Job.Follows.bind (Job.Follows.ofExcept fun correlationId _ => ?_)
    refine Job.Follows.bind ((hfind (hcalm _ (hcalm _ h)) _ _).mono (fun _ _ h => h) fun found hfound => ?_)
    cases found with
    | some found => exact hfound
    | none =>
        refine Job.Follows.bind ((hfind (hcalm _ (hcalm _ h)) _ _).mono (fun _ _ h => h) fun found hfound => ?_)
        cases found with
        | some found => exact hfound
        | none =>
            dsimp only
            split
            · exact fun row hrow => absurd hrow (Option.not_mem_none row)
            · exact (hcalm _ h).select fun db hdb row hrow => hmem db hdb row (mem_of_newestIntent hrow)
  · refine h.select fun db _ row hrow => ?_
    obtain ⟨intent, rfl, rfl⟩ := Option.map_eq_some_iff.mp hrow
    exact hfound intent rfl

theorem Calm.findStripeIntent {C : (Db → Db) → Job (Option PaymentIntent) → Prop} (h : Calm rows id J C)
    {L : PaymentIntent → Prop} (hmem : ∀ db, J db → ∀ row ∈ db.paymentIntents, row.provider = .stripe → L row) (obj : Json) :
    (findStripeIntent rt obj).Follows J C fun found => ∀ row ∈ found, L row := by
  refine Job.Follows.bind (Job.Follows.ofExcept fun correlationId _ => Job.Follows.bind (Job.Follows.ofExcept fun piId _ => ?_))
  refine Job.Follows.bind (((h.of_rest fun v r hv => h.commits v _ hv).findIntent hmem _ _).mono (fun _ _ h => h)
    fun found hfound => ?_)
  cases found with
  | some found => exact hfound
  | none => exact h.findIntent hmem _ _

end Calm

/-! ## Notifications -/

section Requests

variable {α : Type} {rows : List (Id × Provider)} {id : Id} {rt : Runtime}

theorem PaidOn.paid (hunique : (rows.map Prod.fst).Nodup) {db : Db} (h : PaidOn rows id db) {row : PaymentIntent}
    (hmem : row ∈ db.paymentIntents) (hid : row.id = id) : row.status = .succeeded ∨ row.status = .refunded := by
  have hids : db.paymentIntents.map (·.id) = rows.map Prod.fst := by
    rw [← h.1, Db.intentRows, List.map_map]
    rfl
  subst hid
  have hstatus := statusOf_of_mem (hids ▸ hunique) hmem
  exact h.2.imp (fun hpaid => Option.some.inj (hstatus.symm.trans hpaid)) fun hpaid => Option.some.inj (hstatus.symm.trans hpaid)

theorem PaidOn.of_same {db db' : Db} (h : PaidOn rows id db) (hsame : db'.paymentIntents = db.paymentIntents) :
    PaidOn rows id db' := by
  unfold PaidOn Db.WasPaid Db.statusOf Db.paymentIntent Db.intentRows at *
  rwa [hsame]

theorem PaidOn.terminal (hunique : (rows.map Prod.fst).Nodup) {db : Db} (h : PaidOn rows id db) {row : PaymentIntent}
    (hmem : row ∈ db.paymentIntents) (hid : row.id = id) : row.status ∈ PaymentIntentStatus.TERMINAL := by
  rcases h.paid hunique hmem hid with hs | hs <;> rw [hs] <;> decide

/-- What follows the step `find-intent`. -/
def processFound (rt : Runtime) (event : WebhookNotification) (intent : Option IntentWithLink) : Job Id := do
  let signatureVerified ← stepRun DEFAULT_RETRIES (verifySignature rt event (intent.map (·.tenantId)))
  let providerStatus ← @Transaction.Job.ofExcept Backend _
    (event.payloadJson.coalesce ["Status", "status", "transactionStatus"])
  let result ← processStatus rt event intent providerStatus
  let _ ← settleNotified rt intent result
  let webhookEvent ← stepRun DEFAULT_RETRIES (storeNotification event intent signatureVerified result)
  pure webhookEvent.id

theorem webhookProcessor_eq (rt : Runtime) (event : WebhookNotification) : webhookProcessor rt event =
    (stepRun DEFAULT_RETRIES ((findNotified rt event).bind withPaymentLink)).bind (processFound rt event) := rfl

theorem discard_bind {β γ : Type} (j : Job β) (f : β → Job γ) : discard (j.bind f) = j.bind fun b => discard (f b) :=
  Transaction.Job.bind_assoc _ _ _

theorem quiet_updateNotified {event : WebhookNotification} {intent : IntentWithLink}
    (h : intent.id = id → intent.status ∈ PaymentIntentStatus.TERMINAL) (providerStatus : Json) :
    Quiet id (updateNotified rt event intent providerStatus) := by
  refine observes_quiet.updateNotified fun internalStatus => ?_
  unfold writeStatus
  split_ifs with hterminal
  · exact does_ret _
  · exact (does_ofExcept _).bind fun status => (quiet_setStatus (fun hid => hterminal (h hid)) status).bind fun _ => does_ret _

/-- The status is written once. -/
theorem concludes_updateNotified (event : WebhookNotification) (intent : IntentWithLink) (providerStatus : Json) (n : Nat) :
    Concludes rows id (stepRun n (updateNotified rt event intent providerStatus)) := by
  refine Job.Follows.retry (fun again => Job.Follows.bind (calm_rows.select fun _ _ => ?_)) n
  rename_i db _
  cases db.providerConfig intent.tenantId event.provider with
  | none => trivial
  | some config =>
      refine Job.Follows.orElse ?_ fun _ => trivial
      have hwrite : ∀ internalStatus, Concludes rows id (writeStatus intent internalStatus) := by
        intro internalStatus
        unfold writeStatus
        split_ifs
        · trivial
        · exact concludes_ofExcept fun status _ =>
            (concludes_sets (commits_intentUpdate commits_nothing)).bind fun _ => does_ret _
      have hupdate : Concludes rows id (Transaction.Job.bind
          (Transaction.Job.ofExcept (mapNotifiedStatus rt event.provider providerStatus config)) fun internalStatus =>
            (applyStatus event.payloadJson intent internalStatus).bind fun _ =>
              (.ret ⟨some internalStatus, none, true⟩ : Job WebhookResult)) := by
        refine concludes_ofExcept fun internalStatus _ => Concludes.bind ?_ fun _ => does_ret _
        refine concludes_ofExcept fun _ _ => (hwrite internalStatus).bind fun _ => ?_
        exact (observes_quiet.recordTransaction _ _).bind fun _ => observes_quiet.markNotifiedLinkPaid _ _
      refine hupdate.mono (fun _ r hr henters => ?_) fun _ _ => trivial
      -- An error after the write is a result, so there is no other attempt.
      have hhandled := Transaction.Job.orElse_handled r (fun e => (⟨none, some e, false⟩ : WebhookResult)) again
      exact hhandled.symm ▸ (hr henters).orElse fun _ => does_ret _

theorem quiet_settled (event : WebhookNotification) (intent : Option IntentWithLink) (verified : Bool) (result : WebhookResult) :
    Quiet id ((settleNotified rt intent result).bind fun _ =>
      (stepRun DEFAULT_RETRIES (storeNotification event intent verified result)).bind fun webhookEvent =>
        (.ret webhookEvent.id : Job Id)) :=
  Does.bind (Observes.settleNotified fun _ _ charge => quiet_posts (posts_settleCharge charge)) fun _ =>
    ((quiet_posts (P := fun _ => True) (posts_storeNotification event intent verified result)).retry _).bind fun _ => does_ret _

theorem quiet_processFound {event : WebhookNotification} {found : Option IntentWithLink}
    (h : ∀ intent ∈ found, intent.id = id → intent.status ∈ PaymentIntentStatus.TERMINAL) :
    Quiet id (processFound rt event found) := by
  refine ((observes_quiet.verifySignature event _).retry _).bind fun verified => (does_ofExcept _).bind fun providerStatus => ?_
  refine Does.bind ?_ fun result => quiet_settled event found verified result
  unfold processStatus
  split
  · exact (quiet_updateNotified (h _ rfl) _).retry _
  · exact does_ret _

theorem concludes_processFound (event : WebhookNotification) (found : Option IntentWithLink) :
    Concludes rows id (processFound rt event found) := by
  refine Quiet.bind_concludes ((observes_quiet.verifySignature event _).retry _) fun verified => ?_
  refine concludes_ofExcept fun providerStatus _ => Concludes.bind ?_ fun result => quiet_settled event found verified result
  unfold processStatus
  split
  · exact concludes_updateNotified event _ _ _
  · trivial

theorem abides_notification (hunique : (rows.map Prod.fst).Nodup) (event : WebhookNotification) :
    (discard (webhookProcessor rt event)).Abides (PaidOn rows id) fun _ => True := by
  rw [webhookProcessor_eq, discard_bind]
  refine Job.Abides.bind (Q := fun found => ∀ row ∈ found, row.id = id → row.status ∈ PaymentIntentStatus.TERMINAL) ?_
    fun found hfound => ?_
  · refine Job.Follows.retry (fun _ => ?_) DEFAULT_RETRIES
    exact calm_paid.findNotified (L := fun row => row.id = id → row.status ∈ PaymentIntentStatus.TERMINAL)
      (fun db hdb row hmem hid => hdb.terminal hunique hmem hid) event
  · exact (quiet_discard (quiet_processFound hfound)).abides

theorem concludes_notification (event : WebhookNotification) :
    Concludes rows id (discard (webhookProcessor rt event)) := by
  rw [webhookProcessor_eq, discard_bind]
  refine Quiet.bind_concludes ((observes_quiet.findNotified event).retry DEFAULT_RETRIES) fun found => ?_
  exact (concludes_processFound event found).bind fun _ => does_ret _

/-! ## Stripe events -/

theorem quiet_routeStripeEvent {event : StripeEvent} {eventType : Option Json} {obj : Json} {intent : PaymentIntent}
    (h : intent.id ≠ id) : Quiet id (routeStripeEvent rt event eventType obj intent) := by
  unfold routeStripeEvent
  split
  · exact does_ret _
  · refine (does_ofExcept _).bind fun _ => ((observes_quiet.updateStripeStatus (quiet_setStatus h)).retry _).bind fun _ => ?_
    exact observes_quiet.finishStripeEvent (fun _ charge => quiet_posts (posts_settleCharge charge))
      fun _ => quiet_posts (P := fun _ => True) (posts_webhookCreate _ _)

/-- The events of Stripe find intents of Stripe. -/
theorem follows_stripeEvent {J : Db → Prop} {C : (Db → Db) → Job Unit → Prop} (hcalm : Calm rows id J C)
    (hprovider : ∀ p, (id, p) ∈ rows → p ≠ .stripe) (event : StripeEvent) :
    (discard (stripeWebhookProcessor rt event)).Follows J C fun _ => True := by
  refine Job.Follows.bind (Job.Follows.mono (Q := fun _ => True) ?_ (fun _ _ h => h) fun _ _ => trivial)
  refine Job.Follows.bind (Job.Follows.ofExcept fun eventType _ => ?_)
  refine Job.Follows.bind (Job.Follows.ofExcept fun obj _ => ?_)
  refine Job.Follows.bind (Job.Follows.mono (Q := fun found => ∀ row ∈ found, row.id ≠ id) ?_ (fun _ _ h => h)
    fun found hfound => ?_)
  · refine Job.Follows.retry (fun again => ?_) 5
    refine Calm.findStripeIntent (hcalm.of_rest fun v r hv => hcalm.commits v _ hv) (fun db hdb row hmem hstripe hid => ?_) obj
    refine hprovider row.provider ?_ hstripe
    rw [← hcalm.rows db hdb, ← hid]
    exact List.mem_map_of_mem (f := fun r : PaymentIntent => (r.id, r.provider)) hmem
  · cases found with
    | none => trivial
    | some intent =>
        exact (quiet_routeStripeEvent (hfound intent rfl)).follows (hcalm.of_rest fun v r hv => hcalm.commits v _ hv)

/-! ## Polls and status queries -/

theorem keepsStatus_of_sets {i : Id} {v : Db → Db} (hi : i ≠ id) (h : SetsStatus i v) : KeepsStatus id v := by
  obtain h | ⟨status, h⟩ := h
  · exact (posts_of_rest (P := fun _ => True) h).keepsStatus
  · exact keepsStatus_setStatus hi h

theorem quiet_pollOpen {event : PollStatus} {started : Nat} {intent : PaymentIntent} (hi : intent.id ≠ id) :
    Quiet id (pollOpen rt event started intent) :=
  Does.mono (does_pollOpen event started intent) (fun _ hv => keepsStatus_of_sets hi hv) fun _ _ => trivial

theorem abides_pollRound (hunique : (rows.map Prod.fst).Nodup) (event : PollStatus) (started : Nat) :
    (pollRound rt event started).Abides (PaidOn rows id) fun _ => True := by
  refine Job.Abides.bind (Q := fun found => ∀ row ∈ found, row.id = id → row.status ∈ PaymentIntentStatus.TERMINAL) ?_
    fun found hfound => ?_
  · refine Job.Follows.retry (fun _ => calm_paid.select fun db hdb row hrow hid => ?_) DEFAULT_RETRIES
    exact hdb.terminal hunique (List.mem_of_find?_eq_some hrow) hid
  · cases found with
    | none => trivial
    | some intent =>
        dsimp only
        split_ifs with hterminal
        · trivial
        · exact (quiet_pollOpen fun hid => hterminal (hfound intent rfl hid)).abides

/-- A round that makes the intent paid is the last one. -/
theorem follows_pollOpen {f : Bool → Job Unit} (hf : Quiet id (f false)) (event : PollStatus) (started : Nat)
    (intent : PaymentIntent) : (pollOpen rt event started intent).Follows (OnRows rows) (fun v rest =>
      Enters (I := Backend) (OnRows rows) (PaidOn rows id) v → Quiet id (rest.bind f)) fun _ => True := by
  have hquery : Quiet id (queryProvider rt event intent) := by
    refine (observes_quiet.select _).bind fun config => ?_
    cases config with
    | none => exact does_ret _
    | some config =>
        dsimp only
        split
        · exact does_ret _
        · refine Does.bind (does_query trivial) fun answer => ?_
          cases answer with
          | error message => exact does_throw _
          | ok status => exact does_ret _
  unfold pollOpen
  split
  · trivial
  · refine Job.Follows.bind (Job.Follows.query fun now => ?_)
    dsimp only
    split_ifs
    · refine Job.Follows.bind (Job.Follows.retry (fun again => ?_) DEFAULT_RETRIES)
      refine Job.Follows.mono (follows_sets (C := fun v _ => ¬ Enters (I := Backend) (OnRows rows) (PaidOn rows id) v)
        (commits_intentUpdate commits_nothing) fun v _ hv henters => ?_) (fun _ _ hnot henters => absurd henters hnot)
        fun _ _ => trivial
      rcases paid_of_enters hv henters with hs | hs <;> cases hs
    · trivial
    · refine Job.Follows.bind ((Quiet.follows (hquery.retry DEFAULT_RETRIES) calm_rows).mono (fun _ _ h => h) fun answer _ => ?_)
      cases answer with
      | none => trivial
      | some newStatus =>
          unfold updatePolled
          dsimp only
          split_ifs
          · refine Job.Follows.bind (Job.Follows.retry (fun again => ?_) DEFAULT_RETRIES)
            refine follows_sets (commits_intentUpdate commits_nothing) fun v _ hv henters => ?_
            have hterminal : newStatus ∈ PaymentIntentStatus.TERMINAL := by
              rcases paid_of_enters hv henters with hs | hs <;> rw [hs] <;> decide
            show Quiet id (f (decide (newStatus ∉ PaymentIntentStatus.TERMINAL)))
            rwa [decide_eq_false fun hnot => hnot hterminal]
          · trivial

theorem follows_pollRound {f : Bool → Job Unit} (hf : Quiet id (f false)) (event : PollStatus) (started : Nat) :
    (pollRound rt event started).Follows (OnRows rows) (fun v rest =>
      Enters (I := Backend) (OnRows rows) (PaidOn rows id) v → Quiet id (rest.bind f)) fun _ => True := by
  have hfetch : Quiet id (stepRun DEFAULT_RETRIES (selectOnce (·.paymentIntent event.intentId))) :=
    (observes_quiet.select _).retry _
  refine Job.Follows.bind ((Quiet.follows hfetch calm_rows).mono (fun _ _ h => h) fun found _ => ?_)
  cases found with
  | none => trivial
  | some intent =>
      dsimp only
      split_ifs
      · trivial
      · exact follows_pollOpen hf event started intent

theorem abides_poll (hunique : (rows.map Prod.fst).Nodup) (event : PollStatus) (rounds : Nat) :
    (paymentPoller rt event rounds).Abides (PaidOn rows id) fun _ => True := by
  refine Job.Follows.bind (Job.Follows.query fun started => ?_)
  induction rounds with
  | zero => trivial
  | succ rounds ih =>
      refine Job.Abides.bind (abides_pollRound hunique event started) fun goesOn _ => ?_
      split_ifs
      · exact ih
      · trivial

theorem concludes_poll (event : PollStatus) (rounds : Nat) : Concludes rows id (paymentPoller rt event rounds) := by
  refine Job.Follows.bind (Job.Follows.query fun started => ?_)
  induction rounds with
  | zero => trivial
  | succ rounds ih =>
      refine Job.Follows.bind (Job.Follows.mono (follows_pollRound (does_ret _) event started) (fun _ _ h => h) fun goesOn _ => ?_)
      split_ifs
      · exact ih
      · trivial

theorem abides_status (hunique : (rows.map Prod.fst).Nodup) (tenantId i : Id) :
    (discard (intentStatus rt tenantId i)).Abides (PaidOn rows id) fun _ => True := by
  refine Job.Abides.bind (Q := fun _ => True) ?_ fun _ _ => trivial
  rw [intentStatus_eq]
  refine Job.Abides.bind (Q := fun found => ∀ row ∈ found, row.id = id → row.status ∈ PaymentIntentStatus.TERMINAL)
    (calm_paid.select fun db hdb row hrow hid => hdb.terminal hunique (List.mem_of_find?_eq_some hrow) hid)
    fun found hfound => ?_
  cases found with
  | none => trivial
  | some intent =>
      dsimp only
      split_ifs with hterminal
      · trivial
      · refine Quiet.abides (observes_quiet.queryIntent (quiet_setStatus ?_) fun _ => trivial)
        exact fun hid => hterminal (hfound intent rfl hid)

theorem concludes_status (tenantId i : Id) : Concludes rows id (discard (intentStatus rt tenantId i)) := by
  refine Concludes.bind ?_ fun _ => does_ret _
  rw [intentStatus_eq]
  refine Quiet.bind_concludes (observes_quiet.select _) fun found => ?_
  cases found with
  | none => trivial
  | some intent =>
      dsimp only
      split_ifs
      · trivial
      · unfold queryIntent
        split
        · trivial
        · trivial
        · refine Quiet.bind_concludes (observes_quiet.select _) fun config => ?_
          cases config with
          | none => trivial
          | some config =>
              refine concludes_ofExcept fun _ _ => Job.Follows.bind (Job.Follows.query fun answer => ?_)
              cases answer with
              | error message => trivial
              | ok status =>
                  dsimp only
                  split_ifs
                  · exact (concludes_sets (commits_intentUpdate commits_nothing)).bind fun _ => does_ret _
                  · trivial

/-! ## Captures and voids -/

/-- The writes keep the rows and do not make the intent paid. -/
def KeepsUnpaid (rows : List (Id × Provider)) (id : Id) (v : Db → Db) : Prop :=
  (∀ db, OnRows rows db → OnRows rows (v db)) ∧ ¬ Enters (I := Backend) (OnRows rows) (PaidOn rows id) v

theorem KeepsStatus.unpaid {v : Db → Db} (h : KeepsStatus id v) : KeepsUnpaid rows id v :=
  ⟨fun db hdb => ((h db).1).trans hdb, h.not_enters⟩

theorem unpaid_concludes {j : Job α} (h : j.Does (KeepsUnpaid rows id) fun _ => True) : Concludes rows id j :=
  Does.follows h (fun _ hv => hv.1) fun _ _ hv _ henters => absurd henters hv.2

theorem unpaid_bind_concludes {β : Type} {j : Job α} {f : α → Job β} (h : j.Does (KeepsUnpaid rows id) fun _ => True)
    (hf : ∀ a, Concludes rows id (f a)) : Concludes rows id (j.bind f) := by
  refine Job.Follows.bind (Job.Follows.mono (Q := fun _ => True) ?_ (fun _ _ h => h) fun a _ => hf a)
  exact Does.follows h (fun _ hv => hv.1) fun _ _ hv _ henters => absurd henters hv.2

theorem acts_quiet {intentId : Id} (hi : intentId ≠ id) : Acts (KeepsStatus id) (fun _ => True) intentId where
  select := observes_quiet.select
  lockAuthorized tenantId := by
    refine does_lockAuthorized fun v hv => hv.keepsStatus (fun r => by split_ifs <;> exact ⟨rfl, rfl⟩) fun r hr => ?_
    rw [if_neg]
    intro hheld
    rw [Bool.and_eq_true] at hheld
    exact hi ((of_decide_eq_true hheld.1).1.symm.trans hr)
  revertLock := does_revertLock fun _ hv => keepsStatus_setStatus hi hv
  recordAction status := does_transaction ((commits_recordAction intentId status).mono fun _ _ hv => keepsStatus_setStatus hi hv)
    ((asks_recordAction intentId status).mono fun _ _ => trivial)

theorem holds_unpaid (intentId : Id) : Holds (KeepsUnpaid rows id) (fun _ => True) intentId where
  select f := (observes_quiet.select f).mono (fun _ hv => hv.unpaid) fun _ hq => hq
  lockAuthorized tenantId := by
    refine does_lockAuthorized fun v hv => ⟨fun db hdb => (hv.intentRows (fun r => ?_) db).trans hdb,
      not_enters_of hv (fun r => by split_ifs <;> rfl) fun r _ hr => ?_⟩
    · split_ifs <;> exact ⟨rfl, rfl⟩
    · split_ifs at hr
      · rcases hr with hr | hr <;> cases hr
      · exact hr
  revertLock := by
    refine does_revertLock fun v hv => ⟨fun db hdb => (hv.intentRows (fun r => ?_) db).trans hdb, fun henters => ?_⟩
    · split_ifs <;> exact ⟨rfl, rfl⟩
    · rcases paid_of_enters hv henters with hs | hs <;> cases hs

/-- A paid intent is not locked. -/
theorem abides_lockAuthorized (hunique : (rows.map Prod.fst).Nodup) (tenantId : Option Id) :
    (transaction (lockAuthorized id tenantId)).Abides (PaidOn rows id) fun count => count = 0 := by
  refine Job.Follows.transaction ?_
  simp only [lockAuthorized, bind_eq, pure_eq, passes_bind, passes_acquire, passes_get, passes_modify, passes_ret]
  have hnone : ∀ db, PaidOn rows id db → ∀ r ∈ db.paymentIntents,
      (r.inScope id tenantId && decide (r.status = .authorized)) = false := by
    intro db hdb r hr
    by_contra hheld
    rw [Bool.not_eq_false, Bool.and_eq_true] at hheld
    have hs := of_decide_eq_true hheld.2
    rcases hdb.paid hunique hr (of_decide_eq_true hheld.1).1 with hpaid | hpaid <;> rw [hpaid] at hs <;> cases hs
  refine fun db hdb => ⟨fun db' hdb' => ?_, trivial, ?_⟩
  · refine hdb'.of_same ((List.map_congr_left fun r hr => ?_).trans (List.map_id db'.paymentIntents))
    exact if_neg (Bool.eq_false_iff.mp (hnone db' hdb' r hr))
  · exact List.length_eq_zero_iff.mpr (List.filter_eq_nil_iff.mpr fun r hr => by simp [hnone db hdb r hr])

theorem quiet_captureIntent {intentId : Id} (hi : intentId ≠ id) (tenantId : Option Id) :
    Quiet id (captureIntent rt intentId tenantId) :=
  (acts_quiet hi).captureIntent (fun _ charge => quiet_posts (posts_settleCharge charge)) (fun _ => trivial) tenantId

/-- A request that locks nothing of a paid intent. -/
theorem abides_locked (hunique : (rows.map Prod.fst).Nodup) {verb : String} {tenantId : Option Id}
    {held : Job PaymentIntentStatus} : ((transaction (lockAuthorized id tenantId)).bind fun count =>
      if count = 0 then refuseAction verb id tenantId else held).Abides (PaidOn rows id) fun _ => True := by
  refine Job.Abides.bind (abides_lockAuthorized hunique tenantId) fun count hcount => ?_
  rw [if_pos hcount]
  refine Quiet.abides ((observes_quiet.select _).bind fun existing => ?_)
  cases existing with
  | none => exact does_throw _
  | some existing => exact does_throw _

theorem abides_captureIntent (hunique : (rows.map Prod.fst).Nodup) (intentId : Id) (tenantId : Option Id) :
    (captureIntent rt intentId tenantId).Abides (PaidOn rows id) fun _ => True := by
  by_cases hi : intentId = id
  · subst hi
    exact abides_locked hunique
  · exact (quiet_captureIntent hi tenantId).abides

theorem abides_voidIntent (hunique : (rows.map Prod.fst).Nodup) (intentId : Id) (tenantId : Option Id) :
    (voidIntent rt intentId tenantId).Abides (PaidOn rows id) fun _ => True := by
  by_cases hi : intentId = id
  · subst hi
    exact abides_locked hunique
  · exact Quiet.abides ((acts_quiet hi).voidIntent (fun _ => trivial) tenantId)

theorem concludes_captureIntent (intentId : Id) (tenantId : Option Id) :
    Concludes rows id (captureIntent rt intentId tenantId) := by
  have hholds : Holds (KeepsUnpaid rows id) (fun _ => True) intentId := holds_unpaid intentId
  refine unpaid_bind_concludes (hholds.lockAuthorized tenantId) fun count => ?_
  split_ifs
  · exact unpaid_concludes (hholds.refuseAction _ _)
  · refine unpaid_bind_concludes (hholds.heldIntent _ _) fun held => ?_
    dsimp only
    split_ifs
    · exact unpaid_concludes (hholds.revertLock.bind fun _ => does_throw _)
    · refine Job.Follows.bind (Job.Follows.query fun answer => ?_)
      cases answer with
      | error message => trivial
      | ok result =>
          show Concludes rows id (finishCapture rt intentId held.1 result)
          unfold finishCapture
          split_ifs
          · exact unpaid_concludes (hholds.revertLock.bind fun _ => does_throw _)
          · refine (concludes_sets (commits_recordAction intentId _)).bind fun _ => ?_
            dsimp only
            split_ifs
            · exact (quiet_posts (posts_settleCharge _)).bind fun _ => does_ret _
            · exact does_ret _

theorem concludes_voidIntent (intentId : Id) (tenantId : Option Id) :
    Concludes rows id (voidIntent rt intentId tenantId) := by
  have hholds : Holds (KeepsUnpaid rows id) (fun _ => True) intentId := holds_unpaid intentId
  refine unpaid_bind_concludes (hholds.lockAuthorized tenantId) fun count => ?_
  split_ifs
  · exact unpaid_concludes (hholds.refuseAction _ _)
  · refine unpaid_bind_concludes (hholds.heldIntent _ _) fun held => Job.Follows.bind (Job.Follows.query fun answer => ?_)
    cases answer with
    | error message => trivial
    | ok result =>
        show Concludes rows id (finishVoid intentId result)
        unfold finishVoid
        split_ifs
        · exact unpaid_concludes (hholds.revertLock.bind fun _ => does_throw _)
        · exact (concludes_sets (commits_recordAction intentId _)).bind fun _ => does_ret _

/-! ## Decisions of an admin -/

theorem quiet_verdict (i : Id) (verdict : RiskVerdict) :
    Quiet id (transaction (PaymentIntent.update i fun r => { r with riskVerdict := some verdict })) := by
  refine does_transaction ((commits_intentUpdate commits_nothing).mono fun v _ hv => ?_) (asks_intentUpdate _ _)
  refine hv.keepsStatus (fun r => ?_) fun r _ => ?_
  · simp only [Function.comp_apply, id_eq]
    split_ifs <;> exact ⟨rfl, rfl⟩
  · simp only [Function.comp_apply, id_eq]
    split_ifs <;> rfl

theorem abides_resolve (hunique : (rows.map Prod.fst).Nodup) (i : Id) (resolution : Resolution) :
    (discard (resolveRisk rt i resolution)).Abides (PaidOn rows id) fun _ => True := by
  refine Job.Abides.bind (Q := fun _ => True) (Job.Abides.bind (Quiet.abides (observes_quiet.select _)) fun found _ => ?_) fun _ _ => trivial
  cases found with
  | none => trivial
  | some intent =>
      refine Job.Abides.bind (Q := fun _ => True) ?_ fun _ _ => (quiet_verdict _ _).abides
      unfold actOnHeld
      split_ifs
      · cases resolution with
        | allow => exact Job.Abides.bind (abides_captureIntent hunique _ _) fun _ _ => trivial
        | block => exact Job.Abides.bind (abides_voidIntent hunique _ _) fun _ _ => trivial
      · trivial

theorem concludes_resolve (i : Id) (resolution : Resolution) :
    Concludes rows id (discard (resolveRisk rt i resolution)) := by
  refine Concludes.bind (Quiet.bind_concludes (observes_quiet.select _) fun found => ?_) fun _ => does_ret _
  cases found with
  | none => trivial
  | some intent =>
      refine Concludes.bind ?_ fun _ => quiet_verdict _ _
      unfold actOnHeld
      split_ifs
      · cases resolution with
        | allow => exact (concludes_captureIntent _ _).bind fun _ => does_ret _
        | block => exact (concludes_voidIntent _ _).bind fun _ => does_ret _
      · trivial

/-! ## Refunds -/

/-- Before the provider has answered nothing is written but the refund. -/
theorem follows_refundRoute {J : Db → Prop} {C : (Db → Db) → Job Refund → Prop} (hcalm : Calm rows id J C) {t i : Id}
    (hfinish : ∀ intentId refundId result, (finishRefund t intentId refundId result).Follows J C fun _ => True) :
    (refundRoute rt t i).Follows J C fun _ => True := by
  refine Quiet.bind_follows (observes_quiet.select _) hcalm fun found => ?_
  split
  · trivial
  · refine Job.Follows.bind (Job.Follows.ofExcept fun _ _ => Quiet.bind_follows (observes_quiet.select _) hcalm fun config => ?_)
    split
    · trivial
    · refine Job.Follows.bind (Job.Follows.ofExcept fun _ _ => Job.Follows.bind (Job.Follows.ofExcept fun _ _ =>
        Job.Follows.bind (Job.Follows.ofExcept fun _ _ => Quiet.bind_follows (quiet_posts (P := fun _ => True) ?_) hcalm
          fun refund => Job.Follows.bind (Job.Follows.query fun answer => ?_))))
      · exact does_openRefund (by decide) _ _ _
      · cases answer with
        | error message => trivial
        | ok result => exact hfinish _ _ result

theorem quiet_settleAccepted {t : Id} (intentId refundId : Id) (result : RefundResult) :
    Quiet id (settleAccepted t intentId refundId result) :=
  quiet_posts (does_settleAccepted (by decide) (by decide) intentId refundId result)

theorem abides_refund (t i : Id) : (discard (refundRoute rt t i)).Abides (PaidOn rows id) fun _ => True := by
  refine Job.Abides.bind (Q := fun _ => True) (follows_refundRoute calm_paid fun intentId refundId result => ?_) fun _ _ => trivial
  refine Quiet.bind_follows (quiet_settleAccepted intentId refundId result) calm_paid fun _ => ?_
  refine Job.Follows.transaction (commits_closeRefund.mono fun v _ hv => ⟨fun db hdb => hdb.sets hv ?_, trivial, trivial⟩).passes
  split_ifs
  · exact .inr rfl
  · exact .inl rfl

theorem concludes_refund (t i : Id) : Concludes rows id (discard (refundRoute rt t i)) := by
  refine Concludes.bind (follows_refundRoute calm_rows fun intentId refundId result => ?_) fun _ => does_ret _
  exact (quiet_settleAccepted intentId refundId result).bind_concludes fun _ => concludes_sets commits_closeRefund

/-! ## All requests -/

theorem Request.abides (rt : Runtime) (hunique : (rows.map Prod.fst).Nodup) (hprovider : ∀ p, (id, p) ∈ rows → p ≠ .stripe)
    (request : Request) : (request.job rt).Abides (PaidOn rows id) fun _ => True := by
  cases request with
  | notification event => exact abides_notification hunique event
  | stripeEvent event => exact follows_stripeEvent calm_paid hprovider event
  | poll event rounds => exact abides_poll hunique event rounds
  | status tenantId i => exact abides_status hunique tenantId i
  | capture intentId tenantId => exact Job.Abides.bind (abides_captureIntent hunique intentId tenantId) fun _ _ => trivial
  | void intentId tenantId => exact Job.Abides.bind (abides_voidIntent hunique intentId tenantId) fun _ _ => trivial
  | resolve i resolution => exact abides_resolve hunique i resolution
  | refund tenantId i => exact abides_refund tenantId i

theorem Request.concludes (rt : Runtime) (hprovider : ∀ p, (id, p) ∈ rows → p ≠ .stripe) (request : Request) :
    Concludes rows id (request.job rt) := by
  cases request with
  | notification event => exact concludes_notification event
  | stripeEvent event => exact follows_stripeEvent calm_rows hprovider event
  | poll event rounds => exact concludes_poll event rounds
  | status tenantId i => exact concludes_status tenantId i
  | capture intentId tenantId => exact (concludes_captureIntent intentId tenantId).bind fun _ => does_ret _
  | void intentId tenantId => exact (concludes_voidIntent intentId tenantId).bind fun _ => does_ret _
  | resolve i resolution => exact concludes_resolve i resolution
  | refund tenantId i => exact concludes_refund tenantId i

end Requests

end CorpoPay.Settlement
