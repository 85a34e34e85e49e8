import CorpoPay.Billing.Subscriptions
import CorpoPay.Transaction.Amid

/-!
# What the jobs of subscriptions write and ask

Each part of a job writes one subscription or none, and only the attempts of a ladder charge.
-/

namespace CorpoPay.Billing

open Settlement (BillingEvent Db Id Subscription)
open Transaction.Job (does_get does_ofExcept does_query does_transaction)
open Transaction.Tx

/-- The rows after an update of a subscription. -/
def updated (id : String) (f : Subscription → Subscription) (db : Db) : Db :=
  { db with subscriptions := db.subscriptions.map fun r => if r.id = id then f r else r }

/-- An update that does not cancel. -/
structure Revives (f : Subscription → Subscription) : Prop where
  id : ∀ r, (f r).id = r.id
  status : ∀ r, (f r).status = .cancelled → r.status = .cancelled

/-- A question that is no sleep: the charges are ones with `P`, and no subscription is activated. -/
structure Asking (P : RenewalCharge → Prop) (q : Query) : Prop where
  charge : ∀ charge, q = .chargeRenewal charge → P charge
  send : ∀ events, q = .send events → ∀ data, Event.subscriptionActivated data ∉ events
  awake : ∀ time, q ≠ .sleepUntil time

/-- `W` and `A` let the jobs write what is not a subscription, and ask. -/
structure Lets (W : (Db → Db) → Prop) (A : Query → Prop) (P : RenewalCharge → Prop) : Prop where
  rest : ∀ w : Db → Db, (∀ db, (w db).subscriptions = db.subscriptions) → W w
  asks : ∀ q, Asking P q → A q

variable {α β : Type} {W : (Db → Db) → Prop} {A : Query → Prop} {P : RenewalCharge → Prop} {id : String}

theorem asking_chargeRenewal {charge : RenewalCharge} (h : P charge) : Asking P (.chargeRenewal charge) :=
  ⟨fun _ hq => Query.chargeRenewal.inj hq ▸ h, nofun, nofun⟩

theorem asking_send {events : List Event} (h : ∀ data, Event.subscriptionActivated data ∉ events) : Asking P (.send events) :=
  ⟨nofun, fun _ hq => Query.send.inj hq ▸ h, nofun⟩

/-! ## Transactions -/

theorem does_update {f : Subscription → Subscription} (h : W (updated id f)) :
    (transaction (updateSubscription id f)).Does W A := by
  refine does_transaction ?_ (asks_bind (asks_acquire _) fun _ => asks_bind (asks_get _) fun row => ?_)
  · simp only [updateSubscription, bind_eq, pure_eq, writes_bind, writes_acquire, writes_get]
    intro db
    cases db.subscription id with
    | none => exact writes_throw _
    | some row => exact h
  · cases row with
    | none => exact asks_throw _
    | some row => exact asks_bind (asks_modify _) fun _ => asks_ret _

section Parts

variable (h : Lets W A P)
include h

theorem does_upsertBillingEvent (row : BillingEvent) : (transaction (upsertBillingEvent row)).Does W A := by
  refine does_transaction ?_ (asks_bind (asks_acquire _) fun _ => asks_bind (asks_get _) fun found => ?_)
  · simp only [upsertBillingEvent, bind_eq, writes_bind, writes_acquire, writes_get]
    refine fun db => writes_ite _ (fun _ => h.rest _ fun _ => rfl) fun _ => h.rest _ fun _ => rfl
  · cases found <;> exact asks_modify _

theorem does_createBillingEvent (row : String → BillingEvent) :
    (transaction (cuid.bind fun id => createBillingEvent (row id))).Does W A := by
  refine does_transaction ?_ (asks_bind ((asks_query _).mpr (h.asks _ ⟨nofun, nofun, nofun⟩)) fun _ =>
    asks_bind (asks_acquire _) fun _ => asks_bind (asks_get _) fun taken => ?_)
  · simp only [createBillingEvent, bind_eq, writes_bind, writes_acquire, writes_get]
    exact fun _ db => writes_ite _ (fun _ => writes_throw _) fun _ => h.rest _ fun _ => rfl
  · cases taken
    · exact asks_modify _
    · exact asks_throw _

/-! ## Statements -/

theorem does_select (f : Db → α) : (selectOnce f : Job α).Does W A := does_get (h.rest _ fun _ => rfl) f

theorem does_ask {q : Query} (hq : Asking P q) : (Backend.ask q).Does W A := does_query (h.asks q hq)

theorem does_now : now.Does W A := does_ask h ⟨nofun, nofun, nofun⟩

theorem does_runId : (Backend.ask .runId).Does W A := does_ask h ⟨nofun, nofun, nofun⟩

theorem does_send {events : List Event} (hevents : ∀ data, Event.subscriptionActivated data ∉ events) :
    (send events).Does W A := by
  refine (does_ask h (asking_send hevents)).bind fun sent => ?_
  cases sent <;> trivial

theorem does_sleep (hsleep : ∀ time, A (.sleepUntil time)) (duration : Nat) : (sleep duration).Does W A :=
  (does_now h).bind fun _ => does_query (hsleep _)

/-! ## Attempts -/

theorem does_recordBillingEvent (data : RenewalDue) (attempt : Nat) (result : ChargeRenewalResult) :
    (recordBillingEvent data attempt result).Does W A :=
  (does_now h).bind fun _ => (does_upsertBillingEvent h _).orElse fun _ => does_createBillingEvent h _

theorem does_chargeProfile (rt : Runtime) (tenantId : Id) (encryptedProfileId : String) {charge : String → RenewalCharge}
    {record : ChargeRenewalResult → Job Unit} (hcharge : ∀ profileId, P (charge profileId))
    (hrecord : ∀ result, (record result).Does W A) : (chargeProfile rt tenantId encryptedProfileId charge record).Does W A := by
  refine (does_select h _).bind fun config => ?_
  cases config with
  | none => trivial
  | some config =>
      refine (does_ofExcept _).bind fun adapter => (does_ofExcept _).bind fun profileId => ?_
      cases adapter with
      | vps credentials =>
          refine (does_ask h (asking_chargeRenewal (hcharge profileId))).bind fun answer => ?_
          cases answer with
          | error message => trivial
          | ok result => exact (hrecord result).bind fun _ => trivial
      | _ => trivial

theorem does_chargeSubscription (rt : Runtime) (data : RenewalDue) (attempt : Nat)
    (hcharge : ∀ charge : RenewalCharge, charge.source = data.subscriptionId → charge.key = data.key → P charge) :
    (chargeSubscription rt data attempt).Does W A := by
  refine (does_select h _).bind fun subscription => ?_
  cases subscription with
  | none => trivial
  | some subscription =>
      dsimp only
      split_ifs
      · trivial
      · exact does_chargeProfile h rt _ _ (fun _ => hcharge _ rfl rfl) (does_recordBillingEvent h data attempt)

theorem does_stopsRenewal (data : RenewalDue) (nextAttempt : Nat) : (stopsRenewal data nextAttempt).Does W A := by
  refine (does_select h _).bind fun sub => ?_
  cases sub with
  | none => trivial
  | some sub => dsimp only; split_ifs <;> trivial

/-- A ladder does what its parts do, and sleeps. -/
theorem does_climb {ladder : DunningLadder α} (hsleep : ∀ time, A (.sleepUntil time))
    (hattempt : ∀ n, (ladder.attempt n).Does W A) (hstop : ∀ n, (ladder.shouldStop n).Does W A)
    (hsuccess : ∀ n, (ladder.onSuccess n).Does W A) (hfailure : ∀ n, (ladder.onFailure n).Does W A)
    (hexhausted : ladder.onExhausted.Does W A) (left n : Nat) : (ladder.climb left n).Does W A := by
  induction left generalizing n with
  | zero => exact hexhausted.bind fun _ => trivial
  | succ left ih =>
      refine (hattempt n).bind fun attempted => ?_
      split_ifs
      · exact (hsuccess n).bind fun _ => trivial
      · refine (hfailure n).bind fun _ => (does_sleep h hsleep _).bind fun _ => (hstop (n + 1)).bind fun stop => ?_
        cases stop with
        | none => exact ih (n + 1)
        | some reason => trivial
      · exact ih (n + 1)

/-! ## Renewals -/

theorem does_advanceBillingCycle (data : RenewalDue) (hupdate : ∀ f, Revives f → W (updated data.subscriptionId f)) :
    (advanceBillingCycle data).Does W A := by
  refine (does_now h).bind fun now => Transaction.Job.Does.bind (does_update (hupdate _ ⟨fun _ => rfl, ?_⟩)) fun _ => ?_
  · intro _ hcancelled
    cases hcancelled
  · exact (does_send h fun _ hmem => by simp at hmem).bind fun _ => trivial

omit h in
theorem does_markPastDue (data : RenewalDue) (attempt : Nat)
    (hupdate : ∀ f, Revives f → W (updated data.subscriptionId f)) : (markPastDue data attempt).Does W A := by
  unfold markPastDue
  split_ifs
  · refine Transaction.Job.Does.bind (does_update (hupdate _ ⟨fun _ => rfl, ?_⟩)) fun _ => trivial
    intro _ hcancelled
    cases hcancelled
  · trivial

omit h in
theorem does_cancelExhausted (data : RenewalDue)
    (hupdate : ∀ f : Subscription → Subscription, (∀ r, (f r).id = r.id) → W (updated data.subscriptionId f)) :
    (cancelExhausted data).Does W A :=
  Transaction.Job.Does.bind (does_update (hupdate _ fun _ => rfl)) fun _ => trivial

theorem does_billingRenewal (rt : Runtime) (data : RenewalDue)
    (hcharge : ∀ charge : RenewalCharge, charge.source = data.subscriptionId → charge.key = data.key → P charge)
    (hsleep : ∀ time, A (.sleepUntil time))
    (hupdate : ∀ f : Subscription → Subscription, (∀ r, (f r).id = r.id) → W (updated data.subscriptionId f)) :
    (billingRenewal rt data).Does W A := by
  refine Transaction.Job.Does.bind (does_runId h) fun runId => (does_select h _).bind fun sub => ?_
  cases sub with
  | none => trivial
  | some sub =>
      dsimp only
      split_ifs
      · trivial
      · refine Transaction.Job.Does.bind (does_update (hupdate _ fun _ => rfl)) fun _ => ?_
        have hrevives : ∀ f, Revives f → W (updated data.subscriptionId f) := fun f hf => hupdate f hf.id
        exact does_climb h hsleep (fun n => does_chargeSubscription h rt data n hcharge) (does_stopsRenewal h data)
          (fun _ => does_advanceBillingCycle h data hrevives) (fun n => does_markPastDue data n hrevives)
          (does_cancelExhausted data hupdate) _ _

/-! ## The sweep and the activation -/

theorem does_billingDailySweep : billingDailySweep.Does W A := by
  refine (((does_now h).bind fun _ => does_select h _).retry _).bind fun due => ?_
  split_ifs
  · trivial
  · refine Transaction.Job.Does.retry ?_ DEFAULT_RETRIES
    exact (does_now h).bind fun _ => (does_send h fun _ hmem => by simp at hmem).bind fun _ => trivial

theorem does_activateSubscription (data : SubscriptionActivated)
    (hupdate : ∀ f, Revives f → W (updated data.subscriptionId f)) : (activateSubscription data).Does W A := by
  refine (does_now h).bind fun _ => does_update (hupdate _ ⟨fun _ => rfl, ?_⟩)
  intro _ hcancelled
  cases hcancelled

theorem does_triggerFirstRenewal (data : SubscriptionActivated) (sub : Subscription) :
    (triggerFirstRenewal data sub).Does W A :=
  (does_now h).bind fun _ => (does_send h fun _ hmem => by simp at hmem).retry _

theorem does_onSubscriptionCreated (data : SubscriptionActivated) (hsleep : ∀ time, A (.sleepUntil time))
    (hupdate : ∀ f, Revives f → W (updated data.subscriptionId f)) : (onSubscriptionCreated data).Does W A := by
  refine ((does_activateSubscription h data hupdate).retry _).bind fun sub => ?_
  split
  · exact does_triggerFirstRenewal h data sub
  · exact does_triggerFirstRenewal h data sub
  · exact (does_sleep h hsleep _).bind fun _ => does_triggerFirstRenewal h data sub

/-! ## Routes -/

theorem does_findSubscription (tenantId : Id) (id : String) : (findSubscription tenantId id).Does W A := by
  refine (does_select h _).bind fun sub => ?_
  cases sub <;> trivial

theorem does_pauseSubscription (tenantId : Id) (id : String) (hupdate : ∀ id f, Revives f → W (updated id f)) :
    (pauseSubscription tenantId id).Does W A := by
  refine (does_findSubscription h tenantId id).bind fun sub => ?_
  split_ifs
  · trivial
  · refine Transaction.Job.Does.bind (does_update (hupdate _ _ ⟨fun _ => rfl, ?_⟩)) fun _ => trivial
    intro _ hcancelled
    cases hcancelled

theorem does_resumeSubscription (tenantId : Id) (id : String) (hupdate : ∀ id f, Revives f → W (updated id f)) :
    (resumeSubscription tenantId id).Does W A := by
  refine (does_findSubscription h tenantId id).bind fun sub => ?_
  split_ifs
  · trivial
  · refine (does_now h).bind fun _ => Transaction.Job.Does.bind (does_update (hupdate _ _ ⟨fun _ => rfl, ?_⟩)) fun _ => ?_
    · intro _ hcancelled
      cases hcancelled
    · exact (does_send h fun _ hmem => by simp at hmem).bind fun _ => trivial

theorem does_deleteSubscription (tenantId : Id) (id : String)
    (hupdate : ∀ id, ∀ f : Subscription → Subscription, (∀ r, (f r).id = r.id) → W (updated id f)) :
    (deleteSubscription tenantId id).Does W A := by
  refine (does_findSubscription h tenantId id).bind fun sub => ?_
  split_ifs
  · trivial
  · exact Transaction.Job.Does.bind (does_update (hupdate _ _ fun _ => rfl)) fun _ => trivial

theorem does_onEvent {event : Event} {j : Job α} (hj : j.Does W A) : (onEvent event j).Does W A := by
  refine Transaction.Job.Does.bind (does_ask h ⟨nofun, nofun, nofun⟩) fun delivered => ?_
  cases delivered
  · trivial
  · exact hj.bind fun _ => trivial

/-- Only renewals charge, and with the key of their event. -/
theorem does_request (rt : Runtime) (request : SubscriptionRequest)
    (hcharge : ∀ data, request = .renewal data → ∀ charge : RenewalCharge, charge.source = data.subscriptionId →
      charge.key = data.key → P charge) (hsleep : ∀ time, A (.sleepUntil time))
    (hupdate : ∀ id, ∀ f : Subscription → Subscription, (∀ r, (f r).id = r.id) → W (updated id f)) :
    (request.job rt).Does W A := by
  have hrevives : ∀ id f, Revives f → W (updated id f) := fun id f hf => hupdate id f hf.id
  cases request with
  | sweep => exact (does_billingDailySweep h).bind fun _ => trivial
  | renewal data => exact does_onEvent h (does_billingRenewal h rt data (hcharge data rfl) hsleep (hupdate _))
  | activated data => exact does_onEvent h (does_onSubscriptionCreated h data hsleep (hrevives _))
  | pause tenantId id => exact (does_pauseSubscription h tenantId id hrevives).bind fun _ => trivial
  | resume tenantId id => exact (does_resumeSubscription h tenantId id hrevives).bind fun _ => trivial
  | delete tenantId id => exact (does_deleteSubscription h tenantId id hupdate).bind fun _ => trivial

end Parts

/-- The id that a lookup in a route found. -/
theorem findSubscription_id {db : Db} {tenantId : Id} {id : String} {sub : Subscription}
    (h : (db.subscriptions.find? fun r => r.id = id ∧ r.tenantId = tenantId) = some sub) :
    sub ∈ db.subscriptions ∧ sub.id = id := by
  have hid := List.find?_some h
  simp only [decide_eq_true_eq] at hid
  exact ⟨List.mem_of_find?_eq_some h, hid.1⟩

end CorpoPay.Billing
