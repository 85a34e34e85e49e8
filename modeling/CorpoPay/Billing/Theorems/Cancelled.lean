import CorpoPay.Billing.Lemmas.Jobs
import CorpoPay.Billing.Lemmas.Queue
import CorpoPay.Transaction.Stop

/-!
# Cancelling is final

Every job looks at the status before it begins to charge, and a ladder after each of its sleeps, but no write of the status
looks at it once more. A cancellation that finds no job of the subscription between its look and its write is final.
-/

namespace CorpoPay.Settlement

/-- The subscription is cancelled. -/
def Db.Cancelled (db : Db) (id : String) : Prop :=
  (∃ r ∈ db.subscriptions, r.id = id) ∧ ∀ r ∈ db.subscriptions, r.id = id → r.status = .cancelled

instance (db : Db) (id : String) : Decidable (db.Cancelled id) := inferInstanceAs (Decidable (_ ∧ _))

theorem Db.Cancelled.subscription {db : Db} {id : String} (h : db.Cancelled id) :
    ∃ sub, db.subscription id = some sub ∧ sub.status = .cancelled := by
  obtain ⟨⟨r, hr, hid⟩, hall⟩ := h
  have hsome : (db.subscription id).isSome := List.find?_isSome.mpr ⟨r, hr, by simpa using hid⟩
  obtain ⟨sub, hsub⟩ := Option.isSome_iff_exists.mp hsome
  have hfound := List.find?_some hsub
  exact ⟨sub, hsub, hall sub (List.mem_of_find?_eq_some hsub) (by simpa using hfound)⟩

end CorpoPay.Settlement

namespace CorpoPay.Billing

open Settlement (Db Failure Id Subscription)
open Transaction (Pool Stop)
open Transaction.Job (Heeds Ignores Wakes heeds_ask heeds_get_bind heeds_ret heeds_throw)

variable {ι α : Type} {id : String}

/-- The charges of a subscription. -/
def World.submissionsOf (id : String) (w : World) : List Submission := w.submissions.filter (·.charge.source = id)

/-- No activation of the subscription waits in the queue. -/
def World.NoActivation (id : String) (w : World) : Prop :=
  ∀ data, Event.subscriptionActivated data ∈ w.pending → data.subscriptionId ≠ id

def cancellation (id : String) : Stop Backend where
  stopped db := db.Cancelled id
  Deeds := List Submission
  deeds := World.submissionsOf id
  calm := World.NoActivation id
  sleeps q := ∃ time, q = .sleepUntil time

/-! ## Effects and questions -/

theorem spares_updated {sid : String} {f : Subscription → Subscription} (hne : sid ≠ id) (hid : ∀ r, (f r).id = r.id) :
    (cancellation id).Spares (updated sid f) := by
  have hother : ∀ r : Subscription, r.id = id → (if r.id = sid then f r else r) = r := fun r hr =>
    if_neg fun hsid => hne (hsid.symm.trans hr)
  have hkept : ∀ r : Subscription, (if r.id = sid then f r else r).id = r.id := fun r => by split_ifs <;> simp [hid]
  intro db
  refine and_congr ⟨?_, ?_⟩ ⟨fun h r hr hrid => ?_, fun h r hr hrid => ?_⟩
  · rintro ⟨r', hr', hrid⟩
    obtain ⟨r, hr, rfl⟩ := List.mem_map.mp hr'
    exact ⟨r, hr, (hkept r).symm.trans hrid⟩
  · rintro ⟨r, hr, hrid⟩
    exact ⟨_, List.mem_map_of_mem hr, (hkept r).trans hrid⟩
  · have hstatus := h _ (List.mem_map_of_mem hr) ((hkept r).trans hrid)
    rwa [hother r hrid] at hstatus
  · obtain ⟨r₀, hr₀, rfl⟩ := List.mem_map.mp hr
    have hrid₀ : r₀.id = id := (hkept r₀).symm.trans hrid
    rw [hother r₀ hrid₀]
    exact h r₀ hr₀ hrid₀

theorem neverStops_updated {sid : String} {f : Subscription → Subscription} (hf : Revives f) :
    (cancellation id).NeverStops (updated sid f) := by
  have hkept : ∀ r : Subscription, (if r.id = sid then f r else r).id = r.id := fun r => by split_ifs <;> simp [hf.id]
  rintro db ⟨⟨r', hr', hrid⟩, hall⟩
  obtain ⟨r₀, hr₀, rfl⟩ := List.mem_map.mp hr'
  refine ⟨⟨r₀, hr₀, (hkept r₀).symm.trans hrid⟩, fun r hr hrid => ?_⟩
  have hstatus := hall _ (List.mem_map_of_mem hr) ((hkept r).trans hrid)
  split_ifs at hstatus
  · exact hf.status r hstatus
  · exact hstatus

/-- A question that is no charge of the subscription and no activation. -/
theorem harmless_of {q : Query} (hcharge : ∀ charge, q = .chargeRenewal charge → charge.source ≠ id)
    (hsend : ∀ events, q = .send events → ∀ data, Event.subscriptionActivated data ∉ events) :
    (cancellation id).Harmless q := by
  refine fun w hcalm => ⟨fun data hdata => ?_, ?_⟩
  · rcases World.mem_pending_reply hdata with hold | ⟨events, hq, hmem⟩
    · exact hcalm data hold
    · exact absurd hmem (hsend events hq data)
  · show ((World.reply w q).2.submissions.filter _) = _
    rw [World.submissions_reply, List.filter_append]
    refine (congrArg _ (List.filter_eq_nil_iff.mpr fun s hs => ?_)).trans (List.append_nil _)
    cases q with
    | chargeRenewal charge =>
        obtain rfl := List.mem_singleton.mp hs
        simpa using hcharge charge rfl
    | _ => cases hs

theorem harmless_sleepUntil (time : Nat) : (cancellation id).Harmless (.sleepUntil time) := harmless_of nofun nofun

theorem lets_spares : Lets (cancellation id).Spares (cancellation id).Harmless (·.source ≠ id) where
  rest w hw db := by
    show (w db).Cancelled id ↔ db.Cancelled id
    rw [Settlement.Db.Cancelled, Settlement.Db.Cancelled, hw]
  asks q hq := harmless_of hq.charge hq.send

theorem lets_neverStops : Lets (cancellation id).NeverStops (fun q => ¬ (cancellation id).sleeps q) (fun _ => True) where
  rest w hw db h := by
    have h' : (w db).Cancelled id := h
    rwa [Settlement.Db.Cancelled, hw] at h'
  asks q hq := fun ⟨time, htime⟩ => hq.awake time htime

/-! ## What the jobs do at a stop -/

/-- A ladder that wakes stops. -/
theorem heeds_stopsRenewal_bind {data : RenewalDue} {n : Nat} {f : Option String → Job α} (hf : ∀ reason, (f (some reason)).Heeds
    (cancellation data.subscriptionId)) : ((stopsRenewal data n).bind f).Heeds (cancellation data.subscriptionId) := by
  rw [stopsRenewal, Transaction.Job.bind_eq, Transaction.Job.bind_assoc]
  refine heeds_get_bind fun db hstopped => ?_
  obtain ⟨sub, hsub, hstatus⟩ := hstopped.subscription
  rw [hsub]
  dsimp only
  rw [if_pos (.inl hstatus)]
  exact hf _

theorem heeds_findSubscription_bind {tenantId : Id} {f : Subscription → Job α}
    (hf : ∀ sub, sub.status = .cancelled → (f sub).Heeds (cancellation id)) :
    ((findSubscription tenantId id).bind f).Heeds (cancellation id) := by
  rw [findSubscription, Transaction.Job.bind_eq, Transaction.Job.bind_assoc]
  refine heeds_get_bind fun db hstopped => ?_
  cases hfind : db.subscriptions.find? fun r => r.id = id ∧ r.tenantId = tenantId with
  | none => exact heeds_throw _
  | some sub =>
      obtain ⟨hmem, hid⟩ := findSubscription_id hfind
      exact hf sub (hstopped.2 sub hmem hid)

theorem heeds_discard {j : Job α} (h : j.Heeds (cancellation id)) : (discard j).Heeds (cancellation id) :=
  h.bind fun _ => heeds_ret ()

theorem heeds_billingRenewal (rt : Runtime) (data : RenewalDue) :
    (billingRenewal rt data).Heeds (cancellation data.subscriptionId) := by
  refine heeds_ask (harmless_of nofun nofun) fun _ _ => heeds_get_bind fun db hstopped => ?_
  obtain ⟨sub, hsub, hstatus⟩ := hstopped.subscription
  rw [hsub]
  dsimp only
  rw [if_pos (.inl hstatus)]
  exact heeds_ret _

theorem heeds_onEvent {event : Event} {j : Job α} (h : j.Heeds (cancellation id)) :
    (onEvent event j).Heeds (cancellation id) := by
  refine heeds_ask (harmless_of nofun nofun) fun w _ => ?_
  show Heeds (cancellation id) (if (World.answer w (.deliver event) : Bool) = true then j.bind fun _ => .ret () else .ret ())
  split_ifs
  · exact h.bind fun _ => heeds_ret ()
  · exact heeds_ret ()

/-- A request that acts on the subscription. -/
def SubscriptionRequest.Concerns (id : String) : SubscriptionRequest → Prop
  | .sweep => False
  | .renewal data => data.subscriptionId = id
  | .activated data => data.subscriptionId = id
  | .pause _ sid | .resume _ sid | .delete _ sid => sid = id

/-- A job that begins after the stop heeds it. -/
theorem heeds_request (rt : Runtime) (request : SubscriptionRequest) (h : request.Concerns id) :
    (request.job rt).Heeds (cancellation id) := by
  cases request with
  | sweep => exact h.elim
  | renewal data =>
      obtain rfl := h
      exact heeds_onEvent (heeds_billingRenewal rt data)
  | activated data =>
      obtain rfl := h
      refine heeds_ask (harmless_of nofun nofun) fun w hcalm => ?_
      have hanswer : (Backend.reply w (.deliver (.subscriptionActivated data))).1 = false :=
        decide_eq_false fun hmem => hcalm data hmem rfl
      rw [hanswer]
      exact heeds_ret ()
  | pause tenantId sid =>
      obtain rfl := h
      refine heeds_discard (heeds_findSubscription_bind fun sub hsub => ?_)
      rw [if_pos (by simp [hsub])]
      exact heeds_throw _
  | resume tenantId sid =>
      obtain rfl := h
      refine heeds_discard (heeds_findSubscription_bind fun sub hsub => ?_)
      rw [if_pos (by simp [hsub])]
      exact heeds_throw _
  | delete tenantId sid =>
      obtain rfl := h
      refine heeds_discard (heeds_findSubscription_bind fun sub hsub => ?_)
      rw [if_pos hsub]
      exact heeds_throw _

/-! ## What the jobs do before a stop -/

theorem ignores_findSubscription_bind {tenantId : Id} {sid : String} {f : Subscription → Job α}
    (hf : ∀ sub, sub.id = sid → (f sub).Ignores (cancellation id)) :
    ((findSubscription tenantId sid).bind f).Ignores (cancellation id) := by
  rw [findSubscription, Transaction.Job.bind_eq, Transaction.Job.bind_assoc]
  refine Transaction.Job.ignores_get_bind fun db => ?_
  cases hfind : db.subscriptions.find? fun r => r.id = sid ∧ r.tenantId = tenantId with
  | none => trivial
  | some sub => exact hf sub (findSubscription_id hfind).2

theorem ignores_discard {j : Job α} (h : j.Ignores (cancellation id)) : (discard j).Ignores (cancellation id) :=
  h.bind fun _ => trivial

/-- A job that is about another subscription. -/
theorem ignores_request (rt : Runtime) (request : SubscriptionRequest) (h : ¬ request.Concerns id) :
    (request.job rt).Ignores (cancellation id) := by
  have hupdate : ∀ {sid}, sid ≠ id → ∀ f : Subscription → Subscription, (∀ r, (f r).id = r.id) →
      (cancellation id).Spares (updated sid f) := fun hne _ hf => spares_updated hne hf
  have hrevives : ∀ {sid}, sid ≠ id → ∀ f, Revives f → (cancellation id).Spares (updated sid f) :=
    fun hne f hf => hupdate hne f hf.id
  cases request with
  | sweep => exact ignores_discard (.of_does (does_billingDailySweep lets_spares))
  | renewal data =>
      refine .of_does (does_onEvent lets_spares (does_billingRenewal lets_spares rt data (fun charge hsource _ => ?_)
        harmless_sleepUntil (hupdate h)))
      exact hsource.trans_ne h
  | activated data =>
      exact .of_does (does_onEvent lets_spares (does_onSubscriptionCreated lets_spares data harmless_sleepUntil (hrevives h)))
  | pause tenantId sid =>
      refine ignores_discard (ignores_findSubscription_bind fun sub hsub => ?_)
      split_ifs
      · trivial
      · refine .of_does (Transaction.Job.Does.bind (does_update (hupdate (hsub.trans_ne h) _ fun _ => rfl)) fun _ => trivial)
  | resume tenantId sid =>
      refine ignores_discard (ignores_findSubscription_bind fun sub hsub => ?_)
      split_ifs
      · trivial
      · refine .of_does ((does_now lets_spares).bind fun _ => Transaction.Job.Does.bind
          (does_update (hupdate (hsub.trans_ne h) _ fun _ => rfl)) fun _ => ?_)
        exact (does_send lets_spares fun _ hmem => by simp at hmem).bind fun _ => trivial
  | delete tenantId sid =>
      refine ignores_discard (ignores_findSubscription_bind fun sub hsub => ?_)
      split_ifs
      · trivial
      · exact .of_does (Transaction.Job.Does.bind (does_update (hupdate (hsub.trans_ne h) _ fun _ => rfl)) fun _ => trivial)

theorem wakes_sleep_bind {duration : Nat} {f : Unit → Job α} (hheeds : (f ()).Heeds (cancellation id))
    (hwakes : (f ()).Wakes (cancellation id)) : ((sleep duration).bind f).Wakes (cancellation id) := by
  refine ⟨(fun h => nomatch h.choose_spec), fun started => ⟨fun _ => ?_, fun _ => hwakes⟩⟩
  exact heeds_ask (harmless_sleepUntil _) fun _ _ => hheeds

/-- A part of a job that neither sleeps nor cancels, then the rest of the job. -/
theorem wakes_after {β : Type} {j : Job α} {f : α → Job β}
    (hj : j.Does (cancellation id).NeverStops fun q => ¬ (cancellation id).sleeps q)
    (hf : ∀ a, (f a).Wakes (cancellation id)) : (j.bind f).Wakes (cancellation id) := .after hj (fun _ h => h) hf

theorem wakes_climb (rt : Runtime) (data : RenewalDue) (left n : Nat) :
    ((renewalLadder rt data).climb left n).Wakes (cancellation data.subscriptionId) := by
  have hrevives : ∀ f, Revives f → (cancellation data.subscriptionId).NeverStops (updated data.subscriptionId f) :=
    fun _ hf => neverStops_updated hf
  induction left generalizing n with
  | zero =>
      refine Wakes.bind (Transaction.Job.wakes_transaction_bind (fun _ => trivial) fun _ => heeds_ret _) (fun _ => trivial)
        fun _ => heeds_ret _
  | succ left ih =>
      refine wakes_after (does_chargeSubscription lets_neverStops rt data n fun _ _ _ => trivial) fun attempted => ?_
      split_ifs
      · exact wakes_after (does_advanceBillingCycle lets_neverStops data hrevives) fun _ => trivial
      · refine wakes_after (does_markPastDue data n hrevives) fun _ => wakes_sleep_bind ?_ ?_
        · exact heeds_stopsRenewal_bind fun _ => heeds_ret _
        · refine wakes_after (does_stopsRenewal lets_neverStops data (n + 1)) fun stop => ?_
          cases stop with
          | none => exact ih (n + 1)
          | some reason => trivial
      · exact ih (n + 1)

theorem wakes_of_does {j : Job α} (hj : j.Does (cancellation id).NeverStops fun q => ¬ (cancellation id).sleeps q) :
    j.Wakes (cancellation id) := .of_does hj fun _ h => h

theorem wakes_billingRenewal (rt : Runtime) (data : RenewalDue) :
    (billingRenewal rt data).Wakes (cancellation data.subscriptionId) := by
  refine wakes_after (does_runId lets_neverStops) fun runId => wakes_after (does_select lets_neverStops _) fun sub => ?_
  cases sub with
  | none => trivial
  | some sub =>
      dsimp only
      split_ifs
      · trivial
      · refine wakes_after (does_update (neverStops_updated ⟨fun _ => rfl, fun _ h => h⟩)) fun _ => ?_
        exact wakes_climb rt data _ _

theorem wakes_onSubscriptionCreated (data : SubscriptionActivated) :
    (onSubscriptionCreated data).Wakes (cancellation data.subscriptionId) := by
  have htrigger : ∀ sub, (triggerFirstRenewal data sub).Wakes (cancellation data.subscriptionId) := fun sub =>
    wakes_of_does (does_triggerFirstRenewal lets_neverStops data sub)
  refine wakes_after ((does_activateSubscription lets_neverStops data fun _ hf => neverStops_updated hf).retry _) fun sub => ?_
  split
  · exact htrigger sub
  · exact htrigger sub
  · refine wakes_sleep_bind ?_ (htrigger sub)
    exact (Ignores.of_does (does_triggerFirstRenewal lets_spares data sub)).heeds

theorem wakes_onEvent {event : Event} {j : Job α} (h : j.Wakes (cancellation id)) : (onEvent event j).Wakes (cancellation id) := by
  refine wakes_after (does_ask lets_neverStops ⟨nofun, nofun, nofun⟩) fun delivered => ?_
  cases delivered with
  | false => trivial
  | true => exact Wakes.bind h (fun _ => trivial) fun _ => heeds_ret ()

/-- A job heeds the stop after a sleep and after its own cancellation. -/
theorem wakes_request (rt : Runtime) (request : SubscriptionRequest) (h : request.Concerns id) :
    (request.job rt).Wakes (cancellation id) := by
  have hlets : Lets (cancellation id).NeverStops _ _ := lets_neverStops
  have hrevives : ∀ sid f, Revives f → (cancellation id).NeverStops (updated sid f) := fun _ _ hf => neverStops_updated hf
  cases request with
  | sweep => exact h.elim
  | renewal data =>
      obtain rfl := h
      exact wakes_onEvent (wakes_billingRenewal rt data)
  | activated data =>
      obtain rfl := h
      exact wakes_onEvent (wakes_onSubscriptionCreated data)
  | pause tenantId sid => exact wakes_after (does_pauseSubscription hlets tenantId sid hrevives) fun _ => trivial
  | resume tenantId sid => exact wakes_after (does_resumeSubscription hlets tenantId sid hrevives) fun _ => trivial
  | delete tenantId sid =>
      refine Wakes.bind (wakes_after (does_findSubscription hlets tenantId sid) fun sub => ?_) (fun _ => trivial)
        fun _ => heeds_ret ()
      split_ifs
      · trivial
      · exact Transaction.Job.wakes_transaction_bind (fun _ => trivial) fun _ => heeds_ret _

/-! ## Runs -/

section Runs

variable [DecidableEq ι]

/-- The step that cancels the subscription finds no activation of it in the queue, and every other job of it not begun,
asleep or ended. -/
def CancelsAtRest (requests : ι → SubscriptionRequest) (id : String) :
    Pool Backend ι Unit → ι → Pool Backend ι Unit → Prop :=
  Pool.StopsAtRest (cancellation id) fun i => (requests i).Concerns id

/-- In a run whose cancellations find the jobs of the subscription at rest, a cancelled subscription stays cancelled and is
charged no more. -/
theorem cancelled_final_of_rest (rt : Runtime) (requests : ι → SubscriptionRequest) (id : String) (s : Db) (w : World)
    (hstart : s.Cancelled id → w.NoActivation id) {p p' : Pool Backend ι Unit}
    (hp : Pool.ReachableIf (CancelsAtRest requests id) (Pool.init (fun i => (requests i).job rt) s w) p)
    (hcancelled : p.shared.store.Cancelled id) (hp' : Pool.ReachableIf (CancelsAtRest requests id) p p') :
    p'.shared.store.Cancelled id ∧ p'.shared.world.submissionsOf id = p.shared.world.submissionsOf id :=
  Pool.stop_final (S := cancellation id) (fun i hi => ignores_request rt (requests i) hi)
    (fun i hi => wakes_request rt (requests i) hi) (fun i hi => heeds_request rt (requests i) hi) hstart
    (fun _ _ _ _ h => h) hp hcancelled hp'

end Runs

/-! ## A deletion and a ladder -/

def renewalAndDeletion : Fin 2 → SubscriptionRequest
  | 0 => .renewal monthlyRenewal
  | 1 => .delete 1 "s"

/-- The renewal of the day waits in the queue, and no charge will succeed. -/
def declined : Pool Backend (Fin 2) Unit :=
  Pool.init (fun i => (renewalAndDeletion i).job billingRuntime) monthlyDb
    (.start (fun _ => 0) (fun _ => false) [.renewalDue monthlyRenewal])

/-- The next question of a job is a sleep. -/
def isAsleep : Transaction.Phase Backend Unit → Bool
  | .between (.ask (.sleepUntil _) _) => true
  | _ => false

theorem asleep_of_isAsleep {ph : Transaction.Phase Backend Unit} (h : isAsleep ph = true) : ph.Asleep (cancellation id) := by
  unfold isAsleep at h
  split at h
  · exact ⟨_, rfl⟩
  · cases h

/-- The deletion cancels while the ladder sleeps. -/
def deletesAtRest (p : Pool Backend (Fin 2) Unit) (i : Fin 2) (p' : Pool Backend (Fin 2) Unit) : Bool :=
  p.shared.store.Cancelled "s" || !decide (p'.shared.store.Cancelled "s") ||
    p.shared.world.pending.isEmpty && i = 1 && isAsleep (p.threads 0).phase

theorem cancelsAtRest_of_deletesAtRest (p : Pool Backend (Fin 2) Unit) (i : Fin 2) (p' : Pool Backend (Fin 2) Unit)
    (h : deletesAtRest p i p' = true) : CancelsAtRest renewalAndDeletion "s" p i p' := by
  intro hnot hstopped
  have hnot' : ¬ p.shared.store.Cancelled "s" := hnot
  have hstopped' : p'.shared.store.Cancelled "s" := hstopped
  simp only [deletesAtRest, hnot', hstopped', decide_false, decide_true, Bool.not_true, Bool.false_or, Bool.and_eq_true,
    List.isEmpty_iff, decide_eq_true_eq] at h
  obtain ⟨⟨hpending, rfl⟩, hasleep⟩ := h
  refine ⟨fun data hdata => ?_, fun j hj _ => ?_⟩
  · rw [hpending] at hdata
    cases hdata
  · match j with
    | 0 => exact .inr (.inl (asleep_of_isAsleep hasleep))
    | 1 => exact absurd rfl hj

/-- The ladder wakes and ends without another charge. -/
theorem cancelled_final_asleep : ∃ p p', Pool.ReachableIf (CancelsAtRest renewalAndDeletion "s") declined p ∧
    Pool.ReachableIf (CancelsAtRest renewalAndDeletion "s") p p' ∧ (p'.threads 0).phase.Finished ∧
      p.shared.store.Cancelled "s" ∧ (p.shared.world.submissionsOf "s").length = 1 ∧
      p'.shared.store.Cancelled "s" ∧ p'.shared.world.submissionsOf "s" = p.shared.world.submissionsOf "s" := by
  obtain ⟨p, hp, hend⟩ := Pool.ReachableIf.exists_of_check declined (List.replicate 29 0 ++ List.replicate 8 1)
    (fun p => decide (p.shared.store.Cancelled "s" ∧ (p.shared.world.submissionsOf "s").length = 1) &&
      (p.runSchedule deletesAtRest (List.replicate 4 0)).any fun p' => (p'.threads 0).phase.Finished)
    deletesAtRest (fun _ _ _ _ => cancelsAtRest_of_deletesAtRest _ _ _) (by decide +kernel)
  obtain ⟨hbefore, hafter⟩ := Bool.and_eq_true_iff.mp hend
  obtain ⟨hcancelled, hcharges⟩ := of_decide_eq_true hbefore
  obtain ⟨p', hp', hfinished⟩ := Pool.ReachableIf.exists_of_check p (List.replicate 4 0) _ deletesAtRest
    (fun _ _ _ _ => cancelsAtRest_of_deletesAtRest _ _ _) hafter
  obtain ⟨hcancelled', hcharges'⟩ := cancelled_final_of_rest billingRuntime renewalAndDeletion "s" monthlyDb _
    (fun h => absurd h (by decide)) hp hcancelled hp'
  exact ⟨p, p', hp, hp', of_decide_eq_true hfinished, hcancelled, hcharges, hcancelled', hcharges'⟩

/-- The deletion comes between the first attempt and the step that marks the subscription as past due: the ladder goes on. -/
theorem not_cancelled_final : ¬ ∀ p p', Pool.Reachable declined p → p.shared.store.Cancelled "s" → Pool.Reachable p p' →
    p'.shared.store.Cancelled "s" ∧ p'.shared.world.submissionsOf "s" = p.shared.world.submissionsOf "s" := by
  intro h
  obtain ⟨p, hp, hend⟩ := Pool.ReachableIf.exists_of_runSchedule declined (List.replicate 23 0 ++ List.replicate 8 1)
    (fun p => decide (p.shared.store.Cancelled "s") && (p.runSchedule (fun _ _ _ => true) (List.replicate 17 0)).any
      fun p' : Pool Backend (Fin 2) Unit => !decide (p'.shared.store.Cancelled "s"))
    (fun _ _ _ => trivial) (by decide +kernel)
  obtain ⟨hcancelled, hafter⟩ := Bool.and_eq_true_iff.mp hend
  obtain ⟨p', hp', hnot⟩ := Pool.ReachableIf.exists_of_runSchedule p (List.replicate 17 0) _ (fun _ _ _ => trivial) hafter
  exact absurd (h p p' hp (of_decide_eq_true hcancelled) hp').1 (by simpa using hnot)

end CorpoPay.Billing
