import CorpoPay.Billing.Lemmas.Jobs
import CorpoPay.Billing.Lemmas.Queue

/-!
# No charge before its date

A renewal charges as soon as it begins, and it begins as soon as its event is sent. What keeps the dates is that the
sweep sends only what is due. An activation, a renewal and a resumption send the event of the next period at once. It is
due when a resumption finds a date that has come and when a trial lasts as long as the first period; a renewal sends it
early whenever the queue takes it.
-/

namespace CorpoPay.Billing

open Data (DAY_MS)
open Settlement (Db Failure Id Subscription SubscriptionStatus)
open Transaction (Course Pool Shared)
open Transaction.Job (Returns amid_bind amid_ret amid_select returns_error returns_ok)

variable {ι α : Type}

/-- Every charge was submitted on its date or later. -/
def World.Timely (w : World) : Prop := ∀ submission ∈ w.submissions, submission.charge.key.dueDate ≤ submission.time

/-- Every renewal that waits in the queue is due. -/
def World.Due (w : World) : Prop := ∀ data, Event.renewalDue data ∈ w.pending → data.key.dueDate ≤ w.clock

/-- The renewals that a step puts into the queue are due. -/
def AddsDue (w w' : World) : Prop :=
  ∀ data, Event.renewalDue data ∈ w'.pending → Event.renewalDue data ∈ w.pending ∨ data.key.dueDate ≤ w.clock

/-! ## The condition -/

/-- The queue cannot be reached, or it has accepted the ids in the last 24 hours. -/
def World.Drops (w : World) (events : List Event) : Prop :=
  w.oracle.sendError w.answered ≠ none ∨
    ∀ event ∈ events, (w.accepted.any fun seen => seen.1 = event.id ∧ w.clock < seen.2 + DAY_MS) = true

/-- What a resumption does with the subscription it has found. -/
def resumeFound (sub : Subscription) : Job SubscriptionStatus :=
  if sub.status ≠ .paused then Backend.throw (invalidState "resume" sub.status)
  else do
    let now ← now
    let dueDate := max (sub.nextBillingDate.getD now) now
    let _ ← transaction (updateSubscription sub.id fun r => { r with status := .active })
    send [.renewalDue (renewalOf sub dueDate)]
    pure .active

theorem resumeSubscription_eq (tenantId : Id) (id : String) :
    resumeSubscription tenantId id = (findSubscription tenantId id).bind resumeFound := rfl

/-- What follows the step `activate-subscription`. -/
def afterActivation (data : SubscriptionActivated) (sub : Subscription) : Job Unit :=
  match data.trialDays with
  | none | some 0 => triggerFirstRenewal data sub
  | some trialDays => do
      sleep (trialDays * DAY_MS)
      triggerFirstRenewal data sub

theorem onSubscriptionCreated_eq (data : SubscriptionActivated) : onSubscriptionCreated data =
    (stepRun DEFAULT_RETRIES (activateSubscription data)).bind (afterActivation data) := rfl

/-- A resumption finds a date that has come, and the first period of an activation ends by the end of its trial. -/
def SubscriptionRequest.FindsDue (clock : Nat) : SubscriptionRequest → Job Unit → Prop
  | .resume _ _, j => ∀ sub, j = discard (resumeFound sub) → sub.status = .paused →
      ∀ date ∈ sub.nextBillingDate, date ≤ clock
  | .activated data, j => ∀ sub, j = discard (afterActivation data sub) →
      ∀ date ∈ sub.nextBillingDate, date ≤ clock + data.trialDays.getD 0 * DAY_MS
  | _, _ => True

/-- What a resumption or an activation goes on with is due, and the next period of a renewal has ended by now or its event
is dropped. -/
structure Punctual (request : SubscriptionRequest) (p : Pool Backend ι Unit) (i : ι) (p' : Pool Backend ι Unit) : Prop where
  finds : ∀ j, (p'.threads i).phase = .between j → request.FindsDue p.shared.world.clock j
  renews : ∀ data events, request = .renewal data → (p.threads i).phase.asking = some (Query.send events) →
    p.shared.world.Drops events ∨ ∀ next, Event.renewalDue next ∈ events → next.key.dueDate ≤ p.shared.world.clock

/-! ## Steps -/

/-- The clock goes on, and no charge is early. -/
def onTime : Course Backend where
  later σ σ' := σ.world.clock ≤ σ'.world.clock
  inv σ := σ.world.Due ∧ σ.world.Timely
  later_refl _ := le_refl _
  later_trans := le_trans

theorem onTime_committed {σ : Shared Backend} (h : onTime.inv σ) (w : Db → Db) : onTime.Reach σ (σ.committed w) :=
  ⟨le_refl _, h⟩

/-- A charge that is asked for is one with `P`. -/
def Charging (P : RenewalCharge → Prop) (q : Query) : Prop := ∀ charge, q = .chargeRenewal charge → P charge

theorem lets_charging (P : RenewalCharge → Prop) : Lets (fun _ => True) (Charging P) P :=
  ⟨fun _ _ => trivial, fun _ hq => hq.charge⟩

theorem charging_sleepUntil {P : RenewalCharge → Prop} (time : Nat) : Charging P (.sleepUntil time) := nofun

/-- A question that asks for no early charge and adds no early event. -/
theorem onTime_asked {σ : Shared Backend} {q : Query} (hinv : onTime.inv σ)
    (hcharge : Charging (·.key.dueDate ≤ σ.world.clock) q) (hadds : AddsDue σ.world (σ.asked q).world) :
    onTime.Reach σ (σ.asked q) := by
  have hclock : σ.world.clock ≤ (World.reply σ.world q).2.clock := World.clock_le_reply σ.world q
  refine ⟨hclock, fun data hpending => ?_, fun submission hsubmission => ?_⟩
  · exact le_trans ((hadds data hpending).elim (hinv.1 data) id) hclock
  · have hmem : submission ∈ σ.world.submissions ++ σ.world.submitted q :=
      World.submissions_reply σ.world q ▸ hsubmission
    rcases List.mem_append.mp hmem with hold | hnew
    · exact hinv.2 submission hold
    · cases q with
      | chargeRenewal charge =>
          obtain rfl := List.mem_singleton.mp hnew
          exact hcharge charge rfl
      | _ => cases hnew

/-- A send whose renewals are due. -/
theorem addsDue_send {σ : Shared Backend} {events : List Event}
    (h : ∀ data, Event.renewalDue data ∈ events → data.key.dueDate ≤ σ.world.clock) :
    AddsDue σ.world (σ.asked (.send events)).world := by
  intro data hpending
  refine (World.mem_pending_reply hpending).imp id fun hsent => ?_
  obtain ⟨events', hevents, hmem⟩ := hsent
  cases hevents
  exact h data hmem

/-- A question that sends nothing. -/
theorem addsDue_of_not_send {σ : Shared Backend} {q : Query} (h : ∀ events, q ≠ .send events) :
    AddsDue σ.world (σ.asked q).world := fun _ hpending =>
  .inl ((World.mem_pending_reply hpending).resolve_right fun hsent => h _ hsent.choose_spec.1)

theorem World.accept_seen {w : World} {events : List Event}
    (h : ∀ event ∈ events, (w.accepted.any fun seen => seen.1 = event.id ∧ w.clock < seen.2 + DAY_MS) = true) :
    events.foldl World.accept w = w := by
  induction events with
  | nil => rfl
  | cons event events ih =>
      have hfirst : w.accept event = w := if_pos (h event List.mem_cons_self)
      rw [List.foldl_cons, hfirst]
      exact ih fun e he => h e (List.mem_cons_of_mem _ he)

/-- A send that the queue drops. -/
theorem World.Drops.addsDue {σ : Shared Backend} {events : List Event} (h : σ.world.Drops events) :
    AddsDue σ.world (σ.asked (.send events)).world := by
  have hsame : (σ.asked (.send events)).world.pending = σ.world.pending := by
    show (if σ.world.oracle.sendError σ.world.answered = none then events.foldl accept σ.world else σ.world).pending = _
    split_ifs with hreached
    · rw [World.accept_seen (h.resolve_left fun hnot => hnot hreached)]
    · rfl
  exact fun data hpending => .inl (hsame ▸ hpending)

/-! ## Jobs -/

section Jobs

variable {own : Shared Backend → Shared Backend → Prop} {Q : Except Failure α → Shared Backend → Prop} {σ : Shared Backend}
  {j : Job α}

/-- A job whose charges are for one date, once the date has come. -/
theorem onTime_of_charges {fine : Shared Backend → Job α → Prop} (date : Nat)
    (h : j.Does (fun _ => True) (Charging (·.key.dueDate = date))) (hdate : date ≤ σ.world.clock)
    (hown : ∀ σ σ', own σ σ' → AddsDue σ.world σ'.world) (hQ : ∀ r σ', onTime.Reach σ σ' → Q r σ') :
    j.Amid onTime own (fun _ _ _ => True) fine Q σ := by
  refine h.amid (K := fun σ : Shared Backend => date ≤ σ.world.clock) (fun _ _ hr hK => le_trans hK hr.1) hdate
    (fun w σ _ _ hinv _ => onTime_committed hinv w) (fun _ _ _ _ _ _ _ _ => trivial)
    (fun q σ hq hK hinv hmoves => onTime_asked hinv (fun charge hcharge => ?_) (hown _ _ hmoves)) fun r σ' hr _ => hQ r σ' hr
  exact (hq charge hcharge).trans_le hK

/-- The job sends nothing and charges nothing. -/
def Idle (q : Query) : Prop := (∀ events, q ≠ .send events) ∧ ∀ charge, q ≠ .chargeRenewal charge

theorem onTime_of_idle {fine : Shared Backend → Job α → Prop} (h : j.Does (fun _ => True) Idle) :
    j.Amid onTime own (fun _ _ _ => True) fine (fun _ _ => True) σ := by
  refine h.amid (K := fun _ => True) (fun _ _ _ _ => trivial) trivial (fun w σ _ _ hinv _ => onTime_committed hinv w)
    (fun _ _ _ _ _ _ _ _ => trivial) (fun q σ hq _ hinv _ => ?_) fun _ _ _ _ => trivial
  exact onTime_asked hinv (fun charge hcharge => absurd hcharge (hq.2 charge)) (addsDue_of_not_send hq.1)

theorem onTime_now : now.Amid onTime own (fun _ _ _ => True) (fun _ _ => True)
    (Returns fun n σ' => σ.world.clock ≤ n ∧ n ≤ σ'.world.clock) σ := by
  refine fun σ' hr _ _ => ?_
  have hnext := onTime_asked (q := .now) hr.2 (fun _ h => by cases h) (addsDue_of_not_send fun _ h => by cases h)
  exact ⟨hnext, amid_ret fun σ'' hr' => ⟨hr.1, le_trans hnext.1 hr'.1⟩⟩

theorem onTime_sleep {duration : Nat} (hσ : onTime.inv σ) : (sleep duration).Amid onTime own (fun _ _ _ => True)
    (fun _ _ => True) (Returns fun _ σ' => σ.world.clock + duration ≤ σ'.world.clock) σ := by
  refine amid_bind hσ (fun _ _ => trivial) onTime_now (fun started σ₁ _ hstarted _ => ?_) fun e _ _ => returns_error e
  refine fun σ₂ hr₂ _ _ => ⟨onTime_asked hr₂.2 (fun _ h => by cases h) (addsDue_of_not_send fun _ h => by cases h), ?_⟩
  refine fun σ₃ hr₃ => returns_ok ?_
  have hwoken : started + duration ≤ (σ₂.asked (.sleepUntil (started + duration))).world.clock :=
    le_trans (le_max_right σ₂.world.clock _) (Nat.le_add_right _ _)
  exact le_trans (Nat.add_le_add_right hstarted.1 duration) (le_trans hwoken hr₃.1)

/-- The subscriptions of a list are due. -/
def AllDue (due : List Subscription) (σ : Shared Backend) : Prop :=
  ∀ sub ∈ due, ∃ date, sub.nextBillingDate = some date ∧ date ≤ σ.world.clock

theorem AllDue.later {due : List Subscription} {σ σ' : Shared Backend} (h : AllDue due σ)
    (hclock : σ.world.clock ≤ σ'.world.clock) : AllDue due σ' := fun sub hsub => by
  obtain ⟨date, hdate, hle⟩ := h sub hsub
  exact ⟨date, hdate, le_trans hle hclock⟩

theorem allDue_dueSubscriptions {db : Db} {now : Nat} (hnow : now ≤ σ.world.clock) : AllDue (dueSubscriptions db now) σ := by
  intro sub hsub
  have hfilter := (Bool.and_eq_true_iff.mp (List.mem_filter.mp hsub).2).2
  cases hdate : sub.nextBillingDate with
  | none => rw [hdate] at hfilter; cases hfilter
  | some date =>
      rw [hdate] at hfilter
      exact ⟨date, rfl, le_trans (of_decide_eq_true hfilter) hnow⟩

theorem onTime_findDueSubscriptions (hσ : onTime.inv σ) :
    findDueSubscriptions.Amid onTime own (fun _ _ _ => True) (fun _ _ => True) (Returns AllDue) σ := by
  refine amid_bind hσ (fun _ _ => trivial) onTime_now (fun now σ₁ hr₁ hnow _ => ?_) fun e _ _ => returns_error e
  refine amid_select (fun _ _ => trivial) (fun _ _ _ hr hdue => hdue.later hr.1) fun σ₂ hr₂ => ?_
  exact allDue_dueSubscriptions (le_trans hnow.2 hr₂.1)

/-- A send of renewals that are due. -/
theorem onTime_send {events : List Event} (h : ∀ data, Event.renewalDue data ∈ events → data.key.dueDate ≤ σ.world.clock) :
    (send events).Amid onTime own (fun _ _ _ => True) (fun _ _ => True) (fun _ _ => True) σ := by
  refine fun σ' hr _ _ => ⟨onTime_asked hr.2 (fun _ hq => by cases hq) (addsDue_send fun data hdata => ?_), ?_⟩
  · exact le_trans (h data hdata) hr.1
  · generalize (Backend.reply σ'.world (.send events)).1 = answer
    cases answer <;> exact fun _ _ => trivial

theorem onTime_dispatchRenewals {due : List Subscription} (hσ : onTime.inv σ) (hdue : AllDue due σ) :
    (dispatchRenewals due).Amid onTime own (fun _ _ _ => True) (fun _ _ => True) (fun _ => AllDue due) σ := by
  refine amid_bind hσ (fun _ _ => trivial) onTime_now (fun now σ₁ hr₁ _ _ => ?_) fun _ _ hr => hdue.later hr.1
  have hdue₁ := hdue.later hr₁.1
  refine Transaction.Job.Amid.bind hr₁.2 (fun _ _ => trivial) (onTime_send fun data hdata => ?_)
    (fun _ σ₂ hr₂ _ _ σ₃ hr₃ => hdue₁.later (hr₂.trans hr₃).1) fun _ _ hr _ => hdue₁.later hr.1
  obtain ⟨sub, hsub, hevent⟩ := List.mem_map.mp hdata
  obtain ⟨date, hdate, hle⟩ := hdue₁ sub hsub
  cases hevent
  rw [hdate]
  exact hle

theorem onTime_billingDailySweep (hσ : onTime.inv σ) :
    billingDailySweep.Amid onTime own (fun _ _ _ => True) (fun _ _ => True) (fun _ _ => True) σ := by
  have hfind : (stepRun DEFAULT_RETRIES findDueSubscriptions).Amid onTime own (fun _ _ _ => True) (fun _ _ => True)
      (Returns AllDue) σ := by
    refine Transaction.Job.Amid.retry (J := fun _ => True) (D := fun _ _ => True) _ hσ trivial (fun _ _ _ _ => trivial) fun σ hinv _ => ?_
    refine (onTime_findDueSubscriptions hinv).mono (fun _ _ _ h => h) fun r _ _ hr => ?_
    cases r with
    | ok due => exact hr
    | error e => exact ⟨trivial, hr⟩
  refine amid_bind hσ (fun _ _ => trivial) hfind (fun due σ₁ hr₁ hdue _ => ?_) fun _ _ _ => trivial
  dsimp only
  split_ifs
  · exact fun _ _ => trivial
  · refine Transaction.Job.Amid.retry (J := AllDue due) (D := fun _ _ => True) _ hr₁.2 hdue (fun _ _ _ _ => trivial) fun σ hinv hdue => ?_
    refine (onTime_dispatchRenewals hinv hdue).mono (fun _ _ _ h => h) fun r _ _ hr => ?_
    cases r with
    | ok n => trivial
    | error e => exact ⟨hr, trivial⟩

end Jobs

/-! ## Activations and resumptions -/

section Requests

variable {own : Shared Backend → Shared Backend → Prop} {σ : Shared Backend}

theorem discard_bind {β : Type} (j : Job β) (f : β → Job α) : discard (j.bind f) = j.bind fun b => discard (f b) :=
  Transaction.Job.bind_assoc _ _ _

theorem does_update_idle {id : String} {f : Subscription → Subscription} :
    (transaction (updateSubscription id f)).Does (fun _ => True) Idle := does_update trivial

theorem does_findSubscription_idle (tenantId : Id) (id : String) :
    (findSubscription tenantId id).Does (fun _ => True) Idle := by
  refine (Transaction.Job.does_get trivial _).bind fun sub => ?_
  cases sub <;> trivial

theorem does_now_idle : now.Does (fun _ => True) Idle := Transaction.Job.does_query ⟨nofun, nofun⟩

theorem onTime_triggerFirstRenewal {data : SubscriptionActivated} {sub : Subscription} (hσ : onTime.inv σ)
    (hdue : ∀ date ∈ sub.nextBillingDate, date ≤ σ.world.clock) :
    (triggerFirstRenewal data sub).Amid onTime own (fun _ _ _ => True) (fun _ _ => True) (fun _ _ => True) σ := by
  refine amid_bind hσ (fun _ _ => trivial) onTime_now (fun now σ₁ hr₁ hnow _ => ?_) fun _ _ _ => trivial
  have hdate : sub.nextBillingDate.getD now ≤ σ₁.world.clock := by
    cases hnext : sub.nextBillingDate with
    | none => exact hnow.2
    | some date => exact le_trans (hdue date hnext) hr₁.1
  refine Transaction.Job.Amid.retry (J := fun σ : Shared Backend => sub.nextBillingDate.getD now ≤ σ.world.clock)
    (D := fun _ _ => True) _ hr₁.2 hdate (fun _ _ _ _ => trivial) fun σ hinv hdate => ?_
  refine (onTime_send fun data' hdata => ?_).mono (fun _ _ _ h => h) fun r σ' hr _ => ?_
  · rw [List.mem_singleton] at hdata
    cases hdata
    exact hdate
  · cases r with
    | ok _ => trivial
    | error e => exact ⟨le_trans hdate hr.1, trivial⟩

theorem onTime_afterActivation {data : SubscriptionActivated} {sub : Subscription} (hσ : onTime.inv σ)
    (hdue : ∀ date ∈ sub.nextBillingDate, date ≤ σ.world.clock + data.trialDays.getD 0 * DAY_MS) :
    (afterActivation data sub).Amid onTime own (fun _ _ _ => True) (fun _ _ => True) (fun _ _ => True) σ := by
  unfold afterActivation
  split
  · rename_i htrial
    exact onTime_triggerFirstRenewal hσ fun date hdate => by simpa [htrial] using hdue date hdate
  · rename_i htrial
    exact onTime_triggerFirstRenewal hσ fun date hdate => by simpa [htrial] using hdue date hdate
  · rename_i trialDays _ htrial
    refine amid_bind hσ (fun _ _ => trivial) (onTime_sleep hσ) (fun _ σ₁ hr₁ hslept _ => ?_) fun _ _ _ => trivial
    refine onTime_triggerFirstRenewal hr₁.2 fun date hdate => le_trans (hdue date hdate) ?_
    rw [htrial]
    exact hslept

theorem onTime_resumeFound {sub : Subscription} (hσ : onTime.inv σ)
    (hdue : sub.status = .paused → ∀ date ∈ sub.nextBillingDate, date ≤ σ.world.clock) :
    (resumeFound sub).Amid onTime own (fun _ _ _ => True) (fun _ _ => True) (fun _ _ => True) σ := by
  unfold resumeFound
  split_ifs with hpaused
  · exact fun _ _ => trivial
  · refine amid_bind hσ (fun _ _ => trivial) onTime_now (fun now σ₁ hr₁ hnow _ => ?_) fun _ _ _ => trivial
    have hdate : max (sub.nextBillingDate.getD now) now ≤ σ₁.world.clock := by
      refine max_le ?_ hnow.2
      cases hnext : sub.nextBillingDate with
      | none => exact hnow.2
      | some date => exact le_trans (hdue (not_not.mp hpaused) date hnext) hr₁.1
    refine Transaction.Job.Amid.bind hr₁.2 (fun _ _ => trivial) (onTime_of_idle does_update_idle) (fun _ σ₂ hr₂ _ _ => ?_)
      fun _ _ _ _ => trivial
    refine Transaction.Job.Amid.bind hr₂.2 (fun _ _ => trivial) (onTime_send fun data hdata => ?_) (fun _ _ _ _ _ _ _ => trivial)
      fun _ _ _ _ => trivial
    rw [List.mem_singleton] at hdata
    cases hdata
    exact le_trans hdate hr₂.1

end Requests

/-! ## Runs -/

/-- A renewal adds no early event. -/
def KeepsDates (request : SubscriptionRequest) (σ σ' : Shared Backend) : Prop :=
  ∀ data, request = .renewal data → AddsDue σ.world σ'.world

section Kinds

variable {request : SubscriptionRequest} {σ : Shared Backend}

theorem onTime_discard {fine : Shared Backend → Job Unit → Prop} {j : Job α} (hσ : onTime.inv σ)
    (h : j.Amid onTime (KeepsDates request) (fun _ _ _ => True) (fun _ _ => True) (fun _ _ => True) σ) :
    (discard j).Amid onTime (KeepsDates request) (fun _ _ _ => True) fine (fun _ _ => True) σ :=
  Transaction.Job.Amid.anywhere (Transaction.Job.Amid.bind hσ (fun _ _ => trivial) h (fun _ _ _ _ _ _ _ => trivial)
    fun _ _ _ _ => trivial)

/-- A renewal is taken from the queue when it is due. -/
theorem onTime_renewal (rt : Runtime) (data : RenewalDue) {fine : Shared Backend → Job Unit → Prop} :
    ((SubscriptionRequest.renewal data).job rt).Amid onTime (KeepsDates (.renewal data)) (fun _ _ _ => True) fine
      (fun _ _ => True) σ := by
  have hadds : ∀ σ σ', KeepsDates (.renewal data) σ σ' → AddsDue σ.world σ'.world := fun _ _ hown => hown data rfl
  refine fun σ' hr hown _ => ?_
  have hnext := onTime_asked hr.2 (fun _ hq => by cases hq) (hadds _ _ hown)
  refine ⟨hnext, ?_⟩
  by_cases hpending : Event.renewalDue data ∈ σ'.world.pending
  · have hanswer : (Backend.reply σ'.world (.deliver (.renewalDue data))).1 = true := decide_eq_true hpending
    rw [hanswer]
    refine onTime_of_charges data.key.dueDate ?_ (le_trans (hr.2.1 data hpending) hnext.1) hadds fun _ _ _ => trivial
    refine (does_billingRenewal (lets_charging _) rt data (fun charge _ hkey => ?_) charging_sleepUntil
      fun _ _ => trivial).bind fun _ => trivial
    exact congrArg ChargeKey.dueDate hkey
  · have hanswer : (Backend.reply σ'.world (.deliver (.renewalDue data))).1 = false := decide_eq_false hpending
    rw [hanswer]
    exact fun _ _ => trivial

/-- An activation goes on with a subscription whose first period ends by the end of the trial. -/
theorem onTime_activated (rt : Runtime) (data : SubscriptionActivated) :
    ((SubscriptionRequest.activated data).job rt).Amid onTime (KeepsDates (.activated data)) (fun _ _ _ => True)
      (fun σ => (SubscriptionRequest.activated data).FindsDue σ.world.clock) (fun _ _ => True) σ := by
  refine fun σ' hr _ _ => ?_
  have hnext := onTime_asked (q := .deliver (.subscriptionActivated data)) hr.2 (fun _ hq => by cases hq)
    (addsDue_of_not_send fun _ h => by cases h)
  refine ⟨hnext, ?_⟩
  generalize (Backend.reply σ'.world (.deliver (.subscriptionActivated data))).1 = delivered
  cases delivered with
  | false => exact fun _ _ => trivial
  | true =>
      show (discard (onSubscriptionCreated data)).Amid _ _ _ _ _ _
      rw [onSubscriptionCreated_eq, discard_bind]
      have hactivate : (stepRun DEFAULT_RETRIES (activateSubscription data)).Does (fun _ => True) Idle :=
        (does_now_idle.bind fun _ => does_update_idle).retry _
      refine Transaction.Job.Amid.bind hnext.2 (fun a ha => ?_) (onTime_of_idle hactivate) (fun sub σ₁ hr₁ _ hfine => ?_)
        fun _ _ _ _ => trivial
      · obtain ⟨b, hb, -⟩ := Transaction.Job.bind_eq_ret (Transaction.Job.retry_eq_ret ha)
        cases hb
      · exact onTime_discard hr₁.2 (onTime_afterActivation hr₁.2 (hfine sub rfl))

/-- A resumption goes on with a subscription whose date has come. -/
theorem onTime_resume (tenantId : Id) (id : String) (hσ : onTime.inv σ) :
    (discard (resumeSubscription tenantId id)).Amid onTime (KeepsDates (.resume tenantId id)) (fun _ _ _ => True)
      (fun σ => (SubscriptionRequest.resume tenantId id).FindsDue σ.world.clock) (fun _ _ => True) σ := by
  rw [resumeSubscription_eq, discard_bind]
  refine Transaction.Job.Amid.bind hσ (fun a ha => ?_) (onTime_of_idle (does_findSubscription_idle tenantId id))
    (fun sub σ₁ hr₁ _ hfine => ?_) fun _ _ _ _ => trivial
  · obtain ⟨b, hb, -⟩ := Transaction.Job.bind_eq_ret ha
    cases hb
  · exact onTime_discard hr₁.2 (onTime_resumeFound hr₁.2 (hfine sub rfl))

theorem onTime_request (rt : Runtime) (request : SubscriptionRequest) (hσ : onTime.inv σ) :
    (request.job rt).Amid onTime (KeepsDates request) (fun _ _ _ => True) (fun σ => request.FindsDue σ.world.clock)
      (fun _ _ => True) σ := by
  cases request with
  | sweep => exact onTime_discard hσ (onTime_billingDailySweep hσ)
  | renewal data => exact onTime_renewal rt data
  | activated data => exact onTime_activated rt data
  | pause tenantId id =>
      refine onTime_discard hσ (onTime_of_idle ((does_findSubscription_idle tenantId id).bind fun sub => ?_))
      split_ifs
      · trivial
      · exact does_update_idle.bind fun _ => trivial
  | resume tenantId id => exact onTime_resume tenantId id hσ
  | delete tenantId id =>
      refine onTime_discard hσ (onTime_of_idle ((does_findSubscription_idle tenantId id).bind fun sub => ?_))
      split_ifs
      · trivial
      · exact does_update_idle.bind fun _ => trivial

end Kinds

theorem SubscriptionRequest.FindsDue.later {request : SubscriptionRequest} {clock clock' : Nat} {j : Job Unit}
    (h : request.FindsDue clock j) (hclock : clock ≤ clock') : request.FindsDue clock' j := by
  cases request with
  | resume tenantId id => exact fun sub hj hpaused date hdate => le_trans (h sub hj hpaused date hdate) hclock
  | activated data => exact fun sub hj date hdate => le_trans (h sub hj date hdate) (Nat.add_le_add_right hclock _)
  | _ => trivial

section Runs

variable [DecidableEq ι]

theorem clock_le_of_step {p p' : Pool Backend ι Unit} {i : ι} (hstep : p.Step i p') :
    p.shared.world.clock ≤ p'.shared.world.clock := by
  rcases hstep.inv.1.world with hsame | ⟨q, -, hasked⟩
  · exact (congrArg World.clock hsame).ge
  · rw [hasked]
    exact World.clock_le_reply _ _

theorem keepsDates_of_punctual {request : SubscriptionRequest} {p p' : Pool Backend ι Unit} {i : ι} (hstep : p.Step i p')
    (h : Punctual request p i p') : KeepsDates request p.shared p'.shared := by
  rintro data rfl
  rcases hstep.inv.1.world with hsame | ⟨q, hasks, hasked⟩
  · exact fun event hpending => .inl (hsame ▸ hpending)
  · rw [hasked]
    by_cases hsend : ∃ events, q = .send events
    · obtain ⟨events, rfl⟩ := hsend
      exact (h.renews data events rfl hasks).elim World.Drops.addsDue addsDue_send
    · exact addsDue_of_not_send fun events hq => hsend ⟨events, hq⟩

/-- In a run where what activations and resumptions go on with is due and the next period of a renewal has ended or its
event is dropped, no charge is submitted before its date. -/
theorem timely_of_punctual (rt : Runtime) (requests : ι → SubscriptionRequest) (s : Db) (w : World) (hdue : w.Due)
    (hw : w.Timely) (p : Pool Backend ι Unit)
    (hp : Pool.ReachableIf (fun p i p' => Punctual (requests i) p i p') (Pool.init (fun i => (requests i).job rt) s w) p) :
    p.shared.world.Timely := by
  have hrun : p.Amid onTime (fun i => KeepsDates (requests i)) (fun _ _ _ _ => True)
      (fun i σ => (requests i).FindsDue σ.world.clock) fun _ _ _ => True :=
    Pool.amid_run ⟨hdue, hw⟩ (fun i => onTime_request rt (requests i) ⟨hdue, hw⟩)
      (fun p i p' hstep hpunctual => ⟨keepsDates_of_punctual hstep hpunctual, fun j hj =>
        (hpunctual.finds j hj).later (clock_le_of_step hstep)⟩) hp
  exact hrun.inv.2

end Runs

/-! ## A period and an activation -/

/-- Nothing takes time, and every charge succeeds. -/
def World.prompt (pending : List Event) : World := .start (fun _ => 0) (fun _ => true) pending

/-- The dates of the renewals that a job sends, if it goes on alone and the clock shows nothing yet. -/
def sentDates (db : Db) (j : Job Unit) : Option (List Nat) :=
  let r := j.run db { World.prompt [] with clock := 0 }
  if r.1.isOk then
    some (r.2.2.pending.filterMap fun event =>
      match event with
      | .renewalDue data => some data.key.dueDate
      | _ => none)
  else none

theorem run_updateSubscription (id : String) (f : Subscription → Subscription) (db : Db) (w : World) :
    (transaction (updateSubscription id f)).run db w = match db.subscription id with
      | none => (.error notFound, db, w)
      | some row => (.ok (f row), { db with subscriptions := db.subscriptions.map fun r => if r.id = id then f r else r }, w) := by
  have hbody : (updateSubscription id f).run db w = match db.subscription id with
      | none => (.error notFound, w)
      | some row => (.ok (f row, { db with subscriptions := db.subscriptions.map fun r => if r.id = id then f r else r }), w) := by
    simp only [updateSubscription, Transaction.Tx.bind_eq, Transaction.Tx.acquire, Transaction.Tx.get,
      Transaction.Tx.bind, Transaction.Tx.run]
    cases db.subscription id <;> rfl
  rw [Transaction.Job.run_transaction, hbody]
  cases db.subscription id <;> rfl

theorem run_send {events : List Event} {db : Db} {w : World} (n : Nat) (h : w.oracle.sendError w.answered = none) :
    (stepRun n (send events)).run db w = (.ok (), db, (World.reply w (.send events)).2) := by
  refine Transaction.Job.run_retry_ok ?_ n
  simp [send, Transaction.Job.run_bind, Transaction.Job.run, Transaction.Job.query, World.reply, World.answer, h]

theorem mem_sentDates_resumeFound {db : Db} {sub : Subscription} {date : Nat} {dates : List Nat} (hpaused : sub.status = .paused)
    (hdate : sub.nextBillingDate = some date) (h : sentDates db (discard (resumeFound sub)) = some dates) : date ∈ dates := by
  cases hrow : db.subscription sub.id <;>
    simp [sentDates, discard, resumeFound, hpaused, hdate, hrow, Bind.bind, Transaction.Job.run_bind, Transaction.Job.run,
      Transaction.Job.query, World.reply, World.answer, World.effect, send, World.prompt, World.start, World.accept,
      run_updateSubscription, renewalOf, periodKey, Except.isOk, Except.toBool] at h
  simp [← h]

theorem mem_sentDates_afterActivation {db : Db} {data : SubscriptionActivated} {sub : Subscription} {date : Nat}
    {dates : List Nat} (hdate : sub.nextBillingDate = some date)
    (h : sentDates db (discard (afterActivation data sub)) = some dates) : date ∈ dates := by
  unfold afterActivation at h
  split at h <;>
  · simp [triggerFirstRenewal, sentDates, discard, hdate, Bind.bind, Transaction.Job.run_bind, Transaction.Job.run,
      Transaction.Job.query, World.reply, World.answer, World.effect, World.prompt, World.start, sleep, run_send,
      World.accept, Except.isOk, Except.toBool, periodKey] at h
    simp [← h]

/-- What a job has found is due: it asks for the time next and sends nothing that is later than `latest`. -/
def sendsBy (latest : Nat) (db : Db) : Job Unit → Bool
  | .ask .now k => (sentDates db (.ask .now k)).any (·.all (· ≤ latest))
  | _ => true

theorem le_of_sendsBy {latest : Nat} {db : Db} {k : Nat → Job Unit} (h : sendsBy latest db (.ask .now k) = true) :
    ∃ dates, sentDates db (.ask .now k) = some dates ∧ ∀ date ∈ dates, date ≤ latest := by
  obtain ⟨dates, hdates, hall⟩ := (Option.any_eq_true _ _).mp h
  exact ⟨dates, hdates, fun date hdate => of_decide_eq_true (List.all_eq_true.mp hall date hdate)⟩

def SubscriptionRequest.foundCheck (clock : Nat) (db : Db) : SubscriptionRequest → Job Unit → Bool
  | .resume _ _, j => sendsBy clock db j
  | .activated data, j => sendsBy (clock + data.trialDays.getD 0 * DAY_MS) db j
  | _, _ => true

theorem SubscriptionRequest.findsDue_of_check {clock : Nat} {db : Db} {request : SubscriptionRequest} {j : Job Unit}
    (h : request.foundCheck clock db j = true) : request.FindsDue clock j := by
  cases request with
  | resume tenantId id =>
      rintro sub rfl hpaused date hdate
      have hnow : ∃ k, discard (resumeFound sub) = .ask .now k :=
        ⟨_, by simp only [discard, resumeFound, hpaused, ne_eq, not_true_eq_false, if_false]; rfl⟩
      obtain ⟨k, hk⟩ := hnow
      obtain ⟨dates, hdates, hall⟩ := le_of_sendsBy (hk ▸ h)
      exact hall date (mem_sentDates_resumeFound hpaused hdate (hk ▸ hdates))
  | activated data =>
      rintro sub rfl date hdate
      have hnow : ∃ k, discard (afterActivation data sub) = .ask .now k := by
        unfold afterActivation
        split <;> exact ⟨_, rfl⟩
      obtain ⟨k, hk⟩ := hnow
      obtain ⟨dates, hdates, hall⟩ := le_of_sendsBy (hk ▸ h)
      exact hall date (mem_sentDates_afterActivation hdate (hk ▸ hdates))
  | _ => trivial

/-- A computable condition that is enough: the next event of a renewal finds no queue. -/
def punctualCheck (requests : ι → SubscriptionRequest) (p : Pool Backend ι Unit) (i : ι) (p' : Pool Backend ι Unit) : Bool :=
  (match (p'.threads i).phase with
    | .between j => (requests i).foundCheck p.shared.world.clock p'.shared.store j
    | .inside _ _ _ => true) &&
  match requests i, (p.threads i).phase.asking with
  | .renewal _, some (.send _) => (p.shared.world.oracle.sendError p.shared.world.answered).isSome
  | _, _ => true

theorem punctual_of_check {requests : ι → SubscriptionRequest} {p p' : Pool Backend ι Unit} {i : ι}
    (h : punctualCheck requests p i p' = true) : Punctual (requests i) p i p' := by
  obtain ⟨hfound, hsends⟩ := Bool.and_eq_true_iff.mp h
  refine ⟨fun j hj => ?_, fun data events hdata hasks => ?_⟩
  · rw [hj] at hfound
    exact SubscriptionRequest.findsDue_of_check hfound
  · rw [hdata, hasks] at hsends
    exact .inl (.inl (Option.isSome_iff_ne_none.mp hsends))

/-- The 1st of April 2024. -/
def aprilDay : Nat := Data.dayOfCivil ⟨2024, 4, 1⟩ * DAY_MS

/-- 31 days of trial, which is all of March. -/
def trialActivation : SubscriptionActivated :=
  { id := "e", subscriptionId := "t", tenantId := 1, amount := 10000, currency := .mad, intervalType := .monthly,
    intervalValue := 1, trialDays := some 31 }

def trial : Subscription := { monthly with id := "t", status := .pending, nextBillingDate := none }

/-- A subscription that was paused until its next date, and one that begins. -/
def pausedDb : Db := { monthlyDb with subscriptions := [{ monthly with status := .paused }, trial] }

def datedRequests : Fin 5 → SubscriptionRequest
  | 0 => .resume 1 "s"
  | 1 => .sweep
  | 2 => .renewal monthlyRenewal
  | 3 => .activated trialActivation
  | 4 => .renewal (renewalOf trial aprilDay)

/-- The queue can be reached up to the 14th answer. -/
def World.cutOff : World :=
  let w := World.prompt [.subscriptionActivated trialActivation]
  { w with oracle := { w.oracle with sendError := fun k => if k < 14 then none else some "unreachable" } }

/-- The resumption sends the renewal of the day, which the sweep does not repeat. The subscription with a trial is charged
a month later, when its first period has ended. The queue takes no event of a second period. -/
theorem timely_of_sweep : ∃ p,
    Pool.ReachableIf (fun p i p' => Punctual (datedRequests i) p i p')
      (Pool.init (fun i => (datedRequests i).job billingRuntime) pausedDb .cutOff) p ∧
      p.shared.world.submissions.map (fun s => (s.charge.key.dueDate, s.time)) = [(dueDay, dueDay), (aprilDay, aprilDay)] ∧
      p.shared.world.pending = [] ∧ p.shared.world.Timely := by
  obtain ⟨p, hp, hcharged⟩ := Pool.ReachableIf.exists_of_check
    (Pool.init (fun i => (datedRequests i).job billingRuntime) pausedDb .cutOff)
    (List.replicate 10 0 ++ List.replicate 6 1 ++ List.replicate 17 2 ++ List.replicate 11 3 ++ List.replicate 30 4 ++
      List.replicate 13 2)
    (fun p => p.shared.world.submissions.map (fun s => (s.charge.key.dueDate, s.time)) =
      [(dueDay, dueDay), (aprilDay, aprilDay)] && p.shared.world.pending = [])
    (punctualCheck datedRequests) (fun p i p' _ => punctual_of_check) (by decide +kernel)
  obtain ⟨hsubmissions, hpending⟩ := Bool.and_eq_true_iff.mp hcharged
  refine ⟨p, hp, of_decide_eq_true hsubmissions, of_decide_eq_true hpending, ?_⟩
  exact timely_of_punctual _ _ _ _ (fun _ h => by simp [World.cutOff, World.prompt, World.start] at h)
    (fun _ h => by cases h) p hp

/-- A subscription whose initial payment has just succeeded. -/
def newDb : Db := { monthlyDb with subscriptions := [{ monthly with status := .pending, nextBillingDate := none }] }

def activation : SubscriptionActivated :=
  { id := "e", subscriptionId := "s", tenantId := 1, amount := 10000, currency := .mad, intervalType := .monthly,
    intervalValue := 1, trialDays := none }

def activationAndRenewal : Fin 2 → SubscriptionRequest
  | 0 => .activated activation
  | 1 => .renewal (renewalOf monthly (Data.dayOfCivil ⟨2024, 4, 1⟩ * DAY_MS))

/-- The charge of April is submitted on the 1st of March, when the subscription begins. -/
theorem not_timely : ¬ ∀ p,
    Pool.Reachable (Pool.init (fun i => (activationAndRenewal i).job billingRuntime) newDb
      (.prompt [.subscriptionActivated activation])) p → p.shared.world.Timely := by
  intro h
  obtain ⟨p, hp, hearly⟩ := Pool.ReachableIf.exists_of_runSchedule
    (Pool.init (fun i => (activationAndRenewal i).job billingRuntime) newDb (.prompt [.subscriptionActivated activation]))
    (List.replicate 9 0 ++ List.replicate 17 1)
    (fun p => p.shared.world.submissions.any fun s => s.time < s.charge.key.dueDate) (fun _ _ _ => trivial) (by decide +kernel)
  obtain ⟨submission, hmem, hlt⟩ := List.any_eq_true.mp hearly
  exact absurd (h p hp submission hmem) (not_le.mpr (of_decide_eq_true hlt))

end CorpoPay.Billing
