import CorpoPay.Billing.Lemmas.Jobs
import CorpoPay.Billing.Lemmas.Queue
import CorpoPay.Transaction.Attempts

/-!
# One successful charge for a period

A ladder looks at the status of its subscription before it charges again, never at what the other ladders of the period
have charged. It is the queue that has to keep them apart: one workflow runs per billing period.
-/

namespace CorpoPay.Billing

open Data (DAY_MS)
open Settlement (Db Failure Id)
open Transaction (Log Pool)

variable {ι α : Type}

/-- The charges of a period, with the retries. -/
def World.chargesFor (key : String) (w : World) : List Submission :=
  w.submissions.filter (·.charge.key.idempotencyId = key)

/-- No charge of the period comes after a successful one. -/
def World.ChargedOnce (key : String) (w : World) : Prop :=
  (w.chargesFor key).Pairwise fun earlier _ => earlier.success = false

instance (key : String) (w : World) : Decidable (w.ChargedOnce key) :=
  inferInstanceAs (Decidable (List.Pairwise _ _))

/-! ## Outcomes -/

/-- The outcome of a charge, if it is one of the period. -/
def outcomeFor (key : String) : (q : Query) → Answer q → List Bool
  | .chargeRenewal charge, answer => if charge.key.idempotencyId = key then [World.charged answer] else []
  | .now, _ | .cuid, _ | .runId, _ | .send _, _ | .deliver _, _ | .sleepUntil _, _ => []

def outcomesFor (key : String) : Log Backend Bool where
  entries w := (World.chargesFor key w).map (·.success)
  adds := outcomeFor key
  entries_reply w q := by
    show ((World.reply w q).2.submissions.filter _).map _ = _
    rw [World.submissions_reply, List.filter_append, List.map_append, World.chargesFor, List.append_cancel_left_eq]
    cases q with
    | chargeRenewal charge =>
        by_cases hkey : charge.key.idempotencyId = key <;>
          simp [World.submitted, outcomeFor, World.reply, World.answer, hkey]
    | _ => rfl

theorem chargedOnce_iff (key : String) (w : World) :
    w.ChargedOnce key ↔ Transaction.SuccessLast ((outcomesFor key).entries w) :=
  (List.pairwise_map (R := fun earlier _ => earlier = false)).symm

variable {key : String}

/-- What charges for other periods only. -/
theorem lets_silent : Lets (fun _ => True) (outcomesFor key).Silent (·.key.idempotencyId ≠ key) := by
  refine ⟨fun _ _ => trivial, fun q hq a => ?_⟩
  cases q with
  | chargeRenewal charge => exact if_neg (hq.charge charge rfl)
  | _ => rfl

theorem silent_sleepUntil (time : Nat) : (outcomesFor key).Silent (.sleepUntil time) := fun _ => rfl

/-- The job makes no charge of the period. -/
abbrev Silent (key : String) (j : Job α) : Prop := j.Does (fun _ => True) (outcomesFor key).Silent

/-! ## Attempts -/

/-- An attempt says whether the charge has succeeded. -/
def Reports (succeeded : Bool) (r : Except Failure ChargeAttemptResult) : Prop :=
  ∀ attempted, r = .ok attempted → attempted.success = succeeded

theorem reports_ok {succeeded : Bool} {attempted : ChargeAttemptResult} (h : attempted.success = succeeded) :
    Reports succeeded (.ok attempted) := by
  rintro _ ⟨⟩; exact h

theorem reports_error {succeeded : Bool} (e : Failure) : Reports succeeded (.error e) := by
  rintro _ ⟨⟩

theorem tries_chargeProfile (rt : Runtime) (tenantId : Id) (encryptedProfileId : String) {charge : String → RenewalCharge}
    {record : ChargeRenewalResult → Job Unit} (hcharge : ∀ profileId, (charge profileId).key.idempotencyId = key)
    (hrecord : ∀ result, Silent key (record result)) :
    (chargeProfile rt tenantId encryptedProfileId charge record).Tries (outcomesFor key) Reports false := by
  refine .after (does_select lets_silent _) (fun config => ?_) reports_error
  cases config with
  | none => exact reports_ok rfl
  | some config =>
      refine .after (W := fun _ => True) (Transaction.Job.does_ofExcept _) (fun adapter => ?_) reports_error
      refine .after (W := fun _ => True) (Transaction.Job.does_ofExcept _) (fun profileId => ?_) reports_error
      cases adapter with
      | vps credentials =>
          intro answer
          have hadds : (outcomesFor key).adds (.chargeRenewal (charge profileId)) answer = [World.charged answer] :=
            if_pos (hcharge profileId)
          rw [hadds]
          refine ⟨List.pairwise_singleton _ _, (fun h => by cases h), ?_⟩
          cases answer with
          | error message => exact reports_error _
          | ok result =>
              show ((record result).bind fun _ => .ret result.attempt).Tries (outcomesFor key) Reports _
              refine .after (hrecord result) (fun _ => reports_ok ?_) reports_error
              show result.success = (false || [result.success].contains true)
              cases result.success <;> rfl
      | _ => exact reports_error _

theorem tries_chargeSubscription (rt : Runtime) {data : RenewalDue} (hkey : data.key.idempotencyId = key) (attempt : Nat) :
    (chargeSubscription rt data attempt).Tries (outcomesFor key) Reports false := by
  refine .after (does_select lets_silent _) (fun subscription => ?_) reports_error
  cases subscription with
  | none => exact reports_error _
  | some subscription =>
      dsimp only
      split_ifs
      · exact reports_ok rfl
      · exact tries_chargeProfile rt _ _ (fun _ => hkey) (does_recordBillingEvent lets_silent data attempt)

/-- A ladder whose attempts say what they have done makes none after a success. -/
theorem tries_ladder {ladder : DunningLadder α}
    (hattempt : ∀ n, (ladder.attempt n).Tries (outcomesFor key) Reports false)
    (hstop : ∀ n, Silent key (ladder.shouldStop n)) (hsuccess : ∀ n, Silent key (ladder.onSuccess n))
    (hfailure : ∀ n, Silent key (ladder.onFailure n)) (hexhausted : Silent key ladder.onExhausted) :
    (runDunningLadder ladder).Tries (outcomesFor key) (fun _ _ => True) false := by
  have hclimb : ∀ left n, (ladder.climb left n).Tries (outcomesFor key) (fun _ _ => True) false := by
    intro left
    induction left with
    | zero => exact fun _ => .after hexhausted (fun _ => trivial) fun _ => trivial
    | succ left ih =>
        refine fun n => (Transaction.Job.tries_bind _ _).mpr ((hattempt n).mono fun succeeded r hreports => ?_)
        cases r with
        | error e => trivial
        | ok attempted =>
            obtain rfl := hreports attempted rfl
            dsimp only
            split_ifs with hdone hleft
            · exact .after (hsuccess n) (fun _ => trivial) fun _ => trivial
            · rw [Bool.eq_false_of_not_eq_true hdone]
              refine .after (hfailure n) (fun _ => ?_) fun _ => trivial
              refine .after (does_sleep lets_silent silent_sleepUntil _) (fun _ => ?_) fun _ => trivial
              refine .after (hstop (n + 1)) (fun stop => ?_) fun _ => trivial
              cases stop with
              | none => exact ih (n + 1)
              | some reason => trivial
            · rw [Bool.eq_false_of_not_eq_true hdone]
              exact ih (n + 1)
  exact hclimb _ _

theorem tries_billingRenewal (rt : Runtime) {data : RenewalDue} (hkey : data.key.idempotencyId = key) :
    (billingRenewal rt data).Tries (outcomesFor key) (fun _ _ => True) false := by
  refine .after (does_runId lets_silent) (fun _ => ?_) fun _ => trivial
  refine .after (does_select lets_silent _) (fun sub => ?_) fun _ => trivial
  cases sub with
  | none => trivial
  | some sub =>
      dsimp only
      split_ifs
      · trivial
      · refine .after (W := fun _ => True) (does_update trivial) (fun _ => ?_) fun _ => trivial
        exact tries_ladder (tries_chargeSubscription rt hkey) (does_stopsRenewal lets_silent data)
          (fun _ => does_advanceBillingCycle lets_silent data fun _ _ => trivial)
          (fun n => does_markPastDue data n fun _ _ => trivial) (does_cancelExhausted data fun _ _ => trivial)

theorem tries_onEvent {event : Event} {j : Job α} (h : j.Tries (outcomesFor key) (fun _ _ => True) false) :
    (onEvent event j).Tries (outcomesFor key) (fun _ _ => True) false := by
  refine .after (W := fun _ => True) (does_ask lets_silent ⟨nofun, nofun, nofun⟩) (fun delivered => ?_) fun _ => trivial
  cases delivered with
  | false => trivial
  | true =>
      refine (Transaction.Job.tries_bind _ _).mpr (h.mono fun _ r _ => ?_)
      cases r <;> trivial

/-! ## Runs -/

section Runs

variable [DecidableEq ι]

/-- The job is one of a period. -/
def SubscriptionRequest.Renews (request : SubscriptionRequest) (key : String) : Prop :=
  ∃ data, request = .renewal data ∧ data.key.idempotencyId = key

/-- A renewal of the period begins only while no charge of the period has succeeded and the other renewals of the period
that have begun have ended. -/
def OneWorkflow (requests : ι → SubscriptionRequest) (key : String) (p : Pool Backend ι Unit) (i : ι)
    (_ : Pool Backend ι Unit) : Prop :=
  ∀ data, requests i = .renewal data → data.key.idempotencyId = key → (p.threads i).pc = 0 →
    Event.renewalDue data ∈ p.shared.world.pending →
    (∀ charge ∈ p.shared.world.chargesFor key, charge.success = false) ∧
      ∀ j, j ≠ i → (requests j).Renews key → (p.threads j).pc ≠ 0 → (p.threads j).phase.Finished

variable {requests : ι → SubscriptionRequest} {rt : Runtime} {s : Db} {w : World} {p p' : Pool Backend ι Unit} {i : ι}

theorem silent_others {request : SubscriptionRequest} (h : ¬ request.Renews key) : Silent key (request.job rt) :=
  does_request lets_silent rt request (fun data hdata _ _ hkey hid => h ⟨data, hdata, hkey ▸ hid⟩) silent_sleepUntil
    fun _ _ _ => trivial

theorem tries_request (request : SubscriptionRequest) :
    (request.job rt).Tries (outcomesFor key) (fun _ _ => True) false := by
  by_cases h : request.Renews key
  · obtain ⟨data, rfl, hkey⟩ := h
    exact tries_onEvent (tries_billingRenewal rt hkey)
  · exact .of_does (silent_others h) fun _ => trivial

/-- The queue delivers its events to renewals. -/
theorem SubscriptionRequest.first_silent (request : SubscriptionRequest) (q : Query) (k : Answer q → Job Unit)
    (h : request.job rt = .ask q k) : (outcomesFor key).Silent q := by
  by_cases hrenews : request.Renews key
  · obtain ⟨data, rfl, -⟩ := hrenews
    cases h
    exact fun _ => rfl
  · have hcharges : Silent key (request.job rt) := silent_others hrenews
    rw [h] at hcharges
    exact hcharges.1

/-- A renewal that begins is delivered. -/
theorem delivered_of_begin {data : RenewalDue} (hdata : requests i = .renewal data) (hstep : p.Step i p')
    (hphase : (p.threads i).phase = .between ((requests i).job rt))
    (hloud : ¬ (p'.threads i).phase.Attempts (outcomesFor key) true) : Event.renewalDue data ∈ p.shared.world.pending := by
  by_contra hpending
  have hstep' := hstep.inv.1
  rw [hphase, hdata] at hstep'
  obtain ⟨-, hnext⟩ := Transaction.Phase.Step.of_ask hstep'
  have hanswer : (Backend.reply p.shared.world (.deliver (.renewalDue data))).1 = false := decide_eq_false hpending
  rw [hanswer] at hnext
  rw [hnext] at hloud
  exact hloud trivial

/-- Under the condition, a renewal that begins finds nobody in its way. -/
theorem OneWorkflow.clear (h : Pool.OneByOne (outcomesFor key) (fun i => (requests i).job rt) p)
    (hcond : OneWorkflow requests key p i p') (hstep : p.Step i p') (hpc : (p.threads i).pc = 0)
    (hloud : ¬ (p'.threads i).phase.Attempts (outcomesFor key) true) : Pool.Clear (outcomesFor key) p i := by
  have hquiet : ∀ j, ¬ (requests j).Renews key → (p.threads j).phase.Attempts (outcomesFor key) true := fun j hj =>
    h.quiet j (Transaction.Job.Tries.of_does (silent_others hj) fun _ => trivial)
  by_cases hrenews : (requests i).Renews key
  · obtain ⟨data, hdata, hkey⟩ := hrenews
    obtain ⟨hunsuccessful, hothers⟩ := hcond data hdata hkey hpc (delivered_of_begin hdata hstep (h.first i hpc) hloud)
    refine ⟨?_, fun j hji hjpc => ?_⟩
    · refine Bool.eq_false_of_not_eq_true fun hsuccess => ?_
      obtain ⟨charge, hcharge, hsuccess⟩ := List.mem_map.mp (List.contains_iff_mem.mp hsuccess)
      exact Bool.false_ne_true ((hunsuccessful charge hcharge).symm.trans hsuccess)
    · by_cases hj : (requests j).Renews key
      · exact .of_finished (hothers j hji hj hjpc)
      · exact hquiet j hj
  · exact absurd (h.quiet_step hstep i (Transaction.Job.Tries.of_does (silent_others hrenews) fun _ => trivial)) hloud

/-- In a run where one workflow of the period is in progress at a time, and none begins after a success, no charge of the
period follows a successful one. -/
theorem charged_once_of_one_workflow (rt : Runtime) (requests : ι → SubscriptionRequest) (key : String) (s : Db) (w : World)
    (hw : w.ChargedOnce key) (p : Pool Backend ι Unit)
    (hp : Pool.ReachableIf (OneWorkflow requests key) (Pool.init (fun i => (requests i).job rt) s w) p) :
    p.shared.world.ChargedOnce key := by
  refine (chargedOnce_iff key _).mpr (Pool.success_last ((chargedOnce_iff key w).mp hw) (fun i => tries_request (requests i))
    (fun i => (requests i).first_silent) (fun p i p' h hstep hcond hpc => ?_) hp)
  exact OneWorkflow.clear h hcond hstep hpc

end Runs

/-! ## Two ladders -/

/-- Two days have passed after the answer `slow`, and the charges succeed from the `n`-th answer on. -/
def World.declining (n slow : Nat) : World := .start (fun k => if k = slow then 2 * DAY_MS else 0) (n ≤ ·) []

/-- The sweeps of two days, and what they start. -/
def sweeps : Fin 4 → SubscriptionRequest
  | 0 => .sweep
  | 1 => .renewal monthlyRenewal
  | 2 => .sweep
  | 3 => .renewal monthlyRenewal

/-- The merchant pauses the subscription while the ladder sleeps, which ends it, and resumes it, and a sweep starts the period
again. -/
def pausedSweeps (i : Fin 6) : SubscriptionRequest :=
  if i.val = 1 ∨ i.val = 2 then .renewal monthlyRenewal
  else if i.val = 3 then .pause 1 "s"
  else if i.val = 4 then .resume 1 "s"
  else .sweep

theorem renews_pausedSweeps {i : Fin 6} (h : (pausedSweeps i).Renews "s-2024-03-01") : i.val = 1 ∨ i.val = 2 := by
  obtain ⟨data, hdata, -⟩ := h
  unfold pausedSweeps at hdata
  split_ifs at hdata with hrenews
  exact hrenews

/-- A renewal begins only when the other one has not begun or has ended, and nothing has succeeded. -/
def inTurn (p : Pool Backend (Fin 6) Unit) (i : Fin 6) (_ : Pool Backend (Fin 6) Unit) : Bool :=
  ¬ (i.val = 1 ∨ i.val = 2) || (p.threads i).pc ≠ 0 ||
    (p.shared.world.chargesFor "s-2024-03-01").all (fun charge => charge.success = false) &&
      ([1, 2] : List (Fin 6)).all fun j => j = i || (p.threads j).pc = 0 || (p.threads j).phase.Finished

theorem oneWorkflow_of_inTurn (p : Pool Backend (Fin 6) Unit) (i : Fin 6) (p' : Pool Backend (Fin 6) Unit)
    (h : inTurn p i p' = true) : OneWorkflow pausedSweeps "s-2024-03-01" p i p' := by
  intro data hdata hkey hpc _
  have hrenews := renews_pausedSweeps ⟨data, hdata, hkey⟩
  simp only [inTurn, Bool.or_eq_true, Bool.and_eq_true, List.all_eq_true, decide_eq_true_eq, hrenews, hpc, not_true_eq_false,
    ne_eq, false_or] at h
  refine ⟨h.1, fun j hj hother hbegun => ?_⟩
  have hmem : j ∈ ([1, 2] : List (Fin 6)) := by
    rcases renews_pausedSweeps hother with hj | hj <;> simp [Fin.ext_iff, hj]
  rcases h.2 j hmem with (hsame | hnone) | hended
  · exact absurd hsame hj
  · exact absurd hnone hbegun
  · exact hended

/-- Two attempts of the first ladder are declined, and the second ladder succeeds. -/
theorem charged_once_of_second_attempt : ∃ p,
    Pool.ReachableIf (OneWorkflow pausedSweeps "s-2024-03-01")
      (Pool.init (fun i => (pausedSweeps i).job billingRuntime) monthlyDb (.declining 12 11)) p ∧
      (p.shared.world.chargesFor "s-2024-03-01").map (·.success) = [false, false, true] ∧
      (∀ i, (p.threads i).phase.Finished) ∧ p.shared.world.ChargedOnce "s-2024-03-01" := by
  obtain ⟨p, hp, hend⟩ := Pool.ReachableIf.exists_of_check
    (Pool.init (fun i => (pausedSweeps i).job billingRuntime) monthlyDb (.declining 12 11))
    (List.replicate 6 0 ++ List.replicate 47 1 ++ List.replicate 8 3 ++ List.replicate 4 1 ++ List.replicate 10 4 ++
      List.replicate 6 5 ++ List.replicate 30 2)
    (fun p => (p.shared.world.chargesFor "s-2024-03-01").map (·.success) = [false, false, true] ∧
      ∀ i, (p.threads i).phase.Finished) inTurn
    (fun _ _ _ _ => oneWorkflow_of_inTurn _ _ _)
    (by decide +kernel)
  obtain ⟨hcharges, hended⟩ := of_decide_eq_true hend
  exact ⟨p, hp, hcharges, hended, charged_once_of_one_workflow _ _ _ _ _ (by decide) p hp⟩

/-- A ladder sleeps for two days after its second attempt. The sweep starts another one meanwhile, whose first attempt
succeeds, and the first ladder goes on with its third one. -/
theorem not_charged_once : ¬ ∀ p,
    Pool.Reachable (Pool.init (fun i => (sweeps i).job billingRuntime) monthlyDb (.declining 12 11)) p →
      p.shared.world.ChargedOnce "s-2024-03-01" := by
  intro h
  obtain ⟨p, hp, hcharged⟩ := Pool.ReachableIf.exists_of_runSchedule
    (Pool.init (fun i => (sweeps i).job billingRuntime) monthlyDb (.declining 12 11))
    (List.replicate 6 0 ++ List.replicate 47 1 ++ List.replicate 6 2 ++ List.replicate 27 3 ++ List.replicate 15 1)
    (fun p => !decide (p.shared.world.ChargedOnce "s-2024-03-01")) (fun _ _ _ => trivial) (by decide +kernel)
  exact absurd (h p hp) (by simpa using hcharged)

end CorpoPay.Billing
