import Mathlib.Data.Set.Function
import CorpoPay.Billing.Subscriptions
import CorpoPay.Data.Upsert
import CorpoPay.Settlement.Lemmas.FreshIds

/-!
# Records of charge attempts

The id of the record of an attempt is cut off after 25 characters. The id of a subscription has as many, so what is left is
the id of the subscription, and all its attempts share one record.
-/

namespace CorpoPay.Billing

open Data (filter_upsert_nil filter_upsert_single upsert)
open Settlement (BillingEvent ChargeStatus Db Failure Subscription)
open Transaction.Job (run_bind_eq_ok run_ofExcept_eq_ok)

/-- A call of `chargeSubscription` and what it returned. -/
structure ChargeCall where
  data : RenewalDue
  attemptNumber : Nat
  result : ChargeAttemptResult

namespace ChargeCall

def chargeId (call : ChargeCall) : String := retryText call.data.key.chargeId call.attemptNumber

/-- The idempotency id and the number of the attempt. -/
def pair (call : ChargeCall) : String × Nat := (retryText call.data.key.idempotencyId call.attemptNumber, call.attemptNumber)

end ChargeCall

/-- The last call of a pair. -/
def latest (calls : List ChargeCall) (pair : String × Nat) : Option ChargeCall := calls.reverse.find? (·.pair = pair)

/-- The billing events of a subscription. -/
def eventsOf (db : Db) (subscriptionId : String) : List BillingEvent :=
  db.billingEvents.filter (·.subscriptionId = subscriptionId)

/-- The billing events of a subscription, and those that have its id for their own. -/
def eventsAt (db : Db) (subscriptionId : String) : List BillingEvent :=
  db.billingEvents.filter fun event => event.subscriptionId = subscriptionId ∨ event.id = subscriptionId

/-- Calls for a subscription, one after another, each of them answered by the provider. In between the rest of the system goes
on, but it writes no billing event of the subscription. -/
inductive Charges (rt : Runtime) (subscriptionId : String) (db : Db) : List ChargeCall → Db → Prop
  | nil : Charges rt subscriptionId db [] db
  | snoc {calls : List ChargeCall} {call : ChargeCall} {db₁ db₂ db' : Db} {w w' : World} :
      Charges rt subscriptionId db calls db₁ → eventsAt db₂ subscriptionId = eventsAt db₁ subscriptionId →
      call.data.subscriptionId = subscriptionId →
      (chargeSubscription rt call.data call.attemptNumber).run db₂ w = (.ok call.result, db', w') →
      w'.submissions ≠ w.submissions → Charges rt subscriptionId db (calls ++ [call]) db'

/-- The event has the outcome of an attempt. -/
structure HasOutcome (event : BillingEvent) (result : ChargeAttemptResult) : Prop where
  status : event.status = if result.success then .charged else .declined
  vpsTransactionId : event.vpsTransactionId = result.vpsTransactionId
  errorMessage : event.errorMessage = result.errorMessage

/-- The event is the record of a pair. Its outcome is the one of the last call. -/
structure Records (calls : List ChargeCall) (pair : String × Nat) (event : BillingEvent) : Prop where
  attemptNumber : event.attemptNumber = pair.2
  chargeId : ∃ call ∈ calls, call.pair = pair ∧ event.chargeId = call.chargeId
  outcome : ∀ call, latest calls pair = some call → HasOutcome event call.result

/-- Every pair has a record of its own, and there is no other record. -/
def OwnRecords (calls : List ChargeCall) (events : List BillingEvent) : Prop :=
  events.Nodup ∧ ∃ pairOf : BillingEvent → String × Nat,
    Set.BijOn pairOf {event | event ∈ events} {pair | ∃ call ∈ calls, call.pair = pair} ∧
      ∀ event ∈ events, Records calls (pairOf event) event

/-! ## One call -/

/-- What an update takes from a row. -/
def refreshed (row event : BillingEvent) : BillingEvent :=
  { event with
    vpsTransactionId := row.vpsTransactionId
    status := row.status
    processedAt := row.processedAt
    errorMessage := row.errorMessage }

theorem run_upsertBillingEvent (row : BillingEvent) (db : Db) (w : World) :
    (transaction (upsertBillingEvent row)).run db w =
      (.ok (), { db with billingEvents := upsert (·.id) row (refreshed row) db.billingEvents }, w) := by
  have hbody : (upsertBillingEvent row).run db w =
      (.ok ((), { db with billingEvents := upsert (·.id) row (refreshed row) db.billingEvents }), w) := by
    simp only [upsertBillingEvent, upsert, Transaction.Tx.bind_eq, Transaction.Tx.acquire, Transaction.Tx.get,
      Transaction.Tx.bind, Transaction.Tx.run]
    split_ifs <;> rfl
  rw [Transaction.Job.run_transaction, hbody]

theorem run_recordBillingEvent (data : RenewalDue) (attempt : Nat) (result : ChargeRenewalResult) (db : Db) (w : World)
    (hid : data.subscriptionId.length = 25) :
    ∃ row w', (recordBillingEvent data attempt result).run db w =
        (.ok (), { db with billingEvents := upsert (·.id) row (refreshed row) db.billingEvents }, w') ∧
      row.id = data.subscriptionId ∧ row.subscriptionId = data.subscriptionId ∧
      row.chargeId = retryText data.key.chargeId attempt ∧ row.attemptNumber = attempt ∧ HasOutcome row result.attempt := by
  have hcut : String.ofList ((data.subscriptionId ++ "-" ++ retryText data.key.idempotencyId attempt ++ "-" ++
      toString attempt).toList.take 25) = data.subscriptionId := by
    rw [← hid, ← String.length_toList]
    simp only [String.toList_append, List.append_assoc, List.take_left', String.ofList_toList]
  refine ⟨{ id := data.subscriptionId, subscriptionId := data.subscriptionId, chargeId := retryText data.key.chargeId attempt,
            vpsTransactionId := result.providerTransactionId, amount := data.amount, currency := data.currency,
            status := result.status, attemptNumber := attempt, processedAt := w.clock,
            errorMessage := result.attempt.errorMessage }, (w.reply .now).2, ?_, rfl, rfl, rfl, rfl, rfl, rfl, rfl⟩
  simp only [recordBillingEvent, hcut, Transaction.Job.bind_eq, Transaction.Job.query, Transaction.Job.bind,
    Transaction.Job.run, Transaction.Job.run_orElse, run_upsertBillingEvent]
  rfl

theorem run_chargeProfile {rt : Runtime} {tenantId : Settlement.Id} {profileId : String} {charge : String → RenewalCharge}
    {record : ChargeRenewalResult → Job Unit} {result : ChargeAttemptResult} {db db' : Db} {w w' : World}
    (h : (chargeProfile rt tenantId profileId charge record).run db w = (.ok result, db', w'))
    (hsent : w'.submissions ≠ w.submissions) :
    ∃ answer w₁, result = ChargeRenewalResult.attempt answer ∧ (record answer).run db w₁ = (.ok (), db', w') := by
  obtain ⟨config, db₁, w₁, hconfig, h⟩ := run_bind_eq_ok h
  cases hconfig
  split at h
  · cases h
    exact absurd rfl hsent
  · obtain ⟨adapter, db₂, w₂, hadapter, hprofile⟩ := run_bind_eq_ok h
    obtain ⟨-, rfl, rfl⟩ := run_ofExcept_eq_ok hadapter
    obtain ⟨profileId, db₃, w₃, hdecrypt, hcharge⟩ := run_bind_eq_ok hprofile
    obtain ⟨-, rfl, rfl⟩ := run_ofExcept_eq_ok hdecrypt
    clear hprofile
    cases adapter with
    | vps credentials =>
      obtain ⟨answer, db₄, w₄, hanswer, hrecord⟩ := run_bind_eq_ok hcharge
      cases hanswer
      split at hrecord
      · cases hrecord
      · obtain ⟨⟨⟩, db₅, w₅, hrun, hresult⟩ := run_bind_eq_ok hrecord
        cases hresult
        exact ⟨_, _, rfl, hrun⟩
    | _ => cases hcharge

theorem run_chargeSubscription {rt : Runtime} {data : RenewalDue} {attempt : Nat} {result : ChargeAttemptResult} {db db' : Db}
    {w w' : World} (h : (chargeSubscription rt data attempt).run db w = (.ok result, db', w'))
    (hsent : w'.submissions ≠ w.submissions) :
    ∃ answer w₁, result = ChargeRenewalResult.attempt answer ∧
      (recordBillingEvent data attempt answer).run db w₁ = (.ok (), db', w') := by
  obtain ⟨sub, db₁, w₁, hsub, h⟩ := run_bind_eq_ok h
  cases hsub
  split at h
  · cases h
  · split at h
    · cases h
      exact absurd rfl hsent
    · exact run_chargeProfile h hsent

/-! ## Runs of calls -/

/-- One event stands for all the calls. The first call made it, and the last call gave it its outcome. -/
structure OneRecord (subscriptionId : String) (calls : List ChargeCall) (events : List BillingEvent) (event : BillingEvent) :
    Prop where
  only : events = [event]
  id : event.id = subscriptionId
  owner : event.subscriptionId = subscriptionId
  first : ∃ call rest, calls = call :: rest ∧ event.chargeId = call.chargeId ∧ event.attemptNumber = call.attemptNumber
  last : ∃ earlier call, calls = earlier ++ [call] ∧ HasOutcome event call.result

variable {rt : Runtime} {subscriptionId : String} {db db' : Db} {calls : List ChargeCall}

theorem charges_oneRecord (h : Charges rt subscriptionId db calls db') (hid : subscriptionId.length = 25)
    (hnone : eventsAt db subscriptionId = []) :
    calls = [] ∧ eventsAt db' subscriptionId = [] ∨
      ∃ event, OneRecord subscriptionId calls (eventsAt db' subscriptionId) event := by
  induction h with
  | nil => exact .inl ⟨rfl, hnone⟩
  | @snoc calls call db₁ db₂ db' w w' _ hsame howner hrun hsent ih =>
    subst howner
    obtain ⟨answer, w₁, hresult, hrecord⟩ := run_chargeSubscription hrun hsent
    obtain ⟨row, w₂, hupsert, hrow, hsub, hcharge, hnumber, houtcome⟩ :=
      run_recordBillingEvent call.data call.attemptNumber answer db₂ w₁ hid
    rw [hupsert] at hrecord
    cases hrecord
    rw [← hresult] at houtcome
    have hplace : ∀ event : BillingEvent, event.id = row.id →
        decide (event.subscriptionId = call.data.subscriptionId ∨ event.id = call.data.subscriptionId) = true :=
      fun event hevent => decide_eq_true (.inr (hevent.trans hrow))
    rcases ih with ⟨rfl, hempty⟩ | ⟨event, hone⟩
    · refine .inr ⟨row, ?_, hrow, hsub, ⟨call, [], rfl, hcharge, hnumber⟩, ⟨[], call, rfl, houtcome⟩⟩
      exact filter_upsert_nil hplace (hsame.trans hempty)
    · obtain ⟨first, rest, rfl, hfirst⟩ := hone.first
      refine .inr ⟨refreshed row event, ?_, hone.id, hone.owner, ⟨first, rest ++ [call], rfl, hfirst⟩,
        ⟨first :: rest, call, rfl, houtcome.status, houtcome.vpsTransactionId, houtcome.errorMessage⟩⟩
      exact filter_upsert_single hplace (fun _ h => h) (hsame.trans hone.only) (hone.id.trans hrow.symm)

theorem eventsOf_eq (db : Db) (subscriptionId : String) :
    eventsOf db subscriptionId = (eventsAt db subscriptionId).filter (·.subscriptionId = subscriptionId) := by
  rw [eventsAt, List.filter_filter, eventsOf]
  congr 1
  funext event
  by_cases howner : event.subscriptionId = subscriptionId <;> simp [howner]

theorem latest_last {earlier : List ChargeCall} {call : ChargeCall} {pair : String × Nat} (h : call.pair = pair) :
    latest (earlier ++ [call]) pair = some call := by
  simp [latest, h]

theorem OneRecord.ownRecords {events : List BillingEvent} {event : BillingEvent}
    (h : OneRecord subscriptionId calls events event) (hpair : ∀ a ∈ calls, ∀ b ∈ calls, a.pair = b.pair) :
    OwnRecords calls [event] := by
  obtain ⟨first, rest, hcalls, hcharge, hnumber⟩ := h.first
  have hfirst : first ∈ calls := hcalls ▸ List.mem_cons_self
  refine ⟨List.nodup_singleton event, fun _ => first.pair, ⟨?_, ?_, ?_⟩, fun e he => ?_⟩
  · exact fun _ _ => ⟨first, hfirst, rfl⟩
  · exact fun e he e' he' _ => (List.mem_singleton.mp he).trans (List.mem_singleton.mp he').symm
  · rintro _ ⟨call, hcall, rfl⟩
    exact ⟨event, List.mem_singleton_self event, hpair first hfirst call hcall⟩
  · obtain rfl := List.mem_singleton.mp he
    obtain ⟨earlier, last, hlast, houtcome⟩ := h.last
    have hmem : last ∈ calls := hlast ▸ List.mem_append_right _ (List.mem_singleton_self last)
    refine ⟨hnumber, ⟨first, hfirst, rfl, hcharge⟩, fun found hfound => ?_⟩
    rw [hlast, latest_last (hpair last hmem first hfirst)] at hfound
    cases hfound
    exact houtcome

/-- The records are one to one with the attempts exactly when all the calls are of one pair. -/
theorem charges_ownRecords_iff (h : Charges rt subscriptionId db calls db') (hid : subscriptionId.length = 25)
    (hnone : eventsAt db subscriptionId = []) :
    OwnRecords calls (eventsOf db' subscriptionId) ↔ ∀ a ∈ calls, ∀ b ∈ calls, a.pair = b.pair := by
  rw [eventsOf_eq]
  rcases charges_oneRecord h hid hnone with ⟨rfl, hempty⟩ | ⟨event, hone⟩
  · rw [hempty]
    refine ⟨fun _ a ha => (List.not_mem_nil ha).elim, fun _ => ⟨List.nodup_nil, fun event => (event.id, 0), ?_,
      fun _ he => (List.not_mem_nil he).elim⟩⟩
    exact ⟨fun _ he => (List.not_mem_nil he).elim, fun _ he => (List.not_mem_nil he).elim,
      fun _ ⟨_, hcall, _⟩ => (List.not_mem_nil hcall).elim⟩
  · have honly : [event].filter (·.subscriptionId = subscriptionId) = [event] := by simp [hone.owner]
    rw [hone.only, honly]
    constructor
    · rintro ⟨-, pairOf, hpairs, -⟩ a ha b hb
      have hevent : ∀ call ∈ calls, pairOf event = call.pair := fun call hcall => by
        obtain ⟨e, he, hpair⟩ := hpairs.surjOn ⟨call, hcall, rfl⟩
        rw [← hpair, List.mem_singleton.mp he]
      exact (hevent a ha).symm.trans (hevent b hb)
    · exact hone.ownRecords

/-! ## A renewal that is declined and tried again -/

/-- The monthly subscription under an id of 25 characters. -/
def longMonthly : Subscription := { monthly with id := "cltwlve000000000000000001" }

def longDb : Db := { monthlyDb with subscriptions := [longMonthly] }

/-- An attempt on the day it is due. -/
def attemptRun (db : Db) (attempt : Nat) (succeeds : Bool) : Except Failure ChargeAttemptResult × Db × World :=
  (chargeSubscription billingRuntime (renewalOf longMonthly dueDay) attempt).run db
    (World.start (fun _ => 0) (fun _ => succeeds) [])

def declinedCall : ChargeCall :=
  { data := renewalOf longMonthly dueDay, attemptNumber := 1
    result := { success := false, vpsTransactionId := some "v", errorMessage := some "Charge declined" } }

def chargedCall : ChargeCall :=
  { data := renewalOf longMonthly dueDay, attemptNumber := 2
    result := { success := true, vpsTransactionId := some "v", errorMessage := none } }

/-- The store after the declined attempt. -/
def declinedDb : Db := (attemptRun longDb 1 false).2.1

theorem declined_charges : Charges billingRuntime longMonthly.id longDb [declinedCall] declinedDb := by
  have hrun : (attemptRun longDb 1 false).1.toOption = some declinedCall.result := by decide +kernel
  have hsent : (attemptRun longDb 1 false).2.2.submissions ≠ [] := by decide +kernel
  exact .snoc .nil rfl rfl (Prod.ext (Settlement.Except.of_toOption hrun) rfl) hsent

theorem retried_charges :
    Charges billingRuntime longMonthly.id longDb [declinedCall, chargedCall] (attemptRun declinedDb 2 true).2.1 := by
  have hrun : (attemptRun declinedDb 2 true).1.toOption = some chargedCall.result := by decide +kernel
  have hsent : (attemptRun declinedDb 2 true).2.2.submissions ≠ [] := by decide +kernel
  exact .snoc declined_charges rfl rfl (Prod.ext (Settlement.Except.of_toOption hrun) rfl) hsent

/-- The first attempt runs again. -/
theorem repeated_charges :
    Charges billingRuntime longMonthly.id longDb [declinedCall, declinedCall] (attemptRun declinedDb 1 false).2.1 := by
  have hrun : (attemptRun declinedDb 1 false).1.toOption = some declinedCall.result := by decide +kernel
  have hsent : (attemptRun declinedDb 1 false).2.2.submissions ≠ [] := by decide +kernel
  exact .snoc declined_charges rfl rfl (Prod.ext (Settlement.Except.of_toOption hrun) rfl) hsent

/-- An attempt that runs twice has its record, and two attempts do not. -/
theorem charges_ownRecords_iff_declined :
    OwnRecords [declinedCall, declinedCall] (eventsOf (attemptRun declinedDb 1 false).2.1 longMonthly.id) ∧
      ¬ OwnRecords [declinedCall, chargedCall] (eventsOf (attemptRun declinedDb 2 true).2.1 longMonthly.id) := by
  have hlength : longMonthly.id.length = 25 := by decide +kernel
  have hnone : eventsAt longDb longMonthly.id = [] := by decide +kernel
  constructor
  · refine (charges_ownRecords_iff repeated_charges hlength hnone).mpr fun a ha b hb => ?_
    simp only [List.mem_cons, List.not_mem_nil, or_false, or_self] at ha hb
    rw [ha, hb]
  · intro h
    have hsame := (charges_ownRecords_iff retried_charges hlength hnone).mp h declinedCall (by simp) chargedCall (by simp)
    exact absurd hsame (by decide +kernel)

/-- A second attempt overwrites the record of the first one. -/
theorem not_charges_ownRecords : ¬ ∀ (rt : Runtime) (subscriptionId : String) (db db' : Db) (calls : List ChargeCall),
    Charges rt subscriptionId db calls db' → subscriptionId.length = 25 → eventsAt db subscriptionId = [] →
    OwnRecords calls (eventsOf db' subscriptionId) := by
  intro h
  obtain ⟨-, pairOf, hpairs, -⟩ := h _ _ _ _ _ retried_charges (by decide +kernel) (by decide +kernel)
  have hone : (eventsOf (attemptRun declinedDb 2 true).2.1 longMonthly.id).length = 1 := by decide +kernel
  obtain ⟨event, hevent⟩ := List.length_eq_one_iff.mp hone
  rw [hevent] at hpairs
  have hpair : ∀ call ∈ [declinedCall, chargedCall], pairOf event = call.pair := fun call hcall => by
    obtain ⟨e, he, hpair⟩ := hpairs.surjOn ⟨call, hcall, rfl⟩
    rw [← hpair, List.mem_singleton.mp he]
  have hsame := (hpair declinedCall (by simp)).symm.trans (hpair chargedCall (by simp))
  exact absurd hsame (by decide +kernel)

end CorpoPay.Billing
