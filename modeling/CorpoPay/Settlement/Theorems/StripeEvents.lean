import CorpoPay.Settlement.Lemmas.Intents

/-!
# The order of Stripe events

The guard of the status update compares the current status with the incoming one. It lets a late failure take an intent
out of SUCCEEDED, and a late success, failure or cancellation take it out of REFUNDED.
-/

namespace CorpoPay.Settlement

open Transaction (Job.ensures_bind Job.ensures_get Job.ensures_ofExcept_bind Job.ensures_retry Job.Ensures.mono)
open Transaction (Job.keeps_bind Job.keeps_ret Job.keeps_throw Job.keeps_get Job.keeps_transaction Job.keeps_ofExcept
  Job.keeps_query Job.keeps_retry)

variable {rt : Runtime} {db : Db} {id : Id}

/-! ## What an event reports -/

/-- The intent that an event is about. -/
def Db.stripeIntent (db : Db) (rt : Runtime) (obj : Json) : Except Failure (Option PaymentIntent) := do
  let correlationId ← extractCorrelationId obj
  let piId ← extractPiId obj
  match ← db.findIntent .stripe correlationId rt.byCorrelationId with
  | some found => pure (some found)
  | none => db.findIntent .stripe piId rt.byProviderRef

/-- The status that an event asks for, for an intent it is about. -/
def StripeEvent.reported (event : StripeEvent) (rt : Runtime) (db : Db) (id : Id) :
    Except Failure (Option PaymentIntentStatus) := do
  let eventType ← event.payloadJson.get "type"
  let obj ← event.object
  match ← db.stripeIntent rt obj, stripeEventStatus eventType with
  | some intent, some newStatus => do
      let _ ← stripeTransactionId newStatus obj
      pure (if intent.id = id then some newStatus else none)
  | _, _ => pure none

/-- The status of the intent after the event. -/
def StripeEvent.next (event : StripeEvent) (rt : Runtime) (db : Db) (id : Id) : Option PaymentIntentStatus :=
  match event.reported rt db id with
  | .ok (some newStatus) => (db.statusOf id).map fun current => if keepsStatus current newStatus then current else newStatus
  | _ => db.statusOf id

/-! ## One event -/

theorem findStripeIntent_spec (obj : Json) :
    (findStripeIntent rt obj).Ensures (fun r db' => db' = db ∧ r = db.stripeIntent rt obj) db := by
  unfold findStripeIntent
  refine Job.ensures_ofExcept_bind (fun correlationId hc => ?_) fun e he => ⟨rfl, by rw [Db.stripeIntent, he]; rfl⟩
  refine Job.ensures_ofExcept_bind (fun piId hp => ?_) fun e he => ⟨rfl, by rw [Db.stripeIntent, hc, he]; rfl⟩
  refine (Job.ensures_bind _ _).mpr ((findIntent_spec .stripe correlationId rt.byCorrelationId).mono fun r db' hr => ?_)
  obtain ⟨rfl, rfl⟩ := hr
  have hintent : db'.stripeIntent rt obj = (db'.findIntent .stripe correlationId rt.byCorrelationId).bind fun found =>
      match found with
      | some found => .ok (some found)
      | none => db'.findIntent .stripe piId rt.byProviderRef := by rw [Db.stripeIntent, hc, hp]; rfl
  rw [hintent]
  cases db'.findIntent .stripe correlationId rt.byCorrelationId with
  | error e => exact ⟨rfl, rfl⟩
  | ok found =>
      cases found with
      | some found => exact ⟨rfl, rfl⟩
      | none => exact findIntent_spec .stripe piId rt.byProviderRef

theorem updateStripeStatus_spec (intentId : Id) (newStatus : PaymentIntentStatus) :
    (updateStripeStatus intentId newStatus).Ensures
      (fun r (db' : Db) => (∃ updated, r = .ok updated) ∧ ∀ id, db'.statusOf id =
        if id = intentId then (db.statusOf id).map fun current => if keepsStatus current newStatus then current else newStatus
        else db.statusOf id) db := by
  refine (Job.ensures_bind _ _).mpr ((Job.ensures_get _).mpr ?_)
  cases hrow : db.paymentIntent intentId with
  | none =>
      refine ⟨⟨_, rfl⟩, fun id => ?_⟩
      split_ifs with hid
      · rw [Db.statusOf, hid, hrow]; rfl
      · rfl
  | some current =>
      have hstatus : db.statusOf intentId = some current.status := by rw [Db.statusOf, hrow]; rfl
      dsimp only
      split_ifs with hkeeps
      · refine ⟨⟨_, rfl⟩, fun id => ?_⟩
        split_ifs with hid
        · simp [hid, hstatus, hkeeps]
        · rfl
      · refine (Job.ensures_bind _ _).mpr ((ensures_setStatus hrow).mono (fun r db' hdb => ?_) fun _ h => h.elim)
        refine ⟨⟨_, rfl⟩, fun id => ?_⟩
        rw [hdb id]
        split_ifs with hid
        · simp [hid, hstatus, hkeeps]
        · rfl

theorem updateStripeStatus_retried (intentId : Id) (newStatus : PaymentIntentStatus) :
    (stepRun 5 (updateStripeStatus intentId newStatus)).Ensures
      (fun r (db' : Db) => (∃ updated, r = .ok updated) ∧ ∀ id, db'.statusOf id =
        if id = intentId then (db.statusOf id).map fun current => if keepsStatus current newStatus then current else newStatus
        else db.statusOf id) db := by
  refine Job.ensures_retry (J := (· = db)) 5 (fun s hs => ?_) rfl
  subst hs
  refine (updateStripeStatus_spec intentId newStatus).mono fun r db' hr => ?_
  obtain ⟨⟨updated, rfl⟩, hstatus⟩ := hr
  exact ⟨⟨updated, rfl⟩, hstatus⟩

theorem sameIntents_finish {event : StripeEvent} {intent : PaymentIntent} {newStatus : PaymentIntentStatus}
    {providerTransactionId : Option Json} {updated : Option PaymentIntentStatus} :
    (finishStripeEvent rt event intent newStatus providerTransactionId updated).Keeps SameIntents := by
  have hsettle : (settleStripe rt intent).Keeps SameIntents := by
    refine Job.keeps_bind (Job.keeps_get _) fun found => ?_
    cases found with
    | none => exact Job.keeps_ret _
    | some withAmount => exact keeps_settleCharge fun _ _ => sameIntents_settleCapture
  have hupsert : (upsertProviderTransaction intent.id providerTransactionId).Keeps SameIntents := by
    refine Job.keeps_bind (Job.keeps_get _) fun existing => ?_
    split
    · exact Job.keeps_bind (Job.keeps_ofExcept _) fun _ => Job.keeps_transaction (keeps_transactionUpdate fun _ _ => rfl)
    · exact Job.keeps_transaction (keeps_transactionUpdate fun _ _ => rfl)
    · exact Job.keeps_bind (Job.keeps_ofExcept _) fun _ =>
        Job.keeps_bind (Job.keeps_transaction (keeps_transactionCreate fun _ _ => rfl)) fun _ => Job.keeps_ret _
  have hlink : (markLinkPaid intent newStatus).Keeps SameIntents := by
    unfold markLinkPaid
    split
    · exact Job.keeps_ret _
    · split_ifs
      · exact Job.keeps_retry (Job.keeps_transaction (keeps_linkStatus fun _ _ => rfl)) _
      · exact Job.keeps_ret _
  refine Job.keeps_bind ?_ fun _ => Job.keeps_bind (Job.keeps_retry hupsert _) fun _ => Job.keeps_bind hlink fun _ =>
    Job.keeps_bind (Job.keeps_retry (Job.keeps_transaction (keeps_webhookCreate fun _ _ => rfl)) _) fun _ =>
      Job.keeps_ret _
  unfold settleUpdated
  split_ifs
  · exact Job.keeps_retry hsettle _
  · exact Job.keeps_ret _

/-- An event does to the status what the guard says. -/
theorem stripeWebhookProcessor_spec (event : StripeEvent) (id : Id) :
    (stripeWebhookProcessor rt event).Ensures (fun _ (db' : Db) => db'.statusOf id = event.next rt db id) db := by
  unfold stripeWebhookProcessor StripeEvent.next
  refine Job.ensures_ofExcept_bind (fun eventType htype => ?_) fun e he => by rw [StripeEvent.reported, he]; rfl
  refine Job.ensures_ofExcept_bind (fun obj hobj => ?_) fun e he => by rw [StripeEvent.reported, htype, he]; rfl
  have hreported : event.reported rt db id = (db.stripeIntent rt obj).bind fun found =>
      match found, stripeEventStatus eventType with
      | some intent, some newStatus =>
          (stripeTransactionId newStatus obj).bind fun _ => .ok (if intent.id = id then some newStatus else none)
      | _, _ => .ok none := by rw [StripeEvent.reported, htype, hobj]; rfl
  have hfind : (stepRun 5 (findStripeIntent rt obj)).Ensures
      (fun r db' => db' = db ∧ r = db.stripeIntent rt obj) db := by
    refine Job.ensures_retry (J := (· = db)) 5 (fun s hs => ?_) rfl
    subst hs
    refine (findStripeIntent_spec obj).mono fun r db' hr => ?_
    cases r with
    | ok found => exact hr
    | error e => exact ⟨hr.1, hr⟩
  refine (Job.ensures_bind _ _).mpr (hfind.mono fun r db' hr => ?_)
  obtain ⟨rfl, rfl⟩ := hr
  rw [hreported]
  cases db'.stripeIntent rt obj with
  | error e => rfl
  | ok found =>
      cases found with
      | none => rfl
      | some intent =>
          unfold routeStripeEvent
          cases stripeEventStatus eventType with
          | none => rfl
          | some newStatus =>
              dsimp only [Except.bind]
              refine Job.ensures_ofExcept_bind (fun ptid hptid => ?_) fun e he => by rw [he]
              refine (Job.ensures_bind _ _).mpr ((updateStripeStatus_retried intent.id newStatus).mono fun r db₁ h₁ => ?_)
              obtain ⟨⟨updated, rfl⟩, hstatus⟩ := h₁
              refine (sameIntents_finish db₁).mono fun _ db₂ h₂ => ?_
              rw [h₂.statusOf id, hstatus id, hptid]
              by_cases hid : id = intent.id
              · simp [hid]
              · simp [hid, Ne.symm hid]

/-! ## All events -/

/-- REFUNDED stays, and SUCCEEDED changes to REFUNDED only. -/
def PaymentIntentStatus.FinalKept (s s' : PaymentIntentStatus) : Prop :=
  (s = .refunded → s' = .refunded) ∧ (s = .succeeded → s' = .succeeded ∨ s' = .refunded)

instance (s s' : PaymentIntentStatus) : Decidable (s.FinalKept s') :=
  inferInstanceAs (Decidable ((s = .refunded → s' = .refunded) ∧ (s = .succeeded → s' = .succeeded ∨ s' = .refunded)))

@[simp] theorem PaymentIntentStatus.FinalKept.refl (s : PaymentIntentStatus) : s.FinalKept s := ⟨id, .inl⟩

def Db.FinalKept (id : Id) (db db' : Db) : Prop :=
  ∀ s, db.statusOf id = some s → ∃ s', db'.statusOf id = some s' ∧ s.FinalKept s'

instance (id : Id) : IsTrans Db (Db.FinalKept id) where
  trans := by
    intro db₁ db₂ db₃ h h' s hs
    obtain ⟨s₂, hs₂, hkept⟩ := h s hs
    obtain ⟨s₃, hs₃, hkept'⟩ := h' s₂ hs₂
    refine ⟨s₃, hs₃, fun hr => hkept'.1 (hkept.1 hr), fun hs => ?_⟩
    rcases hkept.2 hs with h | h
    · exact hkept'.2 h
    · exact .inr (hkept'.1 h)

/-- A final failure for an intent that is SUCCEEDED or REFUNDED, or a success for one that is REFUNDED. -/
def StripeEvent.TooLate (event : StripeEvent) (rt : Runtime) (id : Id) (db : Db) : Prop :=
  ∃ newStatus, event.reported rt db id = .ok (some newStatus) ∧
    (db.statusOf id = some .refunded ∧ newStatus ∈ [.succeeded, .failed, .canceled] ∨
      db.statusOf id = some .succeeded ∧ newStatus ∈ [.failed, .canceled])

theorem keepsStatus_finalKept_iff (current newStatus : PaymentIntentStatus) :
    current.FinalKept (if keepsStatus current newStatus then current else newStatus) ↔
      ¬ (current = .refunded ∧ newStatus ∈ [.succeeded, .failed, .canceled] ∨
        current = .succeeded ∧ newStatus ∈ [PaymentIntentStatus.failed, .canceled]) := by
  cases current <;> cases newStatus <;> decide

theorem finalKept_iff {event : StripeEvent} {db' : Db} (h : db'.statusOf id = event.next rt db id) :
    db.FinalKept id db' ↔ ¬ event.TooLate rt id db := by
  unfold Db.FinalKept StripeEvent.TooLate
  rw [h, StripeEvent.next]
  cases hstatus : db.statusOf id with
  | none => simp
  | some current =>
      cases hreported : event.reported rt db id with
      | error e => simp
      | ok reported =>
          cases reported with
          | none => simp
          | some newStatus => simpa using keepsStatus_finalKept_iff current newStatus

/-- The databases before and after each of the events, which are handled one after the other. -/
def handled (rt : Runtime) : List StripeEvent → Db × World → List Db
  | [], s => [s.1]
  | event :: events, s => s.1 :: handled rt events ((stripeWebhookProcessor rt event).run s.1 s.2).2

/-- No event comes too late. -/
def InTime (rt : Runtime) (id : Id) : List StripeEvent → Db × World → Prop
  | [], _ => True
  | event :: events, s =>
      ¬ event.TooLate rt id s.1 ∧ InTime rt id events ((stripeWebhookProcessor rt event).run s.1 s.2).2

theorem handled_head (rt : Runtime) (events : List StripeEvent) (s : Db × World) : ∃ rest, handled rt events s = s.1 :: rest := by
  cases events with
  | nil => exact ⟨[], rfl⟩
  | cons event events => exact ⟨_, rfl⟩

/-- The events leave the final statuses of an intent as they are, except for refunds, if and only if none of them comes
too late. -/
theorem finalStatuses_kept_iff (rt : Runtime) (id : Id) (events : List StripeEvent) (s : Db × World) :
    (handled rt events s).Pairwise (Db.FinalKept id) ↔ InTime rt id events s := by
  rw [← List.isChain_iff_pairwise]
  induction events generalizing s with
  | nil => simp [handled, InTime]
  | cons event events ih =>
      obtain ⟨rest, hrest⟩ := handled_head rt events ((stripeWebhookProcessor rt event).run s.1 s.2).2
      have hstep := (stripeWebhookProcessor_spec event id).run s.2
        (rfl : (stripeWebhookProcessor rt event).run s.1 s.2 = (_, _, _))
      rw [handled, InTime, ← ih, hrest, List.isChain_cons_cons, finalKept_iff hstep]

/-! ## A late event -/

/-- A runtime where a string selects its equals. -/
def equalsRuntime : Runtime where
  demoMode := false
  decryptCredentials _ := .error (.error "no key")
  newStripe _ := .ok ()
  constructEvent _ _ _ := false
  hmacSha256 _ _ := .error (.error "no key")
  sha256 _ := ""
  parseJson _ := .error (.error "no body")
  toUpperCase s := s
  toLowerCase s := s
  stringFilter value := .ok value.isStr
  nullableStringFilter value := .ok fun column => column.any value.isStr
  jsonEquals _ _ := false
  toNumber _ := none
  arithmetic := .correct

/-- A paid Stripe intent of a payment link over 15.00. -/
def paidDb : Db :=
  { Db.empty plainConfig with
    paymentLinks := [{ id := 3, tenantId := 1, amount := 1500, currency := .mad, status := .paid }]
    paymentIntents :=
      [{ id := 7, tenantId := 1, paymentLinkId := some 3, status := .succeeded, provider := .stripe,
         providerRef := some "pi_7", correlationId := "c7", metadata := none, riskVerdict := some .allow, createdAt := 0 }] }

/-- An event about the intent. -/
def eventAbout (type : String) (obj : List (String × Json)) : StripeEvent where
  payloadJson := .obj [("id", .str type), ("type", .str type), ("data", .obj [("object", .obj obj)])]
  idempotencyKey := type

/-- The refund of the intent, and its checkout session that completed before. -/
def lateCompletion : List StripeEvent :=
  [eventAbout "charge.refunded" [("object", .str "charge"), ("id", .str "ch_7"), ("payment_intent", .str "pi_7")],
   eventAbout "checkout.session.completed"
     [("object", .str "checkout.session"), ("payment_intent", .str "pi_7"), ("metadata", .obj [("correlationId", .str "c7")])]]

/-- The session brings a refunded intent back to SUCCEEDED. -/
theorem finalStatuses_not_kept :
    ¬ ∀ (rt : Runtime) (id : Id) (events : List StripeEvent) (s : Db × World),
      (handled rt events s).Pairwise (Db.FinalKept id) := by
  intro h
  have hrun : (handled equalsRuntime lateCompletion (paidDb, .counting)).map (·.statusOf 7) =
      [some .succeeded, some .refunded, some .succeeded] := by decide
  have hkept : ((handled equalsRuntime lateCompletion (paidDb, .counting)).map (·.statusOf 7)).Pairwise
      fun o o' => ∀ s, o = some s → ∃ s', o' = some s' ∧ s.FinalKept s' :=
    List.pairwise_map.mpr (h equalsRuntime 7 lateCompletion (paidDb, .counting))
  rw [hrun] at hkept
  obtain ⟨s', hs', hfinal⟩ := (List.pairwise_cons.mp (List.pairwise_cons.mp hkept).2).1 _ List.mem_cons_self _ rfl
  cases hs'
  exact absurd (hfinal.1 rfl) (by decide)

end CorpoPay.Settlement
