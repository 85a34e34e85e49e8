import CorpoPay.Settlement.Lemmas.Charges
import CorpoPay.Settlement.Theorems.StripeEvents
import CorpoPay.Settlement.Webhooks

/-!
# The tenant of a notification

The route and the job look the intent up by different fields of the payload. A notification with the charge of one tenant
and the customer of another is accepted with the key of the first and moves the intent of the second.
-/

namespace CorpoPay.Settlement

open Transaction.Tx
open Transaction (Job.run_bind Job.run_bind_ok Job.run_ofExcept_bind)
open Transaction (Job.ensures_bind Job.ensures_get Job.ensures_ofExcept_bind Job.ensures_orElse Job.ensures_retry
  Job.Ensures.mono)
open Transaction (Job.keeps_bind Job.keeps_ret Job.keeps_throw Job.keeps_get Job.keeps_transaction Job.keeps_ofExcept
  Job.keeps_query Job.keeps_orElse Job.keeps_retry)

variable {rt : Runtime} {db : Db} {event : WebhookNotification}

/-! ## The two look-ups -/

/-- The intent with the identifier as its correlation id, else the newest one with it as its reference. -/
def Db.identified (db : Db) (rt : Runtime) (provider : Provider) (identifier : Json) :
    Except Failure (Option PaymentIntent) :=
  (db.findIntent provider (some identifier) rt.byCorrelationId).map fun found =>
    found.or (if provider = .stripe then none else db.newestIntent rt provider identifier)

/-- The intent that the route verifies a payload for. -/
def Db.verified (db : Db) (rt : Runtime) (provider : Provider) (payload : Json) :
    Except Failure (Option PaymentIntent) := do
  let identifier ← webhookIdentifier provider payload
  match identifier.filter (·.truthy) with
  | none => pure none
  | some identifier => db.identified rt provider identifier

/-- The intent that the job processes a notification for. -/
def Db.notified (db : Db) (rt : Runtime) (event : WebhookNotification) : Except Failure (Option PaymentIntent) := do
  let orderId ← event.payloadJson.coalesce ["orderId", "OrderID", "paymentId"]
  let correlationId ← event.payloadJson.coalesce ["customerId"]
  match ← db.findIntent event.provider correlationId rt.byCorrelationId with
  | some intent => pure (some intent)
  | none =>
      match ← db.findIntent event.provider orderId rt.byProviderRef with
      | some intent => pure (some intent)
      | none => pure ((orderId.filter (·.truthy)).bind (db.newestIntent rt event.provider))

/-- The route accepts the notification with the key of the tenant. -/
def WebhookNotification.AcceptedFor (event : WebhookNotification) (rt : Runtime) (tenantId : Id) (s : Db × World) : Prop :=
  ((verifyWebhook rt event.provider event.rawBody event.headers).run s.1 s.2).1 = .ok (.ok event.payloadJson tenantId)

theorem findVerified_spec (provider : Provider) (identifier : Json) :
    (findVerified rt provider identifier).Ensures
      (fun r db' => db' = db ∧ r = db.identified rt provider identifier) db := by
  unfold findVerified Db.identified
  refine (Job.ensures_bind _ _).mpr ((findIntent_spec provider (some identifier) rt.byCorrelationId).mono fun r db' hr => ?_)
  obtain ⟨rfl, rfl⟩ := hr
  cases db'.findIntent provider (some identifier) rt.byCorrelationId with
  | error e => exact ⟨rfl, rfl⟩
  | ok found =>
      cases found with
      | some intent => exact ⟨rfl, rfl⟩
      | none =>
          dsimp only
          split_ifs <;> exact ⟨rfl, rfl⟩

/-- A notification is accepted with the key of the intent that the route looked up. -/
theorem verifyWebhook_spec (provider : Provider) (rawBody : Buffer) (headers : Headers) :
    (verifyWebhook rt provider rawBody headers).Ensures (fun r _ => ∀ payload tenantId,
      r = .ok (.ok payload tenantId) → ∃ intent,
        db.verified rt provider payload = .ok (some intent) ∧ intent.tenantId = tenantId) db := by
  unfold verifyWebhook
  cases rt.parseJson rawBody with
  | error e => rintro _ _ ⟨⟩
  | ok payload =>
      refine (Job.ensures_orElse _ _).mpr ?_
      unfold verifyPayload
      refine Job.ensures_ofExcept_bind (fun identifier hidentifier => ?_) fun e _ => by rintro _ _ ⟨⟩
      have hverified : db.verified rt provider payload =
          match identifier.filter (·.truthy) with
          | none => .ok none
          | some identifier => db.identified rt provider identifier := by rw [Db.verified, hidentifier]; rfl
      cases hfilter : identifier.filter (·.truthy) with
      | none => rintro _ _ ⟨⟩
      | some identifier =>
          rw [hfilter] at hverified
          refine (Job.ensures_bind _ _).mpr ((findVerified_spec provider identifier).mono fun r db' hr => ?_)
          obtain ⟨rfl, rfl⟩ := hr
          cases hfound : db'.identified rt provider identifier with
          | error e => rintro _ _ ⟨⟩
          | ok found =>
              cases found with
              | none => rintro _ _ ⟨⟩
              | some intent =>
                  refine (Job.ensures_bind _ _).mpr ((Job.ensures_get _).mpr ?_)
                  cases db'.providerConfig intent.tenantId provider with
                  | none => rintro _ _ ⟨⟩
                  | some config =>
                      refine Job.ensures_ofExcept_bind (fun valid _ => ?_) fun e _ => by rintro _ _ ⟨⟩
                      cases valid
                      · rintro _ _ ⟨⟩
                      · rintro _ _ ⟨⟩
                        exact ⟨intent, hverified.trans hfound, rfl⟩

theorem verified_of_accepted {tenantId : Id} {w : World} (h : event.AcceptedFor rt tenantId (db, w)) : ∃ intent,
    db.verified rt event.provider event.payloadJson = .ok (some intent) ∧ intent.tenantId = tenantId := by
  rcases hrun : (verifyWebhook rt event.provider event.rawBody event.headers).run db w with ⟨r, db', w'⟩
  refine (verifyWebhook_spec _ _ _).run w hrun _ _ ?_
  rw [WebhookNotification.AcceptedFor, hrun] at h
  exact h

/-- The job processes the intent that it looked up. -/
theorem findNotified_spec : (stepRun DEFAULT_RETRIES ((findNotified rt event).bind withPaymentLink)).Ensures
    (fun r db' => db' = db ∧ r = (db.notified rt event).map fun found => found.map db.withLink) db := by
  have hfind : (findNotified rt event).Ensures (fun r db' => db' = db ∧ r = db.notified rt event) db := by
    unfold findNotified Db.notified
    refine Job.ensures_ofExcept_bind (fun orderId ho => ?_) fun e he => ⟨rfl, by rw [he]; rfl⟩
    refine Job.ensures_ofExcept_bind (fun correlationId hc => ?_) fun e he => ⟨rfl, by rw [ho, he]; rfl⟩
    refine (Job.ensures_bind _ _).mpr ((findIntent_spec _ correlationId rt.byCorrelationId).mono fun r db' hr => ?_)
    obtain ⟨rfl, rfl⟩ := hr
    rw [ho, hc]
    dsimp only [Bind.bind, Except.bind]
    cases db'.findIntent event.provider correlationId rt.byCorrelationId with
    | error e => exact ⟨rfl, rfl⟩
    | ok found =>
        cases found with
        | some intent => exact ⟨rfl, rfl⟩
        | none =>
            refine (Job.ensures_bind _ _).mpr ((findIntent_spec _ orderId rt.byProviderRef).mono fun r db'' hr => ?_)
            obtain ⟨rfl, rfl⟩ := hr
            cases db''.findIntent event.provider orderId rt.byProviderRef with
            | error e => exact ⟨rfl, rfl⟩
            | ok found =>
                cases found with
                | some intent => exact ⟨rfl, rfl⟩
                | none =>
                    dsimp only
                    cases orderId.filter (·.truthy) <;> exact ⟨rfl, rfl⟩
  refine Job.ensures_retry (J := (· = db)) _ (fun s hs => ?_) rfl
  subst hs
  refine (Job.ensures_bind _ _).mpr (hfind.mono fun r db' hr => ?_)
  obtain ⟨rfl, rfl⟩ := hr
  cases db'.notified rt event with
  | error e => exact ⟨rfl, rfl, rfl⟩
  | ok found => exact ⟨rfl, rfl⟩

/-! ## What the notification reports -/

/-- The internal status of the notification for an intent. -/
def WebhookNotification.mapped (event : WebhookNotification) (rt : Runtime) (db : Db) (intent : PaymentIntent) :
    Option Json :=
  match event.payloadJson.coalesce ["Status", "status", "transactionStatus"] with
  | .ok (some providerStatus) =>
      if providerStatus.truthy then
        (db.providerConfig intent.tenantId event.provider).bind fun config =>
          (mapNotifiedStatus rt event.provider providerStatus config).toOption
      else none
  | _ => none

/-- The status that is written. -/
def WebhookNotification.written (event : WebhookNotification) (rt : Runtime) (db : Db) (intent : PaymentIntent) :
    Option PaymentIntentStatus :=
  if intent.status ∈ PaymentIntentStatus.TERMINAL then none
  else (event.mapped rt db intent).bind PaymentIntentStatus.ofJson

/-- The reference of the provider's transaction is a text, where there is a row for it. -/
def TransactionFits (db : Db) (intentId : Id) (providerTransactionId : Option Json) : Prop :=
  ∀ value ∈ providerTransactionId.filter (·.truthy), db.providerTransactions.any (·.paymentIntentId = intentId) = true →
    ∃ column, textColumn value = .ok column

/-- The rows beside the intent can be written. -/
def WebhookNotification.Recorded (event : WebhookNotification) (db : Db) (intent : PaymentIntent) : Prop :=
  (∀ id, event.payloadJson.coalesce ["transactionId", "TransactionID", "id", "internalId"] = .ok id →
    TransactionFits db intent.id id) ∧
  ∀ linkId ∈ intent.paymentLinkId, (db.paymentLink linkId).isSome = true

/-- The capture of the intent is asked for. -/
def WebhookNotification.Settles (event : WebhookNotification) (rt : Runtime) (db : Db) (intent : PaymentIntent) : Prop :=
  ∃ m ∈ event.mapped rt db intent, m.isStr PaymentIntentStatus.succeeded.code = true ∧ event.Recorded db intent

/-! ## The status update -/

/-- What the job leaves as it was before it settles. -/
def Beside (db db' : Db) : Prop :=
  db'.toConfig = db.toConfig ∧ db'.ledgerEntries = db.ledgerEntries ∧ db'.splits = db.splits

instance : IsPreorder Db Beside where
  refl := fun _ => ⟨rfl, rfl, rfl⟩
  trans := fun _ _ _ h h' => ⟨h'.1.trans h.1, h'.2.1.trans h.2.1, h'.2.2.trans h.2.2⟩

theorem beside_applyStatus {payload : Json} {intent : IntentWithLink} {m : Json} :
    (applyStatus payload intent m).Keeps Beside := by
  refine Job.keeps_bind (Job.keeps_ofExcept _) fun value => Job.keeps_bind ?_ fun _ => Job.keeps_bind ?_ fun _ => ?_
  · unfold writeStatus
    split_ifs
    · exact Job.keeps_ret _
    · exact Job.keeps_bind (Job.keeps_ofExcept _) fun _ =>
        Job.keeps_bind (Job.keeps_transaction (keeps_intentUpdate fun _ _ => ⟨rfl, rfl, rfl⟩)) fun _ => Job.keeps_ret _
  · unfold recordTransaction
    cases value.filter (·.truthy) with
    | none => exact Job.keeps_ret _
    | some value =>
        refine Job.keeps_bind (Job.keeps_get _) fun row => ?_
        cases row with
        | none => exact Job.keeps_ret _
        | some row => exact Job.keeps_bind (Job.keeps_ofExcept _) fun _ =>
            Job.keeps_transaction (keeps_transactionUpdate fun _ _ => ⟨rfl, rfl, rfl⟩)
  · unfold markNotifiedLinkPaid
    cases intent.paymentLinkId with
    | none => exact Job.keeps_ret _
    | some linkId =>
        dsimp only
        split_ifs
        · exact Job.keeps_transaction (keeps_linkStatus fun _ _ => ⟨rfl, rfl, rfl⟩)
        · exact Job.keeps_ret _

/-- A successful result of an update that was not an error. -/
def WebhookResult.settles (result : WebhookResult) : Bool :=
  result.processed && result.mappedStatus.any (·.isStr PaymentIntentStatus.succeeded.code)

/-- The rows that the update looks at beside the intent. -/
def SameRows (db db' : Db) : Prop :=
  db'.paymentLinks = db.paymentLinks ∧ db'.providerTransactions = db.providerTransactions

instance : IsPreorder Db SameRows where
  refl := fun _ => ⟨rfl, rfl⟩
  trans := fun _ _ _ h h' => ⟨h'.1.trans h.1, h'.2.trans h.2⟩

theorem writeStatus_spec {intent : PaymentIntent} (hintent : intent ∈ db.paymentIntents) (m : Json) :
    (writeStatus (db.withLink intent) m).Ensures
      (fun r (db' : Db) => SameRows db db' ∧
        (∀ id, db'.statusOf id = if id = intent.id ∧ intent.status ∉ PaymentIntentStatus.TERMINAL then
          (PaymentIntentStatus.ofJson m).or (db.statusOf id) else db.statusOf id) ∧
        (r = .ok () ↔ intent.status ∈ PaymentIntentStatus.TERMINAL ∨ (PaymentIntentStatus.ofJson m).isSome = true)) db := by
  unfold writeStatus statusColumn
  have hsame : (db.withLink intent).status = intent.status := rfl
  rw [hsame]
  split_ifs with hterminal
  · exact ⟨⟨rfl, rfl⟩, fun id => by simp [hterminal], by simp [hterminal]⟩
  · cases hm : PaymentIntentStatus.ofJson m with
    | none => exact ⟨⟨rfl, rfl⟩, fun id => by simp, by simp [hterminal]⟩
    | some status =>
        obtain ⟨row, hrow⟩ : ∃ row, db.paymentIntent intent.id = some row :=
          Option.isSome_iff_exists.mp (List.find?_isSome.mpr ⟨intent, hintent, by simp⟩)
        have hrows : (PaymentIntent.setStatus intent.id status).Keeps SameRows := keeps_intentUpdate fun _ _ => ⟨rfl, rfl⟩
        refine (Job.ensures_bind _ _).mpr (((ensures_setStatus hrow).and (hrows db)).mono (fun _ db' h => ?_) fun _ h => ?_)
        · exact ⟨h.2, fun id => by simp [h.1 id, hterminal], by simp⟩
        · exact h.1.elim

/-- The row of the provider's transaction is updated when its value fits. -/
theorem recordTransaction_spec (intentId : Id) (value : Option Json) :
    (recordTransaction intentId value).Ensures (fun r (db' : Db) => (db'.paymentLinks = db.paymentLinks ∧ SameIntents db db') ∧
      (r = .ok () ↔ TransactionFits db intentId value)) db := by
  unfold recordTransaction TransactionFits
  cases value.filter (·.truthy) with
  | none => exact ⟨⟨rfl, rfl⟩, by simp⟩
  | some value =>
      refine (Job.ensures_bind _ _).mpr ((Job.ensures_get _).mpr ?_)
      cases hrow : db.providerTransactions.find? (·.paymentIntentId = intentId) with
      | none =>
          refine ⟨⟨rfl, rfl⟩, iff_of_true rfl fun value' _ hany => ?_⟩
          simp only [List.find?_eq_none, decide_eq_true_eq] at hrow
          obtain ⟨row, hmem, hrow'⟩ := List.any_eq_true.mp hany
          exact absurd (of_decide_eq_true hrow') (hrow row hmem)
      | some existing =>
          have hany : db.providerTransactions.any (·.paymentIntentId = intentId) = true :=
            List.any_eq_true.mpr ⟨existing, List.mem_of_find?_eq_some hrow, by simpa using List.find?_some hrow⟩
          refine Job.ensures_ofExcept_bind (fun column hcolumn => ?_) fun e he => ?_
          · obtain ⟨row, hid⟩ : ∃ row, db.providerTransactions.find? (·.id = existing.id) = some row :=
              Option.isSome_iff_exists.mp (List.find?_isSome.mpr ⟨existing, List.mem_of_find?_eq_some hrow, by simp⟩)
            show Transaction.Tx.Ensures (I := Backend) _ _ (ProviderTransaction.update existing.id _) db
            simp only [ProviderTransaction.update, bind_eq, ensures_bind, ensures_acquire, ensures_get, hid, ensures_modify]
            refine ⟨⟨rfl, rfl⟩, iff_of_true rfl fun value' hmem _ => ⟨column, ?_⟩⟩
            obtain rfl := Option.mem_some_iff.mp hmem
            exact hcolumn
          · refine ⟨⟨rfl, rfl⟩, by simp, fun h => ?_⟩
            obtain ⟨column, hcolumn⟩ := h value rfl hany
            rw [he] at hcolumn
            cases hcolumn

/-- The link of a paid intent is updated when it exists. -/
theorem markNotifiedLinkPaid_spec (intent : IntentWithLink) (m : Json) :
    (markNotifiedLinkPaid intent m).Ensures (fun r (db' : Db) => SameIntents db db' ∧
      (r = .ok () ↔ (m.isStr PaymentIntentStatus.succeeded.code = true → ∀ linkId ∈ intent.paymentLinkId,
        (db.paymentLink linkId).isSome = true))) db := by
  unfold markNotifiedLinkPaid
  cases intent.paymentLinkId with
  | none => exact ⟨rfl, by simp⟩
  | some linkId =>
      dsimp only
      split_ifs with hpaid
      · show Transaction.Tx.Ensures (I := Backend) _ _ (PaymentLink.setStatus linkId .paid) db
        simp only [PaymentLink.setStatus, bind_eq, ensures_bind, ensures_acquire, ensures_get]
        cases hlink : db.paymentLink linkId with
        | none => exact ⟨rfl, by simp [hpaid, hlink]⟩
        | some link => exact ⟨rfl, by simp [hpaid, hlink]⟩
      · exact ⟨rfl, by simp [hpaid]⟩

/-- A value with one key that can be read has all of them. -/
theorem coalesce_isOk {value : Json} {key : String} {keys : List String} {r : Option Json}
    (h : value.coalesce (key :: keys) = .ok r) (keys' : List String) : ∃ r', value.coalesce keys' = .ok r' := by
  have hget : ∀ key', ∃ v, value.get key' = .ok v := by
    intro key'
    cases value with
    | null => cases h
    | _ => exact ⟨_, rfl⟩
  induction keys' with
  | nil => exact ⟨none, rfl⟩
  | cons key' keys' ih =>
      obtain ⟨v, hv⟩ := hget key'
      rw [Json.coalesce, hv]
      cases v with
      | none => exact ih
      | some v =>
          dsimp only
          split_ifs
          · exact ih
          · exact ⟨_, rfl⟩

/-- The intent has the status that the notification reports, unless it was terminal. -/
def Updated (db db' : Db) (intent : PaymentIntent) (status : Option PaymentIntentStatus) : Prop :=
  ∀ id, db'.statusOf id = if id = intent.id then status.or (db.statusOf id) else db.statusOf id

theorem applyStatus_spec {intent : PaymentIntent} (hintent : intent ∈ db.paymentIntents) (m : Json) {value : Option Json}
    (hvalue : event.payloadJson.coalesce ["transactionId", "TransactionID", "id", "internalId"] = .ok value) :
    (applyStatus event.payloadJson (db.withLink intent) m).Ensures (fun r (db' : Db) =>
      Updated db db' intent
        (if intent.status ∈ PaymentIntentStatus.TERMINAL then none else PaymentIntentStatus.ofJson m) ∧
      (m.isStr PaymentIntentStatus.succeeded.code = true → (r = .ok () ↔ event.Recorded db intent))) db := by
  unfold applyStatus
  refine Job.ensures_ofExcept_bind (fun value' hvalue' => ?_) fun e he => by rw [hvalue] at he; cases he
  obtain rfl := Except.ok.inj (hvalue.symm.trans hvalue')
  refine (Job.ensures_bind _ _).mpr ((writeStatus_spec hintent m).mono fun r db₁ h₁ => ?_)
  obtain ⟨hrows₁, hstatus₁, hr₁⟩ := h₁
  have hwritten : Updated db db₁ intent
      (if intent.status ∈ PaymentIntentStatus.TERMINAL then none else PaymentIntentStatus.ofJson m) := by
    intro id
    rw [hstatus₁ id]
    by_cases hid : id = intent.id <;> by_cases hterminal : intent.status ∈ PaymentIntentStatus.TERMINAL <;>
      simp [hid, hterminal]
  cases r with
  | error e =>
      refine ⟨hwritten, fun hpaid => ?_⟩
      have hsome : (PaymentIntentStatus.ofJson m).isSome = true :=
        List.find?_isSome.mpr ⟨.succeeded, by decide, hpaid⟩
      exact absurd (hr₁.mpr (.inr hsome)) (by simp)
  | ok _ =>
      refine (Job.ensures_bind _ _).mpr ((recordTransaction_spec intent.id value).mono fun r db₂ h₂ => ?_)
      obtain ⟨⟨hlinks₂, hintents₂⟩, hr₂⟩ := h₂
      have hfits : TransactionFits db₁ intent.id value ↔ TransactionFits db intent.id value := by
        rw [TransactionFits, TransactionFits, hrows₁.2]
      have hwritten₂ : Updated db db₂ intent
          (if intent.status ∈ PaymentIntentStatus.TERMINAL then none else PaymentIntentStatus.ofJson m) :=
        fun id => by rw [hintents₂.statusOf id, hwritten id]
      cases r with
      | error e =>
          refine ⟨hwritten₂, fun _ => ⟨fun h => (by cases h), fun h => ?_⟩⟩
          exact absurd (hr₂.mpr (hfits.mpr (h.1 value hvalue))) (by simp)
      | ok _ =>
          refine (markNotifiedLinkPaid_spec (db.withLink intent) m).mono fun r db₃ h₃ => ?_
          obtain ⟨hintents₃, hr₃⟩ := h₃
          refine ⟨fun id => by rw [hintents₃.statusOf id, hwritten₂ id], fun hpaid => ?_⟩
          have hlinks : ∀ linkId, db₂.paymentLink linkId = db.paymentLink linkId := fun linkId => by
            rw [Db.paymentLink, Db.paymentLink, hlinks₂, hrows₁.1]
          rw [hr₃]
          constructor
          · intro h
            refine ⟨fun value' hvalue' => ?_, fun linkId hlink => ?_⟩
            · obtain rfl := Except.ok.inj (hvalue.symm.trans hvalue')
              exact hfits.mp (hr₂.mp rfl)
            · rw [← hlinks]; exact h hpaid linkId hlink
          · intro h _ linkId hlink
            rw [hlinks]; exact h.2 linkId hlink

/-- The update of a status, which reports its own errors. -/
theorem updateNotified_spec {intent : PaymentIntent} (hintent : intent ∈ db.paymentIntents) {providerStatus : Json}
    (hstatus : event.payloadJson.coalesce ["Status", "status", "transactionStatus"] = .ok (some providerStatus))
    (htruthy : providerStatus.truthy = true) :
    (updateNotified rt event (db.withLink intent) providerStatus).Ensures (fun r (db' : Db) => ∃ result, r = .ok result ∧
      Updated db db' intent (event.written rt db intent) ∧ (result.settles = true ↔ event.Settles rt db intent)) db := by
  have hmapped : event.mapped rt db intent = (db.providerConfig intent.tenantId event.provider).bind fun config =>
      (mapNotifiedStatus rt event.provider providerStatus config).toOption := by
    rw [WebhookNotification.mapped, hstatus]; exact if_pos htruthy
  have hnothing : event.mapped rt db intent = none → ∀ e, ∃ result, (Except.ok ⟨none, some e, false⟩ :
      Except Failure WebhookResult) = .ok result ∧ Updated db db intent (event.written rt db intent) ∧
      (result.settles = true ↔ event.Settles rt db intent) := by
    intro hnone e
    refine ⟨_, rfl, fun id => ?_, ?_⟩
    · rw [WebhookNotification.written, hnone]; simp
    · simp [WebhookResult.settles, WebhookNotification.Settles, hnone]
  unfold updateNotified
  refine (Job.ensures_bind _ _).mpr ((Job.ensures_get _).mpr ?_)
  have htenant : (db.withLink intent).tenantId = intent.tenantId := rfl
  rw [htenant]
  cases hconfig : db.providerConfig intent.tenantId event.provider with
  | none =>
      rw [hconfig] at hmapped
      exact hnothing hmapped _
  | some config =>
      refine (Job.ensures_orElse _ _).mpr (Job.ensures_ofExcept_bind (fun m hm => ?_) fun e he => ?_)
      · obtain ⟨value, hvalue⟩ := coalesce_isOk hstatus ["transactionId", "TransactionID", "id", "internalId"]
        have hsome : event.mapped rt db intent = some m := by rw [hmapped, hconfig]; simp [hm, Except.toOption]
        have hwritten : event.written rt db intent = if intent.status ∈ PaymentIntentStatus.TERMINAL then none else
            PaymentIntentStatus.ofJson m := by rw [WebhookNotification.written, hsome]; rfl
        refine (Job.ensures_bind _ _).mpr ((applyStatus_spec hintent m hvalue).mono fun r db' h => ?_)
        obtain ⟨hupdated, hr⟩ := h
        rw [hwritten]
        cases r with
        | ok _ =>
            refine ⟨_, rfl, hupdated, fun hsettles => ?_, ?_⟩
            · exact ⟨m, hsome, hsettles, (hr hsettles).mp rfl⟩
            · rintro ⟨m', hm', hpaid, -⟩
              obtain rfl := Option.some.inj (hsome.symm.trans hm')
              exact hpaid
        | error e =>
            refine ⟨_, rfl, hupdated, fun hsettles => (by cases hsettles), ?_⟩
            rintro ⟨m', hm', hpaid, hrecorded⟩
            obtain rfl := Option.some.inj (hsome.symm.trans hm')
            exact absurd ((hr hpaid).mpr hrecorded) (by simp)
      · refine hnothing ?_ e
        rw [hmapped, hconfig]; simp [he, Except.toOption]

theorem processStatus_spec {intent : PaymentIntent} (hintent : intent ∈ db.paymentIntents) {providerStatus : Option Json}
    (hstatus : event.payloadJson.coalesce ["Status", "status", "transactionStatus"] = .ok providerStatus) :
    (processStatus rt event (some (db.withLink intent)) providerStatus).Ensures (fun r (db' : Db) => ∃ result, r = .ok result ∧
      Updated db db' intent (event.written rt db intent) ∧ (result.settles = true ↔ event.Settles rt db intent)) db := by
  unfold processStatus
  cases hfilter : providerStatus.filter (·.truthy) with
  | none =>
      have hnone : event.mapped rt db intent = none := by
        rw [WebhookNotification.mapped, hstatus]
        cases providerStatus with
        | none => rfl
        | some s => exact if_neg fun h => by simp [Option.filter, h] at hfilter
      refine ⟨_, rfl, fun id => ?_, ?_⟩
      · rw [WebhookNotification.written, hnone]; simp
      · simp [WebhookResult.settles, WebhookNotification.Settles, hnone]
  | some s =>
      obtain ⟨rfl, htruthy⟩ := Option.filter_eq_some_iff.mp hfilter
      refine Job.ensures_retry (J := (· = db)) _ (fun s' hs => ?_) rfl
      subst hs
      refine (updateNotified_spec hintent hstatus htruthy).mono fun r db' hr => ?_
      obtain ⟨result, rfl, hresult⟩ := hr
      exact ⟨result, rfl, hresult⟩

theorem beside_processStatus {intent : Option IntentWithLink} {providerStatus : Option Json} :
    (processStatus rt event intent providerStatus).Keeps Beside := by
  unfold processStatus
  split
  · refine Job.keeps_retry (Job.keeps_bind (Job.keeps_get _) fun config => ?_) _
    cases config with
    | none => exact Job.keeps_ret _
    | some config =>
        exact Job.keeps_orElse (Job.keeps_bind (Job.keeps_ofExcept _) fun _ =>
          Job.keeps_bind beside_applyStatus fun _ => Job.keeps_ret _) fun _ => Job.keeps_ret _
  · exact Job.keeps_ret _

theorem verifySignature_spec (tenantId : Option Id) :
    (stepRun DEFAULT_RETRIES (verifySignature rt event tenantId)).Ensures (fun r db' => db' = db ∧ ∃ valid, r = .ok valid) db := by
  refine Job.ensures_retry (J := (· = db)) _ (fun s hs => ?_) rfl
  subst hs
  unfold verifySignature
  cases tenantId with
  | none => exact ⟨rfl, _, rfl⟩
  | some tenantId =>
      refine (Job.ensures_bind _ _).mpr ((Job.ensures_get _).mpr ?_)
      cases s.providerConfig tenantId event.provider <;> exact ⟨rfl, _, rfl⟩

/-- Neither the ledger nor an intent is written. -/
def SamePayments (db db' : Db) : Prop := db'.ledgerEntries = db.ledgerEntries ∧ SameIntents db db'

instance : IsPreorder Db SamePayments where
  refl := fun _ => ⟨rfl, rfl⟩
  trans := fun _ _ _ h h' => ⟨h'.1.trans h.1, trans_of SameIntents h.2 h'.2⟩

theorem samePayments_store {intent : Option IntentWithLink} {signatureVerified : Bool} {result : WebhookResult} :
    ((stepRun DEFAULT_RETRIES (storeNotification event intent signatureVerified result)).bind fun webhookEvent =>
      .ret webhookEvent.id).Keeps SamePayments :=
  Job.keeps_bind (Job.keeps_retry (Job.keeps_bind (Job.keeps_ofExcept _) fun _ =>
    Job.keeps_transaction (keeps_webhookCreate fun _ _ => ⟨rfl, rfl⟩)) _) fun _ => Job.keeps_ret _

/-! ## The whole job -/

variable {w w' : World} {db' : Db} {found : PaymentIntent}

/-- The charge that the job settles can be settled. -/
def Db.CanSettleIntent (db : Db) (rt : Runtime) (intent : PaymentIntent) : Prop :=
  db.CanSettleCharge intent.tenantId intent.id (resolveIntentCharge rt (db.withLink intent))

/-- The last steps: the settlement and the row of the event. -/
theorem settled_run (event : WebhookNotification) (found : PaymentIntent) (db₀ : Db) {signatureVerified : Bool} {result : WebhookResult} {r : Except Failure Id}
    (hfresh : FreshRows db w)
    (hrun : ((settleNotified rt (some (db₀.withLink found)) result).bind fun _ =>
      (stepRun DEFAULT_RETRIES (storeNotification event (some (db₀.withLink found)) signatureVerified result)).bind
        fun webhookEvent => .ret webhookEvent.id).run db w = (r, db', w')) :
    SameIntents db db' ∧ ∀ t i, db'.isCaptured t i = true ↔ db.isCaptured t i = true ∨ found.tenantId = t ∧ found.id = i ∧
      result.settles = true ∧ db.CanSettleCharge found.tenantId found.id (resolveIntentCharge rt (db₀.withLink found)) := by
  rw [Job.run_bind] at hrun
  have hsettle : (settleNotified rt (some (db₀.withLink found)) result).Keeps SameIntents := by
    unfold settleNotified
    dsimp only
    split_ifs
    · exact Job.keeps_retry (keeps_settleCharge fun _ _ => sameIntents_settleCapture) _
    · exact Job.keeps_ret _
  have hcaptured : ∀ t i, ((settleNotified rt (some (db₀.withLink found)) result).run db w).2.1.isCaptured t i = true ↔
      db.isCaptured t i = true ∨ found.tenantId = t ∧ found.id = i ∧ result.settles = true ∧
        db.CanSettleCharge found.tenantId found.id (resolveIntentCharge rt (db₀.withLink found)) := by
    intro t i
    unfold settleNotified
    cases hsettles : result.settles with
    | true =>
        rw [WebhookResult.settles] at hsettles
        dsimp only
        rw [if_pos hsettles, stepRun, settleCharge_retried hfresh]
        simp [Db.withLink]
    | false =>
        rw [WebhookResult.settles] at hsettles
        dsimp only
        rw [if_neg (by simp [hsettles])]
        simp [Transaction.Job.run]
  rcases hsettled : (settleNotified rt (some (db₀.withLink found)) result).run db w with ⟨e | settled, db₁, w₁⟩
  all_goals
    have hintents := hsettle.run hsettled
    rw [hsettled] at hrun hcaptured
  · cases hrun
    exact ⟨hintents, hcaptured⟩
  · obtain ⟨hledger, hstored⟩ := samePayments_store.run hrun
    refine ⟨trans_of SameIntents hintents hstored, fun t i => ?_⟩
    rw [Db.isCaptured, Db.movements, hledger]
    exact hcaptured t i

/-- What the job does for the intent that it finds. -/
theorem webhookProcessor_run {r : Except Failure Id} (hfresh : FreshRows db w) (hmem : found ∈ db.paymentIntents)
    (hfound : db.notified rt event = .ok (some found))
    (hrun : (webhookProcessor rt event).run db w = (r, db', w')) :
    Updated db db' found (event.written rt db found) ∧
      ∀ t i, db'.isCaptured t i = true ↔ db.isCaptured t i = true ∨
        found.tenantId = t ∧ found.id = i ∧ event.Settles rt db found ∧ db.CanSettleIntent rt found := by
  unfold webhookProcessor at hrun
  rcases hfind : (stepRun DEFAULT_RETRIES ((findNotified rt event).bind withPaymentLink)).run db w with ⟨r₁, db₁, w₁⟩
  obtain ⟨rfl, rfl⟩ := findNotified_spec.run w hfind
  rw [hfound] at hfind
  rw [Transaction.Job.bind_eq, Job.run_bind_ok hfind] at hrun
  rcases hverify : (stepRun DEFAULT_RETRIES (verifySignature rt event
    (((some found).map db₁.withLink).map (·.tenantId)))).run db₁ w₁ with ⟨r₂, db₂, w₂⟩
  obtain ⟨rfl, valid, rfl⟩ := (verifySignature_spec _).run w₁ hverify
  rw [Transaction.Job.bind_eq, Job.run_bind_ok hverify, Transaction.Job.bind_eq, Job.run_ofExcept_bind] at hrun
  cases hstatus : event.payloadJson.coalesce ["Status", "status", "transactionStatus"] with
  | error e =>
      have hnone : event.mapped rt db₂ found = none := by rw [WebhookNotification.mapped, hstatus]
      rw [hstatus] at hrun
      cases hrun
      exact ⟨fun id => by simp [WebhookNotification.written, hnone], by simp [WebhookNotification.Settles, hnone]⟩
  | ok providerStatus =>
      rw [hstatus] at hrun
      dsimp only at hrun
      rcases hprocess : (processStatus rt event (some (db₂.withLink found)) providerStatus).run db₂ w₂ with ⟨r₃, db₃, w₃⟩
      obtain ⟨result, rfl, hupdated, hsettles⟩ := (processStatus_spec hmem hstatus).run w₂ hprocess
      obtain ⟨hconfig, hledger, hsplits⟩ := beside_processStatus.run hprocess
      rw [Transaction.Job.bind_eq, Option.map_some, Job.run_bind_ok hprocess] at hrun
      have hlater : w.Before w₃ := (before_run hfind).trans ((before_run hverify).trans (before_run hprocess))
      have hfresh' := hfresh.later hlater
      obtain ⟨hintents, hcaptured⟩ := settled_run event found db₂
        ⟨⟨hfresh'.distinct, by rw [hledger]; exact hfresh'.entries⟩, by rw [hsplits]; exact hfresh'.splits⟩ hrun
      refine ⟨fun id => by rw [hintents.statusOf id, hupdated id], fun t i => ?_⟩
      rw [hcaptured, hsettles]
      have hmovements : db₃.movements = db₂.movements := by rw [Db.movements, hledger]; rfl
      simp only [Db.isCaptured, Db.CanSettleIntent, Db.CanSettleCharge, Db.CanSettle, hmovements, hconfig]

/-- A job that finds no intent moves none. -/
theorem webhookProcessor_idle {r : Except Failure Id} (hnone : ∀ found, db.notified rt event ≠ .ok (some found))
    (hrun : (webhookProcessor rt event).run db w = (r, db', w')) : SamePayments db db' := by
  unfold webhookProcessor at hrun
  rcases hfind : (stepRun DEFAULT_RETRIES ((findNotified rt event).bind withPaymentLink)).run db w with ⟨r₁, db₁, w₁⟩
  obtain ⟨rfl, rfl⟩ := findNotified_spec.run w hfind
  cases hfound : db₁.notified rt event with
  | error e =>
      rw [hfound] at hfind
      rw [Transaction.Job.bind_eq, Job.run_bind, hfind] at hrun
      cases hrun
      exact refl_of SamePayments _
  | ok found =>
      cases found with
      | some found => exact absurd hfound (hnone found)
      | none =>
          rw [hfound] at hfind
          rw [Transaction.Job.bind_eq, Job.run_bind_ok hfind] at hrun
          refine Transaction.Job.Keeps.run (R := SamePayments) ?_ hrun
          refine Job.keeps_bind (fun s => (verifySignature_spec none).mono ?_) fun _ => ?_
          · rintro _ _ ⟨rfl, -⟩; exact refl_of SamePayments _
          · exact Job.keeps_bind (Job.keeps_ofExcept _) fun _ => Job.keeps_bind (Job.keeps_ret _) fun _ =>
              Job.keeps_bind (Job.keeps_ret _) fun _ => samePayments_store

theorem mem_of_findIntent {provider : Provider} {value : Option Json} {selects : Json → Except Failure (PaymentIntent → Bool)}
    (h : db.findIntent provider value selects = .ok (some found)) : found ∈ db.paymentIntents := by
  unfold Db.findIntent at h
  cases hvalue : value.filter (·.truthy) with
  | none => rw [hvalue] at h; cases h
  | some value =>
      rw [hvalue] at h
      obtain ⟨selected, -, hfound⟩ := Except.map_eq_ok h
      exact List.mem_of_find?_eq_some hfound

theorem mem_of_notified (h : db.notified rt event = .ok (some found)) : found ∈ db.paymentIntents := by
  obtain ⟨orderId, -, h⟩ := Except.bind_eq_ok h
  obtain ⟨correlationId, -, h⟩ := Except.bind_eq_ok h
  obtain ⟨byCorrelation, hcorrelation, h⟩ := Except.bind_eq_ok h
  cases byCorrelation with
  | some intent => cases h; exact mem_of_findIntent hcorrelation
  | none =>
      obtain ⟨byReference, hreference, h⟩ := Except.bind_eq_ok h
      cases byReference with
      | some intent => cases h; exact mem_of_findIntent hreference
      | none =>
          obtain ⟨value, -, hnewest⟩ := Option.bind_eq_some_iff.mp (Except.ok.inj h)
          exact mem_of_newestIntent hnewest

/-! ## Binding -/

/-- The status of the intent is another one, or its capture was booked. -/
def PaymentIntent.MovedIn (intent : PaymentIntent) (db db' : Db) : Prop :=
  db'.statusOf intent.id ≠ db.statusOf intent.id ∨
    db.isCaptured intent.tenantId intent.id = false ∧ db'.isCaptured intent.tenantId intent.id = true

/-- The notification reports another status for an intent that is not terminal, or a success whose charge can still be
settled. -/
def WebhookNotification.Moves (event : WebhookNotification) (rt : Runtime) (db : Db) (intent : PaymentIntent) : Prop :=
  (∃ status ∈ event.written rt db intent, status ≠ intent.status) ∨
    event.Settles rt db intent ∧ db.CanSettleIntent rt intent

theorem not_captured_of_canSettle (h : db.CanSettleIntent rt found) : db.isCaptured found.tenantId found.id = false := by
  obtain ⟨input, hinput, hnot, -⟩ := h
  rwa [Charge.input_intentId hinput] at hnot

/-- The job moves the intent that it finds and no other one. -/
theorem movedIn_iff {r : Except Failure Id} {intent : PaymentIntent} (hunique : (db.paymentIntents.map (·.id)).Nodup)
    (hfresh : FreshRows db w) (hintent : intent ∈ db.paymentIntents) (hfound : db.notified rt event = .ok (some found))
    (hrun : (webhookProcessor rt event).run db w = (r, db', w')) :
    intent.MovedIn db db' ↔ intent = found ∧ event.Moves rt db found := by
  have hmem := mem_of_notified hfound
  obtain ⟨hupdated, hcaptured⟩ := webhookProcessor_run hfresh hmem hfound hrun
  have heq : intent.id = found.id → intent = found := fun hid => List.inj_on_of_nodup_map hunique hintent hmem hid
  unfold PaymentIntent.MovedIn WebhookNotification.Moves
  rw [hupdated intent.id, hcaptured, statusOf_of_mem hunique hintent]
  by_cases hid : intent.id = found.id
  · obtain rfl := heq hid
    rw [if_pos rfl, and_iff_right (a := intent = intent) rfl]
    refine or_congr ?_ ⟨fun h => ?_, fun h => ?_⟩
    · cases event.written rt db intent <;> simp
    · exact (h.2.resolve_left (by simp [h.1])).2.2
    · exact ⟨not_captured_of_canSettle h.2, .inr ⟨rfl, rfl, h⟩⟩
  · rw [if_neg hid]
    refine iff_of_false ?_ fun h => hid (h.1 ▸ rfl)
    rintro (hne | ⟨hnot, hcaptured | ⟨-, hsame, -⟩⟩)
    · exact hne rfl
    · exact absurd (hnot.symm.trans hcaptured) (by decide)
    · exact hid hsame.symm

/-- An accepted notification moves intents of the tenant only, exactly when the intent that the job finds is one of that
tenant, or is not moved by the notification. -/
theorem webhook_bound_iff (rt : Runtime) (event : WebhookNotification) (tenantId : Id) (db : Db) (w₀ w : World)
    (hunique : (db.paymentIntents.map (·.id)).Nodup) (hfresh : FreshRows db w)
    (haccepted : event.AcceptedFor rt tenantId (db, w₀)) :
    (∀ intent ∈ db.paymentIntents, intent.MovedIn db ((webhookProcessor rt event).run db w).2.1 →
      intent.tenantId = tenantId) ↔
      ∀ verified found, db.verified rt event.provider event.payloadJson = .ok (some verified) →
        db.notified rt event = .ok (some found) → found.tenantId = verified.tenantId ∨ ¬ event.Moves rt db found := by
  obtain ⟨intent, hverified, rfl⟩ := verified_of_accepted haccepted
  constructor
  · intro hbound verified found hverified' hfound
    obtain rfl := Option.some.inj (Except.ok.inj (hverified.symm.trans hverified'))
    by_cases hmoves : event.Moves rt db found
    · have hmem := mem_of_notified hfound
      exact .inl (hbound found hmem ((movedIn_iff hunique hfresh hmem hfound rfl).mpr ⟨rfl, hmoves⟩))
    · exact .inr hmoves
  · intro hcondition moved hmem hmoved
    by_cases hnone : ∃ found, db.notified rt event = .ok (some found)
    · obtain ⟨found, hfound⟩ := hnone
      obtain ⟨rfl, hmoves⟩ := (movedIn_iff hunique hfresh hmem hfound rfl).mp hmoved
      exact (hcondition intent moved hverified hfound).resolve_right fun h => h hmoves
    · obtain ⟨hledger, hintents⟩ := webhookProcessor_idle (fun found h => hnone ⟨found, h⟩)
        (rfl : (webhookProcessor rt event).run db w = _)
      rcases hmoved with hstatus | ⟨hnot, hcaptured⟩
      · exact absurd (hintents.statusOf moved.id) hstatus
      · rw [Db.isCaptured, Db.movements, hledger] at hcaptured
        exact absurd (hnot.symm.trans hcaptured) (by decide)

/-! ## Two tenants -/

/-- A runtime whose signatures are the keys. -/
def signingRuntime (payload : Json) : Runtime :=
  { equalsRuntime with
    decryptCredentials := fun credentials => .ok (.obj [("notificationKey", .str credentials)])
    hmacSha256 := fun key _ =>
      match key with
      | some (.str key) => .ok key
      | _ => .error (.error "no key")
    parseJson := fun _ => .ok payload }

def vpsIntent (id tenantId : Id) (correlationId : String) : PaymentIntent :=
  { id, tenantId, paymentLinkId := none, status := .processing, provider := .vps, providerRef := none, correlationId,
    metadata := some (.obj [("amount", .num 1000)]), riskVerdict := some .allow, createdAt := 0 }

/-- A VPS intent of each of two tenants. -/
def twoTenantsDb : Db :=
  { Db.empty { plainConfig with providerConfigs := [⟨1, .vps, "key of 1", .connected⟩, ⟨2, .vps, "key of 2", .connected⟩] } with
    paymentIntents := [vpsIntent 7 1 "c7", vpsIntent 8 2 "c8"] }

/-- A paid charge of tenant 1, signed with its key, for a customer. -/
def chargeOf (customerId : String) : WebhookNotification where
  provider := .vps
  payloadJson := .obj [("chargeId", .str "c7"), ("customerId", .str customerId), ("status", .str "CHARGED")]
  rawBody := []
  headers := [("x-callback-signature", "key of 1")]
  idempotencyKey := customerId

theorem freshRows_counting (config : Config) (intents : List PaymentIntent) :
    FreshRows { Db.empty config with paymentIntents := intents } .counting where
  distinct := fun n m _ hlt => Nat.ne_of_lt hlt
  entries := fun _ _ e he => by cases he
  splits := fun _ _ s hs => by cases hs

theorem webhook_bound_iff_own :
    (chargeOf "c7").AcceptedFor (signingRuntime (chargeOf "c7").payloadJson) 1 (twoTenantsDb, .counting) ∧
      ∀ intent ∈ twoTenantsDb.paymentIntents, intent.MovedIn twoTenantsDb
        ((webhookProcessor (signingRuntime (chargeOf "c7").payloadJson) (chargeOf "c7")).run twoTenantsDb .counting).2.1 →
          intent.tenantId = 1 := by
  refine ⟨rfl, (webhook_bound_iff (signingRuntime (chargeOf "c7").payloadJson) (chargeOf "c7") 1 twoTenantsDb .counting
    .counting (by decide) (freshRows_counting _ _) rfl).mpr fun verified found hverified hfound => .inl ?_⟩
  obtain rfl : vpsIntent 7 1 "c7" = verified := Option.some.inj (Except.ok.inj hverified)
  obtain rfl : vpsIntent 7 1 "c7" = found := Option.some.inj (Except.ok.inj hfound)
  rfl

/-- The customer of tenant 2 under the key of tenant 1. -/
theorem webhook_not_bound :
    ¬ ∀ (rt : Runtime) (event : WebhookNotification) (tenantId : Id) (db : Db) (w₀ w : World),
      event.provider ∈ [.naps, .vps] → (db.paymentIntents.map (·.id)).Nodup → event.AcceptedFor rt tenantId (db, w₀) →
        ∀ intent ∈ db.paymentIntents, intent.MovedIn db ((webhookProcessor rt event).run db w).2.1 →
          intent.tenantId = tenantId := by
  intro h
  have hmoved : (vpsIntent 8 2 "c8").MovedIn twoTenantsDb
      ((webhookProcessor (signingRuntime (chargeOf "c8").payloadJson) (chargeOf "c8")).run twoTenantsDb .counting).2.1 :=
    .inl (by decide +kernel)
  exact absurd (h (signingRuntime (chargeOf "c8").payloadJson) (chargeOf "c8") 1 twoTenantsDb .counting .counting (by decide)
    (by decide) rfl _ (by simp [twoTenantsDb]) hmoved) (by decide)

end CorpoPay.Settlement
