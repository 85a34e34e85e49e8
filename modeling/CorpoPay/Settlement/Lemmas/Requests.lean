import CorpoPay.Settlement.Lemmas.Commits
import CorpoPay.Settlement.Lemmas.Notifications

/-!
# What requests write and ask

Of the intents a request changes the status only, a decision on a risk apart. Only a capture asks the provider to capture.
-/

namespace CorpoPay.Settlement

open Transaction.Tx
open Transaction.Job (Does Does.bind Does.orElse Does.mapError Does.retry Does.mono does_ret does_throw does_ofExcept
  does_transaction does_get does_query)

/-! ## Questions -/

/-- The question is a capture at the provider. -/
def Query.isCapture : Query → Bool
  | .capturePayment _ => true
  | _ => false

section Asks

variable {A : Query → Prop} (hid : A .freshId) (hnow : A .now) {t : Id}

include hid hnow

theorem asks_entry (m : Movement) (postingId : Id) (balanceAfter : Int) :
    (LedgerEntry.create m postingId balanceAfter).Asks A := by
  refine asks_bind ((asks_query _).mpr hid) fun _ => asks_bind ((asks_query _).mpr hnow) fun _ => ?_
  refine asks_bind (asks_get _) fun idTaken => asks_bind (asks_get _) fun partyMissing => ?_
  split_ifs
  · exact asks_throw _
  · exact asks_throw _
  · exact asks_bind (asks_modify _) fun _ => asks_ret _

theorem asks_posting (d c : LedgerLeg) (source : Meta) : (post t d c source).Asks A := by
  refine asks_bind (asks_lift _) fun p => asks_bind ?_ fun _ => asks_ret _
  refine asks_bind (asks_lift _) fun p' => asks_bind ((asks_query _).mpr hid) fun postingId => ?_
  refine asks_bind (asks_acquire _) fun _ => asks_bind (asks_get _) fun _ => asks_bind (asks_get _) fun _ => ?_
  exact asks_bind (asks_entry hid hnow _ _ _) fun _ => asks_bind (asks_entry hid hnow _ _ _) fun _ => asks_ret _

theorem asks_postPositive (amount : Int) (d c : LedgerLeg) (source : Meta) : (postPositive t amount d c source).Asks A :=
  asks_when (asks_posting hid hnow _ _ _)

theorem asks_executeSplit (input : ExecuteSplitInput) (trigger : SplitTrigger) (shares : List ShareSpec) :
    (executeSplitInTx t input trigger shares).Asks A := by
  have hcreate : ∀ row : Id → Split, (Split.create row).Asks A := by
    intro row
    refine asks_bind ((asks_query _).mpr hid) fun _ => asks_bind (asks_get _) fun taken => ?_
    split_ifs
    · exact asks_throw _
    · exact asks_bind (asks_modify _) fun _ => asks_ret _
  refine asks_bind (asks_lift _) fun result => asks_bind (asks_collect (fun _ => ?_) _) fun _ =>
    asks_bind (asks_when (asks_posting hid hnow _ _ _)) fun _ => asks_ret _
  exact asks_bind (asks_posting hid hnow _ _ _) fun _ => hcreate _

theorem asks_bookCapture (input : SettleCaptureInput) (rule : Option SplitRule) (plan : CaptureSettlementPlan) :
    (bookCapture t input rule plan).Asks A := by
  have hpos := @asks_postPositive A hid hnow t
  refine asks_bind (asks_posting hid hnow _ _ _) fun _ => ?_
  cases rule with
  | none =>
      exact asks_bind (hpos _ _ _ _) fun _ => asks_bind (hpos _ _ _ _) fun _ => asks_bind (hpos _ _ _ _) fun _ =>
        asks_bind (asks_when (hpos _ _ _ _)) fun _ => asks_ret _
  | some rule =>
      exact asks_bind (asks_executeSplit hid hnow _ _ _) fun _ => asks_bind (hpos _ _ _ _) fun _ =>
        asks_bind (hpos _ _ _ _) fun _ => asks_bind (hpos _ _ _ _) fun _ =>
        asks_bind (asks_when (hpos _ _ _ _)) fun _ => asks_ret _

theorem asks_settleCapture (input : SettleCaptureInput) : (settleCaptureInTx t input).Asks A := by
  refine asks_bind (asks_get _) fun _ => asks_bind (asks_get _) fun _ => asks_bind (asks_get _) fun _ => ?_
  dsimp only
  split_ifs
  · exact asks_bind (asks_get _) fun _ => asks_bind (asks_lift _) fun _ => asks_bind (asks_lift _) fun _ =>
      asks_bookCapture hid hnow _ _ _
  · exact asks_bind (asks_ret _) fun _ => asks_bind (asks_lift _) fun _ => asks_bind (asks_lift _) fun _ =>
      asks_bookCapture hid hnow _ _ _

omit hnow in
theorem asks_webhookCreate (key : String) (row : Id → WebhookEvent) : (WebhookEvent.create key row).Asks A := by
  refine asks_bind ((asks_query _).mpr hid) fun _ => asks_bind (asks_acquire _) fun _ => asks_bind (asks_get _) fun taken => ?_
  cases taken
  · exact asks_bind (asks_modify _) fun _ => asks_ret _
  · exact asks_throw _

omit hnow in
theorem asks_transactionCreate (row : Id → ProviderTransaction) : (ProviderTransaction.create row).Asks A := by
  refine asks_bind ((asks_query _).mpr hid) fun _ => asks_bind (asks_get _) fun taken => ?_
  cases taken
  · exact asks_bind (asks_modify _) fun _ => asks_ret _
  · exact asks_throw _

omit hnow in
theorem asks_refundCreate (row : Id → Refund) : (Refund.create row).Asks A := by
  refine asks_bind ((asks_query _).mpr hid) fun _ => asks_bind (asks_acquire _) fun _ => asks_bind (asks_get _) fun taken => ?_
  cases taken
  · exact asks_bind (asks_modify _) fun _ => asks_ret _
  · exact asks_throw _

omit hid hnow

theorem asks_transactionUpdate (id : Id) (f : ProviderTransaction → ProviderTransaction) :
    (ProviderTransaction.update id f).Asks A := by
  refine asks_bind (asks_acquire _) fun _ => asks_bind (asks_get _) fun row => ?_
  cases row with
  | none => exact asks_throw _
  | some row => exact asks_modify _

theorem asks_refundUpdate (id : Id) (f : Refund → Refund) : (Refund.update id f).Asks A := by
  refine asks_bind (asks_acquire _) fun _ => asks_bind (asks_get _) fun row => ?_
  cases row with
  | none => exact asks_throw _
  | some row => exact asks_bind (asks_modify _) fun _ => asks_ret _

theorem asks_intentUpdate (id : Id) (f : PaymentIntent → PaymentIntent) : (PaymentIntent.update id f).Asks A := by
  refine asks_bind (asks_acquire _) fun _ => asks_bind (asks_get _) fun row => ?_
  cases row with
  | none => exact asks_throw _
  | some row => exact asks_bind (asks_modify _) fun _ => asks_ret _

theorem asks_linkStatus (id : Id) (status : PaymentLinkStatus) : (PaymentLink.setStatus id status).Asks A := by
  refine asks_bind (asks_acquire _) fun _ => asks_bind (asks_get _) fun row => ?_
  cases row with
  | none => exact asks_throw _
  | some row => exact asks_modify _

end Asks

/-! ## Jobs -/

/-- Movements with `P` are appended, and of the intents only the status changes. -/
def Touches (P : Movement → Prop) (v : Db → Db) : Prop :=
  ∃ ms f, Commits ms f v ∧ (∀ m ∈ ms, P m) ∧ ∀ r, f r = { r with status := (f r).status }

/-- Movements with `P` are appended, and the intents stay. -/
def Posts (P : Movement → Prop) (v : Db → Db) : Prop := ∃ ms, Commits ms id v ∧ ∀ m ∈ ms, P m

/-- The commits of the job touch nothing else, and it does not ask for a capture. -/
abbrev OnlyTouches {α : Type} (P : Movement → Prop) (j : Job α) : Prop := j.Does (Touches P) (Query.isCapture · = false)

/-- A row of the capture of the intent, or another row of its settlement. -/
def Movement.Settles (t intentId : Id) (m : Movement) : Prop :=
  m.sourceType = some .paymentIntent ∧ ∀ t' i, m.isCaptureOf t' i = true → t = t' ∧ intentId = i

section Jobs

variable {α : Type} {P : Movement → Prop} {rt : Runtime} {t i : Id}

theorem posts_of_rest {v : Db → Db} (h : Commits [] id v) : Posts P v :=
  ⟨[], h, fun _ hm => absurd hm List.not_mem_nil⟩

theorem Posts.touches {v : Db → Db} (h : Posts P v) : Touches P v := by
  obtain ⟨ms, hv, hms⟩ := h
  exact ⟨ms, id, hv, hms, fun _ => rfl⟩

theorem touches_of_rest {v : Db → Db} (h : Commits [] id v) : Touches P v := (posts_of_rest h).touches

theorem Touches.mono {P' : Movement → Prop} {v : Db → Db} (h : Touches P v) (hP : ∀ m, P m → P' m) : Touches P' v := by
  obtain ⟨ms, f, hv, hms, hf⟩ := h
  exact ⟨ms, f, hv, fun m hm => hP m (hms m hm), hf⟩

theorem OnlyTouches.mono {P' : Movement → Prop} {j : Job α} (h : OnlyTouches P j) (hP : ∀ m, P m → P' m) :
    OnlyTouches P' j := Does.mono h (fun _ hv => hv.mono hP) fun _ hq => hq

theorem only_select (f : Db → α) : OnlyTouches P (selectOnce f) := does_get (touches_of_rest commits_nothing) _

/-- A transaction on another table. -/
theorem posts_rest {body : Tx α} (hwrites : body.Writes (fun v _ => Commits [] id v) fun db : Db => db)
    (hasks : body.Asks (Query.isCapture · = false)) : (transaction body).Does (Posts P) (Query.isCapture · = false) :=
  does_transaction (hwrites.mono fun _ _ hv => posts_of_rest hv) hasks

theorem only_posts {j : Job α} (h : j.Does (Posts P) (Query.isCapture · = false)) : OnlyTouches P j :=
  Does.mono h (fun _ hv => hv.touches) fun _ hq => hq

theorem touches_setStatus {i : Id} {status : PaymentIntentStatus} {v : Db → Db}
    (h : Commits [] (fun r => if r.id = i then { r with status } else r) v) : Touches P v := by
  refine ⟨[], _, h, fun _ hm => absurd hm List.not_mem_nil, fun r => ?_⟩
  split_ifs <;> rfl

theorem only_setStatus (i : Id) (status : PaymentIntentStatus) :
    OnlyTouches P (transaction (PaymentIntent.setStatus i status)) :=
  does_transaction ((commits_intentUpdate commits_nothing).mono fun _ _ hv => touches_setStatus hv) (asks_intentUpdate _ _)

theorem observes_posts : Observes (Posts P) (Query.isCapture · = false) where
  select f := does_get (posts_of_rest commits_nothing) f
  linkStatus _ _ := posts_rest (commits_setLinkStatus commits_nothing) (asks_linkStatus _ _)
  transactionUpdate _ _ := posts_rest (commits_transactionUpdate commits_nothing) (asks_transactionUpdate _ _)
  transactionCreate _ := posts_rest (commits_transactionCreate commits_nothing) (asks_transactionCreate (by decide) _)

theorem posts_webhookCreate (key : String) (row : Id → WebhookEvent) :
    (transaction (WebhookEvent.create key row)).Does (Posts P) (Query.isCapture · = false) :=
  posts_rest (commits_webhookCreate commits_nothing) (asks_webhookCreate (by decide) _ _)

theorem posts_storeNotification (event : WebhookNotification) (intent : Option IntentWithLink) (signatureVerified : Bool)
    (result : WebhookResult) :
    (storeNotification event intent signatureVerified result).Does (Posts P) (Query.isCapture · = false) :=
  (does_ofExcept _).bind fun _ => posts_webhookCreate _ _

/-! ## Settlements -/

theorem posts_capture {input : SettleCaptureInput} {cp : CapturePlan} {v : Db → Db}
    (h : Commits (captureMovements t input cp) id v) : Posts (Movement.Settles t input.intentId) v := by
  refine ⟨_, h, fun m hm => ⟨(mem_capture (t := t) (i := t) hm).1, fun t' i hc => ?_⟩⟩
  obtain ⟨ht, hi, -⟩ := (mem_capture hm).2 hc
  exact ⟨ht, hi⟩

theorem posts_settleCapture (input : SettleCaptureInput) :
    (settleCapture t input).Does (Posts (Movement.Settles t input.intentId)) (Query.isCapture · = false) := by
  unfold settleCapture
  split_ifs
  · exact does_ret _
  · refine does_transaction ?_ (asks_bind (asks_get _) fun settled => ?_)
    · simp only [bind_eq, pure_eq, writes_bind, writes_get]
      refine fun _ => writes_ite _ (fun _ => posts_of_rest commits_nothing) fun _ =>
        commits_settleCapture.mono ?_
      rintro _ _ ⟨_, h⟩
      exact posts_capture h
    · cases settled
      · exact asks_settleCapture (by decide) (by decide) _
      · exact asks_ret _

theorem posts_refuseSettlement : (refuseSettlement t i).Does (Posts P) (Query.isCapture · = false) := by
  refine posts_rest ?_ (asks_bind (asks_get _) fun settled => ?_)
  · simp only [bind_eq, pure_eq, writes_bind, writes_get]
    exact fun _ => writes_ite _ (fun _ => commits_nothing) fun _ => trivial
  · cases settled
    · exact asks_throw _
    · exact asks_ret _

theorem posts_settleCharge (charge : Charge) :
    (settleCharge t i charge).Does (Posts (Movement.Settles t i)) (Query.isCapture · = false) := by
  unfold settleCharge
  split
  · exact posts_settleCapture ⟨i, _, some _, none⟩
  · split_ifs
    · exact does_ret _
    · exact posts_refuseSettlement
  · exact posts_refuseSettlement

theorem only_settleCharge (charge : Charge) : OnlyTouches (Movement.Settles t i) (settleCharge t i charge) :=
  only_posts (posts_settleCharge charge)

theorem only_discard {j : Job α} (h : OnlyTouches P j) : OnlyTouches P (discard j) := h.bind fun _ => does_ret _

/-! ## Notifications -/

theorem observes_touches : Observes (Touches P) (Query.isCapture · = false) where
  select := only_select
  linkStatus id status := only_posts (observes_posts.linkStatus id status)
  transactionUpdate id f := only_posts (observes_posts.transactionUpdate id f)
  transactionCreate row := only_posts (observes_posts.transactionCreate row)

theorem only_finishStripeEvent (event : StripeEvent) (intent : PaymentIntent) (newStatus : PaymentIntentStatus)
    (providerTransactionId : Option Json) (updated : Option PaymentIntentStatus) :
    OnlyTouches (fun m => updated = some .succeeded ∧ m.Settles intent.tenantId intent.id)
      (finishStripeEvent rt event intent newStatus providerTransactionId updated) :=
  observes_touches.finishStripeEvent
    (fun hupdated charge => (only_settleCharge charge).mono fun _ hm => ⟨hupdated, hm⟩)
    fun _ => only_posts (posts_webhookCreate _ _)

/-! ## Polls and voids -/

/-- What a status query does with an intent that is not terminal. -/
def queryIntent (rt : Runtime) (tenantId : Id) (intent : PaymentIntent) : Job PaymentIntentStatus :=
  match intent.providerRef with
  | none | some "" => pure intent.status
  | some providerRef => do
      match ← selectOnce (·.providerConfig tenantId intent.provider) with
      | none => Transaction.Job.throw (Failure.appError 400 "PROVIDER_NOT_CONFIGURED" "Provider config missing")
      | some config => do
          let _ ← @Transaction.Job.ofExcept Backend _ (getAdapter rt intent.provider config.encryptedCredentials)
          match ← @Transaction.Job.query Backend (.queryTransactionStatus intent.provider providerRef) with
          | .error _ => pure intent.status
          | .ok status =>
              if status ≠ intent.status then do
                let _ ← transaction (PaymentIntent.setStatus intent.id status)
                pure status
              else pure status

theorem intentStatus_eq (rt : Runtime) (tenantId id : Id) : intentStatus rt tenantId id =
    (selectOnce (·.scopedIntent id (some tenantId)) : Job _).bind fun found =>
      match found with
      | none => Transaction.Job.throw intentNotFound
      | some intent =>
          if intent.status ∈ PaymentIntentStatus.TERMINAL then .ret intent.status else queryIntent rt tenantId intent := rfl

theorem Observes.queryIntent {W : (Db → Db) → Prop} {A : Query → Prop} (h : Observes W A) {tenantId : Id}
    {intent : PaymentIntent} (hset : ∀ status, (transaction (PaymentIntent.setStatus intent.id status)).Does W A)
    (hask : ∀ providerRef, A (.queryTransactionStatus intent.provider providerRef)) :
    (queryIntent rt tenantId intent).Does W A := by
  unfold Settlement.queryIntent
  split
  · exact does_ret _
  · exact does_ret _
  · refine (h.select _).bind fun config => ?_
    cases config with
    | none => exact does_throw _
    | some config =>
        refine (does_ofExcept _).bind fun _ => Does.bind (does_query (hask _)) fun answer => ?_
        cases answer with
        | error message => exact does_ret _
        | ok status =>
            dsimp only
            split_ifs
            · exact (hset _).bind fun _ => does_ret _
            · exact does_ret _

theorem only_intentStatus (tenantId id : Id) : OnlyTouches P (intentStatus rt tenantId id) := by
  rw [intentStatus_eq]
  refine (only_select _).bind fun found => ?_
  cases found with
  | none => exact does_throw _
  | some intent =>
      dsimp only
      split_ifs
      · exact does_ret _
      · exact observes_touches.queryIntent (only_setStatus _) fun _ => rfl

/-- Of the intents at most the status of this one changes. -/
def SetsStatus (i : Id) (v : Db → Db) : Prop :=
  Commits [] id v ∨ ∃ status, Commits [] (fun r => if r.id = i then { r with status } else r) v

theorem SetsStatus.touches {v : Db → Db} (h : SetsStatus i v) : Touches P v := by
  obtain h | ⟨status, h⟩ := h
  · exact touches_of_rest h
  · exact touches_setStatus h

theorem does_pollOpen (event : PollStatus) (started : Nat) (intent : PaymentIntent) :
    (pollOpen rt event started intent).Does (SetsStatus intent.id) (Query.isCapture · = false) := by
  have hset : ∀ status,
      (transaction (PaymentIntent.setStatus intent.id status)).Does (SetsStatus intent.id) (Query.isCapture · = false) :=
    fun status => does_transaction ((commits_intentUpdate commits_nothing).mono fun _ _ hv => .inr ⟨status, hv⟩)
      (asks_intentUpdate _ _)
  have hquery : (queryProvider rt event intent).Does (SetsStatus intent.id) (Query.isCapture · = false) := by
    refine (does_get (.inl commits_nothing) _).bind fun config => ?_
    cases config with
    | none => exact does_ret _
    | some config =>
        dsimp only
        split
        · exact does_ret _
        · refine Does.bind (does_query rfl) fun answer => ?_
          cases answer with
          | error message => exact does_throw _
          | ok status => exact does_ret _
  have hupdate : ∀ newStatus, (updatePolled intent newStatus).Does (SetsStatus intent.id) (Query.isCapture · = false) := by
    intro newStatus
    unfold updatePolled
    split_ifs
    · exact ((hset _).retry _).bind fun _ => does_ret _
    · exact does_ret _
  unfold pollOpen
  split
  · exact does_ret _
  · refine Does.bind (does_query rfl) fun now => ?_
    dsimp only
    split_ifs
    · exact ((hset _).retry _).bind fun _ => does_ret _
    · exact does_ret _
    · refine (hquery.retry _).bind fun answer => ?_
      cases answer with
      | none => exact does_ret _
      | some newStatus => exact hupdate _

theorem only_pollRound (event : PollStatus) (started : Nat) : OnlyTouches P (pollRound rt event started) := by
  refine ((only_select _).retry _).bind fun found => ?_
  cases found with
  | none => exact does_ret _
  | some intent =>
      dsimp only
      split_ifs
      · exact does_ret _
      · exact (does_pollOpen event started intent).mono (fun _ hv => hv.touches) fun _ hq => hq

theorem only_paymentPoller (event : PollStatus) (rounds : Nat) : OnlyTouches P (paymentPoller rt event rounds) := by
  refine Does.bind (does_query rfl) fun started => ?_
  induction rounds with
  | zero => exact does_ret _
  | succ rounds ih =>
      refine (only_pollRound event started).bind fun goesOn => ?_
      dsimp only
      split_ifs
      · exact ih
      · exact does_ret _

theorem does_lockAuthorized {W : (Db → Db) → Prop} {A : Query → Prop} {intentId : Id} {tenantId : Option Id}
    (hW : ∀ v, Commits [] (fun r => if r.inScope intentId tenantId && r.status = .authorized then
      { r with status := .processing } else r) v → W v) : (transaction (lockAuthorized intentId tenantId)).Does W A := by
  refine does_transaction ?_ (asks_bind (asks_acquire _) fun _ => asks_bind (asks_get _) fun _ =>
    asks_bind (asks_modify _) fun _ => asks_ret _)
  simp only [lockAuthorized, bind_eq, pure_eq, writes_bind, writes_acquire, writes_get, writes_modify, writes_ret]
  exact fun _ => hW _ ⟨fun _ => (List.append_nil _).symm, fun _ => rfl, fun _ _ => rfl, fun _ => .of_eq rfl⟩

theorem does_revertLock {W : (Db → Db) → Prop} {A : Query → Prop} {intentId : Id}
    (hW : ∀ v, Commits [] (fun r => if r.id = intentId then { r with status := .authorized } else r) v → W v) :
    (revertLock intentId).Does W A := by
  refine does_transaction ?_ (asks_bind (asks_acquire _) fun _ => asks_modify _)
  simp only [bind_eq, writes_bind, writes_acquire, writes_modify]
  exact hW _ ⟨fun _ => (List.append_nil _).symm, fun _ => rfl, fun _ _ => rfl, fun _ => .of_eq rfl⟩

theorem only_lockAuthorized (intentId : Id) (tenantId : Option Id) :
    OnlyTouches P (transaction (lockAuthorized intentId tenantId)) :=
  does_lockAuthorized fun _ hv => ⟨[], _, hv, fun _ hm => absurd hm List.not_mem_nil, fun r => by split_ifs <;> rfl⟩

theorem only_revertLock (intentId : Id) : OnlyTouches P (revertLock intentId) :=
  does_revertLock fun _ hv => touches_setStatus hv

theorem commits_recordAction (intentId : Id) (status : PaymentIntentStatus) : (recordAction intentId status).Writes
    (fun v _ => Commits [] (fun r => if r.id = intentId then { r with status } else r) v) fun db : Db => db := by
  simp only [recordAction, bind_eq, pure_eq, writes_bind]
  exact (commits_intentUpdate commits_nothing).mono fun _ _ h => (commits_transactionCreate h).mono fun _ _ h => h

theorem asks_recordAction (intentId : Id) (status : PaymentIntentStatus) :
    (recordAction intentId status).Asks (Query.isCapture · = false) :=
  asks_bind (asks_intentUpdate _ _) fun _ => asks_bind (asks_transactionCreate (by decide) _) fun _ => asks_ret _

theorem only_recordAction (intentId : Id) (status : PaymentIntentStatus) :
    OnlyTouches P (transaction (recordAction intentId status)) :=
  does_transaction ((commits_recordAction intentId status).mono fun _ _ h => touches_setStatus h) (asks_recordAction _ _)

/-- The statements that hold an intent. -/
structure Holds (W : (Db → Db) → Prop) (A : Query → Prop) (intentId : Id) : Prop where
  select : ∀ {α : Type} (f : Db → α), (selectOnce f : Job α).Does W A
  lockAuthorized : ∀ tenantId, (transaction (lockAuthorized intentId tenantId)).Does W A
  revertLock : (revertLock intentId).Does W A

/-- The statements of an action on an intent. -/
structure Acts (W : (Db → Db) → Prop) (A : Query → Prop) (intentId : Id) : Prop extends Holds W A intentId where
  recordAction : ∀ status, (transaction (recordAction intentId status)).Does W A

section Actions

variable {W : (Db → Db) → Prop} {A : Query → Prop} {intentId : Id}

theorem Holds.refuseAction (h : Holds W A intentId) (verb : String) (tenantId : Option Id) :
    (refuseAction verb intentId tenantId : Job α).Does W A := by
  refine (h.select _).bind fun existing => ?_
  cases existing with
  | none => exact does_throw _
  | some existing => exact does_throw _

theorem Holds.heldIntent (h : Holds W A intentId) (verb : String) (tenantId : Option Id) :
    (heldIntent rt verb intentId tenantId).Does W A := by
  have hload : (loadIntent intentId tenantId).Does W A := by
    refine (h.select _).bind fun found => ?_
    cases found with
    | none => exact does_throw _
    | some intent => exact does_ret _
  refine hload.bind fun intent => ?_
  split
  · exact h.revertLock.bind fun _ => does_throw _
  · exact h.revertLock.bind fun _ => does_throw _
  · refine (h.select _).bind fun config => ?_
    cases config with
    | none => exact does_throw _
    | some config => exact (does_ofExcept _).bind fun _ => does_ret _

theorem Acts.finishCapture (h : Acts W A intentId) (hsettle : ∀ t charge, (settleCharge t intentId charge).Does W A)
    (intent : IntentWithLink) (result : CommandResult) : (finishCapture rt intentId intent result).Does W A := by
  unfold Settlement.finishCapture
  split_ifs
  · exact h.revertLock.bind fun _ => does_throw _
  · refine (h.recordAction _).bind fun _ => ?_
    dsimp only
    split_ifs
    · exact (hsettle _ _).bind fun _ => does_ret _
    · exact does_ret _

theorem Acts.captureIntent (h : Acts W A intentId) (hsettle : ∀ t charge, (settleCharge t intentId charge).Does W A)
    (hcapture : ∀ command, A (.capturePayment command)) (tenantId : Option Id) :
    (captureIntent rt intentId tenantId).Does W A := by
  refine (h.lockAuthorized _).bind fun count => ?_
  split_ifs
  · exact h.refuseAction _ _
  · refine (h.heldIntent _ _).bind fun held => ?_
    dsimp only
    split_ifs
    · exact h.revertLock.bind fun _ => does_throw _
    · refine Does.bind (does_query (hcapture _)) fun answer => ?_
      cases answer with
      | error message => exact does_throw _
      | ok result => exact h.finishCapture hsettle _ _

theorem Acts.finishVoid (h : Acts W A intentId) (result : CommandResult) : (finishVoid intentId result).Does W A := by
  unfold Settlement.finishVoid
  split_ifs
  · exact h.revertLock.bind fun _ => does_throw _
  · exact (h.recordAction _).bind fun _ => does_ret _

theorem Acts.voidIntent (h : Acts W A intentId) (hcancel : ∀ command, A (.cancelPayment command)) (tenantId : Option Id) :
    (voidIntent rt intentId tenantId).Does W A := by
  refine (h.lockAuthorized _).bind fun count => ?_
  dsimp only
  split_ifs
  · exact h.refuseAction _ _
  · refine (h.heldIntent _ _).bind fun held => Does.bind (does_query (hcancel _)) fun answer => ?_
    cases answer with
    | error message => exact does_throw _
    | ok result => exact h.finishVoid result

end Actions

theorem acts_touches (intentId : Id) : Acts (Touches P) (Query.isCapture · = false) intentId where
  select := only_select
  lockAuthorized := only_lockAuthorized _
  revertLock := only_revertLock _
  recordAction := only_recordAction _

theorem only_refuseAction (verb : String) (intentId : Id) (tenantId : Option Id) :
    OnlyTouches P (refuseAction verb intentId tenantId : Job α) := (acts_touches intentId).refuseAction verb tenantId

theorem only_voidIntent (intentId : Id) (tenantId : Option Id) : OnlyTouches P (voidIntent rt intentId tenantId) :=
  (acts_touches intentId).voidIntent (fun _ => rfl) tenantId

/-! ## Refunds -/

theorem does_settleRefund {A : Query → Prop} (hid : A .freshId) (hnow : A .now) (input : SettleRefundInput) :
    (settleRefund t input).Does (Posts fun m => m.sourceType = some .refund) A := by
  refine does_transaction ?_ (asks_bind (asks_acquire _) fun _ => asks_bind (asks_get _) fun existing => ?_)
  · simp only [bind_eq, pure_eq, writes_bind, writes_acquire, writes_get]
    refine fun _ => writes_ite _ (fun _ => posts_of_rest commits_nothing) fun _ => ?_
    simp only [writes_bind, writes_get]
    intro db
    split
    · exact posts_of_rest commits_nothing
    · rename_i first rest _
      simp only [accountBalanceCents, writes_bind, writes_get]
      refine fun _ => writes_ite _ (fun _ => trivial) fun _ => ?_
      simp only [writes_bind, writes_ret]
      exact (commits_reversals _ commits_nothing).mono fun v _ h =>
        ⟨_, h, fun m hm => (mem_reversals hm).2.1⟩
  · cases existing
    · refine asks_bind (asks_get _) fun credits => ?_
      split
      · exact asks_ret _
      · refine asks_bind (asks_get _) fun _ => ?_
        dsimp only
        split_ifs
        · exact asks_throw _
        · exact asks_bind (asks_forEach (fun _ => asks_when (asks_posting hid hnow _ _ _)) _) fun _ => asks_ret _
    · exact asks_ret _

theorem does_openRefund {A : Query → Prop} (hid : A .freshId) (intentId : Id) (amount : Int)
    (currency : String) : (openRefund t intentId amount currency).Does (Posts P) A :=
  Does.mapError (does_transaction ((commits_refundCreate commits_nothing).mono fun _ _ h => posts_of_rest h)
    (asks_refundCreate hid _)) _

theorem only_openRefund (intentId : Id) (amount : Int) (currency : String) :
    OnlyTouches P (openRefund t intentId amount currency) :=
  only_posts (does_openRefund (by decide) _ _ _)

theorem commits_closeRefund {refundId intentId : Id} {result : RefundResult} :
    (closeRefund refundId intentId result).Writes (fun v _ => Commits []
      (fun r => if r.id = intentId then { r with status := if result.success then .refunded else .succeeded } else r) v)
      fun db : Db => db := by
  simp only [closeRefund, bind_eq, pure_eq, writes_bind]
  refine (commits_refundUpdate ?_ (commits_nothing : Commits [] id _)).mono fun _ _ h =>
    (commits_intentUpdate h).mono fun _ _ h => h
  exact fun _ => ⟨rfl, rfl, rfl⟩

theorem does_settleAccepted {A : Query → Prop} (hid : A .freshId) (hnow : A .now) (intentId refundId : Id)
    (result : RefundResult) :
    (settleAccepted t intentId refundId result).Does (Posts fun m => m.sourceType = some .refund) A := by
  unfold settleAccepted
  split_ifs
  · exact does_settleRefund hid hnow _
  · exact does_ret _

theorem asks_closeRefund {A : Query → Prop} (refundId intentId : Id) (result : RefundResult) :
    (closeRefund refundId intentId result).Asks A :=
  asks_bind (asks_refundUpdate _ _) fun _ => asks_bind (asks_intentUpdate _ _) fun _ => asks_ret _

theorem does_finishRefund {A : Query → Prop} (hid : A .freshId) (hnow : A .now) (intentId refundId : Id)
    (result : RefundResult) :
    (finishRefund t intentId refundId result).Does (Touches fun m => m.sourceType = some .refund) A := by
  refine ((does_settleAccepted hid hnow _ _ _).mono (fun _ hv => hv.touches) fun _ hq => hq).bind fun _ => does_transaction
    (commits_closeRefund.mono fun _ _ h => touches_setStatus h) (asks_closeRefund _ _ _)

theorem only_finishRefund (intentId refundId : Id) (result : RefundResult) :
    OnlyTouches (fun m => m.sourceType = some .refund) (finishRefund t intentId refundId result) :=
  does_finishRefund (by decide) (by decide) _ _ _

theorem only_refundRoute (id : Id) : OnlyTouches (fun m => m.sourceType = some .refund) (refundRoute rt t id) := by
  refine (only_select _).bind fun found => ?_
  dsimp only
  split
  · exact does_throw _
  · refine (does_ofExcept _).bind fun _ => (only_select _).bind fun config => ?_
    dsimp only
    split
    · exact does_throw _
    · refine (does_ofExcept _).bind fun _ => (does_ofExcept _).bind fun _ => (does_ofExcept _).bind fun _ =>
        (only_openRefund _ _ _).bind fun _ => Does.bind (does_query rfl) fun answer => ?_
      cases answer with
      | error message => exact does_throw _
      | ok result => exact only_finishRefund _ _ _

end Jobs

end CorpoPay.Settlement
