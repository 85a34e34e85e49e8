import CorpoPay.Settlement.Lemmas.Course
import CorpoPay.Settlement.Lemmas.Abiding
import CorpoPay.Settlement.Theorems.WebhookBinding
import CorpoPay.Transaction.Debt

/-!
# Captures and statuses

A notification of success settles the intent as it found it, whatever its status was. A capture that is booked leaves the
intent SUCCEEDED or REFUNDED in every run where no notification of success finds it FAILED or CANCELED and no late write
takes it out of SUCCEEDED and REFUNDED.
-/

namespace CorpoPay.Settlement

open Transaction.Tx
open Transaction (Course Pool Shared)
open Transaction.Job (Returns amid_bind amid_ofExcept_bind amid_ret amid_select amid_throw bind_assoc returns_error
  returns_ok)

/-! ## The condition -/

/-- The status of the notification stands for SUCCEEDED. -/
def WebhookNotification.ReportsSuccess (event : WebhookNotification) (rt : Runtime) : Prop :=
  ∃ providerStatus config internalStatus,
    event.payloadJson.coalesce ["Status", "status", "transactionStatus"] = .ok (some providerStatus) ∧
      mapNotifiedStatus rt event.provider providerStatus config = .ok internalStatus ∧
      internalStatus.isStr PaymentIntentStatus.succeeded.code = true

/-- A notification of success that has found the intent terminal goes on while it is SUCCEEDED or REFUNDED. -/
def Request.FindsOpen (rt : Runtime) (id : Id) (db : Db) : Request → Job Unit → Prop
  | .notification event, j => ∀ found, j = discard (processFound rt event (some found)) → found.id = id →
      found.status ∈ PaymentIntentStatus.TERMINAL → event.ReportsSuccess rt → db.WasPaid id
  | _, _ => True

theorem Request.FindsOpen.later {rt : Runtime} {id : Id} {db db' : Db} {request : Request} {j : Job Unit}
    (h : request.FindsOpen rt id db j) (hkept : db.WasPaid id → db'.WasPaid id) : request.FindsOpen rt id db' j := by
  cases request with
  | notification event => exact fun found hj hid hs hsuccess => hkept (h found hj hid hs hsuccess)
  | _ => trivial

/-- When a step makes the intent SUCCEEDED or REFUNDED, every other request that has begun looks at it again before it
writes a status; and no step brings a notification of success to an intent that it has found FAILED or CANCELED. -/
def PaidInOrder {ι : Type} (rt : Runtime) (requests : ι → Request) (rows : List (Id × Provider)) (id : Id)
    (p : Pool Backend ι Unit) (i : ι) (p' : Pool Backend ι Unit) : Prop :=
  Pool.LooksAgain (PaidOn rows id) p i p' ∧
    ∀ j, (p'.threads i).phase = .between j → (requests i).FindsOpen rt id p.shared.store j

/-! ## The course of a run -/

/-- The intent is not taken out of SUCCEEDED and REFUNDED. -/
def StaysPaid (id : Id) (σ σ' : Shared Backend) : Prop := σ.store.WasPaid id → σ'.store.WasPaid id

def paidCourse (ids : List Id) (t id : Id) : Course Backend where
  later := StaysPaid id
  inv σ := σ.store.paymentIntents.map (·.id) = ids ∧ (σ.store.isCaptured t id = true → σ.store.WasPaid id)
  later_refl _ h := h
  later_trans h h' hp := h' (h hp)

section Course

variable {α : Type} {ids : List Id} {t id : Id} {fine : Shared Backend → Job α → Prop} {σ : Shared Backend} {P : Movement → Prop} {v : Db → Db} {rt : Runtime}

/-- No commit owes anything. -/
abbrev NoDebt (α : Type) (_ _ : Shared Backend) (_ : Job α) : Prop := True

theorem Touches.intentIds (h : Touches P v) (db : Db) :
    (v db).paymentIntents.map (·.id) = db.paymentIntents.map (·.id) := by
  obtain ⟨ms, f, hv, -, hf⟩ := h
  rw [hv.paymentIntents, List.map_map]
  refine List.map_congr_left fun r _ => ?_
  rw [Function.comp_apply, hf r]

theorem Touches.isCaptured (h : Touches P v) (db : Db) (hcapture : (v db).isCaptured t id = true) :
    db.isCaptured t id = true ∨ ∃ m, P m ∧ m.isCaptureOf t id = true := by
  obtain ⟨ms, f, hv, hms, -⟩ := h
  rw [Db.isCaptured, hv.movements, List.any_append, Bool.or_eq_true] at hcapture
  rcases hcapture with hold | hnew
  · exact .inl hold
  · obtain ⟨m, hm, hc⟩ := List.any_eq_true.mp hnew
    exact .inr ⟨m, hms m hm, hc⟩

/-- A commit that books the capture only when the intent was paid. -/
theorem paid_touches (h : Touches P v) (hinv : (paidCourse ids t id).inv σ)
    (hl : StaysPaid id σ (σ.committed v)) (hP : ∀ m, P m → m.isCaptureOf t id = true → σ.store.WasPaid id) :
    (paidCourse ids t id).Reach σ (σ.committed v) := by
  refine ⟨hl, (h.intentIds σ.store).trans hinv.1, fun hcapture => hl ?_⟩
  rcases h.isCaptured σ.store hcapture with hold | ⟨m, hm, hc⟩
  · exact hinv.2 hold
  · exact hP m hm hc

theorem paid_only {K : Shared Backend → Prop} {Q : Except Failure α → Shared Backend → Prop} {j : Job α}
    (h : OnlyTouches P j) (hK : ∀ σ σ', (paidCourse ids t id).Reach σ σ' → K σ → K σ') (hσ : K σ)
    (hP : ∀ m τ, P m → K τ → m.isCaptureOf t id = true → Db.WasPaid τ.store id)
    (hQ : ∀ r σ', (paidCourse ids t id).Reach σ σ' → K σ' → Q r σ') :
    j.Amid (paidCourse ids t id) (StaysPaid id) (NoDebt α) fine Q σ :=
  h.amid hK hσ (fun _ _ hv hk hinv hm => paid_touches hv hinv hm fun m hm hc => hP m _ hm hk hc)
    (fun _ _ _ _ _ _ _ _ => trivial) (fun _ _ _ _ hinv hm => ⟨hm, hinv⟩) hQ

/-- A job that books nothing leaves what is known. -/
theorem paid_quiet {K : Shared Backend → Prop} {j : Job α} (h : OnlyTouches (fun m => m.sourceType = some .refund) j)
    (hK : ∀ σ σ', (paidCourse ids t id).Reach σ σ' → K σ → K σ') (hσ : K σ) :
    j.Amid (paidCourse ids t id) (StaysPaid id) (NoDebt α) fine (fun _ σ' => K σ') σ := by
  refine paid_only h hK hσ (fun m _ hm _ hc => ?_) fun _ _ _ hk => hk
  have hsource := (of_decide_eq_true hc).2.1
  rw [hm] at hsource
  cases hsource

theorem paid_bind {β : Type} {j : Job β} {f : β → Job α} (hσ : (paidCourse ids t id).inv σ)
    (h : j.Amid (paidCourse ids t id) (StaysPaid id) (NoDebt β) (fun _ _ => True) (fun _ _ => True) σ)
    (hf : ∀ b σ', (paidCourse ids t id).Reach σ σ' →
      (f b).Amid (paidCourse ids t id) (StaysPaid id) (NoDebt α) (fun _ _ => True) (fun _ _ => True) σ') :
    (j.bind f).Amid (paidCourse ids t id) (StaysPaid id) (NoDebt α) (fun _ _ => True) (fun _ _ => True) σ :=
  Transaction.Job.Amid.bind hσ (fun _ _ => trivial) h (fun b σ' hr _ _ => hf b σ' hr) fun _ _ _ _ => trivial

/-- A settlement of an intent that was paid. -/
theorem paid_settle {fine : Shared Backend → Job Bool → Prop} {t' i : Id} {charge : Charge} (n : Nat) (hσ : i = id → σ.store.WasPaid id) :
    (stepRun n (settleCharge t' i charge)).Amid (paidCourse ids t id) (StaysPaid id) (NoDebt Bool) fine (fun _ _ => True) σ :=
  paid_only (K := fun σ => i = id → σ.store.WasPaid id) ((only_settleCharge charge).retry n)
    (fun _ _ hr hk hi => hr.1 (hk hi)) hσ (fun _ _ hm hk hc => hk (hm.2 _ _ hc).2) fun _ _ _ _ => trivial

theorem statusOf_commits {i : Id} {status : PaymentIntentStatus} {ms : List Movement}
    (h : Commits ms (fun r => if r.id = i then { r with status } else r) v) (db : Db) :
    (v db).statusOf id = if id = i then (db.paymentIntent id).map fun _ => status else db.statusOf id := by
  rw [← statusOf_update db i (fun r => { r with status }) fun _ => rfl]
  rw [Db.statusOf, Db.paymentIntent, h.paymentIntents]
  rfl

theorem exists_row {db : Db} (hids : db.paymentIntents.map (·.id) = ids) (h : id ∈ ids) :
    ∃ row, db.paymentIntent id = some row := by
  rw [← hids] at h
  obtain ⟨row, hrow, hid⟩ := List.mem_map.mp h
  exact Option.isSome_iff_exists.mp (List.find?_isSome.mpr ⟨row, hrow, by simpa using hid⟩)

/-- A transaction that sets the status. -/
theorem paid_sets {fine : Shared Backend → Job α → Prop} {body : Tx α} {i : Id} {status : PaymentIntentStatus}
    (hwrites : body.Writes (fun v _ => Commits [] (fun r => if r.id = i then { r with status } else r) v) fun db : Db => db)
    (hasks : body.Asks (Query.isCapture · = false)) : (transaction body).Amid (paidCourse ids t id) (StaysPaid id) (NoDebt α) fine
      (Returns fun _ σ => i = id → id ∈ ids → status = .succeeded → σ.store.WasPaid id) σ := by
  refine Transaction.Job.Amid.transaction (fun σ' hr => ?_) fun e _ _ => returns_error e
  refine Transaction.Tx.Amid.of_writes (K := fun _ => True) hwrites hasks (fun _ _ _ _ => trivial) trivial
    (fun _ _ _ _ hinv hm => ⟨hm, hinv⟩) fun v a τ hr' hv hm => ?_
  refine ⟨paid_touches (P := fun _ => False) (touches_setStatus hv) hr'.2 hm fun _ hf _ => hf.elim, trivial, ?_⟩
  refine fun τ' hr'' => returns_ok ?_
  rintro rfl hmem rfl
  obtain ⟨row, hrow⟩ := exists_row hr'.2.1 hmem
  refine hr''.1 (.inl ?_)
  show (v τ.store).statusOf i = _
  rw [statusOf_commits hv, if_pos rfl, hrow]
  rfl

/-! ## Notifications -/

/-- The update of a success leaves the intent paid, unless the notification has found it FAILED or CANCELED. -/
theorem paid_updateNotified {event : WebhookNotification} {intent : IntentWithLink} {providerStatus : Json}
    (hσ : (paidCourse ids t id).inv σ) (hmem : intent.id ∈ ids)
    (hstatus : event.payloadJson.coalesce ["Status", "status", "transactionStatus"] = .ok (some providerStatus))
    (hopen : intent.id = id → intent.status ∈ PaymentIntentStatus.TERMINAL → event.ReportsSuccess rt → σ.store.WasPaid id) :
    (updateNotified rt event intent providerStatus).Amid (paidCourse ids t id) (StaysPaid id) (NoDebt _) (fun _ _ => True)
      (Returns fun result σ => result.processed = true →
        result.mappedStatus.any (·.isStr PaymentIntentStatus.succeeded.code) = true → intent.id = id → σ.store.WasPaid id) σ := by
  refine amid_bind (R := fun _ _ => True) hσ (fun _ _ => trivial) (amid_select (fun _ _ => trivial)
    (fun _ _ _ _ _ => trivial) fun _ _ => trivial) (fun config σ₁ hr₁ _ _ => ?_) fun e _ _ => returns_error e
  cases config with
  | none => exact amid_ret fun _ _ h => by cases h
  | some config =>
      refine Transaction.Job.Amid.orElse (Q := Returns fun result (σ : Shared Backend) => result.processed = true →
        result.mappedStatus.any (·.isStr PaymentIntentStatus.succeeded.code) = true → intent.id = id → σ.store.WasPaid id)
        hr₁.2 trivial ?_ (fun _ _ _ h => h) fun e σ₂ hr₂ _ _ => amid_ret fun _ _ h => by cases h
      refine amid_ofExcept_bind (fun internalStatus hmapped => ?_) fun e _ _ => returns_error e
      -- What is written when the status stands for SUCCEEDED.
      have hwrite : (writeStatus intent internalStatus).Amid (paidCourse ids t id) (StaysPaid id) (NoDebt Unit) (fun _ _ => True)
          (Returns fun _ σ => internalStatus.isStr PaymentIntentStatus.succeeded.code = true → intent.id = id →
            σ.store.WasPaid id) σ₁ := by
        unfold writeStatus
        split_ifs with hterminal
        · exact amid_ret fun σ₂ hr₂ hsuccess hid => hr₂.1 (hr₁.1
            (hopen hid hterminal ⟨providerStatus, config, internalStatus, hstatus, hmapped, hsuccess⟩))
        · refine amid_ofExcept_bind (fun status hcolumn => ?_) fun e _ _ => returns_error e
          refine amid_bind hr₁.2 (fun _ _ => trivial) (paid_sets (commits_intentUpdate commits_nothing)
            (asks_intentUpdate _ _)) (fun _ σ₂ hr₂ hset _ => amid_ret fun σ₃ hr₃ hsuccess hid => hr₃.1 ?_)
            fun e _ _ => returns_error e
          refine hset hid (hid ▸ hmem) ?_
          have hcode : internalStatus = .str PaymentIntentStatus.succeeded.code := by
            cases internalStatus with
            | str s => exact congrArg Json.str (of_decide_eq_true hsuccess)
            | _ => cases hsuccess
          rw [hcode] at hcolumn
          cases hcolumn
          rfl
      have hstable : ∀ σ σ' : Shared Backend, (paidCourse ids t id).Reach σ σ' →
          (internalStatus.isStr PaymentIntentStatus.succeeded.code = true → intent.id = id → σ.store.WasPaid id) →
          internalStatus.isStr PaymentIntentStatus.succeeded.code = true → intent.id = id → σ'.store.WasPaid id :=
        fun _ _ hr hk hsuccess hid => hr.1 (hk hsuccess hid)
      refine amid_bind (R := fun _ (σ : Shared Backend) => internalStatus.isStr PaymentIntentStatus.succeeded.code = true → intent.id = id →
        σ.store.WasPaid id) hr₁.2 (fun _ _ => trivial) ?_ (fun _ σ₂ _ hk _ => amid_ret fun σ₃ hr₃ _ hsuccess hid =>
          hr₃.1 (hk hsuccess hid)) fun e _ _ => returns_error e
      refine amid_ofExcept_bind (fun ptid _ => ?_) fun e _ _ => returns_error e
      refine amid_bind hr₁.2 (fun _ _ => trivial) hwrite (fun _ σ₂ _ hk _ => ?_) fun e _ _ => returns_error e
      have hrest := Transaction.Job.Does.bind ((observes_touches (P := fun m => m.sourceType = some .refund)).recordTransaction
        intent.id ptid) fun _ => observes_touches.markNotifiedLinkPaid intent internalStatus
      exact (paid_quiet hrest hstable hk).mono (fun _ _ _ h => h) fun _ _ _ h _ _ => h

/-- A job that books nothing, for its effect. -/
theorem paid_discard {fine : Shared Backend → Job Unit → Prop} {j : Job α} (h : OnlyTouches (fun m => m.sourceType = some .refund) j) :
    (discard j).Amid (paidCourse ids t id) (StaysPaid id) (NoDebt Unit) fine (fun _ _ => True) σ :=
  paid_quiet (K := fun _ => True) (only_discard h) (fun _ _ _ h => h) trivial

theorem paid_processFound {event : WebhookNotification} {found : Option IntentWithLink}
    (hσ : (paidCourse ids t id).inv σ) (hmem : ∀ intent ∈ found, intent.id ∈ ids)
    (hopen : ∀ intent ∈ found, intent.id = id → intent.status ∈ PaymentIntentStatus.TERMINAL → event.ReportsSuccess rt →
      σ.store.WasPaid id) :
    (processFound rt event found).Amid (paidCourse ids t id) (StaysPaid id) (NoDebt Id) (fun _ _ => True) (fun _ _ => True) σ := by
  have hverify : OnlyTouches (fun m => m.sourceType = some .refund)
      (stepRun DEFAULT_RETRIES (verifySignature rt event (found.map (·.tenantId)))) :=
    (observes_touches.verifySignature event _).retry DEFAULT_RETRIES
  refine Transaction.Job.Amid.bind hσ (fun _ _ => trivial) (paid_quiet (K := fun _ => True) hverify (fun _ _ _ h => h) trivial)
    (fun verified σ₁ hr₁ _ _ => ?_) fun _ _ _ _ => trivial
  refine amid_ofExcept_bind (fun providerStatus hstatus => ?_) fun _ _ _ => trivial
  refine amid_bind (R := fun result (σ : Shared Backend) => ∀ intent, found = some intent → result.processed = true →
      result.mappedStatus.any (·.isStr PaymentIntentStatus.succeeded.code) = true → intent.id = id → σ.store.WasPaid id)
    hr₁.2 (fun _ _ => trivial) ?_ (fun result σ₂ hr₂ h₂ _ => ?_) fun _ _ _ => trivial
  · unfold processStatus
    split
    · rename_i intent providerStatus hvalue
      have hsome : event.payloadJson.coalesce ["Status", "status", "transactionStatus"] = .ok (some providerStatus) := by
        rw [hstatus, (Option.filter_eq_some_iff.mp hvalue).1]
      have hupdate : (stepRun DEFAULT_RETRIES (updateNotified rt event intent providerStatus)).Amid (paidCourse ids t id) (StaysPaid id)
          (NoDebt WebhookResult) (fun _ _ => True) (Returns fun result σ => result.processed = true →
            result.mappedStatus.any (·.isStr PaymentIntentStatus.succeeded.code) = true → intent.id = id →
              σ.store.WasPaid id) σ₁ := by
        refine Transaction.Job.Amid.retry (D := fun _ _ => True) (J := fun σ : Shared Backend => intent.id = id →
          intent.status ∈ PaymentIntentStatus.TERMINAL → event.ReportsSuccess rt → σ.store.WasPaid id)
          DEFAULT_RETRIES hr₁.2 (fun hid hs hsuccess => hr₁.1 (hopen intent rfl hid hs hsuccess)) (fun _ _ _ _ => trivial)
          fun σ hinv hJ => ?_
        refine (paid_updateNotified hinv (hmem intent rfl) hsome hJ).mono (fun _ _ _ h => h) fun r σ' hr h => ?_
        cases r with
        | ok result => exact h
        | error e => exact ⟨fun hid hs hsuccess => hr.1 (hJ hid hs hsuccess), h⟩
      refine hupdate.mono (fun _ _ _ h => h) fun r σ' _ h => ?_
      rintro result hresult _ ⟨⟩
      exact h result hresult
    · exact amid_ret fun _ _ _ _ h => by cases h
  · refine Transaction.Job.Amid.bind (Q := fun _ _ => True) hr₂.2 (fun _ _ => trivial) ?_ (fun _ σ₃ _ _ _ => ?_)
      fun _ _ _ _ => trivial
    · unfold settleNotified
      cases found with
      | none => exact fun _ _ => trivial
      | some intent =>
          dsimp only
          split_ifs with hsettles
          · rw [Bool.and_eq_true] at hsettles
            exact paid_settle _ fun hid => h₂ intent rfl hsettles.1 hsettles.2 hid
          · exact fun _ _ => trivial
    · have hstore := (only_posts (P := fun m => m.sourceType = some .refund)
        (posts_storeNotification event found verified result)).retry DEFAULT_RETRIES
      exact paid_quiet (K := fun _ => True) (hstore.bind fun _ => Transaction.Job.does_ret _) (fun _ _ _ h => h) trivial

theorem paid_notification {event : WebhookNotification} (hσ : (paidCourse ids t id).inv σ) :
    (discard (webhookProcessor rt event)).Amid (paidCourse ids t id) (StaysPaid id) (NoDebt Unit)
      (fun σ => (Request.notification event).FindsOpen rt id σ.store) (fun _ _ => True) σ := by
  rw [webhookProcessor_eq, discard_bind]
  refine amid_bind (R := FoundAs fun row _ => row.id ∈ ids) hσ (fun a ha => ?_) ?_
    (fun found σ' hr hfound hfine => ?_) fun _ _ _ => trivial
  · obtain ⟨b, -, hb⟩ := Transaction.Job.bind_eq_ret (Transaction.Job.retry_eq_ret ha)
    cases hb
  · refine Transaction.Job.Amid.retry (J := fun _ => True) (D := fun _ _ => True) DEFAULT_RETRIES hσ trivial
      (fun _ _ _ _ => trivial) fun σ' hinv _ => ?_
    have hids : ∀ row (σ : Shared Backend), (paidCourse ids t id).inv σ → row ∈ σ.store.paymentIntents → row.id ∈ ids :=
      fun row σ hinv hmem => hinv.1 ▸ List.mem_map_of_mem (f := fun r : PaymentIntent => r.id) hmem
    refine (amid_findNotified (R := fun row _ => row.id ∈ ids) (fun _ _ _ _ h => h) hids
      (L := fun row _ => row.id ∈ ids) (fun _ _ => trivial) (fun _ _ _ _ h => h) (fun _ _ _ h => h) hinv event).mono
        (fun _ _ _ h => h) fun r σ'' _ h => ?_
    cases r with
    | ok found => exact h
    | error e => exact ⟨trivial, h⟩
  · refine Transaction.Job.Amid.anywhere (Transaction.Job.Amid.bind hr.2 (fun _ _ => trivial)
      (paid_processFound hr.2 hfound fun intent hintent => ?_) (fun _ _ _ _ _ _ _ => trivial) fun _ _ _ _ => trivial)
    obtain rfl := Option.mem_def.mp hintent
    exact hfine intent rfl

/-! ## Stripe events -/

theorem paid_stripeEvent {fine : Shared Backend → Job Unit → Prop} {event : StripeEvent} (hσ : (paidCourse ids t id).inv σ) :
    (discard (stripeWebhookProcessor rt event)).Amid (paidCourse ids t id) (StaysPaid id) (NoDebt Unit) fine (fun _ _ => True) σ := by
  refine Transaction.Job.Amid.anywhere (Transaction.Job.Amid.bind (Q := fun _ _ => True) hσ (fun _ _ => trivial) ?_
    (fun _ _ _ _ _ _ _ => trivial) fun _ _ _ _ => trivial)
  refine amid_ofExcept_bind (fun eventType _ => ?_) fun _ _ _ => trivial
  refine amid_ofExcept_bind (fun obj _ => ?_) fun _ _ _ => trivial
  have hfind : OnlyTouches (fun m => m.sourceType = some .refund) (stepRun 5 (findStripeIntent rt obj)) :=
    (observes_touches.findStripeIntent obj).retry 5
  refine Transaction.Job.Amid.bind hσ (fun _ _ => trivial) (paid_quiet (K := fun _ => True) hfind (fun _ _ _ h => h) trivial)
    (fun found σ₁ hr₁ _ _ => ?_) fun _ _ _ _ => trivial
  cases found with
  | none => exact fun _ _ => trivial
  | some intent =>
      unfold routeStripeEvent
      dsimp only
      split
      · exact fun _ _ => trivial
      · rename_i newStatus _
        refine amid_ofExcept_bind (fun ptid _ => ?_) fun _ _ _ => trivial
        refine amid_bind (R := fun updated (σ : Shared Backend) => updated = some .succeeded → intent.id = id → σ.store.WasPaid id) hr₁.2
          (fun _ _ => trivial) ?_ (fun updated σ₂ hr₂ h₂ _ => ?_) fun _ _ _ => trivial
        · refine Transaction.Job.Amid.retry (J := fun _ => True) (D := fun _ _ => True) 5 hr₁.2 trivial (fun _ _ _ _ => trivial)
            fun σ hinv _ => ?_
          have hupdate : (updateStripeStatus intent.id newStatus).Amid (paidCourse ids t id) (StaysPaid id) (NoDebt _) (fun _ _ => True)
              (Returns fun updated σ => updated = some .succeeded → intent.id = id → σ.store.WasPaid id) σ := by
            refine amid_bind (R := fun current _ => ∀ row, current = some row → intent.id ∈ ids) hinv (fun _ _ => trivial)
              (amid_select (fun _ _ => trivial) (fun _ _ _ _ h => h) fun σ' hr row hrow => ?_)
              (fun current σ' hr hrow _ => ?_) fun e _ _ => returns_error e
            · rw [← hr.2.1, ← show row.id = intent.id by simpa using List.find?_some hrow]
              exact List.mem_map_of_mem (List.mem_of_find?_eq_some hrow)
            · cases current with
              | none => exact amid_ret fun _ _ h => by cases h
              | some current =>
                  dsimp only
                  split_ifs
                  · exact amid_ret fun _ _ h => by cases h
                  · refine amid_bind hr.2 (fun _ _ => trivial) (paid_sets (commits_intentUpdate commits_nothing)
                      (asks_intentUpdate _ _)) (fun _ σ₂ hr₂ hset _ => amid_ret fun σ₃ hr₃ hupdated hid => hr₃.1 ?_)
                      fun e _ _ => returns_error e
                    exact hset hid (hid ▸ hrow current rfl) (Option.some.inj hupdated)
          refine hupdate.mono (fun _ _ _ h => h) fun r σ' _ h => ?_
          cases r with
          | ok updated => exact h
          | error e => exact ⟨trivial, h⟩
        · exact paid_only (K := fun σ => updated = some .succeeded → intent.id = id → σ.store.WasPaid id)
            (only_finishStripeEvent event intent newStatus ptid updated)
            (fun _ _ hr hk hupdated hid => hr.1 (hk hupdated hid)) h₂
            (fun _ _ hm hk hc => hk hm.1 (hm.2.2 _ _ hc).2) fun _ _ _ _ => trivial

/-! ## Captures -/

theorem paid_heldIntent {verb : String} {intentId : Id} {tenantId : Option Id} (hσ : (paidCourse ids t id).inv σ) :
    (heldIntent rt verb intentId tenantId).Amid (paidCourse ids t id) (StaysPaid id) (NoDebt _) (fun _ _ => True)
      (Returns fun _ _ => intentId ∈ ids) σ := by
  refine amid_bind (R := fun _ _ => intentId ∈ ids) hσ (fun _ _ => trivial) ?_ (fun intent σ' hr hmem _ => ?_)
    fun e _ _ => returns_error e
  · refine amid_bind (R := fun found _ => ∀ row, found = some row → intentId ∈ ids) hσ (fun _ _ => trivial)
      (amid_select (fun _ _ => trivial) (fun _ _ _ _ h => h) fun σ' hr row hrow => ?_) (fun found σ' hr hmem _ => ?_)
      fun e _ _ => returns_error e
    · obtain ⟨intent, hintent, -⟩ := Option.map_eq_some_iff.mp hrow
      have hscope : intent.inScope intentId tenantId = true :=
        List.find?_some (p := fun r : PaymentIntent => r.inScope intentId tenantId) hintent
      rw [← hr.2.1, ← (of_decide_eq_true hscope).1]
      exact List.mem_map_of_mem (List.mem_of_find?_eq_some hintent)
    · cases found with
      | none => exact amid_throw _
      | some row => exact amid_ret fun _ _ => hmem row rfl
  · have hquiet : ∀ j : Job (IntentWithLink × String), OnlyTouches (fun m => m.sourceType = some .refund) j →
        j.Amid (paidCourse ids t id) (StaysPaid id) (NoDebt _) (fun _ _ => True) (Returns fun _ _ => intentId ∈ ids) σ' := fun j hj =>
      (paid_quiet (K := fun _ => True) hj (fun _ _ _ h => h) trivial).mono (fun _ _ _ h => h) fun _ _ _ _ _ _ => hmem
    split
    · exact hquiet _ ((only_revertLock _).bind fun _ => Transaction.Job.does_throw _)
    · exact hquiet _ ((only_revertLock _).bind fun _ => Transaction.Job.does_throw _)
    · refine hquiet _ ((only_select _).bind fun config => ?_)
      cases config with
      | none => exact Transaction.Job.does_throw _
      | some config => exact (Transaction.Job.does_ofExcept _).bind fun _ => Transaction.Job.does_ret _

theorem paid_captureIntent {intentId : Id} {tenantId : Option Id} (hσ : (paidCourse ids t id).inv σ) :
    (captureIntent rt intentId tenantId).Amid (paidCourse ids t id) (StaysPaid id) (NoDebt _) (fun _ _ => True) (fun _ _ => True) σ := by
  have hquiet : ∀ {β : Type} (j : Job β) (σ : Shared Backend), OnlyTouches (fun m => m.sourceType = some .refund) j →
      j.Amid (paidCourse ids t id) (StaysPaid id) (NoDebt β) (fun _ _ => True) (fun _ _ => True) σ := fun j σ hj =>
    paid_quiet (K := fun _ => True) hj (fun _ _ _ h => h) trivial
  refine Transaction.Job.Amid.bind hσ (fun _ _ => trivial) (hquiet _ _ (only_lockAuthorized _ _)) (fun count σ₁ hr₁ _ _ => ?_)
    fun _ _ _ _ => trivial
  dsimp only
  split_ifs
  · exact hquiet _ _ (only_refuseAction _ _ _)
  · refine amid_bind hr₁.2 (fun _ _ => trivial) (paid_heldIntent hr₁.2) (fun held σ₂ hr₂ hmem _ => ?_) fun _ _ _ => trivial
    obtain ⟨intent, providerRef⟩ := held
    dsimp only
    split_ifs
    · exact hquiet _ _ ((only_revertLock _).bind fun _ => Transaction.Job.does_throw _)
    · intro σ₃ hr₃ hm₃ _
      refine ⟨⟨hm₃, hr₃.2⟩, ?_⟩
      cases (Backend.reply σ₃.world (.capturePayment (commandOf rt intent providerRef))).1 with
      | error message => exact fun _ _ => trivial
      | ok result =>
          have hinv₃ : (paidCourse ids t id).inv (σ₃.asked (.capturePayment (commandOf rt intent providerRef))) := hr₃.2
          show (finishCapture rt intentId intent result).Amid _ _ _ _ _ _
          unfold finishCapture
          split_ifs
          · exact hquiet _ _ ((only_revertLock _).bind fun _ => Transaction.Job.does_throw _)
          · refine amid_bind (R := fun _ (σ : Shared Backend) => intentId = id → result.status.getD .succeeded = .succeeded → σ.store.WasPaid id)
              hinv₃ (fun _ _ => trivial) ?_ (fun _ σ₄ hr₄ hpaid _ => ?_) fun _ _ _ => trivial
            · exact (paid_sets (commits_recordAction intentId _) (asks_recordAction _ _)).mono (fun _ _ _ h => h)
                fun r σ' _ h a ha hid hstatus => h a ha hid (hid ▸ hmem) hstatus
            · dsimp only
              split_ifs with hstatus
              · exact Transaction.Job.Amid.bind (Q := fun _ _ => True) hr₄.2 (fun _ _ => trivial)
                  (paid_settle 0 fun hid => hpaid hid hstatus) (fun _ _ _ _ _ _ _ => trivial) fun _ _ _ _ => trivial
              · exact fun _ _ => trivial

theorem paid_resolveRisk {i : Id} {resolution : Resolution} (hσ : (paidCourse ids t id).inv σ) :
    (resolveRisk rt i resolution).Amid (paidCourse ids t id) (StaysPaid id) (NoDebt _) (fun _ _ => True) (fun _ _ => True) σ := by
  refine amid_bind (R := fun _ _ => True) hσ (fun _ _ => trivial) (amid_select (fun _ _ => trivial)
    (fun _ _ _ _ _ => trivial) fun _ _ => trivial) (fun found σ₁ hr₁ _ _ => ?_) fun _ _ _ => trivial
  cases found with
  | none => exact fun _ _ => trivial
  | some intent =>
      refine paid_bind hr₁.2 ?_ fun _ σ₂ hr₂ => ?_
      · unfold actOnHeld
        split_ifs
        · cases resolution with
          | allow => exact paid_bind hr₁.2 (paid_captureIntent hr₁.2) fun _ _ _ _ _ => trivial
          | block =>
              exact paid_quiet (K := fun _ => True)
                ((only_voidIntent intent.id none).bind fun _ => Transaction.Job.does_ret _) (fun _ _ _ h => h) trivial
        · exact fun _ _ => trivial
      · refine Transaction.Job.Amid.transaction (fun σ₃ hr₃ => ?_) fun _ _ _ => trivial
        refine Transaction.Tx.Amid.of_writes (K := fun _ => True) (commits_intentUpdate commits_nothing)
          (asks_intentUpdate (A := fun _ => True) _ _) (fun _ _ _ _ => trivial) trivial
          (fun _ _ _ _ hinv hm => ⟨hm, hinv⟩) fun v _ τ hr₄ hv hm => ?_
        refine ⟨⟨hm, ?_, fun hcapture => hm (hr₄.2.2 ?_)⟩, trivial, fun _ _ => trivial⟩
        · show (v τ.store).paymentIntents.map _ = ids
          rw [hv.paymentIntents, List.map_map, ← hr₄.2.1]
          refine List.map_congr_left fun r _ => ?_
          show (if r.id = intent.id then _ else r : PaymentIntent).id = r.id
          split_ifs <;> rfl
        · have hsame : (v τ.store).isCaptured t id = τ.store.isCaptured t id := by
            rw [Db.isCaptured, hv.movements, List.append_nil]; rfl
          exact hsame ▸ hcapture

end Course

/-! ## Runs -/

/-- A request amid others. -/
theorem Request.paid (rt : Runtime) {ids : List Id} {t id : Id} {σ : Shared Backend}
    (hσ : (paidCourse ids t id).inv σ) (request : Request) : (request.job rt).Amid (paidCourse ids t id) (StaysPaid id)
      (NoDebt Unit) (fun σ => request.FindsOpen rt id σ.store) (fun _ _ => True) σ := by
  have hdiscard : ∀ {α : Type} {j : Job α}, j.Amid (paidCourse ids t id) (StaysPaid id) (NoDebt α) (fun _ _ => True)
      (fun _ _ => True) σ → (discard j).Amid (paidCourse ids t id) (StaysPaid id) (NoDebt Unit) (fun _ _ => True)
      (fun _ _ => True) σ := fun h => Transaction.Job.Amid.bind hσ (fun _ _ => trivial) h (fun _ _ _ _ _ _ _ => trivial)
    fun _ _ _ _ => trivial
  cases request with
  | notification event => exact paid_notification hσ
  | stripeEvent event => exact paid_stripeEvent hσ
  | poll event rounds => exact paid_quiet (K := fun _ => True) (only_paymentPoller _ _) (fun _ _ _ h => h) trivial
  | status tenantId i => exact paid_discard (only_intentStatus _ _)
  | capture intentId tenantId => exact hdiscard (paid_captureIntent hσ)
  | void intentId tenantId => exact paid_discard (only_voidIntent _ _)
  | resolve i resolution => exact hdiscard (paid_resolveRisk hσ)
  | refund tenantId i => exact paid_discard (only_refundRoute _)

/-- A booked capture leaves its intent SUCCEEDED or REFUNDED in every state of a run in order. -/
theorem captured_paid {ι : Type} [DecidableEq ι] {rt : Runtime} {requests : ι → Request} {t id : Id} {db : Db} {w : World}
    (hunique : (db.paymentIntents.map (·.id)).Nodup)
    (hprovider : ∀ r ∈ db.paymentIntents, r.id = id → r.provider ≠ .stripe) (hnew : db.isCaptured t id = true → db.WasPaid id)
    {p : Pool Backend ι Unit} (hp : Pool.ReachableIf (PaidInOrder rt requests db.intentRows id)
      (Pool.init (fun i => (requests i).job rt) db w) p)
    (hcaptured : p.shared.store.isCaptured t id = true) : p.shared.store.WasPaid id := by
  have hrows : (db.intentRows.map Prod.fst).Nodup := by
    rw [Db.intentRows, List.map_map]
    exact hunique
  have hstripe : ∀ p, (id, p) ∈ db.intentRows → p ≠ .stripe := by
    intro provider hmem
    obtain ⟨r, hr, heq⟩ := List.mem_map.mp hmem
    obtain ⟨hid, rfl⟩ := Prod.mk.inj heq
    exact hprovider r hr hid
  have hstays := Pool.stays_of_looksAgain (J := OnRows db.intentRows) (R := PaidOn db.intentRows id) rfl
    (fun i => (requests i).abides rt hrows hstripe)
    (fun i => Transaction.Job.Follows.mono ((requests i).concludes rt hstripe)
      (fun _ _ hr henters => (hr henters).abides) fun _ h => h) (fun _ _ _ hcond => hcond.1) hp
  have hinv : (paidCourse (db.paymentIntents.map (·.id)) t id).inv ⟨db, w⟩ := ⟨rfl, hnew⟩
  have hamid : p.Amid (paidCourse (db.paymentIntents.map (·.id)) t id) (fun _ => StaysPaid id) (fun _ => NoDebt Unit)
      (fun i σ => (requests i).FindsOpen rt id σ.store) (fun _ _ _ => True) :=
    Pool.amid_run hinv (fun i => (requests i).paid rt hinv) (fun p i p' _ hcond => by
      have hkept : p.shared.store.WasPaid id → p'.shared.store.WasPaid id := fun hpaid => (hcond.2.2 ⟨hcond.2.1, hpaid⟩).2
      exact ⟨hkept, fun j hj => (hcond.1.2 j hj).later hkept⟩) hstays
  exact hamid.inv.2 hcaptured

/-! ## Requests for one intent -/

/-- A runtime where numbers are read as they are. -/
def readingRuntime : Runtime :=
  { signingRuntime .null with
    toNumber := fun value =>
      match value with
      | .num n => some n.num
      | _ => none }

/-- A VPS intent over 10.00 in the status. -/
def vpsDb (status : PaymentIntentStatus) : Db :=
  { Db.empty { plainConfig with providerConfigs := [⟨1, .vps, "key of 1", .connected⟩] } with
    paymentIntents := [{ vpsIntent 7 1 "c7" with status, providerRef := some "charge 7" }] }

/-- A world whose clock runs an hour between two questions. -/
def World.hourly : World :=
  { World.counting with
    oracle := fun n q =>
      match q with
      | .now => n * 3600000
      | q => World.counting.oracle n q }

/-- Two captures of an authorized intent, its poller, and the notification of the charge. -/
def captureRequests : Fin 4 → Request
  | 0 | 1 => .capture 7 (some 1)
  | 2 => .poll ⟨7, .vps, 1⟩ 1
  | 3 => .notification (chargeOf "c7")

/-- When the intent becomes paid nobody else is on the way, and the notification comes when it is. -/
def captureCheck (p : Pool Backend (Fin 4) Unit) (i : Fin 4) (p' : Pool Backend (Fin 4) Unit) : Bool :=
  decide (¬ PaidOn [(7, .vps)] 7 p.shared.store → PaidOn [(7, .vps)] 7 p'.shared.store →
    ∀ j, j ≠ i → 1 < (p.threads j).pc → (p.threads j).phase.Finished) && decide (i.val = 3 → p.shared.store.WasPaid 7)

theorem paidInOrder_of_check {p p' : Pool Backend (Fin 4) Unit} {i : Fin 4} (h : captureCheck p i p' = true) :
    PaidInOrder readingRuntime captureRequests (vpsDb .authorized).intentRows 7 p i p' := by
  rw [captureCheck, Bool.and_eq_true] at h
  refine ⟨.of_finished (of_decide_eq_true h.1), fun j _ => ?_⟩
  match i with
  | 0 | 1 | 2 => trivial
  | 3 => exact fun _ _ _ _ _ => of_decide_eq_true h.2 rfl

/-- The poller and the second capture, which have begun, find the intent SUCCEEDED, and so does the notification. -/
theorem captured_paid_capture :
    ∃ p, Pool.ReachableIf (PaidInOrder readingRuntime captureRequests (vpsDb .authorized).intentRows 7)
        (Pool.init (fun i => (captureRequests i).job readingRuntime) (vpsDb .authorized) .counting) p ∧
      (∀ i, (p.threads i).phase.Finished) ∧ p.shared.store.isCaptured 1 7 = true ∧ p.shared.store.WasPaid 7 := by
  obtain ⟨p, hp, hend⟩ := Pool.ReachableIf.exists_of_check
    (Pool.init (fun i => (captureRequests i).job readingRuntime) (vpsDb .authorized) .counting)
    ([1, 2] ++ List.replicate 68 0 ++ List.replicate 7 1 ++ List.replicate 3 2 ++ List.replicate 21 3)
    (fun p => decide ((∀ i, (p.threads i).phase.Finished) ∧ p.shared.store.isCaptured 1 7 = true)) captureCheck
    (fun _ _ _ _ h => paidInOrder_of_check h) (by rfl)
  obtain ⟨hfinished, hcaptured⟩ := of_decide_eq_true hend
  exact ⟨p, hp, hfinished, hcaptured, captured_paid (by decide) (by decide) (by decide) hp hcaptured⟩

/-- The poller, and the notification that the customer was charged. -/
def lateCharge : Bool → Request
  | true => .poll ⟨7, .vps, 1⟩ 1
  | false => .notification (chargeOf "c7")

/-- The poller gives up on the intent, and the notification of the charge settles the FAILED intent. -/
theorem captured_not_paid :
    ¬ ∀ (rt : Runtime) (requests : Bool → Request) (t id : Id) (db : Db) (w : World),
      (db.paymentIntents.map (·.id)).Nodup → (∀ r ∈ db.paymentIntents, r.provider = .vps) → db.isCaptured t id = false →
        ∀ p, Pool.Reachable (Pool.init (fun i => (requests i).job rt) db w) p → p.Quiescent →
          p.shared.store.isCaptured t id = true → p.shared.store.WasPaid id := by
  intro h
  obtain ⟨p, hp, hend⟩ := Pool.ReachableIf.exists_of_runSchedule
    (Pool.init (fun i => (lateCharge i).job readingRuntime) (vpsDb .processing) .hourly)
    (List.replicate 10 true ++ List.replicate 66 false)
    (fun p => decide (((p.threads true).phase.Finished ∧ (p.threads false).phase.Finished) ∧
      p.shared.store.isCaptured 1 7 = true ∧ ¬ p.shared.store.WasPaid 7)) (fun _ _ _ => trivial) (by rfl)
  obtain ⟨⟨htrue, hfalse⟩, hcaptured, hunpaid⟩ := of_decide_eq_true hend
  refine hunpaid (h readingRuntime lateCharge 1 7 (vpsDb .processing) .hourly (by decide) (by decide) (by decide) p hp
    (fun i => .inr ?_) hcaptured)
  cases i
  · exact hfalse
  · exact htrue

end CorpoPay.Settlement
