import CorpoPay.Settlement.Lemmas.Effects
import CorpoPay.Settlement.Lemmas.FreshIds
import CorpoPay.Settlement.Lemmas.Intents
import CorpoPay.Settlement.Theorems.Disbursement

/-!
# Refund requests that stop halfway

The row of a refund is PENDING while the provider is called. A provider that throws, or a reversal that is refused after
the provider has paid back, leaves it PENDING, and the row keeps every later request out.
-/

namespace CorpoPay.Settlement

open Transaction.Tx
open Transaction (Job.run_bind Job.run_get Job.run_transaction Job.run_ofExcept_bind Job.run_mapError)

/-! ## What a request asks for -/

structure RefundRequest where
  intent : IntentWithLink
  providerRef : String
  amount : Int
  currency : Json
  currencyText : String

/-- What the checks of the route come to. -/
def Db.refundRequest (db : Db) (rt : Runtime) (t id : Id) : Except Failure RefundRequest :=
  match db.refundedIntent t id with
  | none => .error (.appError 404 "TRANSACTION_NOT_FOUND" "Transaction not found")
  | some (intent, refunds) => do
      let providerRef ← checkRefundable intent refunds
      match db.providerConfig t intent.provider with
      | none => .error (.appError 400 "PROVIDER_NOT_CONFIGURED" "Provider config missing")
      | some config => do
          let _ ← getAdapter rt intent.provider config.encryptedCredentials
          let charge ← refundCharge rt intent
          let currencyText ← textColumn charge.2
          pure { intent, providerRef, amount := charge.1, currency := charge.2, currencyText }

namespace RefundRequest

variable (req : RefundRequest) (t : Id) (w : World)

def command : PaymentCommand :=
  { provider := req.intent.provider, providerRef := req.providerRef, amount := req.amount, currency := req.currency }

/-- The id of the refund. -/
def refundId : Id := w.oracle w.clock .freshId

/-- What the provider answers. -/
def answer : Except String RefundResult := w.oracle (w.clock + 1) (.refund req.command)

def pendingRow : Refund :=
  { id := refundId w, paymentIntentId := req.intent.id, tenantId := t, status := .pending, providerRefundRef := none,
    amount := req.amount, currency := req.currencyText }

/-- The database and the world when the provider has answered. -/
def opened (db : Db) : Db := { db with refunds := db.refunds ++ [req.pendingRow t w] }

def asked : World := ((w.reply .freshId).2.reply (.refund req.command)).2

end RefundRequest

/-- No id that is still to be generated is in use. -/
structure FreshIds (db : Db) (w : World) : Prop extends FreshEntries db w where
  refunds : ∀ n, w.clock ≤ n → ∀ r ∈ db.refunds, r.id ≠ w.oracle n .freshId
  sources : ∀ n, w.clock ≤ n → ∀ m ∈ db.movements, m.sourceType = some .refund → m.sourceId ≠ some (w.oracle n .freshId)

variable {rt : Runtime} {t id : Id} {db : Db} {w : World} {req : RefundRequest}

/-! ## The run of a request -/

/-- What a request does after its checks. -/
theorem refundRoute_run (rt : Runtime) (t id : Id) (db : Db) (w : World) :
    (refundRoute rt t id).run db w =
      match db.refundRequest rt t id with
      | .error e => (.error e, db, w)
      | .ok req => ((openRefund t req.intent.id req.amount req.currencyText).bind fun refund =>
          refundAtProvider t req.intent refund.id req.providerRef req.amount req.currency).run db w := by
  unfold refundRoute Db.refundRequest
  rw [Transaction.Job.bind_eq, Job.run_bind, Job.run_get]
  cases db.refundedIntent t id with
  | none => rfl
  | some found =>
      obtain ⟨intent, refunds⟩ := found
      dsimp only [Transaction.Job.bind_eq]
      rw [Job.run_ofExcept_bind]
      cases checkRefundable intent refunds with
      | error e => rfl
      | ok providerRef =>
          dsimp only
          rw [Job.run_bind, Job.run_get]
          cases db.providerConfig t intent.provider with
          | none => rfl
          | some config =>
              dsimp only
              rw [Job.run_ofExcept_bind]
              cases getAdapter rt intent.provider config.encryptedCredentials with
              | error e => rfl
              | ok adapter =>
                  dsimp only
                  rw [Job.run_ofExcept_bind]
                  cases refundCharge rt intent with
                  | error e => rfl
                  | ok charge =>
                      dsimp only [Bind.bind, Except.bind]
                      rw [Job.run_ofExcept_bind]
                      cases textColumn charge.2 <;> rfl

theorem checkRefundable_ok {intent : IntentWithLink} {refunds : List Refund} {providerRef : String}
    (h : checkRefundable intent refunds = .ok providerRef) :
    intent.status = .succeeded ∧ ∀ r ∈ refunds, r.isActive = false := by
  unfold checkRefundable at h
  split_ifs at h with hstatus hactive
  exact ⟨not_not.mp hstatus, by simpa using hactive⟩

/-- What a request that passes the checks says about the rows. -/
theorem refundRequest_ok (h : db.refundRequest rt t id = .ok req) :
    ∃ refunds, db.refundedIntent t id = some (req.intent, refunds) ∧
      checkRefundable req.intent refunds = .ok req.providerRef := by
  unfold Db.refundRequest at h
  cases hfound : db.refundedIntent t id with
  | none => rw [hfound] at h; cases h
  | some found =>
      obtain ⟨intent, refunds⟩ := found
      rw [hfound] at h
      obtain ⟨providerRef, hcheck, h⟩ := Except.bind_eq_ok h
      refine ⟨refunds, ?_⟩
      cases hconfig : db.providerConfig t intent.provider with
      | none => rw [hconfig] at h; cases h
      | some config =>
          rw [hconfig] at h
          obtain ⟨-, -, h⟩ := Except.bind_eq_ok h
          obtain ⟨charge, -, h⟩ := Except.bind_eq_ok h
          obtain ⟨currencyText, -, h⟩ := Except.bind_eq_ok h
          cases h
          exact ⟨rfl, hcheck⟩

/-- The request opens a refund and asks the provider. -/
theorem refundRoute_asks (hfresh : FreshIds db w) (hreq : db.refundRequest rt t id = .ok req) :
    (refundRoute rt t id).run db w =
      match req.answer w with
      | .error message => (.error (.providerError message), req.opened t w db, req.asked w)
      | .ok result => (finishRefund t req.intent.id (RefundRequest.refundId w) result).run (req.opened t w db) (req.asked w) := by
  obtain ⟨refunds, hfound, hcheck⟩ := refundRequest_ok hreq
  obtain ⟨row, hrow, hpair⟩ := Option.map_eq_some_iff.mp hfound
  obtain ⟨hintent, hrefunds⟩ := Prod.mk.inj hpair
  have hinactive := (checkRefundable_ok hcheck).2
  have htaken : ¬ (db.refunds.any (·.id = w.oracle w.clock .freshId) ||
      (req.pendingRow t w).isActive && (db.refundsOf req.intent.id).any (·.isActive)) = true := by
    rw [Bool.or_eq_true, not_or]
    refine ⟨?_, ?_⟩
    · simpa using hfresh.refunds w.clock (Nat.le_refl _)
    · rw [Bool.and_eq_true, not_and]
      intro _
      rw [← hintent]
      simpa [hrefunds, Db.withLink] using hinactive
  have hcreate : (Refund.create fun id =>
      { id, paymentIntentId := req.intent.id, tenantId := t, status := .pending, providerRefundRef := none,
        amount := req.amount, currency := req.currencyText }).run db w =
      (.ok (req.pendingRow t w, req.opened t w db), (w.reply .freshId).2) := by
    show Transaction.Tx.run (I := Backend) (ite _ _ _) db (w.reply .freshId).2 = _
    split
    · rename_i hc; exact absurd hc htaken
    · rfl
  have hopen : (openRefund t req.intent.id req.amount req.currencyText).run db w =
      (.ok (req.pendingRow t w), req.opened t w db, (w.reply .freshId).2) := by
    rw [openRefund, Job.run_mapError, Job.run_transaction]
    rw [hcreate]
    rfl
  have hask : (@Transaction.Job.query Backend (.refund
      { provider := req.intent.provider, providerRef := req.providerRef, amount := req.amount,
        currency := req.currency })).run (req.opened t w db) (w.reply .freshId).2 =
      (.ok (req.answer w), req.opened t w db, req.asked w) := rfl
  rw [refundRoute_run, hreq]
  dsimp only
  rw [Job.run_bind, hopen]
  dsimp only [refundAtProvider, Transaction.Job.bind_eq]
  rw [Job.run_bind, hask]
  cases req.answer w <;> rfl

/-! ## The rows of a request -/

theorem refundRequest_rows (h : db.refundRequest rt t id = .ok req) :
    ∃ row, db.paymentIntents.find? (fun r => r.id = id ∧ r.tenantId = t) = some row ∧ req.intent = db.withLink row ∧
      row.id = id ∧ row.status = .succeeded ∧ ∀ r ∈ db.refundsOf id, r.isActive = false := by
  obtain ⟨refunds, hfound, hcheck⟩ := refundRequest_ok h
  obtain ⟨row, hrow, hpair⟩ := Option.map_eq_some_iff.mp hfound
  obtain ⟨hintent, hrefunds⟩ := Prod.mk.inj hpair
  have hid : row.id = id := (by simpa using List.find?_some hrow : row.id = id ∧ row.tenantId = t).1
  obtain ⟨hstatus, hinactive⟩ := checkRefundable_ok hcheck
  refine ⟨row, hrow, hintent.symm, hid, ?_, ?_⟩
  · rw [← hintent] at hstatus; exact hstatus
  · rw [← hid, hrefunds]; exact hinactive

/-- A refund that is PENDING or SUCCEEDED keeps requests out. -/
theorem refused_of_active {r : Refund} (hr : r ∈ db.refundsOf id) (hactive : r.isActive = true) :
    ∃ e, db.refundRequest rt t id = .error e := by
  cases hreq : db.refundRequest rt t id with
  | error e => exact ⟨e, rfl⟩
  | ok req =>
      obtain ⟨-, -, -, -, -, hinactive⟩ := refundRequest_rows hreq
      rw [hinactive r hr] at hactive
      cases hactive

/-- An intent that is not SUCCEEDED keeps requests out. -/
theorem refused_of_status (h : ∀ r ∈ db.paymentIntents, r.id = id → r.status ≠ .succeeded) :
    ∃ e, db.refundRequest rt t id = .error e := by
  cases hreq : db.refundRequest rt t id with
  | error e => exact ⟨e, rfl⟩
  | ok req =>
      obtain ⟨row, hrow, -, hid, hstatus, -⟩ := refundRequest_rows hreq
      exact absurd hstatus (h row (List.mem_of_find?_eq_some hrow) hid)

/-- A request passes again while the intent and the configuration are the same and no refund is active. -/
theorem refundRequest_again {db' : Db} {refunds' : List Refund} (hreq : db.refundRequest rt t id = .ok req)
    (hconfig : db'.toConfig = db.toConfig) (hfound' : db'.refundedIntent t id = some (req.intent, refunds'))
    (hinactive : ∀ r ∈ refunds', r.isActive = false) : db'.refundRequest rt t id = .ok req := by
  obtain ⟨refunds, hfound, hcheck⟩ := refundRequest_ok hreq
  have hsame : checkRefundable req.intent refunds' = checkRefundable req.intent refunds := by
    have hnone : refunds'.any (·.isActive) = refunds.any (·.isActive) := by
      rw [List.any_eq_false.mpr fun r hr => by simp [hinactive r hr],
        List.any_eq_false.mpr fun r hr => by simp [(checkRefundable_ok hcheck).2 r hr]]
    rw [checkRefundable, checkRefundable, hnone]
  rw [← hreq]
  unfold Db.refundRequest
  rw [hfound, hfound', hconfig]
  dsimp only
  rw [hsame]

/-- The same request, again and again. -/
def Retried (rt : Runtime) (t id : Id) : Db → Db → Prop :=
  Relation.ReflTransGen fun db db' => ∃ w r w', (refundRoute rt t id).run db w = (r, db', w')

/-- What is refused is refused each time. -/
theorem retried_eq {e : Failure} {db' : Db} (h : db.refundRequest rt t id = .error e) (hr : Retried rt t id db db') :
    db' = db := by
  induction hr with
  | refl => rfl
  | tail _ hstep ih =>
      obtain ⟨w, r, w', hrun⟩ := hstep
      rw [ih, refundRoute_run, h] at hrun
      exact (Prod.mk.inj (Prod.mk.inj hrun).2).1.symm

/-! ## The end of a request -/

def closedStatus (result : RefundResult) : PaymentIntentStatus := if result.success then .refunded else .succeeded

def Db.closed (db : Db) (refundId intentId : Id) (result : RefundResult) : Db :=
  { db with
    refunds := db.refunds.map fun r => if r.id = refundId then
      { r with status := if result.success then .succeeded else .failed, providerRefundRef := result.providerRefundRef }
      else r
    paymentIntents := db.paymentIntents.map fun r =>
      if r.id = intentId then { r with status := closedStatus result } else r }

theorem succeeds_refundUpdate {refundId : Id} {f : Refund → Refund} {row : Refund}
    {Q : Refund → Db → World → Prop} (hrow : db.refunds.find? (·.id = refundId) = some row)
    (h : Q (f row) { db with refunds := db.refunds.map fun r => if r.id = refundId then f r else r } w) :
    Succeeds (I := Backend) Q (Refund.update refundId f) db w := by
  unfold Refund.update
  simp only [bind_eq, succeeds_bind, succeeds_acquire, succeeds_get]
  rw [hrow]
  exact h

theorem refundedIntent_closed (db : Db) {refundId : Id} {result : RefundResult} {row : PaymentIntent}
    (hrow : db.paymentIntents.find? (fun r => r.id = id ∧ r.tenantId = t) = some row) (hid : row.id = id)
    (hstatus : row.status = closedStatus result) :
    (db.closed refundId id result).refundedIntent t id =
      some (db.withLink row, (db.closed refundId id result).refundsOf id) := by
  have hsame : (fun r : PaymentIntent => decide (r.id = id ∧ r.tenantId = t)) ∘
      (fun r => if r.id = id then { r with status := closedStatus result } else r) =
      fun r => decide (r.id = id ∧ r.tenantId = t) := by
    funext r
    dsimp only [Function.comp]
    split_ifs <;> rfl
  have hfind : (db.closed refundId id result).paymentIntents.find? (fun r => r.id = id ∧ r.tenantId = t) = some row := by
    show (db.paymentIntents.map fun r => if r.id = id then { r with status := closedStatus result } else r).find? _ = _
    rw [List.find?_map, hsame, hrow, Option.map_some, if_pos hid, ← hstatus]
  rw [Db.refundedIntent, hfind, Option.map_some, hid]
  rfl

/-- What an accepted request leaves: a reversal that is refused stops it. -/
def RefundRequest.closed (req : RefundRequest) (t : Id) (w : World) (db closed : Db) : Except Failure Bool → Db
  | .error _ => req.opened t w db
  | .ok _ => closed

/-- The rows of the refund and of the intent are closed. -/
theorem closeRefund_run {refundId intentId : Id} (result : RefundResult) {row : Refund} {intent : PaymentIntent}
    (hrow : db.refunds.find? (·.id = refundId) = some row) (hintent : db.paymentIntent intentId = some intent) :
    ∃ r, (transaction (closeRefund refundId intentId result)).run db w = (.ok r, db.closed refundId intentId result, w) := by
  have hbody : Succeeds (I := Backend) (fun _ db' w' => db' = db.closed refundId intentId result ∧ w' = w)
      (closeRefund refundId intentId result) db w := by
    unfold closeRefund
    rw [bind_eq, succeeds_bind]
    refine succeeds_refundUpdate hrow ?_
    rw [bind_eq, succeeds_bind]
    exact succeeds_setStatus hintent ⟨rfl, rfl⟩
  obtain ⟨r, db', w', hrun, rfl, rfl⟩ := hbody.run
  rw [Job.run_transaction, hrun]
  exact ⟨r, rfl⟩

/-! ## Atomicity -/

/-- The refund succeeded, the intent is REFUNDED and the clawback is in the ledger. -/
def Db.RefundDone (db : Db) (t id : Id) : Prop :=
  db.statusOf id = some .refunded ∧
    ∃ r ∈ db.refundsOf id, r.status = .succeeded ∧ db.movements.any (·.isRefundOf t r.id) = true

/-- A request would pass the checks. -/
def Db.RefundOpen (db : Db) (rt : Runtime) (t id : Id) : Prop := ∃ req, db.refundRequest rt t id = .ok req

/-- A refund that the provider accepts is done, at once or by requests that follow, and one that it does not accept can
be asked for again. -/
structure RefundAtomic (rt : Runtime) (t id : Id) (db : Db) (w : World) : Prop where
  accepted : ∀ req result, db.refundRequest rt t id = .ok req → req.answer w = .ok result → result.success = true →
    ∃ db', Retried rt t id ((refundRoute rt t id).run db w).2.1 db' ∧ db'.RefundDone t id
  failed : ∀ req, db.refundRequest rt t id = .ok req → (∀ result, req.answer w = .ok result → result.success = false) →
    ((refundRoute rt t id).run db w).2.1.RefundOpen rt t id

/-- The provider answers, and accepts only what the ledger can reverse. -/
def RefundSettles (rt : Runtime) (t id : Id) (db : Db) (w : World) : Prop :=
  ∀ req, db.refundRequest rt t id = .ok req →
    ∃ result, req.answer w = .ok result ∧ (result.success = true → db.Reversible t id)

/-! ## What a refused request leaves -/

theorem mem_opened {r : Refund} (h : r ∈ (req.opened t w db).refunds) : r ∈ db.refunds ∨ r = req.pendingRow t w := by
  rcases List.mem_append.mp h with h | h
  · exact .inl h
  · exact .inr (List.mem_singleton.mp h)

theorem refused_opened (hreq : db.refundRequest rt t id = .ok req) :
    ∃ e, (req.opened t w db).refundRequest rt t id = .error e := by
  obtain ⟨row, -, hintent, hid, -, -⟩ := refundRequest_rows hreq
  refine refused_of_active (r := req.pendingRow t w) (List.mem_filter.mpr ⟨?_, ?_⟩) rfl
  · exact List.mem_append_right _ (List.mem_singleton.mpr rfl)
  · simp [RefundRequest.pendingRow, hintent, Db.withLink, hid]

/-- A refund that is only opened is not done. -/
theorem not_done_opened (hreq : db.refundRequest rt t id = .ok req) : ¬ (req.opened t w db).RefundDone t id := by
  obtain ⟨-, -, -, -, -, hinactive⟩ := refundRequest_rows hreq
  rintro ⟨-, r, hr, hstatus, -⟩
  obtain ⟨hmem, hof⟩ := List.mem_filter.mp hr
  rcases mem_opened hmem with hmem | rfl
  · have hactive := hinactive r (List.mem_filter.mpr ⟨hmem, hof⟩)
    simp [Refund.isActive, hstatus] at hactive
  · cases hstatus

theorem refused_closed (rt : Runtime) (t refundId : Id) (db : Db) {result : RefundResult} (hsuccess : result.success = true) :
    ∃ e, (db.closed refundId id result).refundRequest rt t id = .error e := by
  refine refused_of_status fun r hr hid => ?_
  obtain ⟨r₀, -, rfl⟩ := List.mem_map.mp hr
  split_ifs at hid ⊢ with h
  · simp [closedStatus, hsuccess]
  · exact absurd hid h

/-! ## The reversal -/

/-- What a reversal posts shows that a credit of the intent was positive. -/
theorem positive_of_reversal {refundId : Id} {c : Currency} {ms : List Movement} {m : Movement}
    (h : m ∈ ms.flatMap (reversal t refundId c)) : ∃ credit ∈ ms, 0 < credit.amount := by
  obtain ⟨credit, hcredit, hm⟩ := List.mem_flatMap.mp h
  refine ⟨credit, hcredit, ?_⟩
  unfold reversal positiveMovements at hm
  split_ifs at hm with hpos
  · exact hpos
  · cases hm

theorem reversal_isRefundOf {refundId : Id} {c : Currency} {ms : List Movement} (h : ∃ m ∈ ms, 0 < m.amount) :
    (ms.flatMap (reversal t refundId c)).any (·.isRefundOf t refundId) = true := by
  obtain ⟨m, hm, hpos⟩ := h
  have hposted : (debit m.account m.amount .refund none c).movement t ⟨some .refund, some refundId⟩ ∈
      reversal t refundId c m := by
    unfold reversal positiveMovements
    rw [if_pos hpos]
    exact List.mem_cons_self
  exact List.any_eq_true.mpr ⟨_, List.mem_flatMap.mpr ⟨m, hm, hposted⟩, decide_eq_true ⟨rfl, rfl, rfl⟩⟩

theorem settleRefund_error {input : SettleRefundInput} {e : Failure} {db' : Db} {w' : World}
    (h : (settleRefund t input).run db w = (.error e, db', w')) : db' = db := by
  unfold settleRefund at h
  rw [Job.run_transaction] at h
  split at h
  · cases h
  · exact (Prod.mk.inj (Prod.mk.inj h).2).1.symm

/-! ## The two directions -/

section Directions

variable (hfresh : FreshIds db w) (hreq : db.refundRequest rt t id = .ok req)
include hfresh hreq

omit hreq in
theorem pending_find : (req.opened t w db).refunds.find? (·.id = RefundRequest.refundId w) = some (req.pendingRow t w) := by
  have hnone : db.refunds.find? (·.id = RefundRequest.refundId w) = none :=
    List.find?_eq_none.mpr fun r hr hid => hfresh.refunds w.clock (Nat.le_refl _) r hr (of_decide_eq_true hid)
  show (db.refunds ++ [req.pendingRow t w]).find? (·.id = RefundRequest.refundId w) = _
  rw [List.find?_append, hnone]
  simp [RefundRequest.pendingRow]

omit hreq in
theorem not_refunded_opened : (req.opened t w db).movements.any (·.isRefundOf t (RefundRequest.refundId w)) = false := by
  refine List.any_eq_false.mpr fun m hm hrefund => ?_
  have hof := of_decide_eq_true hrefund
  exact hfresh.sources w.clock (Nat.le_refl _) m hm hof.2.1 hof.2.2

omit hfresh in
theorem onlyLedger_settled {r : Except Failure Bool} {db₁ : Db} {w₁ : World}
    (hrun : (settleRefund t { intentId := id, refundId := RefundRequest.refundId w }).run (req.opened t w db)
      (req.asked w) = (r, db₁, w₁)) :
    OnlyLedger (req.opened t w db) db₁ ∧ ∃ intent, db₁.paymentIntent id = some intent := by
  have hkeeps : (settleRefund t { intentId := id, refundId := RefundRequest.refundId w }).Keeps OnlyLedger :=
    keeps_settleRefund onlyLedger_postings
  have honly : OnlyLedger (req.opened t w db) db₁ := hkeeps.run hrun
  obtain ⟨row, hrow, -, hid, -, -⟩ := refundRequest_rows hreq
  refine ⟨honly, ?_⟩
  rw [honly]
  exact Option.isSome_iff_exists.mp (List.find?_isSome.mpr ⟨row, List.mem_of_find?_eq_some hrow, decide_eq_true hid⟩)

/-- What a request that the provider accepted leaves. -/
theorem accepted_run {result : RefundResult} (hanswer : req.answer w = .ok result) (hsuccess : result.success = true)
    {r : Except Failure Bool} {db₁ : Db} {w₁ : World}
    (hrun : (settleRefund t { intentId := id, refundId := RefundRequest.refundId w }).run (req.opened t w db)
      (req.asked w) = (r, db₁, w₁)) :
    ((refundRoute rt t id).run db w).2.1 = req.closed t w db (db₁.closed (RefundRequest.refundId w) id result) r := by
  obtain ⟨row, hrow, hintent, hid, -, -⟩ := refundRequest_rows hreq
  have hintentId : req.intent.id = id := by rw [hintent]; exact hid
  obtain ⟨honly, intent, hfound⟩ := onlyLedger_settled hreq hrun
  rw [refundRoute_asks hfresh hreq, hanswer, hintentId]
  dsimp only [finishRefund, settleAccepted, Transaction.Job.bind_eq]
  rw [if_pos hsuccess, Job.run_bind, hrun]
  cases r with
  | error e => exact settleRefund_error hrun
  | ok r =>
      have hrefund : db₁.refunds.find? (·.id = RefundRequest.refundId w) = some (req.pendingRow t w) := by
        rw [honly]; exact pending_find hfresh
      obtain ⟨closed, hclose⟩ := closeRefund_run (w := w₁) result hrefund hfound
      dsimp only
      rw [hclose]
      rfl

/-- A refund that is done was covered. -/
theorem reversible_of_done {result : RefundResult} (hanswer : req.answer w = .ok result)
    (hsuccess : result.success = true) {db' : Db} (hretried : Retried rt t id ((refundRoute rt t id).run db w).2.1 db')
    (hdone : db'.RefundDone t id) : db.Reversible t id := by
  obtain ⟨r, db₁, w₁, hrun⟩ : ∃ r db₁ w₁, (settleRefund t { intentId := id, refundId := RefundRequest.refundId w }).run
      (req.opened t w db) (req.asked w) = (r, db₁, w₁) := ⟨_, _, _, rfl⟩
  rw [accepted_run hfresh hreq hanswer hsuccess hrun] at hretried
  cases r with
  | error e =>
    obtain ⟨e, he⟩ := refused_opened hreq
    rw [retried_eq he hretried] at hdone
    exact absurd hdone (not_done_opened hreq)
  | ok r =>
    obtain ⟨e, he⟩ := refused_closed rt t (RefundRequest.refundId w) db₁ hsuccess
    rw [retried_eq he hretried] at hdone
    obtain ⟨honly, -⟩ := onlyLedger_settled hreq hrun
    have hposted : db₁.movements.any (·.isRefundOf t (RefundRequest.refundId w)) = true := by
      obtain ⟨-, r', hr', hstatus, hposted⟩ := hdone
      obtain ⟨hmem, hof⟩ := List.mem_filter.mp hr'
      obtain ⟨r₀, hr₀, rfl⟩ := List.mem_map.mp hmem
      rw [honly] at hr₀
      rcases mem_opened hr₀ with hold | rfl
      · have hne : r₀.id ≠ RefundRequest.refundId w := hfresh.refunds w.clock (Nat.le_refl _) r₀ hold
        rw [if_neg hne] at hstatus hof
        obtain ⟨-, -, -, -, -, hinactive⟩ := refundRequest_rows hreq
        have hactive := hinactive r₀ (List.mem_filter.mpr ⟨hold, hof⟩)
        simp [Refund.isActive, hstatus] at hactive
      · rw [if_pos (show (req.pendingRow t w).id = RefundRequest.refundId w from rfl)] at hposted
        exact hposted
    rcases (settleRefund_spec t _ _).run _ hrun with ⟨first, rest, hbooked⟩ | ⟨-, rfl⟩
    · have hcredits : db.refundable t id = first :: rest := hbooked.credits
      have hcovered : (((first :: rest).find? (·.account = .available)).map (·.amount)).getD 0 ≤
          db.accountBalance t .available first.currency := hbooked.covered
      refine ⟨?_, fun first' hfirst => ?_⟩
      · rw [hbooked.appends.movements_eq, List.any_append, not_refunded_opened hfresh, Bool.false_or] at hposted
        obtain ⟨m, hm, -⟩ := List.any_eq_true.mp hposted
        rw [hcredits]
        exact positive_of_reversal hm
      · rw [hcredits] at hfirst ⊢
        obtain rfl : first = first' := by simpa using hfirst
        exact hcovered
    · rw [not_refunded_opened hfresh] at hposted
      cases hposted

/-- A covered refund is done at once. -/
theorem done_of_reversible {result : RefundResult} (hanswer : req.answer w = .ok result)
    (hsuccess : result.success = true) (hr : db.Reversible t id) :
    ((refundRoute rt t id).run db w).2.1.RefundDone t id := by
  have hentries : FreshEntries (req.opened t w db) (req.asked w) :=
    FreshEntries.later (w := w) ⟨hfresh.distinct, hfresh.entries⟩ ⟨rfl, Nat.le_add_right _ 2⟩
  obtain ⟨db₂, w₂, hbooks⟩ := settleRefund_books { intentId := id, refundId := RefundRequest.refundId w }
    hentries (not_refunded_opened hfresh) (show (req.opened t w db).Reversible t id from ⟨hr.positive, hr.covered⟩)
  obtain ⟨honly, intent, hfound⟩ := onlyLedger_settled hreq hbooks
  rw [accepted_run hfresh hreq hanswer hsuccess hbooks]
  obtain ⟨row, hrow, hintent, hid, -, -⟩ := refundRequest_rows hreq
  have hself : (req.pendingRow t w).id = RefundRequest.refundId w := rfl
  refine ⟨?_, _, List.mem_filter.mpr ⟨List.mem_map.mpr ⟨req.pendingRow t w, ?_, rfl⟩, ?_⟩, ?_, ?_⟩
  · refine (statusOf_update db₂ id (fun r => { r with status := closedStatus result }) fun _ => rfl).trans ?_
    rw [if_pos rfl, hfound]
    simp [closedStatus, hsuccess]
  · rw [honly]; exact List.mem_append_right _ (List.mem_singleton.mpr rfl)
  · rw [if_pos hself]
    simp [RefundRequest.pendingRow, hintent, Db.withLink, hid]
  · rw [if_pos hself]
    simp [hsuccess]
  · rw [if_pos hself]
    obtain ⟨first, rest, hcredits, happends⟩ := settleRefund_run hbooks
    have hcredits : db.refundable t id = first :: rest := hcredits
    have hposted : ((first :: rest).flatMap (reversal t (RefundRequest.refundId w) first.currency)).any
        (·.isRefundOf t (RefundRequest.refundId w)) = true := by
      rw [← hcredits]; exact reversal_isRefundOf hr.positive
    show db₂.movements.any (·.isRefundOf t (RefundRequest.refundId w)) = true
    rw [happends.movements_eq, List.any_append]
    exact Bool.or_eq_true_iff.mpr (.inr hposted)

/-- A refund that the provider declines can be asked for again. -/
theorem open_of_declined {result : RefundResult} (hanswer : req.answer w = .ok result)
    (hdeclined : result.success = false) : ((refundRoute rt t id).run db w).2.1.RefundOpen rt t id := by
  obtain ⟨row, hrow, hintent, hid, hstatus, hinactive⟩ := refundRequest_rows hreq
  have hintentId : req.intent.id = id := by rw [hintent]; exact hid
  obtain ⟨intent, hfound⟩ : ∃ intent, (req.opened t w db).paymentIntent id = some intent :=
    Option.isSome_iff_exists.mp (List.find?_isSome.mpr ⟨row, List.mem_of_find?_eq_some hrow, decide_eq_true hid⟩)
  obtain ⟨closed, hclose⟩ := closeRefund_run (w := req.asked w) result (pending_find hfresh) hfound
  have hstore : ((refundRoute rt t id).run db w).2.1 = (req.opened t w db).closed (RefundRequest.refundId w) id result := by
    rw [refundRoute_asks hfresh hreq, hanswer, hintentId]
    dsimp only [finishRefund, settleAccepted, Transaction.Job.bind_eq]
    rw [if_neg (by rw [hdeclined]; decide), Job.run_bind]
    show (Transaction.Job.run (I := Backend) _ (req.opened t w db) (req.asked w)).2.1 = _
    rw [hclose]
  have hclosed : closedStatus result = .succeeded := by simp [closedStatus, hdeclined]
  rw [hstore]
  have hfound' : ((req.opened t w db).closed (RefundRequest.refundId w) id result).refundedIntent t id = some (req.intent, _) :=
    hintent ▸ refundedIntent_closed (req.opened t w db) hrow hid (hstatus.trans hclosed.symm)
  refine ⟨req, refundRequest_again hreq rfl hfound' fun r hr => ?_⟩
  obtain ⟨hmem, hof⟩ := List.mem_filter.mp hr
  obtain ⟨r₀, hr₀, rfl⟩ := List.mem_map.mp hmem
  by_cases hself : r₀.id = RefundRequest.refundId w
  · rw [if_pos hself]
    simp [Refund.isActive, hdeclined]
  · rw [if_neg hself] at hof ⊢
    rcases mem_opened hr₀ with hold | rfl
    · exact hinactive r₀ (List.mem_filter.mpr ⟨hold, hof⟩)
    · exact absurd rfl hself

end Directions

/-- A refund request is atomic if and only if the provider answers it, and accepts it only when the ledger can reverse the
capture. -/
theorem refund_atomic_iff (rt : Runtime) (t id : Id) (db : Db) (w : World) (hfresh : FreshIds db w) :
    RefundAtomic rt t id db w ↔ RefundSettles rt t id db w := by
  constructor
  · intro h req hreq
    cases hanswer : req.answer w with
    | error message =>
        obtain ⟨req', hopen⟩ := h.failed req hreq fun result h => by rw [hanswer] at h; cases h
        obtain ⟨e, he⟩ := refused_opened (w := w) hreq
        rw [refundRoute_asks hfresh hreq, hanswer, he] at hopen
        cases hopen
    | ok result =>
        refine ⟨result, rfl, fun hsuccess => ?_⟩
        obtain ⟨db', hretried, hdone⟩ := h.accepted req result hreq hanswer hsuccess
        exact reversible_of_done hfresh hreq hanswer hsuccess hretried hdone
  · refine fun h => ⟨fun req result hreq hanswer hsuccess => ?_, fun req hreq hfailed => ?_⟩
    · obtain ⟨result', hanswer', hr⟩ := h req hreq
      obtain rfl := Except.ok.inj (hanswer.symm.trans hanswer')
      exact ⟨_, .refl, done_of_reversible hfresh hreq hanswer hsuccess (hr hsuccess)⟩
    · obtain ⟨result, hanswer, -⟩ := h req hreq
      exact open_of_declined hfresh hreq hanswer (hfailed result hanswer)

/-- A captured intent over 10.00, and a world that has answered before. -/
def capturedIntent (ops : List Operation) : Db × World :=
  let s := execute ops (.empty railConfig) .counting
  ({ s.1 with
      paymentLinks := [{ id := 3, tenantId := 1, amount := 1000, currency := .mad, status := .paid }]
      paymentIntents :=
        [{ id := 7, tenantId := 1, paymentLinkId := some 3, status := .succeeded, provider := .stripe,
           providerRef := some "pi_7", correlationId := "c7", metadata := none, riskVerdict := some .allow,
           createdAt := 0 }] }, s.2)

theorem freshIds_counting {s : Db × World} (horacle : s.2.oracle = World.counting.oracle)
    (hrefunds : s.1.refunds = []) (hids : ∀ e ∈ s.1.ledgerEntries, e.id < s.2.clock)
    (hsources : ∀ m ∈ s.1.movements, m.sourceType ≠ some .refund) : FreshIds s.1 s.2 where
  distinct := fun n m _ h => by rw [horacle]; exact Nat.ne_of_lt h
  entries := fun n hn e he => by rw [horacle]; exact Nat.ne_of_lt ((hids e he).trans_le hn)
  refunds := fun n _ r hr => by rw [hrefunds] at hr; cases hr
  sources := fun _ _ m hm hsource => absurd hsource (hsources m hm)

/-- The refund of a capture that was not paid out. -/
theorem refund_atomic_iff_captured :
    RefundAtomic plainRuntime 1 7 (capturedIntent [.settleCapture 1 plainCapture]).1
      (capturedIntent [.settleCapture 1 plainCapture]).2 := by
  refine (refund_atomic_iff plainRuntime 1 7 _ _ (freshIds_counting rfl rfl (by decide) (by decide))).mpr fun req _ => ?_
  exact ⟨⟨true, none⟩, rfl, fun _ => ⟨by decide, by decide⟩⟩

/-- The capture that is paid out before it is refunded. -/
def paidOut : Db × World :=
  capturedIntent [.settleCapture 1 plainCapture,
    .createPayout 1 { idempotencyKey := "first", provider := .stripe, method := none }, .markPayoutPaid 1 15 none]

/-- The provider pays back and the ledger refuses. -/
theorem refund_not_atomic :
    ¬ ∀ (rt : Runtime) (t id : Id) (db : Db) (w : World), FreshIds db w → RefundAtomic rt t id db w := by
  intro h
  have hfresh : FreshIds paidOut.1 paidOut.2 := freshIds_counting rfl rfl (by decide +kernel) (by decide +kernel)
  obtain ⟨req, hreq⟩ : ∃ req, paidOut.1.refundRequest plainRuntime 1 7 = .ok req := ⟨_, rfl⟩
  obtain ⟨db', hretried, hdone⟩ := (h plainRuntime 1 7 _ _ hfresh).accepted req ⟨true, none⟩ hreq rfl rfl
  have hr := reversible_of_done hfresh hreq rfl rfl hretried hdone
  have huncovered : ¬ ∀ first ∈ (paidOut.1.refundable 1 7).head?,
      (((paidOut.1.refundable 1 7).find? (·.account = .available)).map (·.amount)).getD 0 ≤
        paidOut.1.accountBalance 1 .available first.currency := by decide +kernel
  exact huncovered hr.covered

end CorpoPay.Settlement
