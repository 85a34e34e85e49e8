import CorpoPay.Settlement.Theorems.CapturedStatus
import CorpoPay.Transaction.Calls

/-!
# Main theorem: failed captures and voids

Both actions take the intent from AUTHORIZED to PROCESSING and have many ways out. Some of them write AUTHORIZED back.
-/

namespace CorpoPay.Settlement

open Transaction (Call)

inductive HoldAction
  | capture | void
  deriving DecidableEq, Repr

namespace HoldAction

def job (rt : Runtime) (intentId : Id) (tenantId : Option Id) : HoldAction → Job PaymentIntentStatus
  | .capture => captureIntent rt intentId tenantId
  | .void => voidIntent rt intentId tenantId

/-- The provider did what it was asked. -/
def Performs : HoldAction → Call Backend → Prop
  | .capture, ⟨.capturePayment _, .ok result⟩ => result.success = true
  | .void, ⟨.cancelPayment _, .ok result⟩ => result.success = true
  | _, _ => False

/-- What the provider answers to the command of the action. -/
def answer (w : World) (command : PaymentCommand) : HoldAction → Except String CommandResult
  | .capture => w.oracle w.clock (.capturePayment command)
  | .void => w.oracle w.clock (.cancelPayment command)

/-- A capture needs an amount. -/
def NeedsAmount (action : HoldAction) (intent : IntentWithLink) : Prop :=
  action = .capture ∧ (resolveCharge intent).1.truthy = false

end HoldAction

/-- Unless the provider performs the action, the job leaves the intent AUTHORIZED. -/
def Restores {α : Type} (action : HoldAction) (id : Id) (j : Job α) (db : Db) (w : World) : Prop :=
  (∀ call ∈ j.calls db w, ¬ action.Performs call) → (j.run db w).2.1.statusOf id = some .authorized

/-- The provider is configured and its adapter can be built. -/
def HasAdapter (rt : Runtime) (db : Db) (intent : PaymentIntent) : Prop :=
  ∃ config, db.providerConfig intent.tenantId intent.provider = some config ∧
    ∃ adapter, getAdapter rt intent.provider config.encryptedCredentials = .ok adapter

/-- The intent has no reference at the provider, or it has an adapter, and the capture has no amount or the provider
answers. -/
def CanRestore (rt : Runtime) (action : HoldAction) (db : Db) (w : World) (intent : PaymentIntent) : Prop :=
  intent.providerRef.getD "" = "" ∨
    HasAdapter rt db intent ∧
      (action.NeedsAmount (db.withLink intent) ∨
        ∀ message, action.answer w (commandOf rt (db.withLink intent) (intent.providerRef.getD "")) ≠ .error message)

/-! ## Rules -/

section Rules

variable {α β : Type} {action : HoldAction} {id : Id} {db db' : Db} {w w' : World}

theorem restores_throw (e : Failure) :
    Restores action id (.throw e : Job α) db w ↔ db.statusOf id = some .authorized :=
  ⟨fun h => h fun _ hcall => absurd hcall List.not_mem_nil, fun h _ => h⟩

theorem restores_bind_ok {j : Job α} {f : α → Job β} {a : α} (hrun : j.run db w = (.ok a, db', w'))
    (hcalls : j.calls db w = []) : Restores action id (j.bind f) db w ↔ Restores action id (f a) db' w' := by
  rw [Restores, Restores, Transaction.Job.calls_bind_ok hrun, hcalls, List.nil_append, Transaction.Job.run_bind_ok hrun]

theorem restores_query {q : Query} {f : Answer q → Job β} :
    Restores action id ((@Transaction.Job.query Backend q).bind f) db w ↔
      (¬ action.Performs ⟨q, w.oracle w.clock q⟩ → Restores action id (f (w.oracle w.clock q)) db (w.reply q).2) := by
  have hcalls : ((@Transaction.Job.query Backend q).bind f).calls db w =
      ⟨q, w.oracle w.clock q⟩ :: (f (w.oracle w.clock q)).calls db (w.reply q).2 := rfl
  have hrun : ((@Transaction.Job.query Backend q).bind f).run db w =
      (f (w.oracle w.clock q)).run db (w.reply q).2 := rfl
  rw [Restores, Restores, hcalls, hrun, List.forall_mem_cons, and_imp]

end Rules

/-! ## Statements -/

section Statements

variable {α : Type} {rt : Runtime} {action : HoldAction} {id : Id} {tenantId : Option Id} {db : Db} {w : World}
  {intent : PaymentIntent}

/-- The rows after `revertLock`. -/
def Db.reverted (db : Db) (id : Id) : Db :=
  { db with paymentIntents := db.paymentIntents.map fun r => if r.id = id then { r with status := .authorized } else r }

/-- The rows after `lockAuthorized`. -/
def Db.locked (db : Db) (id : Id) (tenantId : Option Id) : Db :=
  { db with
    paymentIntents := db.paymentIntents.map fun r =>
      if r.inScope id tenantId && r.status = .authorized then { r with status := .processing } else r }

/-- The number of rows that the action locks. -/
def Db.lockCount (db : Db) (id : Id) (tenantId : Option Id) : Nat :=
  (db.paymentIntents.filter fun r => r.inScope id tenantId && r.status = .authorized).length

theorem lockAuthorized_run : (Transaction.Job.transaction (lockAuthorized id tenantId)).run db w =
    (.ok (db.lockCount id tenantId), db.locked id tenantId, w) := rfl

theorem revertLock_run : (revertLock id).run db w = (.ok (), db.reverted id, w) := rfl

theorem statusOf_reverted (h : (db.paymentIntent id).isSome) : (db.reverted id).statusOf id = some .authorized := by
  obtain ⟨r, hr⟩ := Option.isSome_iff_exists.mp h
  have hstatus := @statusOf_update db id id (fun r => { r with status := .authorized }) fun _ => rfl
  rw [if_pos rfl, hr] at hstatus
  exact hstatus

/-- After the lock is taken back the intent is AUTHORIZED. -/
theorem restores_revert (h : (db.paymentIntent id).isSome) (e : Failure) :
    Restores action id ((revertLock id).bind fun _ => (.throw e : Job α)) db w :=
  (restores_bind_ok revertLock_run rfl).mpr ((restores_throw e).mpr (statusOf_reverted h))

/-- The row that the action locks is the one it loads. -/
theorem find_of_paymentIntent (h : db.paymentIntent id = some intent) (hscope : intent.inScope id tenantId = true) :
    db.scopedIntent id tenantId = some intent := by
  obtain ⟨-, before, after, hrows, hbefore⟩ := List.find?_eq_some_iff_append.mp h
  refine List.find?_eq_some_iff_append.mpr ⟨hscope, before, after, hrows, fun r hr => ?_⟩
  have hother : r.id ≠ id := by simpa using hbefore r hr
  simp [PaymentIntent.inScope, hother]

theorem paymentIntent_locked (db : Db) (id : Id) (tenantId : Option Id) : (db.locked id tenantId).paymentIntent id =
    (db.paymentIntent id).map fun r =>
      if r.inScope id tenantId && r.status = .authorized then { r with status := .processing } else r := by
  have hsame : (fun r : PaymentIntent => decide (r.id = id)) ∘ (fun r =>
      if r.inScope id tenantId && r.status = .authorized then { r with status := .processing } else r) =
      fun r => decide (r.id = id) := by
    funext r
    dsimp only [Function.comp_apply]
    split_ifs <;> rfl
  rw [Db.paymentIntent, Db.locked, List.find?_map, hsame]
  rfl

theorem lockCount_ne_zero (h : db.paymentIntent id = some intent) (hheld : intent.status = .authorized)
    (hscope : intent.inScope id tenantId = true) : db.lockCount id tenantId ≠ 0 := by
  refine (List.length_pos_of_mem (List.mem_filter.mpr ⟨List.mem_of_find?_eq_some h, ?_⟩)).ne'
  simp [hscope, hheld]

/-- The intent of another tenant is not locked. -/
theorem filter_of_other (hunique : (db.paymentIntents.map (·.id)).Nodup) (h : db.paymentIntent id = some intent)
    (hscope : ¬ intent.inScope id tenantId = true) :
    db.paymentIntents.filter (fun r => r.inScope id tenantId && r.status = .authorized) = [] := by
  refine List.filter_eq_nil_iff.mpr fun r hr hlock => ?_
  have hin : r.inScope id tenantId = true := by
    simp only [Bool.and_eq_true] at hlock
    exact hlock.1
  have hid : r.id = intent.id := by
    have hintent : intent.id = id := by simpa using List.find?_some h
    simp only [PaymentIntent.inScope, decide_eq_true_eq] at hin
    exact hin.1.trans hintent.symm
  obtain rfl := List.inj_on_of_nodup_map hunique hr (List.mem_of_find?_eq_some h) hid
  exact hscope hin

theorem loadIntent_run (h : db.scopedIntent id tenantId = some intent) :
    (loadIntent id tenantId).run db w = (.ok (db.withLink intent), db, w) := by
  rw [loadIntent, Transaction.Job.bind_eq, Transaction.Job.run_bind, selectOnce, Transaction.Job.run_get, h]
  rfl

theorem loadIntent_calls : (loadIntent id tenantId).calls db w = [] := by
  rw [loadIntent, Transaction.Job.bind_eq, Transaction.Job.calls_bind, selectOnce, Transaction.Job.run_get]
  cases db.scopedIntent id tenantId with
  | none => rfl
  | some intent => rfl

end Statements

/-! ## The locked intent -/

section Locked

variable {β : Type} {rt : Runtime} {action : HoldAction} {verb : String} {id : Id} {tenantId : Option Id} {db : Db}
  {w : World} {intent : PaymentIntent} {f : IntentWithLink × String → Job β}

/-- `db` has the intent as PROCESSING. -/
structure IsLocked (db : Db) (id : Id) (tenantId : Option Id) (intent : PaymentIntent) : Prop where
  row : db.paymentIntent id = some intent
  processing : intent.status = .processing
  scope : intent.inScope id tenantId = true

theorem IsLocked.not_authorized (h : IsLocked db id tenantId intent) : ¬ db.statusOf id = some .authorized := by
  rw [Db.statusOf, h.row, Option.map_some, h.processing]
  simp

/-- Without a reference the intent is restored. -/
theorem restores_heldIntent_bare (h : IsLocked db id tenantId intent) (href : intent.providerRef.getD "" = "") :
    Restores action id ((heldIntent rt verb id tenantId).bind f) db w := by
  have hload : (loadIntent id tenantId).run db w = (.ok (db.withLink intent), db, w) :=
    loadIntent_run (find_of_paymentIntent h.row h.scope)
  have hnone : intent.providerRef = none ∨ intent.providerRef = some "" := by
    cases hr : intent.providerRef with
    | none => exact .inl rfl
    | some ref => rw [hr] at href; exact .inr (congrArg _ href)
  have hlink : (db.withLink intent).providerRef = intent.providerRef := rfl
  rw [heldIntent, Transaction.Job.bind_eq, Transaction.Job.bind_assoc, restores_bind_ok hload loadIntent_calls]
  obtain hnone | hnone := hnone
  · simp only [hlink, hnone]
    exact restores_revert (by rw [h.row]; rfl) _
  · simp only [hlink, hnone]
    exact restores_revert (by rw [h.row]; rfl) _

/-- With a reference it goes on to the configuration. -/
theorem restores_heldIntent_ref (h : IsLocked db id tenantId intent) (href : intent.providerRef.getD "" ≠ "") :
    Restores action id ((heldIntent rt verb id tenantId).bind f) db w ↔
      Restores action id
        (((match db.providerConfig intent.tenantId intent.provider with
          | none => .throw (Failure.appError 400 "PROVIDER_NOT_CONFIGURED" "Provider config missing")
          | some config =>
              (@Transaction.Job.ofExcept Backend _ (getAdapter rt intent.provider config.encryptedCredentials)).bind
                fun _ => .ret (db.withLink intent, intent.providerRef.getD "")) :
          Job (IntentWithLink × String)).bind f) db w := by
  have hload : (loadIntent id tenantId).run db w = (.ok (db.withLink intent), db, w) :=
    loadIntent_run (find_of_paymentIntent h.row h.scope)
  rw [heldIntent, Transaction.Job.bind_eq, Transaction.Job.bind_assoc, restores_bind_ok hload loadIntent_calls]
  have hlink : (db.withLink intent).providerRef = intent.providerRef := rfl
  split
  · rename_i heq
    rw [hlink.symm.trans heq] at href
    exact absurd rfl href
  · rename_i heq
    rw [hlink.symm.trans heq] at href
    exact absurd rfl href
  · rename_i ref _ heq
    rw [hlink.symm.trans heq, Transaction.Job.bind_eq, Transaction.Job.bind_assoc]
    exact restores_bind_ok (Transaction.Job.run_get _ _ _) rfl

/-- Without an adapter it is not. -/
theorem not_restores_heldIntent (h : IsLocked db id tenantId intent) (href : intent.providerRef.getD "" ≠ "")
    (hadapter : ¬ HasAdapter rt db intent) :
    ¬ Restores action id ((heldIntent rt verb id tenantId).bind f) db w := by
  rw [restores_heldIntent_ref h href]
  cases hconfig : db.providerConfig intent.tenantId intent.provider with
  | none => exact fun hrestored => h.not_authorized ((restores_throw _).mp hrestored)
  | some config =>
      dsimp only
      cases hget : getAdapter rt intent.provider config.encryptedCredentials with
      | error e => exact fun hrestored => h.not_authorized ((restores_throw _).mp hrestored)
      | ok adapter => exact absurd ⟨config, hconfig, adapter, hget⟩ hadapter

theorem restores_heldIntent (h : IsLocked db id tenantId intent) (href : intent.providerRef.getD "" ≠ "")
    (hadapter : HasAdapter rt db intent) :
    Restores action id ((heldIntent rt verb id tenantId).bind f) db w ↔
      Restores action id (f (db.withLink intent, intent.providerRef.getD "")) db w := by
  obtain ⟨config, hconfig, adapter, hget⟩ := hadapter
  rw [restores_heldIntent_ref h href, hconfig]
  dsimp only
  rw [hget]
  rfl

end Locked

/-! ## The actions -/

section Actions

variable {rt : Runtime} {id : Id} {tenantId : Option Id} {db : Db} {w : World} {intent : PaymentIntent}

theorem restores_finishCapture (h : (db.paymentIntent id).isSome) {link : IntentWithLink} {result : CommandResult}
    (hfailed : result.success = false) : Restores .capture id (finishCapture rt id link result) db w := by
  rw [finishCapture, hfailed]
  exact restores_revert h _

theorem restores_finishVoid (h : (db.paymentIntent id).isSome) {result : CommandResult}
    (hfailed : result.success = false) : Restores .void id (finishVoid id result) db w := by
  rw [finishVoid, hfailed]
  exact restores_revert h _

/-- What follows the call. -/
def afterCall (finish : CommandResult → Job PaymentIntentStatus) :
    Except String CommandResult → Job PaymentIntentStatus
  | .error message => .throw (.providerError message)
  | .ok result => finish result

/-- What a capture does with the locked intent it has loaded. -/
def captureLoaded (rt : Runtime) (id : Id) (held : IntentWithLink × String) : Job PaymentIntentStatus :=
  if !(resolveCharge held.1).1.truthy then
    (revertLock id).bind fun _ =>
      .throw (Failure.appError 400 "MISSING_AMOUNT" "Cannot determine amount to capture")
  else
    (@Transaction.Job.query Backend (.capturePayment (commandOf rt held.1 held.2))).bind
      (afterCall (finishCapture rt id held.1))

theorem captureHeld_eq : captureHeld rt id tenantId =
    (heldIntent rt "capture" id tenantId).bind (captureLoaded rt id) := by
  refine congrArg (Transaction.Job.bind _) (funext fun held => ?_)
  refine congrArg (ite _ _) (congrArg (Transaction.Job.bind _) (funext fun reply => ?_))
  cases reply with
  | error message => rfl
  | ok result => rfl

/-- What a void does once it has the lock. -/
def voidHeld (rt : Runtime) (id : Id) (tenantId : Option Id) : Job PaymentIntentStatus :=
  (heldIntent rt "cancel" id tenantId).bind fun held =>
    (@Transaction.Job.query Backend (.cancelPayment (commandOf rt held.1 held.2))).bind (afterCall (finishVoid id))

theorem voidIntent_eq : voidIntent rt id tenantId =
    (Transaction.Job.transaction (lockAuthorized id tenantId)).bind fun count =>
      if count = 0 then refuseAction "cancel" id tenantId else voidHeld rt id tenantId := by
  refine congrArg (Transaction.Job.bind _) (funext fun count => congrArg (ite _ _) ?_)
  refine congrArg (Transaction.Job.bind _) (funext fun held => ?_)
  refine congrArg (Transaction.Job.bind _) (funext fun reply => ?_)
  cases reply with
  | error message => rfl
  | ok result => rfl

/-- A refusal is restored, an exception is not. -/
theorem restores_afterCall {action : HoldAction} (h : IsLocked db id tenantId intent)
    (reply : Except String CommandResult) (finish : CommandResult → Job PaymentIntentStatus) {performs : Prop}
    (hperforms : ∀ result, reply = .ok result → result.success = true → performs)
    (hthrows : ∀ message, reply = .error message → ¬ performs)
    (hrefused : ∀ result : CommandResult, result.success = false → Restores action id (finish result) db w) :
    (¬ performs → Restores action id (afterCall finish reply) db w) ↔ ∀ message, reply ≠ .error message := by
  cases reply with
  | error message =>
      refine iff_of_false (fun hrestored => ?_) fun hanswers => hanswers message rfl
      exact h.not_authorized ((restores_throw _).mp (hrestored (hthrows message rfl)))
  | ok result =>
      refine iff_of_true (fun hnot => hrefused result ?_) fun _ herror => by cases herror
      exact Bool.eq_false_iff.mpr fun hsuccess => hnot (hperforms result rfl hsuccess)

theorem restores_capturePayment (h : IsLocked db id tenantId intent) {command : PaymentCommand}
    (finish : CommandResult → Job PaymentIntentStatus)
    (hrefused : ∀ w, ∀ result : CommandResult, result.success = false → Restores .capture id (finish result) db w) :
    Restores .capture id ((@Transaction.Job.query Backend (.capturePayment command)).bind (afterCall finish)) db w ↔
      ∀ message, HoldAction.answer w command .capture ≠ .error message := by
  rw [restores_query]
  refine restores_afterCall h (w.oracle w.clock (.capturePayment command)) finish (fun result hr hs => ?_)
    (fun message hr => ?_) (hrefused _)
  · rw [hr]; exact hs
  · rw [hr]; exact not_false

theorem restores_cancelPayment (h : IsLocked db id tenantId intent) {command : PaymentCommand}
    (finish : CommandResult → Job PaymentIntentStatus)
    (hrefused : ∀ w, ∀ result : CommandResult, result.success = false → Restores .void id (finish result) db w) :
    Restores .void id ((@Transaction.Job.query Backend (.cancelPayment command)).bind (afterCall finish)) db w ↔
      ∀ message, HoldAction.answer w command .void ≠ .error message := by
  rw [restores_query]
  refine restores_afterCall h (w.oracle w.clock (.cancelPayment command)) finish (fun result hr hs => ?_)
    (fun message hr => ?_) (hrefused _)
  · rw [hr]; exact hs
  · rw [hr]; exact not_false

/-- What a locked capture does. -/
theorem restores_captureHeld (h : IsLocked db id tenantId intent) :
    Restores .capture id (captureHeld rt id tenantId) db w ↔ CanRestore rt .capture db w intent := by
  have hrow : (db.paymentIntent id).isSome := by rw [h.row]; rfl
  rw [captureHeld_eq, CanRestore]
  by_cases href : intent.providerRef.getD "" = ""
  · exact iff_of_true (restores_heldIntent_bare h href) (.inl href)
  by_cases hadapter : HasAdapter rt db intent
  · rw [restores_heldIntent h href hadapter, or_iff_right href, and_iff_right hadapter, captureLoaded]
    cases hamount : (resolveCharge (db.withLink intent)).1.truthy with
    | false => exact iff_of_true (restores_revert hrow _) (.inl ⟨rfl, hamount⟩)
    | true =>
        have hneeds : ¬ HoldAction.NeedsAmount .capture (db.withLink intent) := fun hn => by
          rw [hn.2] at hamount
          cases hamount
        rw [or_iff_right hneeds, Bool.not_true, if_neg Bool.false_ne_true]
        exact restores_capturePayment h (finishCapture rt id _) fun _ _ => restores_finishCapture hrow
  · exact iff_of_false (not_restores_heldIntent h href hadapter) fun hc => hadapter (hc.resolve_left href).1

/-- What a locked void does. -/
theorem restores_voidHeld (h : IsLocked db id tenantId intent) :
    Restores .void id (voidHeld rt id tenantId) db w ↔ CanRestore rt .void db w intent := by
  have hrow : (db.paymentIntent id).isSome := by rw [h.row]; rfl
  rw [voidHeld, CanRestore]
  by_cases href : intent.providerRef.getD "" = ""
  · exact iff_of_true (restores_heldIntent_bare h href) (.inl href)
  by_cases hadapter : HasAdapter rt db intent
  · have hneeds : ¬ HoldAction.NeedsAmount .void (db.withLink intent) := fun hn => by cases hn.1
    rw [restores_heldIntent h href hadapter, or_iff_right href, and_iff_right hadapter, or_iff_right hneeds]
    exact restores_cancelPayment h (finishVoid id) fun _ _ => restores_finishVoid hrow
  · exact iff_of_false (not_restores_heldIntent h href hadapter) fun hc => hadapter (hc.resolve_left href).1

/-- Once the intent is locked. -/
theorem isLocked (h : db.paymentIntent id = some intent) (hheld : intent.status = .authorized)
    (hscope : intent.inScope id tenantId = true) :
    IsLocked (db.locked id tenantId) id tenantId { intent with status := .processing } :=
  ⟨by rw [paymentIntent_locked, h]; simp [hscope, hheld], rfl, hscope⟩

/-- The lock changes nothing that the condition looks at. -/
theorem canRestore_locked {action : HoldAction} (tenantId : Option Id) :
    CanRestore rt action (db.locked id tenantId) w { intent with status := .processing } ↔
      CanRestore rt action db w intent := Iff.rfl

/-- What follows the lock of an intent that is AUTHORIZED. -/
theorem restores_locked {action : HoldAction} {verb : String} {held : Job PaymentIntentStatus}
    (h : db.paymentIntent id = some intent) (hheld : intent.status = .authorized)
    (hscope : intent.inScope id tenantId = true) :
    Restores action id ((Transaction.Job.transaction (lockAuthorized id tenantId)).bind fun count =>
        if count = 0 then refuseAction verb id tenantId else held) db w ↔
      Restores action id held (db.locked id tenantId) w := by
  rw [restores_bind_ok lockAuthorized_run rfl, if_neg (lockCount_ne_zero h hheld hscope)]

/-- The intent of another tenant is left as it is. -/
theorem restores_other {action : HoldAction} {verb : String} {held : Job PaymentIntentStatus}
    (hunique : (db.paymentIntents.map (·.id)).Nodup) (h : db.paymentIntent id = some intent)
    (hheld : intent.status = .authorized) (hscope : ¬ intent.inScope id tenantId = true) :
    Restores action id ((Transaction.Job.transaction (lockAuthorized id tenantId)).bind fun count =>
        if count = 0 then refuseAction verb id tenantId else held) db w := by
  have hnone := filter_of_other hunique h hscope
  have hsame : db.locked id tenantId = db := by
    have hid : ∀ r ∈ db.paymentIntents,
        (if r.inScope id tenantId && r.status = .authorized then { r with status := .processing } else r) = r :=
      fun r hr => if_neg (List.filter_eq_nil_iff.mp hnone r hr)
    rw [Db.locked, List.map_congr_left hid, List.map_id']
  rw [restores_bind_ok lockAuthorized_run rfl, if_pos (by rw [Db.lockCount, hnone]; rfl), hsame, refuseAction,
    Transaction.Job.bind_eq, restores_bind_ok (Transaction.Job.run_get _ _ _) rfl]
  have hstatus : db.statusOf id = some .authorized := by rw [Db.statusOf, h, Option.map_some, hheld]
  split
  · exact (restores_throw _).mpr hstatus
  · exact (restores_throw _).mpr hstatus

/-- An AUTHORIZED intent is restored after everything that the provider did not perform, if and only if the
condition holds. -/
theorem restores_iff (action : HoldAction) (hunique : (db.paymentIntents.map (·.id)).Nodup)
    (h : db.paymentIntent id = some intent) (hheld : intent.status = .authorized) :
    Restores action id (action.job rt id tenantId) db w ↔
      (intent.inScope id tenantId = true → CanRestore rt action db w intent) := by
  by_cases hscope : intent.inScope id tenantId = true
  · have hlocked := isLocked h hheld hscope
    rw [← canRestore_locked tenantId, forall_prop_of_true hscope]
    cases action with
    | capture => exact (restores_locked h hheld hscope).trans (restores_captureHeld hlocked)
    | void =>
        rw [HoldAction.job, voidIntent_eq]
        exact (restores_locked h hheld hscope).trans (restores_voidHeld hlocked)
  · refine iff_of_true ?_ fun hin => absurd hin hscope
    cases action with
    | capture => exact restores_other hunique h hheld hscope
    | void =>
        rw [HoldAction.job, voidIntent_eq]
        exact restores_other hunique h hheld hscope

end Actions

/-! ## A held intent -/

/-- A world whose providers refuse every command. -/
def World.refusing : World :=
  { World.counting with
    oracle := fun n q =>
      match q with
      | .capturePayment _ => .ok ⟨false, none⟩
      | .cancelPayment _ => .ok ⟨false, none⟩
      | q => World.counting.oracle n q }

/-- A capture that the provider refuses leaves the intent AUTHORIZED. -/
theorem restores_iff_refused :
    Restores .capture 7 (HoldAction.capture.job readingRuntime 7 (some 1)) (vpsDb .authorized) .refusing ∧
      ((HoldAction.capture.job readingRuntime 7 (some 1)).run (vpsDb .authorized) .refusing).2.1.statusOf 7 =
        some .authorized := by
  refine ⟨(restores_iff .capture (by decide) rfl rfl).mpr fun _ => .inr ⟨?_, .inr ?_⟩, by rfl⟩
  · exact ⟨⟨1, .vps, "key of 1", .connected⟩, rfl, _, rfl⟩
  · intro message h
    cases h

/-- A tenant whose provider is not configured any more: the capture leaves the intent PROCESSING. -/
theorem not_restores :
    ¬ ∀ (rt : Runtime) (action : HoldAction) (id : Id) (tenantId : Option Id) (db : Db) (w : World)
        (intent : PaymentIntent), (db.paymentIntents.map (·.id)).Nodup → db.paymentIntent id = some intent →
      intent.status = .authorized → Restores action id (action.job rt id tenantId) db w := by
  intro h
  have hrestored := h readingRuntime .capture 7 (some 1) { vpsDb .authorized with providerConfigs := [] } .counting _
    (by decide) rfl rfl fun call hcall => absurd hcall (by exact List.not_mem_nil)
  exact absurd hrestored (by decide +kernel)

end CorpoPay.Settlement
