import CorpoPay.Settlement.Lemmas.ChargeTerms
import CorpoPay.Settlement.Theorems.Restored
import CorpoPay.Transaction.Turns

/-!
# Main theorem: captures and voids side by side

The lock of a capture or a void is the status of the intent, which the other requests write too. The calls exclude each
other in every run where no other request sets the intent to AUTHORIZED or to a terminal status while a call has it.
-/

namespace CorpoPay.Settlement

open Transaction.Tx
open Transaction (Pool Turn)
open Transaction.Turn (done_get_bind done_ofExcept done_transaction working_get_bind working_ofExcept_bind
  working_transaction_bind)

/-! ## The intent as a lock -/

def PaymentIntent.key (r : PaymentIntent) : Id × Id := (r.id, r.tenantId)

/-- The intent among rows with the keys. -/
def intentTurn (keys : List (Id × Id)) (id : Id) : Turn Backend (Option PaymentIntentStatus) where
  lock := .paymentIntent id
  status db := db.statusOf id
  free := some .authorized
  final s := ∃ status ∈ PaymentIntentStatus.TERMINAL, s = some status
  inv db := db.paymentIntents.map PaymentIntent.key = keys

theorem not_final_free (keys : List (Id × Id)) (id : Id) : ¬ (intentTurn keys id).final (intentTurn keys id).free := by
  rintro ⟨status, hterminal, hfree⟩
  cases hfree
  revert hterminal
  decide

section Entry

variable {keys : List (Id × Id)} {id : Id} {tenantId : Option Id} {db db' : Db}

theorem nodup_ids (hkeys : (keys.map Prod.fst).Nodup) (h : db.paymentIntents.map PaymentIntent.key = keys) :
    (db.paymentIntents.map (·.id)).Nodup := by
  rw [← h, List.map_map] at hkeys
  exact hkeys

/-- A row that is counted is the intent. -/
theorem statusOf_of_lockCount (hunique : (db.paymentIntents.map (·.id)).Nodup) (h : db.lockCount id tenantId ≠ 0) :
    db.statusOf id = some .authorized ∧ ∃ r ∈ db.paymentIntents, r.inScope id tenantId = true := by
  obtain ⟨r, hr⟩ := List.exists_mem_of_length_pos (Nat.pos_of_ne_zero h)
  obtain ⟨hmem, hheld⟩ := List.mem_filter.mp hr
  obtain ⟨hscope, hstatus⟩ := Bool.and_eq_true_iff.mp hheld
  have hid : r.id = id := (of_decide_eq_true hscope).1
  refine ⟨?_, r, hmem, hscope⟩
  rw [← hid, statusOf_of_mem hunique hmem, of_decide_eq_true hstatus]

/-- The intent stays in the scope of the call. -/
theorem inScope_of_key {r r' : PaymentIntent} (hkey : r'.key = r.key) (h : r.inScope id tenantId = true) :
    r'.inScope id tenantId = true := by
  obtain ⟨hid, htenant⟩ := Prod.mk.inj hkey
  simp only [PaymentIntent.inScope, decide_eq_true_eq] at h ⊢
  rwa [hid, htenant]

/-- Of an intent in scope that is not closed, the lock makes one that is neither AUTHORIZED nor closed. -/
theorem statusOf_locked {r : PaymentIntent} (hr : db.paymentIntent id = some r) (hscope : r.inScope id tenantId = true)
    (hfinal : ¬ (intentTurn keys id).final (db.statusOf id)) :
    (db.locked id tenantId).statusOf id ≠ some .authorized ∧
      ¬ (intentTurn keys id).final ((db.locked id tenantId).statusOf id) := by
  have hlocked := paymentIntent_locked db id tenantId
  rw [hr, Option.map_some] at hlocked
  by_cases hheld : r.status = .authorized
  · rw [if_pos (by simp [hscope, hheld])] at hlocked
    rw [Db.statusOf, hlocked, Option.map_some]
    refine ⟨by simp, ?_⟩
    rintro ⟨status, hterminal, hs⟩
    obtain rfl : .processing = status := Option.some.inj hs
    revert hterminal
    decide
  · rw [if_neg (by simp [hheld])] at hlocked
    have hsame : (db.locked id tenantId).statusOf id = db.statusOf id := by rw [Db.statusOf, Db.statusOf, hlocked, hr]
    rw [hsame]
    refine ⟨?_, hfinal⟩
    rw [Db.statusOf, hr, Option.map_some]
    exact fun hs => hheld (Option.some.inj hs)

/-- The lock statement of a call. -/
def lockEntry (hkeys : (keys.map Prod.fst).Nodup) (id : Id) (tenantId : Option Id) : (intentTurn keys id).Entry where
  count db := db.lockCount id tenantId
  take db := db.locked id tenantId
  take_other db hfree := by
    show (db.locked id tenantId).statusOf id = db.statusOf id
    rw [Db.statusOf, paymentIntent_locked, Option.map_map, Db.statusOf]
    refine Option.map_congr fun r hr => ?_
    have hstatus : r.status ≠ .authorized := fun hs => hfree (by
      show db.statusOf id = some .authorized
      rw [Db.statusOf, hr, Option.map_some, hs])
    rw [Function.comp_apply, if_neg (by simp [hstatus])]
  counted db hdb hcount := by
    obtain ⟨hfree, r, hmem, hscope⟩ := statusOf_of_lockCount (nodup_ids hkeys hdb) hcount
    refine ⟨hfree, fun db' hdb' hfinal => ?_⟩
    have hkey : r.key ∈ db'.paymentIntents.map PaymentIntent.key := by
      rw [show db'.paymentIntents.map _ = keys from hdb', ← show db.paymentIntents.map _ = keys from hdb]
      exact List.mem_map_of_mem hmem
    obtain ⟨r', hmem', hkey'⟩ := List.mem_map.mp hkey
    have hid : r'.id = id := (of_decide_eq_true (inScope_of_key hkey' hscope)).1
    obtain ⟨row, hrow⟩ : ∃ row, db'.paymentIntent id = some row :=
      Option.isSome_iff_exists.mp (List.find?_isSome.mpr ⟨r', hmem', by simpa using hid⟩)
    have hrowid : row.id = r'.id := by
      have := List.find?_some hrow
      simp only [decide_eq_true_eq] at this
      rw [this, hid]
    obtain rfl := List.inj_on_of_nodup_map (nodup_ids hkeys hdb') (List.mem_of_find?_eq_some hrow) hmem' hrowid
    exact statusOf_locked hrow (inScope_of_key hkey' hscope) hfinal

end Entry

/-! ## The calls -/

section Calls

variable {keys : List (Id × Id)} {i : Id} {rt : Runtime} {α : Type}

theorem keeps_of_commits {ms : List Movement} {v : Db → Db} (h : Commits ms id v) : (intentTurn keys i).Keeps v := by
  intro db
  show (v db).statusOf i = db.statusOf i
  rw [Db.statusOf, Db.paymentIntent, h.paymentIntents, List.map_id]
  rfl

theorem done_settleCharge (t intentId : Id) (charge : Charge) :
    (intentTurn keys i).Done (settleCharge t intentId charge) := by
  have hrefuse : (intentTurn keys i).Done (refuseSettlement t intentId) := by
    refine done_transaction ?_
    simp only [bind_eq, pure_eq, writes_bind, writes_get]
    exact fun _ => writes_ite _ (fun _ => keeps_of_commits commits_nothing) fun _ => trivial
  have hsettle : ∀ input, (intentTurn keys i).Done (settleCapture t input) := by
    intro input
    unfold settleCapture
    split_ifs
    · trivial
    · refine done_transaction ?_
      simp only [bind_eq, pure_eq, writes_bind, writes_get]
      refine fun _ => writes_ite _ (fun _ => keeps_of_commits commits_nothing) fun _ => commits_settleCapture.mono ?_
      rintro v _ ⟨cp, hv⟩
      exact keeps_of_commits hv
  unfold settleCharge
  split
  · exact hsettle _
  · split_ifs
    · trivial
    · exact hrefuse
  · exact hrefuse

/-- The intent is set back, and the call fails. -/
theorem working_revert (intentId : Id) (e : Failure) :
    (intentTurn keys i).Working ((revertLock intentId).bind fun _ => (.throw e : Job α)) :=
  working_transaction_bind fun _ => trivial

theorem working_heldIntent_bind {verb : String} {intentId : Id} {tenantId : Option Id}
    {f : IntentWithLink × String → Job α} (hf : ∀ held, (intentTurn keys i).Working (f held)) :
    (intentTurn keys i).Working ((heldIntent rt verb intentId tenantId).bind f) := by
  rw [heldIntent, loadIntent, Transaction.Job.bind_eq, Transaction.Job.bind_eq, Transaction.Job.bind_assoc,
    Transaction.Job.bind_assoc]
  refine working_get_bind fun found => ?_
  cases found with
  | none => trivial
  | some intent =>
      show (intentTurn keys i).Working (Transaction.Job.bind _ f)
      split
      · rw [Transaction.Job.bind_eq, Transaction.Job.bind_assoc]
        exact working_revert _ _
      · rw [Transaction.Job.bind_eq, Transaction.Job.bind_assoc]
        exact working_revert _ _
      · rw [Transaction.Job.bind_eq, Transaction.Job.bind_assoc]
        refine working_get_bind fun config => ?_
        cases config with
        | none => trivial
        | some config =>
            dsimp only
            rw [Transaction.Job.bind_eq, Transaction.Job.bind_assoc]
            exact working_ofExcept_bind fun _ => hf _

theorem working_finishCapture (intentId : Id) (intent : IntentWithLink) (result : CommandResult) :
    (intentTurn keys i).Working (finishCapture rt intentId intent result) := by
  unfold finishCapture
  split_ifs
  · exact working_revert _ _
  · refine working_transaction_bind fun _ => ?_
    dsimp only
    split_ifs
    · exact (done_settleCharge _ _ _).bind fun _ => trivial
    · trivial

theorem working_finishVoid (intentId : Id) (result : CommandResult) :
    (intentTurn keys i).Working (finishVoid intentId result) := by
  unfold finishVoid
  split_ifs
  · exact working_revert _ _
  · exact working_transaction_bind fun _ => trivial

theorem working_afterCall {finish : CommandResult → Job PaymentIntentStatus}
    (h : ∀ result, (intentTurn keys i).Working (finish result)) (answer : Except String CommandResult) :
    (intentTurn keys i).Working (afterCall finish answer) := by
  cases answer with
  | error message => trivial
  | ok result => exact h result

theorem working_captureHeld (intentId : Id) (tenantId : Option Id) :
    (intentTurn keys i).Working (captureHeld rt intentId tenantId) := by
  rw [captureHeld_eq]
  refine working_heldIntent_bind fun held => ?_
  unfold captureLoaded
  split_ifs
  · exact working_revert _ _
  · exact fun answer => working_afterCall (working_finishCapture _ _) answer

theorem working_voidHeld (intentId : Id) (tenantId : Option Id) :
    (intentTurn keys i).Working (voidHeld rt intentId tenantId) :=
  working_heldIntent_bind fun _ answer => working_afterCall (working_finishVoid _) answer

theorem done_refuseAction (verb : String) (intentId : Id) (tenantId : Option Id) :
    (intentTurn keys i).Done (refuseAction verb intentId tenantId : Job α) := by
  refine done_get_bind fun found => ?_
  cases found with
  | none => trivial
  | some existing => trivial

/-- A call takes the intent in its first statement. -/
theorem client_of_locks (hkeys : (keys.map Prod.fst).Nodup) {verb : String} {tenantId : Option Id}
    {held : Job PaymentIntentStatus} (hheld : (intentTurn keys i).Working held) :
    (intentTurn keys i).Client (discard ((transaction (lockAuthorized i tenantId)).bind fun count =>
      if count = 0 then refuseAction verb i tenantId else held)) := by
  have hdiscard : ∀ {j : Job PaymentIntentStatus}, (intentTurn keys i).Done j → (intentTurn keys i).Done (discard j) :=
    fun h => h.bind fun _ => trivial
  refine ⟨lockEntry hkeys i tenantId, discard (refuseAction verb i tenantId), discard held, ?_,
    hdiscard (done_refuseAction _ _ _), Turn.Working.bind hheld fun _ => trivial⟩
  refine congrArg (Transaction.Job.txn _) (funext fun r => ?_)
  cases r with
  | error e => rfl
  | ok count => exact apply_ite discard _ _ _

end Calls

/-! ## Runs -/

/-- The request is a capture or a void of the intent. -/
def Request.IsCall (id : Id) : Request → Prop
  | .capture intentId _ => intentId = id
  | .void intentId _ => intentId = id
  | _ => False

theorem client_of_isCall {keys : List (Id × Id)} (hkeys : (keys.map Prod.fst).Nodup) {id : Id} (rt : Runtime)
    {request : Request} (h : request.IsCall id) : (intentTurn keys id).Client (request.job rt) := by
  cases request with
  | capture intentId tenantId =>
      obtain rfl : intentId = id := h
      exact client_of_locks hkeys (working_captureHeld _ _)
  | void intentId tenantId =>
      obtain rfl : intentId = id := h
      rw [Request.job, voidIntent_eq]
      exact client_of_locks hkeys (working_voidHeld _ _)
  | _ => exact h.elim

/-- The keys of the intents stay. -/
theorem KeepsTerms.keys {v : Db → Db} (h : KeepsTerms v) (db : Db) :
    (v db).paymentIntents.map PaymentIntent.key = db.paymentIntents.map PaymentIntent.key := by
  obtain ⟨f, hv, hf⟩ := h.intents
  rw [hv, List.map_map]
  refine List.map_congr_left fun r _ => ?_
  rw [Function.comp_apply, hf r]
  rfl

/-- Only the call that has the intent is about to call the provider, and no call changes a terminal status. -/
structure CallsExclude {ι : Type} [DecidableEq ι] (requests : ι → Request) (T : Turn Backend (Option PaymentIntentStatus))
    (id : Id) (p : Pool Backend ι Unit) : Prop where
  alone : ∀ i j q k, (requests i).IsCall id → (requests j).IsCall id → p.Holds T i →
    (p.threads j).phase = .between (.ask q k) → j = i
  keeps : ∀ i p' status, (requests i).IsCall id → p.Step i p' → status ∈ PaymentIntentStatus.TERMINAL →
    p.shared.store.statusOf id = some status → p'.shared.store.statusOf id = some status

/-- Any number of requests of all kinds. The condition on a step of a request that is no call is that it sets the intent
neither to AUTHORIZED nor to a terminal status while a call has the intent or its row. -/
theorem calls_exclude {ι : Type} [DecidableEq ι] {rt : Runtime} {requests : ι → Request} {id : Id} {db : Db} {w : World}
    (hunique : (db.paymentIntents.map (·.id)).Nodup) {p : Pool Backend ι Unit}
    (hp : Pool.ReachableIf
      (Pool.Respects (intentTurn (db.paymentIntents.map PaymentIntent.key) id) fun i => (requests i).IsCall id)
      (Pool.init (fun i => (requests i).job rt) db w) p) :
    CallsExclude requests (intentTurn (db.paymentIntents.map PaymentIntent.key) id) id p := by
  have hkeys : ((db.paymentIntents.map PaymentIntent.key).map Prod.fst).Nodup := by
    rw [List.map_map]
    exact hunique
  have hinv : ∀ p, Pool.Reachable (Pool.init (fun i => (requests i).job rt) db w) p →
      (intentTurn (db.paymentIntents.map PaymentIntent.key) id).inv p.shared.store := fun p hp =>
    Pool.inv_of_does (J := fun σ : Transaction.Shared Backend => σ.store.paymentIntents.map PaymentIntent.key = _)
      (fun i => keepsTerms_request (requests i)) (fun v σ hv hσ => (hv.keys σ.store).trans hσ) (fun _ _ _ hσ => hσ) rfl hp
  have hfinal := not_final_free (db.paymentIntents.map PaymentIntent.key) id
  have hturns := Pool.takesTurns hfinal (fun i hi => client_of_isCall hkeys rt hi) hinv hp
  refine ⟨fun i j q k hi hj hholds hphase => hturns.alone j i hj hi (hturns.holds_of_ask hj hphase) hholds, ?_⟩
  intro i p' status hi hstep hterminal hstatus
  have hclosed : (intentTurn (db.paymentIntents.map PaymentIntent.key) id).final (p.shared.store.statusOf id) :=
    ⟨status, hterminal, hstatus⟩
  exact (hturns.keeps_final hstep hi hfinal (hinv p (Pool.ReachableIf.reachable hp)) hclosed).trans hstatus

/-! ## Two captures -/

/-- The provider reports what it holds as authorized. -/
def World.reporting : World :=
  { World.counting with
    oracle := fun n q =>
      match q with
      | .queryTransactionStatus _ _ => .ok .authorized
      | q => World.counting.oracle n q }

/-- A status query finds the intent authorized, the merchant captures it twice, and there is a query at the end. -/
def capturesAmidQueries (i : Fin 4) : Request :=
  if i.val = 1 ∨ i.val = 2 then .capture 7 (some 1) else .status 1 7

theorem isCall_capturesAmidQueries (i : Fin 4) : (capturesAmidQueries i).IsCall 7 ↔ i.val = 1 ∨ i.val = 2 := by
  unfold capturesAmidQueries
  split_ifs with h
  · exact iff_of_true rfl h
  · exact iff_of_false (fun hcall => hcall) h

/-- A query that finds the intent in another status has come before the captures. -/
def beforeCaptures (p : Pool Backend (Fin 4) Unit) (i : Fin 4) (p' : Pool Backend (Fin 4) Unit) : Bool :=
  (i.val = 1 ∨ i.val = 2) || p'.shared.store.statusOf 7 = p.shared.store.statusOf 7 ||
    ([1, 2] : List (Fin 4)).all fun j => (p.threads j).pc = 0 && p.owner (.paymentIntent 7) ≠ some j

theorem respects_of_beforeCaptures {keys : List (Id × Id)} {p p' : Pool Backend (Fin 4) Unit} {i : Fin 4}
    (h : beforeCaptures p i p' = true) :
    Pool.Respects (intentTurn keys 7) (fun i => (capturesAmidQueries i).IsCall 7) p i p' := by
  rintro hforeign ⟨j, hj, hclaimed⟩ hchanged
  have hsame : p'.shared.store.statusOf 7 ≠ p.shared.store.statusOf 7 := hchanged
  have hother : ¬ (i.val = 1 ∨ i.val = 2) := fun hcall => hforeign ((isCall_capturesAmidQueries i).mpr hcall)
  rw [beforeCaptures, Bool.or_eq_true, Bool.or_eq_true, decide_eq_true_eq, decide_eq_true_eq, or_iff_right hother,
    or_iff_right hsame, List.all_eq_true] at h
  have hmem : j ∈ ([1, 2] : List (Fin 4)) := by
    rcases (isCall_capturesAmidQueries j).mp hj with hj | hj <;> simp [Fin.ext_iff, hj]
  have hstart := h j hmem
  rw [Bool.and_eq_true, decide_eq_true_eq, decide_eq_true_eq] at hstart
  rcases hclaimed with hheld | hholds
  · exact absurd hheld hstart.2
  · have hlate : 5 ≤ (p.threads j).pc := hholds.1
    omega

/-- The second capture is refused. -/
theorem calls_exclude_captures : ∃ p, Pool.ReachableIf
      (Pool.Respects (intentTurn ((vpsDb .requiresAction).paymentIntents.map PaymentIntent.key) 7)
        fun i => (capturesAmidQueries i).IsCall 7)
      (Pool.init (fun i => (capturesAmidQueries i).job readingRuntime) (vpsDb .requiresAction) .reporting) p ∧
    p.shared.world.captures.length = 1 ∧ (∀ i, (p.threads i).phase.Finished) ∧
    CallsExclude capturesAmidQueries (intentTurn ((vpsDb .requiresAction).paymentIntents.map PaymentIntent.key) 7) 7 p := by
  obtain ⟨p, hp, hend⟩ := Pool.ReachableIf.exists_of_check
    (Pool.init (fun i => (capturesAmidQueries i).job readingRuntime) (vpsDb .requiresAction) .reporting)
    (List.replicate 12 0 ++ List.replicate 11 1 ++ List.replicate 8 2 ++ List.replicate 57 1 ++ List.replicate 3 3)
    (fun p => p.shared.world.captures.length = 1 ∧ ∀ i, (p.threads i).phase.Finished)
    beforeCaptures (fun _ _ _ _ => respects_of_beforeCaptures) (by decide +kernel)
  exact ⟨p, hp, (of_decide_eq_true hend).1, (of_decide_eq_true hend).2, calls_exclude (by decide) hp⟩

/-- A capture, a status query, and a capture again. -/
def captureAfterQuery : Fin 3 → Request
  | 0 => .capture 7 (some 1)
  | 1 => .status 1 7
  | 2 => .capture 7 (some 1)

/-- The thread is about to call the outside world. -/
def atCall (ph : Transaction.Phase Backend Unit) : Bool :=
  match ph with
  | .between (.ask _ _) => true
  | _ => false

theorem exists_of_atCall {ph : Transaction.Phase Backend Unit} (h : atCall ph = true) :
    ∃ q k, ph = .between (.ask q k) := by
  match ph, h with
  | .between (.ask q k), _ => exact ⟨q, k, rfl⟩

/-- While the first capture has the intent, the query sets it back to AUTHORIZED, and both captures reach the provider. -/
theorem not_calls_exclude :
    ¬ ∀ (rt : Runtime) (requests : Fin 3 → Request) (id : Id) (db : Db) (w : World),
      (db.paymentIntents.map (·.id)).Nodup → ∀ p, Pool.Reachable (Pool.init (fun i => (requests i).job rt) db w) p →
        CallsExclude requests (intentTurn (db.paymentIntents.map PaymentIntent.key) id) id p := by
  intro h
  obtain ⟨p, hp, hend⟩ := Pool.ReachableIf.exists_of_runSchedule
    (Pool.init (fun i => (captureAfterQuery i).job readingRuntime) (vpsDb .authorized) .reporting)
    (List.replicate 11 0 ++ List.replicate 12 1 ++ List.replicate 11 2)
    (fun p => 5 ≤ (p.threads 0).pc ∧ atCall (p.threads 0).phase = true ∧ atCall (p.threads 2).phase = true)
    (fun _ _ _ => trivial) (by rfl)
  obtain ⟨hpc, hfirst, hsecond⟩ := of_decide_eq_true hend
  obtain ⟨q, k, hfirst⟩ := exists_of_atCall hfirst
  obtain ⟨q', k', hsecond⟩ := exists_of_atCall hsecond
  have hholds : p.Holds (intentTurn ((vpsDb .authorized).paymentIntents.map PaymentIntent.key) 7) 0 :=
    ⟨hpc, by rw [hfirst]; exact id⟩
  have hsame := (h readingRuntime captureAfterQuery 7 (vpsDb .authorized) .reporting (by decide) p hp).alone 0 2 q' k'
    rfl rfl hholds hsecond
  cases hsame

end CorpoPay.Settlement
