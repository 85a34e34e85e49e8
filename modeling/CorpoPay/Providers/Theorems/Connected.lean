import CorpoPay.Providers.Theorems.TestMode
import CorpoPay.Transaction.OneByOne

/-!
# What is connected was tested

A provider is CONNECTED once its credentials passed a test. Requests that run one after the other keep that, as long as nothing
is disabled that was not connected, and nothing is saved over what is disabled. The first is needed: what is disabled can be
enabled, so it has to have passed.
-/

namespace CorpoPay.Providers

open Settlement (Json Provider ProviderConfigStatus)
open Transaction (AllowedAll leaves_runAll runAll runAll_append)
open Transaction.Job (ensures_bind ensures_get ensures_ofExcept_bind ensures_query ensures_transaction run_bind run_bind_ok
  run_get run_ofExcept_bind)

variable {α : Type} {rt : ConfigRuntime} {passed : List (Provider × String)} {db : Db} {w : World} {tenantId id : String}
  {row : ProviderConfig}

/-! ## Rows -/

/-- What is connected, or was before it was disabled, has passed. -/
structure Tested (passed : List (Provider × String)) (db : Db) : Prop where
  distinct : (db.providerConfigs.map (·.id)).Nodup
  rows : ∀ r ∈ db.providerConfigs, r.status = .connected ∨ r.status = .disabled →
    (r.provider, r.encryptedCredentials) ∈ passed

theorem Tested.more {passed' : List (Provider × String)} (h : Tested passed db) (hmore : passed ⊆ passed') : Tested passed' db :=
  ⟨h.distinct, fun r hr hstatus => hmore (h.rows r hr hstatus)⟩

theorem Tested.insert (h : Tested passed db) (hid : db.hasId row.id = false) (hstatus : row.status = .missing) :
    Tested passed (db.insert row) := by
  have hnew : ∀ r ∈ db.providerConfigs, r.id ≠ row.id := by simpa [Db.hasId] using hid
  refine ⟨?_, fun r hr hof => ?_⟩
  · simp only [Db.insert, List.map_append, List.map_cons, List.map_nil]
    refine List.nodup_append.mpr ⟨h.distinct, List.nodup_singleton _, fun a ha b hb => ?_⟩
    obtain ⟨r, hr, rfl⟩ := List.mem_map.mp ha
    rw [List.mem_singleton.mp hb]
    exact hnew r hr
  · rcases List.mem_append.mp hr with hr | hr
    · exact h.rows r hr hof
    · rw [List.mem_singleton.mp hr, hstatus] at hof
      simp at hof

theorem Tested.update (h : Tested passed db) (hrow : row ∈ db.providerConfigs) {f : ProviderConfig → ProviderConfig}
    (hid : ∀ r, (f r).id = r.id)
    (hf : (f row).status = .connected ∨ (f row).status = .disabled → ((f row).provider, (f row).encryptedCredentials) ∈ passed) :
    Tested passed (db.update row.id f) := by
  have hids : ((db.update row.id f).providerConfigs.map (·.id)) = db.providerConfigs.map (·.id) := by
    simp only [Db.update, List.map_map]
    refine List.map_congr_left fun r _ => ?_
    dsimp only [Function.comp_apply]
    split_ifs
    · exact hid r
    · rfl
  refine ⟨hids ▸ h.distinct, fun r hr hof => ?_⟩
  obtain ⟨r₀, hr₀, rfl⟩ := List.mem_map.mp hr
  by_cases hsame : r₀.id = row.id
  · obtain rfl := List.inj_on_of_nodup_map h.distinct hr₀ hrow hsame
    simp only [if_true] at hof ⊢
    exact hf hof
  · simp only [hsame, if_false] at hof ⊢
    exact h.rows r₀ hr₀ hof

theorem Tested.delete (h : Tested passed db) : Tested passed (db.delete id) :=
  ⟨h.distinct.sublist (List.filter_sublist.map _), fun r hr => h.rows r (List.mem_filter.mp hr).1⟩

theorem mem_of_providerConfig (h : db.providerConfig tenantId id = some row) : row ∈ db.providerConfigs ∧ row.id = id := by
  have hfound := List.find?_some h
  exact ⟨List.mem_of_find?_eq_some h, (of_decide_eq_true hfound).1⟩

/-! ## Requests -/

/-- Nothing is disabled that was not connected, and nothing is saved over what is disabled. -/
def Careful (rt : ConfigRuntime) : ConfigRequest → Db → Prop
  | .save tenantId body, db => ∀ input, readBody rt body = .ok input →
      ∀ row ∈ db.ofProvider tenantId input.provider, row.status ≠ .disabled
  | .toggle tenantId id body, db => parseEnabled rt body = .ok false →
      ∀ row ∈ db.providerConfig tenantId id, row.status = .connected ∨ row.status = .disabled
  | .list _, _ | .test _ _, _ | .remove _ _, _ => True

theorem ensures_setStatus {status : ProviderConfigStatus} (hdb : Tested passed db) (hrow : row ∈ db.providerConfigs)
    (hstatus : status = .connected ∨ status = .disabled → (row.provider, row.encryptedCredentials) ∈ passed) :
    (transaction (setStatus row.id status)).Ensures (fun _ db' => Tested passed db') db := by
  refine (ensures_transaction _).mpr ?_
  simp only [setStatus, Transaction.Tx.bind_eq, Transaction.Tx.ensures_bind, Transaction.Tx.ensures_acquire,
    Transaction.Tx.ensures_get, Transaction.Tx.ensures_ite, Transaction.Tx.ensures_throw, Transaction.Tx.ensures_modify]
  exact ⟨fun _ => hdb.update hrow (fun _ => rfl) hstatus, fun _ => hdb⟩

theorem ensures_deleteConfig (hdb : Tested passed db) :
    (transaction (deleteConfig id)).Ensures (fun _ db' => Tested passed db') db := by
  refine (ensures_transaction _).mpr ?_
  simp only [deleteConfig, Transaction.Tx.bind_eq, Transaction.Tx.ensures_bind, Transaction.Tx.ensures_acquire,
    Transaction.Tx.ensures_get, Transaction.Tx.ensures_ite, Transaction.Tx.ensures_throw, Transaction.Tx.ensures_modify]
  exact ⟨fun _ => hdb.delete, fun _ => hdb⟩

theorem ensures_upsert {provider : Provider} {create : String → ProviderConfig} {update : ProviderConfig → ProviderConfig}
    (hdb : Tested passed db) (hcreate : ∀ id, (create id).id = id ∧ (create id).status = .missing)
    (hupdate : ∀ r, (update r).id = r.id ∧ (update r).status = .missing) :
    (transaction (upsert tenantId provider create update)).Ensures (fun _ db' => Tested passed db') db := by
  have hinsert : ∀ id, (upsert.insert create id).Ensures (fun _ db' => Tested passed db') (fun _ => Tested passed db) db := by
    intro id
    simp only [upsert.insert, Transaction.Tx.bind_eq, Transaction.Tx.ensures_bind, Transaction.Tx.ensures_get,
      Transaction.Tx.ensures_ite, Transaction.Tx.ensures_throw, Transaction.Tx.ensures_modify]
    refine ⟨fun _ => hdb, fun hid => ?_⟩
    exact hdb.insert (by rw [(hcreate id).1]; simpa using hid) (hcreate id).2
  refine (ensures_transaction _).mpr ?_
  simp only [upsert, Transaction.Tx.bind_eq, Transaction.Tx.ensures_bind, Transaction.Tx.ensures_acquire,
    Transaction.Tx.ensures_get]
  intro id
  rw [Transaction.Tx.ensures_ret]
  cases db.ofProvider tenantId provider with
  | none => exact hinsert id
  | some row =>
      simp only [Transaction.Tx.ensures_bind, Transaction.Tx.ensures_acquire, Transaction.Tx.ensures_get]
      cases hfound : db.providerConfig tenantId row.id with
      | none => exact hinsert id
      | some row' =>
          refine hdb.update (mem_of_providerConfig hfound).1 (fun r => (hupdate r).1) fun hof => ?_
          rw [(hupdate row').2] at hof
          simp at hof

theorem run_findConfig (hrow : db.providerConfig tenantId id = some row) (w : World) :
    (findConfig tenantId id).run db w = (.ok row, db, w) := by
  rw [findConfig, Transaction.Job.bind_eq, run_bind, run_get]
  simp only [hrow]
  rfl

theorem ensures_findConfig : (findConfig tenantId id).Ensures
    (fun r db' => db' = db ∧ ∀ row, r = .ok row → db.providerConfig tenantId id = some row) db := by
  refine (ensures_bind _ _).mpr ((ensures_get _).mpr ?_)
  cases hrow : db.providerConfig tenantId id with
  | none => exact ⟨rfl, fun _ h => by cases h⟩
  | some row => exact ⟨rfl, fun _ h => by cases h; rfl⟩

theorem ensures_saveConfig {body : Json} (hdb : Tested passed db) (hcareful : Careful rt (.save tenantId body) db) :
    (saveConfig rt tenantId body).Ensures (fun _ db' => Tested passed db') db := by
  refine ensures_ofExcept_bind (fun input hread => ?_) fun _ _ => hdb
  refine (ensures_bind _ _).mpr ((ensures_query _).mpr fun iv => ?_)
  refine ensures_ofExcept_bind (fun encrypted _ => ?_) fun _ _ => hdb
  refine (ensures_bind _ _).mpr ((ensures_get _).mpr ?_)
  refine ensures_ofExcept_bind (fun environment _ => ?_) fun _ _ => hdb
  have hkept : (db.ofProvider tenantId input.provider).any (·.status = .disabled) = false := by
    cases hrow : db.ofProvider tenantId input.provider with
    | none => rfl
    | some row => simpa using hcareful input hread row hrow
  rw [Transaction.Job.bind_eq]
  refine (ensures_bind _ _).mpr (Transaction.Job.Ensures.mono (ensures_upsert hdb ?_ ?_) ?_)
  · exact fun _ => ⟨rfl, rfl⟩
  · intro r
    refine ⟨rfl, ?_⟩
    simp [hkept]
  · intro r db' h
    cases r <;> exact h

theorem status_of_checkEnabled {config : ProviderConfig} {u : Unit} (h : checkEnabled true config = .ok u) :
    config.status = .connected ∨ config.status = .disabled := by
  cases hstatus : config.status <;> simp_all [checkEnabled]

theorem ensures_toggleConfig {body : Json} (hdb : Tested passed db) (hcareful : Careful rt (.toggle tenantId id body) db) :
    (toggleConfig rt tenantId id body).Ensures (fun _ db' => Tested passed db') db := by
  refine ensures_ofExcept_bind (fun enabled henabled => ?_) fun _ _ => hdb
  refine (ensures_bind _ _).mpr (ensures_findConfig.mono fun r db' hr => ?_)
  obtain ⟨rfl, hr⟩ := hr
  cases r with
  | error e => exact hdb
  | ok config =>
      have hconfig := hr config rfl
      refine ensures_ofExcept_bind (fun _ hcheck => ?_) fun _ _ => hdb
      have hbefore : config.status = .connected ∨ config.status = .disabled := by
        cases enabled with
        | false => exact hcareful henabled config hconfig
        | true => exact status_of_checkEnabled hcheck
      have hmem := (mem_of_providerConfig hconfig).1
      refine (ensures_bind _ _).mpr ((ensures_setStatus hdb hmem fun _ => hdb.rows config hmem hbefore).mono fun r db' h => ?_)
      cases r <;> exact h

theorem ensures_removeConfig (hdb : Tested passed db) :
    (removeConfig tenantId id).Ensures (fun _ db' => Tested passed db') db := by
  refine (ensures_bind _ _).mpr (ensures_findConfig.mono fun r db' hr => ?_)
  obtain ⟨rfl, -⟩ := hr
  cases r with
  | error e => exact hdb
  | ok config =>
      refine (ensures_bind _ _).mpr ((ensures_deleteConfig hdb).mono fun r db' h => ?_)
      cases r <;> exact h

/-! ## Tests -/

theorem passed_reply (w : World) (q : Query) : w.passed ⊆ (w.reply q).2.passed := by
  cases q with
  | cuid | randomIv => exact fun _ h => h
  | testConnection provider encryptedCredentials =>
      dsimp only [World.reply, World.effect]
      split_ifs
      · exact List.subset_append_left _ _
      · exact fun _ h => h

/-- What has passed stays. -/
def World.Goes (w w' : World) : Prop := w.passed ⊆ w'.passed

instance : IsPreorder World World.Goes where
  refl _ _ h := h
  trans _ _ _ h h' := List.Subset.trans h h'

theorem passed_run (j : Job α) (db : Db) (w : World) : w.passed ⊆ (j.run db w).2.2.passed :=
  Transaction.Job.world_run (R := World.Goes) passed_reply j db w

/-- After the job, what is connected has passed. -/
def LeavesTested (j : Job α) (db : Db) (w : World) : Prop := Tested (j.run db w).2.2.passed (j.run db w).2.1

theorem leavesTested_of_ensures {j : Job α} (h : j.Ensures (fun _ db' => Tested w.passed db') db) : LeavesTested j db w :=
  (h.run w rfl).more (passed_run j db w)

theorem leavesTested_testConfig (hdb : Tested w.passed db) : LeavesTested (testConfig rt tenantId id) db w := by
  cases hrow : db.providerConfig tenantId id with
  | none =>
      refine leavesTested_of_ensures ((ensures_bind _ _).mpr (ensures_findConfig.mono fun r db' hr => ?_))
      obtain ⟨rfl, hr⟩ := hr
      cases r with
      | error e => exact hdb
      | ok config => exact absurd (hr config rfl) (by simp [hrow])
  | some config =>
      have hmem := (mem_of_providerConfig hrow).1
      unfold LeavesTested testConfig
      rw [Transaction.Job.bind_eq, run_bind_ok (run_findConfig hrow w)]
      dsimp only
      split_ifs
      · exact hdb
      · rw [Transaction.Job.bind_eq, run_ofExcept_bind]
        cases hadapter : (Settlement.getAdapter rt.registry config.provider config.encryptedCredentials).mapError Failure.adapter with
        | error e => exact hdb
        | ok adapter =>
            -- the world after the answer, in which the credentials have passed if it is good
            refine leavesTested_of_ensures (w := (w.reply (.testConnection config.provider config.encryptedCredentials)).2) ?_
            have hmore := hdb.more (passed_reply w (.testConnection config.provider config.encryptedCredentials))
            refine ensures_ofExcept_bind (fun result hanswer => ?_) fun _ _ => hmore
            refine (ensures_bind _ _).mpr ((ensures_setStatus hmore hmem fun hstatus => ?_).mono fun r db' h => ?_)
            · have hconnected : result.connected = true := by
                by_contra hnot
                simp [hnot] at hstatus
              have hpasses : World.passes (w.oracle.testConnection w.answered config.provider config.encryptedCredentials) = true := by
                have hok : w.oracle.testConnection w.answered config.provider config.encryptedCredentials = .ok result := hanswer
                rw [hok]
                exact hconnected
              simp [World.reply, World.effect, hpasses]
            · cases r <;> exact h

/-! ## Runs -/

theorem leavesTested_request {request : ConfigRequest} (hcareful : Careful rt request db) (hdb : Tested w.passed db) :
    LeavesTested (request.job rt) db w := by
  cases request with
  | list tenantId => exact leavesTested_of_ensures ((ensures_bind _ _).mpr ((ensures_get _).mpr hdb))
  | save tenantId body => exact leavesTested_of_ensures (ensures_saveConfig hdb hcareful)
  | toggle tenantId id body => exact leavesTested_of_ensures (ensures_toggleConfig hdb hcareful)
  | test tenantId id => exact leavesTested_testConfig hdb
  | remove tenantId id => exact leavesTested_of_ensures (ensures_removeConfig hdb)

theorem tested_runAll {requests : List ConfigRequest}
    (hcareful : AllowedAll (I := Backend) (ConfigRequest.job rt) (Careful rt) requests db w) (hdb : Tested w.passed db) :
    Tested (runAll (I := Backend) (ConfigRequest.job rt) requests db w).2.passed
      (runAll (I := Backend) (ConfigRequest.job rt) requests db w).1 :=
  leaves_runAll (K := fun db (w : World) => Tested w.passed db) (fun _ _ _ => leavesTested_request) hcareful hdb

/-- Requests that run one after the other leave nothing CONNECTED but what has passed a test with the credentials that are
stored, as long as nothing is disabled that was not connected and nothing is saved over what is disabled. -/
theorem connected_tested (rt : ConfigRuntime) (requests : List ConfigRequest) (db : Db) (w : World)
    (hcareful : AllowedAll (I := Backend) (ConfigRequest.job rt) (Careful rt) requests db w) (hdb : Tested w.passed db) :
    ∀ r ∈ (runAll (I := Backend) (ConfigRequest.job rt) requests db w).1.providerConfigs, r.status = .connected →
      (r.provider, r.encryptedCredentials) ∈ (runAll (I := Backend) (ConfigRequest.job rt) requests db w).2.passed :=
  fun r hr hstatus => (tested_runAll hcareful hdb).rows r hr (.inl hstatus)

/-! ## A provider that is switched off and on -/

def demoRuntime : ConfigRuntime := { keyedRuntime with adapters := { keyedRuntime.adapters with demoMode := true } }

def enabledBody (enabled : Bool) : Json := .obj [("enabled", .bool enabled)]

def switchedRequests : List ConfigRequest :=
  [.save "t" keyedBody, .test "t" "i", .toggle "t" "i" (enabledBody false), .toggle "t" "i" (enabledBody true)]

theorem careful_switched :
    AllowedAll (I := Backend) (ConfigRequest.job demoRuntime) (Careful demoRuntime) switchedRequests ⟨[]⟩ keyedWorld := by
  refine And.intro ?_ (And.intro trivial (And.intro ?_ (And.intro ?_ trivial)))
  · intro input hread row hrow
    cases hrow
  · intro hoff
    decide +kernel
  · intro hoff
    cases (show Except.ok true = (Except.ok false : Except Failure Bool) from hoff)

theorem connected_tested_switched :
    ∃ r ∈ (runAll (I := Backend) (ConfigRequest.job demoRuntime) switchedRequests ⟨[]⟩ keyedWorld).1.providerConfigs,
      r.status = .connected ∧ (r.provider, r.encryptedCredentials) ∈
        (runAll (I := Backend) (ConfigRequest.job demoRuntime) switchedRequests ⟨[]⟩ keyedWorld).2.passed := by
  obtain ⟨r, hr, hstatus⟩ : ∃ r ∈ (runAll (I := Backend) (ConfigRequest.job demoRuntime) switchedRequests ⟨[]⟩
      keyedWorld).1.providerConfigs, r.status = .connected := by decide +kernel
  have hnone : Tested [] ⟨[]⟩ := ⟨List.nodup_nil, fun _ h => by cases h⟩
  exact ⟨r, hr, hstatus, connected_tested demoRuntime switchedRequests ⟨[]⟩ keyedWorld careful_switched hnone r hr hstatus⟩

/-! ## What is disabled -/

theorem providerConfig_setStatus (status : ProviderConfigStatus) (hrow : db.providerConfig tenantId id = some row) :
    (db.update id fun r => { r with status }).providerConfig tenantId id = some { row with status } := by
  have hkept : ∀ r : ProviderConfig, (if r.id = id then { r with status } else r).id = r.id ∧
      (if r.id = id then { r with status } else r).tenantId = r.tenantId := fun r => by
    split_ifs
    · exact ⟨rfl, rfl⟩
    · exact ⟨rfl, rfl⟩
  have hfind : (db.update id fun r => { r with status }).providerConfig tenantId id =
      (db.providerConfig tenantId id).map fun r => if r.id = id then { r with status } else r := by
    simp only [Db.providerConfig, Db.update, List.find?_map, Function.comp_def, hkept]
  rw [hfind, hrow, Option.map_some, if_pos (mem_of_providerConfig hrow).2]

theorem run_setStatus {status : ProviderConfigStatus} (hhas : db.hasId id = true) (w : World) :
    (transaction (setStatus id status)).run db w = (.ok (), db.update id fun r => { r with status }, w) := by
  have hbody : (setStatus id status).run db w = (.ok ((), db.update id fun r => { r with status }), w) := by
    show Transaction.Tx.run (I := Backend) (if db.hasId id = true then _ else _) db w = _
    rw [if_pos hhas]
    rfl
  rw [Transaction.Job.run_transaction, hbody]

theorem run_toggleConfig {body : Json} {enabled : Bool} (henabled : parseEnabled rt body = .ok enabled)
    (hrow : db.providerConfig tenantId id = some row) (hcheck : checkEnabled enabled row = .ok ()) (w : World) :
    ((toggleConfig rt tenantId id body).run db w).2 =
      (db.update id fun r => { r with status := if enabled then .connected else .disabled }, w) := by
  obtain ⟨hmem, hid⟩ := mem_of_providerConfig hrow
  have hhas : db.hasId row.id = true := List.any_eq_true.mpr ⟨row, hmem, by simp⟩
  rw [toggleConfig, Transaction.Job.bind_eq, run_ofExcept_bind, henabled]
  dsimp only
  rw [Transaction.Job.bind_eq, run_bind_ok (run_findConfig hrow w), Transaction.Job.bind_eq, run_ofExcept_bind, hcheck]
  dsimp only
  rw [Transaction.Job.bind_eq, run_bind_ok (run_setStatus hhas w), hid]
  rfl

theorem parseEnabled_enabledBody (rt : ConfigRuntime) (enabled : Bool) : parseEnabled rt (enabledBody enabled) = .ok enabled := by
  cases enabled <;> rfl

/-- Whatever careful requests come next, what is connected has passed. -/
def Safe (rt : ConfigRuntime) (db : Db) (w : World) : Prop :=
  ∀ requests, AllowedAll (I := Backend) (ConfigRequest.job rt) (Careful rt) requests db w →
    ∀ r ∈ (runAll (I := Backend) (ConfigRequest.job rt) requests db w).1.providerConfigs, r.status = .connected →
      (r.provider, r.encryptedCredentials) ∈ (runAll (I := Backend) (ConfigRequest.job rt) requests db w).2.passed

/-- What is disabled can be enabled, whether it has passed or not. -/
theorem passed_of_safe (h : Safe rt db w) (hrow : db.providerConfig tenantId id = some row) (hstatus : row.status = .disabled) :
    (row.provider, row.encryptedCredentials) ∈ w.passed := by
  have hparse := parseEnabled_enabledBody rt true
  have hrun := run_toggleConfig hparse hrow (by simp [checkEnabled, hstatus]) w
  have hconnected := providerConfig_setStatus .connected hrow
  have hpassed := h [.toggle tenantId id (enabledBody true)]
    ⟨fun hoff => (by rw [hparse] at hoff; cases hoff), trivial⟩ { row with status := .connected }
  have hafter : runAll (I := Backend) (ConfigRequest.job rt) [.toggle tenantId id (enabledBody true)] db w =
      (db.update id fun r => { r with status := .connected }, w) := hrun
  rw [hafter] at hpassed
  exact hpassed (mem_of_providerConfig hconnected).1 rfl

/-- After careful requests, what is disabled does no harm if and only if it has passed. -/
theorem safe_disabled_iff (rt : ConfigRuntime) (requests : List ConfigRequest) (db : Db) (w : World)
    (hcareful : AllowedAll (I := Backend) (ConfigRequest.job rt) (Careful rt) requests db w) (hdb : Tested w.passed db)
    (tenantId id : String) (off : Json) (hoff : parseEnabled rt off = .ok false) (row : ProviderConfig)
    (hrow : (runAll (I := Backend) (ConfigRequest.job rt) requests db w).1.providerConfig tenantId id = some row) :
    let after := runAll (I := Backend) (ConfigRequest.job rt) (requests ++ [.toggle tenantId id off]) db w
    Safe rt after.1 after.2 ↔
      (row.provider, row.encryptedCredentials) ∈ (runAll (I := Backend) (ConfigRequest.job rt) requests db w).2.passed := by
  intro after
  have htested := tested_runAll hcareful hdb
  have hafter : after = ((runAll (I := Backend) (ConfigRequest.job rt) requests db w).1.update id
      fun r => { r with status := .disabled }, (runAll (I := Backend) (ConfigRequest.job rt) requests db w).2) := by
    refine (runAll_append _ _ _ _).trans ?_
    exact run_toggleConfig hoff hrow (by simp [checkEnabled]) _
  rw [hafter]
  constructor
  · intro hsafe
    exact @passed_of_safe rt _ _ tenantId id { row with status := .disabled } hsafe (providerConfig_setStatus .disabled hrow) rfl
  · intro hpassed more hmore
    obtain ⟨hmem, rfl⟩ := mem_of_providerConfig hrow
    have hkept := htested.update (f := fun r => { r with status := .disabled }) hmem (fun _ => rfl) fun _ => hpassed
    exact fun r hr hstatus => (tested_runAll hmore hkept).rows r hr (.inl hstatus)

theorem careful_saved (more : List ConfigRequest) (hmore : more = [] ∨ more = [.test "t" "i"]) :
    AllowedAll (I := Backend) (ConfigRequest.job demoRuntime) (Careful demoRuntime) (.save "t" keyedBody :: more) ⟨[]⟩
      keyedWorld := by
  refine And.intro (fun input hread row hrow => by cases hrow) ?_
  rcases hmore with rfl | rfl
  · trivial
  · exact And.intro trivial trivial

def savedThen (requests : List ConfigRequest) : Db × World :=
  runAll (I := Backend) (ConfigRequest.job demoRuntime) (.save "t" keyedBody :: requests) ⟨[]⟩ keyedWorld

/-- Disabled after its test a configuration does no harm, disabled before it does. -/
theorem safe_disabled_iff_saved :
    Safe demoRuntime (savedThen [.test "t" "i", .toggle "t" "i" (enabledBody false)]).1
        (savedThen [.test "t" "i", .toggle "t" "i" (enabledBody false)]).2 ∧
      ¬ Safe demoRuntime (savedThen [.toggle "t" "i" (enabledBody false)]).1
        (savedThen [.toggle "t" "i" (enabledBody false)]).2 := by
  have hnone : Tested [] ⟨[]⟩ := ⟨List.nodup_nil, fun _ h => by cases h⟩
  constructor
  · have hpassed : ((savedThen [.test "t" "i"]).1.providerConfig "t" "i").any (fun row =>
        (row.provider, row.encryptedCredentials) ∈ (savedThen [.test "t" "i"]).2.passed) = true := by decide +kernel
    obtain ⟨row, hrow, hmem⟩ := (Option.any_eq_true _ _).mp hpassed
    exact (safe_disabled_iff demoRuntime [.save "t" keyedBody, .test "t" "i"] ⟨[]⟩ keyedWorld (careful_saved _ (.inr rfl)) hnone
      "t" "i" (enabledBody false) rfl row hrow).mpr (of_decide_eq_true hmem)
  · have hmissing : ((savedThen []).1.providerConfig "t" "i").any (fun row =>
        (row.provider, row.encryptedCredentials) ∉ (savedThen []).2.passed) = true := by decide +kernel
    obtain ⟨row, hrow, hmem⟩ := (Option.any_eq_true _ _).mp hmissing
    exact fun hsafe => of_decide_eq_true hmem ((safe_disabled_iff demoRuntime [.save "t" keyedBody] ⟨[]⟩ keyedWorld
      (careful_saved _ (.inl rfl)) hnone "t" "i" (enabledBody false) rfl row hrow).mp hsafe)

end CorpoPay.Providers
