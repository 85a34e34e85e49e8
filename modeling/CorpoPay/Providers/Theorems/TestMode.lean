import CorpoPay.Providers.ProviderConfigs
import CorpoPay.Settlement.Lemmas.FreshIds
import CorpoPay.Transaction.Onward

/-!
# No test mode in production

The test mode of a provider accepts every notification. Whatever the requests do side by side, no configuration of production
is ever stored in it, so that what its adapter accepts is signed with the stored key.
-/

namespace CorpoPay.Providers

open Notify (Buffer GCM_IV_BYTES)
open Settlement (Json Provider ProviderAdapter ProviderConfigStatus)
open Transaction (Course Pool Shared)
open Transaction.Tx (asks_acquire asks_bind asks_get asks_modify asks_query asks_ret asks_throw)
open Transaction.Job (Does does_get does_ofExcept does_query does_ret does_throw does_transaction knows_bind knows_get
  knows_ofExcept knows_query knows_ret knows_throw)

variable {ι α : Type} {rt : ConfigRuntime}

/-! ## Stored credentials -/

/-- The text of the credentials that a request stores is read back. -/
structure ConfigRuntime.Reads (rt : ConfigRuntime) (requests : ι → ConfigRequest) : Prop where
  opens : rt.crypto.Opens
  json : ∀ i tenantId body input, requests i = .save tenantId body → readBody rt body = .ok input →
    rt.adapters.parseJson (Notify.utf8Bytes (rt.stringify (.obj input.credentials))) = .ok (.obj input.credentials)

/-- A field that is kept is one of the schema. -/
theorem parseObject_accepts {isUrl : String → Bool} {schema : List SchemaField} {value v : Json} {creds : Fields} {name : String}
    (h : parseObject isUrl schema value = .ok creds) (hv : fieldOf creds name = some v) :
    ∃ field ∈ schema, field.name = name ∧ field.type.accepts isUrl v = true := by
  cases value with
  | obj fields =>
      simp only [parseObject] at h
      split_ifs at h with hall
      obtain rfl := Except.ok.inj h
      obtain ⟨entry, hentry, rfl⟩ := Option.map_eq_some_iff.mp hv
      obtain ⟨field, hfield, hsome⟩ := List.mem_filterMap.mp (List.mem_of_find?_eq_some hentry)
      obtain ⟨v, hlookup, rfl⟩ := Option.map_eq_some_iff.mp hsome
      have haccepts := List.all_eq_true.mp hall field hfield
      rw [SchemaField.accepts, hlookup] at haccepts
      exact ⟨field, hfield, by simpa using List.find?_some hentry, haccepts⟩
  | _ => cases h

theorem decrypt_encryptCredentials (hopens : rt.crypto.Opens) {iv : Buffer} (hiv : iv.length = GCM_IV_BYTES) {creds : Fields}
    {ciphertext : String} (h : encryptCredentials rt iv creds = .ok ciphertext) :
    decryptCredentials rt ciphertext = rt.adapters.parseJson (Notify.utf8Bytes (rt.stringify (.obj creds))) := by
  cases hencrypt : Notify.encrypt rt.crypto iv (rt.stringify (.obj creds)) with
  | error e => simp [encryptCredentials, hencrypt, Except.mapError] at h
  | ok c =>
      have hc : c = ciphertext := by simpa [encryptCredentials, hencrypt, Except.mapError] using h
      rw [decryptCredentials, ← hc, Notify.decrypt_encrypt hopens hiv hencrypt]

/-! ## The test mode -/

/-- In production the test mode is off. -/
def Guarded (rt : ConfigRuntime) (r : ProviderConfig) : Prop :=
  r.environment = .production → r.provider = .vps → ∀ creds, decryptCredentials rt r.encryptedCredentials = .ok creds →
    ∀ v, creds.get "callbackTestMode" = .ok (some v) → v.truthy = false

/-- The notification is signed with the stored key. -/
def Signed (rt : ConfigRuntime) (encryptedCredentials : String) (rawBody : Buffer) (headers : Settlement.Headers) : Prop :=
  ∃ creds key sig expected, decryptCredentials rt encryptedCredentials = .ok creds ∧
    creds.get "notificationKey" = .ok (some key) ∧ key.truthy = true ∧
      ProviderAdapter.signatureHeader headers
        ["x-callback-signature", "x-payzone-signature", "x-vps-signature", "x-signature"] = sig ∧ sig ≠ "" ∧
      rt.adapters.hmacSha256 (some key) rawBody = .ok expected ∧ rt.adapters.toLowerCase sig = rt.adapters.toLowerCase expected

theorem Guarded.signed {r : ProviderConfig} (h : Guarded rt r) (henvironment : r.environment = .production)
    (hprovider : r.provider = .vps) (hdemo : rt.adapters.demoMode = false) {adapter : ProviderAdapter}
    (hadapter : Settlement.getAdapter rt.registry r.provider r.encryptedCredentials = .ok adapter) {rawBody : Buffer}
    {headers : Settlement.Headers} (hverify : adapter.verifyWebhookSignature rt.registry rawBody headers = .ok true) :
    Signed rt r.encryptedCredentials rawBody headers := by
  have hregistry : rt.registry.demoMode = false := hdemo
  have hdecrypt : rt.registry.decryptCredentials r.encryptedCredentials = decryptCredentials rt r.encryptedCredentials := rfl
  cases hcreds : decryptCredentials rt r.encryptedCredentials with
  | error e => simp [Settlement.getAdapter, hregistry, hdecrypt, hcreds, bind, Except.bind] at hadapter
  | ok creds =>
      obtain rfl : .vps creds = adapter := by
        simpa [Settlement.getAdapter, hregistry, hdecrypt, hcreds, hprovider, bind, Except.bind, pure, Except.pure] using hadapter
      obtain ⟨mode, hmode, hverify⟩ := Settlement.Except.bind_eq_ok hverify
      have hoff : mode.any (·.truthy) = false := by
        cases mode with
        | none => rfl
        | some v => exact h henvironment hprovider creds hcreds v hmode
      rw [if_neg (by rw [hoff]; exact Bool.false_ne_true)] at hverify
      obtain ⟨notificationKey, hkey, hverify⟩ := Settlement.Except.bind_eq_ok hverify
      split_ifs at hverify with hmissing
      · cases hverify
      dsimp only at hverify
      split_ifs at hverify with hsig
      · cases hverify
      obtain ⟨expected, hexpected, hequal⟩ := Settlement.Except.bind_eq_ok hverify
      cases notificationKey with
      | none => simp at hmissing
      | some key =>
          exact ⟨creds, key, _, expected, hcreds, hkey, by simpa using hmissing, rfl, hsig, hexpected,
            of_decide_eq_true (Except.ok.inj hequal)⟩

/-! ## What a request stores -/

theorem readBody_eq_ok {body : Json} {input : SaveInput} (h : readBody rt body = .ok input) :
    (∃ value, ProviderParamSchema value = .ok input.provider) ∧
      (∃ value, parseObject rt.isUrl (credentialsSchema input.provider) value = .ok input.credentials) ∧
        isUnsafe input.environment input.provider input.credentials = false := by
  obtain ⟨value, -, h⟩ := Settlement.Except.bind_eq_ok h
  obtain ⟨provider, hprovider, h⟩ := Settlement.Except.bind_eq_ok h
  obtain ⟨raw, -, h⟩ := Settlement.Except.bind_eq_ok h
  obtain ⟨credentials, hparse, h⟩ := Settlement.Except.bind_eq_ok h
  obtain ⟨environment, -, h⟩ := Settlement.Except.bind_eq_ok h
  dsimp only at h
  split_ifs at h with hunsafe
  cases h
  exact ⟨⟨_, hprovider⟩, ⟨_, hparse⟩, by simpa using hunsafe⟩

theorem isStr_production {value : Json} (h : environmentColumn value = .ok .production) : value.isStr "PRODUCTION" = true := by
  unfold environmentColumn at h
  split_ifs at h with hsandbox hproduction
  · cases h
  · exact hproduction

/-- Only one of the schemas that a request can choose knows the test mode. -/
theorem vps_of_testMode {value : Option Json} {provider : Provider} (h : ProviderParamSchema value = .ok provider)
    {field : SchemaField} (hfield : field ∈ credentialsSchema provider) (hname : field.name = "callbackTestMode") :
    provider = .vps ∧ field.type = .boolean := by
  have hnaps : ∀ field ∈ napsCredentialsSchema, field.name ≠ "callbackTestMode" := by decide
  have hstripe : ∀ field ∈ stripeCredentialsSchema, field.name ≠ "callbackTestMode" := by decide
  have hvps : ∀ field ∈ vpsCredentialsSchema, field.name = "callbackTestMode" → field.type = .boolean := by decide
  have hknown : provider ∈ [Provider.naps, .vps, .stripe] := by
    unfold ProviderParamSchema at h
    split at h
    · rename_i found hfound
      cases h
      exact List.mem_of_find?_eq_some hfound
    · cases h
  cases provider with
  | naps => exact (hnaps field hfield hname).elim
  | stripe => exact (hstripe field hfield hname).elim
  | vps => exact ⟨rfl, hvps field hfield hname⟩
  | paypal | adyen => simp at hknown

theorem testMode_off {body : Json} {input : SaveInput} (hread : readBody rt body = .ok input)
    (henvironment : environmentColumn input.environment = .ok .production) {v : Json}
    (hv : fieldOf input.credentials "callbackTestMode" = some v) : v.truthy = false := by
  obtain ⟨⟨_, hprovider⟩, ⟨_, hparse⟩, hsafe⟩ := readBody_eq_ok hread
  obtain ⟨field, hfield, hname, haccepts⟩ := parseObject_accepts hparse hv
  obtain ⟨hvps, htype⟩ := vps_of_testMode hprovider hfield hname
  rw [htype] at haccepts
  cases v with
  | bool b =>
      show b = false
      simpa [isUnsafe, isStr_production henvironment, hvps, hv, isTrue] using hsafe
  | _ => cases haccepts

/-- What a request stores is guarded, in whatever row. -/
theorem guarded_of_read {body : Json} {input : SaveInput} {environment : Environment} {r : ProviderConfig}
    (hread : readBody rt body = .ok input) (henvironment : environmentColumn input.environment = .ok environment)
    (hr : r.environment = environment)
    (hcreds : decryptCredentials rt r.encryptedCredentials = .ok (.obj input.credentials)) : Guarded rt r := by
  intro hproduction hvps creds hdecrypt v hv
  obtain rfl : .obj input.credentials = creds := Except.ok.inj (hcreds.symm.trans hdecrypt)
  rw [← hr, hproduction] at henvironment
  exact testMode_off hread henvironment (Except.ok.inj hv)

/-! ## Steps -/

/-- A write that leaves every row guarded. -/
def Spares (rt : ConfigRuntime) (w : Db → Db) : Prop :=
  ∀ db : Db, (∀ r ∈ db.providerConfigs, Guarded rt r) → ∀ r ∈ (w db).providerConfigs, Guarded rt r

theorem spares_id : Spares rt id := fun _ h => h

theorem spares_insert {row : ProviderConfig} (h : Guarded rt row) : Spares rt (·.insert row) := by
  intro db hdb r hr
  rcases List.mem_append.mp hr with hr | hr
  · exact hdb r hr
  · rw [List.mem_singleton.mp hr]
    exact h

theorem spares_update {id : String} {f : ProviderConfig → ProviderConfig} (h : ∀ r, Guarded rt r → Guarded rt (f r)) :
    Spares rt (·.update id f) := by
  intro db hdb r hr
  obtain ⟨row, hrow, rfl⟩ := List.mem_map.mp hr
  by_cases hid : row.id = id
  · simp only [hid, if_true]
    exact h row (hdb row hrow)
  · simp only [hid, if_false]
    exact hdb row hrow

theorem spares_delete {id : String} : Spares rt (·.delete id) := fun _ hdb r hr => hdb r (List.mem_filter.mp hr).1

theorem guarded_status {r : ProviderConfig} {status : ProviderConfigStatus} (h : Guarded rt r) : Guarded rt { r with status } := h

abbrev Saves (rt : ConfigRuntime) (j : Job α) : Prop := j.Does (Spares rt) fun _ => True

theorem saves_setStatus {id : String} {status : ProviderConfigStatus} : Saves rt (transaction (setStatus id status)) := by
  apply does_transaction
  · simp only [setStatus, Transaction.Tx.bind_eq, Transaction.Tx.writes_bind, Transaction.Tx.writes_acquire,
      Transaction.Tx.writes_get]
    intro db
    split_ifs
    · exact spares_update fun _ => guarded_status
    · trivial
  · refine asks_bind (asks_acquire _) fun _ => asks_bind (asks_get _) fun found => ?_
    split_ifs
    · exact asks_modify _
    · exact asks_throw _

theorem saves_deleteConfig {id : String} : Saves rt (transaction (deleteConfig id)) := by
  apply does_transaction
  · simp only [deleteConfig, Transaction.Tx.bind_eq, Transaction.Tx.writes_bind, Transaction.Tx.writes_acquire,
      Transaction.Tx.writes_get]
    intro db
    split_ifs
    · exact spares_delete
    · trivial
  · refine asks_bind (asks_acquire _) fun _ => asks_bind (asks_get _) fun found => ?_
    split_ifs
    · exact asks_modify _
    · exact asks_throw _

theorem saves_upsert {tenantId : String} {provider : Provider} {create : String → ProviderConfig}
    {update : ProviderConfig → ProviderConfig} (hcreate : ∀ id, Guarded rt (create id))
    (hupdate : ∀ r, Guarded rt r → Guarded rt (update r)) : Saves rt (transaction (upsert tenantId provider create update)) := by
  have hwrites : ∀ key, (upsert.insert create key).Writes (fun w _ => Spares rt w) id := fun key => by
    simp only [upsert.insert, Transaction.Tx.bind_eq, Transaction.Tx.writes_bind, Transaction.Tx.writes_get]
    intro db
    split_ifs
    · trivial
    · exact spares_insert (hcreate key)
  have hasks : ∀ id, (upsert.insert create id).Asks fun _ => True := fun id => by
    refine asks_bind (asks_get _) fun found => ?_
    split_ifs
    · exact asks_throw _
    · exact asks_bind (asks_modify _) fun _ => asks_ret _
  apply does_transaction
  · simp only [upsert, Transaction.Tx.bind_eq, Transaction.Tx.writes_bind, Transaction.Tx.writes_acquire,
      Transaction.Tx.writes_get]
    intro id db
    cases db.ofProvider tenantId provider with
    | none => exact hwrites id
    | some row =>
        simp only [Transaction.Tx.writes_bind, Transaction.Tx.writes_acquire, Transaction.Tx.writes_get]
        intro db
        cases db.providerConfig tenantId row.id with
        | none => exact hwrites id
        | some row => exact spares_update hupdate
  · refine asks_bind ((asks_query _).mpr trivial) fun id => asks_bind (asks_acquire _) fun _ => asks_bind (asks_get _) fun found => ?_
    cases found with
    | none => exact hasks id
    | some row =>
        refine asks_bind (asks_acquire _) fun _ => asks_bind (asks_get _) fun found => ?_
        cases found with
        | none => exact hasks id
        | some row => exact asks_bind (asks_modify _) fun _ => asks_ret _

/-! ## Runs -/

structure ConfigsSound (rt : ConfigRuntime) (oracle : Oracle) (σ : Shared Backend) : Prop where
  outside : σ.world.oracle = oracle
  rows : ∀ r ∈ σ.store.providerConfigs, Guarded rt r

def configCourse (rt : ConfigRuntime) (oracle : Oracle) : Course Backend where
  later _ _ := True
  inv := ConfigsSound rt oracle
  later_refl _ := trivial
  later_trans _ _ := trivial

/-- What a request knows when it returns. -/
abbrev Knows (rt : ConfigRuntime) (oracle : Oracle) (P : α → Shared Backend → Prop) (j : Job α) (σ : Shared Backend) : Prop :=
  j.Knows (configCourse rt oracle) (fun _ _ => True) P σ

variable {oracle : Oracle} {σ : Shared Backend}

theorem reach_asked {q : Query} (h : ConfigsSound rt oracle σ) : (configCourse rt oracle).Reach σ (σ.asked q) := by
  refine ⟨trivial, ?_, h.rows⟩
  cases q with
  | cuid | randomIv => exact h.outside
  | testConnection provider encryptedCredentials =>
      show (World.effect _ _).oracle = oracle
      dsimp only [World.effect]
      split_ifs
      · exact h.outside
      · exact h.outside

theorem knows_ask {q : Query} {P : Answer q → Shared Backend → Prop}
    (h : ∀ σ', (configCourse rt oracle).Reach σ σ' → ∀ σ'', (configCourse rt oracle).Reach (σ'.asked q) σ'' →
      P (σ'.world.answer q) σ'') : Knows rt oracle P (Backend.ask q) σ :=
  knows_query (fun _ hσ' _ => reach_asked hσ'.2) h

theorem Saves.knows {j : Job α} (h : Saves rt j) : Knows rt oracle (fun _ _ => True) j σ :=
  Does.knows h (K := fun _ => True) (fun _ _ _ h => h) trivial
    (fun _ _ hw _ hσ' _ => ⟨trivial, hσ'.outside, hw _ hσ'.rows⟩) (fun _ _ _ _ hσ' _ => reach_asked hσ') fun _ _ _ _ => trivial

theorem knows_saveConfig (hopens : rt.crypto.Opens) (hiv : ∀ n, (oracle.randomIv n).length = GCM_IV_BYTES)
    {tenantId : String} {body : Json}
    (hjson : ∀ input, readBody rt body = .ok input →
      rt.adapters.parseJson (Notify.utf8Bytes (rt.stringify (.obj input.credentials))) = .ok (.obj input.credentials))
    (hσ : ConfigsSound rt oracle σ) : Knows rt oracle (fun _ _ => True) (saveConfig rt tenantId body) σ := by
  refine knows_bind hσ (P := fun input _ => readBody rt body = .ok input) (knows_ofExcept fun _ _ _ h => h)
    fun input σ₁ hσ₁ hread => ?_
  refine knows_bind hσ₁.2 (P := fun iv _ => iv.length = GCM_IV_BYTES) ?_ fun iv σ₂ hσ₂ hlength => ?_
  · refine knows_ask fun σ' hσ' _ _ => ?_
    show (σ'.world.oracle.randomIv _).length = _
    rw [hσ'.2.outside]
    exact hiv _
  refine knows_bind hσ₂.2 (P := fun encrypted _ => encryptCredentials rt iv input.credentials = .ok encrypted)
    (knows_ofExcept fun _ _ _ h => h) fun encrypted σ₃ hσ₃ hencrypted => ?_
  refine knows_bind hσ₃.2 (P := fun _ _ => True) (knows_get (fun _ _ _ _ h => h) fun _ _ => trivial) fun existing σ₄ hσ₄ _ => ?_
  refine knows_bind hσ₄.2 (P := fun environment _ => environmentColumn input.environment = .ok environment)
    (knows_ofExcept fun _ _ _ h => h) fun environment σ₅ hσ₅ henvironment => ?_
  have hdecrypt : decryptCredentials rt encrypted = .ok (.obj input.credentials) :=
    (decrypt_encryptCredentials hopens hlength hencrypted).trans (hjson input hread)
  refine knows_bind hσ₅.2 (P := fun _ _ => True) ?_ fun _ _ _ _ => knows_ret fun _ _ => trivial
  refine (saves_upsert (fun id => ?_) fun r _ => ?_).knows
  · exact guarded_of_read hread henvironment rfl hdecrypt
  · exact guarded_of_read hread henvironment rfl hdecrypt

theorem saves_findConfig {tenantId id : String} : Saves rt (findConfig tenantId id) := by
  refine (does_get spares_id _).bind fun found => ?_
  cases found with
  | none => exact does_throw _
  | some config => exact does_ret _

theorem saves_toggleConfig {tenantId id : String} {body : Json} : Saves rt (toggleConfig rt tenantId id body) :=
  (does_ofExcept _).bind fun _ => saves_findConfig.bind fun _ => (does_ofExcept _).bind fun _ =>
    saves_setStatus.bind fun _ => does_ret _

theorem saves_testConfig {tenantId id : String} : Saves rt (testConfig rt tenantId id) := by
  refine saves_findConfig.bind fun config => ?_
  dsimp only
  split_ifs
  · exact does_throw _
  · exact (does_ofExcept _).bind fun _ => (does_query trivial).bind fun _ => (does_ofExcept _).bind fun _ =>
      saves_setStatus.bind fun _ => does_ret _

theorem knows_request {requests : ι → ConfigRequest} (hrt : rt.Reads requests)
    (hiv : ∀ n, (oracle.randomIv n).length = GCM_IV_BYTES) (i : ι) (hσ : ConfigsSound rt oracle σ) :
    Knows rt oracle (fun _ _ => True) ((requests i).job rt) σ := by
  cases hi : requests i with
  | save tenantId body => exact knows_saveConfig hrt.opens hiv (fun input hread => hrt.json i tenantId body input hi hread) hσ
  | list tenantId =>
      have hlist : Saves rt (listConfigs rt tenantId) := (does_get spares_id _).bind fun _ => does_ret _
      exact hlist.knows
  | toggle tenantId id body => exact saves_toggleConfig.knows
  | test tenantId id => exact saves_testConfig.knows
  | remove tenantId id =>
      have hremove : Saves rt (removeConfig tenantId id) :=
        saves_findConfig.bind fun _ => saves_deleteConfig.bind fun _ => does_ret _
      exact hremove.knows

/-- Whatever requests for configurations run side by side, what the adapter of a configuration of VPS in production accepts is
signed with the key that is stored. -/
theorem production_signed [DecidableEq ι] (rt : ConfigRuntime) (requests : ι → ConfigRequest) (hrt : rt.Reads requests)
    (hdemo : rt.adapters.demoMode = false) (db : Db) (hdb : ∀ r ∈ db.providerConfigs, Guarded rt r) (w : World)
    (hiv : ∀ n, (w.oracle.randomIv n).length = GCM_IV_BYTES) (p : Pool Backend ι Response)
    (hp : Pool.Reachable (Pool.init (fun i => (requests i).job rt) db w) p) :
    ∀ r ∈ p.shared.store.providerConfigs, r.environment = .production → r.provider = .vps → ∀ adapter,
      Settlement.getAdapter rt.registry r.provider r.encryptedCredentials = .ok adapter → ∀ rawBody headers,
        adapter.verifyWebhookSignature rt.registry rawBody headers = .ok true → Signed rt r.encryptedCredentials rawBody headers := by
  intro r hr henvironment hprovider adapter hadapter rawBody headers hverify
  have hinit : ConfigsSound rt w.oracle ⟨db, w⟩ := ⟨rfl, hdb⟩
  have hrun : p.Knows (configCourse rt w.oracle) (fun _ _ _ => True) fun _ _ _ => True :=
    (Pool.knows_init hinit fun i => knows_request hrt hiv i hinit).run (fun _ _ _ _ _ => trivial) hp
  exact (hrun.inv.rows r hr).signed henvironment hprovider hdemo hadapter hverify

/-! ## A notification key -/

def keyedCredentials : Fields :=
  [("merchantAccount", .str "m"), ("paywallSecretKey", .str "k"), ("paywallUrl", .str "u"), ("apiUrl", .str "u"),
    ("callerName", .str "c"), ("callerPassword", .str "p"), ("notificationKey", .str "n")]

def keyedText : String :=
  "\x7b\"merchantAccount\":\"m\",\"paywallSecretKey\":\"k\",\"paywallUrl\":\"u\",\"apiUrl\":\"u\"," ++
    "\"callerName\":\"c\",\"callerPassword\":\"p\",\"notificationKey\":\"n\"\x7d"

/-- A runtime for these credentials, whose digests are the keys. -/
def keyedRuntime : ConfigRuntime where
  crypto := Notify.textRuntime
  adapters :=
    { demoMode := false
      decryptCredentials := fun _ => .error (.error "no cipher")
      newStripe := fun _ => .ok ()
      constructEvent := fun _ _ _ => false
      hmacSha256 := fun key _ =>
        match key with
        | some (.str key) => .ok key
        | _ => .error (.error "no key")
      sha256 := fun _ => ""
      parseJson := fun body =>
        if body = Notify.utf8Bytes keyedText then .ok (.obj keyedCredentials) else .error (.error "no credentials")
      toUpperCase := id
      toLowerCase := id
      stringFilter := fun _ => .error (.error "no filter")
      nullableStringFilter := fun _ => .error (.error "no filter")
      jsonEquals := fun _ _ => false
      toNumber := fun _ => none
      arithmetic := .correct }
  stringify _ := keyedText
  isUrl _ := true

def keyedWorld : World where
  answered := 0
  oracle :=
    { cuid := fun _ => "i", randomIv := fun _ => List.replicate 12 1, testConnection := fun _ _ _ => .ok ⟨true, none⟩ }
  passed := []

def keyedBody : Json := .obj (("provider", .str "VPS") :: ("environment", .str "PRODUCTION") :: keyedCredentials)

def keyedRequests : Fin 2 → ConfigRequest
  | 0 => .save "t" keyedBody
  | 1 => .toggle "t" "i" (.obj [("enabled", .bool false)])

theorem readBody_keyed : readBody keyedRuntime keyedBody = .ok ⟨.vps, keyedCredentials, .str "PRODUCTION"⟩ := rfl

theorem parseJson_keyed : keyedRuntime.adapters.parseJson (Notify.utf8Bytes (keyedRuntime.stringify (.obj keyedCredentials))) =
    .ok (.obj keyedCredentials) := by
  simp [keyedRuntime]

theorem reads_keyedRuntime : keyedRuntime.Reads keyedRequests where
  opens := Notify.opens_textRuntime
  json i tenantId body input hi hread := by
    match i with
    | 0 =>
        cases hi
        obtain rfl := Except.ok.inj (readBody_keyed.symm.trans hread)
        exact parseJson_keyed
    | 1 => cases hi

def keyedHeaders : Settlement.Headers := [("x-signature", "n")]

theorem production_signed_keyed : ∃ p : Pool Backend (Fin 2) Response,
    Pool.Reachable (Pool.init (fun i => (keyedRequests i).job keyedRuntime) ⟨[]⟩ keyedWorld) p ∧
      ∃ r ∈ p.shared.store.providerConfigs, r.environment = .production ∧
        Settlement.getAdapter keyedRuntime.registry r.provider r.encryptedCredentials = .ok (.vps (.obj keyedCredentials)) ∧
        Signed keyedRuntime r.encryptedCredentials [] keyedHeaders := by
  obtain ⟨p, hp, hend⟩ := Pool.ReachableIf.exists_of_runSchedule
    (Pool.init (fun i => (keyedRequests i).job keyedRuntime) ⟨[]⟩ keyedWorld) (List.replicate 11 0 ++ List.replicate 8 1)
    (fun p => p.shared.store.providerConfigs.any fun r => decide (r.environment = .production ∧ r.provider = .vps ∧
      (encryptCredentials keyedRuntime (List.replicate 12 1) keyedCredentials).toOption = some r.encryptedCredentials))
    (fun _ _ _ => trivial) (by decide +kernel)
  obtain ⟨r, hr, hend⟩ := List.any_eq_true.mp hend
  obtain ⟨henvironment, hprovider, hencrypted⟩ := of_decide_eq_true hend
  have hdecrypt : decryptCredentials keyedRuntime r.encryptedCredentials = .ok (.obj keyedCredentials) :=
    (decrypt_encryptCredentials Notify.opens_textRuntime rfl (Settlement.Except.of_toOption hencrypted)).trans parseJson_keyed
  have hadapter : Settlement.getAdapter keyedRuntime.registry r.provider r.encryptedCredentials =
      .ok (.vps (.obj keyedCredentials)) := by
    have hregistry : keyedRuntime.registry.decryptCredentials r.encryptedCredentials = .ok (.obj keyedCredentials) := hdecrypt
    have hdemo : keyedRuntime.registry.demoMode = false := rfl
    simp [Settlement.getAdapter, hregistry, hdemo, hprovider, bind, Except.bind, pure, Except.pure]
  refine ⟨p, hp, r, hr, henvironment, hadapter, ?_⟩
  exact production_signed keyedRuntime keyedRequests reads_keyedRuntime rfl ⟨[]⟩ (fun _ h => by cases h) keyedWorld
    (fun _ => rfl) p hp r hr henvironment hprovider _ hadapter [] keyedHeaders rfl

end CorpoPay.Providers
