import CorpoPay.Access.Requests
import CorpoPay.Transaction.Amid

/-!
# What the requests write and ask

One lemma for each statement, and one for each route after its authentication.
-/

namespace CorpoPay.Access

open Settlement (TenantStatus)
open Transaction.Job (does_get does_ofExcept does_query does_ret does_throw does_transaction)
open Transaction.Tx

variable {α : Type} {W : (Db → Db) → Prop} {A : Query → Prop}

/-- A question that neither writes the cache nor concerns the detached updates. -/
def Query.Plain : Query → Prop
  | .cache _ _ | .detach _ | .takeDetached _ => False
  | .now | .cuid | .randomHex | .bcryptHash _ | .cached _ | .refunds _ => True

/-! ## Statements -/

theorem does_createUser {row : User} (h : W (·.insertUser row)) : (transaction (createUser row)).Does W A := by
  refine does_transaction ?_ (asks_bind (asks_acquire _) fun _ => asks_bind (asks_acquire _) fun _ =>
    asks_bind (asks_get _) fun taken => ?_)
  · simp only [createUser, bind_eq, writes_bind, writes_acquire, writes_get]
    exact fun db => writes_ite _ (fun _ => writes_throw _) fun _ => h
  · cases taken
    · exact asks_modify _
    · exact asks_throw _

theorem does_updateTenantStatus {id : String} {status : TenantStatus} (h : W (·.setTenantStatus id status)) :
    (transaction (updateTenantStatus id status)).Does W A := by
  refine does_transaction ?_ (asks_bind (asks_acquire _) fun _ => asks_bind (asks_get _) fun found => ?_)
  · simp only [updateTenantStatus, bind_eq, writes_bind, writes_acquire, writes_get]
    exact fun db => writes_ite _ (fun _ => h) fun _ => writes_throw _
  · cases found
    · exact asks_throw _
    · exact asks_modify _

theorem does_updateUserRole {id tenantId : String} {role : UserRole} (h : W (·.setUserRole id tenantId role)) :
    (transaction (updateUserRole id tenantId role)).Does W A := by
  refine does_transaction ?_ (asks_bind (asks_acquire _) fun _ => asks_bind (asks_get _) fun found => ?_)
  · simp only [updateUserRole, bind_eq, writes_bind, writes_acquire, writes_get]
    exact fun db => writes_ite _ (fun _ => h) fun _ => writes_throw _
  · cases found
    · exact asks_throw _
    · exact asks_modify _

theorem does_deleteUser {id tenantId : String} (h : W (·.deleteUser id tenantId)) (hask : A (.refunds id)) :
    (transaction (deleteUser id tenantId)).Does W A := by
  refine does_transaction ?_ (asks_bind (asks_acquire _) fun _ => asks_bind (asks_get _) fun found => ?_)
  · simp only [deleteUser, bind_eq, writes_bind, writes_acquire, writes_get]
    refine fun db => writes_ite _ (fun _ => ?_) fun _ => writes_throw _
    exact writes_bind.mpr fun refers => writes_ite _ (fun _ => writes_throw _) fun _ => h
  · cases found
    · exact asks_throw _
    · refine asks_bind ((asks_query _).mpr hask) fun refers => ?_
      cases refers
      · exact asks_modify _
      · exact asks_throw _

theorem does_createApiKeyRow {row : ApiKey} {sha256 : String} (h : W (·.insertApiKey { row with keySha256 := some sha256 })) :
    (transaction (createApiKeyRow row sha256)).Does W A := by
  refine does_transaction ?_ (asks_bind (asks_acquire _) fun _ => asks_bind (asks_acquire _) fun _ =>
    asks_bind (asks_acquire _) fun _ => asks_bind (asks_get _) fun taken => ?_)
  · simp only [createApiKeyRow, bind_eq, writes_bind, writes_acquire, writes_get]
    exact fun db => writes_ite _ (fun _ => writes_throw _) fun _ => h
  · cases taken
    · exact asks_modify _
    · exact asks_throw _

theorem writes_updateApiKey {sid : String} {f : ApiKey → ApiKey} (h : W (·.setApiKey sid f)) :
    (updateApiKey sid f).Writes (fun w _ => W w) id := by
  simp only [updateApiKey, bind_eq, writes_bind, writes_acquire, writes_get]
  exact fun db => writes_ite _ (fun _ => h) fun _ => writes_throw _

theorem asks_updateApiKey (sid : String) (f : ApiKey → ApiKey) : (updateApiKey sid f).Asks A := by
  refine asks_bind (asks_acquire _) fun _ => asks_bind (asks_get _) fun found => ?_
  cases found
  · exact asks_throw _
  · exact asks_modify _

theorem does_updateApiKey {sid : String} {f : ApiKey → ApiKey} (h : W (·.setApiKey sid f)) :
    (transaction (updateApiKey sid f)).Does W A :=
  does_transaction (writes_updateApiKey h) (asks_updateApiKey sid f)

theorem does_updateKeySha256 {sid sha256 : String} (h : W (·.setApiKey sid fun r => { r with keySha256 := some sha256 })) :
    (transaction (updateKeySha256 sid sha256)).Does W A := by
  refine does_transaction ?_ (asks_bind (asks_acquire _) fun _ => asks_bind (asks_get _) fun taken => ?_)
  · simp only [updateKeySha256, bind_eq, writes_bind, writes_acquire, writes_get]
    exact fun db => writes_ite _ (fun _ => writes_throw _) fun _ => writes_updateApiKey h
  · cases taken
    · exact asks_updateApiKey _ _
    · exact asks_throw _

/-- The detached updates write what they say. -/
theorem does_detached {update : Detached}
    (hsha256 : ∀ sid sha256, update = .keySha256 sid sha256 → W (·.setApiKey sid fun r => { r with keySha256 := some sha256 }))
    (hused : ∀ sid time, update = .lastUsedAt sid time → W (·.setApiKey sid fun r => { r with lastUsedAt := some time })) :
    update.job.Does W A := by
  cases update with
  | keySha256 sid sha256 => exact (does_updateKeySha256 (hsha256 sid sha256 rfl)).orElse fun _ => does_ret ()
  | lastUsedAt sid time => exact (does_updateApiKey (hused sid time rfl)).orElse fun _ => does_ret ()

/-! ## Authentication -/

section Parts

variable (hid : W id) (hplain : ∀ q : Query, q.Plain → A q)
include hid hplain

omit hplain in
theorem does_lookup (f : Db → α) : (selectOnce f : Job α).Does W A := does_get hid f

omit hid in
theorem does_askPlain {q : Query} (hq : q.Plain) : (Backend.ask q).Does W A := does_query (hplain q hq)

theorem does_loadOwner {apiKey : ApiKey} (hdetach : ∀ time, A (.detach (.lastUsedAt apiKey.id time))) :
    (loadOwner apiKey).Does W A := by
  refine (does_lookup hid _).bind fun tenant => ?_
  cases tenant with
  | none => trivial
  | some tenant =>
      dsimp only
      split_ifs
      · trivial
      · refine (does_lookup hid _).bind fun owner => ?_
        cases owner with
        | none => trivial
        | some owner =>
            refine Transaction.Job.Does.bind (does_askPlain hplain (q := .now) trivial) fun time => ?_
            exact Transaction.Job.Does.bind (does_query (hdetach time)) fun _ => trivial

theorem does_authenticateApiKey (rt : Runtime) {token : String} (hdetach : ∀ update, A (.detach update)) :
    (authenticateApiKey rt token).Does W A := by
  refine (does_lookup hid _).bind fun apiKey => ?_
  cases apiKey with
  | some apiKey => exact does_loadOwner hid hplain fun _ => hdetach _
  | none =>
      refine (does_lookup hid _).bind fun candidates => ?_
      cases candidates.find? fun candidate => rt.bcryptCompare token candidate.keyHash with
      | none => trivial
      | some apiKey =>
          exact Transaction.Job.Does.bind (does_query (hdetach _)) fun _ => does_loadOwner hid hplain fun _ => hdetach _

theorem does_readTenantActive {tenantId : String} (hcache : ∀ entry, A (.cache tenantId entry)) :
    (readTenantActive tenantId).Does W A := by
  refine (does_lookup hid _).bind fun status => ?_
  refine Transaction.Job.Does.bind (does_askPlain hplain (q := .now) trivial) fun now => ?_
  exact Transaction.Job.Does.bind (does_query (hcache _)) fun _ => trivial

theorem does_checkTenantActive {tenantId : String} (hcache : ∀ entry, A (.cache tenantId entry)) :
    (checkTenantActive tenantId).Does W A := by
  refine Transaction.Job.Does.bind (does_askPlain hplain (q := .cached _) trivial) fun cached => ?_
  cases cached with
  | none => exact does_readTenantActive hid hplain hcache
  | some cached =>
      refine Transaction.Job.Does.bind (does_askPlain hplain (q := .now) trivial) fun now => ?_
      split_ifs
      · trivial
      · exact does_readTenantActive hid hplain hcache

theorem does_authenticateSession (rt : Runtime) (token : String) (hcache : ∀ tenantId entry, A (.cache tenantId entry)) :
    (authenticateSession rt token).Does W A := by
  refine Transaction.Job.Does.bind (Transaction.Job.Does.orElse ?_ fun _ => trivial) fun ⟨payload, tenantActive⟩ => ?_
  · refine Transaction.Job.Does.bind (does_askPlain hplain (q := .now) trivial) fun now => ?_
    cases rt.jwtVerify now token with
    | none => trivial
    | some payload =>
        exact (does_checkTenantActive hid hplain (hcache _)).bind fun _ => trivial
  · cases tenantActive <;> trivial

/-! ## Routes -/

omit hid in
theorem does_createApiKey (rt : Runtime) (user : AuthUser) (name : String)
    (hinsert : ∀ row, W (·.insertApiKey row)) : (createApiKey rt user name).Does W A := by
  refine Transaction.Job.Does.bind (does_askPlain hplain (q := .randomHex) trivial) fun random => ?_
  refine Transaction.Job.Does.bind (does_askPlain hplain (q := .bcryptHash _) trivial) fun keyHash => ?_
  refine Transaction.Job.Does.bind (does_askPlain hplain (q := .cuid) trivial) fun keyId => ?_
  exact Transaction.Job.Does.bind (does_createApiKeyRow (hinsert _)) fun _ => trivial

theorem does_revokeApiKey (user : AuthUser) (keyId : String)
    (hrevoke : ∀ sid time, W (·.setApiKey sid fun r => { r with revokedAt := some time })) :
    (revokeApiKey user keyId).Does W A := by
  refine (does_lookup hid _).bind fun key => ?_
  cases key with
  | none => trivial
  | some key =>
      refine Transaction.Job.Does.bind (does_askPlain hplain (q := .now) trivial) fun time => ?_
      exact Transaction.Job.Does.bind (does_updateApiKey (hrevoke key.id time)) fun _ => trivial

theorem does_invite (user : AuthUser) (email roleText password : String)
    (hinsert : ∀ row : User, row.tenantId = user.tenantId → parseRole roleText = .ok row.role → W (·.insertUser row)) :
    (invite user email roleText password).Does W A := by
  unfold invite
  cases hrole : parseRole roleText with
  | error e => trivial
  | ok role =>
      refine (does_lookup hid _).bind fun existing => ?_
      cases existing with
      | some _ => trivial
      | none =>
          refine Transaction.Job.Does.bind (does_askPlain hplain (q := .bcryptHash _) trivial) fun passwordHash => ?_
          refine Transaction.Job.Does.bind (does_askPlain hplain (q := .cuid) trivial) fun userId => ?_
          exact Transaction.Job.Does.bind (does_createUser (hinsert _ rfl hrole)) fun _ => trivial

omit hplain in
theorem does_checkLastOwner (user : AuthUser) (userId : String) (role : UserRole) :
    (checkLastOwner user userId role).Does W A := by
  unfold checkLastOwner
  split_ifs
  · refine (does_lookup hid _).bind fun ownerCount => ?_
    split_ifs <;> trivial
  · trivial

omit hplain in
theorem does_changeRole (user : AuthUser) (userId roleText : String)
    (hrole : ∀ role, parseRole roleText = .ok role → W (·.setUserRole userId user.tenantId role)) :
    (changeRole user userId roleText).Does W A := by
  unfold changeRole
  cases hparse : parseRole roleText with
  | error e => trivial
  | ok role =>
      refine (does_checkLastOwner hid user userId role).bind fun _ => ?_
      exact Transaction.Job.Does.bind (does_updateUserRole (hrole role hparse)) fun _ => trivial

omit hid in
theorem does_removeUser (user : AuthUser) (userId : String) (hdelete : W (·.deleteUser userId user.tenantId)) :
    (removeUser user userId).Does W A := by
  unfold removeUser
  split_ifs
  · trivial
  · exact Transaction.Job.Does.bind (does_deleteUser hdelete (hplain _ trivial)) fun _ => trivial

omit hid hplain in
theorem does_setTenantStatus {tenantId : String} {status : TenantStatus} (h : W (·.setTenantStatus tenantId status)) :
    (setTenantStatus tenantId status).Does W A :=
  Transaction.Job.Does.bind (does_updateTenantStatus h) fun _ => trivial

omit hid hplain in
theorem does_requireRole (roles : List UserRole) (user : AuthUser) : (requireRole roles user).Does W A := by
  unfold requireRole
  split_ifs <;> trivial

omit hid in
theorem does_signToken (rt : Runtime) (payload : JwtPayload) : (signToken rt payload).Does W A :=
  Transaction.Job.Does.bind (does_askPlain hplain (q := .now) trivial) fun _ => trivial

theorem does_register (rt : Runtime) (email password : String)
    (hinsert : ∀ row : User, row.role = .owner →
      W fun db => (db.insertTenant { id := row.tenantId, status := .active }).insertUser row) :
    (register rt email password).Does W A := by
  refine (does_lookup hid _).bind fun existing => ?_
  cases existing with
  | some _ => trivial
  | none =>
      refine Transaction.Job.Does.bind (does_askPlain hplain (q := .bcryptHash _) trivial) fun passwordHash => ?_
      refine Transaction.Job.Does.bind (does_transaction ?_ ?_) fun user => does_signToken hplain rt user.payload
      · simp only [createTenant, createUser, bind_eq, pure_eq, writes_bind, writes_acquire, writes_get, writes_ret]
        refine fun tenantId db => writes_ite _ (fun _ => writes_throw _) fun _ => (writes_modify _).mpr ?_
        refine fun userId db' => writes_ite _ (fun _ => writes_throw _) fun _ => (writes_modify _).mpr ?_
        exact hinsert { id := userId, tenantId, email, passwordHash, role := .owner } rfl
      · refine asks_bind ((asks_query _).mpr (hplain _ trivial)) fun tenantId => ?_
        refine asks_bind (asks_bind (asks_acquire _) fun _ => asks_bind (asks_get _) fun taken => ?_) fun _ =>
          asks_bind ((asks_query _).mpr (hplain _ trivial)) fun userId => ?_
        · cases taken
          · exact asks_modify _
          · exact asks_throw _
        · refine asks_bind (asks_bind (asks_acquire _) fun _ => asks_bind (asks_acquire _) fun _ =>
            asks_bind (asks_get _) fun taken => ?_) fun _ => asks_ret _
          cases taken
          · exact asks_modify _
          · exact asks_throw _

theorem does_login (rt : Runtime) (email password : String) : (login rt email password).Does W A := by
  refine (does_lookup hid _).bind fun user => ?_
  cases user with
  | none => trivial
  | some user =>
      dsimp only
      split_ifs
      · refine (does_lookup hid _).bind fun tenant => ?_
        cases tenant with
        | none => trivial
        | some tenant =>
            dsimp only
            split_ifs
            · trivial
            · exact does_signToken hplain rt user.payload
      · trivial

end Parts

end CorpoPay.Access
