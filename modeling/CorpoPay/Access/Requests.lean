import CorpoPay.Access.AccessDb

/-!
# Requests (`middleware/auth.ts`, `routes/auth.ts`, `routes/users.ts`, `routes/apiKeys.ts`, `routes/tenant.ts`)

A request is authenticated by a session or by an API key before its route runs. The checks of the bodies are left out, except
the one of a role.
-/

namespace CorpoPay.Access

open Settlement (TenantStatus)
open Transaction.Job (ofExcept)

structure JwtPayload where
  sub : String
  tenantId : String
  role : UserRole
  email : String
  deriving DecidableEq, Repr

/-- `req.user` -/
structure AuthUser where
  id : String
  tenantId : String
  role : UserRole
  email : String
  deriving DecidableEq, Repr

/-- The functions of the libraries that the requests call. -/
structure Runtime where
  /-- In hex. -/
  sha256 : String → String
  /-- `bcrypt.compare(…)` of a text with a hash. -/
  bcryptCompare : String → String → Bool
  /-- `jwt.verify(…)` at a time, or the error that it throws. -/
  jwtVerify : Nat → String → Option JwtPayload
  jwtSign : Nat → JwtPayload → String

/-! ## Sessions -/

def TENANT_CACHE_TTL_MS : Nat := 60000

/-- The status as the database has it, which is cached. -/
def readTenantActive (tenantId : String) : Job Bool := do
  let status ← selectOnce (·.tenantStatus tenantId)
  let now ← Backend.ask .now
  Backend.ask (.cache tenantId { status, expiresAt := now + TENANT_CACHE_TTL_MS })
  pure (status = TenantStatus.active)

def checkTenantActive (tenantId : String) : Job Bool := do
  match ← Backend.ask (.cached tenantId) with
  | none => readTenantActive tenantId
  | some cached => do
      let now ← Backend.ask .now
      if now < cached.expiresAt then pure (cached.status = TenantStatus.active) else readTenantActive tenantId

def tokenInvalid : Failure := .appError 401 "TOKEN_INVALID" "Invalid or expired token"

def tenantDisabled : Failure := .appError 403 "TENANT_DISABLED" "Tenant is disabled"

def JwtPayload.user (payload : JwtPayload) : AuthUser :=
  { id := payload.sub, tenantId := payload.tenantId, role := payload.role, email := payload.email }

/-- The payload of a session, and whether its tenant is active. -/
def verifySession (rt : Runtime) (token : String) : Job (JwtPayload × Bool) := do
  let now ← Backend.ask .now
  match rt.jwtVerify now token with
  | none => Backend.throw tokenInvalid
  | some payload => do
      let tenantActive ← checkTenantActive payload.tenantId
      pure (payload, tenantActive)

/-- The JWT path. Every error is the one of a bad token. -/
def authenticateSession (rt : Runtime) (token : String) : Job AuthUser := do
  let (payload, tenantActive) ← (verifySession rt token).orElse fun _ => Backend.throw tokenInvalid
  if tenantActive then pure payload.user else Backend.throw tenantDisabled

/-! ## API keys -/

/-- `token.slice(0, 16)` -/
def keyPrefixOf (token : String) : String := String.ofList (token.toList.take 16)

def keyInvalid : Failure := .appError 401 "UNAUTHORIZED" "Invalid or revoked API key"

/-- The owner of the tenant of a key. -/
def loadOwner (apiKey : ApiKey) : Job AuthUser := do
  match ← selectOnce (·.tenant apiKey.tenantId) with
  | none => Backend.throw tenantDisabled
  | some tenant =>
      if tenant.status = .disabled then Backend.throw tenantDisabled
      else
        match ← selectOnce (·.owner apiKey.tenantId) with
        | none => Backend.throw (.appError 500 "INTERNAL_ERROR" "Tenant has no owner user")
        | some owner => do
            let lastUsedAt ← Backend.ask .now
            Backend.ask (.detach (.lastUsedAt apiKey.id lastUsedAt))
            pure { id := owner.id, tenantId := apiKey.tenantId, role := .owner, email := owner.email }

/-- The API key path: by the indexed hash, or else by the bcrypt hash of the keys that have no indexed one yet. -/
def authenticateApiKey (rt : Runtime) (token : String) : Job AuthUser := do
  let sha256 := rt.sha256 token
  match ← selectOnce (·.apiKeys.find? fun r => r.keySha256 = some sha256 ∧ r.revokedAt = none) with
  | some apiKey => loadOwner apiKey
  | none => do
      let candidates ← selectOnce (·.apiKeys.filter fun r =>
        r.keyPrefix = keyPrefixOf token ∧ r.keySha256 = none ∧ r.revokedAt = none)
      match candidates.find? fun candidate => rt.bcryptCompare token candidate.keyHash with
      | none => Backend.throw keyInvalid
      | some apiKey => do
          Backend.ask (.detach (.keySha256 apiKey.id sha256))
          loadOwner apiKey

/-! ## The middleware -/

/-- The token of an `Authorization` header. -/
def bearerToken (header : Option String) : Option String :=
  header.bind fun text =>
    if "Bearer ".toList.isPrefixOf text.toList then some (String.ofList (text.toList.drop 7)) else none

def isApiKey (token : String) : Bool :=
  "cp_live_".toList.isPrefixOf token.toList || "cp_test_".toList.isPrefixOf token.toList

def requireAuth (rt : Runtime) (header : Option String) : Job AuthUser :=
  match bearerToken header with
  | none => Backend.throw (.appError 401 "UNAUTHORIZED" "Missing or invalid Authorization header")
  | some token => if isApiKey token then authenticateApiKey rt token else authenticateSession rt token

def requireRole (roles : List UserRole) (user : AuthUser) : Job Unit :=
  if user.role ∈ roles then pure () else Backend.throw (.appError 403 "FORBIDDEN" "Forbidden")

def requireOwner : AuthUser → Job Unit := requireRole [.owner]

def requireSuperAdmin : AuthUser → Job Unit := requireRole [.superAdmin]

/-! ## Routes -/

inductive Response
  /-- The request goes on to its route. -/
  | next (user : AuthUser)
  | session (token : String) (user : AuthUser)
  | apiKey (id rawKey : String)
  | done
  deriving DecidableEq, Repr

/-- `POST /api-keys` -/
def createApiKey (rt : Runtime) (user : AuthUser) (name : String) : Job Response := do
  let rawKey := "cp_live_" ++ (← Backend.ask .randomHex)
  let keyHash ← Backend.ask (.bcryptHash rawKey)
  let sha256 := rt.sha256 rawKey
  let id ← Backend.ask .cuid
  let row : ApiKey :=
    { id, tenantId := user.tenantId, name, keyHash, keySha256 := none, keyPrefix := keyPrefixOf rawKey
      lastUsedAt := none, revokedAt := none }
  transaction (createApiKeyRow row sha256)
  pure (.apiKey id rawKey)

/-- `DELETE /api-keys/:id` -/
def revokeApiKey (user : AuthUser) (id : String) : Job Response := do
  match ← selectOnce (·.apiKeys.find? fun r => r.id = id ∧ r.revokedAt = none ∧ r.tenantId = user.tenantId) with
  | none => Backend.throw (.appError 404 "KEY_NOT_FOUND" "API key not found")
  | some key => do
      let revokedAt ← Backend.ask .now
      transaction (updateApiKey key.id fun r => { r with revokedAt := some revokedAt })
      pure .done

/-- The role that a schema lets through. -/
def parseRole : String → Except Failure UserRole
  | "STAFF" => .ok .staff
  | "OWNER" => .ok .owner
  | _ => .error (.validationError "role")

/-- `POST /users/invite` -/
def invite (user : AuthUser) (email roleText password : String) : Job Response := do
  let role ← @ofExcept Backend _ (parseRole roleText)
  match ← selectOnce (·.users.find? fun r => r.email = email ∧ r.tenantId = user.tenantId) with
  | some _ => Backend.throw (.appError 409 "EMAIL_TAKEN" "User with this email already exists in your workspace")
  | none => do
      let passwordHash ← Backend.ask (.bcryptHash password)
      let id ← Backend.ask .cuid
      transaction (createUser { id, tenantId := user.tenantId, email, passwordHash, role })
      pure .done

def Db.ownerCount (db : Db) (tenantId : String) : Nat := db.users.countP fun r => r.role = .owner ∧ r.tenantId = tenantId

/-- Prevent an owner from demoting himself if he is the only one. -/
def checkLastOwner (user : AuthUser) (id : String) (role : UserRole) : Job Unit :=
  if id = user.id ∧ role ≠ .owner then do
    let ownerCount ← selectOnce (·.ownerCount user.tenantId)
    if ownerCount ≤ 1 then Backend.throw (.appError 400 "LAST_OWNER" "Cannot remove the only owner from the tenant")
    else pure ()
  else pure ()

/-- `PATCH /users/:id/role` -/
def changeRole (user : AuthUser) (id roleText : String) : Job Response := do
  let role ← @ofExcept Backend _ (parseRole roleText)
  checkLastOwner user id role
  transaction (updateUserRole id user.tenantId role)
  pure .done

/-- `DELETE /users/:id` -/
def removeUser (user : AuthUser) (id : String) : Job Response :=
  if id = user.id then Backend.throw (.appError 400 "CANNOT_DELETE_SELF" "Cannot remove your own account")
  else do
    transaction (deleteUser id user.tenantId)
    pure .done

/-- `PATCH /admin/tenants/:id/status` -/
def setTenantStatus (id : String) (status : TenantStatus) : Job Response := do
  transaction (updateTenantStatus id status)
  pure .done

def User.payload (user : User) : JwtPayload :=
  { sub := user.id, tenantId := user.tenantId, role := user.role, email := user.email }

/-- `signToken(…)` -/
def signToken (rt : Runtime) (payload : JwtPayload) : Job Response := do
  let now ← Backend.ask .now
  pure (.session (rt.jwtSign now payload) payload.user)

/-- `POST /auth/register` -/
def register (rt : Runtime) (email password : String) : Job Response := do
  match ← selectOnce (·.users.find? (·.email = email)) with
  | some _ => Backend.throw (.appError 409 "EMAIL_TAKEN" "An account with this email already exists")
  | none => do
      let passwordHash ← Backend.ask (.bcryptHash password)
      let user ← transaction do
        let tenantId ← @Transaction.Tx.query Backend .cuid
        createTenant { id := tenantId, status := .active }
        let id ← @Transaction.Tx.query Backend .cuid
        let user : User := { id, tenantId, email, passwordHash, role := .owner }
        createUser user
        pure user
      signToken rt user.payload

/-- `POST /auth/login` -/
def login (rt : Runtime) (email password : String) : Job Response := do
  let invalid := .appError 401 "INVALID_CREDENTIALS" "Invalid email or password"
  match ← selectOnce (·.users.find? (·.email = email)) with
  | none => Backend.throw invalid
  | some user =>
      if ¬ rt.bcryptCompare password user.passwordHash then Backend.throw invalid
      else
        match ← selectOnce (·.tenant user.tenantId) with
        | none => Backend.throw (.appError 403 "TENANT_DISABLED" "This account has been disabled")
        | some tenant =>
            if tenant.status = .disabled then Backend.throw (.appError 403 "TENANT_DISABLED" "This account has been disabled")
            else signToken rt user.payload

/-- What a request asks for once it is authenticated. -/
inductive Route
  /-- A route of another module. -/
  | elsewhere
  | createApiKey (name : String)
  | revokeApiKey (id : String)
  | invite (email role password : String)
  | changeRole (id role : String)
  | removeUser (id : String)
  | setTenantStatus (id : String) (status : TenantStatus)

/-- The check of the role, and what follows it. -/
def Route.handle (rt : Runtime) (user : AuthUser) : Route → Job Response
  | .elsewhere => pure (.next user)
  | .createApiKey name => do requireOwner user; Access.createApiKey rt user name
  | .revokeApiKey id => do requireOwner user; Access.revokeApiKey user id
  | .invite email role password => do requireOwner user; Access.invite user email role password
  | .changeRole id role => do requireOwner user; Access.changeRole user id role
  | .removeUser id => do requireOwner user; Access.removeUser user id
  | .setTenantStatus id status => do requireSuperAdmin user; Access.setTenantStatus id status

inductive AccessRequest
  | routed (header : Option String) (route : Route)
  | register (email password : String)
  | login (email password : String)
  /-- The database makes an update that a request has detached. -/
  | detached (n : Nat)

def AccessRequest.job (rt : Runtime) : AccessRequest → Job Response
  | .routed header route => do
      let user ← requireAuth rt header
      route.handle rt user
  | .register email password => Access.register rt email password
  | .login email password => Access.login rt email password
  | .detached n => do
      match ← Backend.ask (.takeDetached n) with
      | none => pure .done
      | some update => do
          update.job
          pure .done

end CorpoPay.Access
