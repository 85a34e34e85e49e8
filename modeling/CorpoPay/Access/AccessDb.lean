import CorpoPay.Settlement.Db
import CorpoPay.Transaction.Pool

/-!
# Tenants, users and API keys

The rows that a request is authenticated by, and the outside world of the requests: the clock, fresh texts, and the cache of
the statuses of tenants, which is kept in memory. A request does not wait for some of its updates: they are detached, and the
database makes them at any later time. The names of tenants and the audit log are left out: nothing reads them.
-/

namespace CorpoPay.Access

open Settlement (TenantStatus)

inductive UserRole
  | owner
  | staff
  | supportAdmin
  | superAdmin
  deriving DecidableEq, Repr

structure Tenant where
  id : String
  status : TenantStatus
  deriving DecidableEq, Repr

structure User where
  id : String
  tenantId : String
  email : String
  passwordHash : String
  role : UserRole
  deriving DecidableEq, Repr

structure ApiKey where
  id : String
  tenantId : String
  name : String
  /-- The bcrypt hash, kept for the keys that have no other one. -/
  keyHash : String
  keySha256 : Option String
  keyPrefix : String
  lastUsedAt : Option Nat
  revokedAt : Option Nat
  deriving DecidableEq, Repr

structure Db where
  tenants : List Tenant
  users : List User
  apiKeys : List ApiKey
  deriving DecidableEq, Repr

/-! ## The outside world -/

structure CacheEntry where
  status : TenantStatus
  expiresAt : Nat
  deriving DecidableEq, Repr

/-- An update that its request does not wait for. -/
inductive Detached
  | keySha256 (id : String) (sha256 : String)
  | lastUsedAt (id : String) (time : Nat)
  deriving DecidableEq, Repr

inductive Query
  | now
  | cuid
  /-- `crypto.randomBytes(32)` in hex. -/
  | randomHex
  /-- `bcrypt.hash(…)`, with a fresh salt. -/
  | bcryptHash (text : String)
  | cached (tenantId : String)
  | cache (tenantId : String) (entry : CacheEntry)
  | detach (update : Detached)
  /-- The database turns to one of the detached updates. -/
  | takeDetached (n : Nat)
  /-- Whether a refund refers to the user. -/
  | refunds (userId : String)
  deriving Repr

abbrev Answer : Query → Type
  | .now => Nat
  | .cuid => String
  | .randomHex => String
  | .bcryptHash _ => String
  | .cached _ => Option CacheEntry
  | .cache _ _ => Unit
  | .detach _ => Unit
  | .takeDetached _ => Option Detached
  | .refunds _ => Bool

/-- What the outside world decides at each answer. -/
structure Oracle where
  tick : Nat → Nat
  cuid : Nat → String
  randomHex : Nat → String
  bcryptHash : Nat → String → String
  refunds : Nat → String → Bool

structure World where
  clock : Nat
  answered : Nat
  oracle : Oracle
  tenantStatusCache : String → Option CacheEntry
  detached : List Detached

namespace World

def answer (w : World) : (q : Query) → Answer q
  | .now => w.clock
  | .cuid => w.oracle.cuid w.answered
  | .randomHex => w.oracle.randomHex w.answered
  | .bcryptHash text => w.oracle.bcryptHash w.answered text
  | .cached tenantId => w.tenantStatusCache tenantId
  | .cache _ _ => ()
  | .detach _ => ()
  | .takeDetached n => w.detached[n]?
  | .refunds userId => w.oracle.refunds w.answered userId

def effect (w : World) : Query → World
  | .now | .cuid | .randomHex | .bcryptHash _ | .cached _ | .refunds _ => w
  | .cache tenantId entry =>
      { w with tenantStatusCache := fun t => if t = tenantId then some entry else w.tenantStatusCache t }
  | .detach update => { w with detached := w.detached ++ [update] }
  | .takeDetached n => { w with detached := w.detached.eraseIdx n }

/-- Time passes with every answer. -/
def pass (w : World) : World :=
  { w with clock := w.clock + w.oracle.tick w.answered, answered := w.answered + 1 }

def reply (w : World) (q : Query) : Answer q × World := (w.answer q, (w.effect q).pass)

end World

inductive Failure
  /-- A status, a code and a message. -/
  | appError (statusCode : Nat) (code message : String)
  | validationError (path : String)
  | prismaError (code : String)
  | aborted
  deriving DecidableEq, Repr

/-- The unique columns. -/
inductive DbLock
  | tenant (id : String)
  | user (id : String)
  | email (tenantId email : String)
  | apiKey (id : String)
  | keyHash (keyHash : String)
  | keySha256 (keySha256 : String)
  deriving DecidableEq, Repr

abbrev Backend : Transaction.Interface where
  Store := Db
  Lock := DbLock
  World := World
  Query := Query
  Answer := Answer
  reply := World.reply
  Err := Failure
  aborted := .aborted

abbrev Tx := Transaction.Tx Backend

abbrev Job := Transaction.Job Backend

export Transaction (select change transaction selectOnce)

/-! ## Rows -/

namespace Db

def tenant (db : Db) (id : String) : Option Tenant := db.tenants.find? (·.id = id)

/-- The status of a tenant. One that is not there counts as disabled. -/
def tenantStatus (db : Db) (id : String) : TenantStatus := (db.tenant id).elim .disabled (·.status)

def owner (db : Db) (tenantId : String) : Option User := db.users.find? fun r => r.tenantId = tenantId ∧ r.role = .owner

def insertTenant (row : Tenant) (db : Db) : Db := { db with tenants := db.tenants ++ [row] }

def setTenantStatus (id : String) (status : TenantStatus) (db : Db) : Db :=
  { db with tenants := db.tenants.map fun r => if r.id = id then { r with status } else r }

def insertUser (row : User) (db : Db) : Db := { db with users := db.users ++ [row] }

def setUserRole (id tenantId : String) (role : UserRole) (db : Db) : Db :=
  { db with users := db.users.map fun r => if r.id = id ∧ r.tenantId = tenantId then { r with role } else r }

def deleteUser (id tenantId : String) (db : Db) : Db :=
  { db with users := db.users.filter fun r => ¬ (r.id = id ∧ r.tenantId = tenantId) }

def insertApiKey (row : ApiKey) (db : Db) : Db := { db with apiKeys := db.apiKeys ++ [row] }

def setApiKey (id : String) (f : ApiKey → ApiKey) (db : Db) : Db :=
  { db with apiKeys := db.apiKeys.map fun r => if r.id = id then f r else r }

end Db

/-! ## Statements -/

def notFound : Failure := .prismaError "P2025"

def notUnique : Failure := .prismaError "P2002"

def createTenant (row : Tenant) : Tx Unit := do
  Backend.lock (.tenant row.id)
  if ← select (·.tenants.any (·.id = row.id)) then Backend.fail notUnique
  else change (·.insertTenant row)

def updateTenantStatus (id : String) (status : TenantStatus) : Tx Unit := do
  Backend.lock (.tenant id)
  if ← select (·.tenants.any (·.id = id)) then change (·.setTenantStatus id status)
  else Backend.fail notFound

/-- Insert a `User` row: its id and its email in the tenant are unique. -/
def createUser (row : User) : Tx Unit := do
  Backend.lock (.user row.id)
  Backend.lock (.email row.tenantId row.email)
  if ← select (·.users.any fun r => r.id = row.id ∨ r.tenantId = row.tenantId ∧ r.email = row.email) then Backend.fail notUnique
  else change (·.insertUser row)

/-- `prisma.user.update({ where: { id, tenantId } })` -/
def updateUserRole (id tenantId : String) (role : UserRole) : Tx Unit := do
  Backend.lock (.user id)
  if ← select (·.users.any fun r => r.id = id ∧ r.tenantId = tenantId) then change (·.setUserRole id tenantId role)
  else Backend.fail notFound

/-- `prisma.user.delete({ where: { id, tenantId } })`. A refund keeps its initiator. -/
def deleteUser (id tenantId : String) : Tx Unit := do
  Backend.lock (.user id)
  if ← select (·.users.any fun r => r.id = id ∧ r.tenantId = tenantId) then
    if ← @Transaction.Tx.query Backend (.refunds id) then Backend.fail (.prismaError "P2003")
    else change (·.deleteUser id tenantId)
  else Backend.fail notFound

/-- Insert an `ApiKey` row with its `keySha256`: its id and its hashes are unique. -/
def createApiKeyRow (row : ApiKey) (sha256 : String) : Tx Unit := do
  Backend.lock (.apiKey row.id)
  Backend.lock (.keyHash row.keyHash)
  Backend.lock (.keySha256 sha256)
  if ← select (·.apiKeys.any fun r => r.id = row.id ∨ r.keyHash = row.keyHash ∨ r.keySha256 = some sha256) then Backend.fail notUnique
  else change (·.insertApiKey { row with keySha256 := some sha256 })

def updateApiKey (id : String) (f : ApiKey → ApiKey) : Tx Unit := do
  Backend.lock (.apiKey id)
  if ← select (·.apiKeys.any (·.id = id)) then change (·.setApiKey id f)
  else Backend.fail notFound

/-- The update of a unique column. -/
def updateKeySha256 (id sha256 : String) : Tx Unit := do
  Backend.lock (.keySha256 sha256)
  if ← select (·.apiKeys.any fun r => r.keySha256 = some sha256 ∧ r.id ≠ id) then Backend.fail notUnique
  else updateApiKey id fun r => { r with keySha256 := some sha256 }

/-- What becomes of a detached update. Nobody learns of its error. -/
def Detached.job : Detached → Job Unit
  | .keySha256 id sha256 => (transaction (updateKeySha256 id sha256)).orElse fun _ => pure ()
  | .lastUsedAt id time => (transaction (updateApiKey id fun r => { r with lastUsedAt := some time })).orElse fun _ => pure ()

end CorpoPay.Access
