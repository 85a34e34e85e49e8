import CorpoPay.Data.Truth
import Mathlib.Logic.Function.Basic

/-!
# The tenant database

`lib/tenant-db.ts`: the client of a tenant adds its `tenantId` to the filter of a call. The filters and the calls are
those of the Prisma client.
-/

namespace CorpoPay.Tenancy

open Data (Truth)

/-! ## Models -/

/-- The models of the schema. -/
inductive Model where
  | Tenant | User | ProviderConfig | PaymentLink | PaymentIntent | ProviderTransaction | Refund | WebhookEvent | ApiKey
  | AuditLog | ProviderHealth | Subscription | BillingEvent | InstallmentPlan | InstallmentAgreement | InstallmentCharge
  | LedgerEntry | FeeSchedule | SettlementPolicy | Payout | PayoutItem | Dispute | Recovery | SplitParty | SplitRule
  | Split | ReconciliationReport | ReconciliationLine | SettlementStatement | SettlementStatementItem
  | MerchantOnboarding | RiskDecision | FinanceConfig | Wallet | WalletTransaction
  deriving DecidableEq, Repr

/-- How a model declares its `tenantId` column. -/
inductive TenantColumn where
  | required | optional | absent
  deriving DecidableEq, Repr

/-- The `tenantId` column in the schema. -/
def Model.tenantId : Model → TenantColumn
  | .Tenant | .ProviderTransaction | .ProviderHealth | .BillingEvent | .InstallmentCharge | .PayoutItem
  | .ReconciliationLine | .SettlementStatementItem => .absent
  | .WebhookEvent | .AuditLog => .optional
  | _ => .required

def TENANT_SCOPED_MODELS : List Model :=
  [.User, .ProviderConfig, .PaymentLink, .PaymentIntent, .Refund, .ApiKey, .Subscription, .InstallmentPlan,
    .InstallmentAgreement, .LedgerEntry, .FeeSchedule, .SettlementPolicy, .Payout, .PayoutItem, .Dispute, .Recovery,
    .SplitParty, .SplitRule, .Split, .ReconciliationReport, .SettlementStatement, .MerchantOnboarding, .FinanceConfig,
    .Wallet, .WalletTransaction]

def isTenantScopedModel (model : Model) : Bool := model ∈ TENANT_SCOPED_MODELS

/-! ## Rows and filters -/

inductive Value where
  | null
  | string (s : String)
  | number (n : Int)
  | boolean (b : Bool)
  deriving DecidableEq, Repr

/-- A row, column by column. -/
structure Row where
  value : String → Value

def Row.tenantId (row : Row) : Value := row.value "tenantId"

structure Database where
  rows : Model → List Row

/-- A relation field: the model it leads to and which of its rows belong to a row. -/
structure Relation where
  model : Model
  joins : Row → Row → Bool

def Relation.related (relation : Relation) (db : Database) (row : Row) : List Row :=
  (db.rows relation.model).filter (relation.joins row)

/-- An entry of a `where` object, with the condition of its key. A relation entry says by `holds` what follows from the
conditions on the related rows (`some`, `every`, `none`, `is`, `isNot`). -/
inductive Clause where
  | field (name : String) (condition : Value → Truth)
  | relation (name : String) (relation : Relation) (holds : List Truth → Truth) (criteria : List Clause)
  | AND (criteria : List (List Clause))
  | OR (criteria : List (List Clause))
  | NOT (criteria : List (List Clause))

/-- A `where` object. -/
abbrev Where := List Clause

def Clause.key : Clause → String
  | .field name _ => name
  | .relation name .. => name
  | .AND _ => "AND"
  | .OR _ => "OR"
  | .NOT _ => "NOT"

/-- `{ ...criteria, [key]: value }`. -/
def Where.assign (criteria : Where) (clause : Clause) : Where :=
  if criteria.any (·.key = clause.key) then criteria.map fun c => if c.key = clause.key then clause else c
  else criteria ++ [clause]

mutual
/-- What a condition says of a row. -/
def Clause.eval (db : Database) (row : Row) : Clause → Truth
  | .field name condition => condition (row.value name)
  | .relation _ relation holds criteria => holds ((relation.related db row).map fun r => Where.eval db r criteria)
  | .AND criteria => Truth.all (Where.evalEach db row criteria)
  | .OR criteria => Truth.any (Where.evalEach db row criteria)
  | .NOT criteria => Truth.all ((Where.evalEach db row criteria).map Truth.not)

/-- The entries of an object hold together. -/
def Where.eval (db : Database) (row : Row) : List Clause → Truth
  | [] => some true
  | clause :: rest => (clause.eval db row).and (Where.eval db row rest)

def Where.evalEach (db : Database) (row : Row) : List (List Clause) → List Truth
  | [] => []
  | criteria :: rest => Where.eval db row criteria :: Where.evalEach db row rest
end

mutual
/-- The columns and relations of the model that a condition names. -/
def Clause.names : Clause → List String
  | .field name _ => [name]
  | .relation name .. => [name]
  | .AND criteria => Where.namesEach criteria
  | .OR criteria => Where.namesEach criteria
  | .NOT criteria => Where.namesEach criteria

def Where.names : List Clause → List String
  | [] => []
  | clause :: rest => clause.names ++ Where.names rest

def Where.namesEach : List (List Clause) → List String
  | [] => []
  | criteria :: rest => Where.names criteria ++ Where.namesEach rest
end

/-- The client refuses a filter by tenant on a model without the column. -/
def Where.invalid (criteria : Where) (model : Model) : Bool :=
  model.tenantId = .absent ∧ "tenantId" ∈ Where.names criteria

/-- The database selects a row on which the filter is true, not one on which it is unknown. -/
def Where.selects (criteria : Where) (db : Database) (row : Row) : Bool := Where.eval db row criteria = some true

/-- The condition `tenantId: "…"`. -/
def tenantClause (tenantId : String) : Clause := .field "tenantId" fun value => some (value = .string tenantId)

/-! ## Calls -/

inductive Operation where
  | findUnique | findUniqueOrThrow | findFirst | findFirstOrThrow | findMany | create | createMany
  | createManyAndReturn | update | updateMany | updateManyAndReturn | upsert | delete | deleteMany | count | aggregate
  | groupBy
  deriving DecidableEq, Repr

def FILTER_OPERATIONS : List Operation :=
  [.findMany, .findFirst, .findFirstOrThrow, .count, .aggregate, .groupBy, .updateMany, .deleteMany]

/-- The arguments of a call. `arrange` is what `orderBy`, `distinct`, `skip` and `take` make of the selected rows,
`project` what `select` keeps of a row, `summarize` what `by`, `having` and the aggregates compute, `data` what an
update writes into a row. -/
structure Args where
  criteria : Option Where := none
  arrange : List Row → List Row := id
  project : Row → Row := id
  summarize : List Row → List Row := id
  data : Row → Row := id

def withTenantFilter (tenantId : String) (model : Model) (operation : Operation) (args : Option Args) : Option Args :=
  if !isTenantScopedModel model then args
  else if operation ∉ FILTER_OPERATIONS then args
  else
    let current := args.getD {}
    some { current with criteria := some ((current.criteria.getD []).assign (tenantClause tenantId)) }

inductive Result where
  | rows (rows : List Row)
  | row (row : Option Row)
  | notFound
  | invalid
  | count (count : Nat)
  | summary (rows : List Row)

def Database.set (db : Database) (model : Model) (rows : List Row) : Database :=
  ⟨Function.update db.rows model rows⟩

/-- The rows a filter selects. -/
def Database.select (db : Database) (model : Model) (criteria : Where) : List Row :=
  (db.rows model).filter (criteria.selects db)

/-- What a filter call answers from the rows it selects. -/
def Operation.answer (operation : Operation) (args : Args) (selected : List Row) : Result :=
  match operation with
  | .findMany => .rows ((args.arrange selected).map args.project)
  | .findFirst => .row ((args.arrange selected).head?.map args.project)
  | .findFirstOrThrow =>
    match (args.arrange selected).head? with
    | none => .notFound
    | some r => .row (some (args.project r))
  | .count => .count (args.arrange selected).length
  | .aggregate | .groupBy => .summary (args.summarize (args.arrange selected))
  | _ => .count selected.length

/-- What a filter call leaves of a row. -/
def Operation.write (operation : Operation) (args : Args) (selects : Row → Bool) (r : Row) : Option Row :=
  match operation with
  | .updateMany => some (if selects r then args.data r else r)
  | .deleteMany => if selects r then none else some r
  | _ => some r

/-- The calls by a unique selector and the calls that create rows, as the database answers them. -/
structure Engine where
  answer : Model → Operation → Option Args → Database → Result × Database

/-- A call of the client. -/
def Engine.query (engine : Engine) (model : Model) (operation : Operation) (args : Option Args) (db : Database) :
    Result × Database :=
  if operation ∈ FILTER_OPERATIONS then
    let current := args.getD {}
    let criteria := current.criteria.getD []
    if criteria.invalid model then (.invalid, db)
    else
      (operation.answer current (db.select model criteria),
        db.set model ((db.rows model).filterMap (operation.write current (criteria.selects db))))
  else engine.answer model operation args db

/-- The client of a tenant. -/
def forTenant (engine : Engine) (tenantId : String) (model : Model) (operation : Operation) (args : Option Args)
    (db : Database) : Result × Database :=
  engine.query model operation (withTenantFilter tenantId model operation args) db

end CorpoPay.Tenancy
