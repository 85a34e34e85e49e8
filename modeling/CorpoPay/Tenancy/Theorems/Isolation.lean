import CorpoPay.Data.Observation
import CorpoPay.Tenancy.TenantDb

/-!
# Main theorem: tenant isolation

A call through the client of a tenant shows what the rows of the tenant determine and changes no other row. This holds
of the models in the list.
-/

namespace CorpoPay.Tenancy

open Data (Truth)

/-! ## The rows of a tenant -/

mutual
/-- The relations that a condition reads. -/
def Clause.relations : Clause → List Relation
  | .field .. => []
  | .relation _ relation _ criteria => relation :: Where.relations criteria
  | .AND criteria => Where.relationsEach criteria
  | .OR criteria => Where.relationsEach criteria
  | .NOT criteria => Where.relationsEach criteria

def Where.relations : List Clause → List Relation
  | [] => []
  | clause :: rest => clause.relations ++ Where.relations rest

def Where.relationsEach : List (List Clause) → List Relation
  | [] => []
  | criteria :: rest => Where.relations criteria ++ Where.relationsEach rest
end

/-- The filter of a caller. -/
def callerWhere (args : Option Args) : Where := (args.getD {}).criteria.getD []

/-- The rows that carry the tenant, and those that some relations lead to from them. -/
inductive Belongs (db : Database) (relations : List Relation) (tenantId : String) : Row → Prop where
  | own {row : Row} (h : row.tenantId = .string tenantId) : Belongs db relations tenantId row
  | related {row r : Row} {relation : Relation} (h : Belongs db relations tenantId row) (hmem : relation ∈ relations)
      (hr : r ∈ relation.related db row) : Belongs db relations tenantId r

open scoped Classical in
/-- The rows of a tenant in a model. -/
noncomputable def Database.rowsOf (db : Database) (relations : List Relation) (tenantId : String) (model : Model) :
    List Row :=
  (db.rows model).filter fun r => Belongs db relations tenantId r

def AgreeOn (relations : List Relation) (tenantId : String) (db db' : Database) : Prop :=
  ∀ model, db.rowsOf relations tenantId model = db'.rowsOf relations tenantId model

/-- Every row of another tenant stays as it is, in its place. -/
def ChangesOnly (tenantId : String) (db db' : Database) : Prop :=
  ∀ model, ∃ f : Row → Option Row, db'.rows model = (db.rows model).filterMap f ∧
    ∀ r, r.tenantId ≠ .string tenantId → f r = some r

/-- The calls on a model show the tenant its own rows only and write to no others. -/
structure Isolated (model : Model) : Prop where
  sameResult : ∀ (engine : Engine) (tenantId : String), ∀ operation ∈ FILTER_OPERATIONS,
    ∀ (args : Option Args) (db db' : Database), AgreeOn (Where.relations (callerWhere args)) tenantId db db' →
      (forTenant engine tenantId model operation args db).1 = (forTenant engine tenantId model operation args db').1
  changesOnly : ∀ (engine : Engine) (tenantId : String), ∀ operation ∈ [Operation.updateMany, .deleteMany],
    ∀ (args : Option Args) (db : Database),
      ChangesOnly tenantId db (forTenant engine tenantId model operation args db).2

section Agreement

variable {relations : List Relation} {tenantId : String} {db db' : Database} {row : Row}

theorem mem_rowsOf {model : Model} :
    row ∈ db.rowsOf relations tenantId model ↔ row ∈ db.rows model ∧ Belongs db relations tenantId row := by
  simp [Database.rowsOf]

theorem AgreeOn.belongs (h : AgreeOn relations tenantId db db') (hrow : Belongs db relations tenantId row) :
    Belongs db' relations tenantId row := by
  induction hrow with
  | own hown => exact .own hown
  | @related row r relation hrow hmem hr ih =>
      obtain ⟨hin, hjoins⟩ := List.mem_filter.1 hr
      have hthere : r ∈ db'.rowsOf relations tenantId relation.model :=
        h relation.model ▸ mem_rowsOf.2 ⟨hin, .related hrow hmem hr⟩
      exact .related ih hmem (List.mem_filter.2 ⟨(mem_rowsOf.1 hthere).1, hjoins⟩)

/-- Selecting among rows of the tenant is selecting among `rowsOf`. -/
theorem filter_rowsOf {model : Model} {p : Row → Bool}
    (hp : ∀ r ∈ db.rows model, p r = true → Belongs db relations tenantId r) :
    (db.rows model).filter p = (db.rowsOf relations tenantId model).filter p := by
  unfold Database.rowsOf
  rw [List.filter_filter]
  refine List.filter_congr fun r hr => ?_
  by_cases h : p r = true
  · simp [h, hp r hr h]
  · simp [h]

/-- Two selections that agree on the rows of the tenant select the same. -/
theorem AgreeOn.filter_eq (h : AgreeOn relations tenantId db db') {model : Model} {p p' : Row → Bool}
    (hp : ∀ r, p r = true → Belongs db relations tenantId r)
    (hp' : ∀ r, p' r = true → Belongs db' relations tenantId r)
    (hcongr : ∀ r, Belongs db relations tenantId r → p r = p' r) :
    (db.rows model).filter p = (db'.rows model).filter p' := by
  rw [filter_rowsOf fun r _ => hp r, filter_rowsOf fun r _ => hp' r, ← h model]
  exact List.filter_congr fun r hr => hcongr r (mem_rowsOf.1 hr).2

theorem AgreeOn.related_eq (h : AgreeOn relations tenantId db db') {relation : Relation} (hmem : relation ∈ relations)
    (hrow : Belongs db relations tenantId row) : relation.related db row = relation.related db' row := by
  unfold Relation.related
  rw [filter_rowsOf fun r hr hj => .related hrow hmem (List.mem_filter.2 ⟨hr, hj⟩),
    filter_rowsOf fun r hr hj => .related (h.belongs hrow) hmem (List.mem_filter.2 ⟨hr, hj⟩), h relation.model]

end Agreement

/-! ## Filters -/

section Filters

variable {relations : List Relation} {tenantId : String} {db db' : Database}

mutual
/-- A condition reads no more than the rows that belong to the tenant. -/
theorem Clause.eval_congr (h : AgreeOn relations tenantId db db') (clause : Clause)
    (hsub : clause.relations ⊆ relations) {row : Row} (hrow : Belongs db relations tenantId row) :
    clause.eval db row = clause.eval db' row := by
  match clause with
  | .field name condition => simp only [Clause.eval]
  | .relation name relation holds criteria =>
      simp only [Clause.relations, List.cons_subset] at hsub
      simp only [Clause.eval]
      rw [← h.related_eq hsub.1 hrow]
      refine congrArg holds (List.map_congr_left fun r hr => ?_)
      exact Where.eval_congr h criteria hsub.2 (.related hrow hsub.1 hr)
  | .AND criteria =>
      simp only [Clause.relations] at hsub
      simp only [Clause.eval]
      rw [Where.evalEach_congr h criteria hsub hrow]
  | .OR criteria =>
      simp only [Clause.relations] at hsub
      simp only [Clause.eval]
      rw [Where.evalEach_congr h criteria hsub hrow]
  | .NOT criteria =>
      simp only [Clause.relations] at hsub
      simp only [Clause.eval]
      rw [Where.evalEach_congr h criteria hsub hrow]

theorem Where.eval_congr (h : AgreeOn relations tenantId db db') (criteria : List Clause)
    (hsub : Where.relations criteria ⊆ relations) {row : Row} (hrow : Belongs db relations tenantId row) :
    Where.eval db row criteria = Where.eval db' row criteria := by
  match criteria with
  | [] => simp only [Where.eval]
  | clause :: rest =>
      simp only [Where.relations, List.append_subset] at hsub
      simp only [Where.eval]
      rw [Clause.eval_congr h clause hsub.1 hrow, Where.eval_congr h rest hsub.2 hrow]

theorem Where.evalEach_congr (h : AgreeOn relations tenantId db db') (criteria : List (List Clause))
    (hsub : Where.relationsEach criteria ⊆ relations) {row : Row} (hrow : Belongs db relations tenantId row) :
    Where.evalEach db row criteria = Where.evalEach db' row criteria := by
  match criteria with
  | [] => simp only [Where.evalEach]
  | first :: rest =>
      simp only [Where.relationsEach, List.append_subset] at hsub
      simp only [Where.evalEach]
      rw [Where.eval_congr h first hsub.1 hrow, Where.evalEach_congr h rest hsub.2 hrow]
end

theorem Where.eval_eq_true {criteria : List Clause} {row : Row} :
    Where.eval db row criteria = some true ↔ ∀ clause ∈ criteria, clause.eval db row = some true := by
  induction criteria with
  | nil => simp [Where.eval]
  | cons clause rest ih =>
      simp only [Where.eval]
      rw [Truth.and_eq_true, ih, List.forall_mem_cons]

theorem Where.mem_relations {criteria : List Clause} {relation : Relation} :
    relation ∈ Where.relations criteria ↔ ∃ clause ∈ criteria, relation ∈ clause.relations := by
  induction criteria with
  | nil => simp [Where.relations]
  | cons clause rest ih => simp [Where.relations, ih]

theorem Where.mem_names {criteria : List Clause} {name : String} :
    name ∈ Where.names criteria ↔ ∃ clause ∈ criteria, name ∈ clause.names := by
  induction criteria with
  | nil => simp [Where.names]
  | cons clause rest ih => simp [Where.names, ih]

/-! ## The scoped filter -/

theorem Where.mem_assign (criteria : Where) (clause : Clause) : clause ∈ criteria.assign clause := by
  unfold Where.assign
  split
  · rename_i hany
    obtain ⟨c, hc, hkey⟩ := List.any_eq_true.1 hany
    refine List.mem_map.2 ⟨c, hc, ?_⟩
    rw [if_pos (by simpa using hkey)]
  · exact List.mem_append_right _ List.mem_cons_self

theorem Where.of_mem_assign {criteria : Where} {clause c : Clause} (h : c ∈ criteria.assign clause) :
    c = clause ∨ c ∈ criteria := by
  unfold Where.assign at h
  split at h
  · obtain ⟨c', hc', rfl⟩ := List.mem_map.1 h
    by_cases hkey : c'.key = clause.key
    · rw [if_pos hkey]
      exact .inl rfl
    · rw [if_neg hkey]
      exact .inr hc'
  · rcases List.mem_append.1 h with hc | hc
    · exact .inr hc
    · exact .inl (List.mem_singleton.1 hc)

/-- The caller's filter with the tenant in it. -/
def tenantWhere (tenantId : String) (criteria : Where) : Where := criteria.assign (tenantClause tenantId)

/-- Whatever the caller asks for, the scoped filter selects rows of the tenant. -/
theorem tenantId_of_selects {criteria : Where} {row : Row} (h : (tenantWhere tenantId criteria).selects db row = true) :
    row.tenantId = .string tenantId := by
  have hall : Where.eval db row (tenantWhere tenantId criteria) = some true := of_decide_eq_true h
  have htenant := Where.eval_eq_true.1 hall _ (criteria.mem_assign (tenantClause tenantId))
  simpa [tenantClause, Clause.eval, Row.tenantId] using htenant

theorem relations_tenantWhere (criteria : Where) :
    Where.relations (tenantWhere tenantId criteria) ⊆ Where.relations criteria := by
  intro relation hmem
  obtain ⟨clause, hclause, hrelation⟩ := Where.mem_relations.1 hmem
  rcases Where.of_mem_assign hclause with rfl | hcaller
  · simp [tenantClause, Clause.relations] at hrelation
  · exact Where.mem_relations.2 ⟨clause, hcaller, hrelation⟩

theorem selects_tenantWhere {criteria : Where} (h : AgreeOn (Where.relations criteria) tenantId db db') {row : Row}
    (hrow : Belongs db (Where.relations criteria) tenantId row) :
    (tenantWhere tenantId criteria).selects db row = (tenantWhere tenantId criteria).selects db' row := by
  unfold Where.selects
  rw [Where.eval_congr h _ (relations_tenantWhere criteria) hrow]

theorem select_tenantWhere {criteria : Where} (h : AgreeOn (Where.relations criteria) tenantId db db') (model : Model) :
    db.select model (tenantWhere tenantId criteria) = db'.select model (tenantWhere tenantId criteria) :=
  h.filter_eq (fun _ hr => .own (tenantId_of_selects hr)) (fun _ hr => .own (tenantId_of_selects hr))
    fun _ hr => selects_tenantWhere h hr

end Filters

/-! ## Calls -/

section Calls

variable {engine : Engine} {tenantId : String} {model : Model} {operation : Operation} {args : Option Args}
  {db db' : Database}

/-- The arguments of a filter call with the tenant in them. -/
def scopedArgs (tenantId : String) (args : Option Args) : Args :=
  { args.getD {} with criteria := some (tenantWhere tenantId (callerWhere args)) }

theorem withTenantFilter_listed (hmodel : model ∈ TENANT_SCOPED_MODELS) (hop : operation ∈ FILTER_OPERATIONS) :
    withTenantFilter tenantId model operation args = some (scopedArgs tenantId args) := by
  simp [withTenantFilter, isTenantScopedModel, hmodel, hop, scopedArgs, tenantWhere, callerWhere]

theorem forTenant_listed (hmodel : model ∈ TENANT_SCOPED_MODELS) (hop : operation ∈ FILTER_OPERATIONS) :
    forTenant engine tenantId model operation args db =
      if (tenantWhere tenantId (callerWhere args)).invalid model then (.invalid, db)
      else
        (operation.answer (scopedArgs tenantId args) (db.select model (tenantWhere tenantId (callerWhere args))),
          db.set model ((db.rows model).filterMap
            (operation.write (scopedArgs tenantId args) ((tenantWhere tenantId (callerWhere args)).selects db)))) := by
  rw [forTenant, withTenantFilter_listed hmodel hop, Engine.query, if_pos hop]
  rfl

/-- The list holds a model without the column, and the client refuses every filter call on it. -/
theorem forTenant_payoutItem (hop : operation ∈ FILTER_OPERATIONS) :
    forTenant engine tenantId .PayoutItem operation args db = (.invalid, db) := by
  have hnames : "tenantId" ∈ Where.names (tenantWhere tenantId (callerWhere args)) :=
    Where.mem_names.2 ⟨tenantClause tenantId, Where.mem_assign _ _, by simp [tenantClause, Clause.names]⟩
  rw [forTenant_listed (by decide) hop, if_pos]
  simp [Where.invalid, Model.tenantId, hnames]

/-- The list does not hold the model, so the caller's arguments reach the database as they are. -/
theorem forTenant_unlisted (hmodel : model ∉ TENANT_SCOPED_MODELS) :
    forTenant engine tenantId model operation args db = engine.query model operation args db := by
  simp [forTenant, withTenantFilter, isTenantScopedModel, hmodel]

theorem Database.set_rows (rows : List Row) (m : Model) :
    (db.set model rows).rows m = if m = model then rows else db.rows m := by
  simp [Database.set, Function.update_apply]

/-- A call through the scoped filter leaves the rows of the others. -/
theorem write_other {selects : Row → Bool} (hselects : ∀ r, selects r = true → r.tenantId = .string tenantId)
    {a : Args} {r : Row} (hr : r.tenantId ≠ .string tenantId) : operation.write a selects r = some r := by
  have hnot : selects r = false := by
    by_contra h
    exact hr (hselects r (by simpa using h))
  cases operation <;> simp [Operation.write, hnot]

theorem changesOnly_set {f : Row → Option Row} (hf : ∀ r, r.tenantId ≠ .string tenantId → f r = some r) :
    ChangesOnly tenantId db (db.set model ((db.rows model).filterMap f)) := by
  intro m
  by_cases h : m = model
  · subst h
    exact ⟨f, by rw [Database.set_rows, if_pos rfl], hf⟩
  · exact ⟨some, by rw [Database.set_rows, if_neg h, List.filterMap_some], fun _ _ => rfl⟩

theorem isolated_of_listed (hmodel : model ∈ TENANT_SCOPED_MODELS) : Isolated model where
  sameResult engine tenantId operation hop args db db' h := by
    rw [forTenant_listed hmodel hop, forTenant_listed hmodel hop, select_tenantWhere h]
    split <;> rfl
  changesOnly engine tenantId operation hop args db := by
    have hfilter : operation ∈ FILTER_OPERATIONS := by
      rcases List.mem_cons.1 hop with rfl | hop
      · decide
      · rw [List.mem_singleton.1 hop]
        decide
    rw [forTenant_listed hmodel hfilter]
    split
    · exact fun m => ⟨some, by rw [List.filterMap_some], fun _ _ => rfl⟩
    · exact changesOnly_set fun r => write_other fun r => tenantId_of_selects

end Calls

/-! ## Sessions

A session is a list of calls. Where their filters read no relation, the tenant's own rows determine all it shows.
-/

structure Call where
  model : Model
  operation : Operation
  args : Option Args

/-- A filter call on a model of the list that reads no relation. -/
structure Call.Plain (call : Call) : Prop where
  listed : call.model ∈ TENANT_SCOPED_MODELS
  filter : call.operation ∈ FILTER_OPERATIONS
  norelations : Where.relations (callerWhere call.args) = []

def session (engine : Engine) (tenantId : String) (calls : List Call) (db : Database) : List Result × Database :=
  Data.outputs (fun call => forTenant engine tenantId call.model call.operation call.args) calls db

section Sessions

variable {engine : Engine} {tenantId : String} {db db' : Database}

theorem belongs_nil {r : Row} : Belongs db [] tenantId r ↔ r.tenantId = .string tenantId := by
  constructor
  · intro h
    cases h with
    | own hown => exact hown
    | related _ hmem _ => exact absurd hmem List.not_mem_nil
  · exact .own

/-- The rows of the tenant after a write are those it makes of the rows of the tenant. -/
theorem filter_filterMap {rows : List Row} {f : Row → Option Row} {own : Row → Bool}
    (hf : ∀ r, own r = false → f r = some r) :
    (rows.filterMap f).filter own = ((rows.filter own).filterMap f).filter own := by
  induction rows with
  | nil => rfl
  | cons r rows ih =>
      by_cases h : own r = true
      · rw [List.filter_cons_of_pos h, List.filterMap_cons, List.filterMap_cons]
        split
        · exact ih
        · rw [List.filter_cons, List.filter_cons, ih]
      · have hkept := hf r (by simpa using h)
        rw [List.filter_cons_of_neg h, List.filterMap_cons, hkept]
        exact (List.filter_cons_of_neg h).trans ih

/-- Writes that keep the other rows and agree on the tenant's own keep the agreement. -/
theorem AgreeOn.set (h : AgreeOn [] tenantId db db') {model : Model} {f f' : Row → Option Row}
    (hf : ∀ r, r.tenantId ≠ .string tenantId → f r = some r)
    (hf' : ∀ r, r.tenantId ≠ .string tenantId → f' r = some r)
    (hcongr : ∀ r, r.tenantId = .string tenantId → f r = f' r) :
    AgreeOn [] tenantId (db.set model ((db.rows model).filterMap f)) (db'.set model ((db'.rows model).filterMap f')) := by
  have hrows : ∀ (d : Database) m,
      d.rowsOf [] tenantId m = (d.rows m).filter fun r => r.tenantId = .string tenantId := by
    intro d m
    exact List.filter_congr fun r _ => by simp [belongs_nil]
  intro m
  have hm := h m
  rw [hrows, hrows] at hm ⊢
  rw [Database.set_rows, Database.set_rows]
  split
  · rename_i heq
    subst heq
    rw [filter_filterMap fun r hr => hf r (by simpa using hr), filter_filterMap fun r hr => hf' r (by simpa using hr), hm]
    refine congrArg _ (List.filterMap_congr fun r hr => hcongr r ?_)
    simpa using (List.mem_filter.1 hr).2
  · exact hm

theorem forTenant_plain {call : Call} (hcall : call.Plain) (h : AgreeOn [] tenantId db db') :
    (forTenant engine tenantId call.model call.operation call.args db).1 =
        (forTenant engine tenantId call.model call.operation call.args db').1 ∧
      AgreeOn [] tenantId (forTenant engine tenantId call.model call.operation call.args db).2
        (forTenant engine tenantId call.model call.operation call.args db').2 := by
  have hrel : AgreeOn (Where.relations (callerWhere call.args)) tenantId db db' := hcall.norelations ▸ h
  rw [forTenant_listed hcall.listed hcall.filter, forTenant_listed hcall.listed hcall.filter, select_tenantWhere hrel]
  split
  · exact ⟨rfl, h⟩
  · refine ⟨rfl, h.set (fun r => write_other fun r => tenantId_of_selects)
      (fun r => write_other fun r => tenantId_of_selects) fun r hr => ?_⟩
    have hselects := selects_tenantWhere hrel (.own hr)
    unfold Operation.write
    rw [hselects]

theorem session_congr {calls : List Call} (hcalls : ∀ call ∈ calls, call.Plain) (h : AgreeOn [] tenantId db db') :
    (session engine tenantId calls db).1 = (session engine tenantId calls db').1 ∧
      AgreeOn [] tenantId (session engine tenantId calls db).2 (session engine tenantId calls db').2 :=
  Data.outputs_congr (fun call hcall _ _ => forTenant_plain (hcalls call hcall)) h

end Sessions

/-! ## A model outside the list -/

/-- A database whose only rows are those of one model. -/
def only (model : Model) (rows : List Row) : Database := ⟨fun m => if m = model then rows else []⟩

/-- A row with nothing but its tenant. -/
def rowOf (tenantId : String) : Row := ⟨fun column => if column = "tenantId" then .string tenantId else .null⟩

/-- A database that answers no other calls. -/
def idle : Engine := ⟨fun _ _ _ db => (.notFound, db)⟩

section Outside

variable {model : Model} {rows : List Row}

theorem only_rows (m : Model) : (only model rows).rows m = if m = model then rows else [] := rfl

theorem agreeOn_only_nil {tenantId : String} (h : ∀ r ∈ rows, r.tenantId ≠ .string tenantId) :
    AgreeOn [] tenantId (only model rows) (only model []) := by
  intro m
  have hnone : (only model rows).rowsOf [] tenantId m = [] := by
    refine List.eq_nil_iff_forall_not_mem.2 fun r hr => ?_
    obtain ⟨hin, hbelongs⟩ := mem_rowsOf.1 hr
    cases hbelongs with
    | own hown =>
        rw [only_rows] at hin
        split at hin
        · exact h r hin hown
        · exact absurd hin List.not_mem_nil
    | related _ hmem _ => exact absurd hmem List.not_mem_nil
  rw [hnone]
  simp [Database.rowsOf, only]

theorem not_isolated_of_unlisted (hmodel : model ∉ TENANT_SCOPED_MODELS) : ¬ Isolated model := by
  intro hisolated
  have hvalid : Where.invalid [] model = false := by simp [Where.invalid, Where.names]
  have hagree : AgreeOn (Where.relations (callerWhere none)) "a" (only model [rowOf "b"]) (only model []) :=
    agreeOn_only_nil fun r hr => by
      rw [List.mem_singleton.1 hr]
      decide
  have hsame := hisolated.sameResult idle "a" .count (by decide) none _ _ hagree
  rw [forTenant_unlisted hmodel, forTenant_unlisted hmodel] at hsame
  simp [Engine.query, FILTER_OPERATIONS, Operation.answer, Database.select, only, Where.selects, Where.eval,
    hvalid] at hsame

end Outside

/-- The client of a tenant isolates the models of its list. -/
theorem isolated_iff (model : Model) : Isolated model ↔ model ∈ TENANT_SCOPED_MODELS :=
  ⟨fun h => by_contra fun hnot => not_isolated_of_unlisted hnot h, isolated_of_listed⟩

/-- A tenant deletes the decisions of another. -/
theorem riskDecision_not_isolated :
    Model.RiskDecision.tenantId = .required ∧ ¬ Isolated .RiskDecision ∧
      (forTenant idle "a" .RiskDecision .deleteMany none (only .RiskDecision [rowOf "b"])).2.rows .RiskDecision = [] :=
  ⟨rfl, not_isolated_of_unlisted (by decide), rfl⟩

/-- One model with a tenant is not in the list. -/
theorem required_unlisted_iff (model : Model) :
    model.tenantId = .required ∧ model ∉ TENANT_SCOPED_MODELS ↔ model = .RiskDecision := by
  cases model <;> decide

end CorpoPay.Tenancy
