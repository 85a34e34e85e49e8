import CorpoPay.Settlement.Ledger
import CorpoPay.Settlement.Reconciliation

/-!
# Reconciliation reports (`reconciliation-db.ts`)

The lines of a report come from a provider. `runReconciliation` compares them with the ledger of the tenant and stores the
outcome.
-/

namespace CorpoPay.Settlement

open Data (totals)

/-! ## Rows -/

abbrev ReconciliationReportWithLines := ReconciliationReport × List ReconciliationLine

/-- `findUnique({ where: { id }, include: { lines: true } })` -/
def Db.reportWithLines (db : Db) (id : Id) : Option ReconciliationReportWithLines :=
  (db.reconciliationReports.find? (·.id = id)).map fun report =>
    (report, db.reconciliationLines.filter (·.reportId = report.id))

/-- `findFirst({ where: { id, tenantId }, include: { lines: true } })` -/
def Db.tenantReport (db : Db) (tenantId id : Id) : Option ReconciliationReportWithLines :=
  (db.reconciliationReports.find? fun r => r.id = id ∧ r.tenantId = tenantId).map fun report =>
    (report, db.reconciliationLines.filter (·.reportId = report.id))

def ReconciliationReport.create (row : Id → ReconciliationReport) : Tx ReconciliationReport := do
  let id ← freshId
  let taken ← select (·.reconciliationReports.any (·.id = id))
  if taken then Backend.fail (.prismaError "P2002")
  else do
    change fun db => { db with reconciliationReports := db.reconciliationReports ++ [row id] }
    pure (row id)

def ReconciliationLine.create (row : Id → ReconciliationLine) : Tx ReconciliationLine := do
  let id ← freshId
  let taken ← select (·.reconciliationLines.any (·.id = id))
  if taken then Backend.fail (.prismaError "P2002")
  else do
    change fun db => { db with reconciliationLines := db.reconciliationLines ++ [row id] }
    pure (row id)

def ReconciliationReport.update (id : Id) (f : ReconciliationReport → ReconciliationReport) : Tx Unit := do
  Backend.lock (.reconciliationReport id)
  let row ← select (·.reconciliationReports.find? (·.id = id))
  match row with
  | none => Backend.fail (.prismaError "P2025")
  | some _ =>
      change fun db =>
        { db with reconciliationReports := db.reconciliationReports.map fun r => if r.id = id then f r else r }

def ReconciliationLine.update (id : Id) (f : ReconciliationLine → ReconciliationLine) : Tx Unit := do
  Backend.lock (.reconciliationLine id)
  let row ← select (·.reconciliationLines.find? (·.id = id))
  match row with
  | none => Backend.fail (.prismaError "P2025")
  | some _ =>
      change fun db => { db with reconciliationLines := db.reconciliationLines.map fun r => if r.id = id then f r else r }

/-! ## Reports -/

/-- A line is a reference with its amount in centimes. -/
structure CreateReconciliationReportInput where
  provider : Provider
  currency : Option Currency
  lines : List (Id × Int)
  deriving DecidableEq, Repr

def createReconciliationReport (tenantId : Id) (input : CreateReconciliationReportInput) :
    Job ReconciliationReportWithLines :=
  transaction do
    let currency := input.currency.getD .mad
    let report ← ReconciliationReport.create fun id =>
      { id, tenantId, provider := input.provider, currency, status := .pending, summary := none }
    let lines ← collect
      (fun line => ReconciliationLine.create fun id =>
        { id, reportId := report.id, reference := line.1, amount := line.2, currency, status := .unmatched,
          matchedAmount := none, differenceAmount := none })
      input.lines
    pure (report, lines)

/-- The debits of a source are added up to one line. -/
def Db.internalLines (db : Db) (tenantId : Id) : List (Id × Int) :=
  totals ((db.ledgerEntries.filter fun e => e.tenantId = tenantId ∧ e.sourceId.isSome ∧ e.direction = .debit).filterMap
    fun e => e.sourceId.map fun reference => (reference, e.amount))

def buildInternalLines (tenantId : Id) : Job (List (Id × Int)) := selectOnce (·.internalLines tenantId)

structure LineOutcome where
  status : ReconciliationMatchStatus
  matchedCents : Option Int
  diffCents : Int
  deriving DecidableEq, Repr

def LineMatch.outcome (m : LineMatch) : Id × LineOutcome :=
  (m.reference, ⟨m.status, some m.internalCents, m.differenceCents⟩)

/-- The outcome of a line that the ledger does not have. -/
def missingOutcome (missing : Id × Int) : Id × LineOutcome := (missing.1, ⟨.unmatched, none, missing.2⟩)

/-- The outcome of each reference, the latest entry first. -/
def outcomeByRef (result : ReconcileResult) : List (Id × LineOutcome) :=
  (result.lineMatches.map LineMatch.outcome ++ result.missingInternal.map missingOutcome).reverse

def summaryOf (result : ReconcileResult) : ReconciliationSummary :=
  { exactCount := (result.lineMatches.filter (·.status = .exact)).length
    amountDiffCount := (result.lineMatches.filter (·.status = .amountDiff)).length
    missingInternal := result.missingInternal
    missingExternal := result.missingExternal
    externalTotalCents := result.externalTotalCents
    internalTotalCents := result.internalTotalCents
    netDifferenceCents := result.netDifferenceCents }

/-- Store the outcome of a line. A line without an outcome stays as it is. -/
def storeOutcome (outcomes : List (Id × LineOutcome)) (line : ReconciliationLine) : Tx Unit :=
  match outcomes.lookup line.reference with
  | none => pure ()
  | some outcome => ReconciliationLine.update line.id fun r =>
      { r with
        status := outcome.status
        matchedAmount := outcome.matchedCents
        differenceAmount := some outcome.diffCents }

def storeReconciliation (id : Id) (lines : List ReconciliationLine) (result : ReconcileResult)
    (nextStatus : ReconciliationStatus) : Tx ReconciliationReportWithLines := do
  forEach (storeOutcome (outcomeByRef result)) lines
  ReconciliationReport.update id fun r => { r with status := nextStatus, summary := some (summaryOf result) }
  let stored ← select (·.reportWithLines id)
  match stored with
  | none => Backend.fail (.error "Cannot read properties of null")
  | some stored => pure stored

/-- Match the lines of a report with the ledger of the tenant and store the outcome. -/
def runReconciliation (tenantId id : Id) : Job ReconciliationReportWithLines := do
  let found ← selectOnce (·.tenantReport tenantId id)
  match found with
  | none => Transaction.Job.throw (Failure.reconciliationError "reconciliation report not found")
  | some (report, lines) => do
      let external := lines.map fun line => (line.reference, line.amount)
      let internal ← buildInternalLines tenantId
      let result := reconcile external internal
      let nextStatus : ReconciliationStatus := if isClean result then .matched else .unmatched
      let _ ← @Transaction.Job.ofExcept Backend _
        (if report.status = nextStatus then .ok () else report.status.assertTransition nextStatus)
      transaction (storeReconciliation id lines result nextStatus)

end CorpoPay.Settlement
