import CorpoPay.Data.Upsert
import CorpoPay.Risk.Engine

/-!
# Stored risk decisions (`risk-db.ts`)

The velocity is counted in the table that the decisions are written to.
-/

namespace CorpoPay.Risk

open Settlement (RiskVerdict)

structure RiskDecisionRecord where
  id : String
  tenantId : String
  eventId : String
  verdict : RiskVerdict
  score : Nat
  reasons : List RiskReason
  createdAt : Int
  updatedAt : Int
  deriving DecidableEq, Repr

def countRecentRiskDecisions (rows : List RiskDecisionRecord) (tenantId : String) (now : Int) : Nat :=
  (rows.filter fun row => row.tenantId = tenantId ∧ cutoff now DEFAULT_VELOCITY_WINDOW_SECONDS ≤ row.createdAt).length

structure EvaluateRiskInput where
  eventId : String
  tenantId : String
  amountCents : Int
  occurredAt : Int
  thresholds : Option RiskThresholds
  deriving DecidableEq, Repr

/-- What the database gives a row that it writes. -/
structure Stamp where
  id : String
  now : Int
  deriving DecidableEq, Repr

/-- What an evaluation decides. -/
def EvaluateRiskInput.decision (input : EvaluateRiskInput) (rows : List RiskDecisionRecord) : RiskDecision :=
  { evaluateRisk input.amountCents (countRecentRiskDecisions rows input.tenantId input.occurredAt)
      (input.thresholds.getD DEFAULT_RISK_THRESHOLDS) with
    eventId := input.eventId, tenantId := input.tenantId }

/-- The row that a decision makes. -/
def RiskDecision.create (decision : RiskDecision) (stamp : Stamp) : RiskDecisionRecord :=
  { id := stamp.id, tenantId := decision.tenantId, eventId := decision.eventId, verdict := decision.verdict
    score := decision.score, reasons := decision.reasons, createdAt := stamp.now, updatedAt := stamp.now }

/-- What a decision updates in a row. -/
def RiskDecision.update (decision : RiskDecision) (stamp : Stamp) (row : RiskDecisionRecord) : RiskDecisionRecord :=
  { row with
    verdict := decision.verdict
    score := decision.score
    reasons := decision.reasons
    updatedAt := stamp.now }

structure EvaluateRiskResult where
  decision : RiskDecision
  record : Option RiskDecisionRecord
  deriving DecidableEq, Repr

/-- Evaluate an event against the DB-backed velocity count and persist the decision. -/
def evaluateAndRecordRisk (input : EvaluateRiskInput) (stamp : Stamp) (rows : List RiskDecisionRecord) :
    EvaluateRiskResult × List RiskDecisionRecord :=
  let decision := input.decision rows
  let rows := Data.upsert (·.eventId) (decision.create stamp) (decision.update stamp) rows
  ({ decision, record := rows.find? (·.eventId = input.eventId) }, rows)

end CorpoPay.Risk
