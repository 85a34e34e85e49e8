import Mathlib.Data.List.Dedup
import Mathlib.Data.List.Sort
import CorpoPay.Data.Tally
import CorpoPay.Settlement.Db

/-!
# Matching a report with the ledger (`reconciliation.ts`)

A line is a reference with an amount. Both sides are added up by reference, and the totals of each reference are
compared.
-/

namespace CorpoPay.Settlement

open Data (totals)

/-! ## Transitions -/

namespace ReconciliationStatus

def code : ReconciliationStatus → String
  | .pending => "PENDING"
  | .matched => "MATCHED"
  | .unmatched => "UNMATCHED"
  | .resolved => "RESOLVED"

/-- `TRANSITIONS`: a report can be run again until it is resolved. -/
def transitions : ReconciliationStatus → List ReconciliationStatus
  | .pending => [.matched, .unmatched, .resolved]
  | .matched => [.unmatched, .resolved]
  | .unmatched => [.matched, .resolved]
  | .resolved => []

def assertTransition (src dst : ReconciliationStatus) : Except Failure Unit :=
  if dst ∈ src.transitions then .ok ()
  else .error (.reconciliationError ("illegal reconciliation transition " ++ src.code ++ " -> " ++ dst.code))

end ReconciliationStatus

/-! ## Matching -/

/-- A reference on both sides. -/
structure LineMatch where
  reference : Id
  status : ReconciliationMatchStatus
  externalCents : Int
  internalCents : Int
  differenceCents : Int
  deriving DecidableEq, Repr

structure ReconcileResult where
  lineMatches : List LineMatch
  missingInternal : List (Id × Int)
  missingExternal : List (Id × Int)
  externalTotalCents : Int
  internalTotalCents : Int
  netDifferenceCents : Int
  deriving DecidableEq, Repr

def classifyMatch (externalCents internalCents : Int) : ReconciliationMatchStatus :=
  if externalCents = internalCents then .exact else .amountDiff

/-- A report is clean when nothing is missing and every match is exact. -/
def isClean (result : ReconcileResult) : Bool :=
  result.missingInternal = [] && result.missingExternal = [] && result.lineMatches.all (·.status = .exact)

def lineMatch (reference : Id) (externalCents internalCents : Int) : LineMatch :=
  { reference, status := classifyMatch externalCents internalCents, externalCents, internalCents,
    differenceCents := externalCents - internalCents }

/-- The body of the loop over the references. -/
def reconcileReference (externalByRef internalByRef : List (Id × Int)) (result : ReconcileResult) (reference : Id) :
    ReconcileResult :=
  match externalByRef.lookup reference, internalByRef.lookup reference with
  | some externalCents, some internalCents =>
      { result with
        lineMatches := result.lineMatches ++ [lineMatch reference externalCents internalCents]
        externalTotalCents := result.externalTotalCents + externalCents
        internalTotalCents := result.internalTotalCents + internalCents }
  | some externalCents, none =>
      { result with
        missingInternal := result.missingInternal ++ [(reference, externalCents)]
        externalTotalCents := result.externalTotalCents + externalCents }
  | none, some internalCents =>
      { result with
        missingExternal := result.missingExternal ++ [(reference, internalCents)]
        internalTotalCents := result.internalTotalCents + internalCents }
  | none, none => result

/-- The references of both sides, sorted. -/
def sortedRefs (externalByRef internalByRef : List (Id × Int)) : List Id :=
  ((externalByRef.map (·.1) ++ internalByRef.map (·.1)).dedup).insertionSort (· ≤ ·)

def reconcile (external internal : List (Id × Int)) : ReconcileResult :=
  let externalByRef := totals external
  let internalByRef := totals internal
  let result := (sortedRefs externalByRef internalByRef).foldl (reconcileReference externalByRef internalByRef)
    ⟨[], [], [], 0, 0, 0⟩
  { result with netDifferenceCents := result.externalTotalCents - result.internalTotalCents }

end CorpoPay.Settlement
