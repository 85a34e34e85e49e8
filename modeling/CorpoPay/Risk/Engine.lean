import Mathlib.Logic.Function.Basic
import Mathlib.Tactic.Linarith
import CorpoPay.Settlement.Db

/-!
# Risk (`risk.ts`)

Amounts are integer centimes. A time is the number of milliseconds since 1970 began.
-/

namespace CorpoPay.Risk

open Settlement (RiskVerdict)

inductive RiskReason
  | amountExceedsThreshold
  | velocityExceedsThreshold
  deriving DecidableEq, Repr

structure RiskThresholds where
  maxAmountCents : Int
  maxPerWindow : Rat
  deriving DecidableEq, Repr

def DEFAULT_RISK_THRESHOLDS : RiskThresholds := { maxAmountCents := 1000000, maxPerWindow := 10 }

def DEFAULT_VELOCITY_WINDOW_SECONDS : Rat := 3600

structure RiskEvent where
  id : String
  tenantId : String
  amountCents : Int
  occurredAt : Int
  deriving DecidableEq, Repr

structure RiskScore where
  verdict : RiskVerdict
  score : Nat
  reasons : List RiskReason
  deriving DecidableEq, Repr

structure RiskDecision extends RiskScore where
  eventId : String
  tenantId : String
  deriving DecidableEq, Repr

/-- The pure decision core: amount + prior velocity count -> verdict. -/
def evaluateRisk (amountCents : Int) (velocityCount : Nat) (thresholds : RiskThresholds) : RiskScore :=
  if thresholds.maxAmountCents < amountCents then
    { verdict := .block, score := velocityCount, reasons := [.amountExceedsThreshold] }
  else if thresholds.maxPerWindow ≤ velocityCount then
    { verdict := .review, score := velocityCount, reasons := [.velocityExceedsThreshold] }
  else { verdict := .allow, score := velocityCount, reasons := [] }

/-- The score is the count that was given. -/
@[simp] theorem evaluateRisk_score (amountCents : Int) (velocityCount : Nat) (thresholds : RiskThresholds) :
    (evaluateRisk amountCents velocityCount thresholds).score = velocityCount := by
  unfold evaluateRisk
  split_ifs <;> rfl

/-- `at.getTime() - windowSeconds * 1000` -/
def cutoff (time : Int) (windowSeconds : Rat) : Rat := time - windowSeconds * 1000

theorem cutoff_mono {time time' : Int} (windowSeconds : Rat) (h : time ≤ time') :
    cutoff time windowSeconds ≤ cutoff time' windowSeconds := by
  unfold cutoff
  have hcast : (time : Rat) ≤ time' := by exact_mod_cast h
  linarith

/-! ## The window -/

/-- `Map<string, Date[]>` -/
structure MemoryVelocityStore where
  events : String → Option (List Int)

namespace MemoryVelocityStore

def empty : MemoryVelocityStore := { events := fun _ => none }

def prune (store : MemoryVelocityStore) (key : String) (time : Int) (windowSeconds : Rat) : MemoryVelocityStore :=
  match store.events key with
  | none => store
  | some list =>
      { events := Function.update store.events key (some (list.filter fun t => cutoff time windowSeconds ≤ t)) }

def add (store : MemoryVelocityStore) (key : String) (time : Int) (windowSeconds : Rat) : MemoryVelocityStore :=
  let store := store.prune key time windowSeconds
  { events := Function.update store.events key (some ((store.events key).getD [] ++ [time])) }

def count (store : MemoryVelocityStore) (key : String) (time : Int) (windowSeconds : Rat) : Nat × MemoryVelocityStore :=
  let store := store.prune key time windowSeconds
  (((store.events key).getD []).length, store)

end MemoryVelocityStore

/-- Sliding-window velocity counter keyed by tenant. -/
structure Velocity where
  store : MemoryVelocityStore
  windowSeconds : Rat

namespace Velocity

def record (velocity : Velocity) (key : String) (time : Int) : Velocity :=
  { velocity with store := velocity.store.add key time velocity.windowSeconds }

def count (velocity : Velocity) (key : String) (time : Int) : Nat × Velocity :=
  let (n, store) := velocity.store.count key time velocity.windowSeconds
  (n, { velocity with store })

end Velocity

structure Evaluator where
  velocity : Velocity
  thresholds : RiskThresholds

namespace Evaluator

/-- The event is counted before it is recorded. -/
def evaluate (evaluator : Evaluator) (event : RiskEvent) : RiskDecision × Evaluator :=
  let (count, velocity) := evaluator.velocity.count event.tenantId event.occurredAt
  let velocity := velocity.record event.tenantId event.occurredAt
  ({ evaluateRisk event.amountCents count evaluator.thresholds with eventId := event.id, tenantId := event.tenantId },
    { evaluator with velocity })

/-- An evaluator with a memory store. -/
def new (windowSeconds : Rat) (thresholds : RiskThresholds) : Evaluator :=
  { velocity := { store := .empty, windowSeconds }, thresholds }

/-- The decisions about events, one after another. -/
def evaluateAll (evaluator : Evaluator) : List RiskEvent → List RiskDecision
  | [] => []
  | event :: events => (evaluator.evaluate event).1 :: (evaluator.evaluate event).2.evaluateAll events

end Evaluator

end CorpoPay.Risk
