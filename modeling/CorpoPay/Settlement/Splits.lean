import Mathlib.Algebra.BigOperators.Group.List.Basic
import Mathlib.Algebra.Order.BigOperators.Group.List
import Mathlib.Data.List.Sort
import CorpoPay.Settlement.Ledger

/-!
# Split engine (`splits.ts`)

A split divides a source amount into beneficiary shares and a platform remainder. The fractional parts of the
shares are compared exactly, as remainders, and the order of the party ids stands for `localeCompare`.
-/

namespace CorpoPay.Settlement

inductive SplitTrigger
  | atCapture | onUsage | manual
  deriving DecidableEq, Repr

inductive SplitStatus
  | pending | settled | reversed
  deriving DecidableEq, Repr

def SplitStatus.code : SplitStatus → String
  | .pending => "PENDING"
  | .settled => "SETTLED"
  | .reversed => "REVERSED"

/-- One beneficiary's share in basis points. -/
structure ShareSpec where
  partyId : Id
  shareBps : Int
  deriving DecidableEq, Repr

structure ShareAllocation where
  partyId : Id
  amountCents : Int
  deriving DecidableEq, Repr

structure SplitResult where
  shares : List ShareAllocation
  platformCents : Int
  deriving DecidableEq, Repr

def SplitStatus.TRANSITIONS : SplitStatus → List SplitStatus
  | .pending => [.settled, .reversed]
  | .settled => []
  | .reversed => []

def SplitStatus.assertTransition (current next : SplitStatus) : Except Failure Unit :=
  if next ∈ current.TRANSITIONS then .ok ()
  else .error (.splitError ("illegal split transition " ++ current.code ++ " -> " ++ next.code))

/-- The account a split debits. -/
def sourceAccountFor : SplitTrigger → LedgerAccount
  | .atCapture => .collected
  | .onUsage => .available
  | .manual => .available

def totalBps (shares : List ShareSpec) : Int := (shares.map (·.shareBps)).sum

def validateShares (shares : List ShareSpec) : Except Failure Unit :=
  match shares.find? fun s => s.shareBps ≤ 0 ∨ 10000 < s.shareBps with
  | some s =>
      .error (.splitError ("invalid shareBps " ++ toString s.shareBps ++ " for party " ++ toString s.partyId))
  | none =>
      if shares = [] then .error (.splitError "at least one beneficiary share is required")
      else if 10000 < totalBps shares then
        .error (.splitError ("beneficiary shares sum to " ++ toString (totalBps shares) ++ " bps (max 10 000)"))
      else .ok ()

/-- A share rounded down, with the numerator of what was cut off. -/
structure SharePart where
  position : Nat
  partyId : Id
  floor : Int
  frac : Int
  deriving DecidableEq, Repr

/-- The order in which the parts receive the left-over centimes: largest fraction first, then by party. -/
def SharePart.before (a b : SharePart) : Prop := b.frac < a.frac ∨ (b.frac = a.frac ∧ a.partyId ≤ b.partyId)

instance : DecidableRel SharePart.before := fun a b => by unfold SharePart.before; infer_instance

def sharePart (totalCents bps : Int) (position : Nat) (share : ShareSpec) : SharePart :=
  { position, partyId := share.partyId, floor := totalCents * share.shareBps / bps,
    frac := totalCents * share.shareBps % bps }

/-- One centime to each position in turn, until none is left. -/
def giveRemaining (order : List Nat) : (remaining index : Nat) → List Int → List Int
  | 0, _, floors => floors
  | remaining + 1, index, floors =>
      giveRemaining order remaining (index + 1)
        (floors.modify (order.getD (index % order.length) 0) (· + 1))

/-- Divide `totalCents` in proportion to the shares, by largest remainder. -/
def computeShares (totalCents : Int) (shares : List ShareSpec) : Except Failure (List ShareAllocation) := do
  if totalCents < 0 then .error (.splitError "total must be non-negative")
  else
    validateShares shares
    let parts := shares.mapIdx (sharePart totalCents (totalBps shares))
    let floors := parts.map (·.floor)
    let order := (parts.insertionSort SharePart.before).map (·.position)
    let floors := giveRemaining order (totalCents - floors.sum).toNat 0 floors
    .ok (List.zipWith (fun share amount => { partyId := share.partyId, amountCents := amount }) shares floors)

def platformShareCents (sourceCents : Int) (allocations : List ShareAllocation) : Int :=
  sourceCents - (allocations.map (·.amountCents)).sum

/-- Divide a source into beneficiary shares and the platform remainder. -/
def split (sourceCents : Int) (shares : List ShareSpec) : Except Failure SplitResult := do
  if sourceCents < 0 then .error (.splitError "source must be non-negative")
  else
    validateShares shares
    let beneficiaryCents := roundDiv (sourceCents * totalBps shares) 10000
    let allocations ← computeShares beneficiaryCents shares
    .ok { shares := allocations, platformCents := platformShareCents sourceCents allocations }

end CorpoPay.Settlement
