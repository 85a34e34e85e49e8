import CorpoPay.Settlement.LedgerDb

/-!
# Split execution (`splits-db.ts`)
-/

namespace CorpoPay.Settlement

structure ExecuteSplitInput where
  sourceType : SourceType
  sourceId : Id
  sourceCents : Int
  currency : Option Currency
  splitRuleId : Option Id
  trigger : Option SplitTrigger
  shares : Option (List ShareSpec)
  held : Option Bool
  heldUntil : Option Nat
  deriving DecidableEq, Repr

/-- Insert a `Split` row. -/
def Split.create (row : Id → Split) : Tx Split := do
  let id ← freshId
  let taken ← select (·.splits.any (·.id = id))
  if taken then Backend.fail (.prismaError "P2002")
  else do
    change fun db => { db with splits := db.splits ++ [row id] }
    pure (row id)

/-- Post a split's beneficiary shares and platform remainder within an open transaction. -/
def executeSplitInTx (tenantId : Id) (input : ExecuteSplitInput) (trigger : SplitTrigger) (shares : List ShareSpec) :
    Tx (List Split) := do
  let result ← lift (split input.sourceCents shares)
  let sourceAccount := sourceAccountFor trigger
  let held := input.held.getD false
  let currency := input.currency.getD .mad
  let beneficiaryAccount : LedgerAccount := if held then .reserve else .available
  let source : Meta := ⟨some input.sourceType, some input.sourceId⟩
  let created ← collect (fun allocation : ShareAllocation => do
    post tenantId
      (debit sourceAccount allocation.amountCents .split none currency)
      (credit beneficiaryAccount allocation.amountCents .split (some allocation.partyId) currency)
      source
    Split.create fun id =>
      { id, tenantId, splitRuleId := input.splitRuleId, sourceType := input.sourceType, sourceId := input.sourceId,
        partyId := allocation.partyId, amount := allocation.amountCents, currency,
        status := if held then .pending else .settled, heldUntil := if held then input.heldUntil else none })
    result.shares
  when (trigger = .atCapture ∧ 0 < result.platformCents) do
    post tenantId
      (debit sourceAccount result.platformCents .split none currency)
      (credit .available result.platformCents .split none currency)
      source
  pure created

/-- A split's trigger and shares, from a rule id or inline. -/
def resolveSplitRule (tenantId : Id) (input : ExecuteSplitInput) : Tx (SplitTrigger × List ShareSpec) :=
  match input.splitRuleId with
  | some ruleId => do
      let rule ← select (·.splitRules.find? fun r => r.id = ruleId ∧ r.tenantId = tenantId)
      match rule with
      | none => Backend.fail (.splitError "split rule not found")
      | some rule => pure (rule.trigger, rule.shares)
  | none => pure (input.trigger.getD .atCapture, input.shares.getD [])

def executeSplit (tenantId : Id) (input : ExecuteSplitInput) : Job (List Split) :=
  transaction do
    let rule ← resolveSplitRule tenantId input
    executeSplitInTx tenantId input rule.1 rule.2

/-- Update a `Split` row by id and return it. -/
def Split.update (id : Id) (f : Split → Split) : Tx Split := do
  Backend.lock (.split id)
  let row ← select (·.splits.find? (·.id = id))
  match row with
  | none => Backend.fail (.prismaError "P2025")
  | some row => do
      change fun db => { db with splits := db.splits.map fun r => if r.id = id then f r else r }
      pure (f row)

/-- Release a held split: move its share from RESERVE to AVAILABLE and settle the row. -/
def releaseSplit (tenantId id : Id) : Job Split :=
  transaction do
    let existing ← select (·.splits.find? fun s => s.id = id ∧ s.tenantId = tenantId)
    match existing with
    | none => Backend.fail (.splitError "split not found")
    | some existing => do
        lift (existing.status.assertTransition .settled)
        post tenantId
          (debit .reserve existing.amount .reserveRelease (some existing.partyId) existing.currency)
          (credit .available existing.amount .reserveRelease (some existing.partyId) existing.currency)
          ⟨some .split, some id⟩
        Split.update id fun r => { r with status := .settled, heldUntil := none }

end CorpoPay.Settlement
