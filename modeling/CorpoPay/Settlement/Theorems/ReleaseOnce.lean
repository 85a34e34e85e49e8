import CorpoPay.Settlement.Lemmas.Effects
import CorpoPay.Settlement.Operations
import CorpoPay.Transaction.CheckThenAct

/-!
# Main theorem: releases side by side

`releaseSplit` reads the status before its posting takes the lock of the tenant. Calls for one split release it once
in every run where no call changes the rows while another one is between its status check and its end.
-/

namespace CorpoPay.Settlement

open Transaction.Tx
open Transaction (Pool Contract)

/-! ## The release postings of a split -/

/-- The row that the call reads. -/
def Db.splitRow (db : Db) (t id : Id) : Option Split := db.splits.find? fun s => s.id = id ∧ s.tenantId = t

/-- The movements from RESERVE to AVAILABLE that are tagged with the split. -/
def Db.releases (db : Db) (t id : Id) : List Movement :=
  db.movements.filter fun m => m.tenantId = t ∧ m.category = .reserveRelease ∧ m.sourceType = some .split ∧
    m.sourceId = some id

/-- From `db` to `db'` the split kept its row and nothing was released. -/
def NotReleased (t id : Id) (db db' : Db) : Prop :=
  db'.splitRow t id = db.splitRow t id ∧ db'.releases t id = db.releases t id

/-- From `db` to `db'` the split went from PENDING to SETTLED and its amount was released once. -/
def ReleasedOnce (t id : Id) (db db' : Db) : Prop :=
  ∃ s, db.splitRow t id = some s ∧ s.status = .pending ∧
    db'.splitRow t id = some { s with status := .settled, heldUntil := none } ∧
    db'.releases t id = db.releases t id ++ s.release.movements t

section Rows

variable {t id : Id} {db db' : Db}

theorem id_of_splitRow {s : Split} (h : db.splitRow t id = some s) : s.id = id := by
  have hcond := List.find?_some h
  exact (of_decide_eq_true hcond).1

theorem splitRow_settleSplit (t id : Id) (db : Db) :
    ({ db with splits := db.settleSplit id } : Db).splitRow t id =
      (db.splitRow t id).map fun s => { s with status := .settled, heldUntil := none } := by
  simp only [Db.splitRow, Db.settleSplit, List.find?_map]
  have hsame : ((fun s : Split => decide (s.id = id ∧ s.tenantId = t)) ∘ fun s =>
      if s.id = id then { s with status := .settled, heldUntil := none } else s) =
      fun s => decide (s.id = id ∧ s.tenantId = t) := by
    funext s
    dsimp only [Function.comp_apply]
    split_ifs <;> rfl
  rw [hsame]
  exact Option.map_congr fun s hs => if_pos (id_of_splitRow hs)

theorem releases_append {es : List LedgerEntry} {s : Split} (hid : s.id = id)
    (hes : es.map (·.toMovement) = s.release.movements t) (splits : List Split) :
    ({ db with ledgerEntries := db.ledgerEntries ++ es, splits := splits } : Db).releases t id =
      db.releases t id ++ s.release.movements t := by
  simp only [Db.releases, Db.movements, List.map_append, List.filter_append, hes]
  refine congrArg _ (List.filter_eq_self.mpr fun m hm => ?_)
  simp only [LedgerPosting.movements, Split.release, List.mem_cons, List.not_mem_nil, or_false] at hm
  rcases hm with rfl | rfl <;> simp [LedgerLeg.movement, debit, credit, hid]

end Rows

/-! ## Runs -/

/-- Since `db` the split was released once or not at all. -/
def ReleasedAtMostOnce (t id : Id) (db db' : Db) : Prop := NotReleased t id db db' ∨ ReleasedOnce t id db db'

/-- A call releases the split. -/
def Releases (t id : Id) (db db₁ db₂ : Db) : Prop := NotReleased t id db db₁ ∧ ReleasedOnce t id db db₂

theorem releasedAtMostOnce_of_releases (t id : Id) (db db₁ db₂ : Db) (h : Releases t id db db₁ db₂)
    (_ : ReleasedAtMostOnce t id db db₁) : ReleasedAtMostOnce t id db db₂ := .inr h.2

/-- The check passes only while nothing was released. -/
theorem notReleased_of_pending {t id : Id} {db db₁ : Db} {s : Split} (h : ReleasedAtMostOnce t id db db₁)
    (hrow : db₁.splitRow t id = some s) (hpending : s.status = .pending) : NotReleased t id db db₁ := by
  refine h.resolve_right ?_
  rintro ⟨s', -, -, hsettled, -⟩
  rw [hrow, Option.some_inj] at hsettled
  rw [hsettled] at hpending
  cases hpending

/-- One call, in any pool of such calls. -/
theorem releaseSplit_wp (t id : Id) (db : Db) (w : World) :
    (releaseSplit t id).WP
      (Contract.frozen (ReleasedAtMostOnce t id db) 2 (Releases t id db) (releasedAtMostOnce_of_releases t id db))
      (fun _ σ => ReleasedOnce t id db σ.store) ⟨0, ∅⟩ ⟨db, w⟩ := by
  refine Transaction.Job.WP.check_then_act (le_refl _) fun db₁ hinv => ?_
  split
  · trivial
  · rename_i s hrow
    rw [bind_eq, ensures_bind]
    refine (ensures_lift _).mpr ⟨fun _ hstatus => ?_, fun _ _ => trivial⟩
    have hpending := pending_of_assertTransition hstatus
    have hnone := notReleased_of_pending hinv hrow hpending
    have hid := id_of_splitRow hrow
    rw [bind_eq, ensures_bind]
    refine ensures_post_rows fun es hes => ?_
    simp only [Split.update, bind_eq, pure_eq, ensures_bind, ensures_acquire, ensures_get]
    cases db₁.splits.find? (·.id = id) with
    | none => trivial
    | some row =>
        have hes : es.map (·.toMovement) = s.release.movements t := by rw [hes, Split.release, hid]
        have hdone : ReleasedOnce t id db
            { db₁ with ledgerEntries := db₁.ledgerEntries ++ es, splits := db₁.settleSplit id } := by
          refine ⟨s, hnone.1.symm.trans hrow, hpending, ?_, ?_⟩
          · exact (splitRow_settleSplit t id db₁).trans (congrArg _ hrow)
          · rw [releases_append hid hes, hnone.2]
        exact ⟨.inr ⟨hnone, hdone⟩, fun _ => hdone⟩

/-- Any number of calls for one split. The condition on a step is that it does not change the rows while another call
is past its status check. -/
theorem releaseSplit_once {ι : Type} [DecidableEq ι] {t id : Id} {db : Db} {w : World} {p : Pool Backend ι Split}
    (hp : Pool.ReachableIf (Pool.NoOverlap fun _ => 2) (Pool.init (fun _ => releaseSplit t id) db w) p) :
    ReleasedAtMostOnce t id db p.shared.store ∧
      ∀ i s, (p.threads i).phase = .between (.ret s) → ReleasedOnce t id db p.shared.store :=
  Pool.check_then_act (fun _ => Releases t id db) (fun _ => releasedAtMostOnce_of_releases t id db)
    (fun _ _ => ReleasedOnce t id db) (.inl ⟨rfl, rfl⟩) (fun _ => releaseSplit_wp t id db w)
    (fun _ _ _ _ _ _ h _ => h.2) hp

/-! ## Two calls -/

/-- A split of 4.00 that is held for party 5. -/
def heldSplit : Split :=
  { id := 3, tenantId := 1, splitRuleId := none, sourceType := .paymentIntent, sourceId := 7, partyId := 5,
    amount := 400, currency := .mad, status := .pending, heldUntil := none }

def heldDb : Db :=
  { Db.empty { plainConfig with splitParties := [{ id := 5, tenantId := 1 }] } with splits := [heldSplit] }

/-- One call for each thread. -/
def releaseCalls (ι : Type) [DecidableEq ι] : Pool Backend ι Split :=
  Pool.init (fun _ => releaseSplit 1 3) heldDb .counting

/-- The second call opens its transaction first, reads the split as SETTLED and is refused. -/
theorem releaseSplit_once_refused : ∃ p, Pool.ReachableIf (Pool.NoOverlap fun _ => 2) (releaseCalls Bool) p ∧
    (p.threads true).phase.Finished ∧ (p.threads false).phase.Finished ∧
    (p.threads true).phase.result.isSome ∧ (p.threads false).phase.result = none ∧
    ReleasedAtMostOnce 1 3 heldDb p.shared.store ∧
    p.shared.store.releases 1 3 = heldSplit.release.movements 1 := by
  obtain ⟨p, hp, hend⟩ := Pool.ReachableIf.exists_of_check (releaseCalls Bool)
    (List.replicate 1 false ++ List.replicate 20 true ++ List.replicate 2 false)
    (fun p => (p.threads true).phase.Finished ∧ (p.threads false).phase.Finished ∧
      (p.threads true).phase.result.isSome ∧ (p.threads false).phase.result = none ∧
      p.shared.store.releases 1 3 = heldSplit.release.movements 1)
    (Pool.apart fun _ => 2) (fun _ _ _ _ => Pool.noOverlap_of_apart) (by decide +kernel)
  obtain ⟨hfirst, hsecond, hreleases, hrefused, hreleased⟩ := of_decide_eq_true hend
  exact ⟨p, hp, hfirst, hsecond, hreleases, hrefused, (releaseSplit_once hp).1, hreleased⟩

/-- Both calls read the split as PENDING, then both release it. -/
theorem releaseSplit_releases_twice :
    ¬ ∀ p, Pool.Reachable (releaseCalls Bool) p → ReleasedAtMostOnce 1 3 heldDb p.shared.store := by
  intro h
  obtain ⟨p, hp, hreleased⟩ := Pool.ReachableIf.exists_of_runSchedule (releaseCalls Bool)
    (List.replicate 2 true ++ List.replicate 2 false ++ List.replicate 18 true ++ List.replicate 18 false)
    (fun p => p.shared.store.releases 1 3 = heldSplit.release.movements 1 ++ heldSplit.release.movements 1)
    (fun _ _ _ => trivial) (by decide +kernel)
  have htwice := of_decide_eq_true hreleased
  obtain ⟨-, hnone⟩ | ⟨s, hrow, -, -, hone⟩ := h p hp
  · cases hnone.symm.trans htwice
  · cases hrow
    cases hone.symm.trans htwice

end CorpoPay.Settlement
