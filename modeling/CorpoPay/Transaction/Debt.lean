import CorpoPay.Transaction.Amid
import CorpoPay.Transaction.Lemmas.RelyGuarantee

/-!
# Debts

A job that makes the store bad owes it to make it good again before it returns. In a run where no job drops its debt while
the store is bad, the store is good whenever every job that has begun has returned.
-/

namespace CorpoPay.Transaction

variable {I : Interface} {ι α : Type}

/-- Every job has ended or has not begun. -/
def Pool.Quiescent (p : Pool I ι α) : Prop := ∀ i, (p.threads i).pc = 0 ∨ (p.threads i).phase.Finished

/-- Every job has returned or has not begun. -/
def Pool.Returned (p : Pool I ι α) : Prop := ∀ i, (p.threads i).pc = 0 ∨ ∃ a, (p.threads i).phase = .between (.ret a)

/-- A job that has ended and not failed has returned. -/
theorem Phase.Finished.returned {ph : Phase I α} (h : ph.Finished) (hok : ¬ ph.Failed) : ∃ a, ph = .between (.ret a) := by
  rcases h.cases with hret | ⟨e, rfl⟩
  · exact hret
  · exact absurd trivial hok

section Debt

variable (C : Course I) (own : Shared I → Shared I → Prop) (bad : I.Store → Prop)

/-- The result of a job that owes. -/
def Paid : Except I.Err α → Shared I → Prop
  | .ok _, σ => ¬ bad σ.store
  | .error _, _ => True

/-- The job returns only when the store is good, as long as it keeps to some places. -/
def Job.Owes (kept : Job I α → Prop) (j : Job I α) (σ : Shared I) : Prop :=
  j.Amid C own (fun _ _ _ => True) (fun _ => kept) (Paid bad) σ

def Phase.Owes (kept : Job I α → Prop) (σ : Shared I) (ph : Phase I α) : Prop :=
  ph.Amid C own (fun _ _ _ => True) (fun _ => kept) (Paid bad) σ

/-- A commit that makes the store bad leaves a job that owes. -/
def Indebts (kept : Job I α → Prop) (σ τ : Shared I) (rest : Job I α) : Prop :=
  bad τ.store → kept rest → bad σ.store ∨ rest.Owes C own bad kept τ

end Debt

namespace Pool

variable [DecidableEq ι] [DecidableEq I.Lock] {C : Course I} {own : ι → Shared I → Shared I → Prop}
  {bad : I.Store → Prop} {fine : ι → Shared I → Job I α → Prop} {kept : ι → Job I α → Prop} {p p' : Pool I ι α} {i : ι}

/-- Somebody in progress owes while the store is bad. -/
def Covered (C : Course I) (own : ι → Shared I → Shared I → Prop) (bad : I.Store → Prop) (kept : ι → Job I α → Prop)
    (p : Pool I ι α) : Prop :=
  bad p.shared.store → ∃ i, 0 < (p.threads i).pc ∧ (p.threads i).phase.Owes C (own i) bad (kept i) p.shared

/-- A step in the course, by which no debt is dropped. -/
structure Solvent (own : ι → Shared I → Shared I → Prop) (bad : I.Store → Prop) (fine : ι → Shared I → Job I α → Prop)
    (kept : ι → Job I α → Prop) (p : Pool I ι α) (i : ι) (p' : Pool I ι α) : Prop extends InCourse own fine p i p' where
  keeps : ∀ j, (p'.threads i).phase = .between j → bad p'.shared.store → kept i j

theorem Covered.step (h : p.Covered C own bad kept)
    (hamid : p.Amid C own (fun i => Indebts C (own i) bad (kept i)) fine fun _ _ _ => True) (hstep : p.Step i p')
    (hcond : Solvent own bad fine kept p i p') : p'.Covered C own bad kept := by
  intro hbad'
  obtain ⟨hown, hothers⟩ := hstep.inv
  obtain ⟨-, hnext, hdebt⟩ := hamid.step hstep hcond.toInCourse
  have hpc : 0 < (p'.threads i).pc := by
    have hpc' : (p'.threads i).pc = (p.threads i).pc + 1 := hown.pc
    omega
  -- Whoever owed before owes still.
  have hkept : bad p.shared.store →
      ∃ j, 0 < (p'.threads j).pc ∧ (p'.threads j).phase.Owes C (own j) bad (kept j) p'.shared := by
    intro hbad
    obtain ⟨j, hjpc, howes⟩ := h hbad
    by_cases hji : j = i
    · subst hji
      obtain ⟨-, howes', -⟩ := Phase.Amid.step hown howes hamid.inv hcond.moves fun j hj => hcond.keeps j hj hbad'
      exact ⟨j, hpc, howes'⟩
    · obtain ⟨hsame, -⟩ := hothers j hji
      exact ⟨j, by rw [hsame]; exact hjpc, by rw [hsame]; exact howes.stable hnext.1⟩
  rcases hdebt with hstore | ⟨j, hphase, hG⟩
  · exact hkept (hstore ▸ hbad')
  · rcases hG hbad' (hcond.keeps j hphase hbad') with hbad | howes
    · exact hkept hbad
    · refine ⟨i, hpc, ?_⟩
      rw [hphase]
      exact howes

variable {jobs : ι → Job I α} {s : I.Store} {w : I.World} {cond : Pool I ι α → ι → Pool I ι α → Prop}

/-- The rule for pools whose jobs pay their debts. -/
theorem good_of_returned (hinv : C.inv ⟨s, w⟩) (hgood : ¬ bad s)
    (hjobs : ∀ i, (jobs i).Amid C (own i) (Indebts C (own i) bad (kept i)) (fine i) (fun _ _ => True) ⟨s, w⟩)
    (hcond : ∀ p i p', p.Step i p' → cond p i p' → Solvent own bad fine kept p i p')
    (hp : ReachableIf cond (init jobs s w) p) (hreturned : p.Returned) : ¬ bad p.shared.store := by
  have hrun : p.Amid C own (fun i => Indebts C (own i) bad (kept i)) fine (fun _ _ _ => True) ∧
      p.Covered C own bad kept := by
    clear hreturned
    induction hp with
    | refl => exact ⟨⟨hinv, hjobs⟩, fun hbad => absurd hbad hgood⟩
    | tail _ hstep ih =>
        obtain ⟨i, hs, hc⟩ := hstep
        have hsolvent := hcond _ _ _ hs hc
        obtain ⟨hamid, hcovered⟩ := ih
        exact ⟨(hamid.step hs hsolvent.toInCourse).1, hcovered.step hamid hs hsolvent⟩
  intro hbad
  obtain ⟨i, hpc, howes⟩ := hrun.2 hbad
  rcases hreturned i with hzero | ⟨a, hphase⟩
  · omega
  · rw [hphase] at howes
    exact howes _ ⟨C.later_refl _, hrun.1.inv⟩ hbad

end Pool

end CorpoPay.Transaction
