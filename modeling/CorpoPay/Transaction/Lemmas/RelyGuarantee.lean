import CorpoPay.Transaction.Lemmas.Inversion

/-!
# The contracts of a pool

If every job keeps its contract, and what one job guarantees is what the others rely on in every step the runs
allow, then every run keeps the invariant and every job owes no more than its contract at each point.
-/

namespace CorpoPay.Transaction

variable {I : Interface} {ι α : Type} [DecidableEq ι] [DecidableEq I.Lock]

omit [DecidableEq I.Lock] in
/-- A step of a thread that is within its contract. -/
theorem Phase.Step.ok {inv : Shared I → Prop} {C : Contract I inv} {Q : α → Shared I → Prop} {ℓ ℓ' : Local I}
    {σ σ' : Shared I} {ph ph' : Phase I α} (h : Phase.Step ℓ σ ph ℓ' σ' ph') (hi : inv σ) (hok : ph.OK C Q ℓ σ) :
    (C.guar ℓ σ σ' ∨ σ' = σ) ∧ inv σ' ∧ ph'.OK C Q ℓ' σ' := by
  cases h with
  | begin => exact ⟨.inr rfl, hi, hok.2.1 _ (C.rely_refl _ _) hi, hok.2.2⟩
  | call =>
      obtain ⟨hheld, hwp⟩ := hok
      obtain ⟨hg, hk⟩ := hwp _ (C.rely_refl _ _) hi
      have htick : ℓ.tick = ⟨ℓ.pc + 1, ∅⟩ := by simp only [Local.tick, hheld]
      rw [htick] at hk ⊢
      exact ⟨.inl hg, C.guar_inv hg hi, .of_job (C.guar_inv hg hi) hk⟩
  | commit =>
      obtain ⟨hg, hk⟩ := hok.1 _ (C.rely_refl _ _) hi
      exact ⟨.inl hg, C.guar_inv hg hi, .of_job (C.guar_inv hg hi) hk⟩
  | rollback => exact ⟨.inr rfl, hi, .of_job hi (hok.2 _ _ _ hi)⟩
  | read => exact ⟨.inr rfl, hi, hok.1 _ (C.rely_refl _ _) hi, hok.2⟩
  | write => exact ⟨.inr rfl, hi, (hok.1 _ (C.rely_refl _ _) hi).2, hok.2⟩
  | lock => exact ⟨.inr rfl, hi, hok.1 _ (C.rely_refl _ _) hi, hok.2⟩
  | query =>
      obtain ⟨hg, hk⟩ := hok.1 _ (C.rely_refl _ _) hi
      exact ⟨.inl hg, C.guar_inv hg hi, hk, hok.2⟩

omit [DecidableEq I.Lock] in
theorem Phase.Finished.cases {ph : Phase I α} (h : ph.Finished) :
    (∃ a, ph = .between (.ret a)) ∨ ∃ e, ph = .between (.throw e) := by
  cases ph with
  | between job =>
      cases job with
      | ret a => exact .inl ⟨a, rfl⟩
      | throw e => exact .inr ⟨e, rfl⟩
      | txn body k => exact h.elim
      | ask q k => exact h.elim
  | inside w body k => exact h.elim

namespace Pool

/-! ## The invariant of a run -/

variable {inv : Shared I → Prop}

/-- The invariant holds and every thread is within its contract. -/
def OK (C : ι → Contract I inv) (Q : ι → α → Shared I → Prop) (p : Pool I ι α) : Prop :=
  inv p.shared ∧ ∀ i, (p.threads i).phase.OK (C i) (Q i) (p.locals i) p.shared

variable {C : ι → Contract I inv} {Q : ι → α → Shared I → Prop}

/-- What a step of thread `i` does to the shared state and to the thread itself. -/
theorem Step.own {p p' : Pool I ι α} {i : ι} (h : p.Step i p') (hok : p.OK C Q) :
    ((C i).guar (p.locals i) p.shared p'.shared ∨ p'.shared = p.shared) ∧
      inv p'.shared ∧ (p'.threads i).phase.OK (C i) (Q i) (p'.locals i) p'.shared ∧
      ∀ j, j ≠ i → p'.threads j = p.threads j ∧ p'.locals j = p.locals j := by
  obtain ⟨hstep, hothers⟩ := h.inv
  obtain ⟨hg, hi, hown⟩ := hstep.ok hok.1 (hok.2 i)
  exact ⟨hg, hi, hown, hothers⟩

variable {cond : Pool I ι α → ι → Pool I ι α → Prop} {jobs : ι → Job I α} {s : I.Store} {w : I.World}

/-- The rule for pools. -/
theorem rely_guarantee (hinv : inv ⟨s, w⟩) (hjobs : ∀ i, (jobs i).WP (C i) (Q i) ⟨0, ∅⟩ ⟨s, w⟩)
    (hcompat : ∀ p i p', p.OK C Q → p.Step i p' → cond p i p' →
      (C i).guar (p.locals i) p.shared p'.shared →
      ∀ j, j ≠ i → ¬ (p.threads j).phase.Finished → (C j).rely (p.locals j) p.shared p'.shared)
    (hresult : ∀ i j a ℓ σ σ', j ≠ i → (C i).guar ℓ σ σ' → inv σ → Q j a σ → Q j a σ')
    {p : Pool I ι α} (hp : ReachableIf cond (init jobs s w) p) : p.OK C Q := by
  induction hp with
  | refl =>
      refine ⟨hinv, fun i => ?_⟩
      have hl : (init jobs s w).locals i = ⟨0, ∅⟩ := by simp [locals, init]
      rw [hl]
      exact Phase.OK.of_job hinv (hjobs i)
  | @tail p p' _ hstep ih =>
      obtain ⟨i, hs, hc⟩ := hstep
      obtain ⟨hg, hi', hself, hothers⟩ := hs.own ih
      refine ⟨hi', fun j => ?_⟩
      by_cases hj : j = i
      · exact hj ▸ hself
      · obtain ⟨ht, hl⟩ := hothers j hj
        rw [ht, hl]
        rcases hg with hg | hg
        · by_cases hf : (p.threads j).phase.Finished
          · have hok := ih.2 j
            rcases hf.cases with ⟨a, hph⟩ | ⟨e, hph⟩
            · rw [hph] at hok ⊢
              exact hresult i j a _ _ _ hj hg ih.1 hok
            · rw [hph] at hok ⊢
              exact ⟨hok.1, trivial⟩
          · exact (ih.2 j).stable hf (hcompat p i p' ih hs hc hg j hj hf)
        · rw [hg]; exact ih.2 j

end Pool

end CorpoPay.Transaction
