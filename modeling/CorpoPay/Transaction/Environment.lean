import CorpoPay.Transaction.Lemmas.RelyGuarantee
import CorpoPay.Transaction.Rules

/-!
# One job among others

The other jobs of the pool are arbitrary. What the one job relies on is a condition on their steps.
-/

namespace CorpoPay.Transaction

variable {I : Interface} {ι α β : Type}

/-- The contract that promises nothing and relies on nothing. -/
def Contract.any : Contract I fun _ => True where
  rely _ _ _ := True
  guar _ _ _ := True
  write _ _ _ := True
  rely_refl _ _ := trivial
  rely_trans _ _ := trivial
  rely_anti _ _ := trivial
  guar_inv _ _ := trivial

theorem Tx.wp_any {t : Tx I β} {ℓ : Local I} {w : I.Store → I.Store} {σ : Shared I}
    {post : Local I → (I.Store → I.Store) → β → Shared I → Prop} (hpost : ∀ ℓ w b σ, post ℓ w b σ) :
    t.WP Contract.any post ℓ w σ := by
  induction t generalizing ℓ w σ with
  | ret b => exact fun _ _ _ => hpost _ _ _ _
  | throw e => trivial
  | read k ih => exact fun _ _ _ => ih _
  | write f k ih => exact fun _ _ _ => ⟨trivial, ih⟩
  | lock l k ih => exact fun _ _ _ => ih
  | ask q k ih => exact fun _ _ _ => ⟨trivial, ih _⟩

theorem Job.wp_any (j : Job I α) (ℓ : Local I) (σ : Shared I) : j.WP Contract.any (fun _ _ => True) ℓ σ := by
  induction j generalizing ℓ σ with
  | ret a => exact fun _ _ _ => trivial
  | throw e => trivial
  | txn body k ih => exact ⟨fun _ _ _ => Tx.wp_any fun _ _ _ _ => ⟨trivial, ih _ _ _⟩, fun _ _ _ _ => ih _ _ _⟩
  | ask q k ih => exact fun _ _ _ => ⟨trivial, ih _ _ _⟩

namespace Pool

variable [DecidableEq ι] [DecidableEq I.Lock] {C : Contract I fun _ => True} {jobs : ι → Job I α} {s : I.Store}
  {w : I.World} {r : ι} {cond : Pool I ι α → ι → Pool I ι α → Prop}

/-- Each step of job `r` is within its guarantee, when the steps of the others are within what it relies on. -/
theorem step_of_environment (hr : (jobs r).WP C (fun _ _ => True) ⟨0, ∅⟩ ⟨s, w⟩)
    (hcond : ∀ p i p', cond p i p' → i ≠ r → ¬ (p.threads r).phase.Finished →
      C.rely (p.locals r) p.shared p'.shared)
    {p p' : Pool I ι α} (hp : ReachableIf cond (init jobs s w) p) (hstep : p.Step r p') :
    C.guar (p.locals r) p.shared p'.shared ∨ p'.shared = p.shared := by
  have hok := rely_guarantee (C := fun i => if i = r then C else Contract.any) (Q := fun _ _ _ => True) trivial
    (fun i => ?_) ?_ (fun _ _ _ _ _ _ _ _ _ _ => trivial) hp
  · have hown := (hstep.own hok).1
    rwa [if_pos rfl] at hown
  · split_ifs with hi
    · exact hi ▸ hr
    · exact (jobs i).wp_any _ _
  · intro p i p' _ _ hc _ j hj hfin
    split_ifs with hjr
    · subst hjr
      exact hcond p i p' hc (Ne.symm hj) hfin
    · trivial

end Pool

end CorpoPay.Transaction
