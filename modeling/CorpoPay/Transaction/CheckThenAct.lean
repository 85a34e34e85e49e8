import Mathlib.Data.Fintype.Defs
import CorpoPay.Transaction.Lemmas.RelyGuarantee
import CorpoPay.Transaction.Rules

/-!
# Check, then act

A job reads the rows, decides, and changes the rows later. It is safe while nobody else changes them between its
check and its end.
-/

namespace CorpoPay.Transaction

variable {I : Interface} {ι α β : Type}

/-- From step `start` on the job needs the rows as they are. It changes them as `change` says. -/
def Contract.frozen (inv : I.Store → Prop) (start : Nat) (change : I.Store → I.Store → Prop)
    (hchange : ∀ s s', change s s' → inv s → inv s') : Contract I fun σ => inv σ.store where
  rely ℓ σ σ' := start ≤ ℓ.pc → σ'.store = σ.store
  guar _ σ σ' := σ'.store = σ.store ∨ change σ.store σ'.store
  write _ _ _ := True
  rely_refl _ _ _ := rfl
  rely_trans h h' hpc := (h' hpc).trans (h hpc)
  rely_anti hb h hpc := h (hpc.trans hb.1)
  guar_inv := by
    rintro _ σ σ' (h | h) hi
    · rw [h]; exact hi
    · exact hchange _ _ h hi

section Frozen

variable {inv : I.Store → Prop} {start : Nat} {change : I.Store → I.Store → Prop}
  {hchange : ∀ s s', change s s' → inv s → inv s'}

/-- Past its check, a transaction does what it does alone. -/
theorem Tx.WP.act {ℓ : Local I} {w : I.Store → I.Store} {σ : Shared I} {t : Tx I β} {Q : β → I.Store → Prop}
    {post : Local I → (I.Store → I.Store) → β → Shared I → Prop} (hpc : start ≤ ℓ.pc)
    (h : t.Ensures Q (fun _ => True) (w σ.store))
    (hpost : ∀ ℓ' w' b σ', ℓ.Before ℓ' → σ'.store = σ.store → Q b (w' σ.store) → post ℓ' w' b σ') :
    t.WP (Contract.frozen inv start change hchange) post ℓ w σ :=
  .of_ensures (fun _ _ _ hb hr => hr (hpc.trans hb.1)) (fun _ _ _ => .inl rfl) (fun _ _ _ => trivial) h
    fun ℓ' w' b σ' hb _ hs hq => hpost ℓ' w' b σ' hb hs hq

/-- A transaction that makes the check and acts, at the end of a job. -/
theorem Job.WP.check_then_act {γ : Type} {f : I.Store → γ} {k : γ → Tx I α} {R : α → I.Store → Prop} {ℓ : Local I}
    {σ : Shared I} (hpc : start ≤ ℓ.pc + 2)
    (h : ∀ s, inv s → (k (f s)).Ensures (fun a s' => (s' = s ∨ change s s') ∧ (inv s' → R a s')) (fun _ => True) s) :
    (Job.transaction ((Tx.get f).bind k)).WP (Contract.frozen inv start change hchange) (fun a σ => R a σ.store) ℓ σ := by
  refine .transaction fun σ₁ _ _ σ₂ _ hi₂ => ?_
  refine Tx.WP.act hpc (h σ₂.store hi₂) fun ℓ' w' a σ' hb hs hq => ⟨?_, fun σ₃ hr₃ hi₃ => ?_⟩
  · simp only [Contract.frozen, Shared.withStore_store, hs]
    exact hq.1
  · have hsame : σ₃.store = w' σ'.store := hr₃ (hpc.trans (Nat.le_succ_of_le hb.1))
    rw [hsame, hs] at hi₃ ⊢
    exact hq.2 hi₃

end Frozen

namespace Pool

variable [DecidableEq ι] [DecidableEq I.Lock]

/-- Thread `j` has made its check and has not ended. -/
def PastCheck (p : Pool I ι α) (start : ι → Nat) (j : ι) : Prop :=
  start j ≤ (p.threads j).pc ∧ ¬ (p.threads j).phase.Finished

/-- A step that changes the rows while no other thread is past its check. -/
def NoOverlap (start : ι → Nat) (p : Pool I ι α) (i : ι) (p' : Pool I ι α) : Prop :=
  p'.shared.store ≠ p.shared.store → ∀ j, j ≠ i → ¬ p.PastCheck start j

/-- No other thread is past its check, whatever the step does. -/
def apart [Fintype ι] (start : ι → Nat) (p : Pool I ι α) (i : ι) (_ : Pool I ι α) : Bool :=
  ∀ j, j ≠ i → (p.threads j).pc < start j ∨ (p.threads j).phase.Finished

variable {inv : I.Store → Prop} {start : ι → Nat} {jobs : ι → Job I α} {s : I.Store} {w : I.World}

omit [DecidableEq I.Lock] in
theorem not_pastCheck_of_apart [Fintype ι] {p p' : Pool I ι α} {i j : ι} (h : apart start p i p' = true) (hj : j ≠ i) :
    ¬ p.PastCheck start j := by
  rintro ⟨hpc, hfin⟩
  rcases of_decide_eq_true h j hj with hbefore | hfinished
  · omega
  · exact hfin hfinished

omit [DecidableEq I.Lock] in
theorem noOverlap_of_apart [Fintype ι] {p p' : Pool I ι α} {i : ι} (h : apart start p i p' = true) :
    NoOverlap start p i p' := fun _ _ hj => not_pastCheck_of_apart h hj

/-- The rule for pools of such jobs. -/
theorem check_then_act (change : ι → I.Store → I.Store → Prop) (hchange : ∀ i s s', change i s s' → inv s → inv s')
    (R : ι → α → I.Store → Prop) (hinv : inv s)
    (hjobs : ∀ i, (jobs i).WP (Contract.frozen inv (start i) (change i) (hchange i)) (fun a σ => R i a σ.store)
      ⟨0, ∅⟩ ⟨s, w⟩)
    (hresult : ∀ i j a s s', j ≠ i → change i s s' → R j a s → R j a s')
    {p : Pool I ι α} (hp : ReachableIf (NoOverlap start) (init jobs s w) p) :
    inv p.shared.store ∧ ∀ i a, (p.threads i).phase = .between (.ret a) → R i a p.shared.store := by
  have hok := rely_guarantee (C := fun i => Contract.frozen inv (start i) (change i) (hchange i))
    (Q := fun i a σ => R i a σ.store) hinv hjobs ?_ ?_ hp
  · refine ⟨hok.1, fun i a hphase => ?_⟩
    have hi := hok.2 i
    rw [hphase] at hi
    exact hi
  · rintro p i p' - - hcond - j hj hfin hpc
    by_contra hne
    exact hcond hne j hj ⟨hpc, hfin⟩
  · rintro i j a ℓ σ σ' hj (h | h) - hq
    · rw [h]; exact hq
    · exact hresult i j a _ _ hj h hq

end Pool

end CorpoPay.Transaction
