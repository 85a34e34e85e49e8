import CorpoPay.Transaction.CheckThenAct

/-!
# Look, then act

A job looks at a part of the rows, its view, and changes the rows later. Between the two nobody else changes the view;
the other rows are free.
-/

namespace CorpoPay.Transaction

variable {I : Interface} {ι α β V : Type}

/-- From step `start` on the job needs its view as it is. It changes the rows as `change` says. -/
def Contract.watching (view : I.Store → V) (start : Nat) (change : I.Store → I.Store → Prop) :
    Contract I fun _ => True where
  rely ℓ σ σ' := start ≤ ℓ.pc → view σ'.store = view σ.store
  guar _ σ σ' := σ'.store = σ.store ∨ change σ.store σ'.store
  write _ _ _ := True
  rely_refl _ _ _ := rfl
  rely_trans h h' hpc := (h' hpc).trans (h hpc)
  rely_anti hb h hpc := h (hpc.trans hb.1)
  guar_inv _ _ := trivial

namespace Job.WP

variable {view : I.Store → V} {start : Nat} {change : I.Store → I.Store → Prop} {Q : α → Shared I → Prop} {ℓ : Local I}
  {σ : Shared I}

/-- The look: what the job has read is still in its view afterwards. -/
theorem look_bind {f : I.Store → β} {k : β → Job I α} (hpc : start ≤ ℓ.pc + 2)
    (h : ∀ s σ', view σ'.store = view s → (k (f s)).WP (.watching view start change) Q ⟨ℓ.pc + 3, ∅⟩ σ') :
    ((Job.get f).bind k).WP (.watching view start change) Q ℓ σ :=
  get_bind (C := .watching view start change) (fun _ _ => .inl rfl) fun σ₁ _ _ σ₂ hr _ => h σ₁.store σ₂ (hr hpc)

theorem query_bind {q : I.Query} {k : I.Answer q → Job I α}
    (h : ∀ a σ', (start ≤ ℓ.pc → view σ'.store = view σ.store) →
      (k a).WP (.watching view start change) Q ℓ.tick σ') :
    ((Job.query q).bind k).WP (.watching view start change) Q ℓ σ :=
  fun _ hr _ => ⟨.inl rfl, h _ _ hr⟩

/-- The act: pending writes that are a change of every store with the view of the look. -/
theorem act {body : Tx I β} (hpc : start ≤ ℓ.pc)
    (h : body.Writes (fun w _ => ∀ s, view s = view σ.store → w s = s ∨ change s (w s)) id) :
    (Job.transaction body).WP (.watching view start change) (fun _ _ => True) ℓ σ := by
  refine .transaction fun σ₁ hr₁ _ => ?_
  refine Tx.WP.of_writes (K := fun σ' => view σ'.store = view σ.store) ?_ (fun _ _ hK => hK) (fun _ _ _ => .inl rfl)
    (fun _ _ _ => trivial) (hr₁ hpc) h fun ℓ' w b σ' _ _ hK hw => ⟨hw _ hK, fun _ _ _ => trivial⟩
  intro ℓ' σ₂ σ₃ hb hr _ hK
  exact (hr (hpc.trans ((Nat.le_succ _).trans hb.1))).trans hK

/-- A result that the job does not pass on. -/
theorem discard {Q : Unit → Shared I → Prop} {j : Job I β} (h : j.WP (.watching view start change) (fun _ _ => True) ℓ σ)
    (hQ : ∀ σ, Q () σ) : (j.bind fun _ => .ret ()).WP (.watching view start change) Q ℓ σ :=
  .bind (fun _ _ _ _ _ _ => hQ _) h trivial

end Job.WP

namespace Pool

variable [DecidableEq ι] [DecidableEq I.Lock]

/-- A step that leaves the views of the other threads that have looked and have not ended. -/
def Undisturbed (view : ι → I.Store → V) (start : ι → Nat) (p : Pool I ι α) (i : ι) (p' : Pool I ι α) : Prop :=
  ∀ j, j ≠ i → p.PastCheck start j → view j p'.shared.store = view j p.shared.store

variable {view : ι → I.Store → V} {start : ι → Nat} {change : ι → I.Store → I.Store → Prop} {jobs : ι → Job I α}
  {cond : Pool I ι α → ι → Pool I ι α → Prop} {s : I.Store} {w : I.World}

/-- The rule for pools of such jobs: every step of a thread is a change of its own. -/
theorem changes_of_watching
    (hjobs : ∀ i, (jobs i).WP (.watching (view i) (start i) (change i)) (fun _ _ => True) ⟨0, ∅⟩ ⟨s, w⟩)
    (hcond : ∀ p i p', cond p i p' → p.Undisturbed view start i p') {p p' : Pool I ι α} {i : ι}
    (hp : ReachableIf cond (init jobs s w) p) (hstep : p.Step i p') :
    p'.shared.store = p.shared.store ∨ change i p.shared.store p'.shared.store := by
  have hok := rely_guarantee (C := fun i => .watching (view i) (start i) (change i)) (Q := fun _ _ _ => True) trivial
    hjobs (fun p i p' _ _ hc _ j hj hfin hpc => hcond p i p' hc j hj ⟨hpc, hfin⟩) (fun _ _ _ _ _ _ _ _ _ _ => trivial) hp
  rcases (hstep.own hok).1 with hguar | hsame
  · exact hguar
  · exact .inl (congrArg Shared.store hsame)

end Pool

end CorpoPay.Transaction
