import CorpoPay.Transaction.Amid
import CorpoPay.Transaction.Lemmas.RelyGuarantee

/-!
# What each job commits

The commits of a job come to writes of its own kind. All kinds keep one preorder of the stores, and that is all that a job
knows of the others. A transaction whose statements leave a view of the store comes to writes that leave it.
-/

namespace CorpoPay.Transaction

variable {I : Interface} {ι α β V : Type}

/-! ## Statements that leave a view -/

namespace Tx

/-- No statement changes the view. -/
def Leaves (view : I.Store → V) : Tx I α → Prop
  | .ret _ => True
  | .throw _ => True
  | .read k => ∀ s, (k s).Leaves view
  | .write f k => (∀ s, view (f s) = view s) ∧ k.Leaves view
  | .lock _ k => k.Leaves view
  | .ask _ k => ∀ a, (k a).Leaves view

variable {view : I.Store → V}

theorem leaves_ret (a : α) : (ret a : Tx I α).Leaves view := trivial

theorem leaves_throw (e : I.Err) : (throw e : Tx I α).Leaves view := trivial

theorem leaves_get (f : I.Store → α) : (get f).Leaves view := fun _ => trivial

theorem leaves_modify {f : I.Store → I.Store} (h : ∀ s, view (f s) = view s) : (modify f).Leaves view := ⟨h, trivial⟩

theorem leaves_acquire (l : I.Lock) : (acquire l).Leaves view := trivial

theorem leaves_query (q : I.Query) : (query q).Leaves view := fun _ => trivial

theorem leaves_bind {t : Tx I α} {f : α → Tx I β} (ht : t.Leaves view) (hf : ∀ a, (f a).Leaves view) :
    (t.bind f).Leaves view := by
  induction t with
  | ret a => exact hf a
  | throw e => trivial
  | read k ih => exact fun s => ih s (ht s)
  | write g k ih => exact ⟨ht.1, ih ht.2⟩
  | lock l k ih => exact ih ht
  | ask q k ih => exact fun a => ih a (ht a)

theorem leaves_lift (r : Except I.Err α) : (lift r).Leaves view := by cases r <;> trivial

theorem leaves_when {c : Prop} [Decidable c] {t : Tx I Unit} (h : t.Leaves view) : (when c t).Leaves view := by
  unfold when
  split
  · exact h
  · trivial

theorem leaves_collect {f : α → Tx I β} (h : ∀ a, (f a).Leaves view) (as : List α) : (collect f as).Leaves view := by
  induction as with
  | nil => trivial
  | cons a as ih => exact leaves_bind (h a) fun _ => leaves_bind ih fun _ => trivial

theorem Leaves.writes_from {t : Tx I α} (h : t.Leaves view) {w : I.Store → I.Store} (hw : ∀ s, view (w s) = view s) :
    t.Writes (fun w' _ => ∀ s, view (w' s) = view s) w := by
  induction t generalizing w with
  | ret a => exact hw
  | throw e => trivial
  | read k ih => exact fun s => ih s (h s) hw
  | write f k ih => exact ih h.2 fun s => (h.1 (w s)).trans (hw s)
  | lock l k ih => exact ih h hw
  | ask q k ih => exact fun a => ih a (h a) hw

theorem Leaves.writes {t : Tx I α} (h : t.Leaves view) : t.Writes (fun w _ => ∀ s, view (w s) = view s) id :=
  h.writes_from fun _ => rfl

end Tx

/-! ## Jobs -/

/-- The others keep `R`, and the job commits writes of its kind. -/
def Contract.committing (R : I.Store → I.Store → Prop) [IsPreorder I.Store R] (W : (I.Store → I.Store) → Prop) :
    Contract I fun _ => True where
  rely _ σ σ' := R σ.store σ'.store
  guar _ σ σ' := σ'.store = σ.store ∨ ∃ w, W w ∧ σ'.store = w σ.store
  write _ _ _ := True
  rely_refl _ _ := refl_of R _
  rely_trans h h' := trans_of R h h'
  rely_anti _ h := h
  guar_inv _ _ := trivial

section Jobs

variable {R : I.Store → I.Store → Prop} [IsPreorder I.Store R] {W : (I.Store → I.Store) → Prop}
  {A : I.Query → Prop} {ℓ : Local I} {σ : Shared I}

theorem Job.Does.wp_committing {j : Job I α} (h : j.Does W A) : j.WP (.committing R W) (fun _ _ => True) ℓ σ :=
  h.wp (fun _ w _ hw => .inr ⟨w, hw, rfl⟩) (fun _ _ _ => .inl rfl) fun _ _ _ => trivial

/-- A look at the store and a result that follows from it, now and later. -/
theorem Job.WP.look {f : I.Store → β} {g : β → α} {Q : α → I.Store → Prop}
    (hQ : ∀ s, Q (g (f s)) s) (hkeep : ∀ a s s', R s s' → Q a s → Q a s') :
    ((Job.get f).bind fun b => .ret (g b)).WP (.committing R W) (fun a σ => Q a σ.store) ℓ σ :=
  get_bind (C := .committing R W) (fun _ _ => .inl rfl) fun σ₁ _ _ _ hr₂ _ _ hr₃ _ =>
    hkeep _ _ _ (trans_of R hr₂ hr₃) (hQ σ₁.store)

end Jobs

namespace Pool

variable [DecidableEq ι] [DecidableEq I.Lock] {R : I.Store → I.Store → Prop} [IsPreorder I.Store R]
  {W : ι → (I.Store → I.Store) → Prop} {Q : ι → α → I.Store → Prop} {jobs : ι → Job I α} {s : I.Store} {w : I.World}

/-- The rule for pools of such jobs. -/
theorem committing_run
    (hjobs : ∀ i, (jobs i).WP (.committing R (W i)) (fun a σ => Q i a σ.store) ⟨0, ∅⟩ ⟨s, w⟩)
    (hkind : ∀ i v s, W i v → R s (v s)) (hkeep : ∀ i a s s', R s s' → Q i a s → Q i a s')
    {p : Pool I ι α} (hp : Reachable (init jobs s w) p) :
    (∀ i a, (p.threads i).phase = .between (.ret a) → Q i a p.shared.store) ∧
      ∀ i p', p.Step i p' → p'.shared.store = p.shared.store ∨ ∃ v, W i v ∧ p'.shared.store = v p.shared.store := by
  have hguar : ∀ i σ σ' ℓ, (Contract.committing R (W i)).guar ℓ σ σ' → R σ.store σ'.store := by
    rintro i σ σ' ℓ (h | ⟨v, hv, h⟩)
    · rw [h]
      exact refl_of R _
    · rw [h]
      exact hkind i v _ hv
  have hok := rely_guarantee (C := fun i => .committing R (W i)) (Q := fun i a σ => Q i a σ.store) trivial hjobs
    (fun p i p' _ _ _ hg _ _ _ => hguar i _ _ _ hg)
    (fun i j a ℓ σ σ' _ hg _ hq => hkeep j a _ _ (hguar i σ σ' ℓ hg) hq) hp
  refine ⟨fun i a hphase => ?_, fun i p' hstep => ?_⟩
  · have hi := hok.2 i
    rw [hphase] at hi
    exact hi
  · rcases (hstep.own hok).1 with hg | hsame
    · exact hg
    · exact .inl (congrArg Shared.store hsame)

end Pool

end CorpoPay.Transaction
