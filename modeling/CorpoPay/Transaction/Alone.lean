import CorpoPay.Transaction.Lemmas.Inversion

/-!
# A job that runs alone

What `Job.run` computes is what the pool comes to when only one thread takes its steps.
-/

namespace CorpoPay.Transaction.Pool

variable {I : Interface} {ι α β : Type} [DecidableEq ι] {p p' : Pool I ι α} {i : ι}

/-- No other thread has a lock. -/
def Free (p : Pool I ι α) (i : ι) : Prop := ∀ l, p.owner l = none ∨ p.owner l = some i

theorem Free.release (h : p.Free i) : (p.release i).Free i := by
  intro l
  rcases h l with h | h <;> simp [Pool.release, h]

variable [DecidableEq I.Lock]

theorem Free.take (h : p.Free i) (l : I.Lock) (ph : Phase I α) :
    ({ p with owner := Function.update p.owner l (some i) }.advance i ph).Free i := by
  intro l'
  by_cases hl : l' = l
  · subst hl
    exact .inr (Function.update_self ..)
  · simpa [advance, Function.update_of_ne hl] using h l'

/-- The steps of the thread bring it to `ph`, and the shared state to `σ`. -/
def Brings (p : Pool I ι α) (i : ι) (σ : Shared I) (ph : Phase I α) : Prop :=
  ∃ p', Reachable p p' ∧ p'.Free i ∧ p'.shared = σ ∧ (p'.threads i).phase = ph

theorem Brings.head {σ : Shared I} {ph : Phase I α} (hstep : p.step i = some p') (h : p'.Brings i σ ph) :
    p.Brings i σ ph := by
  obtain ⟨q, hq, hrest⟩ := h
  exact ⟨q, Relation.ReflTransGen.head ⟨i, .inl hstep, trivial⟩ hq, hrest⟩

theorem Brings.refl {σ : Shared I} {ph : Phase I α} (hfree : p.Free i) (hσ : p.shared = σ)
    (hph : (p.threads i).phase = ph) : p.Brings i σ ph := ⟨p, .refl, hfree, hσ, hph⟩

theorem Brings.trans {σ σ' : Shared I} {ph ph' : Phase I α} (h : p.Brings i σ ph)
    (h' : ∀ q : Pool I ι α, q.Free i → q.shared = σ → (q.threads i).phase = ph → q.Brings i σ' ph') :
    p.Brings i σ' ph' := by
  obtain ⟨q, hq, hfree, hσ, hph⟩ := h
  obtain ⟨q', hq', hrest⟩ := h' q hfree hσ hph
  exact ⟨q', hq.trans hq', hrest⟩

/-- The store after a transaction. -/
def after (s : I.Store) : Except I.Err (β × I.Store) → I.Store
  | .ok (_, s') => s'
  | .error _ => s

/-- A transaction alone: the pending writes are applied at its end. -/
theorem brings_body {body : Tx I β} {pending : I.Store → I.Store} {k : Except I.Err β → Job I α} {s : I.Store}
    {w w' : I.World} {r : Except I.Err (β × I.Store)} (hphase : (p.threads i).phase = .inside pending body k)
    (hfree : p.Free i) (hσ : p.shared = ⟨s, w⟩) (hrun : body.run (pending s) w = (r, w')) :
    p.Brings i ⟨after s r, w'⟩ (.between (k (r.map Prod.fst))) := by
  obtain ⟨rfl, rfl⟩ := Shared.mk.inj hσ
  induction body generalizing p pending with
  | ret b =>
      cases hrun
      have hstep : p.step i = some (((p.setStore (pending p.shared.store)).release i).advance i (.between (k (.ok b)))) := by
        simp only [step, hphase]
      exact .head hstep (.refl hfree.release rfl (advance_phase_self ..))
  | throw e =>
      cases hrun
      have hstep : p.step i = some ((p.release i).advance i (.between (k (.error e)))) := by simp only [step, hphase]
      exact .head hstep (.refl hfree.release rfl (advance_phase_self ..))
  | read f ih =>
      have hstep : p.step i = some (p.advance i (.inside pending (f (pending p.shared.store)) k)) := by
        simp only [step, hphase]
      exact .head hstep (ih _ (advance_phase_self ..) hfree rfl hrun)
  | write f body ih =>
      have hstep : p.step i = some (p.advance i (.inside (f ∘ pending) body k)) := by simp only [step, hphase]
      exact .head hstep (ih (advance_phase_self ..) hfree rfl hrun)
  | lock l body ih =>
      have hstep : p.step i =
          some ({ p with owner := Function.update p.owner l (some i) }.advance i (.inside pending body k)) := by
        simp only [step, hphase, if_pos (hfree l)]
      exact .head hstep (ih (advance_phase_self ..) (hfree.take l _) rfl hrun)
  | ask q f ih =>
      have hstep : p.step i = some ((p.setWorld (I.reply p.shared.world q).2).advance i
          (.inside pending (f (I.reply p.shared.world q).1) k)) := by simp only [step, hphase]
      exact .head hstep (ih _ (advance_phase_self ..) hfree rfl hrun)

/-- A job alone comes to its result. -/
theorem brings_job {j : Job I α} {s' : I.Store} {w' : I.World} {r : Except I.Err α}
    (hphase : (p.threads i).phase = .between j) (hfree : p.Free i)
    (hrun : j.run p.shared.store p.shared.world = (r, s', w')) : p.Brings i ⟨s', w'⟩ (.between (.ofExcept r)) := by
  induction j generalizing p with
  | ret a => cases hrun; exact .refl hfree rfl hphase
  | throw e => cases hrun; exact .refl hfree rfl hphase
  | txn body k ih =>
      have hstep : p.step i = some (p.advance i (.inside id body k)) := by simp only [step, hphase]
      rcases hbody : body.run p.shared.store p.shared.world with ⟨rb, w₁⟩
      refine .head hstep ((brings_body (advance_phase_self ..) hfree rfl hbody).trans fun q hq hσ hph => ?_)
      refine ih _ hph hq ?_
      rw [hσ, ← hrun, Job.run, hbody]
      rcases rb with e | ⟨b, s₁⟩ <;> rfl
  | ask q k ih =>
      have hstep : p.step i = some ((p.setWorld (I.reply p.shared.world q).2).advance i
          (.between (k (I.reply p.shared.world q).1))) := by simp only [step, hphase]
      exact .head hstep (ih _ (advance_phase_self ..) hfree hrun)

/-- A job that runs alone from the start. -/
theorem exists_of_run (jobs : ι → Job I α) (i : ι) {s s' : I.Store} {w w' : I.World} {r : Except I.Err α}
    (hrun : (jobs i).run s w = (r, s', w')) : ∃ p, Reachable (init jobs s w) p ∧ p.shared = ⟨s', w'⟩ := by
  obtain ⟨p, hp, -, hσ, -⟩ := brings_job (p := init jobs s w) (i := i) rfl (fun _ => .inl rfl) hrun
  exact ⟨p, hp, hσ⟩

/-- What does not hold at first and holds later begins to hold with a step. -/
theorem ReachableIf.exists_step {cond : Pool I ι α → ι → Pool I ι α → Prop} {P : Pool I ι α → Prop}
    (hp : ReachableIf cond p p') (hbefore : ¬ P p) (hafter : P p') :
    ∃ q i q', ReachableIf cond p q ∧ q.Step i q' ∧ ¬ P q ∧ P q' := by
  induction hp with
  | refl => exact absurd hafter hbefore
  | @tail q q' hq hstep ih =>
      by_cases hPq : P q
      · exact ih hPq
      · obtain ⟨i, hs, -⟩ := hstep
        exact ⟨q, i, q', hq, hs, hPq, hafter⟩

end CorpoPay.Transaction.Pool
