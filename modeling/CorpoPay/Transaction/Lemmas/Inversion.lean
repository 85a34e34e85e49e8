import CorpoPay.Transaction.Contract

/-!
# What a step can do

`Phase.Step` lists the steps of one thread with all they do to the thread and to the shared state. `Pool.Step.inv`
reads a step of a pool as one of them.
-/

namespace CorpoPay.Transaction

variable {I : Interface} {ι α : Type}

/-- A thread that stands at `ℓ` in the first phase goes on, and the shared state with it. -/
inductive Phase.Step : Local I → Shared I → Phase I α → Local I → Shared I → Phase I α → Prop
  | begin {β : Type} {ℓ σ} {body : Tx I β} {k} :
      Step ℓ σ (.between (.txn body k)) ℓ.tick σ (.inside id body k)
  | call {ℓ σ q k} :
      Step ℓ σ (.between (.ask q k)) ℓ.tick (σ.withWorld (I.reply σ.world q).2)
        (.between (k (I.reply σ.world q).1))
  | commit {β : Type} {ℓ σ w} {b : β} {k} :
      Step ℓ σ (.inside w (.ret b) k) ⟨ℓ.pc + 1, ∅⟩ (σ.withStore (w σ.store)) (.between (k (.ok b)))
  | rollback {β : Type} {ℓ σ w e} {body : Tx I β} {k} :
      Step ℓ σ (.inside w body k) ⟨ℓ.pc + 1, ∅⟩ σ (.between (k (.error e)))
  | read {β : Type} {ℓ σ w} {f : I.Store → Tx I β} {k} :
      Step ℓ σ (.inside w (.read f) k) ℓ.tick σ (.inside w (f (w σ.store)) k)
  | write {β : Type} {ℓ σ w f} {body : Tx I β} {k} :
      Step ℓ σ (.inside w (.write f body) k) ℓ.tick σ (.inside (f ∘ w) body k)
  | lock {β : Type} {ℓ σ w l} {body : Tx I β} {k} :
      Step ℓ σ (.inside w (.lock l body) k) (ℓ.take l) σ (.inside w body k)
  | query {β : Type} {ℓ σ w q} {f : I.Answer q → Tx I β} {k} :
      Step ℓ σ (.inside w (.ask q f) k) ℓ.tick (σ.withWorld (I.reply σ.world q).2)
        (.inside w (f (I.reply σ.world q).1) k)

theorem Phase.Step.pc {ℓ ℓ' : Local I} {σ σ' : Shared I} {ph ph' : Phase I α} (h : Phase.Step ℓ σ ph ℓ' σ' ph') :
    ℓ'.pc = ℓ.pc + 1 := by cases h <;> rfl

/-- A step of a job that asks. -/
theorem Phase.Step.of_ask {ℓ ℓ' : Local I} {σ σ' : Shared I} {q : I.Query} {k : I.Answer q → Job I α} {ph' : Phase I α}
    (h : Phase.Step ℓ σ (.between (.ask q k)) ℓ' σ' ph') :
    σ' = σ.withWorld (I.reply σ.world q).2 ∧ ph' = .between (k (I.reply σ.world q).1) := by
  cases h
  exact ⟨rfl, rfl⟩

/-! ## A single statement that reads -/

/-- The job reads with `g` and goes on with `f`. What it has read is as `known` says. -/
inductive Phase.Getting {β : Type} (g : I.Store → β) (f : β → Job I α) (known : β → Prop) : Phase I α → Prop
  | before : Getting g f known (.between ((Job.get g).bind f))
  | begun : Getting g f known (.inside id (.read fun s => .ret (g s)) fun r => (Job.ofExcept r).bind f)
  | done {x : β} (hx : known x) : Getting g f known (.inside id (.ret x) fun r => (Job.ofExcept r).bind f)

theorem Phase.Getting.step {β : Type} {g : I.Store → β} {f : β → Job I α} {known : β → Prop} {ℓ ℓ' : Local I}
    {σ σ' : Shared I} {ph ph' : Phase I α} (h : ph.Getting g f known) (hstep : Phase.Step ℓ σ ph ℓ' σ' ph')
    (hread : known (g σ.store)) :
    σ' = σ ∧ (ph'.Getting g f known ∨ (∃ e, ph' = .between (.throw e)) ∨ ∃ x, known x ∧ ph' = .between (f x)) := by
  cases h with
  | before => cases hstep; exact ⟨rfl, .inl .begun⟩
  | begun =>
      cases hstep with
      | read => exact ⟨rfl, .inl (.done hread)⟩
      | rollback => exact ⟨rfl, .inr (.inl ⟨_, rfl⟩)⟩
  | done hx =>
      cases hstep with
      | commit => exact ⟨rfl, .inr (.inr ⟨_, hx, rfl⟩)⟩
      | rollback => exact ⟨rfl, .inr (.inl ⟨_, rfl⟩)⟩

theorem Phase.Getting.mono {β : Type} {g : I.Store → β} {f : β → Job I α} {known known' : β → Prop} {ph : Phase I α}
    (h : ph.Getting g f known) (hknown : ∀ x, known x → known' x) : ph.Getting g f known' := by
  cases h with
  | before => exact .before
  | begun => exact .begun
  | done hx => exact .done (hknown _ hx)

namespace Pool

variable [DecidableEq ι]

/-- Where thread `i` stands. -/
def locals (p : Pool I ι α) (i : ι) : Local I := ⟨(p.threads i).pc, {l | p.owner l = some i}⟩

omit [DecidableEq ι] in
/-- Only one thread has a row. -/
theorem eq_of_held {p : Pool I ι α} {i j : ι} {l : I.Lock} (hi : l ∈ (p.locals i).held) (hj : l ∈ (p.locals j).held) :
    i = j := Option.some.inj ((show p.owner l = some i from hi).symm.trans hj)

/-! ## The parts of a pool after a step -/

section Parts

variable (p : Pool I ι α) (i : ι) (ph : Phase I α)

@[simp] theorem advance_shared : (p.advance i ph).shared = p.shared := rfl

@[simp] theorem release_shared : (p.release i).shared = p.shared := rfl

@[simp] theorem advance_phase_self : ((p.advance i ph).threads i).phase = ph := by simp [advance]

@[simp] theorem locals_advance_self : (p.advance i ph).locals i = (p.locals i).tick := by
  simp [advance, locals, Local.tick]

theorem advance_threads_ne {j : ι} (h : j ≠ i) : (p.advance i ph).threads j = p.threads j := by
  simp [advance, h]

theorem locals_advance_ne {j : ι} (h : j ≠ i) : (p.advance i ph).locals j = p.locals j := by
  simp only [locals, advance_threads_ne p i ph h]; rfl

@[simp] theorem locals_release_self : (p.release i).locals i = ⟨(p.locals i).pc, ∅⟩ := by
  simp [release, locals]

theorem locals_release_ne {j : ι} (h : j ≠ i) : (p.release i).locals j = p.locals j := by
  simp only [locals, release, Local.mk.injEq, true_and]
  ext l
  simp only [Set.mem_ofPred_eq]
  split
  · rename_i ho; simp [ho, Ne.symm h]
  · rfl

variable [DecidableEq I.Lock] {p i} {l : I.Lock}

/-- Thread `i` takes a lock that is free or its own. -/
theorem locals_take_self :
    ({ p with owner := Function.update p.owner l (some i) }.advance i ph).locals i = (p.locals i).take l := by
  simp only [locals_advance_self]
  simp only [locals, Local.tick, Local.take, Local.mk.injEq, true_and]
  ext l'
  by_cases hl : l' = l <;> simp [hl]

theorem locals_take_ne {j : ι} (hj : j ≠ i) (hfree : p.owner l = none ∨ p.owner l = some i) :
    ({ p with owner := Function.update p.owner l (some i) }.advance i ph).locals j = p.locals j := by
  rw [locals_advance_ne _ i _ hj]
  simp only [locals, Local.mk.injEq, true_and]
  ext l'
  by_cases hl : l' = l
  · subst hl
    rcases hfree with hf | hf <;> simp [hf, Ne.symm hj]
  · simp [hl]

end Parts

variable [DecidableEq I.Lock]

/-- A step of thread `i` is one of the steps of its phase. The other threads stay where they are. -/
theorem Step.inv {p p' : Pool I ι α} {i : ι} (h : p.Step i p') :
    Phase.Step (p.locals i) p.shared (p.threads i).phase (p'.locals i) p'.shared (p'.threads i).phase ∧
      ∀ j, j ≠ i → p'.threads j = p.threads j ∧ p'.locals j = p.locals j := by
  have hadvance : ∀ (q : Pool I ι α) ph j, j ≠ i → q.threads = p.threads → q.locals j = p.locals j →
      (q.advance i ph).threads j = p.threads j ∧ (q.advance i ph).locals j = p.locals j := fun q ph j hj ht hl =>
    ⟨(advance_threads_ne q i ph hj).trans (congrFun ht j), (locals_advance_ne q i ph hj).trans hl⟩
  rcases h with h | h
  · unfold step at h
    split at h
    · cases h
    · cases h
    · rename_i hph
      cases h
      rw [hph, advance_phase_self, locals_advance_self]
      exact ⟨.begin, fun j hj => hadvance _ _ j hj rfl rfl⟩
    · rename_i hph
      cases h
      rw [hph, advance_phase_self, locals_advance_self]
      exact ⟨.call, fun j hj => hadvance _ _ j hj rfl rfl⟩
    · rename_i hph
      cases h
      rw [hph, advance_phase_self, locals_advance_self, locals_release_self]
      exact ⟨.commit, fun j hj => hadvance _ _ j hj rfl (locals_release_ne _ i hj)⟩
    · rename_i hph
      cases h
      rw [hph, advance_phase_self, locals_advance_self, locals_release_self]
      exact ⟨.rollback, fun j hj => hadvance _ _ j hj rfl (locals_release_ne _ i hj)⟩
    · rename_i hph
      cases h
      rw [hph, advance_phase_self, locals_advance_self]
      exact ⟨.read, fun j hj => hadvance _ _ j hj rfl rfl⟩
    · rename_i hph
      cases h
      rw [hph, advance_phase_self, locals_advance_self]
      exact ⟨.write, fun j hj => hadvance _ _ j hj rfl rfl⟩
    · rename_i hph
      split at h
      · rename_i hfree
        cases h
        rw [hph, advance_phase_self, locals_take_self]
        exact ⟨.lock, fun j hj => ⟨advance_threads_ne _ i _ hj, locals_take_ne _ hj hfree⟩⟩
      · cases h
    · rename_i hph
      cases h
      rw [hph, advance_phase_self, locals_advance_self]
      exact ⟨.query, fun j hj => hadvance _ _ j hj rfl rfl⟩
  · unfold abort at h
    split at h
    · cases h
    · rename_i hph
      cases h
      rw [hph, advance_phase_self, locals_advance_self, locals_release_self]
      exact ⟨.rollback, fun j hj => hadvance _ _ j hj rfl (locals_release_ne _ i hj)⟩

end Pool

end CorpoPay.Transaction
