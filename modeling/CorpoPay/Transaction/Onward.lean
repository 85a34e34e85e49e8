import CorpoPay.Transaction.Debt

/-!
# What a job knows when it returns

In a course of a run, a job knows something of what it returns and of the state then. A course may also begin in the middle of
a run: when every job has ended or not begun, nobody knows anything any more, and from there on another course can be
followed. A job that has not begun can be given more to show.
-/

namespace CorpoPay.Transaction

variable {I : Interface} {ι α β : Type}

namespace Job

/-- Whatever the job returns is as `P` says. -/
abbrev Knows (C : Course I) (own : Shared I → Shared I → Prop) (P : α → Shared I → Prop) (j : Job I α) (σ : Shared I) : Prop :=
  j.Amid C own (fun _ _ _ => True) (fun _ _ => True) (Returns P) σ

variable {C : Course I} {own : Shared I → Shared I → Prop} {P : α → Shared I → Prop} {σ : Shared I}

theorem knows_bind {P' : β → Shared I → Prop} {j : Job I α} {f : α → Job I β} (hσ : C.inv σ) (h : j.Knows C own P σ)
    (hf : ∀ a σ', C.Reach σ σ' → P a σ' → (f a).Knows C own P' σ') : (j.bind f).Knows C own P' σ :=
  amid_bind hσ (fun _ _ => trivial) h (fun a σ' hr ha _ => hf a σ' hr ha) fun e _ _ => returns_error e

theorem knows_ret {a : α} (h : ∀ σ', C.Reach σ σ' → P a σ') : (ret a : Job I α).Knows C own P σ := amid_ret h

theorem knows_throw (e : I.Err) : (throw e : Job I α).Knows C own P σ := amid_throw e

theorem knows_get {f : I.Store → α} (hP : ∀ a σ₁ σ₂, C.Reach σ₁ σ₂ → P a σ₁ → P a σ₂)
    (h : ∀ σ', C.Reach σ σ' → P (f σ'.store) σ') : (get f).Knows C own P σ :=
  amid_select (fun _ _ => trivial) hP h

theorem knows_query {q : I.Query} {P : I.Answer q → Shared I → Prop}
    (hask : ∀ σ', C.Reach σ σ' → own σ' (σ'.asked q) → C.Reach σ' (σ'.asked q))
    (h : ∀ σ', C.Reach σ σ' → ∀ σ'', C.Reach (σ'.asked q) σ'' → P (I.reply σ'.world q).1 σ'') : (query q).Knows C own P σ :=
  fun σ' hσ' hown _ => ⟨hask σ' hσ' hown, fun σ'' hσ'' => returns_ok (h σ' hσ' σ'' hσ'')⟩

theorem knows_ofExcept {r : Except I.Err α} (h : ∀ a σ', C.Reach σ σ' → r = .ok a → P a σ') : (ofExcept r).Knows C own P σ :=
  .ofExcept fun σ' hσ' a ha => h a σ' hσ' ha

theorem knows_orElse {j : Job I α} {f : I.Err → Job I α} (hσ : C.inv σ) (h : j.Knows C own P σ)
    (hf : ∀ e σ', C.Reach σ σ' → (f e).Knows C own P σ') : (j.orElse f).Knows C own P σ :=
  .orElse hσ trivial h (fun _ _ _ hr => hr) fun e σ' hσ' _ _ => hf e σ' hσ'

theorem Knows.mono {P' : α → Shared I → Prop} {j : Job I α} (h : j.Knows C own P σ)
    (hP : ∀ a σ', C.Reach σ σ' → P a σ' → P' a σ') : j.Knows C own P' σ :=
  Amid.mono h (fun _ _ _ h => h) fun _ σ' hσ' hr a ha => hP a σ' hσ' (hr a ha)

/-- Writes and questions that stay in the course. `K` is what is known from the start. -/
theorem Does.knows {W : (I.Store → I.Store) → Prop} {A : I.Query → Prop} {K : Shared I → Prop} {j : Job I α} (h : j.Does W A)
    (hK : ∀ σ₁ σ₂, C.Reach σ₁ σ₂ → K σ₁ → K σ₂) (hσ : K σ)
    (hW : ∀ w σ', W w → K σ' → C.inv σ' → own σ' (σ'.committed w) → C.Reach σ' (σ'.committed w))
    (hA : ∀ q σ', A q → K σ' → C.inv σ' → own σ' (σ'.asked q) → C.Reach σ' (σ'.asked q))
    (hP : ∀ a σ', C.Reach σ σ' → K σ' → P a σ') : j.Knows C own P σ :=
  h.amid hK hσ hW (fun _ _ _ _ _ _ _ _ => trivial) hA fun _ σ' hσ' hk a _ => hP a σ' hσ' hk

end Job

/-! ## Pools -/

namespace Pool

variable [DecidableEq ι] [DecidableEq I.Lock]

/-- A thread that has not begun is at its job. -/
def AtFirst (jobs : ι → Job I α) (p : Pool I ι α) : Prop := ∀ i, (p.threads i).pc = 0 → (p.threads i).phase = .between (jobs i)

theorem atFirst_run {jobs : ι → Job I α} {cond : Pool I ι α → ι → Pool I ι α → Prop} {p p' : Pool I ι α}
    (h : p.AtFirst jobs) (hp : ReachableIf cond p p') : p'.AtFirst jobs := by
  induction hp with
  | refl => exact h
  | @tail p p' _ hstep ih =>
      obtain ⟨j, hs, -⟩ := hstep
      obtain ⟨hown, hothers⟩ := hs.inv
      intro i hi
      by_cases hij : i = j
      · subst hij
        have hpc : (p'.threads i).pc = (p.threads i).pc + 1 := hown.pc
        omega
      · rw [(hothers i hij).1] at hi ⊢
        exact ih i hi

theorem atFirst_of_reachable {jobs : ι → Job I α} {s : I.Store} {w : I.World} {p : Pool I ι α}
    (hp : Reachable (init jobs s w) p) : p.AtFirst jobs := by
  have hinit : (init jobs s w).AtFirst jobs := fun _ _ => rfl
  exact atFirst_run hinit hp

/-- What holds in every state of a run holds after each of its steps. -/
theorem Reachable.holding {p₀ p : Pool I ι α} {J : Pool I ι α → Prop} (h : ∀ p, Reachable p₀ p → J p) (hp : Reachable p₀ p) :
    ReachableIf (fun _ _ p' => J p') p₀ p := by
  induction hp with
  | refl => exact .refl
  | tail hp hstep ih =>
      obtain ⟨i, hs, -⟩ := hstep
      exact .tail ih ⟨i, hs, h _ (.tail hp ⟨i, hs, trivial⟩)⟩

/-- The jobs of a pool that follows a course, and what they know when they return. -/
abbrev Knows (C : Course I) (own : ι → Shared I → Shared I → Prop) (P : ι → α → Shared I → Prop) (p : Pool I ι α) : Prop :=
  p.Amid C own (fun _ _ _ _ => True) (fun _ _ _ => True) fun i => Job.Returns (P i)

variable {C : Course I} {own : ι → Shared I → Shared I → Prop} {P P' : ι → α → Shared I → Prop}
  {cond : Pool I ι α → ι → Pool I ι α → Prop} {p p' : Pool I ι α} {jobs : ι → Job I α} {i : ι}

omit [DecidableEq ι] [DecidableEq I.Lock] in
theorem knows_init {s : I.Store} {w : I.World} (hinv : C.inv ⟨s, w⟩) (hjobs : ∀ i, (jobs i).Knows C (own i) (P i) ⟨s, w⟩) :
    (init jobs s w).Knows C own P := ⟨hinv, hjobs⟩

/-- A course goes on. -/
theorem Knows.run (h : p.Knows C own P) (hcond : ∀ p i p', p.Step i p' → cond p i p' → own i p.shared p'.shared)
    (hp : ReachableIf cond p p') : p'.Knows C own P := by
  induction hp with
  | refl => exact h
  | tail _ hstep ih =>
      obtain ⟨i, hs, hc⟩ := hstep
      exact (ih.step hs ⟨hcond _ _ _ hs hc, fun _ _ => trivial⟩).1

omit [DecidableEq ι] [DecidableEq I.Lock] in
theorem Knows.returned (h : p.Knows C own P) {a : α} (hret : (p.threads i).phase = .between (.ret a)) : P i a p.shared := by
  have hphase := h.phase i
  rw [hret] at hphase
  exact hphase _ ⟨C.later_refl _, h.inv⟩ a rfl

omit [DecidableEq ι] [DecidableEq I.Lock] in
/-- A course begins in a quiet state. -/
theorem knows_of_quiescent (hfirst : p.AtFirst jobs) (hquiet : p.Quiescent) (hinv : C.inv p.shared)
    (hjobs : ∀ i, (jobs i).Knows C (own i) (P i) p.shared) (hP : ∀ i a σ, (p.threads i).pc ≠ 0 → P i a σ) :
    p.Knows C own P := by
  refine ⟨hinv, fun i => ?_⟩
  by_cases hi : (p.threads i).pc = 0
  · rw [hfirst i hi]
    exact hjobs i
  · obtain ⟨a, ha⟩ | ⟨e, he⟩ := ((hquiet i).resolve_left hi).cases
    · rw [ha]
      exact fun σ _ => Job.returns_ok (hP i a σ hi)
    · rw [he]
      exact fun _ _ => Job.returns_error e

omit [DecidableEq I.Lock] in
/-- A job that has not begun can be given more to show. -/
theorem Knows.strengthen (h : p.Knows C own P) {j : Job I α} (hi : (p.threads i).phase = .between j)
    (hj : j.Knows C (own i) (P' i) p.shared) (hothers : ∀ k, k ≠ i → P' k = P k) : p.Knows C own P' := by
  refine ⟨h.inv, fun k => ?_⟩
  by_cases hk : k = i
  · subst hk
    rw [hi]
    exact hj
  · rw [hothers k hk]
    exact h.phase k

end Pool

end CorpoPay.Transaction
