import CorpoPay.Transaction.Amid

/-!
# Jobs that look before they write

A job that writes what it has decided on an older state may lead a run out of a set of states. A job abides by a set when
all its commits stay in it as long as all it reads from now on comes from it: what it has read before does not count any
more. A run stays in the set when every other job abides by it at the step that comes to it.
-/

namespace CorpoPay.Transaction

variable {I : Interface} {ι α β : Type}

/-! ## Definitions -/

/-- As long as the job reads states of `J`, its commits stay in `J` and are as `C` says with what is left of the job. It
returns what `Q` holds of. -/
def Job.Follows (J : I.Store → Prop) (C : (I.Store → I.Store) → Job I α → Prop) (Q : α → Prop) : Job I α → Prop
  | .ret a => Q a
  | .throw _ => True
  | .txn body k =>
      body.Passes J (fun _ => True)
        (fun w b => (∀ s, J s → J (w s)) ∧ C w (k (.ok b)) ∧ (k (.ok b)).Follows J C Q) id ∧
      ∀ e, (k (.error e)).Follows J C Q
  | .ask _ k => ∀ a, (k a).Follows J C Q

def Phase.Follows (J : I.Store → Prop) (C : (I.Store → I.Store) → Job I α → Prop) : Phase I α → Prop
  | .between j => j.Follows J C fun _ => True
  | .inside w body k =>
      body.Passes J (fun _ => True)
        (fun w b => (∀ s, J s → J (w s)) ∧ C w (k (.ok b)) ∧ (k (.ok b)).Follows J C fun _ => True) w ∧
      ∀ e, (k (.error e)).Follows J C fun _ => True

/-- As long as the job reads states of `R`, its commits stay in `R`. -/
abbrev Job.Abides (R : I.Store → Prop) (Q : α → Prop) (j : Job I α) : Prop := j.Follows R (fun _ _ => True) Q

abbrev Phase.Abides (R : I.Store → Prop) (ph : Phase I α) : Prop := ph.Follows R fun _ _ => True

/-- The writes lead to `R` from elsewhere in `J`. -/
def Enters (J R : I.Store → Prop) (w : I.Store → I.Store) : Prop := ∃ s, J s ∧ ¬ R s ∧ R (w s)

/-- A commit that leads to `R` leaves a job with `G`. -/
abbrev Job.Enters (J R : I.Store → Prop) (G : Job I α → Prop) (Q : α → Prop) (j : Job I α) : Prop :=
  j.Follows J (fun w rest => Transaction.Enters J R w → G rest) Q

/-! ## Rules -/

namespace Job.Follows

variable {J : I.Store → Prop} {C : (I.Store → I.Store) → Job I α → Prop} {Q : α → Prop} {j : Job I α}

theorem mono {C' : (I.Store → I.Store) → Job I α → Prop} {Q' : α → Prop} (h : j.Follows J C Q)
    (hC : ∀ w r, C w r → C' w r) (hQ : ∀ a, Q a → Q' a) : j.Follows J C' Q' := by
  induction j with
  | ret a => exact hQ a h
  | throw e => trivial
  | txn body k ih => exact ⟨h.1.mono fun w b hw => ⟨hw.1, hC _ _ hw.2.1, ih _ hw.2.2⟩, fun e => ih _ (h.2 e)⟩
  | ask q k ih => exact fun a => ih a (h a)

theorem bind {C : (I.Store → I.Store) → Job I β → Prop} {Q : β → Prop} {f : α → Job I β}
    (h : j.Follows J (fun w r => C w (r.bind f)) fun a => (f a).Follows J C Q) : (j.bind f).Follows J C Q := by
  induction j with
  | ret a => exact h
  | throw e => trivial
  | txn body k ih => exact ⟨h.1.mono fun w b hw => ⟨hw.1, hw.2.1, ih _ hw.2.2⟩, fun e => ih _ (h.2 e)⟩
  | ask q k ih => exact fun a => ih a (h a)

theorem orElse {f : I.Err → Job I α} (h : j.Follows J (fun w r => C w (r.orElse f)) Q)
    (hf : ∀ e, (f e).Follows J C Q) : (j.orElse f).Follows J C Q := by
  induction j with
  | ret a => exact h
  | throw e => exact hf e
  | txn body k ih => exact ⟨h.1.mono fun w b hw => ⟨hw.1, hw.2.1, ih _ hw.2.2⟩, fun e => ih _ (h.2 e)⟩
  | ask q k ih => exact fun a => ih a (h a)

/-- A commit of an attempt is followed by the rest of the attempt and those after it. -/
theorem retry (h : ∀ f, j.Follows J (fun w r => C w (r.orElse f)) Q) (n : Nat) : (j.retry n).Follows J C Q := by
  induction n with
  | zero =>
      have hlast := h .throw
      simp only [orElse_throw] at hlast
      exact hlast
  | succ n ih => exact (h _).orElse fun _ => ih

theorem ofExcept {r : Except I.Err α} (h : ∀ a, r = .ok a → Q a) : (Job.ofExcept r).Follows J C Q := by
  cases r with
  | ok a => exact h a rfl
  | error e => trivial

theorem get {f : I.Store → α} (hC : ∀ r, C id r) (h : ∀ s, J s → Q (f s)) : (Job.get f).Follows J C Q :=
  ⟨fun s hs => ⟨fun _ hs => hs, hC _, h s hs⟩, fun _ => trivial⟩

theorem query {q : I.Query} {C : (I.Store → I.Store) → Job I (I.Answer q) → Prop} {Q : I.Answer q → Prop} (h : ∀ a, Q a) :
    (Job.query q).Follows J C Q := h

theorem transaction {body : Tx I α}
    (h : body.Passes J (fun _ => True) (fun w b => (∀ s, J s → J (w s)) ∧ C w (.ret b) ∧ Q b) id) :
    (Job.transaction body).Follows J C Q := ⟨h, fun _ => trivial⟩

end Job.Follows

theorem Job.Abides.bind {R : I.Store → Prop} {Q : α → Prop} {Q' : β → Prop} {j : Job I α} {f : α → Job I β}
    (h : j.Abides R Q) (hf : ∀ a, Q a → (f a).Abides R Q') : (j.bind f).Abides R Q' :=
  Job.Follows.bind (Job.Follows.mono h (fun _ _ _ => trivial) hf)

/-- Once an error has a result, nothing else is tried. -/
theorem Job.orElse_handled (j : Job I α) (h : I.Err → α) (f : I.Err → Job I α) :
    ((j.orElse fun e => .ret (h e)).orElse f) = j.orElse fun e => .ret (h e) := by
  induction j with
  | ret a => rfl
  | throw e => rfl
  | txn body k ih => exact congrArg (Job.txn body) (funext fun r => ih r)
  | ask q k ih => exact congrArg (Job.ask q) (funext fun a => ih a)

theorem Tx.Writes.passes {P : (I.Store → I.Store) → β → Prop} {R : I.Store → Prop} {t : Tx I β} {w : I.Store → I.Store}
    (h : t.Writes P w) : t.Passes R (fun _ => True) P w := by
  induction t generalizing w with
  | ret b => exact h
  | throw e => trivial
  | read k ih => exact fun s _ => ih _ (h _)
  | write g k ih => exact ih h
  | lock l k ih => exact ih h
  | ask q k ih => exact fun a => ih a (h a)

/-- Jobs of which only the writes matter. -/
theorem Job.Does.follows {W : (I.Store → I.Store) → Prop} {A : I.Query → Prop} {J : I.Store → Prop}
    {C : (I.Store → I.Store) → Job I α → Prop} {j : Job I α} (h : j.Does W A) (hJ : ∀ w, W w → ∀ s, J s → J (w s))
    (hC : ∀ w r, W w → r.Does W A → C w r) : j.Follows J C fun _ => True := by
  induction j with
  | ret a => trivial
  | throw e => trivial
  | txn body k ih =>
      exact ⟨(h.1.1.mono fun w b hw => ⟨hJ w hw, hC w _ hw (h.2 _), ih _ (h.2 _)⟩).passes, fun e => ih _ (h.2 _)⟩
  | ask q k ih => exact fun a => ih a (h.2 a)

/-! ## Steps -/

section Steps

variable {J R : I.Store → Prop} {C : (I.Store → I.Store) → Job I α → Prop} {ℓ ℓ' : Local I} {σ σ' : Shared I}
  {ph ph' : Phase I α}

theorem Phase.Follows.step (h : Phase.Step ℓ σ ph ℓ' σ' ph') (hJ : J σ.store) (hph : ph.Follows J C) :
    ph'.Follows J C ∧ J σ'.store ∧ (σ'.store = σ.store ∨ ∃ w j, σ'.store = w σ.store ∧ ph' = .between j ∧ C w j) := by
  cases h with
  | begin => exact ⟨hph, hJ, .inl rfl⟩
  | call => exact ⟨hph _, hJ, .inl rfl⟩
  | commit => exact ⟨hph.1.2.2, hph.1.1 _ hJ, .inr ⟨_, _, rfl, rfl, hph.1.2.1⟩⟩
  | rollback => exact ⟨hph.2 _, hJ, .inl rfl⟩
  | read => exact ⟨⟨hph.1 _ hJ, hph.2⟩, hJ, .inl rfl⟩
  | write => exact ⟨hph, hJ, .inl rfl⟩
  | lock => exact ⟨hph, hJ, .inl rfl⟩
  | query => exact ⟨⟨hph.1 _, hph.2⟩, hJ, .inl rfl⟩

theorem Phase.Finished.follows (h : ph.Finished) : ph.Follows J C := by
  cases ph with
  | between j =>
      cases j with
      | ret a => trivial
      | throw e => trivial
      | txn body k => exact h.elim
      | ask q k => exact h.elim
  | inside w body k => exact h.elim

/-- The first step of a job reads nothing. -/
theorem Job.Follows.first {j : Job I α} (h : Phase.Step ℓ σ (.between j) ℓ' σ' ph') (hj : j.Follows J C fun _ => True) :
    ph'.Follows J C := by
  cases h with
  | begin => exact hj
  | call => exact hj _

end Steps

/-! ## Runs -/

namespace Pool

variable [DecidableEq ι] [DecidableEq I.Lock] {J R : I.Store → Prop} {jobs : ι → Job I α} {p p' : Pool I ι α} {i : ι}

/-- At a step that comes to `R`, every other job that may have read something abides by it. -/
def LooksAgain (R : I.Store → Prop) (p : Pool I ι α) (i : ι) (p' : Pool I ι α) : Prop :=
  ¬ R p.shared.store → R p'.shared.store → ∀ j, j ≠ i → 1 < (p.threads j).pc → (p.threads j).phase.Abides R

omit [DecidableEq ι] [DecidableEq I.Lock] in
/-- A job that has ended looks at nothing. -/
theorem LooksAgain.of_finished
    (h : ¬ R p.shared.store → R p'.shared.store → ∀ j, j ≠ i → 1 < (p.threads j).pc → (p.threads j).phase.Finished) :
    LooksAgain R p i p' := fun hnot hr j hj hpc => (h hnot hr j hj hpc).follows

/-- The invariant of a run. -/
structure Looking (J R : I.Store → Prop) (jobs : ι → Job I α) (p : Pool I ι α) : Prop where
  inv : J p.shared.store
  fresh : ∀ i, (p.threads i).pc = 0 → (p.threads i).phase = .between (jobs i)
  early : ∀ i, (p.threads i).pc ≤ 1 → (p.threads i).phase.Abides R
  enters : ∀ i, (p.threads i).phase.Follows J fun w rest => Enters J R w → rest.Abides R fun _ => True
  kept : R p.shared.store → ∀ i, (p.threads i).phase.Abides R

omit [DecidableEq ι] [DecidableEq I.Lock] in
theorem looking_init {s : I.Store} {w : I.World} [DecidableEq ι] (hs : J s) (habides : ∀ i, (jobs i).Abides R fun _ => True)
    (henters : ∀ i, (jobs i).Enters J R (fun rest => rest.Abides R fun _ => True) fun _ => True) :
    Looking J R jobs (init jobs s w) :=
  ⟨hs, fun _ _ => rfl, fun i _ => habides i, henters, fun _ i => habides i⟩

theorem Looking.step (h : Looking J R jobs p) (hstep : p.Step i p') (hcond : LooksAgain R p i p') :
    Looking J R jobs p' ∧ (R p.shared.store → R p'.shared.store) := by
  obtain ⟨hown, hothers⟩ := hstep.inv
  have hsame : ∀ j, j ≠ i → p'.threads j = p.threads j := fun j hj => (hothers j hj).1
  have hpc : (p'.threads i).pc = (p.threads i).pc + 1 := hown.pc
  obtain ⟨henters, hinv, hcommit⟩ := (h.enters i).step hown h.inv
  have hstays : R p.shared.store → R p'.shared.store ∧ (p'.threads i).phase.Abides R := fun hr =>
    ⟨((h.kept hr i).step hown hr).2.1, ((h.kept hr i).step hown hr).1⟩
  refine ⟨⟨hinv, fun j hj => ?_, fun j hj => ?_, fun j => ?_, fun hr j => ?_⟩, fun hr => (hstays hr).1⟩
  · by_cases hji : j = i
    · subst hji; omega
    · rw [hsame j hji] at hj ⊢; exact h.fresh j hj
  · by_cases hji : j = i
    · subst hji
      have hzero : (p.threads j).pc = 0 := by omega
      have hjob := h.early j (by omega)
      rw [h.fresh j hzero] at hown hjob
      exact Job.Follows.first hown hjob
    · rw [hsame j hji] at hj ⊢; exact h.early j hj
  · by_cases hji : j = i
    · subst hji; exact henters
    · rw [hsame j hji]; exact h.enters j
  · by_cases hbefore : R p.shared.store
    · by_cases hji : j = i
      · subst hji; exact (hstays hbefore).2
      · rw [hsame j hji]; exact h.kept hbefore j
    · by_cases hji : j = i
      · subst hji
        rcases hcommit with hsame' | ⟨w, rest, hstore, hphase, hrest⟩
        · exact absurd (hsame' ▸ hr) hbefore
        · rw [hphase]
          exact hrest ⟨_, h.inv, hbefore, hstore ▸ hr⟩
      · rw [hsame j hji]
        by_cases hj : (p.threads j).pc ≤ 1
        · exact h.early j hj
        · exact hcond hbefore hr j hji (by omega)

/-- No step of such a run leaves `R`. -/
theorem stays_of_looksAgain {cond : Pool I ι α → ι → Pool I ι α → Prop} {s : I.Store} {w : I.World} (hs : J s)
    (habides : ∀ i, (jobs i).Abides R fun _ => True)
    (henters : ∀ i, (jobs i).Enters J R (fun rest => rest.Abides R fun _ => True) fun _ => True)
    (hlooks : ∀ p i p', cond p i p' → LooksAgain R p i p') (hp : ReachableIf cond (init jobs s w) p) :
    ReachableIf (fun p i p' => cond p i p' ∧ J p.shared.store ∧ (R p.shared.store → R p'.shared.store))
      (init jobs s w) p := by
  have hboth : Looking J R jobs p ∧
      ReachableIf (fun p i p' => cond p i p' ∧ J p.shared.store ∧ (R p.shared.store → R p'.shared.store))
        (init jobs s w) p := by
    induction hp with
    | refl => exact ⟨looking_init hs habides henters, .refl⟩
    | tail _ hstep ih =>
        obtain ⟨i, hs, hcond⟩ := hstep
        obtain ⟨hlooking, hstays⟩ := ih.1.step hs (hlooks _ _ _ hcond)
        exact ⟨hlooking, ih.2.tail ⟨i, hs, hcond, ih.1.inv, hstays⟩⟩
  exact hboth.2

end Pool

end CorpoPay.Transaction
