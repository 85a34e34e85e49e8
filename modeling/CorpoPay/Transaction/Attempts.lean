import CorpoPay.Transaction.Log

/-!
# Attempts

A job that calls the outside world again until a call succeeds. The log holds the outcomes of the calls. In a run where
such a job begins only while no other one is on its way and before the first success, nothing follows a success.
-/

namespace CorpoPay.Transaction

variable {I : Interface} {ι α β : Type}

/-- Nothing follows a success. -/
def SuccessLast (outcomes : List Bool) : Prop := outcomes.Pairwise fun earlier _ => earlier = false

theorem successLast_append {xs ys : List Bool} :
    SuccessLast (xs ++ ys) ↔ SuccessLast xs ∧ SuccessLast ys ∧ (xs.contains true = true → ys = []) := by
  rw [SuccessLast, List.pairwise_append]
  refine and_congr_right fun _ => and_congr_right fun _ => ⟨fun h hx => ?_, fun h a ha b hb => ?_⟩
  · refine List.eq_nil_iff_forall_not_mem.mpr fun b hb => ?_
    exact absurd (h true (by simpa using hx) b hb) (by simp)
  · cases a with
    | false => rfl
    | true => rw [h (by simpa using ha)] at hb; cases hb

/-! ## Jobs -/

/-- Whatever it reads and is answered, the job calls no more after a success and ends with `Q`. The flag says whether a
call has succeeded. -/
def Job.Tries (L : Log I Bool) (Q : Bool → Except I.Err α → Prop) : Job I α → Bool → Prop
  | .ret a, succeeded => Q succeeded (.ok a)
  | .throw e, succeeded => Q succeeded (.error e)
  | .txn body k, succeeded => body.Asks L.Silent ∧ ∀ r, (k r).Tries L Q succeeded
  | .ask q k, succeeded => ∀ a, SuccessLast (L.adds q a) ∧ (succeeded = true → L.adds q a = []) ∧
      (k a).Tries L Q (succeeded || (L.adds q a).contains true)

def Phase.Tries (L : Log I Bool) (Q : Bool → Except I.Err α → Prop) : Phase I α → Bool → Prop
  | .between job, succeeded => job.Tries L Q succeeded
  | .inside _ body k, succeeded => body.Asks L.Silent ∧ ∀ r, (k r).Tries L Q succeeded

variable {L : Log I Bool} {Q : Bool → Except I.Err α → Prop} {succeeded : Bool}

namespace Job

@[simp] theorem tries_ret (a : α) : (ret a : Job I α).Tries L Q succeeded ↔ Q succeeded (.ok a) := Iff.rfl

@[simp] theorem tries_throw (e : I.Err) : (throw e : Job I α).Tries L Q succeeded ↔ Q succeeded (.error e) := Iff.rfl

@[simp] theorem tries_bind {Q : Bool → Except I.Err β → Prop} (j : Job I α) (f : α → Job I β) :
    (j.bind f).Tries L Q succeeded ↔ j.Tries L (fun succeeded r =>
      match r with | .ok a => (f a).Tries L Q succeeded | .error e => Q succeeded (.error e)) succeeded := by
  induction j generalizing succeeded with
  | ret a => rfl
  | throw e => rfl
  | txn body k ih => exact and_congr_right fun _ => forall_congr' fun r => ih r
  | ask q k ih => exact forall_congr' fun a => and_congr_right fun _ => and_congr_right fun _ => ih a

theorem Tries.mono {Q' : Bool → Except I.Err α → Prop} {j : Job I α} (h : j.Tries L Q succeeded)
    (hQ : ∀ succeeded r, Q succeeded r → Q' succeeded r) : j.Tries L Q' succeeded := by
  induction j generalizing succeeded with
  | ret a => exact hQ _ _ h
  | throw e => exact hQ _ _ h
  | txn body k ih => exact ⟨h.1, fun r => ih r (h.2 r)⟩
  | ask q k ih => exact fun a => ⟨(h a).1, (h a).2.1, ih a (h a).2.2⟩

/-- A job without calls. -/
theorem Tries.of_does {W : (I.Store → I.Store) → Prop} {j : Job I α} (h : j.Does W L.Silent) (hQ : ∀ r, Q succeeded r) :
    j.Tries L Q succeeded := by
  induction j with
  | ret a => exact hQ _
  | throw e => exact hQ _
  | txn body k ih => exact ⟨h.1.2, fun r => ih r (h.2 r)⟩
  | ask q k ih =>
      intro a
      have hnone : L.adds q a = [] := h.1 a
      exact ⟨hnone ▸ .nil, fun _ => hnone, by simpa [hnone] using ih a (h.2 a)⟩

/-- A job without calls, then another one. -/
theorem Tries.after {W : (I.Store → I.Store) → Prop} {Q : Bool → Except I.Err β → Prop} {j : Job I α} {f : α → Job I β}
    (h : j.Does W L.Silent) (hf : ∀ a, (f a).Tries L Q succeeded) (herror : ∀ e, Q succeeded (.error e)) :
    (j.bind f).Tries L Q succeeded := by
  refine (tries_bind j f).mpr (.of_does h fun r => ?_)
  cases r with
  | ok a => exact hf a
  | error e => exact herror e

/-- What a job does after a success, it may do before one. -/
theorem Tries.earlier {j : Job I α} (h : j.Tries L (fun _ _ => True) true) : j.Tries L (fun _ _ => True) succeeded := by
  induction j generalizing succeeded with
  | ret a => trivial
  | throw e => trivial
  | txn body k ih => exact ⟨h.1, fun r => ih r (h.2 r)⟩
  | ask q k ih =>
      intro a
      obtain ⟨hlast, hnone, hrest⟩ := h a
      exact ⟨hlast, fun _ => hnone rfl, ih a hrest⟩

end Job

/-! ## Phases -/

/-- The phase of a job that calls no more after a success. -/
abbrev Phase.Attempts (L : Log I Bool) (ph : Phase I α) (succeeded : Bool) : Prop := ph.Tries L (fun _ _ => True) succeeded

theorem Phase.Attempts.earlier {ph : Phase I α} (h : ph.Attempts L true) : ph.Attempts L succeeded := by
  cases ph with
  | between job => exact Job.Tries.earlier h
  | inside w body k => exact ⟨h.1, fun r => (h.2 r).earlier⟩

theorem Phase.Attempts.of_finished {ph : Phase I α} (h : ph.Finished) : ph.Attempts L succeeded := by
  match ph with
  | .between (.ret _) => trivial
  | .between (.throw _) => trivial
  | .between (.txn _ _) => exact h.elim
  | .between (.ask _ _) => exact h.elim
  | .inside _ _ _ => exact h.elim

/-- A step of a job adds what the job may add. -/
theorem Phase.Tries.step {ℓ ℓ' : Local I} {σ σ' : Shared I} {ph ph' : Phase I α} (h : Phase.Step ℓ σ ph ℓ' σ' ph')
    (hph : ph.Tries L Q succeeded) : ∃ new, L.entries σ'.world = L.entries σ.world ++ new ∧ SuccessLast new ∧
      (succeeded = true → new = []) ∧ ph'.Tries L Q (succeeded || new.contains true) := by
  have hquiet : ∀ {σ' : Shared I} {ph' : Phase I α}, L.entries σ'.world = L.entries σ.world → ph'.Tries L Q succeeded →
      ∃ new, L.entries σ'.world = L.entries σ.world ++ new ∧ SuccessLast new ∧ (succeeded = true → new = []) ∧
        ph'.Tries L Q (succeeded || new.contains true) :=
    fun hworld hph' => ⟨[], by simpa using hworld, .nil, fun _ => rfl, by simpa using hph'⟩
  cases h with
  | begin => exact hquiet rfl hph
  | @call _ σ q k =>
      obtain ⟨hlast, hnone, hrest⟩ := hph (I.reply σ.world q).1
      exact ⟨_, L.entries_reply σ.world q, hlast, hnone, hrest⟩
  | commit => exact hquiet rfl (hph.2 _)
  | rollback => exact hquiet rfl (hph.2 _)
  | read => exact hquiet rfl ⟨hph.1 _, hph.2⟩
  | write => exact hquiet rfl hph
  | lock => exact hquiet rfl hph
  | @query _ _ σ w q f k =>
      refine hquiet ?_ ⟨hph.1.2 _, hph.2⟩
      exact (L.entries_reply σ.world q).trans (by rw [hph.1.1, List.append_nil])

/-- A step that makes no call between its transactions. -/
theorem Phase.Step.entries_eq {ℓ ℓ' : Local I} {σ σ' : Shared I} {ph ph' : Phase I α} (h : Phase.Step ℓ σ ph ℓ' σ' ph')
    (hph : ph.Tries L Q succeeded) (hsilent : ∀ q k, ph = .between (.ask q k) → L.Silent q) :
    L.entries σ'.world = L.entries σ.world := by
  cases h with
  | @call _ σ q k => exact (L.entries_reply σ.world q).trans (by rw [hsilent q k rfl, List.append_nil])
  | @query _ _ σ w q f k => exact (L.entries_reply σ.world q).trans (by rw [hph.1.1, List.append_nil])
  | _ => rfl

/-! ## Runs -/

namespace Pool

variable [DecidableEq ι] [DecidableEq I.Lock]

/-- No call has succeeded, and none of the other jobs in progress makes one. -/
structure Clear (L : Log I Bool) (p : Pool I ι α) (i : ι) : Prop where
  unsuccessful : (L.entries p.shared.world).contains true = false
  others : ∀ j, j ≠ i → (p.threads j).pc ≠ 0 → (p.threads j).phase.Attempts L true

/-- The invariant of a run. -/
structure OneByOne (L : Log I Bool) (jobs : ι → Job I α) (p : Pool I ι α) : Prop where
  log : SuccessLast (L.entries p.shared.world)
  first : ∀ i, (p.threads i).pc = 0 → (p.threads i).phase = .between (jobs i)
  begun : ∀ i, (p.threads i).pc ≠ 0 → (p.threads i).phase.Attempts L ((L.entries p.shared.world).contains true)
  /-- A job without calls. -/
  quiet : ∀ i, (jobs i).Tries L (fun _ _ => True) true → (p.threads i).phase.Attempts L true
  alone : ∀ i j, j ≠ i → (p.threads i).pc ≠ 0 → (p.threads j).pc ≠ 0 →
    (p.threads i).phase.Attempts L true ∨ (p.threads j).phase.Attempts L true

variable {jobs : ι → Job I α} {p p' : Pool I ι α} {i : ι}

theorem OneByOne.quiet_step (h : OneByOne L jobs p) (hstep : p.Step i p') (j : ι)
    (hjob : (jobs j).Tries L (fun _ _ => True) true) : (p'.threads j).phase.Attempts L true := by
  obtain ⟨hown, hothers⟩ := hstep.inv
  by_cases hji : j = i
  · subst hji
    obtain ⟨new, -, -, hnone, hrest⟩ := (h.quiet j hjob).step hown
    exact hrest
  · rw [(hothers j hji).1]
    exact h.quiet j hjob

/-- A job begins. -/
theorem OneByOne.begin (h : OneByOne L jobs p) (hjob : (jobs i).Tries L (fun _ _ => True) false)
    (hsilent : ∀ q k, jobs i = .ask q k → L.Silent q) (hstep : p.Step i p') (hpc : (p.threads i).pc = 0)
    (hclear : ¬ (p'.threads i).phase.Attempts L true → Clear L p i) : OneByOne L jobs p' := by
  obtain ⟨hown, hothers⟩ := hstep.inv
  have hsame : ∀ j, j ≠ i → p'.threads j = p.threads j := fun j hj => (hothers j hj).1
  have hpc' : (p'.threads i).pc = (p.threads i).pc + 1 := hown.pc
  have hphase : (p.threads i).phase.Attempts L false := by rw [h.first i hpc]; exact hjob
  have hlog : L.entries p'.shared.world = L.entries p.shared.world :=
    hown.entries_eq hphase fun q k hq => hsilent q k (by rw [h.first i hpc] at hq; injection hq)
  have hnext : (p'.threads i).phase.Attempts L false := by
    obtain ⟨new, hnew, -, -, hrest⟩ := hphase.step hown
    have hnil : new = [] := by simpa [hlog] using hnew
    simpa [hnil] using hrest
  refine ⟨hlog ▸ h.log, fun j hj => ?_, fun j hj => ?_, h.quiet_step hstep, fun j k hkj hj hk => ?_⟩
  · have hji : j ≠ i := by rintro rfl; omega
    rw [hsame j hji] at hj ⊢
    exact h.first j hj
  · rw [hlog]
    by_cases hji : j = i
    · subst hji
      by_cases hquiet : (p'.threads j).phase.Attempts L true
      · exact hquiet.earlier
      · rw [(hclear hquiet).unsuccessful]; exact hnext
    · rw [hsame j hji] at hj ⊢
      exact h.begun j hj
  · by_cases hquiet : (p'.threads i).phase.Attempts L true
    · by_cases hji : j = i
      · subst hji; exact .inl hquiet
      · by_cases hki : k = i
        · subst hki; exact .inr hquiet
        · rw [hsame j hji] at hj ⊢
          rw [hsame k hki] at hk ⊢
          exact h.alone j k hkj hj hk
    · by_cases hji : j = i
      · subst hji
        rw [hsame k hkj] at hk ⊢
        exact .inr ((hclear hquiet).others k hkj hk)
      · rw [hsame j hji] at hj ⊢
        exact .inl ((hclear hquiet).others j hji hj)

/-- A job that has begun goes on. -/
theorem OneByOne.go (h : OneByOne L jobs p) (hstep : p.Step i p') (hpc : (p.threads i).pc ≠ 0) : OneByOne L jobs p' := by
  obtain ⟨hown, hothers⟩ := hstep.inv
  have hsame : ∀ j, j ≠ i → p'.threads j = p.threads j := fun j hj => (hothers j hj).1
  have hpc' : (p'.threads i).pc = (p.threads i).pc + 1 := hown.pc
  obtain ⟨new, hnew, hlast, hnone, hrest⟩ := (h.begun i hpc).step hown
  have hcontains : (L.entries p'.shared.world).contains true =
      ((L.entries p.shared.world).contains true || new.contains true) := by
    simp [hnew]
  -- A job that makes no calls makes none with its next step.
  have hquiet : (p.threads i).phase.Attempts L true → new = [] ∧ (p'.threads i).phase.Attempts L true := fun hi => by
    obtain ⟨new', hnew', -, hnone', hrest'⟩ := hi.step hown
    obtain rfl : new = new' := List.append_cancel_left (hnew.symm.trans hnew')
    exact ⟨hnone' rfl, hrest'⟩
  have hothers : ∀ j, j ≠ i → (p.threads j).pc ≠ 0 → (p.threads i).phase.Attempts L true ∨
      (p.threads j).phase.Attempts L true := fun j hj hjpc => h.alone i j hj hpc hjpc
  refine ⟨?_, fun j hj => ?_, fun j hj => ?_, h.quiet_step hstep, fun j k hkj hj hk => ?_⟩
  · rw [hnew]
    exact successLast_append.mpr ⟨h.log, hlast, hnone⟩
  · have hji : j ≠ i := by rintro rfl; omega
    rw [hsame j hji] at hj ⊢
    exact h.first j hj
  · rw [hcontains]
    by_cases hji : j = i
    · subst hji; exact hrest
    · rw [hsame j hji] at hj ⊢
      rcases hothers j hji hj with hi | hj'
      · simpa [(hquiet hi).1] using h.begun j hj
      · exact hj'.earlier
  · by_cases hji : j = i
    · subst hji
      rw [hsame k hkj] at hk ⊢
      exact (hothers k hkj hk).imp (fun hi => (hquiet hi).2) id
    · rw [hsame j hji] at hj ⊢
      by_cases hki : k = i
      · subst hki
        exact (hothers j hji hj).symm.imp id fun hi => (hquiet hi).2
      · rw [hsame k hki] at hk ⊢
        exact h.alone j k hkj hj hk

variable {s : I.Store} {w : I.World} {cond : Pool I ι α → ι → Pool I ι α → Prop}

/-- The rule for pools of such jobs: nothing follows a success. -/
theorem success_last (hw : SuccessLast (L.entries w)) (hjobs : ∀ i, (jobs i).Tries L (fun _ _ => True) false)
    (hsilent : ∀ i q k, jobs i = .ask q k → L.Silent q)
    (hcond : ∀ p i p', OneByOne L jobs p → p.Step i p' → cond p i p' → (p.threads i).pc = 0 →
      ¬ (p'.threads i).phase.Attempts L true → Clear L p i)
    (hp : ReachableIf cond (init jobs s w) p) : SuccessLast (L.entries p.shared.world) := by
  have hrun : OneByOne L jobs p := by
    induction hp with
    | refl => exact ⟨hw, fun _ _ => rfl, fun _ hpc => absurd rfl hpc, fun _ h => h, fun _ _ _ hpc => absurd rfl hpc⟩
    | @tail p p' _ hstep ih =>
        obtain ⟨i, hs, hc⟩ := hstep
        by_cases hpc : (p.threads i).pc = 0
        · exact ih.begin (hjobs i) (hsilent i) hs hpc (hcond p i p' ih hs hc hpc)
        · exact ih.go hs hpc
  exact hrun.log

end Pool

end CorpoPay.Transaction
