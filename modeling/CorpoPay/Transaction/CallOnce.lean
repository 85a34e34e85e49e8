import CorpoPay.Transaction.Lemmas.Inversion
import CorpoPay.Transaction.Rules

/-!
# One call of the outside world

A job that reads that a record is open, calls the outside world, and closes the record afterwards. The outside world
accepts at most one call in every run where such jobs follow each other and what they read after the call lets them close
the record.
-/

namespace CorpoPay.Transaction

variable {I : Interface} {ι α β : Type}

/-! ## Calls of a job -/

/-- The job may still call the outside world between its transactions. -/
def Job.MayAsk : Job I α → Prop
  | .ret _ => False
  | .throw _ => False
  | .txn _ k => ∃ r, (k r).MayAsk
  | .ask _ _ => True

def Phase.MayAsk : Phase I α → Prop
  | .between job => job.MayAsk
  | .inside _ _ k => ∃ r, (k r).MayAsk

theorem Phase.MayAsk.of_step {ℓ ℓ' : Local I} {σ σ' : Shared I} {ph ph' : Phase I α} (h : Phase.Step ℓ σ ph ℓ' σ' ph')
    (hask : ph'.MayAsk) : ph.MayAsk := by
  cases h with
  | begin => exact hask
  | call => trivial
  | commit => exact ⟨_, hask⟩
  | rollback => exact ⟨_, hask⟩
  | _ => exact hask

/-- A record that is open or not, and the calls that the outside world has accepted for it. -/
structure Outlet (I : Interface) where
  IsOpen : I.Store → Prop
  /-- The rows let a job close the open record after its call. -/
  Settles : I.Store → Prop
  /-- The error of a statement that the database refuses. -/
  Refusal : I.Err → Prop
  Entry : Type
  log : I.World → List Entry
  IsCall : I.Query → Prop
  Accepts : (q : I.Query) → I.Answer q → Prop
  log_quiet : ∀ w q, ¬ IsCall q → log (I.reply w q).2 = log w
  log_call : ∀ w q, log (I.reply w q).2 = log w ∨
    Accepts q (I.reply w q).1 ∧ ∃ entry, log (I.reply w q).2 = log w ++ [entry]

namespace Outlet

variable (O : Outlet I)

/-- The effect does not open the record. -/
def Keeps (w : I.Store → I.Store) : Prop := ∀ s, O.IsOpen (w s) → O.IsOpen s

/-- The effect closes the record. -/
def Closes (w : I.Store → I.Store) : Prop := ∀ s, ¬ O.IsOpen (w s)

/-- The transaction makes no call and does not open the record. -/
def Quiet (body : Tx I β) (w : I.Store → I.Store) : Prop :=
  body.Asks (¬ O.IsCall ·) ∧ body.Writes (fun v _ => O.Keeps v) w

/-- A job without calls. -/
def Calm : Job I α → Prop
  | .ret _ => True
  | .throw _ => True
  | .txn body k => O.Quiet body id ∧ ∀ r, Calm (k r)
  | .ask _ _ => False

/-- The transaction closes the record, when its statements read the record as open and the rows let it. -/
def Closing (body : Tx I β) (w : I.Store → I.Store) : Prop :=
  body.Passes (fun s => O.IsOpen s ∧ O.Settles s) O.Refusal (fun v _ => O.Closes v) w

/-- The next transaction of the job closes the record. -/
def Settling : Job I α → Prop
  | .txn body _ => O.Closing body id
  | _ => False

/-- A job that only reads before its call, and closes the record after a call that is accepted. -/
def Careful : Job I α → Prop
  | .ret _ => True
  | .throw _ => True
  | .txn body k => O.Quiet body id ∧ ((∃ r, (k r).MayAsk) → body.Writes (fun v _ => ∀ s, v s = s) id) ∧
      body.Writes (fun _ b => Careful (k (.ok b))) id ∧ ∀ e, Careful (k (.error e))
  | .ask q k => ∀ a, O.Calm (k a) ∧ (O.Accepts q a → O.Settling (k a))

def CarefulPhase : Phase I α → Prop
  | .between job => O.Careful job
  | .inside w body k => O.Quiet body w ∧ ((∃ r, (k r).MayAsk) → body.Writes (fun v _ => ∀ s, v s = s) w) ∧
      body.Writes (fun _ b => O.Careful (k (.ok b))) w ∧ ∀ e, O.Careful (k (.error e))

def SettlingPhase : Phase I α → Prop
  | .between job => O.Settling job
  | .inside w body _ => O.Closing body w

/-- The rows let the statement that comes next close the record, and the database has not refused the one before. -/
def Admits (s : I.Store) : Phase I α → Prop
  | .inside _ (.read _) _ => O.Settles s
  | .inside _ (.throw e) _ => ¬ O.Refusal e
  | _ => True

instance [DecidablePred O.Settles] [DecidablePred O.Refusal] (s : I.Store) (ph : Phase I α) : Decidable (O.Admits s ph) :=
  match ph with
  | .between _ => .isTrue trivial
  | .inside _ (.ret _) _ => .isTrue trivial
  | .inside _ (.throw e) _ => inferInstanceAs (Decidable (¬ O.Refusal e))
  | .inside _ (.read _) _ => inferInstanceAs (Decidable (O.Settles s))
  | .inside _ (.write _ _) _ => .isTrue trivial
  | .inside _ (.lock _ _) _ => .isTrue trivial
  | .inside _ (.ask _ _) _ => .isTrue trivial

variable {O}

/-! ## Rules -/

theorem Calm.not_mayAsk {j : Job I α} (h : O.Calm j) : ¬ j.MayAsk := by
  induction j with
  | ret a => exact id
  | throw e => exact id
  | txn body k ih => exact fun ⟨r, hr⟩ => ih r (h.2 r) hr
  | ask q k ih => exact h.elim

theorem Calm.careful {j : Job I α} (h : O.Calm j) : O.Careful j := by
  induction j with
  | ret a => trivial
  | throw e => trivial
  | txn body k ih =>
      refine ⟨h.1, fun ⟨r, hr⟩ => absurd hr (h.2 r).not_mayAsk, ?_, fun e => ih _ (h.2 _)⟩
      exact Tx.Writes.of_forall fun _ b => ih _ (h.2 (.ok b))
  | ask q k ih => exact h.elim

theorem calm_transaction {body : Tx I α} (h : O.Quiet body id) : O.Calm (Job.transaction body) :=
  ⟨h, fun r => by cases r <;> trivial⟩

theorem calm_ofExcept (r : Except I.Err α) : O.Calm (Job.ofExcept r) := by cases r <;> trivial

theorem Calm.bind {j : Job I β} {f : β → Job I α} (hj : O.Calm j) (hf : ∀ b, O.Calm (f b)) : O.Calm (j.bind f) := by
  induction j with
  | ret b => exact hf b
  | throw e => trivial
  | txn body k ih => exact ⟨hj.1, fun r => ih r (hj.2 r)⟩
  | ask q k ih => exact hj.elim

theorem Calm.mapError {j : Job I α} (h : O.Calm j) (f : I.Err → I.Err) : O.Calm (j.mapError f) := by
  induction j with
  | ret a => trivial
  | throw e => trivial
  | txn body k ih => exact ⟨h.1, fun r => ih r (h.2 r)⟩
  | ask q k ih => exact h.elim

theorem quiet_get (f : I.Store → α) : O.Quiet (Tx.get f) id := ⟨fun _ => trivial, fun _ _ hs => hs⟩

/-- A single statement that reads, before the call. -/
theorem careful_get_bind {f : I.Store → β} {k : β → Job I α} (h : ∀ s, O.Careful (k (f s))) :
    O.Careful ((Job.get f).bind k) := ⟨quiet_get f, fun _ _ _ => rfl, h, fun _ => trivial⟩

theorem careful_ofExcept_bind {r : Except I.Err β} {k : β → Job I α} (h : ∀ b, O.Careful (k b)) :
    O.Careful ((Job.ofExcept r).bind k) := by
  cases r with
  | ok b => exact h b
  | error e => trivial

/-! ## Steps -/

/-- A step of a careful job. -/
theorem CarefulPhase.step {ℓ ℓ' : Local I} {σ σ' : Shared I} {ph ph' : Phase I α} (h : Phase.Step ℓ σ ph ℓ' σ' ph')
    (hc : O.CarefulPhase ph) :
    O.CarefulPhase ph' ∧ (O.IsOpen σ'.store → O.IsOpen σ.store) ∧ (ph.MayAsk → σ'.store = σ.store) ∧
      (O.log σ'.world = O.log σ.world ∨
        ph.MayAsk ∧ ¬ ph'.MayAsk ∧ O.SettlingPhase ph' ∧ ∃ entry, O.log σ'.world = O.log σ.world ++ [entry]) := by
  cases h with
  | begin => exact ⟨hc, id, fun _ => rfl, .inl rfl⟩
  | @call _ σ q k =>
      obtain ⟨hcalm, hsettling⟩ := hc (I.reply σ.world q).1
      refine ⟨hcalm.careful, id, fun _ => rfl, (O.log_call σ.world q).imp id fun ⟨haccepts, hentry⟩ => ?_⟩
      exact ⟨trivial, hcalm.not_mayAsk, hsettling haccepts, hentry⟩
  | commit => exact ⟨hc.2.2.1, hc.1.2 _, fun hask => hc.2.1 hask _, .inl rfl⟩
  | rollback => exact ⟨hc.2.2.2 _, id, fun _ => rfl, .inl rfl⟩
  | read =>
      obtain ⟨⟨hasks, hkeeps⟩, hreads, hcareful, herror⟩ := hc
      exact ⟨⟨⟨hasks _, hkeeps _⟩, fun hask => hreads hask _, hcareful _, herror⟩, id, fun _ => rfl, .inl rfl⟩
  | write => exact ⟨hc, id, fun _ => rfl, .inl rfl⟩
  | lock => exact ⟨hc, id, fun _ => rfl, .inl rfl⟩
  | query =>
      obtain ⟨⟨⟨hquiet, hasks⟩, hkeeps⟩, hreads, hcareful, herror⟩ := hc
      refine ⟨⟨⟨hasks _, hkeeps _⟩, fun hask => hreads hask _, hcareful _, herror⟩, id, fun _ => rfl, .inl ?_⟩
      exact O.log_quiet _ _ hquiet

/-- A job that is about to close the record goes on or closes it. -/
theorem SettlingPhase.step [DecidableEq ι] [DecidableEq I.Lock] {p p' : Pool I ι α} {i : ι} (h : p.step i = some p')
    (hopen : O.IsOpen p.shared.store) (hadmits : O.Admits p.shared.store (p.threads i).phase)
    (hs : O.SettlingPhase (p.threads i).phase) :
    O.SettlingPhase (p'.threads i).phase ∨ ¬ O.IsOpen p'.shared.store := by
  unfold Pool.step at h
  split at h
  · cases h
  · cases h
  · rename_i hph
    cases h
    rw [hph] at hs
    simpa using .inl hs
  · rename_i hph
    rw [hph] at hs
    exact hs.elim
  · rename_i hph
    cases h
    rw [hph] at hs
    exact .inr (hs _)
  · rename_i hph
    rw [hph] at hs hadmits
    exact absurd hs hadmits
  · rename_i hph
    cases h
    rw [hph] at hs hadmits
    simpa using .inl (hs _ ⟨hopen, hadmits⟩)
  · rename_i hph
    cases h
    rw [hph] at hs
    simpa using .inl hs
  · rename_i hph
    split at h
    · cases h
      rw [hph] at hs
      simpa using .inl hs
    · cases h
  · rename_i hph
    cases h
    rw [hph] at hs
    simpa using .inl (hs _)

theorem SettlingPhase.not_finished {ph : Phase I α} (h : O.SettlingPhase ph) : ¬ ph.Finished := by
  match ph with
  | .between (.ret _) => exact h.elim
  | .between (.throw _) => exact h.elim
  | .between (.txn _ _) => exact id
  | .between (.ask _ _) => exact id
  | .inside _ _ _ => exact id

end Outlet

theorem Phase.MayAsk.not_finished {ph : Phase I α} (h : ph.MayAsk) : ¬ ph.Finished := by
  match ph with
  | .between (.ret _) => exact h.elim
  | .between (.throw _) => exact h.elim
  | .between (.txn _ _) => exact id
  | .between (.ask _ _) => exact id
  | .inside _ _ _ => exact id

theorem Phase.Step.not_finished {ℓ ℓ' : Local I} {σ σ' : Shared I} {ph ph' : Phase I α}
    (h : Phase.Step ℓ σ ph ℓ' σ' ph') : ¬ ph.Finished := by cases h <;> exact id

/-! ## Runs -/

/-- What a job of the pool has to do with the record. -/
inductive Role
  /-- It calls the outside world for the record. -/
  | caller
  /-- It may close the record. -/
  | closer
  | other
  deriving DecidableEq, Repr

namespace Pool

variable [DecidableEq ι] [DecidableEq I.Lock] (O : Outlet I) (role : ι → Role) (entries : List O.Entry)

/-- Callers begin while the record is open and no other one is in progress. After an accepted call, while the record is
open, the database ends none of them and refuses none of their statements, and what they read lets them close the
record. No closer changes the rows before the call of a caller that has begun. -/
def Serial (p : Pool I ι α) (i : ι) (p' : Pool I ι α) : Prop :=
  match role i with
  | .caller =>
      ((p.threads i).pc = 0 → O.IsOpen p.shared.store ∧
        ∀ j, j ≠ i → role j = .caller → (p.threads j).pc = 0 ∨ (p.threads j).phase.Finished) ∧
      (O.log p.shared.world ≠ entries → O.IsOpen p.shared.store →
        p.step i = some p' ∧ O.Admits p.shared.store (p.threads i).phase)
  | .closer => p'.shared.store ≠ p.shared.store →
      ∀ j, role j = .caller → 0 < (p.threads j).pc → ¬ (p.threads j).phase.MayAsk
  | .other => (O.IsOpen p'.shared.store → O.IsOpen p.shared.store) ∧
      (O.IsOpen p.shared.store → O.IsOpen p'.shared.store) ∧ O.log p'.shared.world = O.log p.shared.world

/-- The invariant of a run. -/
structure Called (jobs : ι → Job I α) (p : Pool I ι α) : Prop where
  careful : ∀ i, role i ≠ .other → O.CarefulPhase (p.threads i).phase
  closer : ∀ i, role i = .closer → ¬ (p.threads i).phase.MayAsk
  first : ∀ i, (p.threads i).pc = 0 → (p.threads i).phase = .between (jobs i)
  /-- A caller that has not called yet. -/
  before : ∀ i, role i = .caller → 0 < (p.threads i).pc → (p.threads i).phase.MayAsk →
    O.IsOpen p.shared.store ∧ O.log p.shared.world = entries
  /-- An accepted call, and its job has closed the record or is about to. -/
  after : O.log p.shared.world = entries ∨ (∃ entry, O.log p.shared.world = entries ++ [entry]) ∧
    (O.IsOpen p.shared.store →
      ∃ i, role i = .caller ∧ 0 < (p.threads i).pc ∧ O.SettlingPhase (p.threads i).phase)
  alone : ∀ i j, role i = .caller → role j = .caller → j ≠ i → 0 < (p.threads i).pc →
    ¬ (p.threads i).phase.Finished → (p.threads j).pc = 0 ∨ (p.threads j).phase.Finished

variable {O role entries} {jobs : ι → Job I α} {p p' : Pool I ι α} {i : ι}

/-- While a caller takes a step, no other caller is in progress. -/
theorem Called.others_idle (h : Called O role entries jobs p) (hstep : p.Step i p') (hcond : Serial O role entries p i p')
    (hi : role i = .caller) {j : ι} (hj : j ≠ i) (hrole : role j = .caller) :
    (p.threads j).pc = 0 ∨ (p.threads j).phase.Finished := by
  simp only [Serial, hi] at hcond
  rcases Nat.eq_zero_or_pos (p.threads i).pc with hpc | hpc
  · exact (hcond.1 hpc).2 j hj hrole
  · exact h.alone i j hi hrole hj hpc hstep.inv.1.not_finished

/-- A caller that takes a step before its call finds the record open and no call accepted. -/
theorem Called.ready (h : Called O role entries jobs p) (hcond : Serial O role entries p i p') (hi : role i = .caller)
    (hask : (p.threads i).phase.MayAsk) : O.IsOpen p.shared.store ∧ O.log p.shared.world = entries := by
  rcases Nat.eq_zero_or_pos (p.threads i).pc with hpc | hpc
  · simp only [Serial, hi] at hcond
    obtain ⟨hopen, hidle⟩ := hcond.1 hpc
    rcases h.after with hlog | ⟨-, hsettling⟩
    · exact ⟨hopen, hlog⟩
    · obtain ⟨j, hj, hjpc, hphase⟩ := hsettling hopen
      have hji : j ≠ i := by rintro rfl; omega
      rcases hidle j hji hj with hzero | hfinished
      · omega
      · exact absurd hfinished hphase.not_finished
  · exact h.before i hi hpc hask

/-- A step does not open the record, and the log grows with the call of a caller only. -/
theorem Called.effect (h : Called O role entries jobs p) (hstep : p.Step i p') (hcond : Serial O role entries p i p') :
    (O.IsOpen p'.shared.store → O.IsOpen p.shared.store) ∧
      (O.log p'.shared.world = O.log p.shared.world ∨
        role i = .caller ∧ (p.threads i).phase.MayAsk ∧ ¬ (p'.threads i).phase.MayAsk ∧
          O.SettlingPhase (p'.threads i).phase ∧ ∃ entry, O.log p'.shared.world = O.log p.shared.world ++ [entry]) := by
  cases hi : role i with
  | caller =>
      obtain ⟨-, hopen, -, hlog⟩ := (h.careful i (by simp [hi])).step hstep.inv.1
      exact ⟨hopen, hlog.imp id fun hgrow => ⟨rfl, hgrow⟩⟩
  | closer =>
      obtain ⟨-, hopen, -, hlog⟩ := (h.careful i (by simp [hi])).step hstep.inv.1
      exact ⟨hopen, .inl (hlog.resolve_right fun hgrow => h.closer i hi hgrow.1)⟩
  | other =>
      simp only [Serial, hi] at hcond
      exact ⟨hcond.1, .inl hcond.2.2⟩

/-- A caller that waits for its turn before its call is not disturbed. -/
theorem Called.undisturbed (h : Called O role entries jobs p) (hstep : p.Step i p')
    (hcond : Serial O role entries p i p') {j : ι} (hj : j ≠ i) (hrole : role j = .caller)
    (hpc : 0 < (p.threads j).pc) (hask : (p.threads j).phase.MayAsk) :
    (O.IsOpen p.shared.store → O.IsOpen p'.shared.store) ∧ O.log p'.shared.world = O.log p.shared.world := by
  have hi : role i ≠ .caller := fun hi => by
    rcases h.others_idle hstep hcond hi hj hrole with hzero | hfinished
    · omega
    · exact hask.not_finished hfinished
  refine ⟨?_, (h.effect hstep hcond).2.resolve_right fun hgrow => hi hgrow.1⟩
  cases hr : role i with
  | caller => exact absurd hr hi
  | closer =>
      simp only [Serial, hr] at hcond
      have hsame : p'.shared.store = p.shared.store := by
        by_contra hne
        exact hcond hne j hrole hpc hask
      rw [hsame]; exact id
  | other =>
      simp only [Serial, hr] at hcond
      exact hcond.2.1

theorem Called.step (h : Called O role entries jobs p) (hstep : p.Step i p') (hcond : Serial O role entries p i p') :
    Called O role entries jobs p' := by
  obtain ⟨hown, hothers⟩ := hstep.inv
  have hsame : ∀ j, j ≠ i → p'.threads j = p.threads j := fun j hj => (hothers j hj).1
  have hpc : (p'.threads i).pc = (p.threads i).pc + 1 := hown.pc
  obtain ⟨hopen, hlog⟩ := h.effect hstep hcond
  refine ⟨fun j hj => ?_, fun j hj => ?_, fun j hj => ?_, fun j hj hjpc hask => ?_, ?_, fun j k hj hk hkj hjpc hfin => ?_⟩
  · by_cases hji : j = i
    · subst hji; exact ((h.careful j hj).step hown).1
    · rw [hsame j hji]; exact h.careful j hj
  · by_cases hji : j = i
    · subst hji; exact fun hask => h.closer j hj (hask.of_step hown)
    · rw [hsame j hji]; exact h.closer j hj
  · by_cases hji : j = i
    · subst hji; omega
    · rw [hsame j hji] at hj ⊢; exact h.first j hj
  · by_cases hji : j = i
    · subst hji
      have hbefore := hask.of_step hown
      obtain ⟨hready, hnone⟩ := h.ready hcond hj hbefore
      have hstore := ((h.careful j (by simp [hj])).step hown).2.2.1 hbefore
      exact ⟨hstore ▸ hready, (hlog.resolve_right fun hgrow => hgrow.2.2.1 hask).trans hnone⟩
    · rw [hsame j hji] at hjpc hask
      obtain ⟨hready, hnone⟩ := h.before j hj hjpc hask
      obtain ⟨hkeep, hlog'⟩ := h.undisturbed hstep hcond hji hj hjpc hask
      exact ⟨hkeep hready, hlog'.trans hnone⟩
  · rcases hlog with hlog | ⟨hi, hask, -, hsettling, entry, hlog⟩
    · rcases h.after with hnone | ⟨⟨entry, hentry⟩, hclose⟩
      · exact .inl (hlog.trans hnone)
      · refine .inr ⟨⟨entry, hlog.trans hentry⟩, fun hopen' => ?_⟩
        obtain ⟨j, hj, hjpc, hphase⟩ := hclose (hopen hopen')
        by_cases hji : j = i
        · subst hji
          simp only [Serial, hj] at hcond
          have hne : O.log p.shared.world ≠ entries := by rw [hentry]; simp
          obtain ⟨hgoes, hadmits⟩ := hcond.2 hne (hopen hopen')
          rcases hphase.step hgoes (hopen hopen') hadmits with hphase' | hclosed
          · exact ⟨j, hj, by omega, hphase'⟩
          · exact absurd hopen' hclosed
        · exact ⟨j, hj, (hsame j hji).symm ▸ hjpc, (hsame j hji).symm ▸ hphase⟩
    · rw [(h.ready hcond hi hask).2] at hlog
      exact .inr ⟨⟨entry, hlog⟩, fun _ => ⟨i, hi, by omega, hsettling⟩⟩
  · by_cases hji : j = i
    · subst hji
      rw [hsame k hkj]
      exact h.others_idle hstep hcond hj hkj hk
    · rw [hsame j hji] at hjpc hfin
      by_cases hki : k = i
      · subst hki
        rcases h.others_idle hstep hcond hk hji hj with hzero | hfinished
        · omega
        · exact absurd hfinished hfin
      · rw [hsame k hki]
        exact h.alone j k hj hk hkj hjpc hfin

/-- The rule for pools of such jobs: at most one call is accepted, and the record is open when a caller calls. -/
theorem call_once (role : ι → Role) {s : I.Store} {w : I.World} (hcareful : ∀ i, role i ≠ .other → O.Careful (jobs i))
    (hcalm : ∀ i, role i = .closer → ¬ (jobs i).MayAsk) (hread : ∀ i q k, role i = .caller → jobs i ≠ .ask q k)
    (hp : ReachableIf (Serial O role (O.log w)) (init jobs s w) p) :
    (O.log p.shared.world = O.log w ∨ ∃ entry, O.log p.shared.world = O.log w ++ [entry]) ∧
      ∀ i q k, role i = .caller → (p.threads i).phase = .between (.ask q k) → O.IsOpen p.shared.store := by
  have hcalled : Called O role (O.log w) jobs p := by
    induction hp with
    | refl =>
        exact ⟨hcareful, hcalm, fun _ _ => rfl, fun _ _ hpc => absurd hpc (lt_irrefl _), .inl rfl,
          fun _ _ _ _ _ hpc => absurd hpc (lt_irrefl _)⟩
    | tail _ hstep ih =>
        obtain ⟨i, hs, hcond⟩ := hstep
        exact ih.step hs hcond
  refine ⟨hcalled.after.imp id And.left, fun i q k hi hphase => ?_⟩
  rcases Nat.eq_zero_or_pos (p.threads i).pc with hpc | hpc
  · have hjob : jobs i = .ask q k := by
      have hphase' := (hcalled.first i hpc).symm.trans hphase
      injection hphase'
    exact absurd hjob (hread i q k hi)
  · exact (hcalled.before i hi hpc (by rw [hphase]; trivial)).1

end Pool

end CorpoPay.Transaction
