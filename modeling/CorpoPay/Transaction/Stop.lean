import CorpoPay.Transaction.Amid

/-!
# A stop that is final

A record that is stopped, and jobs that look at it before they act on it. When the step that stops it finds every other
job that acts on it asleep, ended or not begun, it stays stopped and nothing more is done for it.
-/

namespace CorpoPay.Transaction

variable {I : Interface} {ι α β : Type}

/-- A record, what the outside world has done for it, and the questions by which a job sleeps. -/
structure Stop (I : Interface) where
  stopped : I.Store → Prop
  Deeds : Type
  deeds : I.World → Deeds
  /-- Nothing in the outside world is about to start the record again. -/
  calm : I.World → Prop
  sleeps : I.Query → Prop

variable (S : Stop I)

/-- The record is stopped, and nothing more is done for it. -/
def Stop.course (done : S.Deeds) : Course I where
  later _ _ := True
  inv σ := S.stopped σ.store ∧ S.calm σ.world ∧ S.deeds σ.world = done
  later_refl _ := trivial
  later_trans _ _ := trivial

/-- A job that leaves the record stopped, wherever the others are. -/
def Job.Heeds (j : Job I α) : Prop := ∀ done σ, (S.course done).inv σ →
  j.Amid (S.course done) (fun _ _ => True) (fun _ _ _ => True) (fun _ _ => True) (fun _ _ => True) σ

/-- An effect that neither stops the record nor starts it. -/
def Stop.Spares (w : I.Store → I.Store) : Prop := ∀ s, S.stopped (w s) ↔ S.stopped s

/-- A question that does nothing for the record. -/
def Stop.Harmless (q : I.Query) : Prop := ∀ w, S.calm w → S.calm (I.reply w q).2 ∧ S.deeds (I.reply w q).2 = S.deeds w

/-- An effect that does not stop the record. -/
def Stop.NeverStops (w : I.Store → I.Store) : Prop := ∀ s, S.stopped (w s) → S.stopped s

/-- A job that has nothing to do with the record. -/
def Job.Ignores : Job I α → Prop
  | .ret _ => True
  | .throw _ => True
  | .txn body k => body.Writes (fun w b => S.Spares w ∧ (k (.ok b)).Ignores) id ∧ body.Asks S.Harmless ∧
      ∀ e, (k (.error e)).Ignores
  | .ask q k => S.Harmless q ∧ ∀ a, (k a).Ignores

/-- A job that heeds the stop after each sleep, and after it has stopped the record itself. -/
def Job.Wakes : Job I α → Prop
  | .ret _ => True
  | .throw _ => True
  | .txn body k => body.Writes (fun w b => S.NeverStops w ∨ (k (.ok b)).Heeds S) id ∧ ∀ r, (k r).Wakes
  | .ask q k => (S.sleeps q → (Job.ask q k).Heeds S) ∧ ∀ a, (k a).Wakes

variable {S}

/-! ## Jobs that heed a stop -/

namespace Job

theorem heeds_ret (a : α) : (ret a : Job I α).Heeds S := fun _ _ _ _ _ => trivial

theorem heeds_throw (e : I.Err) : (throw e : Job I α).Heeds S := fun _ _ _ _ _ => trivial

theorem Heeds.bind {j : Job I α} {f : α → Job I β} (hj : j.Heeds S) (hf : ∀ a, (f a).Heeds S) : (j.bind f).Heeds S :=
  fun done σ hσ => Amid.bind hσ (fun _ _ => trivial) (hj done σ hσ) (fun a σ' hr _ _ => hf a done σ' hr.2)
    fun _ _ _ _ => trivial

/-- A question that is answered as the stop says. -/
theorem heeds_ask {q : I.Query} {k : I.Answer q → Job I α} (hq : S.Harmless q)
    (hk : ∀ w, S.calm w → (k (I.reply w q).1).Heeds S) : (ask q k).Heeds S := by
  intro done σ _ σ' hr _ _
  obtain ⟨hcalm, hdeeds⟩ := hq σ'.world hr.2.2.1
  have hnext : (S.course done).Reach σ' (σ'.asked q) := ⟨trivial, hr.2.1, hcalm, hdeeds.trans hr.2.2.2⟩
  exact ⟨hnext, hk _ hr.2.2.1 done _ hnext.2⟩

/-- A statement that reads the stopped record. -/
theorem heeds_get_bind {f : I.Store → α} {k : α → Job I β} (h : ∀ s, S.stopped s → (k (f s)).Heeds S) :
    ((get f).bind k).Heeds S := by
  intro done σ hσ
  refine amid_bind (R := fun a _ => ∃ s, S.stopped s ∧ a = f s) hσ (fun _ _ => trivial)
    (amid_select (fun _ _ => trivial) (fun _ _ _ _ h => h) fun σ' hr => ⟨_, hr.2.1, rfl⟩) (fun a σ' hr ha _ => ?_)
    fun _ _ _ => trivial
  obtain ⟨s, hs, rfl⟩ := ha
  exact h s hs done σ' hr.2

/-! ## Jobs that ignore the record -/

theorem Ignores.of_does {j : Job I α} (h : j.Does S.Spares S.Harmless) : j.Ignores S := by
  induction j with
  | ret a => trivial
  | throw e => trivial
  | txn body k ih => exact ⟨h.1.1.mono fun _ b hw => ⟨hw, ih _ (h.2 (.ok b))⟩, h.1.2, fun e => ih _ (h.2 (.error e))⟩
  | ask q k ih => exact ⟨h.1, fun a => ih a (h.2 a)⟩

theorem Ignores.bind {j : Job I α} {f : α → Job I β} (hj : j.Ignores S) (hf : ∀ a, (f a).Ignores S) :
    (j.bind f).Ignores S := by
  induction j with
  | ret a => exact hf a
  | throw e => trivial
  | txn body k ih => exact ⟨hj.1.mono fun _ b hw => ⟨hw.1, ih _ hw.2⟩, hj.2.1, fun e => ih _ (hj.2.2 e)⟩
  | ask q k ih => exact ⟨hj.1, fun a => ih a (hj.2 a)⟩

theorem ignores_get_bind {f : I.Store → α} {k : α → Job I β} (h : ∀ s, (k (f s)).Ignores S) : ((get f).bind k).Ignores S :=
  ⟨fun s => ⟨fun _ => Iff.rfl, h s⟩, fun _ => trivial, fun _ => trivial⟩

theorem Ignores.heeds {j : Job I α} (h : j.Ignores S) : j.Heeds S := by
  intro done σ hσ
  induction j generalizing σ with
  | ret a => exact fun _ _ => trivial
  | throw e => exact fun _ _ => trivial
  | txn body k ih =>
      refine ⟨fun σ₁ hr₁ => .of_writes (K := fun _ => True) h.1 h.2.1 (fun _ _ _ _ => trivial) trivial
        (fun q σ₂ hq _ hinv _ => ?_) fun v b σ₂ hr₂ hv _ _ => ?_, fun e σ₁ hr₁ _ => ih _ (h.2.2 e) σ₁ hr₁.2⟩
      · exact ⟨trivial, hinv.1, (hq _ hinv.2.1).1, (hq _ hinv.2.1).2.trans hinv.2.2⟩
      · have hnext : (S.course done).Reach σ₂ (σ₂.committed v) := ⟨trivial, (hv.1 _).mpr hr₂.2.1, hr₂.2.2⟩
        exact ⟨hnext, trivial, ih _ hv.2 _ hnext.2⟩
  | ask q k ih =>
      intro σ₁ hr₁ _ _
      have hnext : (S.course done).Reach σ₁ (σ₁.asked q) :=
        ⟨trivial, hr₁.2.1, (h.1 _ hr₁.2.2.1).1, (h.1 _ hr₁.2.2.1).2.trans hr₁.2.2.2⟩
      exact ⟨hnext, ih _ (h.2 _) _ hnext.2⟩

/-! ## Jobs that wake -/

theorem Wakes.bind {j : Job I α} {f : α → Job I β} (hj : j.Wakes S) (hf : ∀ a, (f a).Wakes S)
    (hheeds : ∀ a, (f a).Heeds S) : (j.bind f).Wakes S := by
  induction j with
  | ret a => exact hf a
  | throw e => trivial
  | txn body k ih => exact ⟨hj.1.mono fun _ _ h => h.imp id fun h => h.bind hheeds, fun r => ih r (hj.2 r)⟩
  | ask q k ih => exact ⟨fun hq => (hj.1 hq).bind hheeds, fun a => ih a (hj.2 a)⟩

/-- A job that does not stop the record and does not sleep, then another one. -/
theorem Wakes.after {A : I.Query → Prop} {j : Job I α} {f : α → Job I β} (hj : j.Does S.NeverStops A)
    (hA : ∀ q, A q → ¬ S.sleeps q) (hf : ∀ a, (f a).Wakes S) : (j.bind f).Wakes S := by
  induction j with
  | ret a => exact hf a
  | throw e => trivial
  | txn body k ih => exact ⟨hj.1.1.mono fun _ _ h => .inl h, fun r => ih r (hj.2 r)⟩
  | ask q k ih => exact ⟨fun hq => absurd hq (hA q hj.1), fun a => ih a (hj.2 a)⟩

theorem Wakes.of_does {A : I.Query → Prop} {j : Job I α} (hj : j.Does S.NeverStops A) (hA : ∀ q, A q → ¬ S.sleeps q) :
    j.Wakes S := by
  induction j with
  | ret a => trivial
  | throw e => trivial
  | txn body k ih => exact ⟨hj.1.1.mono fun _ _ h => .inl h, fun r => ih r (hj.2 r)⟩
  | ask q k ih => exact ⟨fun hq => absurd hq (hA q hj.1), fun a => ih a (hj.2 a)⟩

/-- A transaction after which the job heeds the stop. -/
theorem wakes_transaction_bind {body : Tx I α} {f : α → Job I β} (hf : ∀ a, (f a).Wakes S) (hheeds : ∀ a, (f a).Heeds S) :
    ((transaction body).bind f).Wakes S := by
  refine ⟨Tx.Writes.of_forall fun _ a => .inr (hheeds a), fun r => ?_⟩
  cases r with
  | ok a => exact hf a
  | error e => trivial

end Job

/-! ## Phases -/

variable (S)

/-- The phase of a job that leaves the record stopped from where it stands. -/
def Phase.Heeds (done : S.Deeds) (σ : Shared I) (ph : Phase I α) : Prop :=
  ph.Amid (S.course done) (fun _ _ => True) (fun _ _ _ => True) (fun _ _ => True) (fun _ _ => True) σ

def Phase.Ignores : Phase I α → Prop
  | .between job => job.Ignores S
  | .inside w body k => body.Writes (fun v b => S.Spares v ∧ (k (.ok b)).Ignores S) w ∧ body.Asks S.Harmless ∧
      ∀ e, (k (.error e)).Ignores S

def Phase.Wakes : Phase I α → Prop
  | .between job => job.Wakes S
  | .inside w body k => body.Writes (fun v b => S.NeverStops v ∨ (k (.ok b)).Heeds S) w ∧ ∀ r, (k r).Wakes S

/-- The job sleeps. -/
def Phase.Asleep : Phase I α → Prop
  | .between (.ask q _) => S.sleeps q
  | _ => False

variable {S}

theorem Phase.Heeds.of_finished {ph : Phase I α} (h : ph.Finished) (done : S.Deeds) (σ : Shared I) : ph.Heeds S done σ := by
  match ph with
  | .between (.ret _) => exact fun _ _ => trivial
  | .between (.throw _) => exact fun _ _ => trivial
  | .between (.txn _ _) => exact h.elim
  | .between (.ask _ _) => exact h.elim
  | .inside _ _ _ => exact h.elim

theorem Phase.Heeds.of_asleep {ph : Phase I α} (h : ph.Asleep S) (hwakes : ph.Wakes S) {done : S.Deeds} {σ : Shared I}
    (hσ : (S.course done).inv σ) : ph.Heeds S done σ := by
  match ph with
  | .between (.ret _) => exact h.elim
  | .between (.throw _) => exact h.elim
  | .between (.txn _ _) => exact h.elim
  | .between (.ask q k) => exact hwakes.1 h done σ hσ
  | .inside _ _ _ => exact h.elim

theorem Phase.Ignores.heeds {ph : Phase I α} (h : ph.Ignores S) {done : S.Deeds} {σ : Shared I}
    (hσ : (S.course done).inv σ) : ph.Heeds S done σ := by
  cases ph with
  | between job => exact Job.Ignores.heeds h done σ hσ
  | inside w body k =>
      refine ⟨.of_writes (K := fun _ => True) h.1 h.2.1 (fun _ _ _ _ => trivial) trivial (fun q σ hq _ hinv _ => ?_)
        (fun v b σ' hr hv _ _ => ?_), fun e σ' hr _ => (h.2.2 _).heeds done σ' hr.2⟩
      · exact ⟨trivial, hinv.1, (hq _ hinv.2.1).1, (hq _ hinv.2.1).2.trans hinv.2.2⟩
      · have hnext : (S.course done).Reach σ' (σ'.committed v) := ⟨trivial, (hv.1 _).mpr hr.2.1, hr.2.2⟩
        exact ⟨hnext, trivial, hv.2.heeds done _ hnext.2⟩

section Steps

variable {ℓ ℓ' : Local I} {σ σ' : Shared I} {ph ph' : Phase I α}

theorem Phase.Ignores.step (h : Phase.Step ℓ σ ph ℓ' σ' ph') (hph : ph.Ignores S) :
    ph'.Ignores S ∧ (S.stopped σ'.store ↔ S.stopped σ.store) := by
  cases h with
  | begin => exact ⟨hph, Iff.rfl⟩
  | call => exact ⟨hph.2 _, Iff.rfl⟩
  | commit => exact ⟨hph.1.2, hph.1.1 _⟩
  | rollback => exact ⟨hph.2.2 _, Iff.rfl⟩
  | read => exact ⟨⟨hph.1 _, hph.2.1 _, hph.2.2⟩, Iff.rfl⟩
  | write => exact ⟨hph, Iff.rfl⟩
  | lock => exact ⟨hph, Iff.rfl⟩
  | query => exact ⟨⟨hph.1 _, hph.2.1.2 _, hph.2.2⟩, Iff.rfl⟩

/-- A job that stops the record heeds it from then on. -/
theorem Phase.Wakes.step (h : Phase.Step ℓ σ ph ℓ' σ' ph') (hph : ph.Wakes S) :
    ph'.Wakes S ∧ (¬ S.stopped σ.store → S.stopped σ'.store → σ'.world = σ.world ∧
      ∀ done, (S.course done).inv σ' → ph'.Heeds S done σ') := by
  cases h with
  | begin => exact ⟨hph, fun hnot hstopped => absurd hstopped hnot⟩
  | call => exact ⟨hph.2 _, fun hnot hstopped => absurd hstopped hnot⟩
  | commit =>
      refine ⟨hph.2 _, fun hnot hstopped => ⟨rfl, fun done hinv => ?_⟩⟩
      rcases hph.1 with hnever | hheeds
      · exact absurd (hnever _ hstopped) hnot
      · exact hheeds done _ hinv
  | rollback => exact ⟨hph.2 _, fun hnot hstopped => absurd hstopped hnot⟩
  | read => exact ⟨⟨hph.1 _, hph.2⟩, fun hnot hstopped => absurd hstopped hnot⟩
  | write => exact ⟨hph, fun hnot hstopped => absurd hstopped hnot⟩
  | lock => exact ⟨hph, fun hnot hstopped => absurd hstopped hnot⟩
  | query => exact ⟨⟨hph.1 _, hph.2⟩, fun hnot hstopped => absurd hstopped hnot⟩

end Steps

/-! ## Runs -/

namespace Pool

variable [DecidableEq ι] [DecidableEq I.Lock] (S) (acts : ι → Prop)

/-- The step that stops the record finds the outside world calm, and the other jobs that act on the record not begun,
asleep or ended. -/
def StopsAtRest (p : Pool I ι α) (i : ι) (p' : Pool I ι α) : Prop :=
  ¬ S.stopped p.shared.store → S.stopped p'.shared.store → S.calm p.shared.world ∧
    ∀ j, j ≠ i → acts j → (p.threads j).pc = 0 ∨ (p.threads j).phase.Asleep S ∨ (p.threads j).phase.Finished

/-- The invariant of a run. -/
structure Guarded (jobs : ι → Job I α) (p : Pool I ι α) : Prop where
  first : ∀ i, (p.threads i).pc = 0 → (p.threads i).phase = .between (jobs i)
  ignores : ∀ i, ¬ acts i → (p.threads i).phase.Ignores S
  wakes : ∀ i, acts i → (p.threads i).phase.Wakes S
  final : S.stopped p.shared.store → S.calm p.shared.world ∧
    ∀ i, (p.threads i).phase.Heeds S (S.deeds p.shared.world) p.shared

variable {S acts} {jobs : ι → Job I α} {p p' : Pool I ι α} {i : ι}

/-- A stopped record stays as it is. -/
theorem Guarded.stays (h : Guarded S acts jobs p) (hstep : p.Step i p') (hstopped : S.stopped p.shared.store) :
    S.stopped p'.shared.store ∧ S.calm p'.shared.world ∧ S.deeds p'.shared.world = S.deeds p.shared.world ∧
      ∀ j, (p'.threads j).phase.Heeds S (S.deeds p.shared.world) p'.shared := by
  obtain ⟨hown, hothers⟩ := hstep.inv
  obtain ⟨hcalm, hheeds⟩ := h.final hstopped
  obtain ⟨hnext, hphase, -⟩ := Transaction.Phase.Amid.step hown (hheeds i) ⟨hstopped, hcalm, rfl⟩ trivial fun _ _ => trivial
  refine ⟨hnext.2.1, hnext.2.2.1, hnext.2.2.2, fun j => ?_⟩
  by_cases hji : j = i
  · subst hji; exact hphase
  · rw [(hothers j hji).1]
    exact (hheeds j).stable trivial

/-- When the record is stopped, everybody heeds it. -/
theorem Guarded.stop (h : Guarded S acts jobs p) (hheeds : ∀ j, acts j → (jobs j).Heeds S) (hstep : p.Step i p')
    (hcond : StopsAtRest S acts p i p') (hnot : ¬ S.stopped p.shared.store) (hstopped : S.stopped p'.shared.store) :
    S.calm p'.shared.world ∧ ∀ j, (p'.threads j).phase.Heeds S (S.deeds p'.shared.world) p'.shared := by
  obtain ⟨hown, hothers⟩ := hstep.inv
  obtain ⟨hcalm, hrest⟩ := hcond hnot hstopped
  by_cases hi : acts i
  · obtain ⟨hworld, hself⟩ := ((h.wakes i hi).step hown).2 hnot hstopped
    have hinv : (S.course (S.deeds p'.shared.world)).inv p'.shared := ⟨hstopped, hworld ▸ hcalm, rfl⟩
    refine ⟨hinv.2.1, fun j => ?_⟩
    by_cases hji : j = i
    · subst hji; exact hself _ hinv
    · rw [(hothers j hji).1]
      by_cases hj : acts j
      · rcases hrest j hji hj with hzero | hasleep | hfinished
        · rw [h.first j hzero]; exact hheeds j hj _ _ hinv
        · exact .of_asleep hasleep (h.wakes j hj) hinv
        · exact .of_finished hfinished _ _
      · exact (h.ignores j hj).heeds hinv
  · exact absurd (((h.ignores i hi).step hown).2.mp hstopped) hnot

theorem Guarded.step (h : Guarded S acts jobs p) (hheeds : ∀ j, acts j → (jobs j).Heeds S) (hstep : p.Step i p')
    (hcond : StopsAtRest S acts p i p') : Guarded S acts jobs p' := by
  obtain ⟨hown, hothers⟩ := hstep.inv
  have hsame : ∀ j, j ≠ i → p'.threads j = p.threads j := fun j hj => (hothers j hj).1
  have hpc : (p'.threads i).pc = (p.threads i).pc + 1 := hown.pc
  refine ⟨fun j hj => ?_, fun j hj => ?_, fun j hj => ?_, fun hstopped => ?_⟩
  · have hji : j ≠ i := by rintro rfl; omega
    rw [hsame j hji] at hj ⊢
    exact h.first j hj
  · by_cases hji : j = i
    · subst hji; exact ((h.ignores j hj).step hown).1
    · rw [hsame j hji]; exact h.ignores j hj
  · by_cases hji : j = i
    · subst hji; exact ((h.wakes j hj).step hown).1
    · rw [hsame j hji]; exact h.wakes j hj
  · by_cases hbefore : S.stopped p.shared.store
    · obtain ⟨-, hcalm, hdeeds, hall⟩ := h.stays hstep hbefore
      exact ⟨hcalm, hdeeds ▸ hall⟩
    · exact h.stop hheeds hstep hcond hbefore hstopped

variable {s : I.Store} {w : I.World} {cond : Pool I ι α → ι → Pool I ι α → Prop}

/-- The rule for pools of such jobs: a stop is final. -/
theorem stop_final (hignores : ∀ i, ¬ acts i → (jobs i).Ignores S) (hwakes : ∀ i, acts i → (jobs i).Wakes S)
    (hheeds : ∀ i, acts i → (jobs i).Heeds S) (hstart : S.stopped s → S.calm w)
    (hcond : ∀ p i p', p.Step i p' → cond p i p' → StopsAtRest S acts p i p') (hp : ReachableIf cond (init jobs s w) p)
    (hstopped : S.stopped p.shared.store) (hp' : ReachableIf cond p p') :
    S.stopped p'.shared.store ∧ S.deeds p'.shared.world = S.deeds p.shared.world := by
  have hguarded : Guarded S acts jobs p := by
    clear hstopped hp'
    induction hp with
    | refl =>
        refine ⟨fun _ _ => rfl, hignores, hwakes, fun hstopped => ⟨hstart hstopped, fun i => ?_⟩⟩
        have hinv : (S.course (S.deeds w)).inv ⟨s, w⟩ := ⟨hstopped, hstart hstopped, rfl⟩
        by_cases hi : acts i
        · exact hheeds i hi _ _ hinv
        · exact (hignores i hi).heeds _ _ hinv
    | tail _ hstep ih =>
        obtain ⟨i, hs, hc⟩ := hstep
        exact ih.step hheeds hs (hcond _ _ _ hs hc)
  have hrun : Guarded S acts jobs p' ∧ S.stopped p'.shared.store ∧ S.deeds p'.shared.world = S.deeds p.shared.world := by
    induction hp' with
    | refl => exact ⟨hguarded, hstopped, rfl⟩
    | tail _ hstep ih =>
        obtain ⟨i, hs, hc⟩ := hstep
        obtain ⟨hguarded', hstopped', hdeeds'⟩ := ih
        obtain ⟨hstays, -, hsame, -⟩ := hguarded'.stays hs hstopped'
        exact ⟨hguarded'.step hheeds hs (hcond _ _ _ hs hc), hstays, hsame.trans hdeeds'⟩
  exact hrun.2

end Pool

end CorpoPay.Transaction
