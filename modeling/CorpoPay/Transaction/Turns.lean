import CorpoPay.Transaction.Lemmas.Inversion
import CorpoPay.Transaction.Rules

/-!
# Jobs that take turns by a status

The status of a record is its lock: a client takes it from `free` to another status in one statement, works, and writes
the next status. `Turn.Holds` says that a client has taken the record and is not done with it. Jobs that are no clients
write the status as well; `Turn.Respects` is what they have to leave alone.
-/

namespace CorpoPay.Transaction

variable {I : Interface} {S α : Type}

/-- A record with a status. -/
structure Turn (I : Interface) (S : Type) where
  /-- The lock of its row. -/
  lock : I.Lock
  status : I.Store → S
  free : S
  final : S → Prop
  inv : I.Store → Prop

/-- The statement by which a client takes the record: it counts the rows it takes. -/
structure Turn.Entry (T : Turn I S) where
  count : I.Store → Nat
  take : I.Store → I.Store
  /-- A record that is not free is left alone. -/
  take_other : ∀ s, T.status s ≠ T.free → T.status (take s) = T.status s
  /-- A row is counted when the record is free, and is taken then. -/
  counted : ∀ s, T.inv s → count s ≠ 0 → T.status s = T.free ∧
    ∀ s', T.inv s' → ¬ T.final (T.status s') → T.status (take s') ≠ T.free ∧ ¬ T.final (T.status (take s'))

namespace Turn

variable (T : Turn I S)

/-! ## Clients -/

/-- Writes that leave the status. -/
def Keeps (v : I.Store → I.Store) : Prop := ∀ s, T.status (v s) = T.status s

/-- The job neither calls the outside world nor changes the status any more. -/
def Done : Job I α → Prop
  | .ret _ => True
  | .throw _ => True
  | .txn body k => body.Writes (fun v _ => T.Keeps v) id ∧ ∀ r, Done (k r)
  | .ask _ _ => False

/-- The job changes the status once and is done. -/
def Working : Job I α → Prop
  | .ret _ => True
  | .throw _ => True
  | .txn body k => body.Writes (fun v _ => T.Keeps v) id ∧ (∀ r, Working (k r)) ∨ ∀ r, T.Done (k r)
  | .ask _ k => ∀ a, Working (k a)

def DonePhase : Phase I α → Prop
  | .between job => T.Done job
  | .inside w body k => body.Writes (fun v _ => T.Keeps v) w ∧ ∀ r, T.Done (k r)

def WorkingPhase : Phase I α → Prop
  | .between job => T.Working job
  | .inside w body k => body.Writes (fun v _ => T.Keeps v) w ∧ (∀ r, T.Working (k r)) ∨ ∀ r, T.Done (k r)

variable {T}

def Entry.body (E : T.Entry) : Tx I Nat := .lock T.lock (.read fun s => .write E.take (.ret (E.count s)))

/-- The statement takes the record. -/
def Entry.Takes (E : T.Entry) : Prop :=
  ∀ s, T.inv s → ¬ T.final (T.status s) → T.status (E.take s) ≠ T.free ∧ ¬ T.final (T.status (E.take s))

/-- What follows the statement: the work, or a refusal when no row was taken. -/
def Entry.next (_ : T.Entry) (refuse work : Job I α) (r : Except I.Err Nat) : Job I α :=
  (Job.ofExcept r).bind fun count => if count = 0 then refuse else work

variable (T)

/-- The job takes the record, works and is done, or is refused. -/
def Client (j : Job I α) : Prop :=
  ∃ (E : T.Entry) (refuse work : Job I α), j = .txn E.body (E.next refuse work) ∧ T.Done refuse ∧ T.Working work

variable {T}

/-! ## Rules -/

section Rules

variable {β : Type}

theorem done_get_bind {f : I.Store → β} {k : β → Job I α} (h : ∀ b, T.Done (k b)) : T.Done ((Job.get f).bind k) := by
  refine ⟨fun _ _ => rfl, fun r => ?_⟩
  cases r with
  | ok b => exact h b
  | error e => trivial

theorem Done.bind {j : Job I β} {f : β → Job I α} (hj : T.Done j) (hf : ∀ b, T.Done (f b)) : T.Done (j.bind f) := by
  induction j with
  | ret b => exact hf b
  | throw e => trivial
  | txn body k ih => exact ⟨hj.1, fun r => ih r (hj.2 r)⟩
  | ask q k ih => exact hj

theorem Done.working {j : Job I α} (h : T.Done j) : T.Working j := by
  induction j with
  | ret a => trivial
  | throw e => trivial
  | txn body k ih => exact .inl ⟨h.1, fun r => ih r (h.2 r)⟩
  | ask q k ih => exact h.elim

/-- What follows the work is done with. -/
theorem Working.bind {j : Job I β} {f : β → Job I α} (hj : T.Working j) (hf : ∀ b, T.Done (f b)) :
    T.Working (j.bind f) := by
  induction j with
  | ret b => exact (hf b).working
  | throw e => trivial
  | txn body k ih =>
      rcases hj with ⟨hwrites, hk⟩ | hk
      · exact .inl ⟨hwrites, fun r => ih r (hk r)⟩
      · exact .inr fun r => (hk r).bind hf
  | ask q k ih => exact fun a => ih a (hj a)

theorem done_ofExcept (r : Except I.Err α) : T.Done (Job.ofExcept r) := by cases r <;> trivial

/-- The statement that changes the status, and what follows it. -/
theorem working_transaction_bind {body : Tx I β} {k : β → Job I α} (h : ∀ b, T.Done (k b)) :
    T.Working ((Job.transaction body).bind k) :=
  .inr fun r => (done_ofExcept r).bind h

theorem working_get_bind {f : I.Store → β} {k : β → Job I α} (h : ∀ b, T.Working (k b)) :
    T.Working ((Job.get f).bind k) := by
  refine .inl ⟨fun _ _ => rfl, fun r => ?_⟩
  cases r with
  | ok b => exact h b
  | error e => trivial

theorem working_ofExcept_bind {r : Except I.Err β} {k : β → Job I α} (h : ∀ b, T.Working (k b)) :
    T.Working ((Job.ofExcept r).bind k) := by
  cases r with
  | ok b => exact h b
  | error e => trivial

theorem done_transaction {body : Tx I α} (h : body.Writes (fun v _ => T.Keeps v) id) : T.Done (Job.transaction body) :=
  ⟨h, fun r => done_ofExcept r⟩

end Rules

/-! ## Steps -/

theorem DonePhase.step {ℓ ℓ' : Local I} {σ σ' : Shared I} {ph ph' : Phase I α} (h : Phase.Step ℓ σ ph ℓ' σ' ph')
    (hd : T.DonePhase ph) : T.DonePhase ph' ∧ T.status σ'.store = T.status σ.store := by
  cases h with
  | begin => exact ⟨hd, rfl⟩
  | call => exact hd.elim
  | commit => exact ⟨hd.2 _, hd.1 _⟩
  | rollback => exact ⟨hd.2 _, rfl⟩
  | read => exact ⟨⟨hd.1 _, hd.2⟩, rfl⟩
  | write => exact ⟨hd, rfl⟩
  | lock => exact ⟨hd, rfl⟩
  | query => exact ⟨⟨hd.1 _, hd.2⟩, rfl⟩

/-- A step of the work: it keeps the status, or the work is done. -/
theorem WorkingPhase.step {ℓ ℓ' : Local I} {σ σ' : Shared I} {ph ph' : Phase I α} (h : Phase.Step ℓ σ ph ℓ' σ' ph')
    (hw : T.WorkingPhase ph) :
    T.WorkingPhase ph' ∧ (T.status σ'.store = T.status σ.store ∨ T.DonePhase ph') := by
  have hdone : ∀ {j : Job I α}, T.Done j → T.WorkingPhase (.between j) ∧ T.DonePhase (.between j) :=
    fun hj => ⟨hj.working, hj⟩
  cases h with
  | begin => exact ⟨hw, .inl rfl⟩
  | call => exact ⟨hw _, .inl rfl⟩
  | commit =>
      rcases hw with ⟨hwrites, hk⟩ | hk
      · exact ⟨hk _, .inl (hwrites _)⟩
      · exact ⟨(hdone (hk _)).1, .inr (hk _)⟩
  | rollback =>
      rcases hw with ⟨-, hk⟩ | hk
      · exact ⟨hk _, .inl rfl⟩
      · exact ⟨(hdone (hk _)).1, .inr (hk _)⟩
  | read => exact ⟨hw.imp_left fun hw => ⟨hw.1 _, hw.2⟩, .inl rfl⟩
  | write => exact ⟨hw, .inl rfl⟩
  | lock => exact ⟨hw, .inl rfl⟩
  | query => exact ⟨hw.imp_left fun hw => ⟨hw.1 _, hw.2⟩, .inl rfl⟩

/-- Where a client stands. `clear` is what it has found out when it takes the record. -/
inductive Place (clear : Prop) : Local I → Phase I α → Prop
  | waiting {ℓ} (E : T.Entry) (refuse work : Job I α) (hrefuse : T.Done refuse) (hwork : T.Working work)
      (hpc : ℓ.pc = 0) : Place clear ℓ (.between (.txn E.body (E.next refuse work)))
  | begun {ℓ} (E : T.Entry) (refuse work : Job I α) (hrefuse : T.Done refuse) (hwork : T.Working work)
      (hpc : ℓ.pc = 1) : Place clear ℓ (.inside id E.body (E.next refuse work))
  | locked {ℓ} (E : T.Entry) (refuse work : Job I α) (hrefuse : T.Done refuse) (hwork : T.Working work)
      (hpc : ℓ.pc = 2) (hheld : T.lock ∈ ℓ.held) :
      Place clear ℓ (.inside id (.read fun s => .write E.take (.ret (E.count s))) (E.next refuse work))
  | counted {ℓ} (E : T.Entry) (refuse work : Job I α) (hrefuse : T.Done refuse) (hwork : T.Working work)
      (hpc : ℓ.pc = 3) (hheld : T.lock ∈ ℓ.held) (count : Nat) (hcount : count ≠ 0 → clear ∧ E.Takes) :
      Place clear ℓ (.inside id (.write E.take (.ret count)) (E.next refuse work))
  | written {ℓ} (E : T.Entry) (refuse work : Job I α) (hrefuse : T.Done refuse) (hwork : T.Working work)
      (hpc : ℓ.pc = 4) (hheld : T.lock ∈ ℓ.held) (count : Nat) (hcount : count ≠ 0 → clear ∧ E.Takes) :
      Place clear ℓ (.inside E.take (.ret count) (E.next refuse work))
  | working {ℓ} {ph : Phase I α} (hpc : 5 ≤ ℓ.pc) (hph : T.WorkingPhase ph) : Place clear ℓ ph
  | done {ℓ} {ph : Phase I α} (hph : T.DonePhase ph) : Place clear ℓ ph

/-- The client has taken the record and is not done with it. -/
def HoldsAt (T : Turn I S) (ℓ : Local I) (ph : Phase I α) : Prop := 5 ≤ ℓ.pc ∧ ¬ T.DonePhase ph

/-- What a step of a client does. -/
inductive Effect (T : Turn I S) (clear : Prop) (ℓ : Local I) (σ : Shared I) (ℓ' : Local I) (σ' : Shared I)
    (holds holds' : Prop) : Prop
  | keeps (hstatus : T.status σ'.store = T.status σ.store) (hholds : holds' → holds)
  | takes (hheld : T.lock ∈ ℓ.held) (hreleased : T.lock ∉ ℓ'.held) (hclear : clear)
      (hstatus : T.status σ'.store ≠ T.free ∧ ¬ T.final (T.status σ'.store))
  | misses (hheld : T.lock ∈ ℓ.held) (hreleased : T.lock ∉ ℓ'.held)
      (hstatus : T.status σ.store ≠ T.free → T.status σ'.store = T.status σ.store) (hholds : ¬ holds')
  | ends (hholds : holds) (hholds' : ¬ holds')

theorem not_holdsAt_of_pc {ℓ : Local I} {ph : Phase I α} (h : ℓ.pc < 5) : ¬ T.HoldsAt ℓ ph := fun hh => by
  have := hh.1
  omega

theorem not_holdsAt_of_done {ℓ : Local I} {ph : Phase I α} (h : T.DonePhase ph) : ¬ T.HoldsAt ℓ ph := fun hh => hh.2 h

/-- A step of a client. -/
theorem Place.step {clear : Prop} {ℓ ℓ' : Local I} {σ σ' : Shared I} {ph ph' : Phase I α}
    (h : Phase.Step ℓ σ ph ℓ' σ' ph') (hp : T.Place clear ℓ ph) (hinv : T.inv σ.store)
    (hclear : T.status σ.store = T.free → clear) (hfinal : clear → ¬ T.final (T.status σ.store)) :
    T.Place clear ℓ' ph' ∧ T.Effect clear ℓ σ ℓ' σ' (T.HoldsAt ℓ ph) (T.HoldsAt ℓ' ph') := by
  have hquiet : ∀ ph' : Phase I α, T.DonePhase ph' → σ' = σ →
      T.Place clear ℓ' ph' ∧ T.Effect clear ℓ σ ℓ' σ' (T.HoldsAt ℓ ph) (T.HoldsAt ℓ' ph') := fun _ hd hσ =>
    ⟨.done hd, .keeps (by rw [hσ]) fun hh => absurd hd hh.2⟩
  have hearly : ∀ {ph' : Phase I α}, T.Place clear ℓ' ph' → ℓ'.pc < 5 → σ' = σ →
      T.Place clear ℓ' ph' ∧ T.Effect clear ℓ σ ℓ' σ' (T.HoldsAt ℓ ph) (T.HoldsAt ℓ' ph') := fun hplace hpc hσ =>
    ⟨hplace, .keeps (by rw [hσ]) fun hh => absurd hh (not_holdsAt_of_pc hpc)⟩
  have hpc' := h.pc
  cases hp with
  | waiting E refuse work hrefuse hwork hpc =>
      cases h with
      | begin => exact hearly (.begun E refuse work hrefuse hwork (by omega)) (by omega) rfl
  | begun E refuse work hrefuse hwork hpc =>
      cases h with
      | rollback => exact hquiet (.between (.throw _)) trivial rfl
      | lock =>
          exact hearly (.locked E refuse work hrefuse hwork (by omega) (Set.mem_insert _ _)) (by omega) rfl
  | locked E refuse work hrefuse hwork hpc hheld =>
      cases h with
      | rollback => exact hquiet (.between (.throw _)) trivial rfl
      | read =>
          have hheld' : T.lock ∈ ℓ.tick.held := hheld
          refine hearly (.counted E refuse work hrefuse hwork (by omega) hheld' _ fun hcount => ?_) (by omega) rfl
          obtain ⟨hfree, htakes⟩ := E.counted _ hinv hcount
          exact ⟨hclear hfree, htakes⟩
  | counted E refuse work hrefuse hwork hpc hheld count hcount =>
      cases h with
      | rollback => exact hquiet (.between (.throw _)) trivial rfl
      | write =>
          have hheld' : T.lock ∈ ℓ.tick.held := hheld
          exact hearly (.written E refuse work hrefuse hwork (by omega) hheld' count hcount) (by omega) rfl
  | written E refuse work hrefuse hwork hpc hheld count hcount =>
      cases h with
      | rollback => exact hquiet (.between (.throw _)) trivial rfl
      | commit =>
          by_cases hzero : count = 0
          · have hnext : (E.next refuse work (.ok count) : Job I α) = refuse := if_pos hzero
            rw [hnext]
            exact ⟨.done hrefuse, .misses hheld (Set.notMem_empty _) (E.take_other _) (not_holdsAt_of_done hrefuse)⟩
          · have hnext : (E.next refuse work (.ok count) : Job I α) = work := if_neg hzero
            obtain ⟨hc, htakes⟩ := hcount hzero
            rw [hnext]
            exact ⟨.working (by omega) hwork, .takes hheld (Set.notMem_empty _) hc (htakes _ hinv (hfinal hc))⟩
  | working hpc hph =>
      obtain ⟨hph', hstatus⟩ := hph.step h
      refine ⟨.working (by omega) hph', ?_⟩
      by_cases hd : T.DonePhase ph
      · exact .keeps (hd.step h).2 fun hh => absurd (hd.step h).1 hh.2
      · rcases hstatus with hstatus | hd'
        · exact .keeps hstatus fun _ => ⟨hpc, hd⟩
        · exact .ends ⟨hpc, hd⟩ (not_holdsAt_of_done hd')
  | done hph =>
      exact ⟨.done (hph.step h).1, .keeps (hph.step h).2 fun hh => absurd (hph.step h).1 hh.2⟩

theorem Place.mono {clear clear' : Prop} {ℓ : Local I} {ph : Phase I α} (h : T.Place clear ℓ ph)
    (hclear : T.lock ∈ ℓ.held → clear → clear') : T.Place clear' ℓ ph := by
  cases h with
  | waiting E refuse work hrefuse hwork hpc => exact .waiting E refuse work hrefuse hwork hpc
  | begun E refuse work hrefuse hwork hpc => exact .begun E refuse work hrefuse hwork hpc
  | locked E refuse work hrefuse hwork hpc hheld => exact .locked E refuse work hrefuse hwork hpc hheld
  | counted E refuse work hrefuse hwork hpc hheld count hcount =>
      exact .counted E refuse work hrefuse hwork hpc hheld count fun hne => (hcount hne).imp_left (hclear hheld)
  | written E refuse work hrefuse hwork hpc hheld count hcount =>
      exact .written E refuse work hrefuse hwork hpc hheld count fun hne => (hcount hne).imp_left (hclear hheld)
  | working hpc hph => exact .working hpc hph
  | done hph => exact .done hph

end Turn

/-! ## Runs -/

namespace Pool

variable {ι : Type} [DecidableEq ι] (T : Turn I S) (client : ι → Prop)

/-- Thread `i` has taken the record and is not done with it. -/
def Holds (p : Pool I ι α) (i : ι) : Prop := T.HoldsAt (p.locals i) (p.threads i).phase

/-- A client has the row, or the record. -/
def Claimed (p : Pool I ι α) : Prop := ∃ j, client j ∧ (T.lock ∈ (p.locals j).held ∨ p.Holds T j)

/-- While a client has a claim, the other jobs neither free nor close the record. -/
def Respects [DecidableEq I.Lock] (p : Pool I ι α) (i : ι) (p' : Pool I ι α) : Prop :=
  ¬ client i → p.Claimed T client → T.status p'.shared.store ≠ T.status p.shared.store →
    T.status p'.shared.store ≠ T.free ∧ ¬ T.final (T.status p'.shared.store)

/-- The record is not closed, and no client holds it. -/
def Vacant (p : Pool I ι α) : Prop := ¬ T.final (T.status p.shared.store) ∧ ∀ j, client j → ¬ p.Holds T j

/-- The invariant of a run. -/
structure TakesTurns (p : Pool I ι α) : Prop where
  place : ∀ i, client i → T.Place (p.Vacant T client) (p.locals i) (p.threads i).phase
  busy : ∀ i, client i → p.Holds T i → T.status p.shared.store ≠ T.free ∧ ¬ T.final (T.status p.shared.store)
  alone : ∀ i j, client i → client j → p.Holds T i → p.Holds T j → i = j

variable {T client} {p p' : Pool I ι α} {i : ι}

omit [DecidableEq ι] in
theorem holds_of_eq {j : ι} (hthread : p'.threads j = p.threads j) (hlocal : p'.locals j = p.locals j) :
    p'.Holds T j ↔ p.Holds T j := by
  rw [Holds, Holds, hthread, hlocal]

variable [DecidableEq I.Lock]

omit [DecidableEq ι] [DecidableEq I.Lock] in
/-- What a client that finds the record free knows. -/
theorem TakesTurns.vacant (h : p.TakesTurns T client) (hfinal : ¬ T.final T.free)
    (hfree : T.status p.shared.store = T.free) : p.Vacant T client :=
  ⟨by rwa [hfree], fun j hj hholds => (h.busy j hj hholds).1 hfree⟩

/-- A step of a client. -/
theorem TakesTurns.step_client (h : p.TakesTurns T client) (hstep : p.Step i p') (hi : client i)
    (hfinal : ¬ T.final T.free) (hinv : T.inv p.shared.store) : p'.TakesTurns T client := by
  obtain ⟨hown, hothers⟩ := hstep.inv
  have hsame : ∀ j, j ≠ i → (p'.Holds T j ↔ p.Holds T j) := fun j hj =>
    holds_of_eq (hothers j hj).1 (hothers j hj).2
  obtain ⟨hplace, heffect⟩ := (h.place i hi).step hown hinv (h.vacant hfinal) fun hc => hc.1
  -- The others stay where they are, so only what they found out has to be shown again.
  have places : (T.lock ∈ (p'.locals i).held → p.Vacant T client → p'.Vacant T client) →
      (∀ j, j ≠ i → T.lock ∈ (p.locals j).held → p.Vacant T client → p'.Vacant T client) →
      ∀ j, client j → T.Place (p'.Vacant T client) (p'.locals j) (p'.threads j).phase := by
    intro hself hrest j hj
    by_cases hji : j = i
    · subst hji; exact hplace.mono hself
    · rw [(hothers j hji).1, (hothers j hji).2]; exact (h.place j hj).mono (hrest j hji)
  cases heffect with
  | keeps hstatus hholds =>
      have hback : ∀ j, p'.Holds T j → p.Holds T j := fun j hj => by
        by_cases hji : j = i
        · subst hji; exact hholds hj
        · exact (hsame j hji).mp hj
      have hclear : p.Vacant T client → p'.Vacant T client := fun hc =>
        ⟨by rw [hstatus]; exact hc.1, fun j hj hh => hc.2 j hj (hback j hh)⟩
      refine ⟨places (fun _ => hclear) fun _ _ _ => hclear, fun j hj hh => ?_, fun j k hj hk hh hh' => ?_⟩
      · rw [hstatus]; exact h.busy j hj (hback j hh)
      · exact h.alone j k hj hk (hback j hh) (hback k hh')
  | takes hheld hreleased hclear hstatus =>
      have honly : ∀ j, client j → p'.Holds T j → j = i := fun j hj hh => by
        by_contra hji
        exact hclear.2 j hj ((hsame j hji).mp hh)
      refine ⟨places (fun hh => absurd hh hreleased) fun j hji hh => absurd (eq_of_held hh hheld) hji,
        fun _ _ _ => hstatus, fun j k hj hk hh hh' => (honly j hj hh).trans (honly k hk hh').symm⟩
  | misses hheld hreleased hstatus hholds =>
      have hne : ∀ j, p'.Holds T j → j ≠ i := by rintro j hh rfl; exact hholds hh
      refine ⟨places (fun hh => absurd hh hreleased) fun j hji hh => absurd (eq_of_held hh hheld) hji,
        fun j hj hh => ?_, fun j k hj hk hh hh' => ?_⟩
      · have hbusy := h.busy j hj ((hsame j (hne j hh)).mp hh)
        rw [hstatus hbusy.1]
        exact hbusy
      · exact h.alone j k hj hk ((hsame j (hne j hh)).mp hh) ((hsame k (hne k hh')).mp hh')
  | ends hholds hholds' =>
      have hnone : ∀ j, client j → ¬ p'.Holds T j := fun j hj hh => by
        by_cases hji : j = i
        · subst hji; exact hholds' hh
        · exact hji (h.alone j i hj hi ((hsame j hji).mp hh) hholds)
      exact ⟨places (fun _ hc => absurd hholds (hc.2 i hi)) fun _ _ _ hc => absurd hholds (hc.2 i hi),
        fun j hj hh => absurd hh (hnone j hj), fun j _ hj _ hh => absurd hh (hnone j hj)⟩

/-- A step of another job. -/
theorem TakesTurns.step_other (h : p.TakesTurns T client) (hstep : p.Step i p') (hi : ¬ client i)
    (hcond : Respects T client p i p') : p'.TakesTurns T client := by
  have hothers : ∀ j, client j → p'.threads j = p.threads j ∧ p'.locals j = p.locals j := fun j hj =>
    hstep.inv.2 j fun hji => hi (hji ▸ hj)
  have hsame : ∀ j, client j → (p'.Holds T j ↔ p.Holds T j) := fun j hj =>
    holds_of_eq (hothers j hj).1 (hothers j hj).2
  have hstatus : p.Claimed T client → T.status p'.shared.store = T.status p.shared.store ∨
      T.status p'.shared.store ≠ T.free ∧ ¬ T.final (T.status p'.shared.store) := fun hclaim => by
    by_cases hne : T.status p'.shared.store = T.status p.shared.store
    · exact .inl hne
    · exact .inr (hcond hi hclaim hne)
  refine ⟨fun j hj => ?_, fun j hj hh => ?_, fun j k hj hk hh hh' => ?_⟩
  · rw [(hothers j hj).1, (hothers j hj).2]
    refine (h.place j hj).mono fun hheld hc => ⟨?_, fun k hk hh => hc.2 k hk ((hsame k hk).mp hh)⟩
    rcases hstatus ⟨j, hj, .inl hheld⟩ with hs | hs
    · rw [hs]; exact hc.1
    · exact hs.2
  · have hholds := (hsame j hj).mp hh
    rcases hstatus ⟨j, hj, .inr hholds⟩ with hs | hs
    · rw [hs]; exact h.busy j hj hholds
    · exact hs
  · exact h.alone j k hj hk ((hsame j hj).mp hh) ((hsame k hk).mp hh')

omit [DecidableEq ι] [DecidableEq I.Lock] in
/-- Only a client that holds the record is about to call the outside world. -/
theorem TakesTurns.holds_of_ask (h : p.TakesTurns T client) (hi : client i) {q : I.Query} {k : I.Answer q → Job I α}
    (hphase : (p.threads i).phase = .between (.ask q k)) : p.Holds T i := by
  have hplace := h.place i hi
  rw [hphase] at hplace
  have hnot : ¬ T.DonePhase (.between (.ask q k)) := id
  cases hplace with
  | working hpc hph => exact ⟨hpc, by rw [hphase]; exact hnot⟩
  | done hph => exact absurd hph hnot

/-- No client changes a closed record. -/
theorem TakesTurns.keeps_final (h : p.TakesTurns T client) (hstep : p.Step i p') (hi : client i)
    (hfinal : ¬ T.final T.free) (hinv : T.inv p.shared.store) (hclosed : T.final (T.status p.shared.store)) :
    T.status p'.shared.store = T.status p.shared.store := by
  cases ((h.place i hi).step hstep.inv.1 hinv (h.vacant hfinal) fun hc => hc.1).2 with
  | keeps hstatus hholds => exact hstatus
  | takes hheld hreleased hclear hstatus => exact absurd hclosed hclear.1
  | misses hheld hreleased hstatus hholds =>
      refine hstatus fun hfree => hfinal ?_
      rwa [hfree] at hclosed
  | ends hholds hholds' => exact absurd hclosed (h.busy i hi hholds).2

theorem ReachableIf.reachable {cond : Pool I ι α → ι → Pool I ι α → Prop} {p₀ : Pool I ι α}
    (h : ReachableIf cond p₀ p) : Reachable p₀ p :=
  Relation.ReflTransGen.mono (fun _ _ h => h.imp fun _ hj => ⟨hj.1, trivial⟩) _ _ h

variable {jobs : ι → Job I α} {s : I.Store} {w : I.World}

/-- The rule for runs. -/
theorem takesTurns (hfinal : ¬ T.final T.free) (hclients : ∀ i, client i → T.Client (jobs i))
    (hinv : ∀ p, Reachable (init jobs s w) p → T.inv p.shared.store)
    (hp : ReachableIf (Respects T client) (init jobs s w) p) : p.TakesTurns T client := by
  induction hp with
  | refl =>
      have hpc : ∀ i, ¬ (init jobs s w).Holds T i := fun i => Turn.not_holdsAt_of_pc (Nat.zero_lt_succ 4)
      refine ⟨fun i hi => ?_, fun i _ hh => absurd hh (hpc i), fun i _ _ _ hh => absurd hh (hpc i)⟩
      obtain ⟨E, refuse, work, hjob, hrefuse, hwork⟩ := hclients i hi
      show T.Place _ _ (.between (jobs i))
      rw [hjob]
      exact .waiting E refuse work hrefuse hwork rfl
  | tail hrun hstep ih =>
      obtain ⟨i, hs, hcond⟩ := hstep
      by_cases hi : client i
      · exact ih.step_client hs hi hfinal (hinv _ (ReachableIf.reachable hrun))
      · exact ih.step_other hs hi hcond

end Pool

end CorpoPay.Transaction
