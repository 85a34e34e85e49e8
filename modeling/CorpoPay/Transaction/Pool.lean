import Mathlib.Logic.Function.Basic
import Mathlib.Logic.Relation
import CorpoPay.Transaction.Program

/-!
# Jobs run side by side

The isolation level is READ COMMITTED. A statement of a transaction sees the rows committed when the statement
starts, with the transaction's own writes on top of them: the pending writes are a function on the store, and
a statement applies it to the committed store of the moment. A commit applies the pending writes to the
committed store. A lock is held from the statement that takes it to the end of the transaction; the statement
waits while another job holds the lock. Every transaction may also be ended by the database.
-/

namespace CorpoPay.Transaction

/-- Where a job is: between two transactions, or inside one with its pending writes. -/
inductive Phase (I : Interface) (α : Type) : Type 1
  | between (job : Job I α)
  | inside {β : Type} (pending : I.Store → I.Store) (body : Tx I β) (k : Except I.Err β → Job I α)

/-- A job in progress and the number of steps it has taken. -/
structure Thread (I : Interface) (α : Type) : Type 1 where
  pc : Nat
  phase : Phase I α

/-- What all jobs share: the committed rows and the outside world. -/
structure Shared (I : Interface) where
  store : I.Store
  world : I.World

structure Pool (I : Interface) (ι α : Type) : Type 1 where
  shared : Shared I
  owner : I.Lock → Option ι
  threads : ι → Thread I α

variable {I : Interface} {ι α : Type} [DecidableEq ι]

def Phase.Finished : Phase I α → Prop
  | .between (.ret _) => True
  | .between (.throw _) => True
  | _ => False

instance : DecidablePred (Phase.Finished (I := I) (α := α))
  | .between (.ret _) => .isTrue trivial
  | .between (.throw _) => .isTrue trivial
  | .between (.txn _ _) => .isFalse not_false
  | .between (.ask _ _) => .isFalse not_false
  | .inside _ _ _ => .isFalse not_false

/-- The job has ended in an error. -/
def Phase.Failed : Phase I α → Prop
  | .between (.throw _) => True
  | _ => False

instance (ph : Phase I α) : Decidable ph.Failed :=
  match ph with
  | .between (.throw _) => .isTrue trivial
  | .between (.ret _) => .isFalse id
  | .between (.txn _ _) => .isFalse id
  | .between (.ask _ _) => .isFalse id
  | .inside _ _ _ => .isFalse id

/-- What the job has returned. -/
def Phase.result : Phase I α → Option α
  | .between (.ret a) => some a
  | _ => none

theorem Phase.eq_ret_of_result {ph : Phase I α} {a : α} (h : ph.result = some a) : ph = .between (.ret a) := by
  unfold Phase.result at h
  split at h
  · cases h; rfl
  · cases h

namespace Pool

variable [DecidableEq I.Lock]

/-- The pool before any of the jobs has started. -/
def init (jobs : ι → Job I α) (s : I.Store) (w : I.World) : Pool I ι α where
  shared := ⟨s, w⟩
  owner := fun _ => none
  threads := fun i => ⟨0, .between (jobs i)⟩

/-- Thread `i` moves on to phase `ph`. -/
def advance (p : Pool I ι α) (i : ι) (ph : Phase I α) : Pool I ι α :=
  { p with threads := Function.update p.threads i ⟨(p.threads i).pc + 1, ph⟩ }

/-- The transaction of thread `i` ends and its locks are released. -/
def release (p : Pool I ι α) (i : ι) : Pool I ι α :=
  { p with owner := fun l => if p.owner l = some i then none else p.owner l }

def setWorld (p : Pool I ι α) (w : I.World) : Pool I ι α := { p with shared := { p.shared with world := w } }

def setStore (p : Pool I ι α) (s : I.Store) : Pool I ι α := { p with shared := { p.shared with store := s } }

/-- The next step of thread `i`, if it has one and does not wait for a lock. -/
def step (p : Pool I ι α) (i : ι) : Option (Pool I ι α) :=
  match (p.threads i).phase with
  | .between (.ret _) => none
  | .between (.throw _) => none
  | .between (.txn body k) => some (p.advance i (.inside id body k))
  | .between (.ask q k) =>
      let r := I.reply p.shared.world q
      some ((p.setWorld r.2).advance i (.between (k r.1)))
  | .inside pending (.ret b) k =>
      some (((p.setStore (pending p.shared.store)).release i).advance i (.between (k (.ok b))))
  | .inside _ (.throw e) k => some ((p.release i).advance i (.between (k (.error e))))
  | .inside pending (.read f) k => some (p.advance i (.inside pending (f (pending p.shared.store)) k))
  | .inside pending (.write f body) k => some (p.advance i (.inside (f ∘ pending) body k))
  | .inside pending (.lock l body) k =>
      if p.owner l = none ∨ p.owner l = some i then
        some ({ p with owner := Function.update p.owner l (some i) }.advance i (.inside pending body k))
      else none
  | .inside pending (.ask q f) k =>
      let r := I.reply p.shared.world q
      some ((p.setWorld r.2).advance i (.inside pending (f r.1) k))

/-- The database ends the open transaction of thread `i`. -/
def abort (p : Pool I ι α) (i : ι) : Option (Pool I ι α) :=
  match (p.threads i).phase with
  | .between _ => none
  | .inside _ _ k => some ((p.release i).advance i (.between (k (.error I.aborted))))

/-- One step of the pool, by thread `i`. -/
def Step (p : Pool I ι α) (i : ι) (p' : Pool I ι α) : Prop := p.step i = some p' ∨ p.abort i = some p'

/-- A step that meets a condition on the state it starts from. -/
def StepIf (cond : Pool I ι α → ι → Pool I ι α → Prop) (p p' : Pool I ι α) : Prop :=
  ∃ i, p.Step i p' ∧ cond p i p'

/-- The pools that the runs from `p₀` reach, when every step of the run meets `cond`. -/
def ReachableIf (cond : Pool I ι α → ι → Pool I ι α → Prop) (p₀ p : Pool I ι α) : Prop :=
  Relation.ReflTransGen (StepIf cond) p₀ p

/-- The pools that the runs from `p₀` reach. -/
def Reachable (p₀ p : Pool I ι α) : Prop := ReachableIf (fun _ _ _ => True) p₀ p

/-- The run in which the threads named by the list take one step each, in order, as long as every step passes. -/
def runSchedule (check : Pool I ι α → ι → Pool I ι α → Bool) (p : Pool I ι α) : List ι → Option (Pool I ι α)
  | [] => some p
  | i :: is =>
      match p.step i with
      | some p' => if check p i p' then p'.runSchedule check is else none
      | none => none

variable {cond : Pool I ι α → ι → Pool I ι α → Prop}

theorem ReachableIf.of_runSchedule {check : Pool I ι α → ι → Pool I ι α → Bool}
    (hcheck : ∀ p i p', p.step i = some p' → check p i p' = true → cond p i p') {p₀ p : Pool I ι α} (is : List ι)
    (h : p₀.runSchedule check is = some p) : ReachableIf cond p₀ p := by
  induction is generalizing p₀ with
  | nil => cases h; exact .refl
  | cons i is ih =>
      simp only [runSchedule] at h
      split at h
      · rename_i p' hp'
        split at h
        · rename_i hpass
          exact .head ⟨i, .inl hp', hcheck _ _ _ hp' hpass⟩ (ih h)
        · cases h
      · cases h

/-- What a schedule ends with is reached. -/
theorem ReachableIf.exists_of_check (p₀ : Pool I ι α) (is : List ι) (P : Pool I ι α → Bool)
    (check : Pool I ι α → ι → Pool I ι α → Bool)
    (hcheck : ∀ p i p', p.step i = some p' → check p i p' = true → cond p i p')
    (h : (p₀.runSchedule check is).any P = true) : ∃ p, ReachableIf cond p₀ p ∧ P p = true := by
  obtain ⟨p, hp, hP⟩ := (Option.any_eq_true _ _).mp h
  exact ⟨p, .of_runSchedule hcheck is hp, hP⟩

theorem ReachableIf.exists_of_runSchedule (p₀ : Pool I ι α) (is : List ι) (P : Pool I ι α → Bool)
    (hcond : ∀ p i p', cond p i p') (h : (p₀.runSchedule (fun _ _ _ => true) is).any P = true) :
    ∃ p, ReachableIf cond p₀ p ∧ P p = true :=
  exists_of_check p₀ is P _ (fun p i p' _ _ => hcond p i p') h

end Pool

end CorpoPay.Transaction
