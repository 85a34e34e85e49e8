import Mathlib.Data.Set.Insert

/-!
# Programs over a shared store

A database client is written as a program. A `Tx` is the body of one transaction: statements that read the
store, statements that write it, locks that are held until the transaction ends, and questions to the outside
world (a fresh identifier, the clock, a provider). A `Job` is what one request or one background job does: a
sequence of transactions and of outside calls. A single statement outside a transaction is a transaction of
one statement.

`Tx.run` and `Job.run` execute a program alone. The interleaved execution of many jobs is in `Pool.lean`.
-/

namespace CorpoPay.Transaction

/-- What a program talks to: the tables, the names of the locks, the outside world and the errors. -/
structure Interface where
  Store : Type
  Lock : Type
  World : Type
  Query : Type
  Answer : Query → Type
  reply : World → (q : Query) → Answer q × World
  Err : Type
  /-- The error of a transaction that the database ended on its own (a deadlock, a time-out, a lost connection). -/
  aborted : Err

/-- The body of a transaction. -/
inductive Tx (I : Interface) (α : Type) : Type
  | ret (a : α)
  | throw (e : I.Err)
  | read (k : I.Store → Tx I α)
  | write (f : I.Store → I.Store) (k : Tx I α)
  | lock (l : I.Lock) (k : Tx I α)
  | ask (q : I.Query) (k : I.Answer q → Tx I α)

/-- A job: transactions and outside calls in sequence. The continuation of a transaction receives its error. -/
inductive Job (I : Interface) (α : Type) : Type 1
  | ret (a : α)
  | throw (e : I.Err)
  | txn {β : Type} (body : Tx I β) (k : Except I.Err β → Job I α)
  | ask (q : I.Query) (k : I.Answer q → Job I α)

variable {I : Interface} {α β : Type}

/-! ## Transactions as a monad -/

namespace Tx

def bind : Tx I α → (α → Tx I β) → Tx I β
  | .ret a, f => f a
  | .throw e, _ => .throw e
  | .read k, f => .read fun s => (k s).bind f
  | .write g k, f => .write g (k.bind f)
  | .lock l k, f => .lock l (k.bind f)
  | .ask q k, f => .ask q fun a => (k a).bind f

instance : Monad (Tx I) where
  pure := .ret
  bind := bind

/-- A statement that reads: the result of `f` on the rows the transaction sees. -/
def get (f : I.Store → α) : Tx I α := .read fun s => .ret (f s)

/-- A statement that writes. -/
def modify (f : I.Store → I.Store) : Tx I Unit := .write f (.ret ())

def acquire (l : I.Lock) : Tx I Unit := .lock l (.ret ())

def query (q : I.Query) : Tx I (I.Answer q) := .ask q .ret

/-- `t` when `c` holds, else nothing. -/
def when (c : Prop) [Decidable c] (t : Tx I Unit) : Tx I Unit := if c then t else .ret ()

/-- A pure function that throws, called inside a transaction. -/
def lift : Except I.Err α → Tx I α
  | .ok a => .ret a
  | .error e => .throw e

/-- `f` on every element, in order. -/
def forEach (f : α → Tx I Unit) : List α → Tx I Unit
  | [] => .ret ()
  | a :: as => (f a).bind fun _ => forEach f as

/-- The results of `f` on every element, in order. -/
def collect (f : α → Tx I β) : List α → Tx I (List β)
  | [] => .ret []
  | a :: as => (f a).bind fun b => (collect f as).bind fun bs => .ret (b :: bs)

@[simp] theorem pure_eq (a : α) : (pure a : Tx I α) = .ret a := rfl

@[simp] theorem bind_eq (t : Tx I α) (f : α → Tx I β) : (t >>= f) = t.bind f := rfl

@[simp] theorem ret_bind (a : α) (f : α → Tx I β) : (ret a : Tx I α).bind f = f a := rfl

@[simp] theorem throw_bind (e : I.Err) (f : α → Tx I β) : (throw e : Tx I α).bind f = throw e := rfl

theorem bind_assoc {γ : Type} (t : Tx I α) (f : α → Tx I β) (g : β → Tx I γ) :
    (t.bind f).bind g = t.bind fun a => (f a).bind g := by
  induction t with
  | ret a => rfl
  | throw e => rfl
  | read k ih => exact congrArg Tx.read (funext fun s => ih s)
  | write f' k ih => exact congrArg (Tx.write f') ih
  | lock l k ih => exact congrArg (Tx.lock l) ih
  | ask q k ih => exact congrArg (Tx.ask q) (funext fun a => ih a)

/-! ## A transaction on its own -/

/-- The result of a transaction that nothing interferes with. A transaction that throws leaves no store: the
caller keeps the one it had. -/
def run : Tx I α → I.Store → I.World → Except I.Err (α × I.Store) × I.World
  | .ret a, s, w => (.ok (a, s), w)
  | .throw e, _, w => (.error e, w)
  | .read k, s, w => (k s).run s w
  | .write f k, s, w => k.run (f s) w
  | .lock _ k, s, w => k.run s w
  | .ask q k, s, w => (k (I.reply w q).1).run s (I.reply w q).2

theorem run_bind (t : Tx I α) (f : α → Tx I β) (s : I.Store) (w : I.World) :
    (t.bind f).run s w =
      match t.run s w with
      | (.ok (a, s'), w') => (f a).run s' w'
      | (.error e, w') => (.error e, w') := by
  induction t generalizing s w with
  | ret a => rfl
  | throw e => rfl
  | read k ih => exact ih s s w
  | write g k ih => exact ih (g s) w
  | lock l k ih => exact ih s w
  | ask q k ih => exact ih _ s _

/-- What succeeds in sequence succeeds in parts. -/
theorem run_bind_eq_ok {t : Tx I α} {f : α → Tx I β} {s s' : I.Store} {w w' : I.World} {b : β}
    (h : (t.bind f).run s w = (.ok (b, s'), w')) :
    ∃ a s₁ w₁, t.run s w = (.ok (a, s₁), w₁) ∧ (f a).run s₁ w₁ = (.ok (b, s'), w') := by
  rw [run_bind] at h
  split at h
  · rename_i a s₁ w₁ ht
    exact ⟨a, s₁, w₁, ht, h⟩
  · cases h

theorem run_lift_eq_ok {r : Except I.Err α} {s s' : I.Store} {w w' : I.World} {a : α}
    (h : (lift r).run s w = (.ok (a, s'), w')) : r = .ok a ∧ s' = s ∧ w' = w := by
  cases r with
  | ok b => cases h; exact ⟨rfl, rfl, rfl⟩
  | error e => cases h

end Tx

/-! ## Jobs as a monad -/

namespace Job

def bind : Job I α → (α → Job I β) → Job I β
  | .ret a, f => f a
  | .throw e, _ => .throw e
  | .txn body k, f => .txn body fun r => (k r).bind f
  | .ask q k, f => .ask q fun a => (k a).bind f

instance : Monad (Job I) where
  pure := .ret
  bind := bind

@[simp] theorem pure_eq (a : α) : (pure a : Job I α) = .ret a := rfl

@[simp] theorem bind_eq (j : Job I α) (f : α → Job I β) : (j >>= f) = j.bind f := rfl

theorem bind_assoc {γ : Type} (j : Job I α) (f : α → Job I β) (g : β → Job I γ) :
    (j.bind f).bind g = j.bind fun a => (f a).bind g := by
  induction j with
  | ret a => rfl
  | throw e => rfl
  | txn body k ih => exact congrArg (Job.txn body) (funext fun r => ih r)
  | ask q k ih => exact congrArg (Job.ask q) (funext fun a => ih a)

/-- A result or the error of a transaction, as the rest of the job sees it. -/
def ofExcept : Except I.Err α → Job I α
  | .ok a => .ret a
  | .error e => .throw e

/-- Run `body` in one transaction and propagate its error. -/
def transaction (body : Tx I α) : Job I α := .txn body ofExcept

/-- Rethrow an error `e` of the job as `f e`. -/
def mapError (f : I.Err → I.Err) : Job I α → Job I α
  | .ret a => .ret a
  | .throw e => .throw (f e)
  | .txn body k => .txn body fun r => (k r).mapError f
  | .ask q k => .ask q fun a => (k a).mapError f

/-- An error `e` of the job continues as `f e`. -/
def orElse (f : I.Err → Job I α) : Job I α → Job I α
  | .ret a => .ret a
  | .throw e => f e
  | .txn body k => .txn body fun r => (k r).orElse f
  | .ask q k => .ask q fun a => (k a).orElse f

theorem orElse_throw (j : Job I α) : j.orElse .throw = j := by
  induction j with
  | ret a => rfl
  | throw e => rfl
  | txn body k ih => exact congrArg (txn body) (funext ih)
  | ask q k ih => exact congrArg (ask q) (funext ih)

/-- The job again after an error, up to `n` times. -/
def retry (j : Job I α) : Nat → Job I α
  | 0 => j
  | n + 1 => j.orElse fun _ => j.retry n

theorem bind_eq_ret {j : Job I α} {f : α → Job I β} {b : β} (h : j.bind f = .ret b) : ∃ a, j = .ret a ∧ f a = .ret b := by
  cases j with
  | ret a => exact ⟨a, rfl, h⟩
  | throw e => cases h
  | txn body k => cases h
  | ask q k => cases h

theorem retry_eq_ret {j : Job I α} {n : Nat} {a : α} (h : j.retry n = .ret a) : j = .ret a := by
  induction n with
  | zero => exact h
  | succ n ih =>
      cases j with
      | ret a => exact h
      | throw e => exact ih h
      | txn body k => cases h
      | ask q k => cases h

/-- One statement outside a transaction. -/
def get (f : I.Store → α) : Job I α := transaction (Tx.get f)

def query (q : I.Query) : Job I (I.Answer q) := .ask q .ret

/-- The result of a job that nothing interferes with. A transaction that throws changes nothing. -/
def run : Job I α → I.Store → I.World → Except I.Err α × I.Store × I.World
  | .ret a, s, w => (.ok a, s, w)
  | .throw e, s, w => (.error e, s, w)
  | .txn body k, s, w =>
      match body.run s w with
      | (.ok (b, s'), w') => (k (.ok b)).run s' w'
      | (.error e, w') => (k (.error e)).run s w'
  | .ask q k, s, w => (k (I.reply w q).1).run s (I.reply w q).2

theorem run_bind (j : Job I α) (f : α → Job I β) (s : I.Store) (w : I.World) :
    (j.bind f).run s w =
      match j.run s w with
      | (.ok a, s', w') => (f a).run s' w'
      | (.error e, s', w') => (.error e, s', w') := by
  induction j generalizing s w with
  | ret a => rfl
  | throw e => rfl
  | txn body k ih =>
      simp only [bind, run]
      rcases body.run s w with ⟨_ | ⟨b, s'⟩, w'⟩
      · exact ih _ _ _
      · exact ih _ _ _
  | ask q k ih => exact ih _ s _

theorem run_transaction (body : Tx I α) (s : I.Store) (w : I.World) :
    (transaction body).run s w =
      match body.run s w with
      | (.ok (a, s'), w') => (.ok a, s', w')
      | (.error e, w') => (.error e, s, w') := by
  simp only [transaction, run]
  rcases body.run s w with ⟨_ | ⟨a, s'⟩, w'⟩ <;> rfl

theorem run_ofExcept_bind (r : Except I.Err α) (f : α → Job I β) (s : I.Store) (w : I.World) :
    ((ofExcept r).bind f).run s w =
      match r with
      | .ok a => (f a).run s w
      | .error e => (.error e, s, w) := by
  cases r <;> rfl

theorem run_mapError (f : I.Err → I.Err) (j : Job I α) (s : I.Store) (w : I.World) :
    (j.mapError f).run s w = ((j.run s w).1.mapError f, (j.run s w).2) := by
  induction j generalizing s w with
  | ret a => rfl
  | throw e => rfl
  | txn body k ih =>
      simp only [mapError, run]
      rcases body.run s w with ⟨_ | ⟨b, s'⟩, w'⟩
      · exact ih _ _ _
      · exact ih _ _ _
  | ask q k ih => exact ih _ s _

theorem run_bind_ok {j : Job I α} {f : α → Job I β} {s s' : I.Store} {w w' : I.World} {a : α}
    (h : j.run s w = (.ok a, s', w')) : (j.bind f).run s w = (f a).run s' w' := by
  rw [run_bind, h]

/-- What succeeds in sequence succeeds in parts. -/
theorem run_bind_eq_ok {j : Job I α} {f : α → Job I β} {s s' : I.Store} {w w' : I.World} {b : β}
    (h : (j.bind f).run s w = (.ok b, s', w')) :
    ∃ a s₁ w₁, j.run s w = (.ok a, s₁, w₁) ∧ (f a).run s₁ w₁ = (.ok b, s', w') := by
  rw [run_bind] at h
  rcases hj : j.run s w with ⟨_ | a, s₁, w₁⟩
  · rw [hj] at h
    cases h
  · rw [hj] at h
    exact ⟨a, s₁, w₁, rfl, h⟩

theorem run_ofExcept_eq_ok {r : Except I.Err α} {s s' : I.Store} {w w' : I.World} {a : α}
    (h : (ofExcept r).run s w = (.ok a, s', w')) : r = .ok a ∧ s' = s ∧ w' = w := by
  cases r with
  | ok b => cases h; exact ⟨rfl, rfl, rfl⟩
  | error e => cases h

theorem run_orElse (f : I.Err → Job I α) (j : Job I α) (s : I.Store) (w : I.World) :
    (j.orElse f).run s w =
      match j.run s w with
      | (.ok a, s', w') => (.ok a, s', w')
      | (.error e, s', w') => (f e).run s' w' := by
  induction j generalizing s w with
  | ret a => rfl
  | throw e => rfl
  | txn body k ih =>
      simp only [orElse, run]
      rcases body.run s w with ⟨_ | ⟨b, s'⟩, w'⟩
      · exact ih _ _ _
      · exact ih _ _ _
  | ask q k ih => exact ih _ s _

theorem run_retry_ok {j : Job I α} {s s' : I.Store} {w w' : I.World} {a : α} (h : j.run s w = (.ok a, s', w')) (n : Nat) :
    (j.retry n).run s w = (.ok a, s', w') := by
  cases n with
  | zero => exact h
  | succ n => rw [retry, run_orElse, h]

/-- When a failed attempt leaves the store as it was, some attempt alone does what all of them do. -/
theorem run_retry_of_restores {j : Job I α} {s : I.Store}
    (h : ∀ w e s' w', j.run s w = (.error e, s', w') → s' = s) (n : Nat) (w : I.World) :
    ∃ w₁, (j.retry n).run s w = j.run s w₁ := by
  induction n generalizing w with
  | zero => exact ⟨w, rfl⟩
  | succ n ih =>
      rw [retry, run_orElse]
      rcases hrun : j.run s w with ⟨e | a, s', w'⟩
      · obtain rfl := h w e s' w' hrun
        exact ih w'
      · exact ⟨w, hrun.symm⟩

@[simp] theorem run_get (f : I.Store → α) (s : I.Store) (w : I.World) :
    (get f).run s w = (.ok (f s), s, w) := rfl

end Job

/-! ## The words of a client -/

abbrev select (f : I.Store → α) : Tx I α := .get f

abbrev change (f : I.Store → I.Store) : Tx I Unit := .modify f

abbrev transaction (body : Tx I α) : Job I α := .transaction body

/-- One statement outside a transaction. -/
abbrev selectOnce (f : I.Store → α) : Job I α := .get f

namespace Interface

variable (I)

/-- Inside a transaction. -/
abbrev lock (l : I.Lock) : Tx I Unit := .acquire l

abbrev fail (e : I.Err) : Tx I α := .throw e

/-- Outside. -/
abbrev ask (q : I.Query) : Job I (I.Answer q) := .query q

abbrev throw (e : I.Err) : Job I α := .throw e

end Interface

end CorpoPay.Transaction
