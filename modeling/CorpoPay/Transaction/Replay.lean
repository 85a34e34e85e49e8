import Mathlib.Algebra.BigOperators.Group.Finset.Piecewise
import Mathlib.Data.Fintype.Basic
import Mathlib.Logic.Relation

/-!
# Durable functions

A durable function runs from its start again after every step. The results of its steps are recorded, under the name of the
step and in their order, so an invocation comes through the recorded steps to the first one that is not. A reading of the
clock is not recorded: every invocation reads it anew.
-/

namespace CorpoPay.Transaction

/-- What a durable function does at a point of its body. -/
inductive Deed (S : Type) (R : S → Type) (P : Type)
  | done
  | now (next : Nat → P)
  | step (s : S) (next : R s → P)

structure Durable (S : Type) (R : S → Type) (P : Type) where
  start : P
  deed : P → Deed S R P
  /-- The time that a step takes at least. -/
  lasts : S → Nat

namespace Durable

variable {S : Type} {R : S → Type} {P : Type}

/-- The point an invocation is at, and how often it came through each step. -/
structure Invocation (S P : Type) where
  point : P
  seen : S → Nat

structure State (S : Type) (R : S → Type) (P : Type) where
  clock : Nat
  results : (s : S) → List (R s)
  /-- The steps in the order they were executed, with the times when they began. -/
  history : List (S × Nat)
  running : Option (Invocation S P)

variable [DecidableEq S]

/-- The times when a step began, each time it was executed. -/
def State.began (σ : State S R P) (s : S) : List Nat := (σ.history.filter (·.1 = s)).map (·.2)

variable (d : Durable S R P)

/-- An invocation that has just begun. -/
def fresh : Invocation S P := { point := d.start, seen := fun _ => 0 }

/-- The first invocation of a run. -/
def first (clock : Nat) : State S R P := { clock, results := fun _ => [], history := [], running := some d.fresh }

inductive Step : State S R P → State S R P → Prop
  | invoke {σ : State S R P} {t : Nat} (hidle : σ.running = none) (hclock : σ.clock ≤ t) :
      Step σ { σ with clock := t, running := some d.fresh }
  | now {σ : State S R P} {i : Invocation S P} {next : Nat → P} {t : Nat} (hrunning : σ.running = some i)
      (hdeed : d.deed i.point = .now next) (hclock : σ.clock ≤ t) :
      Step σ { σ with clock := t, running := some { i with point := next t } }
  | replay {σ : State S R P} {i : Invocation S P} {s : S} {next : R s → P} {a : R s} (hrunning : σ.running = some i)
      (hdeed : d.deed i.point = .step s next) (hresult : (σ.results s)[i.seen s]? = some a) :
      Step σ { σ with running := some { point := next a, seen := Function.update i.seen s (i.seen s + 1) } }
  /-- The invocation ends with the step. -/
  | execute {σ : State S R P} {i : Invocation S P} {s : S} {next : R s → P} (a : R s) {t : Nat}
      (hrunning : σ.running = some i) (hdeed : d.deed i.point = .step s next)
      (hresult : (σ.results s)[i.seen s]? = none) (hclock : σ.clock + d.lasts s ≤ t) :
      Step σ
        { clock := t, results := Function.update σ.results s (σ.results s ++ [a]), history := σ.history ++ [(s, σ.clock)]
          running := none }

/-- A run whose steps meet a condition. -/
def Runs (ok : State S R P → State S R P → Prop) : State S R P → State S R P → Prop :=
  Relation.ReflTransGen fun σ σ' => d.Step σ σ' ∧ ok σ σ'

/-! ## Runs that can be computed -/

/-- The next step, with the time when it is over and the results of the steps that are executed. -/
def next (a : (s : S) → R s) (σ : State S R P) (t : Nat) : Option (State S R P) :=
  match σ.running with
  | none => if σ.clock ≤ t then some { σ with clock := t, running := some d.fresh } else none
  | some i =>
      match d.deed i.point with
      | .done => none
      | .now next => if σ.clock ≤ t then some { σ with clock := t, running := some { i with point := next t } } else none
      | .step s next =>
          match (σ.results s)[i.seen s]? with
          | some b =>
              some { σ with running := some { point := next b, seen := Function.update i.seen s (i.seen s + 1) } }
          | none =>
              if σ.clock + d.lasts s ≤ t then
                some
                  { clock := t, results := Function.update σ.results s (σ.results s ++ [a s])
                    history := σ.history ++ [(s, σ.clock)], running := none }
              else none

/-- The run whose steps are over at the times of a list, as long as every step passes. -/
def play (check : State S R P → State S R P → Bool) (a : (s : S) → R s) (σ : State S R P) :
    List Nat → Option (State S R P)
  | [] => some σ
  | t :: ts => (d.next a σ t).bind fun σ' => if check σ σ' then play check a σ' ts else none

variable {d} in
theorem Step.of_next {a : (s : S) → R s} {σ σ' : State S R P} {t : Nat} (h : d.next a σ t = some σ') : d.Step σ σ' := by
  unfold next at h
  split at h
  · rename_i hidle
    obtain ⟨hclock, ⟨⟩⟩ := Option.ite_none_right_eq_some.mp h
    exact .invoke hidle hclock
  · rename_i i hrunning
    split at h
    · cases h
    · rename_i next hdeed
      obtain ⟨hclock, ⟨⟩⟩ := Option.ite_none_right_eq_some.mp h
      exact .now hrunning hdeed hclock
    · rename_i s next hdeed
      split at h
      · rename_i b hresult
        cases h
        exact .replay hrunning hdeed hresult
      · rename_i hresult
        obtain ⟨hclock, ⟨⟩⟩ := Option.ite_none_right_eq_some.mp h
        exact .execute (a s) hrunning hdeed hresult hclock

theorem Runs.exists_of_play {ok : State S R P → State S R P → Prop} (check : State S R P → State S R P → Bool)
    (a : (s : S) → R s) (σ : State S R P) (ts : List Nat) (Q : State S R P → Bool) (hok : ∀ σ σ', check σ σ' = true → ok σ σ')
    (h : (d.play check a σ ts).any Q = true) : ∃ σ', d.Runs ok σ σ' ∧ Q σ' = true := by
  induction ts generalizing σ with
  | nil => exact ⟨σ, .refl, h⟩
  | cons t ts ih =>
    obtain ⟨σ₂, hplay, hQ⟩ := (Option.any_eq_true _ _).mp h
    obtain ⟨σ₁, hnext, hrest⟩ := Option.bind_eq_some_iff.mp hplay
    split_ifs at hrest with hcheck
    obtain ⟨σ', hruns, hσ'⟩ := ih σ₁ ((Option.any_eq_true _ _).mpr ⟨σ₂, hrest, hQ⟩)
    exact ⟨σ', .head ⟨.of_next hnext, hok _ _ hcheck⟩ hruns, hσ'⟩

/-! ## What is recorded -/

/-- The history of a run from a time on: its steps follow one another, each with a result. -/
structure Recorded (t₀ : Nat) (σ : State S R P) : Prop where
  clock : t₀ ≤ σ.clock
  length : ∀ s, (σ.began s).length = (σ.results s).length
  started : ∀ e ∈ σ.history, t₀ ≤ e.2
  ended : ∀ e ∈ σ.history, e.2 + d.lasts e.1 ≤ σ.clock
  spaced : σ.history.Pairwise fun e e' => e.2 + d.lasts e.1 ≤ e'.2
  seen : ∀ i, σ.running = some i → ∀ s, i.seen s ≤ (σ.results s).length

variable {d} {σ σ' : State S R P} {t₀ : Nat}

theorem recorded_first : d.Recorded t₀ (d.first t₀) where
  clock := Nat.le_refl t₀
  length _ := rfl
  started _ he := (List.not_mem_nil he).elim
  ended _ he := (List.not_mem_nil he).elim
  spaced := .nil
  seen i hi s := by
    obtain rfl := Option.some.inj hi
    exact Nat.zero_le _

theorem Recorded.later (h : d.Recorded t₀ σ) {t : Nat} (ht : σ.clock ≤ t) {i : Invocation S P}
    (hseen : ∀ s, i.seen s ≤ (σ.results s).length) : d.Recorded t₀ { σ with clock := t, running := some i } where
  clock := Nat.le_trans h.clock ht
  length := h.length
  started := h.started
  ended e he := Nat.le_trans (h.ended e he) ht
  spaced := h.spaced
  seen _ hi := by
    obtain rfl := Option.some.inj hi
    exact hseen

theorem began_append (σ : State S R P) (s s' : S) (b t : Nat) (results : (s : S) → List (R s))
    (running : Option (Invocation S P)) :
    State.began { clock := t, results, history := σ.history ++ [(s, b)], running } s' =
      σ.began s' ++ if s = s' then [b] else [] := by
  rw [State.began, State.began, List.filter_append, List.map_append]
  by_cases hs : s = s' <;> simp [hs]

theorem Recorded.execute (h : d.Recorded t₀ σ) (s : S) (a : R s) {t : Nat} (ht : σ.clock + d.lasts s ≤ t) :
    d.Recorded t₀ { clock := t, results := Function.update σ.results s (σ.results s ++ [a])
                    history := σ.history ++ [(s, σ.clock)], running := none } where
  clock := Nat.le_trans h.clock (Nat.le_of_add_right_le ht)
  length s' := by
    rw [began_append, List.length_append, h.length s']
    by_cases hs : s = s'
    · subst hs
      simp
    · simp [hs, Function.update_of_ne (Ne.symm hs)]
  started e he := by
    rcases List.mem_append.mp he with he | he
    · exact h.started e he
    · rw [List.mem_singleton.mp he]
      exact h.clock
  ended e he := by
    rcases List.mem_append.mp he with he | he
    · exact Nat.le_trans (h.ended e he) (Nat.le_of_add_right_le ht)
    · rw [List.mem_singleton.mp he]
      exact ht
  spaced := by
    refine List.pairwise_append.mpr ⟨h.spaced, List.pairwise_singleton _ _, fun e he e' he' => ?_⟩
    rw [List.mem_singleton.mp he']
    exact h.ended e he
  seen _ hi := by cases hi

theorem Step.recorded (h : d.Step σ σ') (hσ : d.Recorded t₀ σ) : d.Recorded t₀ σ' := by
  cases h with
  | invoke hidle hclock => exact hσ.later hclock fun _ => Nat.zero_le _
  | @now i next t hrunning hdeed hclock => exact hσ.later hclock (hσ.seen i hrunning)
  | @replay i s _ _ hrunning hdeed hresult =>
    refine hσ.later (Nat.le_refl _) fun s' => ?_
    obtain ⟨hlt, -⟩ := List.getElem?_eq_some_iff.mp hresult
    by_cases hs : s' = s
    · subst hs
      exact (Function.update_self s' (i.seen s' + 1) i.seen).trans_le hlt
    · simpa [hs] using hσ.seen _ hrunning s'
  | execute a hrunning hdeed hresult hclock => exact hσ.execute _ a hclock

theorem Runs.weaken {ok ok' : State S R P → State S R P → Prop} (h : d.Runs ok σ σ')
    (hok : ∀ σ σ', ok σ σ' → ok' σ σ') : d.Runs ok' σ σ' := by
  induction h with
  | refl => exact .refl
  | tail _ hstep ih => exact ih.tail ⟨hstep.1, hok _ _ hstep.2⟩

/-- A step is executed again only when the time that it takes is over. -/
theorem Recorded.le_began (h : d.Recorded t₀ σ) {s : S} {n b : Nat} (hb : (σ.began s)[n]? = some b) :
    t₀ + d.lasts s * n ≤ b := by
  have hspaced : (σ.began s).Pairwise fun b b' => b + d.lasts s ≤ b' := by
    refine List.pairwise_map.mpr (List.Pairwise.imp_of_mem ?_ (h.spaced.filter _))
    intro e e' he _ hle
    rwa [of_decide_eq_true (List.mem_filter.mp he).2] at hle
  have hstarted : ∀ b ∈ σ.began s, t₀ ≤ b := by
    intro b hb
    obtain ⟨e, he, rfl⟩ := List.mem_map.mp hb
    exact h.started e (List.mem_filter.mp he).1
  induction n generalizing b with
  | zero => exact hstarted b (List.mem_of_getElem? hb)
  | succ n ih =>
    obtain ⟨hlt, rfl⟩ := List.getElem?_eq_some_iff.mp hb
    have hstep := List.pairwise_iff_getElem.mp hspaced n (n + 1) (Nat.lt_of_succ_lt hlt) hlt (Nat.lt_succ_self n)
    have hprev := ih (List.getElem?_eq_getElem (Nat.lt_of_succ_lt hlt))
    rw [Nat.mul_succ]
    omega

/-- Every executed step has a result. -/
theorem Runs.length_history [Fintype S] {ok : State S R P → State S R P → Prop} (h : d.Runs ok (d.first t₀) σ) :
    σ.history.length = ∑ s, (σ.results s).length := by
  induction h with
  | refl => simp [first]
  | @tail σ σ' _ hstep ih =>
    cases hstep.1 with
    | invoke hidle hclock => exact ih
    | now hrunning hdeed hclock => exact ih
    | replay hrunning hdeed hresult => exact ih
    | @execute i s next a t hrunning hdeed hresult hclock =>
      have hupdate : (fun s' => (Function.update σ.results s (σ.results s ++ [a]) s').length) =
          fun s' => (σ.results s').length + if s' = s then 1 else 0 := by
        funext s'
        by_cases hs : s' = s
        · subst hs
          simp
        · simp [hs]
      simp only [hupdate, Finset.sum_add_distrib, Finset.sum_ite_eq', Finset.mem_univ, if_true, List.length_append,
        List.length_singleton, ih]

end Durable

end CorpoPay.Transaction
