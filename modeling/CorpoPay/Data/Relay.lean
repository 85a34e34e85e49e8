import Mathlib.Data.List.Range
import Mathlib.Logic.Function.Basic

/-!
# A relay

Numbered tasks are done one after the other. Whoever takes a task from the queue does it, counts it, and queues the next one.
The first task is done from outside, by whoever finds that none is counted. A turn may be given up, and then the relay ends.
-/

namespace CorpoPay.Data

variable {ι D K : Type}

/-- What a member of the relay holds. -/
inductive Turn
  | idle
  | due (number : Nat)
  | done (number : Nat)
  | counted (number : Nat)
  deriving DecidableEq, Repr

namespace Relay

/-- The tasks that are counted, those that were done after the first one, and the ones that wait. -/
structure View (D K : Type) where
  count : Nat
  log : List K
  queue : List D

section Moves

variable (number : D → Nat) (key : Nat → K) (fits : D → Prop) (total : Nat)

inductive Moves : Turn → View D K → Turn → View D K → Prop
  | stay (g v) : Moves g v g v
  | drop (g v) : Moves g v .idle v
  | start {v} : v.count = 0 → Moves .idle v (.counted 1) { v with count := 1 }
  | take {v d} [DecidableEq D] : d ∈ v.queue → Moves .idle v (.due (number d)) { v with queue := v.queue.erase d }
  | perform (n v) : Moves (.due n) v (.done n) { v with log := v.log ++ [key n] }
  | count (n v) : Moves (.done n) v (.counted n) { v with count := n }
  | pass {n v d} : number d = n + 1 → n + 1 ≤ total → fits d → Moves (.counted n) v .idle { v with queue := v.queue ++ [d] }

/-- Who has the turn, when `k` tasks were done after the first one. -/
inductive Holder (k : Nat) (γ : ι → Turn) (v : View D K) : Prop
  | nobody : v.queue = [] → (∀ i, γ i = .idle) → Holder k γ v
  | queue (d : D) : v.queue = [d] → number d = k + 2 → v.count = k + 1 → k + 2 ≤ total → (∀ i, γ i = .idle) → Holder k γ v
  | due (i : ι) : v.queue = [] → γ i = .due (k + 2) → v.count = k + 1 → k + 2 ≤ total → (∀ j, j ≠ i → γ j = .idle) →
      Holder k γ v
  | done (i : ι) : v.queue = [] → γ i = .done (k + 1) → v.count = k → 1 ≤ k → (∀ j, j ≠ i → γ j = .idle) → Holder k γ v
  | counted (i : ι) : v.queue = [] → γ i = .counted (k + 1) → v.count = k + 1 → (∀ j, j ≠ i → γ j = .idle) → Holder k γ v

/-- The tasks were done in order, each of them once, and all but at most the last one are counted. -/
structure Chain (γ : ι → Turn) (v : View D K) : Prop where
  fits : ∀ d ∈ v.queue, fits d
  inOrder : ∃ k, v.log = (List.range' 2 k).map key ∧ k ≤ total - 1 ∧ k ≤ v.count ∧ v.count ≤ k + 1 ∧
    Holder number total k γ v

/-- What a member sees. -/
structure Sees (g : Turn) (v : View D K) : Prop where
  fits : ∀ d ∈ v.queue, fits d
  due : ∀ n, g = .due n → v.count + 1 = n ∧ n ≤ total
  done : ∀ n, g = .done n → v.count + 1 = n ∧ n ≤ total
  counted : ∀ n, g = .counted n → v.count = n

end Moves

variable {number : D → Nat} {key : Nat → K} {fits : D → Prop} {total k : Nat} {γ : ι → Turn} {v v' : View D K} {g : Turn} {i : ι}

/-- Who is not idle holds the turn. -/
theorem Holder.of_ne_idle (h : Holder number total k γ v) (hi : γ i ≠ .idle) :
    v.queue = [] ∧ (∀ j, j ≠ i → γ j = .idle) ∧ (γ i = .due (k + 2) ∧ v.count = k + 1 ∧ k + 2 ≤ total ∨
      γ i = .done (k + 1) ∧ v.count = k ∧ 1 ≤ k ∨ γ i = .counted (k + 1) ∧ v.count = k + 1) := by
  have hself : ∀ {i'}, (∀ j, j ≠ i' → γ j = .idle) → i = i' := fun hothers => by
    by_contra hne
    exact hi (hothers i hne)
  cases h with
  | nobody _ hidle => exact absurd (hidle i) hi
  | queue d _ _ _ _ hidle => exact absurd (hidle i) hi
  | due i' hqueue hturn hcount htotal hothers =>
      obtain rfl := hself hothers
      exact ⟨hqueue, hothers, .inl ⟨hturn, hcount, htotal⟩⟩
  | done i' hqueue hturn hcount hone hothers =>
      obtain rfl := hself hothers
      exact ⟨hqueue, hothers, .inr (.inl ⟨hturn, hcount, hone⟩)⟩
  | counted i' hqueue hturn hcount hothers =>
      obtain rfl := hself hothers
      exact ⟨hqueue, hothers, .inr (.inr ⟨hturn, hcount⟩)⟩

theorem Chain.sees (h : Chain number key fits total γ v) (i : ι) : Sees fits total (γ i) v := by
  obtain ⟨hfits, k, -, hk, -, -, hholder⟩ := h
  have hcases := fun hne => (hholder.of_ne_idle (i := i) hne).2.2
  refine ⟨hfits, fun n hn => ?_, fun n hn => ?_, fun n hn => ?_⟩ <;>
    rcases hcases (by rw [hn]; exact Turn.noConfusion) with ⟨hturn, hcount, htotal⟩ | ⟨hturn, hcount, hone⟩ | ⟨hturn, hcount⟩ <;>
    rw [hturn] at hn <;> cases hn
  · exact ⟨by omega, htotal⟩
  · exact ⟨by omega, by omega⟩
  · exact hcount

variable [DecidableEq ι]

theorem idle_update (hothers : ∀ j, j ≠ i → γ j = .idle) (j : ι) : Function.update γ i .idle j = .idle := by
  by_cases hji : j = i
  · rw [hji, Function.update_self]
  · rw [Function.update_of_ne hji, hothers j hji]

theorem others_update (hothers : ∀ j, j ≠ i → γ j = .idle) (g : Turn) (j : ι) (hji : j ≠ i) : Function.update γ i g j = .idle := by
  rw [Function.update_of_ne hji, hothers j hji]

/-- Every move keeps the chain. -/
theorem Chain.moves {g' : Turn} (h : Chain number key fits total γ v) (hmoves : Moves number key fits total (γ i) v g' v') :
    Chain number key fits total (Function.update γ i g') v' := by
  obtain ⟨hfits, k, hlog, hk, hle, hge, hholder⟩ := h
  generalize hg : γ i = g at hmoves
  cases hmoves with
  | stay =>
      rw [← hg, Function.update_eq_self]
      exact ⟨hfits, k, hlog, hk, hle, hge, hholder⟩
  | drop =>
      refine ⟨hfits, k, hlog, hk, hle, hge, ?_⟩
      by_cases hidle : γ i = .idle
      · rwa [← hidle, Function.update_eq_self]
      · obtain ⟨hqueue, hothers, -⟩ := hholder.of_ne_idle hidle
        exact .nobody hqueue (idle_update hothers)
  | start hzero =>
      have hk0 : k = 0 := by omega
      subst hk0
      cases hholder with
      | nobody hqueue hidle =>
          refine ⟨hfits, 0, hlog, hk, Nat.zero_le _, le_refl _, ?_⟩
          exact .counted i hqueue (Function.update_self ..) rfl (others_update (fun j _ => hidle j) _)
      | queue d _ _ hcount => omega
      | due i' _ _ hcount => omega
      | done i' _ _ _ hone => omega
      | counted i' _ _ hcount => omega
  | @take _ d _ hd =>
      cases hholder with
      | queue d' hqueue hnumber hcount htotal hidle =>
          rw [hqueue, List.mem_singleton] at hd
          subst hd
          have hempty : v.queue.erase d = [] := by rw [hqueue, List.erase_cons_head]
          refine ⟨fun d' hd' => hfits d' (List.mem_of_mem_erase hd'), k, hlog, hk, hle, hge, ?_⟩
          exact .due i hempty (by rw [Function.update_self, hnumber]) hcount htotal (others_update (fun j _ => hidle j) _)
      | nobody hqueue | due i' hqueue | done i' hqueue | counted i' hqueue =>
          rw [hqueue] at hd
          cases hd
  | perform n =>
      obtain ⟨hqueue, hothers, ⟨hturn, hcount, htotal⟩ | ⟨hturn, -⟩ | ⟨hturn, -⟩⟩ :=
        hholder.of_ne_idle (i := i) (by rw [hg]; exact Turn.noConfusion) <;> rw [hg] at hturn <;> cases hturn
      refine ⟨hfits, k + 1, ?_, by omega, hcount.ge, by dsimp only; omega, ?_⟩
      · dsimp only
        rw [hlog, List.range'_concat, List.map_append, Nat.one_mul, Nat.add_comm 2 k]
        rfl
      · exact .done i hqueue (Function.update_self ..) hcount (Nat.le_add_left 1 k) (others_update hothers _)
  | count n =>
      obtain ⟨hqueue, hothers, ⟨hturn, -⟩ | ⟨hturn, hcount, hone⟩ | ⟨hturn, -⟩⟩ :=
        hholder.of_ne_idle (i := i) (by rw [hg]; exact Turn.noConfusion) <;> rw [hg] at hturn <;> cases hturn
      refine ⟨hfits, k, hlog, hk, Nat.le_succ k, le_refl _, ?_⟩
      exact .counted i hqueue (Function.update_self ..) rfl (others_update hothers _)
  | @pass n _ d hnumber htotal hd =>
      obtain ⟨hqueue, hothers, ⟨hturn, -⟩ | ⟨hturn, -⟩ | ⟨hturn, hcount⟩⟩ :=
        hholder.of_ne_idle (i := i) (by rw [hg]; exact Turn.noConfusion) <;> rw [hg] at hturn <;> cases hturn
      have hsingle : v.queue ++ [d] = [d] := by rw [hqueue, List.nil_append]
      refine ⟨fun d' hd' => ?_, k, hlog, hk, hle, hge, ?_⟩
      · rw [hsingle, List.mem_singleton] at hd'
        exact hd' ▸ hd
      · exact .queue d hsingle hnumber hcount htotal (idle_update hothers)

end Relay

end CorpoPay.Data
