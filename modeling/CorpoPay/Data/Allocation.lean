import Mathlib.Algebra.BigOperators.Group.List.Basic
import Mathlib.Algebra.Order.BigOperators.Group.List
import Mathlib.Data.List.Nodup
import Mathlib.Tactic.Ring

/-!
# Allocation, first in first out

`fifo w r xs` takes an amount `r` from the capacities `w x` of the elements of `xs`, in order. Each element gives at
most its capacity, and together they give `r` when their capacities are enough for it.

The second part is about the remainders of an allocation by largest remainder. The third part counts over a list whose elements have distinct keys.
-/

namespace CorpoPay.Data

variable {α β κ : Type}

/-! ## First in, first out -/

def fifo (w : α → Int) : Int → List α → List (α × Int)
  | _, [] => []
  | r, x :: xs => if r ≤ 0 then [] else (x, min (w x) r) :: fifo w (r - min (w x) r) xs

variable {w : α → Int}

theorem fifo_bounds {r : Int} {xs : List α} (hw : ∀ x ∈ xs, 0 ≤ w x) :
    ∀ y ∈ fifo w r xs, y.1 ∈ xs ∧ 0 ≤ y.2 ∧ y.2 ≤ w y.1 := by
  induction xs generalizing r with
  | nil => simp [fifo]
  | cons x xs ih =>
      intro y hy
      unfold fifo at hy
      split_ifs at hy with hr
      · simp at hy
      · rcases List.mem_cons.mp hy with rfl | hy
        · exact ⟨List.mem_cons_self, le_min (hw x List.mem_cons_self) (by omega), min_le_left _ _⟩
        · obtain ⟨hm, h⟩ := ih (fun z hz => hw z (List.mem_cons_of_mem _ hz)) y hy
          exact ⟨List.mem_cons_of_mem _ hm, h⟩

/-- An amount that the capacities cover is given completely. -/
theorem fifo_sum {r : Int} {xs : List α} (hw : ∀ x ∈ xs, 0 ≤ w x) (hr : 0 ≤ r) (hle : r ≤ (xs.map w).sum) :
    ((fifo w r xs).map (·.2)).sum = r := by
  induction xs generalizing r with
  | nil => simp only [List.map_nil, List.sum_nil] at hle; simp [fifo]; omega
  | cons x xs ih =>
      unfold fifo
      split_ifs with h
      · simp; omega
      · have hw' : ∀ y ∈ xs, 0 ≤ w y := fun y hy => hw y (List.mem_cons_of_mem _ hy)
        have hxs : 0 ≤ (xs.map w).sum := List.sum_nonneg (by simpa using hw')
        simp only [List.map_cons, List.sum_cons] at hle ⊢
        rw [ih hw' (by omega) (by omega)]
        ring

theorem fifo_sublist (r : Int) (xs : List α) : ((fifo w r xs).map (·.1)).Sublist xs := by
  induction xs generalizing r with
  | nil => exact .slnil
  | cons x xs ih =>
      unfold fifo
      split_ifs
      · exact List.nil_sublist _
      · exact (ih _).cons_cons x

/-! ## Remainders

Remainders of a division by `d` whose sum is a multiple `r * d`, the largest first: the first `r` of them exist and are
not zero. -/

section Remainders

variable {d : Int} {xs : List Int} {r : Nat}

theorem sum_le_length_mul (hlt : ∀ x ∈ xs, x < d) : xs.sum ≤ xs.length * (d - 1) := by
  have h := List.sum_le_card_nsmul xs (d - 1) fun x hx => by have := hlt x hx; omega
  simpa using h

theorem multiple_le_length (hd : 0 < d) (hlt : ∀ x ∈ xs, x < d) (hsum : xs.sum = r * d) : r ≤ xs.length := by
  by_contra hlen
  have hle : xs.sum ≤ xs.length * (d - 1) := sum_le_length_mul hlt
  have hmul : ((xs.length : Int) + 1) * d ≤ r * d := Int.mul_le_mul_of_nonneg_right (by omega) hd.le
  rw [add_mul, one_mul] at hmul
  rw [mul_sub, mul_one] at hle
  omega

theorem pos_of_mem_take (hd : 0 < d) (hlt : ∀ x ∈ xs, x < d) (hsorted : xs.Pairwise fun x y => y ≤ x)
    (hsum : xs.sum = r * d) : ∀ x ∈ xs.take r, 0 < x := by
  intro x hx
  by_contra hnot
  obtain ⟨k, hk, rfl⟩ := List.getElem_of_mem hx
  rw [List.getElem_take] at hnot
  have hkr : k < r := by simp only [List.length_take] at hk; omega
  have hkx : k < xs.length := by simp only [List.length_take] at hk; omega
  -- from the `k`-th on nothing is left, so fewer than `r` remainders make up the sum
  have hzero : ∀ y ∈ xs.drop k, y ≤ 0 := by
    intro y hy
    obtain ⟨j, hj, rfl⟩ := List.getElem_of_mem hy
    rw [List.length_drop] at hj
    rw [List.getElem_drop]
    rcases Nat.eq_zero_or_pos j with rfl | hpos
    · exact not_lt.mp hnot
    · exact (List.pairwise_iff_getElem.mp hsorted k (k + j) hkx (by omega) (by omega)).trans (not_lt.mp hnot)
  have hrest : (xs.drop k).sum ≤ 0 := by simpa using List.sum_le_card_nsmul _ 0 hzero
  have hfirst : (xs.take k).sum ≤ (xs.take k).length * (d - 1) :=
    sum_le_length_mul fun y hy => hlt y (List.mem_of_mem_take hy)
  have hsplit : (xs.take k).sum + (xs.drop k).sum = xs.sum := by rw [← List.sum_append, List.take_append_drop]
  have hlen : (xs.take k).length = k := by rw [List.length_take]; omega
  rw [hlen, mul_sub, mul_one] at hfirst
  have hmul : ((k : Int) + 1) * d ≤ r * d := Int.mul_le_mul_of_nonneg_right (by omega) hd.le
  rw [add_mul, one_mul] at hmul
  omega

end Remainders

/-! ## Sums over keyed lists -/

theorem sum_map_sub (xs : List α) (f g : α → Int) :
    (xs.map fun x => f x - g x).sum = (xs.map f).sum - (xs.map g).sum := by
  induction xs with
  | nil => simp
  | cons x xs ih => simp [ih]; ring

/-- Two orders of summation. -/
theorem sum_sum_comm (xs : List α) (ys : List β) (f : α → β → Int) :
    (xs.map fun x => (ys.map fun y => f x y).sum).sum = (ys.map fun y => (xs.map fun x => f x y).sum).sum := by
  induction xs with
  | nil => simp
  | cons x xs ih => simp [ih]

theorem sum_map_congr {xs : List α} {f g : α → Int} (h : ∀ x ∈ xs, f x = g x) : (xs.map f).sum = (xs.map g).sum := by
  rw [List.map_congr_left h]

theorem sum_filter (xs : List α) (p : α → Prop) [DecidablePred p] (f : α → Int) :
    ((xs.filter p).map f).sum = (xs.map fun x => if p x then f x else 0).sum := by
  induction xs with
  | nil => rfl
  | cons x xs ih =>
      rw [List.filter_cons]
      split_ifs with h
      · simp_all
      · simp_all

variable [DecidableEq κ] {key : α → κ}

/-- At most one element has a given key. -/
theorem sum_key {xs : List α} (hnodup : (xs.map key).Nodup) {x : α} (hx : x ∈ xs) (f : α → Int) :
    (xs.map fun y => if key y = key x then f y else 0).sum = f x := by
  induction xs with
  | nil => simp at hx
  | cons z xs ih =>
      rw [List.map_cons, List.nodup_cons] at hnodup
      rw [List.map_cons, List.sum_cons]
      rcases List.mem_cons.mp hx with rfl | hx
      · have hrest : (xs.map fun y => if key y = key x then f y else 0).sum = 0 := by
          refine List.sum_eq_zero fun v hv => ?_
          obtain ⟨y, hy, rfl⟩ := List.mem_map.mp hv
          rw [if_neg fun h => hnodup.1 (List.mem_map.mpr ⟨y, hy, h⟩)]
        rw [if_pos rfl, hrest, add_zero]
      · rw [if_neg fun h => hnodup.1 (List.mem_map.mpr ⟨x, hx, h.symm⟩), ih hnodup.2 hx, zero_add]

/-- One element is replaced. -/
theorem sum_update {xs : List α} (hnodup : (xs.map key).Nodup) {x : α} (hx : x ∈ xs) (g : α → Int) (f : α → α) :
    ((xs.map fun y => if key y = key x then f y else y).map g).sum = (xs.map g).sum + (g (f x) - g x) := by
  rw [← sum_key hnodup hx fun y => g (f y) - g y, ← List.sum_map_add, List.map_map]
  refine sum_map_congr fun y _ => ?_
  simp only [Function.comp_apply]
  split_ifs <;> ring

/-- A search that sees no difference finds the replaced element. -/
theorem find?_update {xs : List α} {k : κ} {f : α → α} {p : α → Bool} (hf : ∀ x, p (f x) = p x)
    (hk : ∀ x, p x = true → key x = k) :
    (xs.map fun x => if key x = k then f x else x).find? p = (xs.find? p).map f := by
  induction xs with
  | nil => rfl
  | cons x xs ih =>
      have hx : p (if key x = k then f x else x) = p x := by
        split_ifs
        · exact hf x
        · rfl
      rw [List.map_cons, List.find?_cons, List.find?_cons, hx, ih]
      cases hpx : p x with
      | true => rw [if_pos (hk x hpx)]; rfl
      | false => rfl

omit [DecidableEq κ] in
/-- A key determines the element. -/
theorem eq_of_key {xs : List α} (hnodup : (xs.map key).Nodup) {x y : α} (hx : x ∈ xs) (hy : y ∈ xs)
    (h : key x = key y) : x = y := List.inj_on_of_nodup_map hnodup hx hy h

end CorpoPay.Data
