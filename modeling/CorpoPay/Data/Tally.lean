import Mathlib.Algebra.BigOperators.Group.List.Basic

/-!
# Tallies

A tally holds a total for each key. A step adds to every key what an item is worth there.
-/

namespace CorpoPay.Data

variable {ι κ M : Type} [AddCommMonoid M]

/-- After a fold every key holds its first total and what the items were worth there. -/
theorem foldl_tally {step : (κ → M) → ι → κ → M} {worth : ι → κ → M}
    (h : ∀ tally x k, step tally x k = tally k + worth x k) (xs : List ι) (tally : κ → M) (k : κ) :
    xs.foldl step tally k = tally k + (xs.map (worth · k)).sum := by
  induction xs generalizing tally with
  | nil => simp
  | cons x xs ih => rw [List.foldl_cons, ih, h, List.map_cons, List.sum_cons, add_assoc]

/-- A sum over a condition with two cases that exclude each other. -/
theorem sum_filter_or (xs : List ι) (f : ι → M) {p q r : ι → Bool} (h : ∀ x, p x = (q x || r x))
    (hdisjoint : ∀ x, ¬ (q x = true ∧ r x = true)) :
    ((xs.filter p).map f).sum = ((xs.filter q).map f).sum + ((xs.filter r).map f).sum := by
  induction xs with
  | nil => simp
  | cons x xs ih =>
      have hx := hdisjoint x
      rw [List.filter_cons, List.filter_cons, List.filter_cons, h x]
      cases hq : q x <;> cases hr : r x
      · simpa using ih
      · simp [ih, add_left_comm]
      · simp [ih, add_assoc]
      · exact absurd ⟨hq, hr⟩ hx

/-! ## Totals by key

A list of keys in the order of their first items, each with the total of its items.
-/

section Totals

variable [DecidableEq κ]

/-- Add an amount to the total of a key. -/
def addTotal (key : κ) (amount : M) : List (κ × M) → List (κ × M)
  | [] => [(key, amount)]
  | e :: rest => if e.1 = key then (key, e.2 + amount) :: rest else e :: addTotal key amount rest

def totals (items : List (κ × M)) : List (κ × M) := items.foldl (fun byKey e => addTotal e.1 e.2 byKey) []

omit [AddCommMonoid M] in
theorem lookup_cons_ite (e : κ × M) (byKey : List (κ × M)) (k : κ) :
    (e :: byKey).lookup k = if k = e.1 then some e.2 else byKey.lookup k := by
  rw [List.lookup_cons]
  by_cases h : k = e.1
  · simp [h]
  · have hne : (k == e.1) = false := beq_false_of_ne h
    rw [hne, if_neg h]

theorem lookup_addTotal (key k : κ) (amount : M) (byKey : List (κ × M)) :
    (addTotal key amount byKey).lookup k =
      if k = key then some ((byKey.lookup key).getD 0 + amount) else byKey.lookup k := by
  induction byKey with
  | nil => simp [addTotal, lookup_cons_ite]
  | cons e rest ih =>
      rw [addTotal]
      by_cases he : e.1 = key
      · subst he
        by_cases h : k = e.1 <;> simp [lookup_cons_ite, h]
      · have he' : key ≠ e.1 := Ne.symm he
        rw [if_neg he, lookup_cons_ite, ih, lookup_cons_ite, lookup_cons_ite, if_neg he']
        by_cases h : k = e.1
        · simp [h, he]
        · simp [h]

/-- The amounts of a key. -/
def amountsOf (items : List (κ × M)) (k : κ) : List M := (items.filter (·.1 = k)).map (·.2)

omit [AddCommMonoid M] in
theorem mem_keys_iff {items : List (κ × M)} {k : κ} : k ∈ items.map (·.1) ↔ items.filter (·.1 = k) ≠ [] := by
  rw [List.mem_map, ne_eq, List.filter_eq_nil_iff]
  push Not
  simp only [decide_eq_true_eq]

omit [AddCommMonoid M] in
theorem amountsOf_eq_nil {items : List (κ × M)} {k : κ} (h : k ∉ items.map (·.1)) : amountsOf items k = [] := by
  rw [amountsOf, List.map_eq_nil_iff]
  exact not_not.mp fun hne => h (mem_keys_iff.mpr hne)

theorem lookup_foldl_addTotal (items byKey : List (κ × M)) (k : κ) :
    (items.foldl (fun byKey e => addTotal e.1 e.2 byKey) byKey).lookup k =
      if k ∈ items.map (·.1) then some ((byKey.lookup k).getD 0 + (amountsOf items k).sum) else byKey.lookup k := by
  induction items generalizing byKey with
  | nil => simp
  | cons e items ih =>
      rw [List.foldl_cons, ih, lookup_addTotal, List.map_cons]
      by_cases he : k = e.1
      · subst he
        have hcons : amountsOf (e :: items) e.1 = e.2 :: amountsOf items e.1 := by simp [amountsOf]
        rw [if_pos rfl, if_pos List.mem_cons_self, hcons]
        by_cases hin : e.1 ∈ items.map (·.1)
        · rw [if_pos hin, Option.getD_some, List.sum_cons, add_assoc]
        · rw [if_neg hin, amountsOf_eq_nil hin, List.sum_singleton]
      · have hcons : amountsOf (e :: items) k = amountsOf items k := by simp [amountsOf, Ne.symm he]
        rw [if_neg he, hcons]
        exact if_congr (by rw [List.mem_cons, or_iff_right he]) rfl rfl

/-- A key is there when it has an item, with the total of its items. -/
theorem lookup_totals (items : List (κ × M)) (k : κ) :
    (totals items).lookup k = if k ∈ items.map (·.1) then some (amountsOf items k).sum else none := by
  rw [totals, lookup_foldl_addTotal]
  simp

omit [AddCommMonoid M] in
theorem lookup_of_unique {byKey : List (κ × M)} {k : κ} {v : M} (hmem : (k, v) ∈ byKey)
    (h : ∀ v', (k, v') ∈ byKey → v' = v) : byKey.lookup k = some v := by
  induction byKey with
  | nil => cases hmem
  | cons e rest ih =>
      rw [lookup_cons_ite]
      split_ifs with hk
      · subst hk
        rw [h e.2 List.mem_cons_self]
      · rcases List.mem_cons.mp hmem with rfl | hrest
        · exact absurd rfl hk
        · exact ih hrest fun v' hv' => h v' (List.mem_cons_of_mem _ hv')

omit [AddCommMonoid M] in
/-- A key with one item. -/
theorem amountsOf_of_nodup {items : List (κ × M)} (h : (items.map (·.1)).Nodup) {k : κ} {v : M} (hmem : (k, v) ∈ items) :
    amountsOf items k = [v] := by
  induction items with
  | nil => cases hmem
  | cons e items ih =>
      rw [List.map_cons, List.nodup_cons] at h
      rcases List.mem_cons.mp hmem with rfl | hrest
      · have hnone : amountsOf items k = [] := amountsOf_eq_nil h.1
        have hcons : amountsOf ((k, v) :: items) k = v :: amountsOf items k := by simp [amountsOf]
        rw [hcons, hnone]
      · have hne : e.1 ≠ k := fun heq => h.1 (List.mem_map.mpr ⟨_, hrest, heq.symm⟩)
        have hcons : amountsOf (e :: items) k = amountsOf items k := by simp [amountsOf, hne]
        rw [hcons, ih h.2 hrest]

/-- Totals of different keys are their own totals. -/
theorem lookup_totals_of_nodup {items : List (κ × M)} (h : (items.map (·.1)).Nodup) (k : κ) :
    (totals items).lookup k = items.lookup k := by
  rw [lookup_totals]
  split_ifs with hk
  · obtain ⟨⟨_, v⟩, hmem, rfl⟩ := List.mem_map.mp hk
    have hunique : ∀ v', (_, v') ∈ items → v' = v := fun v' hv' =>
      List.singleton_inj.mp ((amountsOf_of_nodup h hv').symm.trans (amountsOf_of_nodup h hmem))
    rw [amountsOf_of_nodup h hmem, List.sum_singleton, lookup_of_unique hmem hunique]
  · refine (List.lookup_eq_none_iff.mpr fun e he => ?_).symm
    exact bne_iff_ne.mpr fun heq => hk (List.mem_map.mpr ⟨e, he, heq.symm⟩)

theorem mem_keys_addTotal {key k : κ} {amount : M} {byKey : List (κ × M)} :
    k ∈ (addTotal key amount byKey).map (·.1) ↔ k = key ∨ k ∈ byKey.map (·.1) := by
  induction byKey with
  | nil => simp [addTotal]
  | cons e rest ih =>
      rw [addTotal]
      split_ifs with he
      · rw [List.map_cons, List.map_cons, List.mem_cons, List.mem_cons, he]
        tauto
      · rw [List.map_cons, List.mem_cons, ih, List.map_cons, List.mem_cons]
        tauto

theorem nodup_addTotal {key : κ} {amount : M} {byKey : List (κ × M)} (h : (byKey.map (·.1)).Nodup) :
    ((addTotal key amount byKey).map (·.1)).Nodup := by
  induction byKey with
  | nil => simp [addTotal]
  | cons e rest ih =>
      rw [List.map_cons, List.nodup_cons] at h
      rw [addTotal]
      split_ifs with he
      · rw [List.map_cons, List.nodup_cons]
        exact ⟨he ▸ h.1, h.2⟩
      · rw [List.map_cons, List.nodup_cons, mem_keys_addTotal, not_or]
        exact ⟨⟨he, h.1⟩, ih h.2⟩

/-- Every key has one total. -/
theorem nodup_totals (items : List (κ × M)) : ((totals items).map (·.1)).Nodup := by
  have hfold : ∀ byKey : List (κ × M), (byKey.map (·.1)).Nodup →
      ((items.foldl (fun byKey e => addTotal e.1 e.2 byKey) byKey).map (·.1)).Nodup := by
    induction items with
    | nil => exact fun _ h => h
    | cons e items ih => exact fun byKey h => ih _ (nodup_addTotal h)
  exact hfold [] List.nodup_nil

end Totals

/-! ## Groups -/

section Groups

variable [DecidableEq κ]

/-- Only one key takes the amount. -/
theorem sum_map_single {ks : List κ} (hks : ks.Nodup) {k : κ} (hk : k ∈ ks) (amount : M) :
    (ks.map fun k' => if k = k' then amount else 0).sum = amount := by
  induction ks with
  | nil => exact absurd hk List.not_mem_nil
  | cons k' ks ih =>
      obtain ⟨hfresh, hks⟩ := List.nodup_cons.mp hks
      rw [List.map_cons, List.sum_cons]
      rcases List.mem_cons.mp hk with rfl | hk
      · have hrest : (ks.map fun k' => if k = k' then amount else 0) = ks.map fun _ => 0 :=
          List.map_congr_left fun k' hk' => if_neg (ne_of_mem_of_not_mem hk' hfresh).symm
        rw [if_pos rfl, hrest, List.sum_map_zero, add_zero]
      · rw [if_neg (ne_of_mem_of_not_mem hk hfresh), zero_add, ih hks hk]

/-- Every item is in the group of its key. -/
theorem sum_groups {ks : List κ} (hks : ks.Nodup) (key : ι → κ) (worth : ι → M) {items : List ι}
    (hcover : ∀ x ∈ items, key x ∈ ks) :
    (ks.map fun k => ((items.filter (key · = k)).map worth).sum).sum = (items.map worth).sum := by
  induction items with
  | nil => exact List.sum_map_zero
  | cons x items ih =>
      have hsplit : (ks.map fun k => (((x :: items).filter (key · = k)).map worth).sum) = ks.map fun k =>
          (if key x = k then worth x else 0) + ((items.filter (key · = k)).map worth).sum := by
        refine List.map_congr_left fun k _ => ?_
        by_cases hk : key x = k <;> simp [hk]
      rw [hsplit, List.sum_map_add, sum_map_single hks (hcover x List.mem_cons_self),
        ih fun y hy => hcover y (List.mem_cons_of_mem _ hy), List.map_cons, List.sum_cons]

end Groups

end CorpoPay.Data
