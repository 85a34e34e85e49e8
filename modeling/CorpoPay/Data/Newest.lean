import Mathlib.Data.List.Sort

/-!
# The newest of a list

The first of a list in the order of its dates, the latest date first. Of two with one date the earlier in the list counts.
-/

namespace CorpoPay.Data

variable {α β : Type} {date : α → Nat} {a b : α} {l : List α}

def newest (date : α → Nat) (l : List α) : Option α := (l.insertionSort fun a b => date b ≤ date a).head?

theorem newest_cons (date : α → Nat) (a : α) (l : List α) :
    newest date (a :: l) =
      match newest date l with
      | none => some a
      | some b => if date b ≤ date a then some a else some b := by
  simp only [newest, List.insertionSort_cons]
  cases l.insertionSort fun a b => date b ≤ date a with
  | nil => rfl
  | cons b rest => by_cases h : date b ≤ date a <;> simp [h]

theorem mem_of_newest (h : newest date l = some a) : a ∈ l :=
  (List.mem_insertionSort _).mp (List.mem_of_head? h)

theorem exists_newest (h : a ∈ l) : ∃ b, newest date l = some b := by
  cases hl : newest date l with
  | none =>
      have hempty := (List.mem_insertionSort fun a b => date b ≤ date a).mpr h
      rw [List.head?_eq_none_iff.mp hl] at hempty
      cases hempty
  | some b => exact ⟨b, rfl⟩

theorem le_newest (h : newest date l = some a) (hb : b ∈ l) : date b ≤ date a := by
  induction l generalizing a with
  | nil => cases hb
  | cons c l ih =>
      rw [newest_cons] at h
      cases hl : newest date l with
      | none =>
          rw [hl] at h
          rcases List.mem_cons.mp hb with rfl | hb
          · exact (congrArg date (Option.some.inj h)).le
          · obtain ⟨d, hd⟩ : ∃ d, newest date l = some d := exists_newest hb
            rw [hl] at hd
            cases hd
      | some d =>
          rw [hl] at h
          dsimp only at h
          rcases List.mem_cons.mp hb with rfl | hb
          · split_ifs at h with hle
            · exact (congrArg date (Option.some.inj h)).le
            · exact (not_le.mp hle).le.trans (congrArg date (Option.some.inj h)).le
          · split_ifs at h with hle
            · exact (ih hl hb).trans (hle.trans (congrArg date (Option.some.inj h)).le)
            · exact (ih hl hb).trans (congrArg date (Option.some.inj h)).le

/-- A condition that later dates meet as well may be asked of the newest one only. -/
theorem newest_filter {p : α → Bool} (hp : ∀ a b, date a ≤ date b → p a = true → p b = true) (l : List α) :
    newest date (l.filter p) = (newest date l).filter p := by
  induction l with
  | nil => rfl
  | cons a l ih =>
      rw [List.filter_cons, newest_cons]
      cases hl : newest date l with
      | none =>
          rw [hl, Option.filter_none] at ih
          by_cases ha : p a = true
          · rw [if_pos ha, newest_cons, ih]
            simp [Option.filter_some, ha]
          · rw [if_neg ha, ih]
            simp [Option.filter_some, ha]
      | some b =>
          rw [hl] at ih
          by_cases ha : p a = true
          · rw [if_pos ha, newest_cons, ih]
            by_cases hb : p b = true
            · by_cases hle : date b ≤ date a <;> simp [Option.filter_some, ha, hb, hle]
            · have hle : date b ≤ date a := le_of_not_ge fun hle => hb (hp a b hle ha)
              simp [Option.filter_some, ha, hb, hle]
          · rw [if_neg ha, ih]
            by_cases hle : date b ≤ date a
            · have hb : ¬ p b = true := fun hb => ha (hp b a hle hb)
              simp [Option.filter_some, ha, hb, hle]
            · simp [Option.filter_some, hle]

theorem newest_map {date' : β → Nat} {f : α → β} (h : ∀ a, date' (f a) = date a) (l : List α) :
    newest date' (l.map f) = (newest date l).map f := by
  rw [newest, newest, ← List.map_insertionSort _ _ f l fun a _ b _ => by rw [h, h], List.head?_map]

end CorpoPay.Data
