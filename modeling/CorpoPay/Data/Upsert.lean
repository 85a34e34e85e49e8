/-!
# Update or insert

A table is a list of rows with a key. An insert whose key is there updates the rows that have it.
-/

namespace CorpoPay.Data

section Upsert

variable {α κ : Type} [DecidableEq κ] {key : α → κ} {row : α} {update : α → α} {rows : List α}

def upsert (key : α → κ) (row : α) (update : α → α) (rows : List α) : List α :=
  if rows.any (key · = key row) then rows.map fun r => if key r = key row then update r else r else rows ++ [row]

theorem upsert_of_absent (h : ∀ r ∈ rows, key r ≠ key row) : upsert key row update rows = rows ++ [row] := by
  rw [upsert, if_neg]
  simpa using h

theorem upsert_of_present {r : α} (hr : r ∈ rows) (hkey : key r = key row) :
    upsert key row update rows = rows.map fun r => if key r = key row then update r else r := by
  rw [upsert, if_pos]
  simpa using ⟨r, hr, hkey⟩

section Filter

variable {P : α → Bool}

/-- Among the rows where the key belongs, the insert leaves the row alone when there was none. -/
theorem filter_upsert_nil (hP : ∀ r, key r = key row → P r) (h : rows.filter P = []) :
    (upsert key row update rows).filter P = [row] := by
  have habsent : ∀ r ∈ rows, key r ≠ key row := fun r hr hkey =>
    List.filter_eq_nil_iff.mp h r hr (hP r hkey)
  rw [upsert_of_absent habsent, List.filter_append, h, List.nil_append, List.filter_cons_of_pos (hP row rfl),
    List.filter_nil]

/-- One that was there under the key is updated, and it stays the only one. -/
theorem filter_upsert_single {r : α} (hP : ∀ r, key r = key row → P r) (hupdate : ∀ r, P r → P (update r))
    (h : rows.filter P = [r]) (hkey : key r = key row) : (upsert key row update rows).filter P = [update r] := by
  have hmem : r ∈ rows.filter P := by
    rw [h]
    exact List.mem_singleton_self r
  have hkeep : (P ∘ fun r => if key r = key row then update r else r) = P := by
    funext r
    by_cases hr : key r = key row
    · rw [Function.comp_apply, if_pos hr, hP r hr, hupdate r (hP r hr)]
    · rw [Function.comp_apply, if_neg hr]
  rw [upsert_of_present (List.mem_filter.mp hmem).1 hkey, List.filter_map, hkeep, h, List.map_singleton, if_pos hkey]

end Filter

end Upsert

end CorpoPay.Data
