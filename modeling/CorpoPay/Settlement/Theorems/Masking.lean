import CorpoPay.Settlement.Lemmas.Redaction
import CorpoPay.Settlement.Mask

/-!
# Masking leaks nothing within its depth

A value is masked as it should be exactly when no sensitive key stands below the cut: there the input is returned as it is.
-/

namespace CorpoPay.Settlement

open Redaction

/-- What stands under a sensitive key is replaced by the mask and everything else stays, so the values under sensitive keys
have no part in the result. -/
structure LeaksNothing (input : Json) : Prop where
  masked : Covered isSensitiveKey (.str MASK_VALUE) (maskObject input 0)
  unchanged : SameOutside isSensitiveKey input (maskObject input 0)
  noninterference : ∀ input', SameOutside isSensitiveKey input input' → maskObject input' 0 = maskObject input 0

mutual

/-- Outside of the values under sensitive keys, no object below the cut has a sensitive key and no object above it has a
field `__proto__`. -/
def WithinReach : Json → Nat → Prop
  | .arr xs, depth => ItemsWithinReach xs depth
  | .obj fields, depth => FieldsWithinReach fields depth
  | _, _ => True

def ItemsWithinReach : List Json → Nat → Prop
  | [], _ => True
  | item :: items, depth => WithinReach item (depth + 1) ∧ ItemsWithinReach items depth

def FieldsWithinReach : List (String × Json) → Nat → Prop
  | [], _ => True
  | (key, value) :: fields, depth =>
      (if depth ≤ 10 then key ≠ "__proto__" else isSensitiveKey key = false) ∧
        (isSensitiveKey key = false → WithinReach value (depth + 1)) ∧ FieldsWithinReach fields depth

end

/-! ## The reach looks at the keys only -/

mutual

theorem withinReach_of_same {input input' : Json} {depth : Nat} :
    SameOutside isSensitiveKey input input' → WithinReach input depth → WithinReach input' depth
  | .leaf _, h => h
  | .arr hs, h => by simp only [WithinReach] at h ⊢; exact itemsWithinReach_of_same hs h
  | .obj hs, h => by simp only [WithinReach] at h ⊢; exact fieldsWithinReach_of_same hs h

theorem itemsWithinReach_of_same {items items' : List Json} {depth : Nat} :
    SameItems isSensitiveKey items items' → ItemsWithinReach items depth → ItemsWithinReach items' depth
  | .nil, h => h
  | .cons hx hs, h => by
      simp only [ItemsWithinReach] at h ⊢
      exact ⟨withinReach_of_same hx h.1, itemsWithinReach_of_same hs h.2⟩

theorem fieldsWithinReach_of_same {fields fields' : List (String × Json)} {depth : Nat} :
    SameFields isSensitiveKey fields fields' → FieldsWithinReach fields depth → FieldsWithinReach fields' depth
  | .nil, h => h
  | .hidden hkey hs, h => by
      simp only [FieldsWithinReach] at h ⊢
      exact ⟨h.1, fun hshown => (by simp [hkey] at hshown), fieldsWithinReach_of_same hs h.2.2⟩
  | .shown hkey hv hs, h => by
      simp only [FieldsWithinReach] at h ⊢
      exact ⟨h.1, fun _ => withinReach_of_same hv (h.2.1 hkey), fieldsWithinReach_of_same hs h.2.2⟩

end

/-! ## Inputs that are masked with anything under their sensitive keys -/

section

variable {depth : Nat}

theorem maskObject_deep (hdeep : 10 < depth) (input : Json) : maskObject input depth = input := by
  unfold maskObject
  rw [if_pos hdeep]

theorem maskObject_leaf {value : Json} (h : value.isObject = false) : maskObject value depth = value := by
  unfold maskObject
  cases value with
  | arr | obj => cases h
  | _ => simp

theorem maskFields_cons {key : String} (hkey : key ≠ "__proto__") (value : Json) (fields : List (String × Json)) :
    maskFields ((key, value) :: fields) depth =
      (key, if isSensitiveKey key then .str MASK_VALUE else maskObject value (depth + 1)) :: maskFields fields depth := by
  rw [maskFields, if_neg hkey]
  split
  · rfl
  · split
    · rfl
    · rename_i hleaf
      rw [maskObject_leaf (by simpa using hleaf)]

theorem length_maskFields_le (fields : List (String × Json)) : (maskFields fields depth).length ≤ fields.length := by
  induction fields with
  | nil => simp [maskFields]
  | cons field fields ih =>
    obtain ⟨key, value⟩ := field
    by_cases hkey : key = "__proto__"
    · rw [maskFields, if_pos hkey]
      exact Nat.le_succ_of_le ih
    · rw [maskFields_cons hkey]
      exact Nat.succ_le_succ ih

theorem length_redactFields (cover : Json) (fields : List (String × Json)) :
    (redactFields isSensitiveKey cover fields).length = fields.length := by
  induction fields with
  | nil => simp [redactFields]
  | cons field fields ih => simp [redactFields, ih]

/-- A field `__proto__` gets lost. -/
theorem maskFields_proto_ne {key : String} (hkey : key = "__proto__") (value cover : Json)
    (fields : List (String × Json)) :
    maskFields ((key, value) :: fields) depth ≠ redactFields isSensitiveKey cover ((key, value) :: fields) := by
  intro h
  have hle : (maskFields fields depth).length ≤ fields.length := length_maskFields_le fields
  rw [maskFields, if_pos hkey] at h
  rw [h, length_redactFields] at hle
  exact absurd hle (by simp)

end

/-- The value with `cover` under every sensitive key. -/
abbrev redacted (cover : Json) (input : Json) : Json := redact isSensitiveKey cover input

abbrev redactedItems (cover : Json) (items : List Json) : List Json := redactItems isSensitiveKey cover items

abbrev redactedFields (cover : Json) (fields : List (String × Json)) : List (String × Json) :=
  redactFields isSensitiveKey cover fields

mutual

/-- Below the cut a sensitive key keeps what stands under it, the mask or not. -/
theorem withinReach_iff_of_deep {depth : Nat} (hdeep : 10 < depth) :
    (input : Json) → (WithinReach input depth ↔
      input = redacted (.str MASK_VALUE) input ∧ redacted .null input = redacted (.str MASK_VALUE) input)
  | .arr xs => by simp [WithinReach, redact, itemsWithinReach_iff_of_deep hdeep xs]
  | .obj fields => by simp [WithinReach, redact, fieldsWithinReach_iff_of_deep hdeep fields]
  | .null | .bool _ | .num _ | .str _ => by simp [WithinReach, redact]

theorem itemsWithinReach_iff_of_deep {depth : Nat} (hdeep : 10 < depth) :
    (items : List Json) → (ItemsWithinReach items depth ↔
      items = redactedItems (.str MASK_VALUE) items ∧
        redactedItems .null items = redactedItems (.str MASK_VALUE) items)
  | [] => by simp [ItemsWithinReach, redactItems]
  | x :: xs => by
      simp [ItemsWithinReach, redactItems, withinReach_iff_of_deep (Nat.lt_succ_of_lt hdeep) x,
        itemsWithinReach_iff_of_deep hdeep xs, and_and_and_comm]

theorem fieldsWithinReach_iff_of_deep {depth : Nat} (hdeep : 10 < depth) :
    (fields : List (String × Json)) → (FieldsWithinReach fields depth ↔
      fields = redactedFields (.str MASK_VALUE) fields ∧
        redactedFields .null fields = redactedFields (.str MASK_VALUE) fields)
  | [] => by simp [FieldsWithinReach, redactFields]
  | (key, value) :: fields => by
      cases hkey : isSensitiveKey key with
      | true => simp [FieldsWithinReach, redactFields, hkey, Nat.not_le.mpr hdeep]
      | false =>
          simp [FieldsWithinReach, redactFields, hkey, Nat.not_le.mpr hdeep,
            withinReach_iff_of_deep (Nat.lt_succ_of_lt hdeep) value, fieldsWithinReach_iff_of_deep hdeep fields,
            and_and_and_comm]

end

mutual

/-- An input is within reach when it is masked as it should be, and still is with nothing under its sensitive keys. -/
theorem withinReach_iff :
    (input : Json) → (depth : Nat) → (WithinReach input depth ↔
      maskObject input depth = redacted (.str MASK_VALUE) input ∧
        maskObject (redacted .null input) depth = redacted (.str MASK_VALUE) input)
  | .arr xs, depth => by
      by_cases hdeep : 10 < depth
      · simpa only [maskObject_deep hdeep] using withinReach_iff_of_deep hdeep (.arr xs)
      · simp [WithinReach, redact, maskObject, hdeep, itemsWithinReach_iff xs depth]
  | .obj fields, depth => by
      by_cases hdeep : 10 < depth
      · simpa only [maskObject_deep hdeep] using withinReach_iff_of_deep hdeep (.obj fields)
      · simp [WithinReach, redact, maskObject, hdeep, fieldsWithinReach_iff fields (Nat.not_lt.mp hdeep)]
  | .null, _ | .bool _, _ | .num _, _ | .str _, _ => by simp [WithinReach, redact, maskObject]

theorem itemsWithinReach_iff :
    (items : List Json) → (depth : Nat) → (ItemsWithinReach items depth ↔
      maskItems items depth = redactedItems (.str MASK_VALUE) items ∧
        maskItems (redactedItems .null items) depth = redactedItems (.str MASK_VALUE) items)
  | [], _ => by simp [ItemsWithinReach, redactItems, maskItems]
  | x :: xs, depth => by
      simp [ItemsWithinReach, redactItems, maskItems, withinReach_iff x (depth + 1), itemsWithinReach_iff xs depth,
        and_and_and_comm]

theorem fieldsWithinReach_iff :
    (fields : List (String × Json)) → {depth : Nat} → depth ≤ 10 → (FieldsWithinReach fields depth ↔
      maskFields fields depth = redactedFields (.str MASK_VALUE) fields ∧
        maskFields (redactedFields .null fields) depth = redactedFields (.str MASK_VALUE) fields)
  | [], _, _ => by simp [FieldsWithinReach, redactFields, maskFields]
  | (key, value) :: fields, depth, hdepth => by
      by_cases hproto : key = "__proto__"
      · refine iff_of_false (fun h => ?_) (fun h => maskFields_proto_ne hproto value _ fields h.1)
        simp only [FieldsWithinReach, if_pos hdepth] at h
        exact h.1 hproto
      · cases hkey : isSensitiveKey key with
        | true =>
            simp [FieldsWithinReach, redactFields, hkey, hdepth, hproto, maskFields_cons hproto,
              fieldsWithinReach_iff fields hdepth]
        | false =>
            simp [FieldsWithinReach, redactFields, hkey, hdepth, hproto, maskFields_cons hproto,
              withinReach_iff value (depth + 1), fieldsWithinReach_iff fields hdepth, and_and_and_comm]

end

/-! ## What is masked -/

theorem leaksNothing_iff_redacted (input : Json) :
    LeaksNothing input ↔
      ∀ input', SameOutside isSensitiveKey input input' → maskObject input' 0 = redacted (.str MASK_VALUE) input := by
  constructor
  · intro h input' hsame
    rw [h.noninterference input' hsame]
    exact eq_redact_iff.mpr ⟨h.unchanged, h.masked⟩
  · intro h
    have hself : maskObject input 0 = redacted (.str MASK_VALUE) input := h input (SameOutside.refl input)
    obtain ⟨hunchanged, hmasked⟩ := eq_redact_iff.mp hself
    exact ⟨hmasked, hunchanged, fun input' hsame => (h input' hsame).trans hself.symm⟩

/-- Masking leaks nothing of an input exactly when all its sensitive keys are within reach. -/
theorem leaksNothing_iff (input : Json) : LeaksNothing input ↔ WithinReach input 0 := by
  rw [leaksNothing_iff_redacted]
  constructor
  · intro h
    exact (withinReach_iff input 0).mpr ⟨h input (SameOutside.refl input), h _ (sameOutside_redact input)⟩
  · intro h input' hsame
    have hreach := withinReach_of_same hsame h
    rw [((withinReach_iff input' 0).mp hreach).1]
    exact hsame.redact_eq.symm

/-- An object in `levels` others, as the only field of each. -/
def nested : Nat → Json → Json
  | 0, value => value
  | levels + 1, value => .obj [("next", nested levels value)]

/-- The secret of the twelfth object gets out. -/
theorem not_leaksNothing : ¬ LeaksNothing (nested 11 (.obj [("secret", .str "x")])) := by
  intro h
  have hsecret : isSensitiveKey "secret" = true := by decide
  have hnext : isSensitiveKey "next" = false := by decide
  have hmasked := h.masked
  simp [nested, maskObject, maskFields, Json.isObject, hnext, hsecret, Covered, CoveredFields, MASK_VALUE] at hmasked

end CorpoPay.Settlement
