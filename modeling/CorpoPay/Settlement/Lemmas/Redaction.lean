import CorpoPay.Settlement.StripeWebhooks

/-!
# Redaction of JSON values

What it means that values differ only under hidden keys, and the value that has one fixed value under each hidden key.
-/

namespace CorpoPay.Settlement.Redaction

variable (hidden : String → Bool) (cover : Json)

/-! ## Values that differ only under hidden keys -/

mutual

/-- The same structure and the same leaves, except under the hidden keys. -/
inductive SameOutside : Json → Json → Prop
  | leaf {value} (h : value.isObject = false) : SameOutside value value
  | arr {xs ys} (h : SameItems xs ys) : SameOutside (.arr xs) (.arr ys)
  | obj {fields fields'} (h : SameFields fields fields') : SameOutside (.obj fields) (.obj fields')

inductive SameItems : List Json → List Json → Prop
  | nil : SameItems [] []
  | cons {x y xs ys} (h : SameOutside x y) (hs : SameItems xs ys) : SameItems (x :: xs) (y :: ys)

inductive SameFields : List (String × Json) → List (String × Json) → Prop
  | nil : SameFields [] []
  | hidden {key value value' fields fields'} (hkey : hidden key = true) (hs : SameFields fields fields') :
      SameFields ((key, value) :: fields) ((key, value') :: fields')
  | shown {key value value' fields fields'} (hkey : hidden key = false) (h : SameOutside value value')
      (hs : SameFields fields fields') : SameFields ((key, value) :: fields) ((key, value') :: fields')

end

/-! ## Values that are covered -/

mutual

/-- `cover` stands under every hidden key. -/
def Covered : Json → Prop
  | .arr xs => CoveredItems xs
  | .obj fields => CoveredFields fields
  | _ => True

def CoveredItems : List Json → Prop
  | [] => True
  | x :: xs => Covered x ∧ CoveredItems xs

def CoveredFields : List (String × Json) → Prop
  | [] => True
  | (key, value) :: fields => (if hidden key then value = cover else Covered value) ∧ CoveredFields fields

end

/-! ## Covering -/

mutual

/-- Put `cover` in the place of every value under a hidden key. -/
def redact : Json → Json
  | .arr xs => .arr (redactItems xs)
  | .obj fields => .obj (redactFields fields)
  | other => other

def redactItems : List Json → List Json
  | [] => []
  | x :: xs => redact x :: redactItems xs

def redactFields : List (String × Json) → List (String × Json)
  | [] => []
  | (key, value) :: fields => (key, if hidden key then cover else redact value) :: redactFields fields

end

variable {hidden cover}

mutual

theorem sameOutside_redact : (value : Json) → SameOutside hidden value (redact hidden cover value)
  | .arr xs => by simp only [redact]; exact .arr (sameItems_redact xs)
  | .obj fields => by simp only [redact]; exact .obj (sameFields_redact fields)
  | .null | .bool _ | .num _ | .str _ => by simp only [redact]; exact .leaf rfl

theorem sameItems_redact : (xs : List Json) → SameItems hidden xs (redactItems hidden cover xs)
  | [] => by simp only [redactItems]; exact .nil
  | x :: xs => by simp only [redactItems]; exact .cons (sameOutside_redact x) (sameItems_redact xs)

theorem sameFields_redact : (fields : List (String × Json)) → SameFields hidden fields (redactFields hidden cover fields)
  | [] => by simp only [redactFields]; exact .nil
  | (key, value) :: fields => by
      simp only [redactFields]
      cases hkey : hidden key with
      | true => exact .hidden hkey (sameFields_redact fields)
      | false => exact .shown hkey (sameOutside_redact value) (sameFields_redact fields)

end

mutual

theorem SameOutside.refl : (value : Json) → SameOutside hidden value value
  | .arr xs => .arr (SameItems.refl xs)
  | .obj fields => .obj (SameFields.refl fields)
  | .null | .bool _ | .num _ | .str _ => .leaf rfl

theorem SameItems.refl : (xs : List Json) → SameItems hidden xs xs
  | [] => .nil
  | x :: xs => .cons (SameOutside.refl x) (SameItems.refl xs)

theorem SameFields.refl : (fields : List (String × Json)) → SameFields hidden fields fields
  | [] => .nil
  | (key, value) :: fields =>
      match hkey : hidden key with
      | true => .hidden hkey (SameFields.refl fields)
      | false => .shown hkey (SameOutside.refl value) (SameFields.refl fields)

end

mutual

theorem covered_redact : (value : Json) → Covered hidden cover (redact hidden cover value)
  | .arr xs => by simp only [redact, Covered]; exact coveredItems_redact xs
  | .obj fields => by simp only [redact, Covered]; exact coveredFields_redact fields
  | .null | .bool _ | .num _ | .str _ => by simp only [redact, Covered]

theorem coveredItems_redact : (xs : List Json) → CoveredItems hidden cover (redactItems hidden cover xs)
  | [] => by simp only [redactItems, CoveredItems]
  | x :: xs => by simp only [redactItems, CoveredItems]; exact ⟨covered_redact x, coveredItems_redact xs⟩

theorem coveredFields_redact :
    (fields : List (String × Json)) → CoveredFields hidden cover (redactFields hidden cover fields)
  | [] => by simp only [redactFields, CoveredFields]
  | (key, value) :: fields => by
      simp only [redactFields, CoveredFields]
      refine ⟨?_, coveredFields_redact fields⟩
      cases hidden key with
      | true => simp
      | false => simpa using covered_redact value

end

mutual

/-- What differs only under the hidden keys is covered to the same value. -/
theorem SameOutside.redact_eq {value value' : Json} :
    SameOutside hidden value value' → redact hidden cover value = redact hidden cover value'
  | .leaf _ => rfl
  | .arr h => by simp only [redact, h.redact_eq]
  | .obj h => by simp only [redact, h.redact_eq]

theorem SameItems.redact_eq {xs ys : List Json} :
    SameItems hidden xs ys → redactItems hidden cover xs = redactItems hidden cover ys
  | .nil => rfl
  | .cons h hs => by simp only [redactItems, h.redact_eq, hs.redact_eq]

theorem SameFields.redact_eq {fields fields' : List (String × Json)} :
    SameFields hidden fields fields' → redactFields hidden cover fields = redactFields hidden cover fields'
  | .nil => rfl
  | .hidden hkey hs => by simp only [redactFields, hkey, ↓reduceIte, hs.redact_eq]
  | .shown _ h hs => by simp only [redactFields, h.redact_eq, hs.redact_eq]

end

mutual

theorem redact_of_covered : (value : Json) → Covered hidden cover value → redact hidden cover value = value
  | .arr xs, h => by simp only [Covered] at h; simp only [redact, redactItems_of_covered xs h]
  | .obj fields, h => by simp only [Covered] at h; simp only [redact, redactFields_of_covered fields h]
  | .null, _ | .bool _, _ | .num _, _ | .str _, _ => by simp only [redact]

theorem redactItems_of_covered :
    (xs : List Json) → CoveredItems hidden cover xs → redactItems hidden cover xs = xs
  | [], _ => by simp only [redactItems]
  | x :: xs, h => by
      simp only [CoveredItems] at h
      simp only [redactItems, redact_of_covered x h.1, redactItems_of_covered xs h.2]

theorem redactFields_of_covered :
    (fields : List (String × Json)) → CoveredFields hidden cover fields → redactFields hidden cover fields = fields
  | [], _ => by simp only [redactFields]
  | (key, value) :: fields, h => by
      simp only [CoveredFields] at h
      simp only [redactFields, redactFields_of_covered fields h.2]
      cases hkey : hidden key with
      | true => rw [hkey] at h; simpa using h.1.symm
      | false => rw [hkey] at h; simpa using redact_of_covered value h.1

end

/-- The covered value is the only one that is covered and differs only under the hidden keys. -/
theorem eq_redact_iff {value result : Json} :
    result = redact hidden cover value ↔ SameOutside hidden value result ∧ Covered hidden cover result := by
  refine ⟨fun h => h ▸ ⟨sameOutside_redact value, covered_redact value⟩, fun ⟨hsame, hcovered⟩ => ?_⟩
  rw [hsame.redact_eq, redact_of_covered result hcovered]

/-- Covering again covers the same places. -/
theorem redact_redact (cover' value : Json) :
    redact hidden cover (redact hidden cover' value) = redact hidden cover value :=
  (sameOutside_redact value).redact_eq.symm

end CorpoPay.Settlement.Redaction
