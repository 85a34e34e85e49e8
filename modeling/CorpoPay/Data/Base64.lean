import Mathlib.Data.List.Basic

/-!
# Base64

Three bytes are four letters of six bits each. What is left at the end is filled up with zero bits, and the text with `=`.
What reads a text stops at the first `=` and passes over everything else that is not a letter.
-/

namespace CorpoPay.Data.Base64

/-! ## Six bits at a time -/

def sextets : List UInt8 → List Nat
  | a :: b :: c :: rest =>
      a.toNat / 4 :: (a.toNat % 4 * 16 + b.toNat / 16) :: (b.toNat % 16 * 4 + c.toNat / 64) :: c.toNat % 64 :: sextets rest
  | [a, b] => [a.toNat / 4, a.toNat % 4 * 16 + b.toNat / 16, b.toNat % 16 * 4]
  | [a] => [a.toNat / 4, a.toNat % 4 * 16]
  | [] => []

def bytes : List Nat → List UInt8
  | x :: y :: z :: u :: rest =>
      UInt8.ofNat (x * 4 + y / 16) :: UInt8.ofNat (y % 16 * 16 + z / 4) :: UInt8.ofNat (z % 4 * 64 + u) :: bytes rest
  | [x, y, z] => [UInt8.ofNat (x * 4 + y / 16), UInt8.ofNat (y % 16 * 16 + z / 4)]
  | [x, y] => [UInt8.ofNat (x * 4 + y / 16)]
  | [_] | [] => []

theorem sextets_lt (bs : List UInt8) : ∀ n ∈ sextets bs, n < 64 := by
  fun_induction sextets bs with
  | case1 a b c rest ih =>
      have ha := a.toNat_lt
      have hb := b.toNat_lt
      have hc := c.toNat_lt
      simp only [List.mem_cons, forall_eq_or_imp]
      exact ⟨by omega, by omega, by omega, by omega, ih⟩
  | case2 a b =>
      have ha := a.toNat_lt
      have hb := b.toNat_lt
      simp only [List.mem_cons, List.not_mem_nil, or_false, forall_eq_or_imp, forall_eq]
      exact ⟨by omega, by omega, by omega⟩
  | case3 a =>
      have ha := a.toNat_lt
      simp only [List.mem_cons, List.not_mem_nil, or_false, forall_eq_or_imp, forall_eq]
      exact ⟨by omega, by omega⟩
  | case4 => simp

theorem ofNat_eq {n : Nat} {a : UInt8} (h : n = a.toNat) : UInt8.ofNat n = a := by
  rw [h, UInt8.ofNat_toNat]

theorem bytes_sextets (bs : List UInt8) : bytes (sextets bs) = bs := by
  fun_induction sextets bs with
  | case1 a b c rest ih =>
      have ha : UInt8.ofNat (a.toNat / 4 * 4 + (a.toNat % 4 * 16 + b.toNat / 16) / 16) = a :=
        ofNat_eq (by have := b.toNat_lt; omega)
      have hb : UInt8.ofNat ((a.toNat % 4 * 16 + b.toNat / 16) % 16 * 16 + (b.toNat % 16 * 4 + c.toNat / 64) / 4) = b :=
        ofNat_eq (by have := b.toNat_lt; have := c.toNat_lt; omega)
      have hc : UInt8.ofNat ((b.toNat % 16 * 4 + c.toNat / 64) % 4 * 64 + c.toNat % 64) = c :=
        ofNat_eq (by have := c.toNat_lt; omega)
      rw [bytes, ha, hb, hc, ih]
  | case2 a b =>
      have ha : UInt8.ofNat (a.toNat / 4 * 4 + (a.toNat % 4 * 16 + b.toNat / 16) / 16) = a :=
        ofNat_eq (by have := b.toNat_lt; omega)
      have hb : UInt8.ofNat ((a.toNat % 4 * 16 + b.toNat / 16) % 16 * 16 + b.toNat % 16 * 4 / 4) = b :=
        ofNat_eq (by have := b.toNat_lt; omega)
      rw [bytes, ha, hb]
  | case3 a =>
      have ha : UInt8.ofNat (a.toNat / 4 * 4 + a.toNat % 4 * 16 / 16) = a := ofNat_eq (by omega)
      rw [bytes, ha]
  | case4 => rfl

/-! ## Letters -/

def alphabet : List Char := "ABCDEFGHIJKLMNOPQRSTUVWXYZabcdefghijklmnopqrstuvwxyz0123456789+/".toList

def letter (n : Nat) : Char := alphabet.getD n '='

/-- The alphabet for URLs is read too. -/
def value (c : Char) : Option Nat :=
  if c = '-' then some 62 else if c = '_' then some 63 else alphabet.idxOf? c

theorem value_letter {n : Nat} (h : n < 64) : value (letter n) = some n := by
  have hall : ∀ i : Fin 64, value (letter i) = some i.val := by decide +kernel
  exact hall ⟨n, h⟩

theorem value_pad : value '=' = none := by decide +kernel

/-- What fills the last four letters up. -/
def padding (bs : List UInt8) : List Char := List.replicate ((3 - bs.length % 3) % 3) '='

def encode (bs : List UInt8) : List Char := (sextets bs).map letter ++ padding bs

def decode (cs : List Char) : List UInt8 := bytes ((cs.takeWhile (· ≠ '=')).filterMap value)

theorem filterMap_letters {ns : List Nat} (h : ∀ n ∈ ns, n < 64) : (ns.map letter).filterMap value = ns := by
  induction ns with
  | nil => rfl
  | cons n ns ih =>
      rw [List.map_cons, List.filterMap_cons_some (value_letter (h n List.mem_cons_self)),
        ih fun m hm => h m (List.mem_cons_of_mem _ hm)]

theorem letter_ne_pad {n : Nat} (h : n < 64) : letter n ≠ '=' := by
  intro hpad
  have hvalue := value_letter h
  rw [hpad, value_pad] at hvalue
  cases hvalue

theorem takeWhile_encode (bs : List UInt8) : (encode bs).takeWhile (· ≠ '=') = (sextets bs).map letter := by
  have hletters : ∀ c ∈ (sextets bs).map letter, decide (c ≠ '=') = true := by
    intro c hc
    obtain ⟨n, hn, rfl⟩ := List.mem_map.mp hc
    exact decide_eq_true (letter_ne_pad (sextets_lt bs n hn))
  rw [encode, List.takeWhile_append_of_pos hletters, padding, List.takeWhile_replicate]
  simp

@[simp] theorem decode_encode (bs : List UInt8) : decode (encode bs) = bs := by
  rw [decode, takeWhile_encode, filterMap_letters (sextets_lt bs), bytes_sextets]

theorem mem_encode {bs : List UInt8} {c : Char} (h : c ∈ encode bs) : c = '=' ∨ c ∈ alphabet := by
  rcases List.mem_append.mp h with hletter | hpad
  · obtain ⟨n, hn, rfl⟩ := List.mem_map.mp hletter
    have hlt : n < alphabet.length := sextets_lt bs n hn
    rw [letter, List.getD_eq_getElem?_getD, List.getElem?_eq_getElem hlt, Option.getD_some]
    exact .inr (List.getElem_mem hlt)
  · exact .inl (List.eq_of_mem_replicate hpad)

theorem colon_notMem_encode (bs : List UInt8) : ':' ∉ encode bs := by
  intro h
  rcases mem_encode h with hpad | hletter
  · cases hpad
  · revert hletter
    decide +kernel

end CorpoPay.Data.Base64
