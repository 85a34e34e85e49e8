import Mathlib.Algebra.Group.Nat.Defs
import CorpoPay.Notify.Encryption

/-!
# Signatures of webhooks (`lib/webhook-sign.ts`)

A webhook is signed over its time and its body. Its header names the time and the signature, and is read by two regular
expressions.
-/

namespace CorpoPay.Notify

variable (rt : Runtime)

/-! ## Signatures -/

/-- The text of a number in a template. -/
def numberText (n : Nat) : String := if n < 2 ^ 53 then toString n else rt.largeNumberText n

def signWebhookPayload (secret : String) (timestamp : Nat) (body : String) : List Char :=
  hexText (rt.hmacSha256 secret (numberText rt timestamp ++ "." ++ body))

/-- `now` is in milliseconds. -/
def buildWebhookSignatureHeader (now : Nat) (secret body : String) : List Char × Nat :=
  let timestamp := now / 1000
  ("t=".toList ++ (numberText rt timestamp).toList ++ ",v1=".toList ++ signWebhookPayload rt secret timestamp body, timestamp)

/-- `\s` -/
def isSpace (c : Char) : Bool :=
  c.toNat ∈ [0x9, 0xa, 0xb, 0xc, 0xd, 0x20, 0xa0, 0x1680, 0x2028, 0x2029, 0x202f, 0x205f, 0x3000, 0xfeff] ∨
    0x2000 ≤ c.toNat ∧ c.toNat ≤ 0x200a

/-- `\s*name(value+)` at the beginning of a text. -/
def fieldHere (fold : Char → Char) (name : List Char) (isValue : Char → Bool) (cs : List Char) : Option (List Char) :=
  let rest := cs.dropWhile isSpace
  let value := (rest.drop name.length).takeWhile isValue
  if (rest.take name.length).map fold = name ∧ value ≠ [] then some value else none

/-- The first match after a comma. -/
def fieldAfterComma (fold : Char → Char) (name : List Char) (isValue : Char → Bool) : List Char → Option (List Char)
  | [] => none
  | c :: cs =>
      if c = ',' then (fieldHere fold name isValue cs).or (fieldAfterComma fold name isValue cs)
      else fieldAfterComma fold name isValue cs

/-- `/(?:^|,)\s*name(value+)/.exec(header)` -/
def field (fold : Char → Char) (name : List Char) (isValue : Char → Bool) (cs : List Char) : Option (List Char) :=
  (fieldHere fold name isValue cs).or (fieldAfterComma fold name isValue cs)

def isHex (c : Char) : Bool := (hexValue c).isSome

/-- The case of letters does not matter in `v1`. -/
def verifyWebhookSignatureHeader (secret : String) (header : List Char) (body : String) : Bool :=
  match field id "t=".toList Char.isDigit header, field Char.toLower "v1=".toList isHex header with
  | some t, some v1 => signWebhookPayload rt secret (Nat.ofDigitChars 10 t 0) body = v1.map Char.toLower
  | _, _ => false

/-! ## Hex -/

theorem hexValue_digitChar {n : Nat} (h : n < 16) : hexValue (Nat.digitChar n) = some n := by
  have hall : ∀ i : Fin 16, hexValue (Nat.digitChar i) = some i.val := by decide
  exact hall ⟨n, h⟩

theorem toLower_digitChar {n : Nat} (h : n < 16) : (Nat.digitChar n).toLower = Nat.digitChar n := by
  have hall : ∀ i : Fin 16, (Nat.digitChar i).toLower = Nat.digitChar i := by decide
  exact hall ⟨n, h⟩

theorem exists_of_mem_hexText {buf : Buffer} {c : Char} (h : c ∈ hexText buf) : ∃ n < 16, c = Nat.digitChar n := by
  obtain ⟨b, -, hc⟩ := List.mem_flatMap.mp h
  have hb := b.toNat_lt
  simp only [List.mem_cons, List.not_mem_nil, or_false] at hc
  rcases hc with rfl | rfl
  · exact ⟨_, by omega, rfl⟩
  · exact ⟨_, by omega, rfl⟩

theorem isHex_hexText {buf : Buffer} {c : Char} (h : c ∈ hexText buf) : isHex c = true := by
  obtain ⟨n, hn, rfl⟩ := exists_of_mem_hexText h
  simp [isHex, hexValue_digitChar hn]

theorem toLower_hexText (buf : Buffer) : (hexText buf).map Char.toLower = hexText buf := by
  have hsame : ∀ c ∈ hexText buf, c.toLower = id c := by
    intro c hc
    obtain ⟨n, hn, rfl⟩ := exists_of_mem_hexText hc
    exact toLower_digitChar hn
  rw [List.map_congr_left hsame, List.map_id]

theorem hexBytes_hexText (buf : Buffer) : hexBytes (hexText buf) = buf := by
  induction buf with
  | nil => rfl
  | cons b buf ih =>
      have hb := b.toNat_lt
      have hbyte : UInt8.ofNat (b.toNat / 16 * 16 + b.toNat % 16) = b := by
        rw [Nat.div_add_mod', UInt8.ofNat_toNat]
      rw [hexText, List.flatMap_cons]
      simp only [List.cons_append, List.nil_append, hexBytes]
      rw [hexValue_digitChar (by omega), hexValue_digitChar (by omega)]
      simp only [hbyte]
      exact congrArg (b :: ·) ih

theorem hexText_inj {buf buf' : Buffer} : hexText buf = hexText buf' ↔ buf = buf' := by
  constructor
  · intro h
    rw [← hexBytes_hexText buf, h, hexBytes_hexText]
  · exact congrArg hexText

/-! ## The header -/

section Fields

variable {fold : Char → Char} {name value rest : List Char} {isValue : Char → Bool}

theorem takeWhile_stop {p : Char → Bool} (hvalue : ∀ c ∈ value, p c = true) (hrest : ∀ c ∈ rest.head?, p c = false) :
    (value ++ rest).takeWhile p = value := by
  rw [List.takeWhile_append_of_pos hvalue]
  cases rest with
  | nil => simp
  | cons c rest => simp [hrest c rfl]

theorem fieldHere_eq (hspace : ∀ c ∈ name.head?, isSpace c = false) (hname : name ≠ []) (hfold : name.map fold = name)
    (hvalue : ∀ c ∈ value, isValue c = true) (hne : value ≠ []) (hrest : ∀ c ∈ rest.head?, isValue c = false) :
    fieldHere fold name isValue (name ++ value ++ rest) = some value := by
  have hstart : (name ++ value ++ rest).dropWhile isSpace = name ++ value ++ rest := by
    cases name with
    | nil => exact absurd rfl hname
    | cons c name => simp [hspace c rfl]
  rw [fieldHere, hstart, List.append_assoc, List.take_left, List.drop_left, takeWhile_stop hvalue hrest]
  exact if_pos ⟨hfold, hne⟩

theorem fieldHere_eq_none {c : Char} {cs : List Char} (hspace : isSpace c = false) (hname : ∀ n ∈ name.head?, fold c ≠ n)
    (hne : name ≠ []) : fieldHere fold name isValue (c :: cs) = none := by
  rw [fieldHere]
  refine if_neg fun h => ?_
  cases name with
  | nil => exact hne rfl
  | cons n name => exact hname n rfl (by simpa [hspace] using congrArg List.head? h.1)

theorem fieldAfterComma_append (hvalue : ',' ∉ value) :
    fieldAfterComma fold name isValue (value ++ rest) = fieldAfterComma fold name isValue rest := by
  induction value with
  | nil => rfl
  | cons c value ih =>
      simp only [List.mem_cons, not_or] at hvalue
      rw [List.cons_append, fieldAfterComma, if_neg (Ne.symm hvalue.1), ih hvalue.2]

end Fields

variable {rt} {secret secret' body body' : String} {t t' now : Nat}

/-- What is signed. -/
def signedText (t : Nat) (body : String) : String := toString t ++ "." ++ body

theorem numberText_eq (h : t < 2 ^ 53) : numberText rt t = toString t := if_pos h

/-- The header of a time and a signature. -/
def headerText (t : Nat) (v1 : List Char) : List Char := "t=".toList ++ Nat.toDigits 10 t ++ ",v1=".toList ++ v1

theorem buildWebhookSignatureHeader_eq (h : now / 1000 < 2 ^ 53) : (buildWebhookSignatureHeader rt now secret body).1 =
    headerText (now / 1000) (signWebhookPayload rt secret (now / 1000) body) := by
  simp [buildWebhookSignatureHeader, headerText, numberText_eq h, Nat.toString_eq_repr]

theorem isDigit_of_mem {c : Char} (h : c ∈ Nat.toDigits 10 t) : c.isDigit = true :=
  Nat.isDigit_of_mem_toDigits (by decide) (by decide) h

theorem field_t (v1 : List Char) : field id "t=".toList Char.isDigit (headerText t v1) = some (Nat.toDigits 10 t) := by
  have hhere : fieldHere id "t=".toList Char.isDigit (headerText t v1) = some (Nat.toDigits 10 t) := by
    rw [headerText, List.append_assoc _ ",v1=".toList]
    apply fieldHere_eq
    · simp [isSpace]
    · simp
    · simp
    · exact fun c hc => isDigit_of_mem hc
    · exact Nat.toDigits_ne_nil
    · simp
  rw [field, hhere]
  rfl

theorem field_v1 {v1 : List Char} (hne : v1 ≠ []) (hhex : ∀ c ∈ v1, isHex c = true) :
    field Char.toLower "v1=".toList isHex (headerText t v1) = some v1 := by
  have hcomma : ',' ∉ "t=".toList ++ Nat.toDigits 10 t := by
    intro h
    rcases List.mem_append.mp h with h | h
    · simp at h
    · exact absurd (isDigit_of_mem h) (by decide)
  have hstart : fieldHere Char.toLower "v1=".toList isHex (headerText t v1) = none := by
    show fieldHere Char.toLower ['v', '1', '='] isHex ('t' :: _) = none
    apply fieldHere_eq_none
    · decide
    · simp
    · simp
  have hhere : fieldHere Char.toLower "v1=".toList isHex ("v1=".toList ++ v1 ++ []) = some v1 := by
    apply fieldHere_eq
    · simp [isSpace]
    · simp
    · decide
    · exact hhex
    · exact hne
    · simp
  rw [field, hstart, headerText, List.append_assoc, fieldAfterComma_append hcomma]
  rw [List.append_nil] at hhere
  simp only [Option.none_or]
  show (fieldHere Char.toLower "v1=".toList isHex ("v1=".toList ++ v1)).or _ = some v1
  rw [hhere]
  rfl

theorem verify_headerText {digest : Buffer} (hdigest : digest ≠ []) (ht : t < 2 ^ 53) :
    verifyWebhookSignatureHeader rt secret (headerText t (hexText digest)) body = true ↔
      rt.hmacSha256 secret (signedText t body) = digest := by
  have hne : hexText digest ≠ [] := by
    intro h
    exact hdigest (hexText_inj.mp h)
  simp only [verifyWebhookSignatureHeader, field_t, field_v1 hne fun c hc => isHex_hexText hc, toLower_hexText,
    decide_eq_true_eq]
  rw [Nat.ofDigitChars_ten_toDigits, signWebhookPayload, hexText_inj, numberText_eq ht]
  rfl

theorem signWebhookPayload_eq (ht : t < 2 ^ 53) :
    signWebhookPayload rt secret t body = hexText (rt.hmacSha256 secret (signedText t body)) := by
  rw [signWebhookPayload, numberText_eq ht]
  rfl

/-- The header that is built for a body is accepted for a body exactly if both have one digest. The same goes for a header with
another time, whose digest is taken over this time. -/
theorem signature_accepted_iff (rt : Runtime) (hdigest : ∀ secret text, rt.hmacSha256 secret text ≠ [])
    (secret secret' body body' : String) (now : Nat) (hnow : now / 1000 < 2 ^ 53) :
    (verifyWebhookSignatureHeader rt secret' (buildWebhookSignatureHeader rt now secret body).1 body' = true ↔
      rt.hmacSha256 secret' (signedText (now / 1000) body') = rt.hmacSha256 secret (signedText (now / 1000) body)) ∧
    ∀ t < 2 ^ 53, verifyWebhookSignatureHeader rt secret' (headerText t (signWebhookPayload rt secret (now / 1000) body)) body' =
      true ↔ rt.hmacSha256 secret' (signedText t body') = rt.hmacSha256 secret (signedText (now / 1000) body) := by
  rw [buildWebhookSignatureHeader_eq hnow, signWebhookPayload_eq hnow]
  constructor
  · exact verify_headerText (hdigest _ _) hnow
  · exact fun t ht => verify_headerText (hdigest _ _) ht

theorem hmac_textRuntime_ne (secret text : String) : textRuntime.hmacSha256 secret text ≠ [] := by
  simp [textRuntime]

theorem signature_accepted_iff_text :
    verifyWebhookSignatureHeader textRuntime "s" (buildWebhookSignatureHeader textRuntime 5000 "s" "b").1 "b" = true ∧
      verifyWebhookSignatureHeader textRuntime "s" (buildWebhookSignatureHeader textRuntime 5000 "s" "b").1 "c" ≠ true ∧
      verifyWebhookSignatureHeader textRuntime "s" (headerText 6 (signWebhookPayload textRuntime "s" 5 "b")) "b" ≠ true := by
  have hbuilt : ∀ body, _ := fun body =>
    signature_accepted_iff textRuntime hmac_textRuntime_ne "s" "s" "b" body 5000 (by decide)
  refine ⟨(hbuilt "b").1.mpr rfl, fun h => ?_, fun h => ?_⟩
  · exact absurd ((hbuilt "c").1.mp h) (by decide +kernel)
  · exact absurd (((hbuilt "b").2 6 (by decide)).mp h) (by decide +kernel)

end CorpoPay.Notify
