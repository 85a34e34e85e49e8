import CorpoPay.Data.Base64

/-!
# Encryption (`lib/encryption.ts`)

A text is encrypted as base64 of the initialization vector, the tag and the ciphertext, after the prefix of the format. A text
without the prefix was written by `crypto-js`.
-/

namespace CorpoPay.Notify

open Data

abbrev Buffer := List UInt8

inductive Failure
  | error (message : String)
  | appError (statusCode : Nat) (code message : String)
  | prismaError (code : String)
  | retryAfter (message : String)
  | aborted
  deriving DecidableEq, Repr

/-- The environment, and the functions of `crypto` and `crypto-js`. -/
structure Runtime where
  /-- `process.env.ENCRYPTION_KEY` -/
  encryptionKey : Option String
  /-- `process.env.ENCRYPTION_KEY_V1` -/
  encryptionKeyV1 : Option String
  /-- AES-256-GCM under a key and a vector: the ciphertext and the tag. -/
  gcmEncrypt : Buffer → Buffer → Buffer → Buffer × Buffer
  /-- The same back, by key, vector, tag and ciphertext. A tag that does not fit is an error. -/
  gcmDecrypt : Buffer → Buffer → Buffer → Buffer → Except Failure Buffer
  /-- `CryptoJS.enc.Base64.parse(…)` -/
  parseBase64 : String → Buffer
  /-- AES-256-CBC under a key and a vector, without the padding. -/
  cbcDecrypt : String → Buffer → Buffer → Buffer
  hmacSha256 : String → String → Buffer
  /-- The text of bytes that are not UTF-8. -/
  replaceInvalid : Buffer → String
  /-- The text of a number from `2 ^ 53` on. -/
  largeNumberText : Nat → String

/-! ## Texts and bytes -/

def utf8Bytes (text : String) : Buffer := text.toUTF8.data.toList

def utf8Text (buf : Buffer) : Option String := String.fromUTF8? ⟨buf.toArray⟩

@[simp] theorem utf8Text_utf8Bytes (text : String) : utf8Text (utf8Bytes text) = some text := by
  have hbytes : (⟨(utf8Bytes text).toArray⟩ : ByteArray) = text.toUTF8 := by simp [utf8Bytes]
  have hvalid : text.toUTF8.IsValidUTF8 := text.isValidUTF8
  rw [utf8Text, hbytes, String.fromUTF8?, dif_pos hvalid]
  rfl

/-- `.toString("hex")` -/
def hexText (buf : Buffer) : List Char := buf.flatMap fun b => [Nat.digitChar (b.toNat / 16), Nat.digitChar (b.toNat % 16)]

def hexValue (c : Char) : Option Nat :=
  if c.isDigit then some (c.toNat - 48)
  else if 'a' ≤ c ∧ c ≤ 'f' then some (c.toNat - 87)
  else if 'A' ≤ c ∧ c ≤ 'F' then some (c.toNat - 55)
  else none

/-- `Buffer.from(…, "hex")` ends where a pair is not hex. -/
def hexBytes : List Char → Buffer
  | hi :: lo :: rest =>
      match hexValue hi, hexValue lo with
      | some x, some y => UInt8.ofNat (x * 16 + y) :: hexBytes rest
      | _, _ => []
  | _ => []

/-! ## Encryption -/

def GCM_IV_BYTES : Nat := 12

def GCM_TAG_BYTES : Nat := 16

def FORMAT_V2_PREFIX : String := "v2:"

variable (rt : Runtime)

def getKey : Except Failure Buffer :=
  match rt.encryptionKey with
  | none | some "" => .error (.error "ENCRYPTION_KEY environment variable is not set")
  | some raw =>
      if raw.length ≠ 64 then .error (.error "ENCRYPTION_KEY must be exactly 64 hex characters (32 bytes)")
      else .ok (hexBytes raw.toList)

def getLegacyKey : Option String := rt.encryptionKeyV1.or rt.encryptionKey

/-- The vector is drawn by the caller. A key with another number of bytes is no key. -/
def encrypt (iv : Buffer) (plaintext : String) : Except Failure String := do
  let key ← getKey rt
  if key.length ≠ 32 then throw (.error "Invalid key length")
  let (encrypted, tag) := rt.gcmEncrypt key iv (utf8Bytes plaintext)
  let combined := iv ++ tag ++ encrypted
  pure (FORMAT_V2_PREFIX ++ String.ofList (Base64.encode combined))

/-- What `crypto-js` wrote. -/
def decryptLegacy (ciphertext : String) : Except Failure String :=
  match getLegacyKey rt with
  | none | some "" =>
      .error (.error "ENCRYPTION_KEY_V1 required to decrypt legacy credentials. Set it and re-run the migration.")
  | some legacyRaw =>
      let combined := rt.parseBase64 ciphertext
      let plain := rt.cbcDecrypt (String.ofList (legacyRaw.toList.take 32)) (combined.take 16) (combined.drop 16)
      match utf8Text plain with
      | none => .error (.error "Malformed UTF-8 data")
      | some "" => .error (.error "Legacy decryption failed: wrong key or corrupted ciphertext")
      | some plain => .ok plain

def decrypt (ciphertext : String) : Except Failure String :=
  if FORMAT_V2_PREFIX.toList.isPrefixOf ciphertext.toList then do
    let key ← getKey rt
    let buf := Base64.decode (ciphertext.toList.drop FORMAT_V2_PREFIX.length)
    let iv := buf.take GCM_IV_BYTES
    let tag := (buf.drop GCM_IV_BYTES).take GCM_TAG_BYTES
    let enc := buf.drop (GCM_IV_BYTES + GCM_TAG_BYTES)
    let plain ← rt.gcmDecrypt key iv tag enc
    pure ((utf8Text plain).getD (rt.replaceInvalid plain))
  else decryptLegacy rt ciphertext

/-! ## The way back -/

variable {rt} {iv : Buffer} {text ciphertext : String}

/-- What the cipher promises. -/
structure Runtime.Opens (rt : Runtime) : Prop where
  tag_length : ∀ key iv plain, (rt.gcmEncrypt key iv plain).2.length = GCM_TAG_BYTES
  opens : ∀ key iv plain, key.length = 32 → iv.length = GCM_IV_BYTES →
    rt.gcmDecrypt key iv (rt.gcmEncrypt key iv plain).2 (rt.gcmEncrypt key iv plain).1 = .ok plain

theorem encrypt_eq_ok (h : encrypt rt iv text = .ok ciphertext) : ∃ key, getKey rt = .ok key ∧ key.length = 32 ∧
    ciphertext = FORMAT_V2_PREFIX ++ String.ofList (Base64.encode
      (iv ++ (rt.gcmEncrypt key iv (utf8Bytes text)).2 ++ (rt.gcmEncrypt key iv (utf8Bytes text)).1)) := by
  cases hkey : getKey rt with
  | error e => simp [encrypt, hkey, bind, Except.bind] at h
  | ok key =>
      by_cases hlength : key.length = 32
      · simp [encrypt, hkey, hlength, bind, Except.bind, pure, Except.pure] at h
        exact ⟨key, rfl, hlength, by simpa using h.symm⟩
      · simp [encrypt, hkey, hlength, bind, Except.bind, throw, throwThe, MonadExceptOf.throw] at h

theorem decrypt_encrypt (hrt : rt.Opens) (hiv : iv.length = GCM_IV_BYTES) (h : encrypt rt iv text = .ok ciphertext) :
    decrypt rt ciphertext = .ok text := by
  obtain ⟨key, hkey, hlength, rfl⟩ := encrypt_eq_ok h
  have htag := hrt.tag_length key iv (utf8Bytes text)
  simp only [decrypt, hkey, bind, Except.bind, String.toList_append, String.toList_ofList]
  rw [List.drop_left' String.length_toList, Base64.decode_encode, List.append_assoc, List.take_left' hiv,
    List.drop_left' hiv, List.take_left' htag, ← List.append_assoc, List.drop_left' (by simp [hiv, htag]),
    hrt.opens key iv _ hlength hiv]
  simp [pure, Except.pure]

/-- What `crypto-js` wrote is base64 and never looks like the new format. -/
theorem decrypt_base64 (buf : Buffer) :
    decrypt rt (String.ofList (Base64.encode buf)) = decryptLegacy rt (String.ofList (Base64.encode buf)) := by
  rw [decrypt, if_neg]
  intro hprefix
  have hcolon : ':' ∈ Base64.encode buf := by
    rw [String.toList_ofList, List.isPrefixOf_iff_prefix] at hprefix
    exact hprefix.subset (by simp [FORMAT_V2_PREFIX])
  exact Base64.colon_notMem_encode buf hcolon

/-- What `encrypt` writes is read back, and what `crypto-js` wrote is left to its own path. -/
theorem both_formats_read (rt : Runtime) (hrt : rt.Opens) (iv : Buffer) (hiv : iv.length = GCM_IV_BYTES) (text : String) :
    (∀ ciphertext, encrypt rt iv text = .ok ciphertext → decrypt rt ciphertext = .ok text) ∧
      ∀ buf, decrypt rt (String.ofList (Base64.encode buf)) = decryptLegacy rt (String.ofList (Base64.encode buf)) :=
  ⟨fun _ h => decrypt_encrypt hrt hiv h, decrypt_base64⟩

/-- The ciphertext is the text, and the digest repeats what is signed. Of the cipher it keeps that what is encrypted is decrypted
again under the same key and vector, that a tag has 16 bytes and that another tag is refused. Of the digest it keeps that it goes
by the secret and the text, is not empty, and differs for different texts. -/
def textRuntime : Runtime where
  encryptionKey := some "0000000000000000000000000000000000000000000000000000000000000000"
  encryptionKeyV1 := none
  gcmEncrypt _ _ plain := (plain, List.replicate GCM_TAG_BYTES 7)
  gcmDecrypt _ _ tag enc := if tag = List.replicate GCM_TAG_BYTES 7 then .ok enc else .error (.error "Unsupported state")
  parseBase64 text := Base64.decode text.toList
  cbcDecrypt _ _ enc := enc
  hmacSha256 secret text := 0 :: utf8Bytes (secret ++ text)
  replaceInvalid _ := ""
  largeNumberText n := toString n

theorem opens_textRuntime : textRuntime.Opens where
  tag_length _ _ _ := rfl
  opens _ _ _ _ _ := rfl

theorem both_formats_read_text :
    (encrypt textRuntime (List.replicate 12 1) "s").isOk ∧
      (∀ ciphertext, encrypt textRuntime (List.replicate 12 1) "s" = .ok ciphertext →
        decrypt textRuntime ciphertext = .ok "s") ∧
      ∀ buf, decrypt textRuntime (String.ofList (Base64.encode buf)) =
        decryptLegacy textRuntime (String.ofList (Base64.encode buf)) := by
  refine ⟨by decide +kernel, ?_⟩
  exact both_formats_read textRuntime opens_textRuntime (List.replicate 12 1) rfl "s"

end CorpoPay.Notify
