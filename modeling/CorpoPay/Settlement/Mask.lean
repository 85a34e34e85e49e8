import CorpoPay.Settlement.StripeWebhooks

/-!
# Masking (`mask.ts`)

A JSON value is a tree, so the guard against circular structures is only the cut at its depth.
-/

namespace CorpoPay.Settlement

/-! ## Sensitive keys -/

/-- A pattern of `SENSITIVE_PATTERNS`: a text, with a word boundary on a side where it asks for one. -/
structure KeyPattern where
  text : String
  boundaryBefore : Bool := false
  boundaryAfter : Bool := false

/-- Keys whose values should be masked in logs and stored payloads. Case-insensitive matching. -/
def SENSITIVE_PATTERNS : List KeyPattern :=
  [{ text := "secret" }, { text := "password" }, { text := "passwd" },
    { text := "key", boundaryBefore := true, boundaryAfter := true }, { text := "apikey" }, { text := "api_key" },
    { text := "token" }, { text := "authorization" }, { text := "credential" }, { text := "cvv" },
    { text := "pan", boundaryAfter := true }, { text := "cardnumber" }, { text := "card_number" },
    { text := "pin", boundaryAfter := true }, { text := "private" }]

def MASK_VALUE : String := "***MASKED***"

def isWordChar (c : Char) : Bool := c.isAlphanum || c = '_'

/-- `\b` between two characters. There is none at an end of the text. -/
def isBoundary (before after : Option Char) : Bool := before.any isWordChar != after.any isWordChar

namespace KeyPattern

/-- The pattern at the head of `rest`, after the character `before`. -/
def testAt (pattern : KeyPattern) (before : Option Char) (rest : List Char) : Bool :=
  let text := pattern.text.toList
  (!pattern.boundaryBefore || isBoundary before rest.head?) &&
    (rest.take text.length).map Char.toLower == text &&
    (!pattern.boundaryAfter || isBoundary text.getLast? (rest.drop text.length).head?)

def testFrom (pattern : KeyPattern) : Option Char → List Char → Bool
  | before, [] => pattern.testAt before []
  | before, c :: rest => pattern.testAt before (c :: rest) || pattern.testFrom (some c) rest

/-- `pattern.test(key)` -/
def test (pattern : KeyPattern) (key : String) : Bool := pattern.testFrom none key.toList

end KeyPattern

def isSensitiveKey (key : String) : Bool := SENSITIVE_PATTERNS.any (·.test key)

/-! ## The mask -/

mutual

/-- Mask the sensitive values of an input at a depth. -/
def maskObject (input : Json) (depth : Nat) : Json :=
  if depth > 10 then input
  else
    match input with
    | .arr xs => .arr (maskItems xs depth)
    | .obj fields => .obj (maskFields fields depth)
    | other => other

def maskItems : List Json → Nat → List Json
  | [], _ => []
  | item :: items, depth => maskObject item (depth + 1) :: maskItems items depth

/-- The assignments to `result`. The one to `__proto__` sets its prototype and makes no field. -/
def maskFields : List (String × Json) → Nat → List (String × Json)
  | [], _ => []
  | (key, value) :: fields, depth =>
      if key = "__proto__" then maskFields fields depth
      else if isSensitiveKey key then (key, .str MASK_VALUE) :: maskFields fields depth
      else if value.isObject then (key, maskObject value (depth + 1)) :: maskFields fields depth
      else (key, value) :: maskFields fields depth

end

end CorpoPay.Settlement
