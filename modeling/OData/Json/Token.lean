/-
# JSON tokens

The lexical layer of JSON, over bytes. A token keeps what was written: numerals
keep their digits and texts keep their escapes, because members that nobody asks
for are checked for their form only, and never for what they stand for.
-/

namespace OData.Json

/-- A numeral as written. -/
structure Numeral where
  /-- A minus stands in front. -/
  negative : Bool
  /-- Digits before the point; no zero leads unless it is the only one. -/
  whole : List Nat
  /-- Digits after the point. -/
  fraction : Option (List Nat)
  /-- Whether the exponent is negative, and its digits. -/
  exponent : Option (Bool × List Nat)
  deriving DecidableEq

/-- A piece of a text as written. -/
inductive Piece where
  /-- A byte that stands for itself, or for which a short escape stands. -/
  | byte (value : UInt8)
  /-- A 16-bit unit written as a `\u` escape. -/
  | unit (code : Nat)
  deriving DecidableEq

/-- The tokens of JSON. -/
inductive Token where
  | beginArray
  | endArray
  | beginObject
  | endObject
  | colon
  | comma
  | null
  | boolean (value : Bool)
  | number (numeral : Numeral)
  | text (pieces : List Piece)
  deriving DecidableEq

/-- The four characters that may stand between tokens. -/
def isSpace (b : UInt8) : Bool :=
  b == 0x20 || b == 0x09 || b == 0x0A || b == 0x0D

/-- The byte is a decimal digit. -/
def isDigit (b : UInt8) : Bool := 0x30 ≤ b && b ≤ 0x39

/-- The values of the digits at the front, and the bytes after them. -/
def takeDigits (bytes : List UInt8) : List Nat × List UInt8 :=
  ((bytes.takeWhile isDigit).map fun b => b.toNat - 48, bytes.dropWhile isDigit)

/-- The optional exponent at the front; a mark without digits is an error. -/
def takeExponent? (bytes : List UInt8) : Option (Option (Bool × List Nat) × List UInt8) :=
  match bytes with
  | mark :: rest =>
      if mark == 0x65 || mark == 0x45 then
        let (negative, digits) := match rest with
          | sign :: tail =>
              if sign == 0x2D then (true, tail) else if sign == 0x2B then (false, tail)
              else (false, rest)
          | [] => (false, rest)
        match takeDigits digits with
        | ([], _) => none
        | (found, tail) => some (some (negative, found), tail)
      else some (none, bytes)
  | [] => some (none, bytes)

/-- The optional fraction at the front; a point without digits is an error. -/
def takeFraction? (bytes : List UInt8) : Option (Option (List Nat) × List UInt8) :=
  match bytes with
  | point :: rest =>
      if point == 0x2E then
        match takeDigits rest with
        | ([], _) => none
        | (found, tail) => some (some found, tail)
      else some (none, bytes)
  | [] => some (none, bytes)

/-- The unsigned numeral at the front. -/
def takeMagnitude? (negative : Bool) (bytes : List UInt8) : Option (Numeral × List UInt8) := do
  let (whole, afterWhole) := takeDigits bytes
  if whole.isEmpty || (whole.head? == some 0 && whole.length != 1) then none
  let (fraction, afterFraction) ← takeFraction? afterWhole
  let (exponent, rest) ← takeExponent? afterFraction
  return (⟨negative, whole, fraction, exponent⟩, rest)

/-- The numeral at the front. -/
def takeNumeral? : List UInt8 → Option (Numeral × List UInt8)
  | [] => none
  | b :: rest => if b == 0x2D then takeMagnitude? true rest else takeMagnitude? false (b :: rest)

/-- The value of a hexadecimal digit of either case. -/
def hexValue? (b : UInt8) : Option Nat :=
  if isDigit b then some (b.toNat - 48)
  else if 0x61 ≤ b && b ≤ 0x66 then some (b.toNat - 87)
  else if 0x41 ≤ b && b ≤ 0x46 then some (b.toNat - 55)
  else none

/-- The byte that a short escape stands for. -/
def shortEscape? (b : UInt8) : Option UInt8 :=
  if b == 0x22 || b == 0x5C || b == 0x2F then some b
  else if b == 0x62 then some 0x08
  else if b == 0x66 then some 0x0C
  else if b == 0x6E then some 0x0A
  else if b == 0x72 then some 0x0D
  else if b == 0x74 then some 0x09
  else none

/-- The pieces of a text up to its closing quote, and the bytes after it. Control
characters must be escaped. -/
def takeText? : List UInt8 → Option (List Piece × List UInt8)
  | [] => none
  | b :: rest =>
      if b == 0x22 then some ([], rest)
      else if b == 0x5C then
        match rest with
        | [] => none
        | mark :: tail =>
            if mark == 0x75 then
              match tail with
              | h1 :: h2 :: h3 :: h4 :: more => do
                  let d1 ← hexValue? h1
                  let d2 ← hexValue? h2
                  let d3 ← hexValue? h3
                  let d4 ← hexValue? h4
                  let (pieces, after) ← takeText? more
                  return (.unit (((d1 * 16 + d2) * 16 + d3) * 16 + d4) :: pieces, after)
              | _ => none
            else do
              let value ← shortEscape? mark
              let (pieces, after) ← takeText? tail
              return (.byte value :: pieces, after)
      else if b < 0x20 then none
      else do
        let (pieces, after) ← takeText? rest
        return (.byte b :: pieces, after)

/-- The single-byte token that a byte is. -/
def mark? (b : UInt8) : Option Token :=
  if b == 0x5B then some .beginArray
  else if b == 0x5D then some .endArray
  else if b == 0x7B then some .beginObject
  else if b == 0x7D then some .endObject
  else if b == 0x3A then some .colon
  else if b == 0x2C then some .comma
  else none

/-- The words of JSON, less their first letter, and what they stand for. -/
def word? (b : UInt8) : Option (List UInt8 × Token) :=
  if b == 0x6E then some ([0x75, 0x6C, 0x6C], .null)
  else if b == 0x74 then some ([0x72, 0x75, 0x65], .boolean true)
  else if b == 0x66 then some ([0x61, 0x6C, 0x73, 0x65], .boolean false)
  else none

/-- The token that begins with a byte, and the bytes after it. -/
def takeToken? (b : UInt8) (rest : List UInt8) : Option (Token × List UInt8) :=
  match mark? b with
  | some token => some (token, rest)
  | none =>
      match word? b with
      | some (letters, token) =>
          if letters.isPrefixOf rest then some (token, rest.drop letters.length) else none
      | none =>
          if b == 0x22 then (takeText? rest).map fun found => (.text found.1, found.2)
          else (takeNumeral? (b :: rest)).map fun found => (.number found.1, found.2)

/-- Tokens of the bytes, at most `limit` of them and of the spaces around them. -/
def scanUpTo : (limit : Nat) → List UInt8 → Option (List Token)
  | _, [] => some []
  | 0, _ :: _ => none
  | limit + 1, b :: rest =>
      if isSpace b then scanUpTo limit rest
      else do
        let (token, tail) ← takeToken? b rest
        let tokens ← scanUpTo limit tail
        return token :: tokens

/-- The tokens of a text. Every token takes at least one byte, so their number
bounds the scan. -/
def scan? (bytes : List UInt8) : Option (List Token) :=
  scanUpTo bytes.length bytes

end OData.Json
