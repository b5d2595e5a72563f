/-
# Unique identifiers

Identifiers of 128 bits, kept as their thirty-two hexadecimal digits. They are
written in lower case with hyphens, and read with or without hyphens, in braces,
or as a URN.
-/

namespace OData

/-- A 128-bit identifier. -/
structure Uuid where
  /-- The hexadecimal digits, the most significant first. -/
  digits : List (Fin 16)
  /-- Thirty-two digits make 128 bits. -/
  length_eq : digits.length = 32
  deriving DecidableEq

namespace Uuid

/-- Lower-case character of a hexadecimal digit. -/
def digitChar (digit : Fin 16) : Char := Nat.digitChar digit.val

/-- The hexadecimal digit that a character of either case stands for. -/
def readDigit? (c : Char) : Option (Fin 16) :=
  if c.isDigit then some (Fin.ofNat 16 (c.toNat - 48))
  else if 'a' ≤ c ∧ c ≤ 'f' then some (Fin.ofNat 16 (c.toNat - 87))
  else if 'A' ≤ c ∧ c ≤ 'F' then some (Fin.ofNat 16 (c.toNat - 55))
  else none

/-- Lengths of the groups between hyphens. -/
def groupLengths : List Nat := [8, 4, 4, 4, 12]

/-- Characters in groups of the given lengths with hyphens between them. -/
def hyphenate : List Nat → List Char → List Char
  | [], chars => chars
  | [_], chars => chars
  | length :: lengths, chars =>
      chars.take length ++ '-' :: hyphenate lengths (chars.drop length)

/-- The hyphenated form in lower case. -/
def text (id : Uuid) : String :=
  String.ofList (hyphenate groupLengths (id.digits.map digitChar))

/-- Take the hyphens out of a grouped form; none when one is missing. -/
def dropHyphens? : List Nat → List Char → Option (List Char)
  | [], chars => if chars.isEmpty then some [] else none
  | [length], chars => if chars.length = length then some chars else none
  | length :: lengths, chars =>
      match chars.drop length with
      | '-' :: rest => (dropHyphens? lengths rest).map (chars.take length ++ ·)
      | _ => none

/-- The identifier of thirty-two hexadecimal characters. -/
def ofHex? (chars : List Char) : Option Uuid :=
  match chars.mapM readDigit? with
  | some digits => if h : digits.length = 32 then some ⟨digits, h⟩ else none
  | none => none

/-- The grouped form inside its wrapping, if there is any: braces or a URN. -/
def unwrap (chars : List Char) : List Char :=
  let scheme := "urn:uuid:".toList
  if scheme.isPrefixOf chars then chars.drop scheme.length
  else match chars with
    | '\x7b' :: rest => if rest.getLast? = some '\x7d' then rest.dropLast else chars
    | _ => chars

/-- The identifier that a text stands for. -/
def read? (text : String) : Option Uuid :=
  let chars := text.toList
  if chars.length = 32 then ofHex? chars
  else (dropHyphens? groupLengths (unwrap chars)).bind ofHex?

end Uuid

end OData
