/-
# JSON values

What a document stands for: texts are decoded, numbers have a value, and the
members of an object have different names and are sorted by them. Documents that
nest too deeply, hold a lone surrogate, a text that is not UTF-8 or a number out
of range stand for nothing.
-/

import OData.Json.Document
import OData.Number.Notation
import OData.Number.Numeral

namespace OData.Json

/-- A JSON number. Integers between `-2^63` and `2^64 - 1` are exact; all others,
and everything written with a point or an exponent, are floats. -/
inductive Number where
  | integer (value : Int)
  | decimal (value : Float)

end Json

/-- A JSON value. -/
inductive Json where
  | null
  | boolean (value : Bool)
  | number (value : Json.Number)
  | string (value : String)
  | array (items : List Json)
  | object (members : List (String × Json))

namespace Json

/-- The 64-bit integer that a number is, if it is one. -/
def Number.int64? : Number → Option Int64
  | .integer value => if Number.fitsInt64 value then some (Int64.ofInt value) else none
  | .decimal _ => none

/-- The float nearest to a number. -/
def Number.toFloat : Number → Float
  | .integer value =>
      let magnitude := (UInt64.ofNat value.natAbs).toFloat
      if value < 0 then -magnitude else magnitude
  | .decimal value => value

instance : Inhabited Json := ⟨.null⟩

/-- Greatest integer kept exactly. -/
def greatestExact : Nat := 0xFFFFFFFFFFFFFFFF

/-- Append digits to a significand for as long as it stays exact; also the
number of digits that did not fit. -/
def appendDigits : Nat → List Nat → Nat × Nat
  | significand, [] => (significand, 0)
  | significand, d :: rest =>
      if significand * 10 + d ≤ greatestExact then appendDigits (significand * 10 + d) rest
      else (significand, rest.length + 1)

/-- Powers of ten up to this one are floats. -/
def greatestPower : Nat := 308

/-- A power of ten as a float. -/
def powerOfTen (n : Nat) : Float := Float.ofScientific 1 false n

/-- Scale a float by a negative power of ten, in steps of the greatest power. -/
def scaleDown : (steps : Nat) → Float → Nat → Float
  | 0, _, _ => 0
  | steps + 1, x, n =>
      if n ≤ greatestPower then x / powerOfTen n
      else if x == 0 then x
      else scaleDown steps (x / powerOfTen greatestPower) (n - greatestPower)

/-- The float `significand * 10 ^ exponent`, by one operation on floats in each
step and not by exact rounding; none when it overflows. -/
def scaled? (significand : Nat) (exponent : Int) : Option Float :=
  let x := (UInt64.ofNat significand).toFloat
  if exponent < 0 then some (scaleDown 4 x exponent.natAbs)
  else if exponent.natAbs ≤ greatestPower then
    let product := x * powerOfTen exponent.natAbs
    if Number.isFinite product then some product else none
  else if significand = 0 then some x
  else none

/-- Greatest exponent, and least with a minus, that a float's numeral is scaled by. -/
def exponentLimit : Int := 0x7FFFFFFF

/-- The natural number that digits stand for. -/
def digitsNat (digits : List Nat) : Nat := digits.foldl (fun n d => n * 10 + d) 0

/-- The exponent that a numeral writes, and the scale its digits need besides. -/
def totalExponent (scale : Int) : Option (Bool × List Nat) → Int
  | none => scale
  | some (negative, digits) =>
      let written := Int.ofNat (digitsNat digits)
      if negative then max (scale - written) (-exponentLimit - 1)
      else min (scale + written) exponentLimit

/-- The written exponent does not fit 32 bits. -/
def exponentOverflows : Option (Bool × List Nat) → Bool
  | none => false
  | some (_, digits) => exponentLimit < Int.ofNat (digitsNat digits)

/-- The float of a numeral whose digits make `significand * 10 ^ scale`, without
its sign. An exponent past 32 bits leaves only zero or nothing. -/
def decimalValue? (significand : Nat) (scale : Int) (exponent : Option (Bool × List Nat)) :
    Option Float :=
  if exponentOverflows exponent then
    if significand ≠ 0 && exponent.all (fun e => !e.1) then none else some 0
  else scaled? significand (totalExponent scale exponent)

/-- The number that a numeral stands for. Digits that make the significand too
large count by their place before the point, and not at all after it. -/
def Numeral.value? (numeral : Numeral) : Option Number :=
  let (whole, dropped) := appendDigits 0 numeral.whole
  match dropped, numeral.fraction, numeral.exponent with
  | 0, none, none =>
      if !numeral.negative then some (.integer whole)
      else if whole = 0 || 0x8000000000000000 < whole then
        some (.decimal (-(UInt64.ofNat whole).toFloat))
      else some (.integer (-whole))
  | dropped, fraction, exponent =>
      let digits := fraction.getD []
      let (significand, ignored) := appendDigits whole digits
      let scale : Int := Int.ofNat dropped - Int.ofNat (digits.length - ignored)
      (decimalValue? significand scale exponent).map fun x =>
        .decimal (if numeral.negative then -x else x)

/-- The bytes that the pieces of a text stand for; none when a surrogate stands
alone. -/
def decodePieces? : List Piece → Option (List UInt8)
  | [] => some []
  | .byte value :: rest => (decodePieces? rest).map (value :: ·)
  | .unit code :: rest =>
      if 0xDC00 ≤ code && code ≤ 0xDFFF then none
      else if 0xD800 ≤ code && code ≤ 0xDBFF then
        match rest with
        | .unit low :: more =>
            if 0xDC00 ≤ low && low ≤ 0xDFFF then
              let point := 0x10000 + (code - 0xD800) * 0x400 + (low - 0xDC00)
              (decodePieces? more).map (String.utf8EncodeChar (Char.ofNat point) ++ ·)
            else none
        | _ => none
      else (decodePieces? rest).map (String.utf8EncodeChar (Char.ofNat code) ++ ·)

/-- The text that the pieces stand for. -/
def textOf? (pieces : List Piece) : Option String :=
  (decodePieces? pieces).bind fun bytes => String.fromUTF8? ⟨bytes.toArray⟩

/-- Put a member into sorted members; a member of the same name is replaced. -/
def insertMember (name : String) (value : Json) : List (String × Json) → List (String × Json)
  | [] => [(name, value)]
  | (other, kept) :: rest =>
      if name = other then (name, value) :: rest
      else if name < other then (name, value) :: (other, kept) :: rest
      else (other, kept) :: insertMember name value rest

/-- Greatest nesting of arrays and objects that is read. -/
def greatestDepth : Nat := 127

mutual

/-- The value of a document that may nest `levels` containers deep. -/
def ofDocument? (levels : Nat) : Document → Option Json
  | .null => some .null
  | .boolean value => some (.boolean value)
  | .number numeral => numeral.value?.map .number
  | .text pieces => (textOf? pieces).map .string
  | .array items =>
      if levels = 0 then none else (ofItems? (levels - 1) items).map .array
  | .object members =>
      if levels = 0 then none else (ofMembers? (levels - 1) [] members).map .object

/-- The values of the items of an array. -/
def ofItems? (levels : Nat) : List Document → Option (List Json)
  | [] => some []
  | item :: rest => do
      let value ← ofDocument? levels item
      let values ← ofItems? levels rest
      return value :: values

/-- Members put one after another into the sorted members read before. -/
def ofMembers? (levels : Nat) (before : List (String × Json)) :
    List (List Piece × Document) → Option (List (String × Json))
  | [] => some before
  | (pieces, item) :: rest => do
      let name ← textOf? pieces
      let value ← ofDocument? levels item
      ofMembers? levels (insertMember name value before) rest

end

/-- The value that a text of bytes stands for. -/
def read? (bytes : ByteArray) : Option Json :=
  (Document.read? bytes).bind (ofDocument? greatestDepth)

/-- The value that a text stands for. -/
def ofText? (text : String) : Option Json := read? text.toUTF8

/-- Stand-in for the position and the cause that a malformed text is reported with. -/
def malformedText : String := "<json>"

/-- The value of a member of an object. -/
def get? (name : String) : Json → Option Json
  | .object members => (members.find? fun member => member.1 == name).map Prod.snd
  | _ => none

/-- The value is null. -/
def isNull : Json → Bool
  | .null => true
  | _ => false

end Json

end OData
