/-
# Numerals in texts

Texts that stand for numbers: integers are an optional sign and digits, decimals
may have a point and an exponent, and the words for infinity and for no number
are read in any case. A text that is not wholly a numeral is none.
-/

namespace OData.Number

/-- The value of a decimal digit. -/
def digit? (c : Char) : Option Nat :=
  if c.isDigit then some (c.toNat - 48) else none

/-- The number that decimal digits stand for, read on from `seen`. -/
def digitsValue (seen : Nat) (digits : List Char) : Nat :=
  digits.foldl (fun value c => value * 10 + (c.toNat - 48)) seen

/-- An optional sign, and whether it is a minus. -/
def takeSign : List Char → Bool × List Char
  | '-' :: rest => (true, rest)
  | '+' :: rest => (false, rest)
  | chars => (false, chars)

/-- The integer a text stands for: an optional sign and at least one digit. -/
def readInt? (text : String) : Option Int :=
  let (negative, digits) := takeSign text.toList
  if digits.isEmpty || !digits.all Char.isDigit then none
  else
    let magnitude := digitsValue 0 digits
    some (if negative then -(magnitude : Int) else magnitude)

/-- The integers that fit 64 bits with a sign. -/
def fitsInt64 (value : Int) : Bool :=
  -0x8000000000000000 ≤ value && value < 0x8000000000000000

/-- The 64-bit integer a text stands for. -/
def readInt64? (text : String) : Option Int64 :=
  (readInt? text).bind fun value => if fitsInt64 value then some (Int64.ofInt value) else none

/-- The float nearest to `significand * 10 ^ exponent`. Numbers far outside the
range are settled by their first digit's position alone. -/
def nearestFloat (significand : Nat) (exponent : Int) : Float :=
  if significand = 0 then 0
  else
    let point := exponent + ((Nat.toDigits 10 significand).length : Int)
    if 400 < point then 1 / 0
    else if point < -400 then 0
    else if exponent < 0 then Float.ofScientific significand true exponent.natAbs
    else Float.ofScientific significand false exponent.natAbs

/-- The words for the floats that are no numbers, in lower case. -/
def namedFloat? (word : List Char) : Option Float :=
  if word == "inf".toList || word == "infinity".toList then some (1 / 0)
  else if word == "nan".toList then some (0 / 0)
  else none

/-- Exponent of a numeral: nothing, or a mark, an optional sign and digits. -/
def readExponent? : List Char → Option Int
  | [] => some 0
  | mark :: rest =>
      if mark == 'e' || mark == 'E' then
        readInt? (String.ofList rest)
      else none

/-- The unsigned decimal numeral in `chars`. Digits are needed before the point
or after it. -/
def readMagnitude? (chars : List Char) : Option Float :=
  let whole := chars.takeWhile Char.isDigit
  let afterWhole := chars.dropWhile Char.isDigit
  let (fraction, rest) := match afterWhole with
    | '.' :: tail => (tail.takeWhile Char.isDigit, tail.dropWhile Char.isDigit)
    | _ => ([], afterWhole)
  if whole.isEmpty && fraction.isEmpty then none
  else (readExponent? rest).map fun exponent =>
    nearestFloat (digitsValue 0 (whole ++ fraction)) (exponent - fraction.length)

/-- The float a text stands for. -/
def readFloat? (text : String) : Option Float :=
  let (negative, chars) := takeSign text.toList
  let magnitude := (namedFloat? (chars.map Char.toLower)).orElse fun _ => readMagnitude? chars
  magnitude.map fun x => if negative then -x else x

end OData.Number
