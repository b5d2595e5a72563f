/-
# Written numbers

How a float becomes text. The digits are the shortest ones; where the point
stands and when an exponent is used is a record of decisions, and the library
has two of them: plain text, in keys and filters, and JSON.
-/

import OData.Number.Shortest

namespace OData.Number

/-- The decisions of a written form. A number whose first digit stands `point`
places before the decimal point is written without exponent when `point` lies in
the given range. -/
structure Style where
  /-- Which of two equally near decimals is printed. -/
  tie : Tie
  /-- Least `point` written without exponent, if there is one. -/
  leastPoint : Option Int
  /-- Greatest `point` written without exponent, if there is one. -/
  greatestPoint : Option Int
  /-- Whole numbers end in `.0`. -/
  keepsPoint : Bool

/-- Plain text never has an exponent, writes whole numbers without a point, and
rounds an exact tie up. -/
def Style.plain : Style := ⟨.upward, none, none, false⟩

/-- JSON has an exponent below `1e-5` and from `1e16` on, writes whole numbers
with a point, and rounds an exact tie to the even digit. -/
def Style.json : Style := ⟨.toEven, some (-4), some 16, true⟩

/-- The style writes a number with this point position without exponent. -/
def Style.isPositional (style : Style) (point : Int) : Bool :=
  style.leastPoint.all (· ≤ point) && style.greatestPoint.all (point ≤ ·)

/-- Decimal digits of a natural number. -/
def natChars (n : Nat) : List Char := Nat.toDigits 10 n

/-- Digits with an exponent, `1.5e-7`; the sign of the exponent is written. -/
def scientific (digits : List Char) (exponent : Int) : List Char :=
  let mantissa := match digits with
    | [] => []
    | [d] => [d]
    | d :: more => d :: '.' :: more
  let sign := if exponent < 0 then '-' else '+'
  mantissa ++ 'e' :: sign :: natChars exponent.natAbs

/-- Digits with the point after `point` of them, zeros filled in as needed. -/
def positional (keepsPoint : Bool) (digits : List Char) (point : Int) : List Char :=
  if point ≤ 0 then '0' :: '.' :: List.replicate (-point).toNat '0' ++ digits
  else if digits.length ≤ point.toNat then
    digits ++ List.replicate (point.toNat - digits.length) '0' ++
      (if keepsPoint then ['.', '0'] else [])
  else digits.take point.toNat ++ '.' :: digits.drop point.toNat

/-- Written form of a value without its sign. -/
def Style.magnitude (style : Style) (value : Binary) : List Char :=
  if value.significand = 0 then if style.keepsPoint then ['0', '.', '0'] else ['0']
  else
    let shortest := value.shortest style.tie
    let all := natChars shortest.digits
    let digits := (all.reverse.dropWhile (· == '0')).reverse
    let point := shortest.exponent + all.length
    if style.isPositional point then positional style.keepsPoint digits point
    else scientific digits (point - 1)

/-- Written form of a float. -/
def Style.write (style : Style) (x : Float) : String :=
  match floatKind x with
  | .undefined => "NaN"
  | .infinite negative => if negative then "-inf" else "inf"
  | .finite value =>
      String.ofList
        (if value.negative then '-' :: style.magnitude value else style.magnitude value)

/-- Plain text of a float. -/
def plainText (x : Float) : String := Style.plain.write x

end OData.Number
