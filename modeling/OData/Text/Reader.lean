/-
# Readers

A reader takes what it can from the front of the characters and leaves the rest,
or fails. Readers are put together with `do`.
-/

import OData.Text.Character

namespace OData.Text

/-- Takes a value from the front of the characters. -/
abbrev Reader (α : Type) := StateT (List Char) Option α

namespace Reader

/-- Take exactly the given character. -/
def char (expected : Char) : Reader Unit := fun chars =>
  match chars with
  | c :: rest => if c = expected then some ((), rest) else none
  | [] => none

/-- Take one of the given characters. -/
def oneOf (expected : List Char) : Reader Char := fun chars =>
  match chars with
  | c :: rest => if expected.contains c then some (c, rest) else none
  | [] => none

/-- Take digits, at least `least` and at most `greatest` of them. -/
def number (least greatest : Nat) : Reader Nat := fun chars =>
  let digits := (chars.takeWhile Char.isDigit).take greatest
  if digits.length < least then none
  else some (digits.foldl (fun n c => n * 10 + (c.toNat - 48)) 0, chars.drop digits.length)

/-- Take all the digits there are, at least one. -/
def allDigits : Reader Nat := fun chars =>
  number 1 chars.length chars

/-- Pass over blanks. -/
def blanks : Reader Unit := fun chars => some ((), chars.dropWhile isBlank)

/-- Pass over the characters that satisfy a test. -/
def skipWhile (test : Char → Bool) : Reader Unit := fun chars => some ((), chars.dropWhile test)

/-- The next character, which is not taken. -/
def peek? : Reader (Option Char) := fun chars => some (chars.head?, chars)

/-- Nothing is left. -/
def finish : Reader Unit := fun chars => if chars.isEmpty then some ((), []) else none

/-- The value of a reader that takes all characters. -/
def wholly {α : Type} (reader : Reader α) (chars : List Char) : Option α :=
  ((do let value ← reader; finish; return value : Reader α) chars).map Prod.fst

end Reader

end OData.Text
