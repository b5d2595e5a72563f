/-
# Malformed JSON

What is wrong with a text that can not be read, and where: the line, and the bytes
of that line up to the place where reading stopped.
-/

import OData.Json.Print
import OData.Text.Escaped

namespace OData.Json

/-- What a value is, where another kind of value was expected. -/
inductive Found where
  | null
  | boolean (value : Bool)
  | number (value : Number)
  | text (value : String)
  | array
  | object

/-- What is wrong where reading stopped. -/
inductive Cause where
  /-- The text ends inside an array. -/
  | arrayEnds
  /-- The text ends inside an object. -/
  | objectEnds
  /-- The text ends inside quotes. -/
  | quoteEnds
  /-- The text ends where a value should be. -/
  | valueEnds
  /-- A name has no colon after it. -/
  | noColon
  /-- An item is followed by something else than a comma or the end of the array. -/
  | noArrayEnd
  /-- A member is followed by something else than a comma or the end of the object. -/
  | noObjectEnd
  /-- One of the three words is misspelled. -/
  | noWord
  /-- No value begins so. -/
  | noValue
  /-- The name of a member is no text. -/
  | noName
  /-- There is no such escape. -/
  | badEscape
  /-- A numeral breaks off, or has a leading zero. -/
  | badNumber
  /-- A number is too large to be kept. -/
  | numberRange
  /-- A text is not UTF-8. -/
  | notUtf8
  /-- A control character stands inside quotes. -/
  | controlCharacter
  /-- A surrogate stands alone. -/
  | loneSurrogate
  /-- The first half of a surrogate pair has no second half after it. -/
  | halfPair
  /-- A comma stands before the end of an array or object. -/
  | trailingComma
  /-- Something stands where nothing more should be. -/
  | trailingCharacters
  /-- Arrays and objects nest too deeply. -/
  | tooDeep
  /-- A value is not of the kind that was expected. -/
  | mismatch (found : Found) (expected : String)
  /-- A member occurs twice. -/
  | repeated (name : String)
  /-- An array of members ends too early. -/
  | tooShort (length : Nat) (expected : String)

/-- Wording of what was found. -/
def Found.message : Found → String
  | .null => "null"
  | .boolean value => "boolean `" ++ (if value then "true" else "false") ++ "`"
  | .number (.integer value) => "integer `" ++ toString value ++ "`"
  | .number value => "floating point `" ++ value.text ++ "`"
  | .text value => "string " ++ Text.visible value
  | .array => "sequence"
  | .object => "map"

/-- Wording of a cause. -/
def Cause.message : Cause → String
  | .arrayEnds => "EOF while parsing a list"
  | .objectEnds => "EOF while parsing an object"
  | .quoteEnds => "EOF while parsing a string"
  | .valueEnds => "EOF while parsing a value"
  | .noColon => "expected `:`"
  | .noArrayEnd => "expected `,` or `]`"
  | .noObjectEnd => "expected `,` or `\x7d`"
  | .noWord => "expected ident"
  | .noValue => "expected value"
  | .noName => "key must be a string"
  | .badEscape => "invalid escape"
  | .badNumber => "invalid number"
  | .numberRange => "number out of range"
  | .notUtf8 => "invalid unicode code point"
  | .controlCharacter =>
      "control character (\\u0000-\\u001F) found while parsing a string"
  | .loneSurrogate => "lone leading surrogate in hex escape"
  | .halfPair => "unexpected end of hex escape"
  | .trailingComma => "trailing comma"
  | .trailingCharacters => "trailing characters"
  | .tooDeep => "recursion limit exceeded"
  | .mismatch found expected => "invalid type: " ++ found.message ++ ", expected " ++ expected
  | .repeated name => "duplicate field `" ++ name ++ "`"
  | .tooShort length expected =>
      "invalid length " ++ toString length ++ ", expected " ++ expected

/-- What is wrong with a text, and where. -/
structure Malformation where
  cause : Cause
  /-- Number of the line, counted from 1. -/
  line : Nat
  /-- Number of bytes of the line before the place. -/
  column : Nat

/-- Wording of a malformation. -/
def Malformation.message (malformation : Malformation) : String :=
  malformation.cause.message ++ " at line " ++ toString malformation.line ++ " column " ++
    toString malformation.column

/-- The byte that ends a line. -/
def lineFeed : UInt8 := 0x0A

/-- The malformation for a cause after some bytes of a text. -/
def Malformation.after (cause : Cause) (before : List UInt8) : Malformation := {
  cause := cause
  line := before.count lineFeed + 1
  column := (before.reverse.takeWhile (· != lineFeed)).length }

end OData.Json
