/-
# Finding malformations

Where and why a text does not have the shape it should have. The text is walked
from front to end, and the first thing wrong is reported. Parts that nobody asks
for are checked for their form only; there, a text may hold lone surrogates, a
number may be of any size, and nesting has no limit.
-/

import OData.Json.Malformation

namespace OData.Json

/-- What a text is expected to hold. -/
inductive Shape where
  /-- Any value. -/
  | anything
  /-- Any value that is not asked for. -/
  | ignored
  /-- A text. -/
  | text
  /-- Null, or something else. -/
  | nullable (shape : Shape)
  /-- An array of values. -/
  | list (item : Shape)
  /-- An object with a member of this name among others, or an array of that
  member, which may be empty when the member has a default. -/
  | structure_ (title member : String) (hasDefault : Bool) (shape : Shape)

/-- A cause, and the bytes that were not yet read when it arose. -/
structure Trouble where
  cause : Cause
  left : List UInt8

/-- What is left after a part of the text, unless something is wrong with it. -/
abbrev Walk := Except Trouble (List UInt8)

/-- Something is wrong with the bytes read so far. -/
def stop {α : Type} (cause : Cause) (left : List UInt8) : Except Trouble α := .error ⟨cause, left⟩

/-- Something is wrong with the next byte. -/
def stopAt {α : Type} (cause : Cause) (left : List UInt8) : Except Trouble α :=
  stop cause (left.drop 1)

/-- Pass over spaces. -/
def skipSpaces (bytes : List UInt8) : List UInt8 := bytes.dropWhile isSpace

/-- Pass over digits. -/
def skipDigits (bytes : List UInt8) : List UInt8 := bytes.dropWhile isDigit

/-- The rest of a word. -/
def walkWord : (letters : List UInt8) → List UInt8 → Walk
  | [], bytes => .ok bytes
  | _ :: _, [] => stop .valueEnds []
  | letter :: letters, b :: rest =>
      if b = letter then walkWord letters rest else stop .noWord rest

/-- Why a numeral breaks off at the end of the text. -/
def numeralEnds (asked : Bool) : Cause := if asked then .valueEnds else .badNumber

/-- The exponent of a numeral, if there is one. -/
def walkExponent (asked : Bool) (bytes : List UInt8) : Walk :=
  match bytes with
  | mark :: rest =>
      if mark = 0x65 || mark = 0x45 then
        let digits := match rest with
          | sign :: tail => if sign = 0x2D || sign = 0x2B then tail else rest
          | [] => rest
        match digits with
        | [] => stop (numeralEnds asked) []
        | b :: tail => if isDigit b then .ok (skipDigits tail) else stop .badNumber tail
      else .ok bytes
  | [] => .ok []

/-- The fraction and the exponent of a numeral, if there are any. -/
def walkFraction (asked : Bool) (bytes : List UInt8) : Walk :=
  match bytes with
  | 0x2E :: rest =>
      match rest with
      | [] => stop (numeralEnds asked) []
      | b :: _ =>
          if isDigit b then walkExponent asked (skipDigits rest) else stopAt .badNumber rest
  | _ => walkExponent asked bytes

/-- A numeral without its sign. -/
def walkMagnitude (asked : Bool) (bytes : List UInt8) : Walk :=
  match bytes with
  | [] => stop (numeralEnds asked) []
  | b :: rest =>
      if b = 0x30 then
        if rest.head?.any isDigit then stopAt .badNumber rest else walkFraction asked rest
      else if isDigit b then walkFraction asked (skipDigits rest)
      else stop .badNumber rest

/-- A numeral, whatever it is worth. -/
def walkNumeral (asked : Bool) (bytes : List UInt8) : Walk :=
  match bytes with
  | 0x2D :: rest => walkMagnitude asked rest
  | _ => walkMagnitude asked bytes

/-- Digits of an exponent that are not read any more because it is too large. -/
def excessDigits (value : Nat) : List Nat → List Nat
  | [] => []
  | d :: rest =>
      if exponentLimit < Int.ofNat (value * 10 + d) then rest
      else excessDigits (value * 10 + d) rest

/-- What is left where a number turns out to be too large, given what is left after
all of it. -/
def rangeLeft (numeral : Numeral) (bytes after : List UInt8) : List UInt8 :=
  match numeral.exponent with
  | some (_, digits) =>
      if exponentOverflows numeral.exponent then
        bytes.drop (bytes.length - after.length - (excessDigits 0 digits).length)
      else after
  | none => after

/-- A number, with its value. -/
def walkNumber (bytes : List UInt8) : Except Trouble (Number × List UInt8) := do
  let after ← walkNumeral true bytes
  match takeNumeral? bytes with
  | none => stop .badNumber after
  | some (numeral, _) =>
      match numeral.value? with
      | some value => return (value, after)
      | none => stop .numberRange (rangeLeft numeral bytes after)

/-- What is being read between quotes. -/
inductive QuotePlace where
  /-- Plain characters. -/
  | plain
  /-- The character after a backslash. -/
  | escape
  /-- The digits of an escaped unit, after the first half of a pair if there is one. -/
  | digits (afterHigh : Bool) (seen : List UInt8)
  /-- The backslash that begins the second half of a pair. -/
  | pairSlash
  /-- The letter that follows it. -/
  | pairLetter

/-- The unit that four digits stand for. -/
def unitOf? : List UInt8 → Option Nat
  | [h1, h2, h3, h4] => do
      let d1 ← hexValue? h1
      let d2 ← hexValue? h2
      let d3 ← hexValue? h3
      let d4 ← hexValue? h4
      return ((d1 * 16 + d2) * 16 + d3) * 16 + d4
  | _ => none

/-- Where reading goes on after an escaped unit. Texts that are not asked for may
hold any units. -/
def afterUnit (asked afterHigh : Bool) (code : Nat) : Except Cause QuotePlace :=
  let isLow := 0xDC00 ≤ code && code ≤ 0xDFFF
  let isHigh := 0xD800 ≤ code && code ≤ 0xDBFF
  if !asked then .ok .plain
  else if afterHigh then if isLow then .ok .plain else .error .loneSurrogate
  else if isLow then .error .loneSurrogate
  else if isHigh then .ok .pairSlash
  else .ok .plain

/-- A text up to its closing quote. -/
def walkQuote (asked : Bool) : QuotePlace → List UInt8 → Walk
  | _, [] => stop .quoteEnds []
  | .plain, b :: rest =>
      if b = 0x22 then .ok rest
      else if b = 0x5C then walkQuote asked .escape rest
      else if b < 0x20 then stop .controlCharacter (if asked then rest else b :: rest)
      else walkQuote asked .plain rest
  | .escape, b :: rest =>
      if b = 0x75 then
        if rest.length < 4 then stop .quoteEnds [] else walkQuote asked (.digits false []) rest
      else if (shortEscape? b).isSome then walkQuote asked .plain rest
      else stop .badEscape rest
  | .pairSlash, b :: rest =>
      if b = 0x5C then walkQuote asked .pairLetter rest else stop .halfPair rest
  | .pairLetter, b :: rest =>
      if b = 0x75 then
        if rest.length < 4 then stop .quoteEnds [] else walkQuote asked (.digits true []) rest
      else stop .halfPair rest
  | .digits afterHigh seen, b :: rest =>
      if seen.length < 3 then walkQuote asked (.digits afterHigh (seen ++ [b])) rest
      else match unitOf? (seen ++ [b]) with
        | none => stop .badEscape rest
        | some code =>
            match afterUnit asked afterHigh code with
            | .ok place => walkQuote asked place rest
            | .error cause => stop cause rest

/-- A text after its opening quote, with what it stands for. -/
def walkText (bytes : List UInt8) : Except Trouble (String × List UInt8) := do
  let after ← walkQuote true .plain bytes
  match (takeText? bytes).bind fun found => textOf? found.1 with
  | some value => return (value, after)
  | none => stop .notUtf8 after

/-- A value of another kind than expected. Arrays and objects are not entered. -/
def walkMismatch (expected : String) (bytes : List UInt8) : Walk :=
  match bytes with
  | [] => stop .valueEnds []
  | b :: rest =>
      match word? b with
      | some (letters, token) => do
          let after ← walkWord letters rest
          match token with
          | .boolean value => stop (.mismatch (.boolean value) expected) after
          | _ => stop (.mismatch .null expected) after
      | none =>
          if b = 0x22 then do
            let (value, after) ← walkText rest
            stop (.mismatch (.text value) expected) after
          else if b = 0x5B then stop (.mismatch .array expected) bytes
          else if b = 0x7B then stop (.mismatch .object expected) bytes
          else if b = 0x2D || isDigit b then do
            let (value, after) ← walkNumber bytes
            stop (.mismatch (.number value) expected) after
          else stopAt .noValue bytes

/-- A value that is no container. -/
def walkScalar (asked : Bool) (b : UInt8) (rest : List UInt8) : Walk :=
  match word? b with
  | some (letters, _) => walkWord letters rest
  | none =>
      if b = 0x22 then
        if asked then (walkText rest).map Prod.snd else walkQuote false .plain rest
      else if b = 0x2D || isDigit b then
        if asked then (walkNumber (b :: rest)).map Prod.snd else walkNumeral false (b :: rest)
      else stopAt .noValue (b :: rest)

/-- The colon after a name. -/
def walkColon (bytes : List UInt8) : Walk :=
  match skipSpaces bytes with
  | [] => stop .objectEnds []
  | b :: rest => if b = 0x3A then .ok rest else stopAt .noColon (b :: rest)

/-- The end of an array that has no more items to offer. -/
def walkArrayEnd (bytes : List UInt8) : Walk :=
  match skipSpaces bytes with
  | [] => stop .arrayEnds []
  | b :: rest =>
      if b = 0x5D then .ok rest
      else if b = 0x2C then
        match skipSpaces rest with
        | 0x5D :: tail => stopAt .trailingComma (0x5D :: tail)
        | tail => stopAt .trailingCharacters tail
      else stopAt .trailingCharacters (b :: rest)

/-- What is left after the end of an object, if it is there. -/
def pastObjectEnd (bytes : List UInt8) : List UInt8 :=
  match skipSpaces bytes with
  | 0x7D :: rest => rest
  | rest => rest

/-- What is known of the members of an object. -/
structure Members where
  /-- The member that is asked for, with its shape. Without one, all are alike. -/
  known : Option (String × Shape)
  /-- That member was read before. -/
  seen : Bool := false
  /-- The shape of all others. -/
  others : Shape

namespace Members

/-- The names of the members matter. -/
def asked (members : Members) : Bool :=
  match members.others, members.known with
  | .ignored, none => false
  | _, _ => true

/-- The member is the one that is asked for. -/
def knows (members : Members) (name : String) : Bool :=
  members.known.any fun known => known.1 == name

/-- The shape of a member. -/
def shapeOf (members : Members) (name : String) : Shape :=
  match members.known with
  | some (known, shape) => if known == name then shape else members.others
  | none => members.others

end Members

/-- The name of a member after its opening quote. Nobody asks for the names in
parts that nobody asks for. -/
def walkName (asked : Bool) (bytes : List UInt8) : Except Trouble (String × List UInt8) :=
  if asked then walkText bytes else (walkQuote false .plain bytes).map fun after => ("", after)

mutual

/-- A value of a shape, in which that many levels may still be entered. -/
def walk : (steps levels : Nat) → Shape → List UInt8 → Walk
  | 0, _, _, bytes => stop .noValue bytes
  | steps + 1, levels, shape, bytes =>
      match skipSpaces bytes with
      | [] => stop .valueEnds []
      | b :: rest =>
          match shape with
          | .anything =>
              if b = 0x5B then
                if levels = 0 then stopAt .tooDeep (b :: rest)
                else walkFirstItem steps (levels - 1) .anything rest
              else if b = 0x7B then
                if levels = 0 then stopAt .tooDeep (b :: rest)
                else walkFirstMember steps (levels - 1) ⟨none, false, .anything⟩ rest
              else walkScalar true b rest
          | .ignored =>
              if b = 0x5B then walkFirstItem steps levels .ignored rest
              else if b = 0x7B then walkFirstMember steps levels ⟨none, false, .ignored⟩ rest
              else walkScalar false b rest
          | .text =>
              if b = 0x22 then (walkText rest).map Prod.snd
              else walkMismatch "a string" (b :: rest)
          | .nullable inner =>
              if b = 0x6E then walkWord [0x75, 0x6C, 0x6C] rest
              else walk steps levels inner (b :: rest)
          | .list item =>
              if b = 0x5B then
                if levels = 0 then stopAt .tooDeep (b :: rest)
                else walkFirstItem steps (levels - 1) item rest
              else walkMismatch "a sequence" (b :: rest)
          | .structure_ title member hasDefault inner =>
              if b = 0x5B then
                if levels = 0 then stopAt .tooDeep (b :: rest)
                else match skipSpaces rest with
                  | [] => stop .arrayEnds []
                  | 0x5D :: tail =>
                      if hasDefault then .ok tail
                      else stop (.tooShort 0 ("struct " ++ title ++ " with 1 element")) tail
                  | items => do
                      let after ← walk steps (levels - 1) inner items
                      walkArrayEnd after
              else if b = 0x7B then
                if levels = 0 then stopAt .tooDeep (b :: rest)
                else
                  walkFirstMember steps (levels - 1) ⟨some (member, inner), false, .ignored⟩ rest
              else walkMismatch ("struct " ++ title) (b :: rest)

/-- The items of an array that was opened. -/
def walkFirstItem : (steps levels : Nat) → Shape → List UInt8 → Walk
  | 0, _, _, bytes => stop .noValue bytes
  | steps + 1, levels, shape, bytes =>
      match skipSpaces bytes with
      | [] => stop .arrayEnds []
      | b :: rest =>
          if b = 0x5D then .ok rest
          else do
            let after ← walk steps levels shape (b :: rest)
            walkNextItem steps levels shape after

/-- What comes after an item of an array. -/
def walkNextItem : (steps levels : Nat) → Shape → List UInt8 → Walk
  | 0, _, _, bytes => stop .noValue bytes
  | steps + 1, levels, shape, bytes =>
      match skipSpaces bytes with
      | [] => stop .arrayEnds []
      | b :: rest =>
          if b = 0x5D then .ok rest
          else if b = 0x2C then
            match shape, skipSpaces rest with
            | .ignored, items => do
                let after ← walk steps levels .ignored items
                walkNextItem steps levels .ignored after
            | _, 0x5D :: tail => stopAt .trailingComma (0x5D :: tail)
            | shape, items => do
                let after ← walk steps levels shape items
                walkNextItem steps levels shape after
          else stopAt .noArrayEnd (b :: rest)

/-- The members of an object that was opened. -/
def walkFirstMember : (steps levels : Nat) → Members → List UInt8 → Walk
  | 0, _, _, bytes => stop .noValue bytes
  | steps + 1, levels, members, bytes =>
      match skipSpaces bytes with
      | [] => stop .objectEnds []
      | b :: rest =>
          if b = 0x7D then .ok rest
          else if b = 0x22 then walkMember steps levels members rest
          else stopAt .noName (b :: rest)

/-- A member after the opening quote of its name. -/
def walkMember : (steps levels : Nat) → Members → List UInt8 → Walk
  | 0, _, _, bytes => stop .noValue bytes
  | steps + 1, levels, members, bytes => do
      let (name, afterName) ← walkName members.asked bytes
      if members.knows name && members.seen then
        stop (.repeated name) (pastObjectEnd afterName)
      else
        let value ← walkColon afterName
        let after ← walk steps levels (members.shapeOf name) value
        walkNextMember steps levels
          { members with seen := members.seen || members.knows name } after

/-- What comes after a member of an object. -/
def walkNextMember : (steps levels : Nat) → Members → List UInt8 → Walk
  | 0, _, _, bytes => stop .noValue bytes
  | steps + 1, levels, members, bytes =>
      match skipSpaces bytes with
      | [] => stop .objectEnds []
      | b :: rest =>
          if b = 0x7D then .ok rest
          else if b = 0x2C then
            match skipSpaces rest with
            | [] => stop (if members.asked then .valueEnds else .objectEnds) []
            | 0x22 :: name => walkMember steps levels members name
            | 0x7D :: tail =>
                stopAt (if members.asked then .trailingComma else .noName) (0x7D :: tail)
            | tail => stopAt .noName tail
          else stopAt .noObjectEnd (b :: rest)

end

/-- A whole text of a shape. At most three steps begin at the same byte. -/
def walkAll (shape : Shape) (bytes : List UInt8) : Except Trouble Unit := do
  let after ← walk (4 * bytes.length + 4) greatestDepth shape bytes
  match skipSpaces after with
  | [] => return ()
  | left => stopAt .trailingCharacters left

/-- What is wrong with a text that can not be read in a shape. -/
def diagnose (shape : Shape) (bytes : ByteArray) : Malformation :=
  let all := bytes.data.toList
  match walkAll shape all with
  | .ok () => .after .trailingCharacters all
  | .error trouble => .after trouble.cause (all.take (all.length - trouble.left.length))

/-- The value that a text of bytes stands for, or what is wrong with it. -/
def read (bytes : ByteArray) : Except Malformation Json :=
  match read? bytes with
  | some value => .ok value
  | none => .error (diagnose .anything bytes)

end OData.Json
