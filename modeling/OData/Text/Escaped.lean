/-
# Escaped texts

Three ways to write a text so that nothing in it is taken for what stands around it.
In a query every byte but the unreserved ones is written `%XX`, so no separator can
come from a value. In keys and filters a text stands between single quotes and a quote
inside it is written twice, so the literal ends at the first quote that stands alone.
In messages a text stands between double quotes, and whatever could not be seen there
is written by its number.
-/

namespace OData.Text

/-! ## Percent encoding -/

/-- The bytes that stand for themselves in a query: letters, digits, `-`, `_`,
`.` and `~`. -/
def isUnreserved (b : UInt8) : Bool :=
  (0x41 ≤ b && b ≤ 0x5A) || (0x61 ≤ b && b ≤ 0x7A) || (0x30 ≤ b && b ≤ 0x39) ||
    b == 0x2D || b == 0x5F || b == 0x2E || b == 0x7E

/-- Hexadecimal digit with capital letters. -/
def hexDigit (n : Nat) : Char :=
  if n < 10 then Char.ofNat (48 + n) else Char.ofNat (55 + n)

/-- The text of one byte: itself when unreserved, else `%` and two digits. -/
def percentByte (b : UInt8) : List Char :=
  if isUnreserved b then [Char.ofNat b.toNat]
  else ['%', hexDigit (b.toNat / 16), hexDigit (b.toNat % 16)]

/-- Percent-encode a text, byte by byte of its UTF-8 form. -/
def percentEncode (text : String) : String :=
  String.ofList (text.toUTF8.data.toList.flatMap percentByte)

/-! ## Quoted literals -/

/-- Every quote written twice. -/
def doubleQuotes (chars : List Char) : List Char :=
  chars.flatMap fun c => if c = '\'' then ['\'', '\''] else [c]

/-- A text between quotes. -/
def quote (text : String) : String :=
  String.ofList ('\'' :: (doubleQuotes text.toList ++ ['\'']))

theorem doubleQuotes_append (first second : List Char) :
    doubleQuotes (first ++ second) = doubleQuotes first ++ doubleQuotes second :=
  List.flatMap_append

/-- Other characters come up in a literal as often as in its text. -/
theorem count_doubleQuotes {c : Char} (isOther : c ≠ '\'') (chars : List Char) :
    (doubleQuotes chars).count c = chars.count c := by
  induction chars with
  | nil => rfl
  | cons first rest ih =>
      have alone : (doubleQuotes [first]).count c = [first].count c := by
        by_cases isQuote : first = '\''
        · simp [doubleQuotes, isQuote, isOther.symm]
        · simp [doubleQuotes, isQuote]
      rw [← List.singleton_append, doubleQuotes_append, List.count_append, alone, ih,
        List.count_append]

theorem count_quote {c : Char} (isOther : c ≠ '\'') (text : String) :
    (quote text).toList.count c = text.toList.count c := by
  simp [quote, count_doubleQuotes isOther, isOther.symm]

/-! ## Texts in messages -/

/-- Ranges of code points that are escaped although they are no control characters. -/
def hiddenRanges : List (Nat × Nat) :=
  [(0x7F, 0xA0), (0xAD, 0xAD), (0x300, 0x36F), (0x483, 0x489), (0x591, 0x5BD), (0x600, 0x605),
   (0x64B, 0x65F), (0x1680, 0x1680), (0x2000, 0x200F), (0x2028, 0x202F), (0x205F, 0x206F),
   (0x20D0, 0x20F0), (0x3000, 0x3000), (0xE000, 0xF8FF), (0xFE00, 0xFE0F), (0xFEFF, 0xFEFF),
   (0xFFF0, 0xFFFB), (0xFFFE, 0xFFFF), (0xE0000, 0x10FFFF)]

/-- The character is shown by its number. -/
def isHidden (c : Char) : Bool :=
  c.toNat < 0x20 || hiddenRanges.any fun range => range.1 ≤ c.toNat && c.toNat ≤ range.2

/-- A character between quotes. -/
def visibleChar (c : Char) : List Char :=
  if c = '"' then ['\\', '"']
  else if c = '\\' then ['\\', '\\']
  else if c = '\n' then ['\\', 'n']
  else if c = '\r' then ['\\', 'r']
  else if c = '\t' then ['\\', 't']
  else if c = '\x00' then ['\\', '0']
  else if isHidden c then ['\\', 'u', '\x7b'] ++ Nat.toDigits 16 c.toNat ++ ['\x7d']
  else [c]

/-- A text between double quotes, for people to read. -/
def visible (text : String) : String :=
  String.ofList ('"' :: (text.toList.flatMap visibleChar ++ ['"']))

end OData.Text
