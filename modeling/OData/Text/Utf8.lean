/-
# Bytes shown as text

Bodies are bytes, and need not be UTF-8. Where one is shown, each longest
ill-formed stretch that could still have begun a character becomes one
replacement character, and reading goes on with the byte that broke it.
-/

namespace OData.Text

/-- An unfinished character: how many bytes it still owes, what it is worth so
far, and the range in which its next byte must lie. -/
structure Unfinished where
  /-- Bytes still owed, at least one. -/
  owed : Nat
  /-- The bits read so far. -/
  bits : Nat
  /-- Least next byte. -/
  least : UInt8 := 0x80
  /-- Greatest next byte. -/
  greatest : UInt8 := 0xBF

/-- What a byte does between characters. -/
inductive Lead where
  /-- The byte is a character by itself. -/
  | alone
  /-- The byte begins a longer character. -/
  | begins (rest : Unfinished)
  /-- No character begins so. -/
  | illFormed

/-- Reading of a byte between characters. The narrowed second bytes keep out
overlong forms, surrogates and code points past U+10FFFF. -/
def lead (b : UInt8) : Lead :=
  if b ≤ 0x7F then .alone
  else if 0xC2 ≤ b && b ≤ 0xDF then .begins ⟨1, b.toNat - 0xC0, 0x80, 0xBF⟩
  else if b == 0xE0 then .begins ⟨2, 0, 0xA0, 0xBF⟩
  else if b == 0xED then .begins ⟨2, 0xD, 0x80, 0x9F⟩
  else if 0xE1 ≤ b && b ≤ 0xEF then .begins ⟨2, b.toNat - 0xE0, 0x80, 0xBF⟩
  else if b == 0xF0 then .begins ⟨3, 0, 0x90, 0xBF⟩
  else if 0xF1 ≤ b && b ≤ 0xF3 then .begins ⟨3, b.toNat - 0xF0, 0x80, 0xBF⟩
  else if b == 0xF4 then .begins ⟨3, 4, 0x80, 0x8F⟩
  else .illFormed

/-- The sign that stands for an ill-formed stretch. -/
def replacement : Char := '\uFFFD'

/-- What a byte between characters adds to the text, and where it leads. -/
def showLead (b : UInt8) : List Char × Option Unfinished :=
  match lead b with
  | .alone => ([Char.ofNat b.toNat], none)
  | .begins rest => ([], some rest)
  | .illFormed => ([replacement], none)

/-- What a byte adds to the text, and where it leads. A byte that breaks an
unfinished character replaces it and is then read between characters. -/
def showByte : Option Unfinished → UInt8 → List Char × Option Unfinished
  | none, b => showLead b
  | some part, b =>
      if part.least ≤ b && b ≤ part.greatest then
        let bits := part.bits * 64 + (b.toNat - 0x80)
        if part.owed ≤ 1 then ([Char.ofNat bits], none)
        else ([], some { owed := part.owed - 1, bits := bits })
      else (replacement :: (showLead b).1, (showLead b).2)

/-- Characters of a byte sequence read from the given place on. -/
def showBytes : Option Unfinished → List UInt8 → List Char
  | none, [] => []
  | some _, [] => [replacement]
  | place, b :: rest => (showByte place b).1 ++ showBytes (showByte place b).2 rest

/-- The text by which a body is shown. -/
def shown (bytes : ByteArray) : String :=
  String.ofList (showBytes none bytes.data.toList)

end OData.Text
