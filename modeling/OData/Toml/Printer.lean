/-
# Printed TOML

Configuration files as they are saved: headers, keys and values on lines of their
own, longer arrays with one item on each line. A text stands in the plainest
quotes that need no escapes.
-/

import OData.Text.Search

namespace OData.Toml

/-- A character that a text can not hold without an escape. -/
def needsEscape (c : Char) : Bool :=
  (c.toNat < 0x20 && c != '\t' && c != '\n') || c.toNat == 0x7F

/-- Greatest number of equal characters in a row. -/
def longestRun (mark : Char) (chars : List Char) : Nat :=
  (chars.foldl (fun (run : Nat × Nat) c =>
    let present := if c = mark then run.1 + 1 else 0
    (present, max run.2 present)) (0, 0)).2

/-- Hexadecimal digits in capitals, four at least. -/
def hexDigits (n : Nat) : List Char :=
  let digits := (Nat.toDigits 16 n).map Char.toUpper
  List.replicate (4 - digits.length) '0' ++ digits

/-- A character inside double quotes; in a text of several lines, line breaks
stand for themselves. -/
def escaped (multiline : Bool) (c : Char) : List Char :=
  if c = '\x08' then ['\\', 'b']
  else if c = '\t' then ['\\', 't']
  else if c = '\n' then if multiline then ['\n'] else ['\\', 'n']
  else if c = '\x0c' then ['\\', 'f']
  else if c = '\r' then ['\\', 'r']
  else if c = '\\' then ['\\', '\\']
  else if c.toNat < 0x20 || c.toNat == 0x7F then '\\' :: 'u' :: hexDigits c.toNat
  else [c]

/-- The characters between double quotes; every quote past the allowed number in a
row is escaped. -/
def escapedChars (multiline : Bool) (allowed run : Nat) : List Char → List Char
  | [] => []
  | c :: rest =>
      if c = '"' then
        if allowed ≤ run then '\\' :: '"' :: escapedChars multiline allowed 0 rest
        else '"' :: escapedChars multiline allowed (run + 1) rest
      else escaped multiline c ++ escapedChars multiline allowed 0 rest

/-- A text in double quotes on one line. -/
def basic (chars : List Char) : List Char :=
  '"' :: (escapedChars false 0 0 chars ++ ['"'])

/-- A text between three quotes; one with line breaks begins on a new line. -/
def multiline (quote : Char) (chars content : List Char) : List Char :=
  let quotes := [quote, quote, quote]
  quotes ++ (if chars.contains '\n' then ['\n'] else []) ++ content ++ quotes

/-- A text as a value. -/
def quotedChars (chars : List Char) : List Char :=
  let escapes := chars.any needsEscape
  let lines := chars.contains '\n'
  let backslash := chars.contains '\\'
  if !escapes && !backslash && !chars.contains '"' && !lines then basic chars
  else if !escapes && !chars.contains '\'' && !lines then '\'' :: (chars ++ ['\''])
  else if !escapes && !backslash && longestRun '"' chars ≤ 2 then
    multiline '"' chars (escapedChars true 2 0 chars)
  else if !escapes && longestRun '\'' chars ≤ 2 then multiline '\'' chars chars
  else if lines then multiline '"' chars (escapedChars true 2 0 chars)
  else basic chars

/-- A text as a value. -/
def quoted (text : String) : String := String.ofList (quotedChars text.toList)

/-- A part of a key, in quotes only if it needs them. -/
def keyText (text : String) : String :=
  let chars := text.toList
  let escapes := chars.any fun c => needsEscape c || c == '\n'
  let bare := fun (c : Char) => c.isAlphanum || c == '_' || c == '-'
  if !chars.isEmpty && chars.all bare then text
  else if !escapes && !chars.contains '\\' && !chars.contains '"' then
    String.ofList (basic chars)
  else if !escapes && !chars.contains '\'' then String.ofList ('\'' :: (chars ++ ['\'']))
  else String.ofList (basic chars)

/-- An array of texts. Two items or more stand on lines of their own. -/
def textArray (texts : List String) : String :=
  match texts with
  | [] => "[]"
  | [text] => "[" ++ quoted text ++ "]"
  | _ => "[\n" ++ String.join (texts.map fun text => "    " ++ quoted text ++ ",\n") ++ "]"

/-- A truth value. -/
def flag (value : Bool) : String := if value then "true" else "false"

/-- A line with a key and a value. -/
def line (key value : String) : String := key ++ " = " ++ value ++ "\n"

/-- The line of a table's header. -/
def headerLine (path : List String) : String :=
  "[" ++ ".".intercalate (path.map keyText) ++ "]\n"

end OData.Toml
