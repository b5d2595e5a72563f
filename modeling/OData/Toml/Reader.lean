/-
# Reading TOML

Configuration files: headers of tables, and keys with texts, truth values,
integers and arrays. A file is read as a sequence of statements, which are then
carried out one after another.
-/

import OData.Number.Numeral
import OData.Text.Reader
import OData.Text.Search
import OData.Toml.Value

namespace OData.Toml

open Text (Reader)
open Text.Reader

/-- A space or a tab. -/
def isSpace (c : Char) : Bool := c == ' ' || c == '\t'

/-- Control characters other than the tab may not stand in texts and comments. -/
def isControl (c : Char) : Bool := (c.toNat < 0x20 && c != '\t') || c.toNat == 0x7F

/-- Pass over spaces and tabs. -/
def spaces : Reader Unit := skipWhile isSpace

/-- Pass over a comment, if there is one. -/
def comment : Reader Unit := do
  if (← peek?) == some '#' then skipWhile fun c => !isControl c

/-- Pass over one line break, if there is one. -/
def lineBreak? : Reader Bool := fun chars =>
  match chars with
  | '\n' :: rest => some (true, rest)
  | '\r' :: '\n' :: rest => some (true, rest)
  | _ => some (false, chars)

/-- The line ends here, but for spaces and a comment. -/
def lineEnd : Reader Unit := do
  spaces
  comment
  if !(← lineBreak?) then finish

/-- Pass over spaces, comments and line breaks, at most `limit` lines of them. -/
def gap : (limit : Nat) → Reader Unit
  | 0 => spaces
  | limit + 1 => do
      spaces
      comment
      if ← lineBreak? then gap limit

/-- Pass over spaces, comments and line breaks. -/
def anyGap : Reader Unit := do gap (← get).length

/-- The value of a hexadecimal digit of either case. -/
def hexValue? (c : Char) : Option Nat :=
  if c.isDigit then some (c.toNat - 48)
  else if 'a' ≤ c ∧ c ≤ 'f' then some (c.toNat - 87)
  else if 'A' ≤ c ∧ c ≤ 'F' then some (c.toNat - 55)
  else none

/-- The character that hexadecimal digits number. -/
def hexChar? (digits : List Char) : Option Char := do
  let values ← digits.mapM hexValue?
  let code := values.foldl (fun n d => n * 16 + d) 0
  if h : code.isValidChar then some (Char.ofNatAux code h) else none

/-- The character that a short escape stands for. -/
def escaped? (c : Char) : Option Char :=
  if c = 'b' then some '\x08'
  else if c = 't' then some '\t'
  else if c = 'n' then some '\n'
  else if c = 'f' then some '\x0c'
  else if c = 'r' then some '\r'
  else if c = '"' then some '"'
  else if c = '\\' then some '\\'
  else none

/-- The characters of a text with escapes, up to its closing quote, and the rest. -/
def basicChars? : (limit : Nat) → List Char → Option (List Char × List Char)
  | _, [] => none
  | 0, _ => none
  | limit + 1, c :: rest =>
      if c = '"' then some ([], rest)
      else if isControl c then none
      else if c = '\\' then
        match rest with
        | [] => none
        | mark :: tail => do
            let width := if mark = 'u' then 4 else if mark = 'U' then 8 else 0
            let char ←
              if width = 0 then escaped? mark
              else if tail.length < width then none
              else hexChar? (tail.take width)
            let (chars, after) ← basicChars? limit (tail.drop width)
            return (char :: chars, after)
      else do
        let (chars, after) ← basicChars? limit rest
        return (c :: chars, after)

/-- A text in double quotes. -/
def basicString : Reader String := do
  char '"'
  let chars ← get
  let (content, rest) ← basicChars? chars.length chars
  set rest
  return String.ofList content

/-- A text in single quotes, which has no escapes. -/
def literalString : Reader String := do
  char '\''
  let chars ← get
  let content := chars.takeWhile fun c => c != '\'' && !isControl c
  set (chars.drop content.length)
  char '\''
  return String.ofList content

/-- A character of a key without quotes. -/
def isBare (c : Char) : Bool := c.isAlphanum || c == '_' || c == '-'

/-- One part of a key. -/
def keyPart : Reader String := do
  match ← peek? with
  | some '"' => basicString
  | some '\'' => literalString
  | _ =>
      let chars ← get
      let bare := chars.takeWhile isBare
      if bare.isEmpty then failure
      set (chars.drop bare.length)
      return String.ofList bare

/-- The parts of a key after the first one, each after a dot. -/
def moreKeyParts : (limit : Nat) → Reader (List String)
  | 0 => return []
  | limit + 1 => do
      spaces
      if (← peek?) == some '.' then
        char '.'
        spaces
        let part ← keyPart
        let parts ← moreKeyParts limit
        return part :: parts
      else return []

/-- A key, its parts with dots between them. -/
def key : Reader (List String) := do
  let part ← keyPart
  let parts ← moreKeyParts (← get).length
  return part :: parts

/-- Digits with single underscores between them. -/
def groupedDigits? (chars : List Char) : Option (List Char) :=
  let groups := Text.splitChars '_' chars
  if groups.all fun group => !group.isEmpty && group.all Char.isDigit then some groups.flatten
  else none

/-- An integer of 64 bits; a zero leads only alone. -/
def integerNumeral : Reader Int := do
  let chars ← get
  let written := chars.takeWhile fun c =>
    c.isAlphanum || c == '_' || c == '+' || c == '-' || c == '.' || c == ':'
  let (negative, digits) := match written with
    | '-' :: rest => (true, rest)
    | '+' :: rest => (false, rest)
    | _ => (false, written)
  let plain ← groupedDigits? digits
  if plain.head? == some '0' && plain.length != 1 then failure
  let magnitude := plain.foldl (fun n c => n * 10 + (c.toNat - 48)) 0
  let value : Int := if negative then -Int.ofNat magnitude else Int.ofNat magnitude
  if !Number.fitsInt64 value then failure
  set (chars.drop written.length)
  return value

/-- A truth value. -/
def truthValue : Reader Bool := do
  let chars ← get
  let word := chars.takeWhile isBare
  set (chars.drop word.length)
  if word == "true".toList then return true
  else if word == "false".toList then return false
  else failure

/-- The items of an array after its opening bracket, given the reader of one. -/
def items (value : Reader Toml) : (limit : Nat) → Reader (List Toml)
  | 0 => failure
  | limit + 1 => do
      anyGap
      if (← peek?) == some ']' then
        char ']'
        return []
      let item ← value
      anyGap
      if (← peek?) == some ',' then
        char ','
        let rest ← items value limit
        return item :: rest
      else
        char ']'
        return [item]

/-- A value whose arrays nest at most `depth` deep. -/
def valueWithin : (depth : Nat) → Reader Toml
  | 0 => failure
  | depth + 1 => do
      match ← peek? with
      | some '"' => return .string (← basicString)
      | some '\'' => return .string (← literalString)
      | some 't' => return .boolean (← truthValue)
      | some 'f' => return .boolean (← truthValue)
      | some '[' =>
          char '['
          return .array (← items (valueWithin depth) (← get).length)
      | _ => return .integer (← integerNumeral)

/-- Greatest nesting of arrays. -/
def greatestDepth : Nat := 80

/-- One statement of a file. -/
inductive Statement where
  /-- The header of a table. -/
  | header (path : List String)
  /-- A key with its value. -/
  | entry (path : List String) (value : Toml)

/-- A statement and the end of its line. -/
def statement : Reader Statement := do
  let first ← peek?
  let read ←
    if first == some '[' then do
      char '['
      spaces
      let path ← key
      spaces
      char ']'
      pure (Statement.header path)
    else do
      let path ← key
      spaces
      char '='
      spaces
      let value ← valueWithin greatestDepth
      pure (Statement.entry path value)
  lineEnd
  return read

/-- The statements of a file, at most `limit` of them. -/
def statements : (limit : Nat) → Reader (List Statement)
  | 0 => return []
  | limit + 1 => do
      anyGap
      match ← peek? with
      | none => return []
      | some _ =>
          let first ← statement
          let rest ← statements limit
          return first :: rest

/-- The table that statements describe, after the header `path`. -/
def carryOut : (path : List String) → Entries → List Statement → Option Entries
  | _, entries, [] => some entries
  | _, entries, .header path :: rest => do
      let opened ← entries.openTable path
      carryOut path opened rest
  | path, entries, .entry key value :: rest => do
      let assigned ←
        Entries.within .implied (fun _ => true) (Entries.assign key value) path entries
      carryOut path assigned rest

/-- The table of a file. -/
def read? (content : String) : Option Toml := do
  let chars := content.toList
  let statements ← wholly (statements (chars.length + 1)) chars
  let entries ← carryOut [] [] statements
  return .table (Node.values entries)

end OData.Toml
