/-
# Printed JSON reads back

The printer escapes a text character by character, and the scanner takes it apart
byte by byte. This module ties the two together: a printed text is scanned as one
token, the pieces of that token stand for the text that was printed, and an object
with one text member is read back as it was. Escapes in other spellings, which the
scanner also takes, are no concern here.
-/

import OData.Json.Print

namespace OData.Json

/-! ## Bytes that stand for themselves -/

/-- A byte inside quotes that is neither a control character, nor a quote, nor a
backslash. -/
def IsOrdinary (b : UInt8) : Prop := ¬ b < 0x20 ∧ b ≠ 0x22 ∧ b ≠ 0x5C

theorem isOrdinary_ofNat {n : Nat} (small : n < 0x100) (printable : 0x20 ≤ n)
    (notQuote : n ≠ 0x22) (notBackslash : n ≠ 0x5C) : IsOrdinary (UInt8.ofNat n) := by
  have value : (UInt8.ofNat n).toNat = n := by simp [Nat.mod_eq_of_lt small]
  refine ⟨fun below => ?_, fun same => ?_, fun same => ?_⟩
  · rw [UInt8.lt_iff_toNat_lt, value] at below
    exact absurd printable (Nat.not_le.mpr below)
  · exact notQuote (value.symm.trans (congrArg UInt8.toNat same))
  · exact notBackslash (value.symm.trans (congrArg UInt8.toNat same))

/-- The bytes of a character that is printed as it is are all ordinary: beyond
ASCII the encoding uses bytes from `0x80` on only. -/
theorem isOrdinary_of_mem_utf8EncodeChar {c : Char} (printable : 0x20 ≤ c.toNat)
    (notQuote : c ≠ '"') (notBackslash : c ≠ '\\') {b : UInt8}
    (isByte : b ∈ String.utf8EncodeChar c) : IsOrdinary b := by
  have quoteCode : c.toNat ≠ 0x22 := fun same => notQuote (Char.toNat_inj.mp same)
  have backslashCode : c.toNat ≠ 0x5C := fun same => notBackslash (Char.toNat_inj.mp same)
  have code : c.val.toNat = c.toNat := rfl
  simp only [String.utf8EncodeChar, code] at isByte
  split at isByte
  · obtain rfl := List.mem_singleton.mp isByte
    exact isOrdinary_ofNat (by omega) printable quoteCode backslashCode
  · split at isByte
    · simp only [List.mem_cons, List.not_mem_nil, or_false] at isByte
      rcases isByte with rfl | rfl <;> apply isOrdinary_ofNat <;> omega
    · split at isByte
      · simp only [List.mem_cons, List.not_mem_nil, or_false] at isByte
        rcases isByte with rfl | rfl | rfl <;> apply isOrdinary_ofNat <;> omega
      · simp only [List.mem_cons, List.not_mem_nil, or_false] at isByte
        rcases isByte with rfl | rfl | rfl | rfl <;> apply isOrdinary_ofNat <;> omega

theorem utf8EncodeChar_ascii {c : Char} (ascii : c.toNat ≤ 0x7F) :
    String.utf8EncodeChar c = [UInt8.ofNat c.toNat] := by
  have code : c.val.toNat = c.toNat := rfl
  simp [String.utf8EncodeChar, code, ascii]

theorem bytes_toUTF8 (text : String) :
    text.toUTF8.data.toList = text.toList.flatMap String.utf8EncodeChar := by
  rw [String.toUTF8_eq_toByteArray, ← String.utf8Encode_toList, List.utf8Encode]
  simp

/-! ## One character -/

theorem takeText?_ordinary {bytes : List UInt8} (ordinary : ∀ b ∈ bytes, IsOrdinary b)
    (rest : List UInt8) :
    takeText? (bytes ++ rest) =
      (takeText? rest).map fun found => (bytes.map Piece.byte ++ found.1, found.2) := by
  induction bytes with
  | nil => simp
  | cons b bytes ih =>
      obtain ⟨printable, notQuote, notBackslash⟩ := ordinary b List.mem_cons_self
      have tail := ih fun other isMember => ordinary other (List.mem_cons_of_mem _ isMember)
      rw [List.cons_append, takeText?.eq_def]
      simp only [beq_iff_eq, notQuote, notBackslash, printable, if_false, tail]
      cases takeText? rest <;> rfl

theorem takeText?_shortEscape {mark value : UInt8} (notUnit : mark ≠ 0x75)
    (known : shortEscape? mark = some value) (rest : List UInt8) :
    takeText? (0x5C :: mark :: rest) =
      (takeText? rest).map fun found => (.byte value :: found.1, found.2) := by
  rw [takeText?.eq_def]
  simp only [beq_iff_eq, notUnit, if_false, known, Option.bind_eq_bind, Option.bind_some]
  cases takeText? rest <;> rfl

theorem takeText?_unitEscape {h1 h2 h3 h4 : UInt8} {d1 d2 d3 d4 : Nat}
    (first : hexValue? h1 = some d1) (second : hexValue? h2 = some d2)
    (third : hexValue? h3 = some d3) (fourth : hexValue? h4 = some d4) (rest : List UInt8) :
    takeText? (0x5C :: 0x75 :: h1 :: h2 :: h3 :: h4 :: rest) =
      (takeText? rest).map fun found =>
        (.unit (((d1 * 16 + d2) * 16 + d3) * 16 + d4) :: found.1, found.2) := by
  rw [takeText?.eq_def]
  simp only [first, second, third, fourth, Option.bind_eq_bind, Option.bind_some]
  cases takeText? rest <;> rfl

theorem lowerHexDigit_ascii {n : Nat} (small : n < 16) : (lowerHexDigit n).toNat ≤ 0x7F := by
  revert n
  decide

theorem hexValue?_lowerHexDigit {n : Nat} (small : n < 16) :
    hexValue? (UInt8.ofNat (lowerHexDigit n).toNat) = some n := by
  revert n
  decide

/-- The pieces in which a printed character is found again. Only the control
characters without a short escape are written as units. -/
def writtenPieces (c : Char) : List Piece :=
  if c.toNat < 0x20 ∧ c ∉ ['\x08', '\x0c', '\n', '\r', '\t'] then [.unit c.toNat]
  else (String.utf8EncodeChar c).map .byte

/-- A printed character is taken apart into its pieces, whatever comes after it. -/
theorem takeText?_escapeChar (c : Char) (rest : List UInt8) :
    takeText? ((escapeChar c).flatMap String.utf8EncodeChar ++ rest) =
      (takeText? rest).map fun found => (writtenPieces c ++ found.1, found.2) := by
  by_cases special : c ∈ ['"', '\\', '\x08', '\x0c', '\n', '\r', '\t']
  · simp only [List.mem_cons, List.not_mem_nil, or_false] at special
    rcases special with rfl | rfl | rfl | rfl | rfl | rfl | rfl <;>
      exact takeText?_shortEscape (by decide) (by decide) rest
  · simp only [List.mem_cons, List.not_mem_nil, or_false, not_or] at special
    obtain ⟨notQuote, notBackslash, notBack, notFeed, notLine, notReturn, notTab⟩ := special
    by_cases control : c.toNat < 0x20
    · have high : c.toNat / 16 < 16 := by omega
      have low : c.toNat % 16 < 16 := by omega
      have written : (escapeChar c).flatMap String.utf8EncodeChar ++ rest =
          0x5C :: 0x75 :: 0x30 :: 0x30 :: UInt8.ofNat (lowerHexDigit (c.toNat / 16)).toNat ::
            UInt8.ofNat (lowerHexDigit (c.toNat % 16)).toNat :: rest := by
        simp only [escapeChar, notQuote, notBackslash, notBack, notFeed, notLine, notReturn,
          notTab, control, if_true, if_false, List.flatMap_cons, List.flatMap_nil,
          utf8EncodeChar_ascii (lowerHexDigit_ascii high),
          utf8EncodeChar_ascii (lowerHexDigit_ascii low)]
        rfl
      have pieces : writtenPieces c = [.unit c.toNat] := by
        simp [writtenPieces, control, notBack, notFeed, notLine, notReturn, notTab]
      have zero : hexValue? 0x30 = some 0 := rfl
      have code : ((0 * 16 + 0) * 16 + c.toNat / 16) * 16 + c.toNat % 16 = c.toNat := by omega
      rw [written, takeText?_unitEscape zero zero (hexValue?_lowerHexDigit high)
        (hexValue?_lowerHexDigit low), pieces, code]
      rfl
    · have written : escapeChar c = [c] := by
        simp [escapeChar, notQuote, notBackslash, notBack, notFeed, notLine, notReturn, notTab,
          control]
      have pieces : writtenPieces c = (String.utf8EncodeChar c).map .byte := by
        simp [writtenPieces, control]
      rw [written, pieces, List.flatMap_singleton]
      exact takeText?_ordinary (fun b isByte => isOrdinary_of_mem_utf8EncodeChar
        (Nat.not_lt.mp control) notQuote notBackslash isByte) rest

theorem decodePieces?_bytes (bytes : List UInt8) (rest : List Piece) :
    decodePieces? (bytes.map Piece.byte ++ rest) = (decodePieces? rest).map (bytes ++ ·) := by
  induction bytes with
  | nil => simp
  | cons b bytes ih =>
      rw [List.map_cons, List.cons_append, decodePieces?, ih]
      cases decodePieces? rest <;> rfl

/-- The pieces of a printed character stand for its bytes. A unit never is half of
a surrogate pair, since it is a control character. -/
theorem decodePieces?_writtenPieces (c : Char) (rest : List Piece) :
    decodePieces? (writtenPieces c ++ rest) =
      (decodePieces? rest).map (String.utf8EncodeChar c ++ ·) := by
  unfold writtenPieces
  split
  · rename_i control
    have notLow : ¬ 0xDC00 ≤ c.toNat := by omega
    have notHigh : ¬ 0xD800 ≤ c.toNat := by omega
    rw [List.singleton_append, decodePieces?.eq_def]
    simp only [notLow, notHigh, decide_false, Bool.false_and, Bool.false_eq_true, if_false,
      Char.ofNat_toNat]
  · exact decodePieces?_bytes _ rest

/-! ## Whole texts -/

theorem takeText?_written (chars : List Char) (rest : List UInt8) :
    takeText? ((chars.flatMap escapeChar).flatMap String.utf8EncodeChar ++ 0x22 :: rest) =
      some (chars.flatMap writtenPieces, rest) := by
  induction chars with
  | nil =>
      rw [List.flatMap_nil, List.flatMap_nil, List.nil_append, takeText?.eq_def]
      rfl
  | cons c chars ih =>
      rw [List.flatMap_cons, List.flatMap_append, List.append_assoc, takeText?_escapeChar, ih]
      rfl

/-- The pieces of a printed text stand for that text. -/
theorem textOf?_written (text : String) :
    textOf? (text.toList.flatMap writtenPieces) = some text := by
  have bytes (chars : List Char) : decodePieces? (chars.flatMap writtenPieces) =
      some (chars.flatMap String.utf8EncodeChar) := by
    induction chars with
    | nil => rfl
    | cons c chars ih =>
        rw [List.flatMap_cons, decodePieces?_writtenPieces, ih]
        rfl
  have encoded : (⟨(text.toList.flatMap String.utf8EncodeChar).toArray⟩ : ByteArray) =
      text.toByteArray := by
    rw [← bytes_toUTF8]
    rfl
  rw [textOf?, bytes, Option.bind_some, encoded, String.fromUTF8?, dif_pos text.isValidUTF8]
  rfl

/-! ## Tokens

The scan is bounded by the number of bytes. `Scans` forgets the bound, so that
tokens can be put in front of one another. -/

/-- The bytes are those tokens, however many more steps the scan might take. -/
def Scans (bytes : List UInt8) (tokens : List Token) : Prop :=
  ∀ limit, bytes.length ≤ limit → scanUpTo limit bytes = some tokens

theorem scans_nil : Scans [] [] := fun limit _ => by cases limit <;> rfl

theorem scans_cons {b : UInt8} {token : Token} {bytes rest : List UInt8} {tokens : List Token}
    (visible : isSpace b = false) (taken : takeToken? b bytes = some (token, rest))
    (shorter : rest.length ≤ bytes.length) (after : Scans rest tokens) :
    Scans (b :: bytes) (token :: tokens) := by
  intro limit enough
  cases limit with
  | zero => exact absurd enough (by simp)
  | succ limit =>
      have left : scanUpTo limit rest = some tokens :=
        after limit (Nat.le_trans shorter (Nat.le_of_succ_le_succ enough))
      rw [scanUpTo, visible, if_neg Bool.false_ne_true, taken, Option.bind_eq_bind,
        Option.bind_some]
      show (scanUpTo limit rest >>= fun found => pure (token :: found)) = _
      rw [left]
      rfl

theorem scans_mark {b : UInt8} {token : Token} (visible : isSpace b = false)
    (isMark : mark? b = some token) {rest : List UInt8} {tokens : List Token}
    (after : Scans rest tokens) : Scans (b :: rest) (token :: tokens) :=
  scans_cons visible (by rw [takeToken?, isMark]) (Nat.le_refl _) after

/-- A printed text is one token. -/
theorem scans_quoted (text : String) {rest : List UInt8} {tokens : List Token}
    (after : Scans rest tokens) :
    Scans ((quoted text).toList.flatMap String.utf8EncodeChar ++ rest)
      (.text (text.toList.flatMap writtenPieces) :: tokens) := by
  have bytes : (quoted text).toList.flatMap String.utf8EncodeChar ++ rest =
      0x22 ::
        ((text.toList.flatMap escapeChar).flatMap String.utf8EncodeChar ++ 0x22 :: rest) := by
    rw [quoted, String.toList_ofList, List.flatMap_cons, List.flatMap_append]
    simp only [List.append_assoc]
    rfl
  rw [bytes]
  refine scans_cons rfl ?_ (by simp; omega) after
  show (takeText? _).map _ = _
  rw [takeText?_written]
  rfl

theorem scan?_eq_of_scans {bytes : List UInt8} {tokens : List Token}
    (scans : Scans bytes tokens) : scan? bytes = some tokens :=
  scans bytes.length (Nat.le_refl _)

theorem utf8EncodeChar_openBrace : String.utf8EncodeChar '\x7b' = [0x7B] := rfl

theorem utf8EncodeChar_closeBrace : String.utf8EncodeChar '\x7d' = [0x7D] := rfl

theorem utf8EncodeChar_colon : String.utf8EncodeChar ':' = [0x3A] := rfl

/-- An object with one text member is read back from its compact text. -/
theorem read?_compact_member (name value : String) :
    read? (compact (.object [(name, .string value)])).toUTF8 =
      some (.object [(name, .string value)]) := by
  have chars : (compact (.object [(name, .string value)])).toList =
      '\x7b' :: ((quoted name).toList ++ ':' :: ((quoted value).toList ++ ['\x7d'])) := by
    simp [compact, compactMembers]
  have bytes : (compact (.object [(name, .string value)])).toUTF8.data.toList =
      0x7B :: ((quoted name).toList.flatMap String.utf8EncodeChar ++
        0x3A :: ((quoted value).toList.flatMap String.utf8EncodeChar ++ [0x7D])) := by
    rw [bytes_toUTF8, chars, List.flatMap_cons, List.flatMap_append, List.flatMap_cons,
      List.flatMap_append, List.flatMap_singleton, utf8EncodeChar_openBrace, utf8EncodeChar_colon,
      utf8EncodeChar_closeBrace, List.singleton_append, List.singleton_append]
  have scanned : scan? (compact (.object [(name, .string value)])).toUTF8.data.toList =
      some [.beginObject, .text (name.toList.flatMap writtenPieces), .colon,
        .text (value.toList.flatMap writtenPieces), .endObject] := by
    rw [bytes]
    apply scan?_eq_of_scans
    apply scans_mark rfl rfl
    apply scans_quoted
    apply scans_mark rfl rfl
    apply scans_quoted
    exact scans_mark rfl rfl scans_nil
  have document : Document.ofTokens? [.beginObject, .text (name.toList.flatMap writtenPieces),
      .colon, .text (value.toList.flatMap writtenPieces), .endObject] =
      some (.object [(name.toList.flatMap writtenPieces,
        .text (value.toList.flatMap writtenPieces))]) := rfl
  rw [read?, Document.read?, scanned, Option.bind_some, document, Option.bind_some, ofDocument?,
    if_neg (by decide)]
  simp only [ofMembers?, ofDocument?, textOf?_written]
  rfl

end OData.Json
