/-
# Percent encoding undone

The encoding works on bytes and its result is ASCII, so it is undone byte by byte:
a percent sign and two digits stand for one byte, and everything else stands for its
own UTF-8 form. The reader here takes digits of either case and is stricter than most
in one way only, in that a percent sign without two digits is an error.

Besides reading back, callers need that an encoded text holds none of the characters
that delimit the parts of a query. Which characters it may hold is settled once, by
`IsEncoded`.
-/

import OData.Proofs.Json.Written
import OData.Text.Escaped
import OData.Uuid

namespace OData.Text

/-- The bytes that an encoded text stands for. -/
def percentBytes? : List Char → Option (List UInt8)
  | [] => some []
  | c :: rest =>
      if c = '%' then
        match rest with
        | high :: low :: more => do
            let first ← Uuid.readDigit? high
            let second ← Uuid.readDigit? low
            let bytes ← percentBytes? more
            return UInt8.ofNat (first.val * 16 + second.val) :: bytes
        | _ => none
      else (percentBytes? rest).map (String.utf8EncodeChar c ++ ·)

/-- The text that an encoded text stands for. -/
def percentDecode? (text : String) : Option String :=
  (percentBytes? text.toList).bind fun bytes => String.fromUTF8? ⟨bytes.toArray⟩

/-! ## Single bytes -/

theorem isUnreserved_ascii {b : UInt8} (plain : isUnreserved b = true) : b.toNat ≤ 0x7F := by
  simp only [isUnreserved, Bool.or_eq_true, Bool.and_eq_true, decide_eq_true_eq, beq_iff_eq,
    UInt8.le_iff_toNat_le, ← UInt8.toNat_inj] at plain
  simp only [UInt8.toNat_ofNat] at plain
  omega

theorem toNat_ofNat_of_ascii {n : Nat} (ascii : n ≤ 0x7F) : (Char.ofNat n).toNat = n := by
  have isValid : n.isValidChar := .inl (by omega)
  rw [Char.ofNat, dif_pos isValid]
  rfl

theorem readDigit?_hexDigit {n : Nat} (small : n < 16) :
    Uuid.readDigit? (hexDigit n) = some (Fin.ofNat 16 n) := by
  revert n
  decide

theorem percentBytes?_plain {c : Char} (notPercent : c ≠ '%') (rest : List Char) :
    percentBytes? (c :: rest) = (percentBytes? rest).map (String.utf8EncodeChar c ++ ·) := by
  rw [percentBytes?.eq_def]
  simp only [notPercent, if_false]

theorem percentBytes?_escape {first second : Nat} (high : first < 16) (low : second < 16)
    (rest : List Char) :
    percentBytes? ('%' :: hexDigit first :: hexDigit second :: rest) =
      (percentBytes? rest).map (UInt8.ofNat (first * 16 + second) :: ·) := by
  rw [percentBytes?.eq_def]
  simp only [if_true, readDigit?_hexDigit high, readDigit?_hexDigit low, Option.bind_eq_bind,
    Option.bind_some, Fin.ofNat, Nat.mod_eq_of_lt high, Nat.mod_eq_of_lt low]
  cases percentBytes? rest <;> rfl

/-- An encoded byte is read as that byte, whatever comes after it. -/
theorem percentBytes?_percentByte (b : UInt8) (rest : List Char) :
    percentBytes? (percentByte b ++ rest) = (percentBytes? rest).map (b :: ·) := by
  cases plain : isUnreserved b with
  | true =>
      have code : (Char.ofNat b.toNat).toNat = b.toNat :=
        toNat_ofNat_of_ascii (isUnreserved_ascii plain)
      have notPercent : Char.ofNat b.toNat ≠ '%' := by
        intro same
        rw [same] at code
        rw [← UInt8.ofNat_toNat (x := b), ← code] at plain
        exact absurd plain (by decide)
      have ascii : (Char.ofNat b.toNat).toNat ≤ 0x7F :=
        Nat.le_trans (Nat.le_of_eq code) (isUnreserved_ascii plain)
      rw [percentByte, if_pos plain, List.singleton_append, percentBytes?_plain notPercent,
        Json.utf8EncodeChar_ascii ascii, code, UInt8.ofNat_toNat]
      rfl
  | false =>
      have below := UInt8.toNat_lt b
      have value : UInt8.ofNat (b.toNat / 16 * 16 + b.toNat % 16) = b := by
        rw [Nat.div_add_mod', UInt8.ofNat_toNat]
      rw [percentByte, plain, if_neg Bool.false_ne_true]
      refine (percentBytes?_escape (by omega) (by omega) rest).trans ?_
      rw [value]

/-! ## Texts -/

theorem percentBytes?_flatMap (bytes : List UInt8) :
    percentBytes? (bytes.flatMap percentByte) = some bytes := by
  induction bytes with
  | nil => rfl
  | cons b bytes ih =>
      rw [List.flatMap_cons, percentBytes?_percentByte, ih]
      rfl

theorem fromUTF8?_toUTF8 (text : String) : String.fromUTF8? text.toUTF8 = some text := by
  show String.fromUTF8? text.toByteArray = some text
  rw [String.fromUTF8?, dif_pos text.isValidUTF8]
  rfl

/-- An encoded text is read as that text. -/
theorem percentDecode?_percentEncode (text : String) :
    percentDecode? (percentEncode text) = some text := by
  have bytes : percentBytes? (percentEncode text).toList = some text.toUTF8.data.toList := by
    rw [percentEncode, String.toList_ofList, percentBytes?_flatMap]
  rw [percentDecode?, bytes, Option.bind_some, Array.toArray_toList]
  exact fromUTF8?_toUTF8 text

/-- A text without percent signs stands for itself. -/
theorem percentDecode?_of_not_mem {text : String} (noPercent : '%' ∉ text.toList) :
    percentDecode? text = some text := by
  have bytes (chars : List Char) (plain : '%' ∉ chars) :
      percentBytes? chars = some (chars.flatMap String.utf8EncodeChar) := by
    induction chars with
    | nil => rfl
    | cons c chars ih =>
        obtain ⟨different, others⟩ := List.ne_and_not_mem_of_not_mem_cons plain
        rw [percentBytes?_plain different.symm, ih others]
        rfl
  rw [percentDecode?, bytes _ noPercent, Option.bind_some, ← Json.bytes_toUTF8,
    Array.toArray_toList]
  exact fromUTF8?_toUTF8 text

/-- A character that an encoded text may hold. -/
def IsEncoded (c : Char) : Prop :=
  c = '%' ∨ c.toNat ≤ 0x7F ∧ isUnreserved (UInt8.ofNat c.toNat) = true

instance (c : Char) : Decidable (IsEncoded c) :=
  inferInstanceAs
    (Decidable (c = '%' ∨ c.toNat ≤ 0x7F ∧ isUnreserved (UInt8.ofNat c.toNat) = true))

theorem isEncoded_hexDigit {n : Nat} (small : n < 16) : IsEncoded (hexDigit n) := by
  revert n
  decide

theorem isEncoded_of_mem_percentByte {b : UInt8} {c : Char} (isMember : c ∈ percentByte b) :
    IsEncoded c := by
  have below := UInt8.toNat_lt b
  unfold percentByte at isMember
  split at isMember
  · rename_i plain
    obtain rfl := List.mem_singleton.mp isMember
    have ascii := isUnreserved_ascii plain
    rw [IsEncoded, toNat_ofNat_of_ascii ascii, UInt8.ofNat_toNat]
    exact .inr ⟨ascii, plain⟩
  · simp only [List.mem_cons, List.not_mem_nil, or_false] at isMember
    rcases isMember with rfl | rfl | rfl
    · exact .inl rfl
    · exact isEncoded_hexDigit (by omega)
    · exact isEncoded_hexDigit (by omega)

/-- An encoded text holds no other characters. -/
theorem not_mem_percentEncode {c : Char} (isSpecial : ¬ IsEncoded c) (text : String) :
    c ∉ (percentEncode text).toList := by
  intro isMember
  rw [percentEncode, String.toList_ofList] at isMember
  obtain ⟨b, -, isMember⟩ := List.mem_flatMap.mp isMember
  exact isSpecial (isEncoded_of_mem_percentByte isMember)

end OData.Text
