/-
# Identifiers read back

The hyphenated form of an identifier is read as the identifier. It has too many
characters to be taken for the form without hyphens, and begins neither like a URN
nor with a brace.
-/

import OData.Uuid
import Mathlib.Algebra.Ring.Nat
import Mathlib.Data.List.Basic

namespace OData.Uuid

theorem readDigit?_digitChar : ∀ digit : Fin 16, readDigit? (digitChar digit) = some digit := by
  decide

theorem mapM_readDigit? (digits : List (Fin 16)) :
    (digits.map digitChar).mapM readDigit? = some digits := by
  induction digits with
  | nil => rfl
  | cons digit rest ih =>
      rw [List.map_cons, List.mapM_cons, readDigit?_digitChar, ih]
      rfl

theorem length_hyphenate (lengths : List Nat) (chars : List Char) :
    (hyphenate lengths chars).length = chars.length + (lengths.length - 1) := by
  fun_induction hyphenate lengths chars with
  | case1 chars => rfl
  | case2 length chars => rfl
  | case3 length lengths chars some ih =>
      have more : 0 < lengths.length := List.length_pos_iff.mpr fun none => some none
      rw [List.length_append, List.length_cons, ih, List.length_take, List.length_drop,
        List.length_cons]
      omega

theorem mem_hyphenate {lengths : List Nat} {chars : List Char} {c : Char}
    (isMember : c ∈ hyphenate lengths chars) : c = '-' ∨ c ∈ chars := by
  fun_induction hyphenate lengths chars with
  | case1 chars => exact .inr isMember
  | case2 length chars => exact .inr isMember
  | case3 length lengths chars some ih =>
      rcases List.mem_append.mp isMember with isMember | isMember
      · exact .inr (List.mem_of_mem_take isMember)
      · rcases List.mem_cons.mp isMember with rfl | isMember
        · exact .inl rfl
        · exact (ih isMember).imp_right List.mem_of_mem_drop

/-- The hyphens that were put between groups are taken out again. -/
theorem dropHyphens?_hyphenate (lengths : List Nat) {chars : List Char}
    (fits : chars.length = lengths.sum) :
    dropHyphens? lengths (hyphenate lengths chars) = some chars := by
  induction lengths generalizing chars with
  | nil =>
      rw [List.eq_nil_of_length_eq_zero fits]
      rfl
  | cons length lengths ih =>
      cases lengths with
      | nil =>
          have exact : chars.length = length := by simpa using fits
          rw [hyphenate, dropHyphens?, if_pos exact]
      | cons next others =>
          have enough : length ≤ chars.length := by
            rw [fits, List.sum_cons]
            exact Nat.le_add_right _ _
          have others : (chars.drop length).length = (next :: others).sum := by
            rw [List.length_drop, fits, List.sum_cons]
            exact Nat.add_sub_cancel_left _ _
          have first : (chars.take length).length = length := List.length_take_of_le enough
          rw [hyphenate, dropHyphens?]
          · rw [List.drop_left' first, List.take_left' first]
            simp only
            rw [ih others, Option.map_some, List.take_append_drop]
          all_goals simp

/-- A form that begins with a digit is in no wrapping. -/
theorem unwrap_digitChar (digit : Fin 16) (rest : List Char) :
    unwrap (digitChar digit :: rest) = digitChar digit :: rest := by
  have first : ∀ digit : Fin 16, digitChar digit ≠ 'u' ∧ digitChar digit ≠ '\x7b' := by decide
  obtain ⟨noScheme, noBrace⟩ := first digit
  have scheme : "urn:uuid:".toList = 'u' :: "rn:uuid:".toList := by decide
  have noPrefix : "urn:uuid:".toList.isPrefixOf (digitChar digit :: rest) = false := by
    rw [scheme, List.isPrefixOf_cons_cons, beq_false_of_ne (Ne.symm noScheme), Bool.false_and]
  generalize digitChar digit = c at noPrefix noBrace
  simp only [unwrap, noPrefix, Bool.false_eq_true, if_false]
  split
  · rename_i brace
    exact absurd (List.cons.inj brace).1 noBrace
  · rfl

theorem length_toList_text (id : Uuid) : id.text.toList.length = 36 := by
  rw [text, String.toList_ofList, length_hyphenate, List.length_map, id.length_eq]
  rfl

/-- Every identifier is read back from its text. -/
theorem read?_text (id : Uuid) : read? id.text = some id := by
  have chars := length_toList_text id
  obtain ⟨digits, length⟩ := id
  rw [text, String.toList_ofList] at chars
  have wrapped : unwrap (hyphenate groupLengths (digits.map digitChar)) =
      hyphenate groupLengths (digits.map digitChar) := by
    cases digits with
    | nil => cases length
    | cons digit rest => exact unwrap_digitChar digit _
  have grouped : dropHyphens? groupLengths (hyphenate groupLengths (digits.map digitChar)) =
      some (digits.map digitChar) :=
    dropHyphens?_hyphenate groupLengths (by rw [List.length_map, length]; rfl)
  simp only [read?, text, String.toList_ofList, chars]
  rw [if_neg (by decide), wrapped, grouped, Option.bind_some, ofHex?, mapM_readDigit?]
  simp [length]

end OData.Uuid
