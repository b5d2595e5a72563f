/-
# Keys read back from addresses

An address ends in the key of an entity, and what stands in front of the key is
arbitrary: a host, a path and an entity set, with parentheses and slashes of their
own. Reading the key back therefore always goes for the last group or the last
segment, and is right as long as the key itself holds none of these characters.
-/

import OData.Proofs.Text.Search
import OData.Service.Endpoint
import OData.Target.Reference

namespace OData.Target

/-- A key that can be told apart from what surrounds it in an address. -/
structure IsPlainKey (key : List Char) : Prop where
  /-- There is something to be found. -/
  nonempty : key ≠ []
  noOpening : '(' ∉ key
  noClosing : ')' ∉ key
  noSlash : '/' ∉ key

instance (key : List Char) : Decidable (IsPlainKey key) :=
  decidable_of_iff (key ≠ [] ∧ '(' ∉ key ∧ ')' ∉ key ∧ '/' ∉ key)
    ⟨fun ⟨nonempty, noOpening, noClosing, noSlash⟩ => ⟨nonempty, noOpening, noClosing, noSlash⟩,
      fun plain => ⟨plain.nonempty, plain.noOpening, plain.noClosing, plain.noSlash⟩⟩

/-- Without an opening parenthesis there is no group. -/
theorem lastGroup?_eq_none {chars : List Char} (noOpening : '(' ∉ chars) :
    lastGroup? chars = none := by
  induction chars with
  | nil => rfl
  | cons c rest ih =>
      obtain ⟨notOpening, others⟩ := List.ne_and_not_mem_of_not_mem_cons noOpening
      rw [lastGroup?, ih others]
      simp [notOpening.symm]

/-- The last group is found behind anything on the same line. The parentheses in
front of it close too early or open too soon to matter. -/
theorem lastGroup?_closed {key : List Char} (plain : IsPlainKey key) {front : List Char}
    (oneLine : '\n' ∉ front) : lastGroup? (front ++ '(' :: (key ++ [')'])) = some key := by
  induction front with
  | nil =>
      have noneInside : lastGroup? (key ++ [')']) = none :=
        lastGroup?_eq_none (by simp [plain.noOpening])
      have content : groupAt? (key ++ [')']) = some key := by
        rw [groupAt?, Text.takeWhile_append_stop plain.noClosing []]
        simp [plain.nonempty]
      rw [List.nil_append, lastGroup?, noneInside]
      exact content
  | cons c rest ih =>
      obtain ⟨notBreak, others⟩ := List.ne_and_not_mem_of_not_mem_cons oneLine
      rw [List.cons_append, lastGroup?, if_neg notBreak.symm, ih others]

theorem lastSegment_slash {key : List Char} (plain : IsPlainKey key) (front : List Char) :
    lastSegment (front ++ '/' :: key) = key := by
  have backwards : (front ++ '/' :: key).reverse = key.reverse ++ '/' :: front.reverse := by simp
  have noSlash : '/' ∉ key.reverse := fun isMember => plain.noSlash (List.mem_reverse.mp isMember)
  have kept : Text.dropEndWhile (· == '/') (front ++ '/' :: key) = front ++ '/' :: key := by
    obtain ⟨last, others, isKey⟩ :=
      List.exists_cons_of_ne_nil (List.reverse_ne_nil_iff.mpr plain.nonempty)
    have visible : (last == '/') = false :=
      beq_eq_false_iff_ne.mpr fun same => noSlash (isKey ▸ same ▸ List.mem_cons_self)
    rw [Text.dropEndWhile, backwards, isKey, List.cons_append, List.dropWhile_cons, visible,
      if_neg Bool.false_ne_true, ← List.cons_append, ← isKey, ← backwards, List.reverse_reverse]
  rw [lastSegment, kept, backwards, Text.takeWhile_append_stop noSlash, List.reverse_reverse]

/-- The key behind an address is read back in either convention. Segments are told
apart from parentheses only by there being none. -/
theorem referenceKey_keySuffix {keyAsSegment : Bool} {front key : String}
    (plain : IsPlainKey key.toList) (oneLine : '\n' ∉ front.toList)
    (noGroup : keyAsSegment = true → '(' ∉ front.toList) :
    referenceKey (front ++ keySuffix keyAsSegment key) = key := by
  cases keyAsSegment with
  | true =>
      have chars : (front ++ keySuffix true key).toList = front.toList ++ '/' :: key.toList := by
        simp [keySuffix]
      have noOpening : '(' ∉ front.toList ++ '/' :: key.toList := by
        simp [noGroup rfl, plain.noOpening]
      rw [referenceKey, chars, lastGroup?_eq_none noOpening]
      show String.ofList (lastSegment _) = key
      rw [lastSegment_slash plain, String.ofList_toList]
  | false =>
      have chars : (front ++ keySuffix false key).toList =
          front.toList ++ '(' :: (key.toList ++ [')']) := by
        simp [keySuffix]
      rw [referenceKey, chars, lastGroup?_closed plain oneLine]
      exact String.ofList_toList

end OData.Target
