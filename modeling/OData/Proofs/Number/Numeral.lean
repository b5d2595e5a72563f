/-
# Integers as texts

An integer is printed as its decimal digits with a minus if it needs one, and read as the
integer that it was.
-/

import OData.Number.Numeral

namespace OData.Number

theorem digitsValue_toDigits (n : Nat) : digitsValue 0 (Nat.toDigits 10 n) = n := by
  have value := Nat.ofDigitChars_ten_toDigits (n := n)
  rw [Nat.ofDigitChars_eq_foldl] at value
  simpa [digitsValue, Nat.mul_comm] using value

theorem all_isDigit_toDigits (n : Nat) : (Nat.toDigits 10 n).all Char.isDigit = true :=
  List.all_eq_true.mpr fun _ isMember =>
    Nat.isDigit_of_mem_toDigits (by decide) (by decide) isMember

theorem takeSign_toDigits (n : Nat) :
    takeSign (Nat.toDigits 10 n) = (false, Nat.toDigits 10 n) := by
  have digits := all_isDigit_toDigits n
  unfold takeSign
  split
  · rename_i isDigits
    rw [isDigits] at digits
    exact absurd (List.all_eq_true.mp digits '-' List.mem_cons_self) (by decide)
  · rename_i isDigits
    rw [isDigits] at digits
    exact absurd (List.all_eq_true.mp digits '+' List.mem_cons_self) (by decide)
  · rfl

theorem toList_toString_ofNat (n : Nat) :
    (toString (Int.ofNat n)).toList = Nat.toDigits 10 n := Nat.toList_repr

theorem toList_toString_negSucc (n : Nat) :
    (toString (Int.negSucc n)).toList = '-' :: Nat.toDigits 10 (n + 1) := by
  show ("-" ++ Nat.repr (n + 1)).toList = _
  rw [String.toList_append, Nat.toList_repr]
  rfl

/-- A printed integer is read as that integer. -/
theorem readInt?_toString (value : Int) : readInt? (toString value) = some value := by
  have someThere (n : Nat) : (Nat.toDigits 10 n).isEmpty = false :=
    List.isEmpty_eq_false_iff.mpr Nat.toDigits_ne_nil
  cases value with
  | ofNat n =>
      simp only [readInt?, toList_toString_ofNat, takeSign_toDigits, someThere,
        all_isDigit_toDigits, digitsValue_toDigits]
      rfl
  | negSucc n =>
      simp only [readInt?, toList_toString_negSucc, takeSign, someThere,
        all_isDigit_toDigits, digitsValue_toDigits]
      rfl

theorem readInt64?_toString (value : Int64) :
    readInt64? (toString value.toInt) = some value := by
  have least := value.le_toInt
  have greatest := value.toInt_lt
  have fits : fitsInt64 value.toInt = true := by
    simp only [fitsInt64, Bool.and_eq_true, decide_eq_true_eq]
    omega
  rw [readInt64?, readInt?_toString, Option.bind_some, if_pos fits, Int64.ofInt_toInt]

/-- A printed integer consists of digits and perhaps a sign. -/
theorem not_mem_toString {c : Char} (noSign : c ≠ '-') (noDigit : c.isDigit = false)
    (value : Int) : c ∉ (toString value).toList := by
  have natural (n : Nat) : c ∉ Nat.toDigits 10 n := by
    intro isMember
    have isDigit := List.all_eq_true.mp (all_isDigit_toDigits n) c isMember
    rw [noDigit] at isDigit
    cases isDigit
  cases value with
  | ofNat n =>
      rw [toList_toString_ofNat]
      exact natural n
  | negSucc n =>
      rw [toList_toString_negSucc]
      exact List.not_mem_cons_of_ne_of_not_mem noSign (natural (n + 1))

end OData.Number
