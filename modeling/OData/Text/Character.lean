/-
# Classes of characters

White space is the Unicode property `White_Space`. Path templates, filter texts, expand
names and environment variables are all trimmed by this one class; line feeds and the
wide spaces belong to it as much as the ASCII blank.

Header names, schemes and charsets are compared without regard to the case of ASCII
letters. Operators and logged header names are lowered by the Unicode mapping first and
then compared with ASCII words, so of that mapping only the characters with an ASCII
image count: the capital letters and the Kelvin sign.
-/

namespace OData.Text

/-! ## White space -/

/-- The ranges of the Unicode property `White_Space`, both ends included. -/
def blankRanges : List (Nat × Nat) :=
  [(0x0009, 0x000D), (0x0020, 0x0020), (0x0085, 0x0085), (0x00A0, 0x00A0), (0x1680, 0x1680),
   (0x2000, 0x200A), (0x2028, 0x2029), (0x202F, 0x202F), (0x205F, 0x205F), (0x3000, 0x3000)]

/-- A character is blank when it has the Unicode property `White_Space`. -/
def isBlank (c : Char) : Bool :=
  blankRanges.any fun range => range.1 ≤ c.toNat && c.toNat ≤ range.2

/-- A text of blanks only; the empty text is one. -/
def isBlankText (text : String) : Bool :=
  text.toList.all isBlank

/-- Drop the last characters of `chars` for as long as they satisfy `drop`. -/
def dropEndWhile (drop : Char → Bool) (chars : List Char) : List Char :=
  (chars.reverse.dropWhile drop).reverse

/-- The text without the blanks at its start. -/
def trimStart (text : String) : String :=
  String.ofList (text.toList.dropWhile isBlank)

/-- The text without the blanks at either end. -/
def trim (text : String) : String :=
  String.ofList (dropEndWhile isBlank (text.toList.dropWhile isBlank))

/-! ## Letter case -/

/-- The Kelvin sign `K` is the one character outside ASCII whose lower-case form
is a single ASCII letter. -/
def kelvinSign : Char := '\u212A'

/-- Lower-case form of a character, exact wherever that form is an ASCII letter. -/
def lowerChar (c : Char) : Char :=
  if c = kelvinSign then 'k' else c.toLower

/-- The characters of a text, lowered for comparison with ASCII words. -/
def lowered (text : String) : List Char :=
  text.toList.map lowerChar

/-- A text read without regard to case is the given lower-case ASCII word. -/
def loweredIs (text word : String) : Bool :=
  lowered text == word.toList

/-- Two texts agree up to the case of their ASCII letters. -/
def sameIgnoringCase (first second : String) : Bool :=
  first.toList.map Char.toLower == second.toList.map Char.toLower

/-- The text with its ASCII letters in capitals. -/
def capitalized (text : String) : String :=
  String.ofList (text.toList.map Char.toUpper)

/-- Agreement up to case does not depend on the order of the texts. -/
theorem sameIgnoringCase_comm (first second : String) :
    sameIgnoringCase first second = sameIgnoringCase second first := by
  unfold sameIgnoringCase
  exact Bool.beq_comm

/-- Texts that agree up to case agree with the same texts. -/
theorem sameIgnoringCase_congr {first second : String}
    (same : sameIgnoringCase first second = true) (text : String) :
    sameIgnoringCase text first = sameIgnoringCase text second := by
  rw [sameIgnoringCase, sameIgnoringCase, eq_of_beq same]

@[simp] theorem sameIgnoringCase_self (text : String) : sameIgnoringCase text text = true := by
  simp [sameIgnoringCase]

/-- Lowering does not depend on the case of ASCII letters. -/
theorem lowerChar_toLower (c : Char) : lowerChar c.toLower = lowerChar c := by
  by_cases isCapital : 'A'.val ≤ c.val ∧ c.val ≤ 'Z'.val
  · have lowers : c.toLower.val = c.val + 32 := congrArg Char.val (dif_pos isCapital)
    have isSmall : ¬('A'.val ≤ c.toLower.val ∧ c.toLower.val ≤ 'Z'.val) := by
      rw [lowers]
      grind
    have isOther : c ≠ kelvinSign := by
      rintro rfl
      exact absurd isCapital (by decide)
    have staysOther : c.toLower ≠ kelvinSign := by
      intro isKelvin
      have isValue := congrArg Char.val isKelvin
      rw [lowers] at isValue
      simp only [kelvinSign] at isValue
      grind
    rw [lowerChar, lowerChar, if_neg isOther, if_neg staysOther,
      show c.toLower.toLower = c.toLower from dif_neg isSmall]
  · rw [show c.toLower = c from dif_neg isCapital]

/-- Texts that agree up to case are lowered to the same. -/
theorem lowered_congr {first second : String} (same : sameIgnoringCase first second = true) :
    lowered first = lowered second := by
  have chars : first.toList.map Char.toLower = second.toList.map Char.toLower := eq_of_beq same
  have lowers (text : String) : (text.toList.map Char.toLower).map lowerChar = lowered text := by
    simp only [List.map_map, Function.comp_def, lowerChar_toLower, lowered]
  rw [← lowers, ← lowers, chars]

end OData.Text
