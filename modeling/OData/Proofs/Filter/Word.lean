/-
# Words of an expression

Names, operators and literals without quotes are words: they run on until a blank,
a comma, a quote or a parenthesis. Every literal that is written without quotes is
one word, so it can neither end early nor open or close anything. This holds for
all numbers, with or without an exponent, and for the words for the floats that
are no numbers.
-/

import OData.Filter.Clause
import OData.Proofs.Filter.Symbol
import OData.Proofs.Uuid

namespace OData.Filter

open OData.Filter.Symbol (Undelimited)

/-- The character belongs to a word. -/
def isWordChar (c : Char) : Bool := !([' ', '\t', '\'', '(', ')', ','].contains c)

/-- The characters are all of a word. -/
def WordChars (chars : List Char) : Prop := ∀ c ∈ chars, isWordChar c = true

instance (chars : List Char) : Decidable (WordChars chars) :=
  List.decidableBAll (fun c => isWordChar c = true) chars

/-- The text is one word. -/
def IsWord (text : String) : Prop := text.toList ≠ [] ∧ WordChars text.toList

instance (text : String) : Decidable (IsWord text) := inferInstanceAs (Decidable (_ ∧ _))

theorem IsWord.undelimited {text : String} (word : IsWord text) : Undelimited text := by
  refine ⟨fun isMember => ?_, fun isMember => ?_, fun isMember => ?_⟩ <;>
    exact absurd (word.2 _ isMember) (by decide)

theorem isWordChar_of_isDigit {c : Char} (isDigit : c.isDigit = true) : isWordChar c = true := by
  have delimiters : [' ', '\t', '\'', '(', ')', ','].any Char.isDigit = false := by decide
  rw [isWordChar, Bool.not_eq_true', List.contains_eq_mem, decide_eq_false_iff_not]
  intro isMember
  exact List.any_eq_false.mp delimiters c isMember isDigit

/-! ## Characters of numbers, times and identifiers -/

theorem wordChars_nil : WordChars [] := fun _ isMember => absurd isMember List.not_mem_nil

theorem wordChars_cons {c : Char} (isFirst : isWordChar c = true) {chars : List Char}
    (others : WordChars chars) : WordChars (c :: chars) := by
  intro other isMember
  rcases List.mem_cons.mp isMember with rfl | isMember
  · exact isFirst
  · exact others other isMember

theorem wordChars_append {first second : List Char} (left : WordChars first)
    (right : WordChars second) : WordChars (first ++ second) := by
  intro c isMember
  rcases List.mem_append.mp isMember with isMember | isMember
  · exact left c isMember
  · exact right c isMember

theorem WordChars.of_subset {chars other : List Char} (word : WordChars other)
    (subset : ∀ c ∈ chars, c ∈ other) : WordChars chars :=
  fun c isMember => word c (subset c isMember)

theorem wordChars_toDigits (n : Nat) : WordChars (Nat.toDigits 10 n) := fun _ isMember =>
  isWordChar_of_isDigit (Nat.isDigit_of_mem_toDigits (by decide) (by decide) isMember)

theorem wordChars_zeros (n : Nat) : WordChars (List.replicate n '0') := by
  intro c isMember
  rw [List.eq_of_mem_replicate isMember]
  decide

theorem wordChars_positional (keepsPoint : Bool) {digits : List Char} (word : WordChars digits)
    (point : Int) : WordChars (Number.positional keepsPoint digits point) := by
  unfold Number.positional
  split
  · exact wordChars_cons (by decide) (wordChars_cons (by decide)
      (wordChars_append (wordChars_zeros _) word))
  · split
    · refine wordChars_append (wordChars_append word (wordChars_zeros _)) ?_
      split
      · exact wordChars_cons (by decide) (wordChars_cons (by decide) wordChars_nil)
      · exact wordChars_nil
    · exact wordChars_append (word.of_subset fun _ => List.mem_of_mem_take)
        (wordChars_cons (by decide) (word.of_subset fun _ => List.mem_of_mem_drop))

theorem positional_ne_nil (keepsPoint : Bool) (digits : List Char) (point : Int) :
    Number.positional keepsPoint digits point ≠ [] := by
  unfold Number.positional
  split
  · simp
  · rename_i positive
    split
    · cases digits with
      | cons d more => simp
      | nil =>
          have some : point.toNat ≠ 0 := by omega
          simp [some]
    · simp

theorem wordChars_scientific {digits : List Char} (word : WordChars digits) (exponent : Int) :
    WordChars (Number.scientific digits exponent) := by
  unfold Number.scientific
  refine wordChars_append ?_ (wordChars_cons (by decide)
    (wordChars_cons (by split <;> decide) (wordChars_toDigits _)))
  split
  · exact wordChars_nil
  · exact word
  · rename_i d more _
    exact wordChars_cons (word d List.mem_cons_self) (wordChars_cons (by decide)
      (word.of_subset fun _ => List.mem_cons_of_mem _))

theorem isWord_ofList {chars : List Char} (some : chars ≠ []) (word : WordChars chars) :
    IsWord (String.ofList chars) := by
  rw [IsWord, String.toList_ofList]
  exact ⟨some, word⟩

theorem wordChars_magnitude (style : Number.Style) (value : Number.Binary) :
    WordChars (style.magnitude value) := by
  unfold Number.Style.magnitude
  split
  · split <;> decide
  · have digits : WordChars ((Number.natChars (value.shortest style.tie).digits).reverse.dropWhile
        (· == '0')).reverse := by
      apply (wordChars_toDigits (value.shortest style.tie).digits).of_subset
      intro c isMember
      exact List.mem_reverse.mp ((List.dropWhile_sublist _).subset (List.mem_reverse.mp isMember))
    dsimp only
    split
    · exact wordChars_positional _ digits _
    · exact wordChars_scientific digits _

theorem magnitude_ne_nil (style : Number.Style) (value : Number.Binary) :
    style.magnitude value ≠ [] := by
  unfold Number.Style.magnitude
  split
  · split <;> simp
  · dsimp only
    split
    · exact positional_ne_nil _ _ _
    · simp [Number.scientific]

/-- Every float is written as one word. -/
theorem isWord_write (style : Number.Style) (x : Float) : IsWord (style.write x) := by
  unfold Number.Style.write
  split
  · decide
  · split <;> decide
  · apply isWord_ofList
    · split
      · simp
      · exact magnitude_ne_nil _ _
    · split
      · exact wordChars_cons (by decide) (wordChars_magnitude _ _)
      · exact wordChars_magnitude _ _

theorem isWord_toString (value : Int) : IsWord (toString value) := by
  have natural (n : Nat) : IsWord (Nat.repr n) :=
    isWord_ofList Nat.toDigits_ne_nil (wordChars_toDigits n)
  cases value with
  | ofNat n => exact natural n
  | negSucc n =>
      have chars : (toString (Int.negSucc n)).toList = '-' :: (Nat.repr (n + 1)).toList := by
        show ("-" ++ Nat.repr (n + 1)).toList = _
        rw [String.toList_append]
        rfl
      rw [IsWord, chars]
      exact ⟨by simp, wordChars_cons (by decide) (natural (n + 1)).2⟩

theorem wordChars_padded (width n : Nat) : WordChars (Time.padded width n) :=
  wordChars_append (wordChars_zeros _) (wordChars_toDigits n)

theorem wordChars_date (date : Time.Date) : WordChars date.chars := by
  have year : WordChars (Time.yearChars date.year) := by
    unfold Time.yearChars
    split
    · exact wordChars_cons (by decide) (wordChars_padded _ _)
    · split
      · exact wordChars_cons (by decide) (wordChars_padded _ _)
      · exact wordChars_padded _ _
  have months := wordChars_append year
    (wordChars_cons (c := '-') (by decide) (wordChars_padded 2 date.month))
  exact wordChars_append months (wordChars_cons (by decide) (wordChars_padded 2 date.day))

/-- Every instant is written as one word, with its zone. -/
theorem isWord_zonedText (instant : Time.Instant) : IsWord instant.zonedText := by
  apply isWord_ofList
  · simp
  · have clock : WordChars (instant.clockChars 3) := by
      unfold Time.Instant.clockChars
      have hours := wordChars_append (wordChars_padded 2 (instant.second / 60 / 60))
        (wordChars_cons (c := ':') (by decide) (wordChars_padded 2 (instant.second / 60 % 60)))
      have seconds := wordChars_append hours (wordChars_cons (c := ':') (by decide)
        (wordChars_padded 2 (instant.second % 60 + instant.nanosecond / Time.nanosPerSecond)))
      exact wordChars_append seconds (wordChars_cons (by decide) (wordChars_padded 3 _))
    have text : WordChars (instant.chars 3) :=
      wordChars_append (wordChars_date instant.date) (wordChars_cons (by decide) clock)
    exact wordChars_append text (wordChars_cons (by decide) wordChars_nil)

/-- Every identifier is written as one word. -/
theorem isWord_uuid (id : Uuid) : IsWord id.text := by
  have digit : ∀ d : Fin 16, isWordChar (Uuid.digitChar d) = true := by decide
  constructor
  · apply List.ne_nil_of_length_pos
    rw [Uuid.length_toList_text]
    decide
  · intro c isMember
    rw [Uuid.text, String.toList_ofList] at isMember
    rcases Uuid.mem_hyphenate isMember with rfl | isMember
    · decide
    · obtain ⟨d, _, rfl⟩ := List.mem_map.mp isMember
      exact digit d

/-! ## Literals -/

namespace Literal

/-- The text of a literal that is a text. -/
def text? : Literal → Option String
  | some (.text value) => some value
  | _ => none

theorem expression_of_text? {value : Literal} {text : String} (isText : value.text? = some text) :
    value.expression = Text.quote text := by
  unfold text? at isText
  split at isText
  · rw [Option.some.inj isText]
    rfl
  · cases isText

/-- A literal that is no text is written as one word. -/
theorem isWord_expression {value : Literal} (noText : value.text? = none) :
    IsWord value.expression := by
  match value with
  | none => exact (by decide : IsWord "null")
  | some (.text _) => cases noText
  | some (.integer value) => exact isWord_toString value.toInt
  | some (.decimal value) => exact isWord_write Number.Style.plain value
  | some (.boolean true) => exact (by decide : IsWord "true")
  | some (.boolean false) => exact (by decide : IsWord "false")
  | some (.instant value) => exact isWord_zonedText value
  | some (.uuid value) => exact isWord_uuid value

end Literal

end OData.Filter
