/-
# The language of expressions

How a server reads a filter: symbols make tokens, and tokens make a formula. A
word is as long as it can be, and a word right in front of a parenthesis is the
name of a call, so a blank that is missing between `and` and `contains` makes a
call of `andcontains`. Comparisons bind tighter than `and`, and `and` binds tighter
than `or`; whether a word is an operand or one of the operators depends on where it
stands, which leaves every word free to be the name of a field.

The language is the part of OData that filters are written in. Arithmetic, paths
and quantifiers over collections are left out of it, and `not` is only read in
front of a parenthesis.
-/

import OData.Proofs.Filter.Word

namespace OData.Filter

/-- A token of an expression. -/
inductive Token where
  | word (text : String)
  | call (name : String)
  | opening
  | closing
  | comma
  | quoted (text : String)
  deriving DecidableEq

namespace Token

/-- The word that ends, if there is one. -/
def ofWord (seen : List Char) : List Token :=
  if seen.isEmpty then [] else [.word (String.ofList seen)]

/-- The tokens of symbols, behind a word of which some characters were seen. -/
def ofSymbols (seen : List Char) : List Symbol → List Token
  | [] => ofWord seen
  | .literal text :: rest => ofWord seen ++ .quoted text :: ofSymbols [] rest
  | .char c :: rest =>
      if isWordChar c then ofSymbols (seen ++ [c]) rest
      else if c = '(' then
        (if seen.isEmpty then .opening else .call (String.ofList seen)) :: ofSymbols [] rest
      else if c = ')' then ofWord seen ++ .closing :: ofSymbols [] rest
      else if c = ',' then ofWord seen ++ .comma :: ofSymbols [] rest
      else ofWord seen ++ ofSymbols [] rest

/-- The tokens of characters; none when a literal is not closed. -/
def ofChars? (chars : List Char) : Option (List Token) :=
  (Symbol.outside? chars).map (ofSymbols [])

end Token

/-- A comparison of two operands. -/
inductive Comparator where
  | equal
  | unequal
  | greater
  | greaterOrEqual
  | less
  | lessOrEqual
  | oneOf
  deriving DecidableEq

/-- The comparison that a word stands for behind an operand. -/
def Comparator.ofWord? (word : String) : Option Comparator :=
  match word with
  | "eq" => some .equal
  | "ne" => some .unequal
  | "gt" => some .greater
  | "ge" => some .greaterOrEqual
  | "lt" => some .less
  | "le" => some .lessOrEqual
  | "in" => some .oneOf
  | _ => none

/-- What an expression says. -/
inductive Formula where
  | word (text : String)
  | quoted (text : String)
  | call (name : String) (arguments : List Formula)
  | list (items : List Formula)
  | comparison (comparator : Comparator) (left right : Formula)
  | not (formula : Formula)
  | all (formulas : List Formula)
  | any (formulas : List Formula)

namespace Formula

/-- All of the formulas; a single one stands for itself. -/
def allOf : List Formula → Formula
  | [formula] => formula
  | formulas => .all formulas

/-- Any of the formulas; a single one stands for itself. -/
def anyOf : List Formula → Formula
  | [formula] => formula
  | formulas => .any formulas

/-- A call of a name; `not` is no function. -/
def called (name : String) (arguments : List Formula) : Formula :=
  match arguments with
  | [formula] => if name = "not" then .not formula else .call name arguments
  | _ => .call name arguments

theorem called_not (formula : Formula) : called "not" [formula] = .not formula := by
  rw [called, if_pos rfl]

theorem called_of_ne {name : String} (isFunction : name ≠ "not") (arguments : List Formula) :
    called name arguments = .call name arguments := by
  unfold called
  split
  · rw [if_neg isFunction]
  · rfl

end Formula

/-! ## Parsing -/

/-- What a level stands in: parentheses of its own, a list or a call. -/
inductive Opening where
  | group
  | list
  | call (name : String)

/-- How far a comparison was read. -/
inductive Reading where
  | nothing
  | operand (formula : Formula)
  | comparing (left : Formula) (comparator : Comparator)

/-- What was read since a parenthesis: the items before the last comma, then the
alternatives before the last `or`, then the conditions before the last `and`. -/
structure Level where
  opening : Opening
  items : List Formula := []
  alternatives : List Formula := []
  conditions : List Formula := []
  reading : Reading := .nothing

namespace Level

/-- An operand may come next. -/
def awaits (level : Level) : Bool :=
  match level.reading with
  | .operand _ => false
  | _ => true

/-- The level with one more operand. -/
def put (level : Level) (formula : Formula) : Level :=
  match level.reading with
  | .comparing left comparator =>
      { level with reading := .operand (.comparison comparator left formula) }
  | _ => { level with reading := .operand formula }

/-- The level after a word. -/
def word? (level : Level) (word : String) : Option Level :=
  match level.reading with
  | .operand formula =>
      if word = "and" then
        some { level with conditions := level.conditions ++ [formula], reading := .nothing }
      else if word = "or" then
        some { level with
          alternatives :=
            level.alternatives ++ [Formula.allOf (level.conditions ++ [formula])]
          conditions := []
          reading := .nothing }
      else
        (Comparator.ofWord? word).map fun comparator =>
          { level with reading := .comparing formula comparator }
  | _ => some (level.put (.word word))

/-- The item that ends. -/
def item? (level : Level) : Option Formula :=
  match level.reading with
  | .operand formula =>
      some (Formula.anyOf
        (level.alternatives ++ [Formula.allOf (level.conditions ++ [formula])]))
  | _ => none

/-- The level after a comma. -/
def next? (level : Level) : Option Level :=
  level.item?.map fun item => { opening := level.opening, items := level.items ++ [item] }

/-- What the level says when it ends. -/
def closed? (level : Level) : Option Formula :=
  level.item?.bind fun item =>
    match level.opening, level.items with
    | .group, [] => some item
    | .group, _ => none
    | .list, items => some (.list (items ++ [item]))
    | .call name, items => some (Formula.called name (items ++ [item]))

theorem word?_and {level : Level} {formula : Formula}
    (complete : level.reading = .operand formula) :
    level.word? "and" =
      some { level with conditions := level.conditions ++ [formula], reading := .nothing } := by
  rw [word?, complete]
  exact if_pos rfl

theorem word?_or {level : Level} {formula : Formula}
    (complete : level.reading = .operand formula) :
    level.word? "or" =
      some { level with
        alternatives := level.alternatives ++ [Formula.allOf (level.conditions ++ [formula])]
        conditions := []
        reading := .nothing } := by
  have notAnd : ¬"or" = "and" := by decide
  rw [word?, complete]
  exact (if_neg notAnd).trans (if_pos rfl)

theorem word?_comparator {level : Level} {formula : Formula}
    (complete : level.reading = .operand formula) {word : String} {comparator : Comparator}
    (compares : Comparator.ofWord? word = some comparator) :
    level.word? word = some { level with reading := .comparing formula comparator } := by
  have noJoint : ∀ joint ∈ ["and", "or"], Comparator.ofWord? joint = none := by decide
  have apart : word ∉ ["and", "or"] := by
    intro isMember
    rw [noJoint word isMember] at compares
    cases compares
  obtain ⟨notAnd, others⟩ := List.ne_and_not_mem_of_not_mem_cons apart
  obtain ⟨notOr, -⟩ := List.ne_and_not_mem_of_not_mem_cons others
  rw [word?, complete]
  exact (if_neg notAnd).trans ((if_neg notOr).trans (by rw [compares]; rfl))

/-- What a parenthesis opens: a list behind `in`. -/
def opens (level : Level) : Opening :=
  match level.reading with
  | .comparing _ .oneOf => .list
  | _ => .group

end Level

/-- The levels, the innermost one first, after a token. -/
def step (levels : List Level) (token : Token) : Option (List Level) :=
  match levels with
  | [] => none
  | level :: outer =>
      match token with
      | .word text => (level.word? text).map (· :: outer)
      | .quoted text => if level.awaits then some (level.put (.quoted text) :: outer) else none
      | .comma => level.next?.map (· :: outer)
      | .opening =>
          if level.awaits then some ({ opening := level.opens } :: level :: outer) else none
      | .call name =>
          if level.awaits then some ({ opening := .call name } :: level :: outer) else none
      | .closing =>
          match outer with
          | [] => none
          | below :: deeper => level.closed?.map fun formula => below.put formula :: deeper

/-- The levels after characters. -/
def read (levels : List Level) (chars : List Char) : Option (List Level) :=
  (Token.ofChars? chars).bind (·.foldlM step levels)

/-- What a text says, if it is an expression. -/
def parse? (text : String) : Option Formula :=
  (read [{ opening := .group }] text.toList).bind fun levels =>
    match levels with
    | [level] => level.closed?
    | _ => none

/-! ## Tokens of a text -/

/-- No word and no literal goes on here, and no word is called. -/
def EndsWord (rest : List Char) : Prop :=
  ∀ c ∈ rest.head?, isWordChar c = false ∧ c ≠ '(' ∧ c ≠ '\''

instance (rest : List Char) : Decidable (EndsWord rest) :=
  Option.decidableForallMem rest.head?

theorem endsWord_cons {c : Char} (ends : isWordChar c = false ∧ c ≠ '(' ∧ c ≠ '\'')
    (rest : List Char) : EndsWord (c :: rest) := by
  intro other isHead
  cases isHead
  exact ends

theorem endsWord_blank (text : String) : EndsWord (" " ++ text).toList := by
  rw [String.toList_append]
  exact endsWord_cons (by decide) text.toList

theorem EndsWord.append_of_ne {first : List Char} (left : EndsWord first) (some : first ≠ [])
    (second : List Char) : EndsWord (first ++ second) := by
  cases first with
  | nil => contradiction
  | cons c rest => exact left

theorem EndsWord.append {first second : List Char} (left : EndsWord first)
    (right : EndsWord second) : EndsWord (first ++ second) := by
  cases first with
  | nil => exact right
  | cons c rest => exact left

namespace Token

theorem ofSymbols_plain {chars : List Char} (word : WordChars chars) (seen : List Char)
    (rest : List Symbol) :
    ofSymbols seen (chars.map Symbol.char ++ rest) = ofSymbols (seen ++ chars) rest := by
  induction chars generalizing seen with
  | nil => rw [List.map_nil, List.nil_append, List.append_nil]
  | cons c chars ih =>
      have isFirst := word c List.mem_cons_self
      have others : WordChars chars := fun other isMember =>
        word other (List.mem_cons_of_mem c isMember)
      rw [List.map_cons, List.cons_append, ofSymbols, if_pos isFirst, ih others,
        List.append_assoc]
      rfl

theorem ofSymbols_endsWord {rest : List Char} (ends : EndsWord rest) {symbols : List Symbol}
    (spelled : Symbol.outside? rest = some symbols) (seen : List Char) :
    ofSymbols seen symbols = ofWord seen ++ ofSymbols [] symbols := by
  cases rest with
  | nil =>
      cases spelled
      exact (List.append_nil _).symm
  | cons c rest =>
      obtain ⟨noWord, noOpening, noQuote⟩ := ends c rfl
      rw [Symbol.outside?, if_neg noQuote] at spelled
      obtain ⟨others, -, rfl⟩ := Option.map_eq_some_iff.mp spelled
      have none : ofWord [] = [] := rfl
      have apart : ¬isWordChar c = true := by simp [noWord]
      simp only [ofSymbols, if_neg apart, if_neg noOpening, none]
      split
      · rfl
      · split <;> rfl

theorem ofChars?_word {word : String} (isWord : IsWord word) {rest : List Char}
    (ends : EndsWord rest) :
    ofChars? (word.toList ++ rest) = (ofChars? rest).map (.word word :: ·) := by
  rw [ofChars?, ofChars?, Symbol.outside?_plain isWord.undelimited.1]
  cases spelled : Symbol.outside? rest with
  | none => rfl
  | some symbols =>
      have whole : ofWord word.toList = [.word word] := by
        rw [ofWord, if_neg (by simpa using isWord.1), String.ofList_toList]
      simp only [Option.map_some, Symbol.plain]
      rw [ofSymbols_plain isWord.2, List.nil_append, ofSymbols_endsWord ends spelled, whole]
      rfl

theorem ofChars?_call {name : String} (isWord : IsWord name) (rest : List Char) :
    ofChars? (name.toList ++ '(' :: rest) = (ofChars? rest).map (.call name :: ·) := by
  rw [ofChars?, ofChars?, Symbol.outside?_plain isWord.undelimited.1, Symbol.outside?,
    if_neg (by decide)]
  cases Symbol.outside? rest with
  | none => rfl
  | some symbols =>
      simp only [Option.map_some, Symbol.plain]
      rw [ofSymbols_plain isWord.2, List.nil_append, ofSymbols, if_neg (by decide), if_pos rfl,
        if_neg (by simpa using isWord.1), String.ofList_toList]

theorem ofChars?_quote (text : String) {rest : List Char} (ends : EndsWord rest) :
    ofChars? ((Text.quote text).toList ++ rest) = (ofChars? rest).map (.quoted text :: ·) := by
  have noQuote : rest.head? ≠ some '\'' := fun isHead => (ends _ isHead).2.2 rfl
  rw [ofChars?, ofChars?, Symbol.spells_quote text rest noQuote]
  cases Symbol.outside? rest <;> rfl

theorem ofChars?_blank (rest : List Char) : ofChars? (' ' :: rest) = ofChars? rest := by
  rw [ofChars?, ofChars?, Symbol.outside?, if_neg (by decide)]
  cases Symbol.outside? rest <;> rfl

theorem ofChars?_opening (rest : List Char) :
    ofChars? ('(' :: rest) = (ofChars? rest).map (.opening :: ·) := by
  rw [ofChars?, ofChars?, Symbol.outside?, if_neg (by decide)]
  cases Symbol.outside? rest <;> rfl

theorem ofChars?_closing (rest : List Char) :
    ofChars? (')' :: rest) = (ofChars? rest).map (.closing :: ·) := by
  rw [ofChars?, ofChars?, Symbol.outside?, if_neg (by decide)]
  cases Symbol.outside? rest <;> rfl

theorem ofChars?_comma (rest : List Char) :
    ofChars? (',' :: rest) = (ofChars? rest).map (.comma :: ·) := by
  rw [ofChars?, ofChars?, Symbol.outside?, if_neg (by decide)]
  cases Symbol.outside? rest <;> rfl

end Token

/-- A token that comes first is taken first. -/
theorem read_of_ofChars? {chars rest : List Char} {token : Token}
    (tokens : Token.ofChars? chars = (Token.ofChars? rest).map (token :: ·))
    (levels : List Level) :
    read levels chars = (step levels token).bind (read · rest) := by
  unfold read
  rw [tokens]
  cases Token.ofChars? rest with
  | none => cases step levels token <;> rfl
  | some others => exact List.foldlM_cons

end OData.Filter
