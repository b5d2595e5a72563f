/-
# Symbols of an expression

What a server sees of a filter expression before it looks for words: single
characters, and literals between single quotes. Inside a literal two quotes stand
for one, so a literal ends at the first quote that has no second one behind it.
`Spells` says that characters are those symbols in front of anything that does not
begin with a quote; every piece of an expression is put behind others by it, and
no piece has to look at more than the next character.
-/

import OData.Text.Escaped

namespace OData.Filter

/-- A symbol of an expression. -/
inductive Symbol where
  /-- A character outside literals. -/
  | char (c : Char)
  /-- A literal, with its doubled quotes taken as single ones. -/
  | literal (text : String)
  deriving DecidableEq

namespace Symbol

mutual

/-- The symbols of characters outside a literal; none when a literal is not closed. -/
def outside? : List Char → Option (List Symbol)
  | [] => some []
  | c :: rest =>
      if c = '\'' then inside? [] rest else (outside? rest).map (.char c :: ·)

/-- The symbols of characters inside a literal of which some were seen. -/
def inside? (seen : List Char) : List Char → Option (List Symbol)
  | [] => none
  | c :: rest =>
      if c = '\'' then
        match rest with
        | [] => some [.literal (String.ofList seen)]
        | next :: more =>
            if next = '\'' then inside? (seen ++ ['\'']) more
            else (outside? (next :: more)).map (.literal (String.ofList seen) :: ·)
      else inside? (seen ++ [c]) rest

end

/-- The symbols of a text. -/
def ofText? (text : String) : Option (List Symbol) := outside? text.toList

/-- The texts of the literals, in order. -/
def literals (symbols : List Symbol) : List String :=
  symbols.filterMap fun symbol =>
    match symbol with
    | .char _ => none
    | .literal text => some text

/-- How deep a symbol leads from a depth of open parentheses; none when it closes
one that was not opened. Parentheses inside literals do not count. -/
def nest (depth : Nat) : Symbol → Option Nat
  | .char c =>
      if c = '(' then some (depth + 1)
      else if c = ')' then if depth = 0 then none else some (depth - 1)
      else some depth
  | .literal _ => some depth

/-- How deep symbols lead from a depth of open parentheses. -/
def nestAll (depth : Nat) (symbols : List Symbol) : Option Nat := symbols.foldlM nest depth

/-- The symbols of a text without literals. -/
def plain (text : String) : List Symbol := text.toList.map .char

/-! ## Spelling -/

/-- The characters are the symbols, in front of anything that begins with no quote. -/
def Spells (chars : List Char) (symbols : List Symbol) : Prop :=
  ∀ rest : List Char, rest.head? ≠ some '\'' →
    outside? (chars ++ rest) = (outside? rest).map (symbols ++ ·)

theorem outside?_plain {text : String} (unquoted : '\'' ∉ text.toList) (rest : List Char) :
    outside? (text.toList ++ rest) = (outside? rest).map (plain text ++ ·) := by
  have byChars (chars : List Char) (noQuote : '\'' ∉ chars) :
      outside? (chars ++ rest) = (outside? rest).map (chars.map Symbol.char ++ ·) := by
    induction chars with
    | nil => simp
    | cons c chars ih =>
        obtain ⟨isOther, others⟩ := List.ne_and_not_mem_of_not_mem_cons noQuote
        rw [List.cons_append, outside?, if_neg (Ne.symm isOther), ih others]
        cases outside? rest <;> rfl
  exact byChars text.toList unquoted

theorem inside?_closing (seen : List Char) {rest : List Char} (ends : rest.head? ≠ some '\'') :
    inside? seen ('\'' :: rest) =
      (outside? rest).map (.literal (String.ofList seen) :: ·) := by
  rw [inside?.eq_def]
  cases rest with
  | nil => rfl
  | cons next more =>
      have isOther : next ≠ '\'' := fun same => ends (congrArg some same)
      simp only [if_true, if_neg isOther]

theorem inside?_doubled (seen rest : List Char) :
    inside? seen ('\'' :: '\'' :: rest) = inside? (seen ++ ['\'']) rest := by
  rw [inside?.eq_def]
  simp only [if_true]

theorem inside?_other {c : Char} (isOther : c ≠ '\'') (seen rest : List Char) :
    inside? seen (c :: rest) = inside? (seen ++ [c]) rest := by
  rw [inside?.eq_def]
  simp only [if_neg isOther]

theorem inside?_doubleQuotes (chars : List Char) {rest : List Char}
    (ends : rest.head? ≠ some '\'') (seen : List Char) :
    inside? seen (Text.doubleQuotes chars ++ '\'' :: rest) =
      (outside? rest).map (.literal (String.ofList (seen ++ chars)) :: ·) := by
  induction chars generalizing seen with
  | nil =>
      rw [Text.doubleQuotes, List.flatMap_nil, List.nil_append, List.append_nil]
      exact inside?_closing seen ends
  | cons c chars ih =>
      have next : seen ++ c :: chars = seen ++ [c] ++ chars := by simp
      by_cases same : c = '\''
      · subst same
        have doubled : Text.doubleQuotes ('\'' :: chars) =
            '\'' :: '\'' :: Text.doubleQuotes chars := rfl
        rw [doubled, List.cons_append, List.cons_append, inside?_doubled, next, ih]
      · have single : Text.doubleQuotes (c :: chars) = c :: Text.doubleQuotes chars := by
          rw [Text.doubleQuotes, List.flatMap_cons, if_neg same]
          rfl
        rw [single, List.cons_append, inside?_other same, next, ih]

theorem spells_nil : Spells [] [] := fun rest _ => by simp

/-- A quoted text is one literal, whatever it contains. -/
theorem spells_quote (text : String) : Spells (Text.quote text).toList [.literal text] := by
  intro rest ends
  have chars : (Text.quote text).toList ++ rest =
      '\'' :: (Text.doubleQuotes text.toList ++ '\'' :: rest) := by
    simp [Text.quote]
  rw [chars, outside?, if_pos rfl, inside?_doubleQuotes _ ends, List.nil_append,
    String.ofList_toList]
  rfl

/-- A text without quotes goes in front of anything. -/
theorem Spells.plain_append {text : String} (unquoted : '\'' ∉ text.toList) {chars : List Char}
    {symbols : List Symbol} (after : Spells chars symbols) :
    Spells (text.toList ++ chars) (plain text ++ symbols) := by
  intro rest ends
  rw [List.append_assoc, outside?_plain unquoted, after rest ends, Option.map_map]
  congr 1
  funext found
  exact (List.append_assoc _ _ _).symm

/-- Pieces follow one another, unless the second one begins with a quote. -/
theorem Spells.append {first second : List Char} {before after : List Symbol}
    (left : Spells first before) (right : Spells second after)
    (apart : second.head? ≠ some '\'') : Spells (first ++ second) (before ++ after) := by
  intro rest ends
  have joined : (second ++ rest).head? ≠ some '\'' := by
    cases second with
    | nil => exact ends
    | cons c second => exact apart
  rw [List.append_assoc, left _ joined, right rest ends, Option.map_map]
  congr 1
  funext found
  exact (List.append_assoc _ _ _).symm

theorem Spells.ofText? {text : String} {symbols : List Symbol}
    (spells : Spells text.toList symbols) : ofText? text = some symbols := by
  have whole := spells [] (by simp)
  rw [List.append_nil] at whole
  rw [Symbol.ofText?, whole]
  simp [outside?]

/-! ## Texts without delimiters -/

/-- A text that neither begins a literal nor opens or closes a parenthesis. -/
def Undelimited (text : String) : Prop :=
  '\'' ∉ text.toList ∧ '(' ∉ text.toList ∧ ')' ∉ text.toList

instance (text : String) : Decidable (Undelimited text) :=
  inferInstanceAs (Decidable (_ ∧ _ ∧ _))

/-- The text does not go on with a literal that it is put behind. -/
def StandsApart (text : String) : Prop := text.toList.head? ≠ some '\''

instance (text : String) : Decidable (StandsApart text) := inferInstanceAs (Decidable (_ ≠ _))

theorem StandsApart.append_of_ne {first : String} (left : StandsApart first)
    (some : first.toList ≠ []) (second : String) : StandsApart (first ++ second) := by
  obtain ⟨c, rest, chars⟩ := List.exists_cons_of_ne_nil some
  rw [StandsApart, chars] at left
  rw [StandsApart, String.toList_append, chars]
  exact left

theorem StandsApart.append {first second : String} (left : StandsApart first)
    (right : StandsApart second) : StandsApart (first ++ second) := by
  by_cases none : first = ""
  · rw [none, String.empty_append]
    exact right
  · exact left.append_of_ne (fun same => none (String.toList_eq_nil_iff.mp same)) second

theorem Undelimited.standsApart {text : String} (free : Undelimited text) : StandsApart text :=
  fun isFirst => free.1 (List.mem_of_head? isFirst)

theorem nestAll_append (depth : Nat) (first second : List Symbol) :
    nestAll depth (first ++ second) = (nestAll depth first).bind (nestAll · second) :=
  List.foldlM_append

theorem nestAll_plain {text : String} (free : Undelimited text) (depth : Nat) :
    nestAll depth (plain text) = some depth := by
  have byChars (chars : List Char) (noOpen : '(' ∉ chars) (noClose : ')' ∉ chars) :
      nestAll depth (chars.map Symbol.char) = some depth := by
    induction chars with
    | nil => rfl
    | cons c chars ih =>
        obtain ⟨isNoOpen, othersNoOpen⟩ := List.ne_and_not_mem_of_not_mem_cons noOpen
        obtain ⟨isNoClose, othersNoClose⟩ := List.ne_and_not_mem_of_not_mem_cons noClose
        have stays : nest depth (.char c) = some depth := by
          rw [nest, if_neg (Ne.symm isNoOpen), if_neg (Ne.symm isNoClose)]
        rw [List.map_cons, nestAll, List.foldlM_cons, stays]
        exact ih othersNoOpen othersNoClose
  exact byChars text.toList free.2.1 free.2.2

/-! ## Readings -/

/-- From a depth of open parentheses on, the text is read to its end outside
literals and at another depth. It closes no parenthesis that is not open, and the
literals in it are these. -/
def Reads (before : Nat) (text : String) (texts : List String) (after : Nat) : Prop :=
  ∃ symbols, Spells text.toList symbols ∧ literals symbols = texts ∧
    nestAll before symbols = some after

theorem reads_empty (depth : Nat) : Reads depth "" [] depth := ⟨[], spells_nil, rfl, rfl⟩

/-- A quoted text is read as itself, whatever it contains. -/
theorem reads_quote (depth : Nat) (text : String) : Reads depth (Text.quote text) [text] depth :=
  ⟨[.literal text], spells_quote text, rfl, rfl⟩

/-- A text without quotes goes in front of any other. -/
theorem Reads.behind {before between after : Nat} {first second : String} {texts : List String}
    (right : Reads between second texts after) (unquoted : '\'' ∉ first.toList)
    (leads : nestAll before (plain first) = some between) :
    Reads before (first ++ second) texts after := by
  obtain ⟨symbols, spells, rfl, secondLeads⟩ := right
  refine ⟨plain first ++ symbols, ?_, ?_, ?_⟩
  · rw [String.toList_append]
    exact spells.plain_append unquoted
  · rw [literals, plain, List.filterMap_append, List.filterMap_map]
    exact congrArg (· ++ _) (List.filterMap_eq_nil_iff.mpr fun _ _ => rfl)
  · rw [nestAll_append, leads]
    exact secondLeads

/-- Texts without quotes hold no literals. -/
theorem reads_plain {text : String} (unquoted : '\'' ∉ text.toList) {before after : Nat}
    (leads : nestAll before (plain text) = some after) : Reads before text [] after := by
  simpa using (reads_empty after).behind unquoted leads

theorem Undelimited.reads {text : String} (free : Undelimited text) (depth : Nat) :
    Reads depth text [] depth :=
  reads_plain free.1 (nestAll_plain free depth)

/-- What stands apart is read where the text before it ended. -/
theorem Reads.append {before between after : Nat} {first second : String}
    {firstTexts secondTexts : List String} (left : Reads before first firstTexts between)
    (right : Reads between second secondTexts after) (apart : StandsApart second) :
    Reads before (first ++ second) (firstTexts ++ secondTexts) after := by
  obtain ⟨firstSymbols, firstSpells, rfl, firstLeads⟩ := left
  obtain ⟨secondSymbols, secondSpells, rfl, secondLeads⟩ := right
  refine ⟨firstSymbols ++ secondSymbols, ?_, List.filterMap_append, ?_⟩
  · rw [String.toList_append]
    exact firstSpells.append secondSpells apart
  · rw [nestAll_append, firstLeads]
    exact secondLeads

end Symbol

end OData.Filter
