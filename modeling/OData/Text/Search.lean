/-
# Searching in texts

Cutting a text at the first occurrence of a separator, and splitting it at every
occurrence of a character. Both lose nothing but the separators they cut at.
-/

namespace OData.Text

/-- Cut `chars` around the first occurrence of `separator`; none when it does not
occur. An empty separator occurs at the start. -/
def cutChars? (separator : List Char) : List Char → Option (List Char × List Char)
  | [] => if separator.isEmpty then some ([], []) else none
  | c :: rest =>
      if separator.isPrefixOf (c :: rest) then some ([], (c :: rest).drop separator.length)
      else (cutChars? separator rest).map fun parts => (c :: parts.1, parts.2)

/-- The parts of a text before and after the first occurrence of a separator. -/
def cut? (separator text : String) : Option (String × String) :=
  (cutChars? separator.toList text.toList).map fun parts =>
    (String.ofList parts.1, String.ofList parts.2)

/-- The word occurs somewhere in the characters. -/
def occursIn (word chars : List Char) : Bool :=
  (cutChars? word chars).isSome

/-- The pieces of `chars` between the occurrences of `separator`, at least one. -/
def splitChars (separator : Char) : List Char → List (List Char)
  | [] => [[]]
  | c :: rest =>
      match splitChars separator rest with
      | [] => [[c]]
      | piece :: pieces =>
          if c = separator then [] :: piece :: pieces else (c :: piece) :: pieces

/-- The pieces of a text between the occurrences of a character, at least one. -/
def splitAt (separator : Char) (text : String) : List String :=
  (splitChars separator text.toList).map String.ofList

/-- Cutting loses the separator and nothing else. -/
theorem cutChars?_append {separator chars before after : List Char}
    (h : cutChars? separator chars = some (before, after)) :
    chars = before ++ separator ++ after := by
  induction chars generalizing before with
  | nil =>
      cases separator with
      | nil => simp [cutChars?] at h; simp [h]
      | cons => simp [cutChars?] at h
  | cons c rest ih =>
      simp only [cutChars?] at h
      split at h
      · rename_i found
        obtain ⟨tail, htail⟩ := List.isPrefixOf_iff_prefix.mp found
        simp only [Option.some.injEq, Prod.mk.injEq] at h
        obtain ⟨rfl, rfl⟩ := h
        simp [← htail]
      · obtain ⟨parts, hparts, heq⟩ := Option.map_eq_some_iff.mp h
        simp only [Prod.mk.injEq] at heq
        obtain ⟨rfl, rfl⟩ := heq
        simp [ih hparts]

/-- There is always a first piece. -/
theorem splitChars_ne_nil (separator : Char) (chars : List Char) :
    splitChars separator chars ≠ [] := by
  cases chars with
  | nil => simp [splitChars]
  | cons c rest =>
      simp only [splitChars]
      split
      · simp
      · split <;> simp

end OData.Text
