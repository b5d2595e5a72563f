/-
# Headers

Ordered lists of headers. Names are compared without regard to ASCII case, and
no name occurs twice in a list built by `set`.
-/

import OData.Text.Character

namespace OData.Http

/-- Headers in order. -/
structure Headers where
  entries : List (String × String)
  deriving DecidableEq

namespace Headers

/-- No headers. -/
def empty : Headers := ⟨[]⟩

/-- The value of the first header of a name. -/
def get? (headers : Headers) (name : String) : Option String :=
  (headers.entries.find? fun entry => Text.sameIgnoringCase entry.1 name).map Prod.snd

/-- Remove the headers of a name. -/
def remove (headers : Headers) (name : String) : Headers :=
  ⟨headers.entries.filter fun entry => !Text.sameIgnoringCase entry.1 name⟩

/-- Put a header at the end, in place of any of that name. -/
def set (headers : Headers) (name value : String) : Headers :=
  ⟨(headers.remove name).entries ++ [(name, value)]⟩

/-- The headers that result from setting the given ones one after another. -/
def ofList (entries : List (String × String)) : Headers :=
  entries.foldl (fun headers entry => headers.set entry.1 entry.2) empty

/-- Number of headers. -/
def size (headers : Headers) : Nat := headers.entries.length

/-- There are no headers. -/
def isEmpty (headers : Headers) : Bool := headers.entries.isEmpty

/-- No two headers have the same name, whatever its case. -/
def Distinct (headers : Headers) : Prop :=
  headers.entries.Pairwise fun first second => Text.sameIgnoringCase first.1 second.1 = false

theorem distinct_empty : empty.Distinct := List.Pairwise.nil

/-- Removing headers keeps names different. -/
theorem distinct_remove {headers : Headers} (distinct : headers.Distinct) (name : String) :
    (headers.remove name).Distinct :=
  List.Pairwise.sublist List.filter_sublist distinct

/-- Setting a header keeps names different. -/
theorem distinct_set {headers : Headers} (distinct : headers.Distinct) (name value : String) :
    (headers.set name value).Distinct := by
  refine List.pairwise_append.mpr ⟨distinct_remove distinct name, List.pairwise_singleton _ _, ?_⟩
  intro entry kept last isLast
  obtain rfl := List.mem_singleton.mp isLast
  simpa using (List.mem_filter.mp kept).2

/-- A header that was set is found under its name in any case, and all others are left as
they were. -/
theorem get?_set (headers : Headers) (name value other : String) :
    (headers.set name value).get? other =
      if Text.sameIgnoringCase name other then some value else headers.get? other := by
  cases same : Text.sameIgnoringCase name other with
  | true =>
      have removed : (headers.remove name).entries.find?
          (fun entry => Text.sameIgnoringCase entry.1 other) = none := by
        rw [List.find?_eq_none]
        intro entry kept
        rw [← Text.sameIgnoringCase_congr same]
        simpa using (List.mem_filter.mp kept).2
      simp [get?, set, removed, same]
  | false =>
      -- An entry of the other name is none that was removed.
      have kept : (fun entry : String × String => !Text.sameIgnoringCase entry.1 name &&
          Text.sameIgnoringCase entry.1 other) =
          fun entry => Text.sameIgnoringCase entry.1 other := by
        funext entry
        cases found : Text.sameIgnoringCase entry.1 other with
        | false => exact Bool.and_false _
        | true =>
            rw [Text.sameIgnoringCase_comm] at found same
            rw [Text.sameIgnoringCase_comm, Text.sameIgnoringCase_congr found] at same
            simp [Text.sameIgnoringCase_comm entry.1 name, same]
      simp [get?, set, remove, List.find?_append, List.find?_filter, kept, same]

end Headers

end OData.Http
