/-
# Bound entities

The entities bound to another one: key and address of each, in the order in which
they were found. A key occurs once; when it is found again, its address is
replaced in its place.
-/

import OData.Text.Character
import OData.Text.Search

namespace OData.Association

/-- The bound entities in order of discovery. -/
structure State where
  /-- Key and address of each. -/
  entries : List (String × String)
  deriving DecidableEq

namespace State

/-- Nothing is bound. -/
def empty : State := ⟨[]⟩

/-- Put a key into a sequence of entries. -/
def put (key url : String) : List (String × String) → List (String × String)
  | [] => [(key, url)]
  | (other, kept) :: rest =>
      if other = key then (other, url) :: rest else (other, kept) :: put key url rest

/-- Note that a key is bound, under an address. -/
def insert (state : State) (key url : String) : State := ⟨put key url state.entries⟩

/-- The bound keys in order. -/
def keys (state : State) : List String := state.entries.map Prod.fst

/-- The key is bound. -/
def contains (state : State) (key : String) : Bool := state.keys.contains key

/-- The address of a bound key. -/
def url? (state : State) (key : String) : Option String :=
  (state.entries.find? fun entry => entry.1 == key).map Prod.snd

/-- The state that results from inserting the given entries one after another. -/
def ofList (entries : List (String × String)) : State :=
  entries.foldl (fun state entry => state.insert entry.1 entry.2) empty

/-- Putting a key binds it and nothing else. -/
theorem mem_keys_put (key url other : String) (entries : List (String × String)) :
    other ∈ (put key url entries).map Prod.fst ↔ other = key ∨ other ∈ entries.map Prod.fst := by
  induction entries with
  | nil => simp [put]
  | cons entry rest ih =>
      obtain ⟨name, kept⟩ := entry
      by_cases same : name = key
      · subst same; simp [put]
      · simp [put, same, ih, or_left_comm]

theorem nodup_keys_put {key url : String} {entries : List (String × String)}
    (distinct : (entries.map Prod.fst).Nodup) : ((put key url entries).map Prod.fst).Nodup := by
  induction entries with
  | nil => simp [put]
  | cons entry rest ih =>
      obtain ⟨name, kept⟩ := entry
      obtain ⟨fresh, others⟩ := List.nodup_cons.mp distinct
      by_cases same : name = key
      · simp only [put, same, if_true, List.map_cons, List.nodup_cons]
        exact ⟨same ▸ fresh, others⟩
      · simp only [put, same, if_false, List.map_cons, List.nodup_cons]
        exact ⟨fun h => ((mem_keys_put key url name rest).mp h).elim same fresh, ih others⟩

/-- Inserting keeps the keys different. -/
theorem nodup_keys_insert {state : State} (distinct : state.keys.Nodup) (key url : String) :
    (state.insert key url).keys.Nodup :=
  nodup_keys_put distinct

end State

end OData.Association
