/-
# TOML values

The values of configuration files, and the tables that hold them. A table keeps
its entries in the order in which they were first written.
-/

namespace OData

/-- A value of a configuration file. -/
inductive Toml where
  | string (value : String)
  | integer (value : Int)
  | boolean (value : Bool)
  | array (items : List Toml)
  | table (entries : List (String × Toml))

namespace Toml

instance : Inhabited Toml := ⟨.boolean false⟩

/-- How a table came to be, and so how it may grow. -/
inductive Origin where
  /-- A header below it names it on its path. -/
  | implied
  /-- It has a header of its own. -/
  | headed
  /-- A dotted key names it on its path. -/
  | dotted
  deriving DecidableEq

/-- A table under construction. -/
inductive Node where
  | leaf (value : Toml)
  | table (origin : Origin) (entries : List (String × Node))

/-- The entries of a table under construction. -/
abbrev Entries := List (String × Node)

/-- Change the entry of a key, which may be new; none when the change fails. -/
def Entries.update (key : String) (change : Option Node → Option Node) :
    Entries → Option Entries
  | [] => (change none).map fun node => [(key, node)]
  | (other, node) :: rest =>
      if other = key then (change (some node)).map fun changed => (other, changed) :: rest
      else (Entries.update key change rest).map ((other, node) :: ·)

/-- Change the entries of the table at a path; tables on the way are made as
needed, of the given origin, and must allow to be entered. -/
def Entries.within (origin : Origin) (enter : Origin → Bool)
    (change : Entries → Option Entries) : (path : List String) → Entries → Option Entries
  | [], entries => change entries
  | key :: path, entries => entries.update key fun node =>
      match node with
      | none => (Entries.within origin enter change path []).map (.table origin)
      | some (.table old inner) =>
          if enter old then (Entries.within origin enter change path inner).map (.table old)
          else none
      | some (.leaf _) => none

/-- Open the table of a header. It may be known from a header below it, but not
have a header already, nor come from a dotted key. -/
def Entries.openTable (path : List String) (entries : Entries) : Option Entries :=
  match path.reverse with
  | [] => none
  | key :: above =>
      Entries.within .implied (fun _ => true) (Entries.update key fun node =>
        match node with
        | none => some (.table .headed [])
        | some (.table .implied inner) => some (.table .headed inner)
        | some _ => none) above.reverse entries

/-- Give a key of a table a value, once. -/
def Entries.assign (path : List String) (value : Toml) (entries : Entries) : Option Entries :=
  match path.reverse with
  | [] => none
  | key :: above =>
      Entries.within .dotted (· == .dotted) (Entries.update key fun node =>
        match node with
        | none => some (.leaf value)
        | some _ => none) above.reverse entries

mutual

/-- The finished value of a node. -/
def Node.value : Node → Toml
  | .leaf value => value
  | .table _ entries => .table (Node.values entries)

/-- The finished entries of a table. -/
def Node.values : List (String × Node) → List (String × Toml)
  | [] => []
  | (key, node) :: rest => (key, node.value) :: Node.values rest

end

/-- The slots of the named members of a structure: of a table by name, or of an
array in order. -/
def slots? (names : List String) : Toml → Option (List (Option Toml))
  | .table entries => some (names.map fun name =>
      (entries.find? fun entry => entry.1 == name).map Prod.snd)
  | .array items =>
      if names.length < items.length then none
      else some (items.map some ++ List.replicate (names.length - items.length) none)
  | _ => none

/-- The text of a value. -/
def string? : Toml → Option String
  | .string value => some value
  | _ => none

/-- The truth value of a value. -/
def boolean? : Toml → Option Bool
  | .boolean value => some value
  | _ => none

/-- The texts of an array of them. -/
def strings? : Toml → Option (List String)
  | .array items => items.mapM string?
  | _ => none

/-- The entries of a table. -/
def entries? : Toml → Option (List (String × Toml))
  | .table entries => some entries
  | _ => none

end Toml

end OData
