import Gatehouse.Settings.Value

set_option autoImplicit false

/-!
# Tables of a configuration file

A file is a list of headers and of named values below them. Names with dots make tables on their
way. A name is given a value once: a table is opened by one header or by dotted names, and neither
reaches into a value that is complete. A table of which so far only the inside was opened can still
be opened either way.
-/

namespace Gatehouse.Toml

inductive TableKind where
  /-- By a header of its own. -/
  | headed
  /-- By a header of a table inside it. -/
  | implied
  /-- By a dotted name. -/
  | dotted
  deriving DecidableEq, Repr

inductive Node where
  | value (value : ConfigValue)
  | table (kind : TableKind) (entries : List (String × Node))
  /-- Tables that share a header, in order. -/
  | rows (tables : List (List (String × Node)))

abbrev Entries := List (String × Node)

namespace Entries

def replace (name : String) (node : Node) (entries : Entries) : Entries :=
  entries.map fun entry => if entry.1 = name then (name, node) else entry

/-- Changes the table at the end of a way, by headers or by a dotted name. Missing tables are made.
Of several rows the last is meant. A dotted name does not lead into a table with a header, and any
other table on its way counts as made by dots from then on. -/
def changeAt (byDots : Bool) (change : TableKind → Entries → Option Entries) :
    List String → TableKind → Entries → Option Entries
  | [], kind, entries => change kind entries
  | name :: way, _, entries =>
    match entries.lookup name with
    | none => do
      let kind := if byDots then .dotted else .implied
      let inside ← changeAt byDots change way kind []
      some (entries ++ [(name, .table kind inside)])
    | some (.table kind inside) =>
      if byDots && kind = .headed then none
      else do
        let kind := if byDots then .dotted else kind
        let inside ← changeAt byDots change way kind inside
        some (entries.replace name (.table kind inside))
    | some (.rows tables) => do
      let inside ← changeAt byDots change way .headed (tables.getLast?.getD [])
      some (entries.replace name (.rows (tables.dropLast ++ [inside])))
    | some (.value _) => none

/-- Gives a name its value. The table that dots lead to must count as made by dots. -/
def addValue (way : List String) (name : String) (value : ConfigValue) (entries : Entries) :
    Option Entries :=
  entries.changeAt true
    (fun kind entries =>
      if way ≠ [] ∧ kind ≠ .dotted then none
      else if (entries.lookup name).isSome then none
      else some (entries ++ [(name, .value value)]))
    way .headed

def openTable (way : List String) (name : String) (entries : Entries) : Option Entries :=
  entries.changeAt false
    (fun _ entries =>
      match entries.lookup name with
      | none => some (entries ++ [(name, .table .headed [])])
      | some (.table .implied inside) => some (entries.replace name (.table .headed inside))
      | some _ => none)
    way .headed

def openRow (way : List String) (name : String) (entries : Entries) : Option Entries :=
  entries.changeAt false
    (fun _ entries =>
      match entries.lookup name with
      | none => some (entries ++ [(name, .rows [[]])])
      | some (.rows tables) => some (entries.replace name (.rows (tables ++ [[]])))
      | some _ => none)
    way .headed

end Entries

mutual

def Node.toValue : Node → ConfigValue
  | .value value => value
  | .table _ entries => .table (Entries.toValues entries)
  | .rows tables => .list (Entries.rowValues tables)

def Entries.toValues : List (String × Node) → List (String × ConfigValue)
  | [] => []
  | (name, node) :: rest => (name, node.toValue) :: Entries.toValues rest

def Entries.rowValues : List (List (String × Node)) → List ConfigValue
  | [] => []
  | entries :: rest => .table (Entries.toValues entries) :: Entries.rowValues rest

end

inductive Statement where
  | header (way : List String) (name : String)
  | rowHeader (way : List String) (name : String)
  | value (way : List String) (name : String) (value : ConfigValue)

/-- What has been read of a file: its tables, and the way to the one that is open. -/
structure Document where
  root : Entries := []
  current : List String := []

namespace Document

def add? (document : Document) : Statement → Option Document
  | .header way name => do
    some ⟨← document.root.openTable way name, way ++ [name]⟩
  | .rowHeader way name => do
    some ⟨← document.root.openRow way name, way ++ [name]⟩
  | .value way name value => do
    let root ← document.root.changeAt false (fun _ entries => entries.addValue way name value)
      document.current .headed
    some { document with root }

def tableOf? (statements : List Statement) : Option (List (String × ConfigValue)) :=
  (statements.foldlM add? {}).map fun document => Entries.toValues document.root

end Document

end Gatehouse.Toml
