import Gatehouse.Number.Binary64

set_option autoImplicit false

/-!
# Configuration values

What a source of settings says: single values, lists, and tables of named values. Sources are laid
over each other name by name: a table leaves the names alone that it does not have, and any other
value takes the place of what was there.
-/

namespace Gatehouse

inductive ConfigValue where
  | absent
  | flag (value : Bool)
  | integer (value : Int)
  | number (value : Binary64)
  | text (value : String)
  | list (items : List ConfigValue)
  | table (entries : List (String × ConfigValue))

namespace ConfigValue

/-- The named values of a table. Any other value has none. -/
def entries : ConfigValue → List (String × ConfigValue)
  | table entries => entries
  | _ => []

/-- The items of a list. Any other value has none. -/
def items : ConfigValue → List ConfigValue
  | list items => items
  | _ => []

def get? (value : ConfigValue) (name : String) : Option ConfigValue :=
  value.entries.lookup name

def changeEntry (name : String) (f : ConfigValue → ConfigValue) :
    List (String × ConfigValue) → List (String × ConfigValue)
  | [] => [(name, f absent)]
  | (other, value) :: rest =>
    if other = name then (name, f value) :: rest else (other, value) :: changeEntry name f rest

def changeName (name : String) (f : ConfigValue → ConfigValue) (value : ConfigValue) :
    ConfigValue :=
  table (changeEntry name f value.entries)

def changeItem (index : Int) (f : ConfigValue → ConfigValue) (value : ConfigValue) :
    ConfigValue :=
  let size : Int := value.items.length
  let position := if 0 ≤ index then index else size + index
  let before := List.replicate (-position).toNat absent ++ value.items
  let after := before ++ List.replicate (position.toNat + 1 - before.length) absent
  list (after.modify position.toNat f)

mutual

def overlay (below : ConfigValue) : ConfigValue → ConfigValue
  | table entries => overlayEntries (table below.entries) entries
  | absent => absent
  | flag value => flag value
  | integer value => integer value
  | number value => number value
  | text value => text value
  | list items => list items

def overlayEntries (below : ConfigValue) : List (String × ConfigValue) → ConfigValue
  | [] => below
  | (name, value) :: rest => overlayEntries (changeName name (overlay · value) below) rest

end

@[simp] theorem get?_table (entries : List (String × ConfigValue)) (name : String) :
    (table entries).get? name = entries.lookup name := rfl

theorem lookup_changeEntry (name other : String) (f : ConfigValue → ConfigValue)
    (entries : List (String × ConfigValue)) :
    (changeEntry name f entries).lookup other =
      if other = name then some (f ((entries.lookup name).getD absent))
      else entries.lookup other := by
  induction entries with
  | nil =>
    by_cases h : other = name
    · simp [changeEntry, h]
    · simp [changeEntry, List.lookup_cons, beq_eq_false_iff_ne.2 h, h]
  | cons head rest ih =>
    obtain ⟨key, value⟩ := head
    by_cases hk : key = name
    · subst hk
      by_cases h : other = key
      · simp [changeEntry, h]
      · simp [changeEntry, List.lookup_cons, beq_eq_false_iff_ne.2 h, h]
    · have hk' : (name == key) = false := beq_eq_false_iff_ne.2 (Ne.symm hk)
      by_cases h : other = name
      · subst h
        simp [changeEntry, hk, List.lookup_cons, hk', ih]
      · by_cases ho : other = key
        · subst ho
          simp [changeEntry, hk]
        · simp [changeEntry, hk, List.lookup_cons, beq_eq_false_iff_ne.2 ho, ih, h]

theorem get?_changeName (name other : String) (f : ConfigValue → ConfigValue)
    (value : ConfigValue) :
    (changeName name f value).get? other =
      if other = name then some (f ((value.get? name).getD absent)) else value.get? other :=
  lookup_changeEntry name other f value.entries

end ConfigValue

end Gatehouse
