import Gatehouse.Credentials.UserTable
import Gatehouse.Proofs.Json.Pretty

set_option autoImplicit false

/-!
# User tables in files

A table that is written to a file is read back as the same table, whatever the names and the stored
passwords are.
-/

namespace Gatehouse.UserTable

open Json

theorem insertEntry_of_lt {name stored : String} {entries : List (String × String)}
    (h : ∀ entry ∈ entries, entry.1 < name) :
    insertEntry name stored entries = entries ++ [(name, stored)] := by
  induction entries with
  | nil => rfl
  | cons head rest ih =>
    obtain ⟨other, value⟩ := head
    have hother : other < name := h (other, value) List.mem_cons_self
    have hne : name ≠ other := fun heq => String.lt_irrefl _ (heq ▸ hother)
    have hrest := ih fun entry hentry => h entry (List.mem_cons_of_mem _ hentry)
    rw [insertEntry, if_neg (String.lt_asymm hother), if_neg hne, hrest]
    rfl

theorem entries_foldl_insert (pairs : List (String × String)) (table : UserTable)
    (h : (table.entries ++ pairs).Pairwise fun a b => a.1 < b.1) :
    (pairs.foldl (fun table pair => table.insert pair.1 pair.2) table).entries =
      table.entries ++ pairs := by
  induction pairs generalizing table with
  | nil => simp
  | cons pair pairs ih =>
    have hlt : ∀ entry ∈ table.entries, entry.1 < pair.1 := fun entry hentry =>
      (List.pairwise_append.1 h).2.2 entry hentry pair List.mem_cons_self
    have hentries : (table.insert pair.1 pair.2).entries = table.entries ++ [pair] :=
      insertEntry_of_lt hlt
    rw [List.foldl_cons, ih _ (by rw [hentries]; simpa using h), hentries]
    simp

theorem ofPairs_entries (table : UserTable) : ofPairs table.entries = table := by
  have hentries := entries_foldl_insert table.entries empty (by simpa [empty] using table.sorted)
  obtain ⟨entries, sorted⟩ := table
  rw [ofPairs]
  generalize List.foldl _ empty entries = read at hentries
  obtain ⟨found, hfound⟩ := read
  simpa [empty] using hentries

theorem textMembers?_ofFields (entries : List (String × String)) :
    (Json.ofFields (entries.map fun entry => (entry.1, .ofText entry.2))).textMembers? =
      some entries := by
  rw [Json.ofFields, List.map_map, textMembers?]
  induction entries with
  | nil => rfl
  | cons entry entries ih => simp_all [Json.ofText, Json.text?]

theorem ofJson?_toJson (table : UserTable) : ofJson? table.toJson = some table := by
  rw [ofJson?, toJson, textMembers?_ofFields, Option.map_some, ofPairs_entries]

theorem writable_toJson (table : UserTable) : Writable table.toJson := by
  refine .object ?_ ?_
  · intro member hmember
    obtain ⟨field, -, rfl⟩ := List.mem_map.1 hmember
    rfl
  · intro member hmember
    obtain ⟨field, hfield, rfl⟩ := List.mem_map.1 hmember
    obtain ⟨entry, -, rfl⟩ := List.mem_map.1 hfield
    exact .text entry.2

/-- The table that bytes stand for, if they are one. -/
def ofBytes? (bytes : List UInt8) : Option UserTable :=
  (Json.parse? bytes).bind ofJson?

theorem ofBytes?_content (table : UserTable) :
    ofBytes? (JsonFile.content table.toJson) = some table := by
  rw [ofBytes?, parse?_content table.writable_toJson, Option.bind_some, ofJson?_toJson]

/-- Every entry of one table is in another as well. -/
def Extends (users more : UserTable) : Prop :=
  ∀ name stored, users.get? name = some stored → more.get? name = some stored

theorem extends_insert {users : UserTable} {name : String} (stored : String)
    (hnew : users.contains name = false) : users.Extends (users.insert name stored) := by
  intro other value hother
  rw [get?_insert, if_neg, hother]
  rintro rfl
  rw [contains, hother] at hnew
  cases hnew

theorem get?_of_contains_false {users : UserTable} {name : String}
    (h : users.contains name = false) : users.get? name = none := by
  rw [contains] at h
  cases hget : users.get? name with
  | none => rfl
  | some stored =>
    rw [hget] at h
    cases h

end Gatehouse.UserTable
