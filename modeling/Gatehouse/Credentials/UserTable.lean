import Gatehouse.Json.Parser
import Gatehouse.Json.Printer
import Gatehouse.Json.Record

set_option autoImplicit false

/-!
# User tables

A finite map from names to stored passwords, kept in the order of its names. Two tables with the
same look-ups are equal, so the order in which users came leaves no trace.
-/

namespace Gatehouse

structure UserTable where
  entries : List (String × String)
  sorted : entries.Pairwise fun a b => a.1 < b.1

namespace UserTable

def empty : UserTable := ⟨[], .nil⟩

def get? (table : UserTable) (name : String) : Option String :=
  table.entries.lookup name

def contains (table : UserTable) (name : String) : Bool :=
  (table.get? name).isSome

/-- Puts an entry in its place; it replaces an entry of the same name. -/
def insertEntry (name stored : String) : List (String × String) → List (String × String)
  | [] => [(name, stored)]
  | (other, value) :: rest =>
    if name < other then (name, stored) :: (other, value) :: rest
    else if name = other then (name, stored) :: rest
    else (other, value) :: insertEntry name stored rest

theorem mem_insertEntry {name stored : String} {entry : String × String}
    {entries : List (String × String)} (h : entry ∈ insertEntry name stored entries) :
    entry = (name, stored) ∨ entry ∈ entries := by
  induction entries with
  | nil => simpa [insertEntry] using h
  | cons head rest ih =>
    obtain ⟨other, value⟩ := head
    simp only [insertEntry] at h
    split at h
    · simpa using h
    · split at h
      · rcases List.mem_cons.1 h with h | h
        · exact .inl h
        · exact .inr (List.mem_cons_of_mem _ h)
      · rcases List.mem_cons.1 h with h | h
        · exact .inr (h ▸ List.mem_cons_self)
        · exact (ih h).imp_right (List.mem_cons_of_mem _)

theorem insertEntry_sorted (name stored : String) {entries : List (String × String)}
    (h : entries.Pairwise fun a b => a.1 < b.1) :
    (insertEntry name stored entries).Pairwise fun a b => a.1 < b.1 := by
  induction entries with
  | nil => simp [insertEntry]
  | cons head rest ih =>
    obtain ⟨other, value⟩ := head
    obtain ⟨hhead, hrest⟩ := List.pairwise_cons.1 h
    simp only [insertEntry]
    split
    · next hlt =>
      refine List.pairwise_cons.2 ⟨fun entry he => ?_, h⟩
      rcases List.mem_cons.1 he with rfl | he
      · exact hlt
      · exact String.lt_trans hlt (hhead entry he)
    · next hlt =>
      split
      · next heq =>
        exact List.pairwise_cons.2 ⟨fun entry he => heq ▸ hhead entry he, hrest⟩
      · next hne =>
        refine List.pairwise_cons.2 ⟨fun entry he => ?_, ih hrest⟩
        rcases mem_insertEntry he with rfl | he
        · exact Std.lt_of_le_of_ne (Std.not_lt.1 hlt) (Ne.symm hne)
        · exact hhead entry he

def insert (table : UserTable) (name stored : String) : UserTable :=
  ⟨insertEntry name stored table.entries, insertEntry_sorted name stored table.sorted⟩

/-- The table of a list of pairs, in which the last pair of a name counts. -/
def ofPairs (pairs : List (String × String)) : UserTable :=
  pairs.foldl (fun table pair => table.insert pair.1 pair.2) empty

def toJson (table : UserTable) : Json :=
  .ofFields (table.entries.map fun entry => (entry.1, .ofText entry.2))

def ofJson? (json : Json) : Option UserTable :=
  json.textMembers?.map ofPairs

theorem lookup_insertEntry (name stored other : String) (entries : List (String × String))
    (h : entries.Pairwise fun a b => a.1 < b.1) :
    (insertEntry name stored entries).lookup other =
      if other = name then some stored else entries.lookup other := by
  induction entries with
  | nil =>
    by_cases ho : other = name
    · simp [insertEntry, ho]
    · simp [insertEntry, List.lookup_cons, beq_eq_false_iff_ne.2 ho, ho]
  | cons head rest ih =>
    obtain ⟨key, value⟩ := head
    obtain ⟨hhead, hrest⟩ := List.pairwise_cons.1 h
    simp only [insertEntry]
    by_cases hlt : name < key
    · rw [if_pos hlt, List.lookup_cons]
      by_cases ho : other = name
      · simp [ho]
      · simp [beq_eq_false_iff_ne.2 ho, ho]
    · rw [if_neg hlt]
      by_cases heq : name = key
      · subst heq
        rw [if_pos rfl, List.lookup_cons, List.lookup_cons]
        by_cases ho : other = name
        · simp [ho]
        · simp [beq_eq_false_iff_ne.2 ho, ho]
      · rw [if_neg heq, List.lookup_cons, List.lookup_cons, ih hrest]
        by_cases ho : other = key
        · simp [ho, Ne.symm heq]
        · simp [beq_eq_false_iff_ne.2 ho]

theorem get?_insert (table : UserTable) (name stored other : String) :
    (table.insert name stored).get? other =
      if other = name then some stored else table.get? other :=
  lookup_insertEntry name stored other table.entries table.sorted

@[simp] theorem get?_empty (name : String) : empty.get? name = none := rfl

end UserTable

end Gatehouse
