set_option autoImplicit false

/-!
# Keyed lists

Finite maps as lists of pairs in which each key stands once. What an operation does is told by the
values that the keys have afterwards.
-/

namespace Gatehouse

structure Keyed (κ α : Type) where
  toList : List (κ × α) := []
  distinct : toList.Pairwise fun a b => a.1 ≠ b.1 := by simp
  deriving DecidableEq, Repr

namespace Keyed

variable {κ α : Type} [DecidableEq κ]

def get? (map : Keyed κ α) (key : κ) : Option α :=
  map.toList.lookup key

def keep (map : Keyed κ α) (wanted : κ → α → Bool) : Keyed κ α :=
  ⟨map.toList.filter fun entry => wanted entry.1 entry.2, map.distinct.filter _⟩

def erase (map : Keyed κ α) (key : κ) : Keyed κ α :=
  map.keep fun other _ => other ≠ key

theorem ne_of_mem_erase {map : Keyed κ α} {key : κ} {entry : κ × α}
    (h : entry ∈ (map.erase key).toList) : key ≠ entry.1 := by
  have h' := (List.mem_filter.1 h).2
  intro he
  simp [he] at h'

def insert (map : Keyed κ α) (key : κ) (value : α) : Keyed κ α :=
  ⟨(key, value) :: (map.erase key).toList,
    List.pairwise_cons.2 ⟨fun _ h => ne_of_mem_erase h, (map.erase key).distinct⟩⟩

def size (map : Keyed κ α) : Nat := map.toList.length

theorem lookup_eq_none {key : κ} {entries : List (κ × α)} (h : ∀ entry ∈ entries, key ≠ entry.1) :
    entries.lookup key = none := by
  induction entries with
  | nil => rfl
  | cons head rest ih =>
    rw [List.lookup_cons, beq_eq_false_iff_ne.2 (h head List.mem_cons_self)]
    exact ih fun entry he => h entry (List.mem_cons_of_mem _ he)

theorem lookup_filter (wanted : κ → α → Bool) (key : κ) {entries : List (κ × α)}
    (h : entries.Pairwise fun a b => a.1 ≠ b.1) :
    (entries.filter fun entry => wanted entry.1 entry.2).lookup key =
      (entries.lookup key).filter (wanted key) := by
  induction entries with
  | nil => rfl
  | cons head rest ih =>
    obtain ⟨other, value⟩ := head
    obtain ⟨hhead, hrest⟩ := List.pairwise_cons.1 h
    by_cases hk : key = other
    · subst hk
      by_cases hw : wanted key value = true
      · simp [hw, Option.filter]
      · have hn : ∀ entry ∈ rest.filter fun entry => wanted entry.1 entry.2, key ≠ entry.1 :=
          fun entry he => hhead entry ((List.mem_filter.1 he).1)
        simp [hw, Option.filter, lookup_eq_none hn]
    · have hb : (key == other) = false := beq_eq_false_iff_ne.2 hk
      by_cases hw : wanted other value = true
      · simp [hw, List.lookup_cons, hb, ih hrest]
      · simp [hw, List.lookup_cons, hb, ih hrest]

@[simp] theorem get?_keep (map : Keyed κ α) (wanted : κ → α → Bool) (key : κ) :
    (map.keep wanted).get? key = (map.get? key).filter (wanted key) :=
  lookup_filter wanted key map.distinct

theorem get?_erase (map : Keyed κ α) (key other : κ) :
    (map.erase key).get? other = if other = key then none else map.get? other := by
  rw [erase, get?_keep]
  by_cases h : other = key
  · simp [h, Option.filter]
    cases map.get? key <;> rfl
  · simp only [h, if_false]
    cases map.get? other <;> simp [Option.filter, h]

theorem get?_insert (map : Keyed κ α) (key other : κ) (value : α) :
    (map.insert key value).get? other = if other = key then some value else map.get? other := by
  rw [get?, insert, List.lookup_cons]
  by_cases h : other = key
  · simp [h]
  · rw [beq_eq_false_iff_ne.2 h]
    have he := get?_erase map key other
    rw [if_neg h] at he
    rw [if_neg h]
    exact he

end Keyed

end Gatehouse
