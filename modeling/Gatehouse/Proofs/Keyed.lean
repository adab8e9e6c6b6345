import Gatehouse.Keyed

set_option autoImplicit false

/-!
# Keeping and erasing in keyed lists

Two maps are compared as lists here, with the order of their entries.
-/

namespace Gatehouse

theorem mem_of_lookup {α : Type} {name : String} {entries : List (String × α)} {value : α}
    (h : entries.lookup name = some value) : (name, value) ∈ entries := by
  obtain ⟨before, after, rfl, -⟩ := List.lookup_eq_some_iff.1 h
  exact List.mem_append_right _ List.mem_cons_self

namespace Keyed

variable {κ α : Type} {map : Keyed κ α} {wanted other : κ → α → Bool}

theorem get?_of_mem [DecidableEq κ] {key : κ} {value : α} (h : (key, value) ∈ map.toList) :
    map.get? key = some value := by
  unfold get?
  obtain ⟨entries, distinct⟩ := map
  dsimp only at h ⊢
  induction entries with
  | nil => cases h
  | cons head rest ih =>
    obtain ⟨other, held⟩ := head
    obtain ⟨hhead, hrest⟩ := List.pairwise_cons.1 distinct
    rw [List.lookup_cons]
    rcases List.mem_cons.1 h with heq | hmem
    · cases heq
      rw [beq_self_eq_true]
    · have hne : key ≠ other := fun he => hhead (key, value) hmem he.symm
      rw [beq_eq_false_iff_ne.2 hne]
      exact ih hrest hmem

theorem keep_congr (h : ∀ entry ∈ map.toList, wanted entry.1 entry.2 = other entry.1 entry.2) :
    map.keep wanted = map.keep other := by
  unfold keep
  congr 1
  exact List.filter_congr h

theorem keep_eq_self (h : ∀ entry ∈ map.toList, wanted entry.1 entry.2 = true) :
    map.keep wanted = map := by
  unfold keep
  congr 1
  exact List.filter_eq_self.2 h

theorem keep_keep : (map.keep wanted).keep other =
    map.keep fun key value => other key value && wanted key value := by
  unfold keep
  congr 1
  rw [List.filter_filter]

theorem erase_erase [DecidableEq κ] (key : κ) : (map.erase key).erase key = map.erase key := by
  unfold erase
  rw [keep_keep]
  simp only [Bool.and_self]

end Keyed

end Gatehouse
