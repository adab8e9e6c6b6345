import Gatehouse.Text.Split

set_option autoImplicit false

/-!
# Splitting a text

What becomes of the pieces as the text grows at its end, and the text that is made of them.
-/

namespace Gatehouse.Text

variable {α : Type} [DecidableEq α]

theorem splitFrom_append_right {separator : α} (piece xs : List α) {ys : List α}
    (h : separator ∉ ys) :
    ∃ above last, splitFrom separator piece xs = above ++ [last] ∧
      splitFrom separator piece (xs ++ ys) = above ++ [last ++ ys] := by
  induction xs generalizing piece with
  | nil =>
    refine ⟨[], piece.reverse, rfl, ?_⟩
    have hall := splitFrom_append separator piece ys [] h
    simpa [splitFrom] using hall
  | cons x xs ih =>
    rw [List.cons_append, splitFrom, splitFrom]
    by_cases hx : x = separator
    · obtain ⟨above, last, hxs, hxsys⟩ := ih []
      refine ⟨piece.reverse :: above, last, ?_, ?_⟩
      · rw [if_pos hx, hxs, List.cons_append]
      · rw [if_pos hx, hxsys, List.cons_append]
    · rw [if_neg hx, if_neg hx]
      exact ih (x :: piece)

/-- What is put behind a text without the separator ends up in the last piece. -/
theorem splitOn_append_right {separator : α} (xs : List α) {ys : List α} (h : separator ∉ ys) :
    ∃ above last, splitOn separator xs = above ++ [last] ∧
      splitOn separator (xs ++ ys) = above ++ [last ++ ys] :=
  splitFrom_append_right [] xs h

theorem not_mem_of_mem_splitFrom {separator : α} {piece xs part : List α}
    (hpiece : separator ∉ piece) (h : part ∈ splitFrom separator piece xs) :
    separator ∉ part := by
  induction xs generalizing piece with
  | nil =>
    rw [splitFrom, List.mem_singleton] at h
    rwa [h, List.mem_reverse]
  | cons x xs ih =>
    rw [splitFrom] at h
    by_cases hx : x = separator
    · rw [if_pos hx, List.mem_cons] at h
      rcases h with rfl | h
      · rwa [List.mem_reverse]
      · exact ih List.not_mem_nil h
    · rw [if_neg hx] at h
      refine ih ?_ h
      rw [List.mem_cons, not_or]
      exact ⟨Ne.symm hx, hpiece⟩

theorem not_mem_of_mem_splitOn {separator : α} {xs part : List α}
    (h : part ∈ splitOn separator xs) : separator ∉ part :=
  not_mem_of_mem_splitFrom List.not_mem_nil h

theorem eq_of_splitFrom {separator : α} {piece xs first : List α} {rest : List (List α)}
    (h : splitFrom separator piece xs = first :: rest) :
    piece.reverse ++ xs = first ++ rest.flatMap (separator :: ·) := by
  induction xs generalizing piece first rest with
  | nil =>
    cases h
    rfl
  | cons x xs ih =>
    rw [splitFrom] at h
    split at h
    · next hx =>
      obtain ⟨rfl, hrest⟩ := List.cons.inj h
      obtain ⟨above, last, hpieces, -⟩ :=
        splitFrom_append_right [] xs (List.not_mem_nil (a := separator))
      cases rest with
      | nil => simp [hrest] at hpieces
      | cons second rest =>
        rw [hx, List.flatMap_cons, List.cons_append, ← ih hrest]
        rfl
    · rw [← ih h, List.reverse_cons, List.append_assoc, List.singleton_append]

theorem splitOn_eq_cons_iff {separator : α} {xs first : List α} {rest : List (List α)} :
    splitOn separator xs = first :: rest ↔
      xs = first ++ rest.flatMap (separator :: ·) ∧ separator ∉ first ∧
        ∀ part ∈ rest, separator ∉ part := by
  constructor
  · intro h
    have hpieces : ∀ part ∈ first :: rest, separator ∉ part :=
      fun part hpart => not_mem_of_mem_splitOn (h ▸ hpart)
    exact ⟨eq_of_splitFrom h, List.forall_mem_cons.1 hpieces⟩
  · rintro ⟨rfl, hfirst, hrest⟩
    induction rest generalizing first with
    | nil => rw [List.flatMap_nil, List.append_nil, splitOn_of_not_mem _ _ hfirst]
    | cons second rest ih =>
      obtain ⟨hsecond, hrest⟩ := List.forall_mem_cons.1 hrest
      rw [List.flatMap_cons, List.cons_append, splitOn_append_cons _ _ _ hfirst, ih hsecond hrest]

end Gatehouse.Text
