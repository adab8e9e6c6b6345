set_option autoImplicit false

/-!
# Splitting

Lists cut at every occurrence of a separator, which leaves one piece more than there are separators,
and lists cut at the first one.
-/

namespace Gatehouse.Text

variable {α : Type} [DecidableEq α]

/-- The pieces of a list whose first piece begins with `piece` reversed. -/
def splitFrom (separator : α) (piece : List α) : List α → List (List α)
  | [] => [piece.reverse]
  | x :: xs =>
    if x = separator then piece.reverse :: splitFrom separator [] xs
    else splitFrom separator (x :: piece) xs

def splitOn (separator : α) (xs : List α) : List (List α) :=
  splitFrom separator [] xs

def splitFirst? (separator : α) (xs : List α) : Option (List α × List α) :=
  match xs.dropWhile (· ≠ separator) with
  | [] => none
  | _ :: after => some (xs.takeWhile (· ≠ separator), after)

theorem splitFrom_append (separator : α) (piece xs ys : List α) (h : separator ∉ xs) :
    splitFrom separator piece (xs ++ ys) = splitFrom separator (xs.reverse ++ piece) ys := by
  induction xs generalizing piece with
  | nil => rfl
  | cons x xs ih =>
    have hx : x ≠ separator := fun e => h (by simp [e])
    have ht : separator ∉ xs := fun e => h (by simp [e])
    simp only [List.cons_append, splitFrom, if_neg hx, ih (x :: piece) ht, List.reverse_cons,
      List.append_assoc, List.nil_append]

theorem splitOn_append_cons (separator : α) (xs ys : List α) (h : separator ∉ xs) :
    splitOn separator (xs ++ separator :: ys) = xs :: splitOn separator ys := by
  simp [splitOn, splitFrom_append _ _ _ _ h, splitFrom]

theorem splitOn_of_not_mem (separator : α) (xs : List α) (h : separator ∉ xs) :
    splitOn separator xs = [xs] := by
  have := splitFrom_append separator [] xs [] h
  simpa [splitOn, splitFrom] using this

end Gatehouse.Text
