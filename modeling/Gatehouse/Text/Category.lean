set_option autoImplicit false

/-!
# Character categories

Two sets of characters decide which usernames are admitted: the Unicode property `White_Space` and
the general category `Cc`. Both are small and fixed, so they are written out.
-/

namespace Gatehouse.Text

def isBlank (c : Char) : Bool :=
  let n := c.toNat
  (9 ≤ n && n ≤ 13) || n == 0x20 || n == 0x85 || n == 0xA0 || n == 0x1680 ||
    (0x2000 ≤ n && n ≤ 0x200A) || n == 0x2028 || n == 0x2029 || n == 0x202F || n == 0x205F ||
    n == 0x3000

/-- The characters of the general category `Cc`: the two blocks of control codes. -/
def isControl (c : Char) : Bool :=
  let n := c.toNat
  n < 0x20 || (0x7F ≤ n && n < 0xA0)

def isVisible (c : Char) : Bool :=
  !isBlank c && !isControl c

def trim (cs : List Char) : List Char :=
  ((cs.dropWhile isBlank).reverse.dropWhile isBlank).reverse

theorem isControl_eq_false_of_isVisible {c : Char} (h : isVisible c = true) :
    isControl c = false := by
  simp [isVisible] at h
  exact h.2

end Gatehouse.Text
