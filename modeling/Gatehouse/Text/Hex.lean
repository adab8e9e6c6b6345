set_option autoImplicit false

/-!
# Hexadecimal digits

Fixed-width hexadecimal numerals. `readHex?` undoes `hexDigits` for every number of that width.
-/

namespace Gatehouse.Text

/-- The value of a hexadecimal digit, given by its code point; both letter cases count. -/
def hexValue? (code : Nat) : Option Nat :=
  if 0x30 ≤ code ∧ code ≤ 0x39 then some (code - 0x30)
  else if 0x41 ≤ code ∧ code ≤ 0x46 then some (code - 0x37)
  else if 0x61 ≤ code ∧ code ≤ 0x66 then some (code - 0x57)
  else none

/-- The last `width` hexadecimal digits of `n`, most significant first, in lower case. -/
def hexDigits : Nat → Nat → List Char
  | 0, _ => []
  | width + 1, n => hexDigits width (n / 16) ++ [Nat.digitChar (n % 16)]

def readHexFrom? (acc : Nat) : List Char → Option Nat
  | [] => some acc
  | c :: cs => (hexValue? c.toNat).bind fun d => readHexFrom? (16 * acc + d) cs

def readHex? (cs : List Char) : Option Nat :=
  readHexFrom? 0 cs

@[simp] theorem hexDigits_length (width n : Nat) : (hexDigits width n).length = width := by
  induction width generalizing n with
  | zero => rfl
  | succ width ih => simp [hexDigits, ih]

theorem hexValue?_digitChar {d : Nat} (h : d < 16) :
    hexValue? (Nat.digitChar d).toNat = some d := by
  have : ∀ d : Fin 16, hexValue? (Nat.digitChar d.val).toNat = some d.val := by decide
  exact this ⟨d, h⟩

theorem hexValue?_lt {code d : Nat} (h : hexValue? code = some d) : d < 16 := by
  unfold hexValue? at h
  split at h
  · simp at h; omega
  · split at h
    · simp at h; omega
    · split at h
      · simp at h; omega
      · simp at h

theorem readHexFrom?_append (acc : Nat) (cs ds : List Char) :
    readHexFrom? acc (cs ++ ds) = (readHexFrom? acc cs).bind fun n => readHexFrom? n ds := by
  induction cs generalizing acc with
  | nil => rfl
  | cons c cs ih =>
    simp only [List.cons_append, readHexFrom?]
    cases hexValue? c.toNat with
    | none => rfl
    | some d => exact ih _

theorem readHexFrom?_hexDigits (width n acc : Nat) :
    readHexFrom? acc (hexDigits width n) =
      some (Nat.pow 16 width * acc + n % Nat.pow 16 width) := by
  induction width generalizing n acc with
  | zero => simp [hexDigits, readHexFrom?, Nat.mod_one]
  | succ width ih =>
    have hd : hexValue? (Nat.digitChar (n % 16)).toNat = some (n % 16) :=
      hexValue?_digitChar (Nat.mod_lt n (by decide))
    have hp : Nat.pow 16 (width + 1) = 16 * Nat.pow 16 width := Nat.mul_comm _ _
    have hm : n % Nat.pow 16 (width + 1) = 16 * (n / 16 % Nat.pow 16 width) + n % 16 := by
      rw [hp, Nat.mod_mul, Nat.add_comm]
    simp only [hexDigits, readHexFrom?_append, ih, Option.bind_some, readHexFrom?, hd, hm,
      Option.some.injEq]
    rw [hp, Nat.mul_add, Nat.mul_assoc, Nat.add_assoc]

theorem readHex?_hexDigits {width n : Nat} (h : n < Nat.pow 16 width) :
    readHex? (hexDigits width n) = some n := by
  rw [readHex?, readHexFrom?_hexDigits, Nat.mod_eq_of_lt h]
  simp

end Gatehouse.Text
