import Gatehouse.Text.Utf8

set_option autoImplicit false

/-!
# The bytes of characters

Below U+0080 a character is its own byte, and from there on all of its bytes have the highest bit
set. So a byte below 0x80 inside a text never belongs to another character.
-/

namespace Gatehouse.Text

theorem utf8EncodeChar_of_short {c : Char} (h : c.toNat < 0x80) :
    String.utf8EncodeChar c = [c.toNat.toUInt8] := by
  have hle : c.val.toNat ≤ 0x7F := Nat.le_of_lt_succ h
  rw [String.utf8EncodeChar]
  exact if_pos hle

theorem toNat_toUInt8_of_short {n : Nat} (h : n < 0x100) : n.toUInt8.toNat = n := by
  simpa [Nat.toUInt8] using Nat.mod_eq_of_lt h

theorem toNat_mem_utf8EncodeChar {c : Char} (h : 0x80 ≤ c.toNat) {b : UInt8}
    (hb : b ∈ String.utf8EncodeChar c) : 0x80 ≤ b.toNat := by
  have hc : ¬ c.val.toNat ≤ 0x7F := Nat.not_le.2 h
  simp only [String.utf8EncodeChar, hc, if_false] at hb
  split at hb
  · simp only [List.mem_cons, List.not_mem_nil, or_false] at hb
    rcases hb with rfl | rfl <;> simp <;> omega
  · split at hb
    · simp only [List.mem_cons, List.not_mem_nil, or_false] at hb
      rcases hb with rfl | rfl | rfl <;> simp <;> omega
    · simp only [List.mem_cons, List.not_mem_nil, or_false] at hb
      rcases hb with rfl | rfl | rfl | rfl <;> simp <;> omega

/-- A text whose characters are all below U+0080 has one byte for each. -/
theorem utf8_of_short {cs : List Char} (h : ∀ c ∈ cs, c.toNat < 0x80) :
    utf8 cs = cs.map fun c => c.toNat.toUInt8 := by
  induction cs with
  | nil => rfl
  | cons c cs ih =>
    have hc := utf8EncodeChar_of_short (h c List.mem_cons_self)
    have hcs := ih fun d hd => h d (List.mem_cons_of_mem _ hd)
    rw [utf8_cons, hc, hcs]
    rfl

end Gatehouse.Text
