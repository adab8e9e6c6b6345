import Gatehouse.Text.Hex
import Mathlib

set_option autoImplicit false

/-!
# Numbers in hexadecimal digits

What is read as a number are its digits in either letter case, and each place has the digit that
belongs there.
-/

namespace Gatehouse.Text

theorem toNat_toLower (c : Char) :
    c.toLower.toNat = if 65 ≤ c.toNat ∧ c.toNat ≤ 90 then c.toNat + 32 else c.toNat := by
  have hupper : c.isUpper = true ↔ 65 ≤ c.toNat ∧ c.toNat ≤ 90 := by
    simp [Char.isUpper, UInt32.le_iff_toNat_le]
  by_cases h : c.isUpper = true
  · have hrange := hupper.1 h
    have hvalid : (c.toNat + 32).isValidChar := .inl (by omega)
    rw [if_pos hrange, Char.toLower_eq_of_isUpper h, Char.toNat_ofNat, if_pos hvalid]
  · rw [if_neg (mt hupper.2 h), Char.toLower_eq_of_not_isUpper h]

theorem toLower_eq_iff {c mark : Char} (hmark : mark.isAlpha = false) :
    c.toLower = mark ↔ c = mark := by
  have hrange : ¬ (65 ≤ mark.toNat ∧ mark.toNat ≤ 90) ∧
      ¬ (97 ≤ mark.toNat ∧ mark.toNat ≤ 122) := by
    simpa [Char.isAlpha, Char.isUpper, Char.isLower, UInt32.le_iff_toNat_le] using hmark
  rw [← Char.toNat_inj, ← Char.toNat_inj, toNat_toLower]
  split_ifs <;> omega

theorem toNat_digitChar {d : Nat} (h : d < 16) :
    (Nat.digitChar d).toNat = if d < 10 then d + 48 else d + 87 := by
  have hall : ∀ d : Fin 16,
      (Nat.digitChar d.val).toNat = if d.val < 10 then d.val + 48 else d.val + 87 := by
    decide
  exact hall ⟨d, h⟩

theorem hexValue?_eq_some_iff_code {code d : Nat} :
    hexValue? code = some d ↔
      (48 ≤ code ∧ code ≤ 57 ∧ code = d + 48) ∨ (65 ≤ code ∧ code ≤ 70 ∧ code = d + 55) ∨
        (97 ≤ code ∧ code ≤ 102 ∧ code = d + 87) := by
  rw [hexValue?]
  split_ifs
  case neg => simp; omega
  all_goals rw [Option.some.injEq]; omega

theorem hexValue?_eq_some_iff {c : Char} {d : Nat} :
    hexValue? c.toNat = some d ↔ d < 16 ∧ c.toLower = Nat.digitChar d := by
  rw [← Char.toNat_inj, toNat_toLower]
  constructor
  · intro h
    have hd := hexValue?_lt h
    refine ⟨hd, ?_⟩
    rw [toNat_digitChar hd]
    rcases hexValue?_eq_some_iff_code.1 h with h | h | h
    all_goals split_ifs <;> omega
  · rintro ⟨hd, h⟩
    rw [toNat_digitChar hd] at h
    rw [hexValue?_eq_some_iff_code]
    split_ifs at h <;> omega

theorem readHex?_concat (cs : List Char) (c : Char) :
    readHex? (cs ++ [c]) =
      (readHex? cs).bind fun n => (hexValue? c.toNat).map fun d => 16 * n + d := by
  rw [readHex?, readHexFrom?_append, readHex?]
  refine Option.bind_congr fun n _ => ?_
  rw [readHexFrom?, Option.map_eq_bind]
  rfl

/-- A numeral is read as a number if it consists of the digits of that number. -/
theorem readHex?_eq_some_iff {cs : List Char} {n : Nat} :
    readHex? cs = some n ↔
      n < 16 ^ cs.length ∧ cs.map Char.toLower = hexDigits cs.length n := by
  induction cs using List.reverseRecOn generalizing n with
  | nil => simp [readHex?, readHexFrom?, hexDigits, eq_comm]
  | append_singleton cs c ih =>
    rw [readHex?_concat, List.length_append, List.length_singleton, hexDigits, List.map_append,
      List.map_singleton, pow_succ]
    simp only [Option.bind_eq_some_iff, Option.map_eq_some_iff, ih, hexValue?_eq_some_iff]
    constructor
    · rintro ⟨m, ⟨hm, hinit⟩, d, ⟨hd, hlast⟩, rfl⟩
      have hdiv : (16 * m + d) / 16 = m := by omega
      have hmod : (16 * m + d) % 16 = d := by omega
      rw [hdiv, hmod, hinit, hlast]
      exact ⟨by omega, rfl⟩
    · rintro ⟨hlt, hdigits⟩
      obtain ⟨hinit, hlast⟩ := List.append_inj' hdigits rfl
      have hdiv : n / 16 < 16 ^ cs.length := by omega
      have hmod : n % 16 < 16 := by omega
      exact ⟨n / 16, ⟨hdiv, hinit⟩, n % 16, ⟨hmod, List.singleton_inj.1 hlast⟩, by omega⟩

theorem hexDigits_eq_ofFn (width n : Nat) :
    hexDigits width n =
      List.ofFn fun place : Fin width => Nat.digitChar (n / 16 ^ (width - 1 - place) % 16) := by
  induction width generalizing n with
  | zero => rfl
  | succ width ih =>
    have hlast : width + 1 - 1 - (Fin.last width).val = 0 := by simp
    rw [hexDigits, ih, List.ofFn_succ', List.concat_eq_append, hlast, pow_zero, Nat.div_one]
    congr 2
    funext place
    have hplace : width + 1 - 1 - place.castSucc.val = (width - 1 - place.val) + 1 := by
      rw [Fin.val_castSucc]
      omega
    rw [hplace, pow_succ', Nat.div_div_eq_div_mul]

end Gatehouse.Text
