import Gatehouse.Text.Numeral

set_option autoImplicit false

/-!
# Numbers that are written and read again

What is written is read again, and what is read as a number are its digits, with zeros or a sign in
front of them.
-/

namespace Gatehouse.Text

theorem natural?_toDigits (n : Nat) : natural? (Nat.toDigits 10 n) = some n := by
  have hdigits : (Nat.toDigits 10 n).all Char.isDigit = true :=
    List.all_eq_true.2 fun c hc => Nat.isDigit_of_mem_toDigits (by decide) (by decide) hc
  have hne : (Nat.toDigits 10 n).isEmpty = false :=
    List.isEmpty_eq_false_iff.2 Nat.toDigits_ne_nil
  rw [natural?, hdigits, hne, Nat.ofDigitChars_ten_toDigits]
  rfl

theorem toDigits_head {n : Nat} (h : (Nat.toDigits 10 n).head? = some '0') : n = 0 := by
  induction n using Nat.strongRecOn with
  | ind n ih =>
    by_cases hn : n < 10
    · rw [Nat.toDigits_of_lt_base hn, List.head?_cons, Option.some.injEq] at h
      have hall : ∀ d : Fin 10, Nat.digitChar d.val = '0' → d.val = 0 := by decide
      exact hall ⟨n, hn⟩ h
    · obtain ⟨c, cs, hcs⟩ := List.exists_cons_of_ne_nil (@Nat.toDigits_ne_nil (n / 10) 10)
      rw [Nat.toDigits_of_base_le (by decide) (by omega), hcs] at h
      have hzero := ih (n / 10) (by omega) (by rw [hcs]; exact h)
      omega

theorem digitChar_of_isDigit {c : Char} (h : c.isDigit = true) :
    c.toNat - '0'.toNat < 10 ∧ Nat.digitChar (c.toNat - '0'.toNat) = c := by
  have hzero : '0'.toNat = 48 := rfl
  obtain ⟨hlow, hhigh⟩ : 48 ≤ c.toNat ∧ c.toNat ≤ 57 := by
    rw [Char.isDigit, Bool.and_eq_true, decide_eq_true_eq, decide_eq_true_eq] at h
    exact h
  refine ⟨by omega, Char.toNat_inj.1 ?_⟩
  rw [Nat.toNat_digitChar_of_lt_ten (by omega)]
  omega

/-- Behind the digits of a number other than zero, all digits count. -/
theorem toDigits_append_digits {cs : List Char} (h : ∀ c ∈ cs, c.isDigit = true) {n : Nat}
    (hn : 0 < n) : Nat.toDigits 10 n ++ cs = Nat.toDigits 10 (Nat.ofDigitChars 10 cs n) := by
  induction cs generalizing n with
  | nil => rw [List.append_nil, Nat.ofDigitChars_nil]
  | cons c cs ih =>
    obtain ⟨hc, hcs⟩ := List.forall_mem_cons.1 h
    obtain ⟨hdigit, hchar⟩ := digitChar_of_isDigit hc
    have hlast := Nat.toDigits_append_toDigits (b := 10) (by decide) hn hdigit
    rw [Nat.toDigits_of_lt_base hdigit, hchar] at hlast
    rw [Nat.ofDigitChars_cons, ← ih hcs (by omega), ← hlast, List.append_assoc,
      List.singleton_append]

theorem digits_eq {cs : List Char} (hne : cs ≠ []) (h : ∀ c ∈ cs, c.isDigit = true) :
    ∃ zeros, cs = List.replicate zeros '0' ++ Nat.toDigits 10 (Nat.ofDigitChars 10 cs 0) := by
  induction cs with
  | nil => exact absurd rfl hne
  | cons c cs ih =>
    obtain ⟨hc, hcs⟩ := List.forall_mem_cons.1 h
    obtain ⟨hdigit, hchar⟩ := digitChar_of_isDigit hc
    rw [Nat.ofDigitChars_cons, Nat.mul_zero, Nat.zero_add]
    by_cases hzero : c = '0'
    · subst hzero
      rw [Nat.sub_self]
      cases cs with
      | nil => exact ⟨0, rfl⟩
      | cons second cs =>
        obtain ⟨zeros, hzeros⟩ := ih (List.cons_ne_nil _ _) hcs
        refine ⟨zeros + 1, ?_⟩
        rw [List.replicate_succ, List.cons_append, ← hzeros]
    · have hpos : 0 < c.toNat - '0'.toNat := by
        refine Nat.pos_of_ne_zero fun hsub => hzero ?_
        rw [← hchar, hsub]
        rfl
      refine ⟨0, ?_⟩
      rw [← toDigits_append_digits hcs hpos, Nat.toDigits_of_lt_base hdigit, hchar]
      rfl

theorem isDigit_of_mem_zeros_append {zeros n : Nat} {c : Char}
    (h : c ∈ List.replicate zeros '0' ++ Nat.toDigits 10 n) : c.isDigit = true := by
  rcases List.mem_append.1 h with h | h
  · rw [List.eq_of_mem_replicate h]
    rfl
  · exact Nat.isDigit_of_mem_toDigits (by decide) (by decide) h

theorem natural?_eq_some_iff {cs : List Char} {n : Nat} :
    natural? cs = some n ↔ ∃ zeros, cs = List.replicate zeros '0' ++ Nat.toDigits 10 n := by
  constructor
  · intro h
    rw [natural?] at h
    split at h
    · cases h
    · next hdigits =>
      rw [Bool.or_eq_true, not_or, Bool.not_eq_true', Bool.not_eq_false, List.all_eq_true,
        List.isEmpty_iff] at hdigits
      cases h
      exact digits_eq hdigits.1 hdigits.2
  · rintro ⟨zeros, rfl⟩
    have hdigits : (List.replicate zeros '0' ++ Nat.toDigits 10 n).all Char.isDigit = true :=
      List.all_eq_true.2 fun _ hc => isDigit_of_mem_zeros_append hc
    have hne : (List.replicate zeros '0' ++ Nat.toDigits 10 n).isEmpty = false :=
      List.isEmpty_eq_false_iff.2 (List.append_ne_nil_of_right_ne_nil _ Nat.toDigits_ne_nil)
    rw [natural?, hdigits, hne, Nat.ofDigitChars_append, Nat.ofDigitChars_replicate_zero,
      Nat.mul_zero, Nat.ofDigitChars_ten_toDigits]
    rfl

theorem sign_of_digits {cs : List Char} (h : ∀ c ∈ cs, c.isDigit = true) :
    sign cs = (false, cs) := by
  unfold sign
  split
  · exact absurd (h '-' List.mem_cons_self) (by decide)
  · exact absurd (h '+' List.mem_cons_self) (by decide)
  · rfl

theorem signed?_toString (n : Int) : signed? (toString n).toList = some n := by
  cases n with
  | ofNat n =>
    have htext : (toString (Int.ofNat n)).toList = Nat.toDigits 10 n := Nat.toList_repr
    have hsign : sign (Nat.toDigits 10 n) = (false, Nat.toDigits 10 n) :=
      sign_of_digits fun c hc => Nat.isDigit_of_mem_toDigits (by decide) (by decide) hc
    rw [htext, signed?, hsign, natural?_toDigits]
    rfl
  | negSucc n =>
    have htext : (toString (Int.negSucc n)).toList = '-' :: Nat.toDigits 10 (n + 1) := by
      change ("-" ++ Nat.repr (n + 1)).toList = _
      rw [String.toList_append, Nat.toList_repr]
      rfl
    rw [htext, signed?, sign, natural?_toDigits]
    rfl

/-- The texts that spell a whole number: its digits, with zeros in front of them, and a sign in front
of these that may be missing or a plus where the number is not below zero. -/
inductive Spells : List Char → Int → Prop
  | plain (zeros n : Nat) : Spells (List.replicate zeros '0' ++ Nat.toDigits 10 n) n
  | plus (zeros n : Nat) : Spells ('+' :: (List.replicate zeros '0' ++ Nat.toDigits 10 n)) n
  | minus (zeros n : Nat) : Spells ('-' :: (List.replicate zeros '0' ++ Nat.toDigits 10 n)) (-n)

theorem signed?_eq_some_iff {cs : List Char} {n : Int} : signed? cs = some n ↔ Spells cs n := by
  constructor
  · intro h
    obtain ⟨_, hcast, rfl⟩ := Option.map_eq_some_iff.1 h
    obtain ⟨magnitude, hmagnitude, hvalue⟩ := Option.bind_eq_some_iff.1 hcast
    cases hvalue
    obtain ⟨zeros, hzeros⟩ := natural?_eq_some_iff.1 hmagnitude
    clear h hcast hmagnitude
    unfold sign at hzeros ⊢
    split at hzeros
    · dsimp only at hzeros
      rw [hzeros]
      exact .minus zeros magnitude
    · dsimp only at hzeros
      rw [hzeros]
      exact .plus zeros magnitude
    · dsimp only at hzeros
      rw [hzeros]
      exact .plain zeros magnitude
  · have hread (zeros magnitude : Nat) :
        natural? (List.replicate zeros '0' ++ Nat.toDigits 10 magnitude) = some magnitude :=
      natural?_eq_some_iff.2 ⟨zeros, rfl⟩
    rintro (⟨zeros, magnitude⟩ | ⟨zeros, magnitude⟩ | ⟨zeros, magnitude⟩)
    · have hsign : sign (List.replicate zeros '0' ++ Nat.toDigits 10 magnitude) =
          (false, List.replicate zeros '0' ++ Nat.toDigits 10 magnitude) :=
        sign_of_digits fun _ hc => isDigit_of_mem_zeros_append hc
      rw [signed?, hsign, hread]
      rfl
    · rw [signed?, sign, hread]
      rfl
    · rw [signed?, sign, hread]
      rfl

theorem fitsInt64_toInt (n : Int64) : fitsInt64 n.toInt = true := by
  have hle := n.le_toInt
  have hlt := n.toInt_lt
  simp only [fitsInt64, Bool.and_eq_true, decide_eq_true_eq]
  omega

end Gatehouse.Text
