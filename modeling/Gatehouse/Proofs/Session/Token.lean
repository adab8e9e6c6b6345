import Gatehouse.Session.Token

set_option autoImplicit false

/-!
# The text of a token

A token is read back from its text, so different tokens have different texts. The text holds only
hexadecimal digits and hyphens.
-/

namespace Gatehouse.SessionToken

theorem digits_length (token : SessionToken) : token.digits.length = 32 :=
  Text.hexDigits_length 32 _

theorem ofDigits?_digits (token : SessionToken) : ofDigits? token.digits = some token := by
  have hlt : token.value.toNat < Nat.pow 16 32 := token.value.isLt
  rw [ofDigits?, if_pos token.digits_length, digits, Text.readHex?_hexDigits hlt]
  simp [ofNat]

theorem group_length {digits : List Char} (h : digits.length = 32) :
    (group digits).length = 36 := by
  simp [group, h]

/-- The digits between the hyphens, put together. -/
theorem blocks_append (digits : List Char) :
    digits.take 8 ++ ((digits.drop 8).take 4 ++ ((digits.drop 12).take 4 ++
      ((digits.drop 16).take 4 ++ digits.drop 20))) = digits := by
  have h16 := List.take_append_drop 4 (digits.drop 16)
  have h12 := List.take_append_drop 4 (digits.drop 12)
  have h8 := List.take_append_drop 4 (digits.drop 8)
  rw [List.drop_drop] at h16 h12 h8
  rw [h16, h12, h8, List.take_append_drop]

theorem ungroup?_group {digits : List Char} (h : digits.length = 32) :
    ungroup? (group digits) = some digits := by
  have hjoin : (group digits).take 8 ++ ((group digits).drop 9).take 4 ++
      ((group digits).drop 14).take 4 ++ ((group digits).drop 19).take 4 ++
      (group digits).drop 24 = digits := by
    refine Eq.trans ?_ (blocks_append digits)
    simp [group, List.drop_append, List.drop_take, h]
  rw [ungroup?]
  simp only [hjoin, h, true_and, if_true]

theorem hexDigit_of_mem_hexDigits {width n : Nat} {c : Char} (h : c ∈ Text.hexDigits width n) :
    ∃ d : Fin 16, c = Nat.digitChar d.val := by
  induction width generalizing n with
  | zero => simp [Text.hexDigits] at h
  | succ width ih =>
    rw [Text.hexDigits, List.mem_append, List.mem_singleton] at h
    rcases h with h | h
    · exact ih h
    · exact ⟨⟨n % 16, Nat.mod_lt n (by decide)⟩, h⟩

theorem mem_group {digits : List Char} {c : Char} (h : c ∈ group digits) :
    c ∈ digits ∨ c = '-' := by
  simp only [group, List.append_assoc, List.cons_append, List.mem_append, List.mem_cons] at h
  rcases h with h | h | h | h | h | h | h | h | h
  · exact .inl (List.mem_of_mem_take h)
  · exact .inr h
  · exact .inl (List.mem_of_mem_drop (List.mem_of_mem_take h))
  · exact .inr h
  · exact .inl (List.mem_of_mem_drop (List.mem_of_mem_take h))
  · exact .inr h
  · exact .inl (List.mem_of_mem_drop (List.mem_of_mem_take h))
  · exact .inr h
  · exact .inl (List.mem_of_mem_drop h)

theorem toList_toString (token : SessionToken) : (toString token).toList = group token.digits :=
  String.toList_ofList

/-- A character of a token's text, checked by going through all of them. -/
theorem char_of_mem_toString {p : Char → Prop} (hdigits : ∀ d : Fin 16, p (Nat.digitChar d.val))
    (hhyphen : p '-') (token : SessionToken) : ∀ c ∈ (toString token).toList, p c := by
  intro c hc
  rw [toList_toString] at hc
  rcases mem_group hc with hc | rfl
  · obtain ⟨d, rfl⟩ := hexDigit_of_mem_hexDigits hc
    exact hdigits d
  · exact hhyphen

theorem unwrap_eq_self {cs : List Char} (h : ∀ c ∈ cs.head?, c ≠ '\x7b' ∧ c.toLower ≠ 'u') :
    unwrap cs = cs := by
  have hprefix : (cs.take 9).map Char.toLower ≠ "urn:uuid:".toList := by
    intro he
    cases cs with
    | nil => cases he
    | cons c cs => exact (h c rfl).2 (List.cons.inj he).1
  rw [unwrap, if_neg fun hbraced => (h _ hbraced.1).1 rfl, if_neg hprefix]

theorem unwrap_toString (token : SessionToken) :
    unwrap (toString token).toList = (toString token).toList := by
  have hne : ∀ c ∈ (toString token).toList, c ≠ '\x7b' ∧ c.toLower ≠ 'u' :=
    char_of_mem_toString (by decide) (by decide) token
  exact unwrap_eq_self fun c hc => hne c (List.mem_of_mem_head? hc)

theorem ofText?_toString (token : SessionToken) : ofText? (toString token) = some token := by
  have hlength : (toString token).toList.length ≠ 32 := by
    rw [toList_toString, group_length token.digits_length]
    decide
  simp only [ofText?, if_neg hlength, unwrap_toString]
  rw [toList_toString, ungroup?_group token.digits_length, Option.bind_some,
    token.ofDigits?_digits]

theorem toString_inj {a b : SessionToken} (h : toString a = toString b) : a = b := by
  have hread := ofText?_toString a
  rw [h, ofText?_toString] at hread
  exact (Option.some.inj hread).symm

end Gatehouse.SessionToken
