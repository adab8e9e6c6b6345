import Gatehouse.Proofs.Session.Token
import Gatehouse.Proofs.Text.Hex
import Mathlib

set_option autoImplicit false

/-!
# The spellings of a token

The texts that are read as a token are four forms of its digits, in any letter case. One of them in
lower case is the text in which it is written.
-/

namespace Gatehouse.SessionToken

/-- The hexadecimal digit for each power of 16, from the highest down. -/
def hex (token : SessionToken) : String :=
  String.ofList <| List.ofFn fun place : Fin 32 =>
    Nat.digitChar (token.value.toNat / 16 ^ (31 - place.val) % 16)

/-- The digits in blocks of 8, 4, 4, 4 and 12. -/
def canonical (token : SessionToken) : String :=
  "-".intercalate (([8, 4, 4, 4, 12].splitLengths token.hex.toList).map String.ofList)

inductive Form where
  | bare
  | grouped
  | braced
  | named
  deriving DecidableEq, Repr

/-- A token in one of the forms, in lower case. -/
def Form.write : Form → SessionToken → String
  | bare, token => token.hex
  | grouped, token => token.canonical
  | braced, token => "\x7b" ++ token.canonical ++ "\x7d"
  | named, token => "urn:uuid:" ++ token.canonical

/-- A text is a spelling of a token if it is one of the forms in some letter case. -/
def SpelledBy (token : SessionToken) (text : String) : Prop :=
  ∃ form : Form, text.toLower = form.write token

theorem toList_hex (token : SessionToken) : token.hex.toList = token.digits := by
  rw [hex, String.toList_ofList, digits, Text.hexDigits_eq_ofFn]

theorem toString_eq_canonical (token : SessionToken) : toString token = token.canonical := by
  refine String.toList_injective ?_
  have hrest : (token.digits.drop 20).take 12 = token.digits.drop 20 :=
    List.take_of_length_le (by rw [List.length_drop, digits_length])
  rw [toList_toString, canonical, String.toList_intercalate, toList_hex]
  simp [group, List.splitLengths_cons, List.intercalate, hrest]

theorem ofDigits?_eq_some_iff {cs : List Char} {token : SessionToken} :
    ofDigits? cs = some token ↔ cs.map Char.toLower = token.digits := by
  rw [ofDigits?, Option.ite_none_right_eq_some, Option.map_eq_some_iff]
  constructor
  · rintro ⟨hlength, n, hread, rfl⟩
    obtain ⟨hlt, hdigits⟩ := Text.readHex?_eq_some_iff.1 hread
    rw [hlength] at hlt hdigits
    have hsame : (ofNat n).value.toNat = n := Nat.mod_eq_of_lt hlt
    rw [hdigits, digits, hsame]
  · intro hdigits
    have hlength : cs.length = 32 := by
      rw [← List.length_map Char.toLower, hdigits, digits_length]
    refine ⟨hlength, token.value.toNat, Text.readHex?_eq_some_iff.2 ?_, ?_⟩
    · rw [hlength]
      exact ⟨token.value.isLt, hdigits⟩
    · simp [ofNat]

theorem ungroup?_eq_some_iff {cs digits : List Char} :
    ungroup? cs = some digits ↔ digits.length = 32 ∧ cs = group digits := by
  constructor
  · intro h
    rw [ungroup?] at h
    obtain ⟨⟨hlength, hgroup⟩, hsame⟩ := Option.ite_none_right_eq_some.1 h
    obtain rfl := Option.some.inj hsame
    exact ⟨hlength, hgroup⟩
  · rintro ⟨hlength, rfl⟩
    exact ungroup?_group hlength

theorem group_blocks {a b c d e : List Char} (ha : a.length = 8) (hb : b.length = 4)
    (hc : c.length = 4) (hd : d.length = 4) :
    group (a ++ b ++ c ++ d ++ e) = a ++ '-' :: b ++ '-' :: c ++ '-' :: d ++ '-' :: e := by
  simp [group, List.drop_append, List.drop_eq_nil_of_le, ha, hb, hc, hd]

theorem map_group (digits : List Char) :
    (group digits).map Char.toLower = group (digits.map Char.toLower) := by
  have hhyphen : Char.toLower '-' = '-' := by decide
  simp [group, List.map_take, List.map_drop, hhyphen]

theorem map_eq_group_iff {cs digits : List Char} (h : digits.length = 32) :
    cs.map Char.toLower = group digits ↔
      ∃ others, cs = group others ∧ others.map Char.toLower = digits := by
  constructor
  · intro hcs
    have hhyphen {c : Char} : c.toLower = '-' ↔ c = '-' := Text.toLower_eq_iff rfl
    simp only [group, List.append_assoc, List.cons_append, List.map_eq_append_iff,
      List.map_eq_cons_iff, hhyphen] at hcs
    obtain ⟨a, _, rfl, ha, _, _, rfl, rfl, b, _, rfl, hb, _, _, rfl, rfl, c, _, rfl, hc, _, _, rfl,
      rfl, d, _, rfl, hd, _, e, rfl, rfl, he⟩ := hcs
    have hlower : (a ++ b ++ c ++ d ++ e).map Char.toLower = digits := by
      simp only [List.map_append, ha, hb, hc, hd, he, List.append_assoc, blocks_append]
    refine ⟨a ++ b ++ c ++ d ++ e, ?_, hlower⟩
    have ha' : a.length = 8 := by simpa [h] using congrArg List.length ha
    have hb' : b.length = 4 := by simpa [h] using congrArg List.length hb
    have hc' : c.length = 4 := by simpa [h] using congrArg List.length hc
    have hd' : d.length = 4 := by simpa [h] using congrArg List.length hd
    rw [group_blocks ha' hb' hc' hd']
    simp
  · rintro ⟨others, rfl, rfl⟩
    exact map_group others

theorem grouped_iff {cs : List Char} {token : SessionToken} :
    (ungroup? cs).bind ofDigits? = some token ↔ cs.map Char.toLower = group token.digits := by
  rw [map_eq_group_iff token.digits_length, Option.bind_eq_some_iff]
  simp only [ungroup?_eq_some_iff, ofDigits?_eq_some_iff]
  constructor
  · rintro ⟨digits, ⟨-, rfl⟩, hdigits⟩
    exact ⟨digits, rfl, hdigits⟩
  · rintro ⟨digits, rfl, hdigits⟩
    have hlength : digits.length = 32 := by
      rw [← List.length_map Char.toLower, hdigits, digits_length]
    exact ⟨digits, ⟨hlength, rfl⟩, hdigits⟩

theorem unwrap_braced (inner : List Char) :
    unwrap ('\x7b' :: (inner ++ ['\x7d'])) = inner := by
  have hlast : ('\x7b' :: (inner ++ ['\x7d'])).getLast? = some '\x7d' := by
    rw [← List.cons_append, List.getLast?_concat]
  rw [unwrap, if_pos ⟨rfl, hlast⟩, List.tail_cons, List.dropLast_concat]

theorem unwrap_named {scheme : List Char} (inner : List Char)
    (h : scheme.map Char.toLower = "urn:uuid:".toList) : unwrap (scheme ++ inner) = inner := by
  have hlength : scheme.length = 9 := by
    rw [← List.length_map Char.toLower, h]
    rfl
  have hbrace : (scheme ++ inner).head? ≠ some '\x7b' := by
    cases scheme with
    | nil => cases hlength
    | cons c scheme =>
      rintro hhead
      obtain rfl : c = '\x7b' := by simpa using hhead
      exact absurd (List.cons.inj h).1 (by decide)
  rw [unwrap, if_neg fun hbraced => hbrace hbraced.1, if_pos (by simp [hlength, h]),
    List.drop_left' hlength]

theorem unwrap_grouped {cs : List Char} {token : SessionToken}
    (h : cs.map Char.toLower = group token.digits) : unwrap cs = cs := by
  have hne : ∀ c ∈ group token.digits, c ≠ '\x7b' ∧ c ≠ 'u' := by
    rw [← toList_toString]
    exact token.char_of_mem_toString (by decide) (by decide)
  refine unwrap_eq_self fun c hc => ?_
  obtain ⟨hbrace, hurn⟩ :=
    hne c.toLower (h ▸ List.mem_map_of_mem (List.mem_of_mem_head? hc))
  exact ⟨mt (Text.toLower_eq_iff rfl).2 hbrace, hurn⟩

theorem unwrap_cases (cs : List Char) :
    (∃ inner, cs = '\x7b' :: (inner ++ ['\x7d']) ∧ unwrap cs = inner) ∨
      (∃ scheme inner, scheme.map Char.toLower = "urn:uuid:".toList ∧ cs = scheme ++ inner ∧
        unwrap cs = inner) ∨
      unwrap cs = cs := by
  by_cases hbraced : cs.head? = some '\x7b' ∧ cs.getLast? = some '\x7d'
  · obtain ⟨rest, rfl⟩ := List.head?_eq_some_iff.1 hbraced.1
    obtain ⟨first, hfirst⟩ := List.getLast?_eq_some_iff.1 hbraced.2
    cases first with
    | nil => exact absurd (List.cons.inj hfirst).1 (by decide)
    | cons c inner =>
      obtain ⟨-, rfl⟩ := List.cons.inj hfirst
      exact .inl ⟨inner, rfl, unwrap_braced inner⟩
  · by_cases hnamed : (cs.take 9).map Char.toLower = "urn:uuid:".toList
    · refine .inr (.inl ⟨cs.take 9, cs.drop 9, hnamed, (List.take_append_drop 9 cs).symm, ?_⟩)
      rw [unwrap, if_neg hbraced, if_pos hnamed]
    · exact .inr (.inr (by rw [unwrap, if_neg hbraced, if_neg hnamed]))

theorem unwrap_eq_grouped_iff {cs : List Char} {token : SessionToken} :
    (unwrap cs).map Char.toLower = group token.digits ↔
      cs.map Char.toLower = group token.digits ∨
        cs.map Char.toLower = '\x7b' :: (group token.digits ++ ['\x7d']) ∨
        cs.map Char.toLower = "urn:uuid:".toList ++ group token.digits := by
  constructor
  · intro h
    rcases unwrap_cases cs with ⟨inner, hcs, hinner⟩ | ⟨scheme, inner, hscheme, hcs, hinner⟩ | hcs
    · rw [hinner] at h
      refine .inr (.inl ?_)
      rw [hcs, List.map_cons, List.map_append, h]
      rfl
    · rw [hinner] at h
      refine .inr (.inr ?_)
      rw [hcs, List.map_append, hscheme, h]
    · rw [hcs] at h
      exact .inl h
  · rintro (h | h | h)
    · rw [unwrap_grouped h, h]
    · obtain ⟨first, rest, rfl, hfirst, hrest⟩ := List.map_eq_cons_iff.1 h
      obtain ⟨inner, ending, rfl, hinner, hending⟩ := List.map_eq_append_iff.1 hrest
      obtain ⟨last, rfl, hlast⟩ := List.map_eq_singleton_iff.1 hending
      obtain rfl := (Text.toLower_eq_iff rfl).1 hfirst
      obtain rfl := (Text.toLower_eq_iff rfl).1 hlast
      rw [unwrap_braced, hinner]
    · obtain ⟨scheme, inner, rfl, hscheme, hinner⟩ := List.map_eq_append_iff.1 h
      rw [unwrap_named inner hscheme, hinner]

theorem Form.toList_write (form : Form) (token : SessionToken) :
    (form.write token).toList =
      match form with
      | bare => token.digits
      | grouped => group token.digits
      | braced => '\x7b' :: (group token.digits ++ ['\x7d'])
      | named => "urn:uuid:".toList ++ group token.digits := by
  cases form with
  | bare => exact token.toList_hex
  | grouped => rw [write, ← toString_eq_canonical, toList_toString]
  | braced => simp [write, ← toString_eq_canonical, toList_toString]
  | named => rw [write, ← toString_eq_canonical, String.toList_append, toList_toString]

theorem spelledBy_iff {token : SessionToken} {text : String} :
    token.SpelledBy text ↔ ∃ form : Form,
      text.toList.map Char.toLower = (form.write token).toList := by
  simp only [SpelledBy, String.toLower, ← String.toList_inj, String.toList_map]

theorem ofText?_eq_some_iff {text : String} {token : SessionToken} :
    ofText? text = some token ↔ token.SpelledBy text := by
  have hlength : (text.toList.map Char.toLower).length = text.toList.length := List.length_map ..
  rw [spelledBy_iff, ofText?]
  by_cases hbare : text.toList.length = 32
  · rw [if_pos hbare, ofDigits?_eq_some_iff]
    constructor
    · exact fun h => ⟨.bare, h.trans (Form.toList_write .bare token).symm⟩
    · rintro ⟨form, h⟩
      rw [Form.toList_write] at h
      rw [h] at hlength
      cases form with
      | bare => exact h
      | grouped | braced | named =>
        simp [group_length token.digits_length, hbare] at hlength
  · rw [if_neg hbare, grouped_iff, unwrap_eq_grouped_iff]
    constructor
    · rintro (h | h | h)
      · exact ⟨.grouped, h.trans (Form.toList_write .grouped token).symm⟩
      · exact ⟨.braced, h.trans (Form.toList_write .braced token).symm⟩
      · exact ⟨.named, h.trans (Form.toList_write .named token).symm⟩
    · rintro ⟨form, h⟩
      rw [Form.toList_write] at h
      cases form with
      | bare =>
        rw [h, digits_length] at hlength
        exact absurd hlength.symm hbare
      | grouped => exact .inl h
      | braced => exact .inr (.inl h)
      | named => exact .inr (.inr h)

example : SpelledBy ⟨0x936da01f9abd4d9d80c702af85c822a8⟩
    "\x7b936DA01F-9ABD-4D9D-80C7-02af85c822a8\x7d" :=
  ⟨.braced, by cbv⟩

end Gatehouse.SessionToken
