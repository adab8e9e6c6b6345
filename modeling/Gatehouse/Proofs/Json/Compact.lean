import Gatehouse.Proofs.Json.Spelling
import Gatehouse.Proofs.Text.Numeral
import Mathlib.Data.List.TakeDrop

set_option autoImplicit false

/-!
# Reading what was written

The compact text of a value that holds only texts and natural numbers is read back as that value.
-/

namespace Gatehouse.Json

/-- A value without the parts that only reading produces. -/
inductive Writable : Json → Prop
  | null : Writable .null
  | bool (value : Bool) : Writable (.bool value)
  | natural (value : Nat) : Writable (.natural value)
  | text (text : String) : Writable (ofText text)
  | array {items : List Json} (all : ∀ item ∈ items, Writable item) : Writable (.array items)
  | object {members : List (Option String × Json)}
      (named : ∀ member ∈ members, member.1.isSome)
      (all : ∀ member ∈ members, Writable member.2) : Writable (.object members)

theorem digitByte_of_isDigit {c : Char} (h : c.isDigit = true) :
    String.utf8EncodeChar c = [c.toNat.toUInt8] ∧ isDigitByte c.toNat.toUInt8 = true ∧
      c.toNat.toUInt8.toNat - 0x30 = c.toNat - '0'.toNat := by
  have hbounds : 0x30 ≤ c.toNat ∧ c.toNat ≤ 0x39 := by
    simpa [Char.isDigit, UInt32.le_iff_toNat_le] using h
  have hn := Text.toNat_toUInt8_of_short (n := c.toNat) (by omega)
  refine ⟨Text.utf8EncodeChar_of_short (by omega), ?_, ?_⟩
  · simp only [isDigitByte, Bool.and_eq_true, decide_eq_true_eq, UInt8.le_iff_toNat_le, hn]
    exact hbounds
  · rw [hn]
    rfl

theorem utf8_digits {cs : List Char} (h : ∀ c ∈ cs, c.isDigit = true) :
    ∃ digits, Text.utf8 cs = digits ∧ digits.length = cs.length ∧
      (∀ b ∈ digits, isDigitByte b = true) ∧
      ∀ n, digits.foldl (fun n b => 10 * n + (b.toNat - 0x30)) n = Nat.ofDigitChars 10 cs n := by
  induction cs with
  | nil => exact ⟨[], rfl, rfl, by simp, fun n => by simp⟩
  | cons c cs ih =>
    obtain ⟨hutf8, hdigit, hvalue⟩ := digitByte_of_isDigit (h c List.mem_cons_self)
    obtain ⟨digits, hbytes, hlength, hall, hfold⟩ := ih fun d hd => h d (List.mem_cons_of_mem _ hd)
    refine ⟨c.toNat.toUInt8 :: digits, ?_, by simp [hlength], ?_, ?_⟩
    · rw [Text.utf8_cons, hutf8, hbytes]
      rfl
    · intro b hb
      rcases List.mem_cons.1 hb with rfl | hb
      · exact hdigit
      · exact hall b hb
    · intro n
      rw [List.foldl_cons, hvalue, hfold, Nat.ofDigitChars_cons]

theorem spelling_natural (n : Nat) : Spelling (.natural n) (Text.utf8 (Nat.toDigits 10 n)) := by
  obtain ⟨digits, hbytes, hlength, hall, hfold⟩ :=
    @utf8_digits (Nat.toDigits 10 n) fun c hc =>
      Nat.isDigit_of_mem_toDigits (by decide) (by decide) hc
  have hvalue : digitsValue digits = n := by
    rw [digitsValue, hfold, Nat.ofDigitChars_ten_toDigits]
  have hlead : digits.head? = some 0x30 → digits.length = 1 := by
    intro hdigits
    have hhead : (Nat.toDigits 10 n).head? = some '0' := by
      cases hcs : Nat.toDigits 10 n with
      | nil => exact absurd hcs Nat.toDigits_ne_nil
      | cons c cs =>
        have hc : c.isDigit = true :=
          Nat.isDigit_of_mem_toDigits (by decide) (by decide) (hcs ▸ List.mem_cons_self)
        obtain ⟨hchar, -, hnat⟩ := digitByte_of_isDigit hc
        rw [hcs, Text.utf8_cons, hchar, List.singleton_append] at hbytes
        rw [← hbytes, List.head?_cons, Option.some.injEq] at hdigits
        have hbounds : 0x30 ≤ c.toNat ∧ c.toNat ≤ 0x39 := by
          simpa [Char.isDigit, UInt32.le_iff_toNat_le] using hc
        have hsub : (0x30 : UInt8).toNat - 0x30 = 0 := by decide
        have hlow : '0'.toNat = 0x30 := by decide
        have hzero : c.toNat = '0'.toNat := by
          rw [hdigits] at hnat
          omega
        rw [Char.toNat_inj.1 hzero]
        rfl
    rw [hlength, Text.toDigits_head hhead, Nat.toDigits_zero]
    rfl
  have hnonempty : digits ≠ [] := by
    rintro rfl
    exact absurd (List.length_eq_zero_iff.1 hlength.symm) Nat.toDigits_ne_nil
  rw [hbytes, ← hvalue]
  exact .number (.natural ⟨hnonempty, hall, hlead⟩)

theorem utf8_colon : String.utf8EncodeChar ':' = [0x3A] := rfl

theorem utf8_comma : String.utf8EncodeChar ',' = [0x2C] := rfl

theorem utf8_bracket : String.utf8EncodeChar ']' = [0x5D] := rfl

theorem utf8_brace : String.utf8EncodeChar '\x7d' = [0x7D] := rfl

theorem utf8_quote (text : String) :
    Text.utf8 (quote text) = 0x22 :: (Text.utf8 (text.toList.flatMap escapeChar) ++ [0x22]) := by
  rw [quote, List.cons_append, Text.utf8_cons, Text.utf8_append]
  rfl

theorem closesString_quoted (text : String) :
    ClosesString (some text) (Text.utf8 (text.toList.flatMap escapeChar) ++ [0x22]) := by
  obtain ⟨front, hclosed, hfront⟩ := parseString_eq_some_iff.1 (parseString_quoted text [])
  rw [List.append_nil] at hfront
  rw [hfront]
  exact hclosed

theorem spelling_text (text : String) : Spelling (ofText text) (Text.utf8 (quote text)) := by
  rw [utf8_quote]
  exact .string (closesString_quoted text)

theorem memberSpelling_compact {name : Option String} (hname : name.isSome) {value : Json}
    (hvalue : Spelling value (Text.utf8 (compact value))) :
    MemberSpelling (name, value) (Text.utf8 (printText name ++ ':' :: compact value)) := by
  obtain ⟨text, rfl⟩ := Option.isSome_iff_exists.1 hname
  have hmember := @MemberSpelling.mk (some text) value [] _ [] [] _ blanks_nil
    (closesString_quoted text) blanks_nil blanks_nil hvalue
  rw [printText, Text.utf8_append, utf8_quote, Text.utf8_cons, utf8_colon]
  simpa using hmember

theorem itemsSpelling_compact {items : List Json} (hitems : items ≠ [])
    (hspelled : ∀ item ∈ items, Spelling item (Text.utf8 (compact item))) :
    ItemsSpelling items (Text.utf8 (compactItems items ++ [']'])) := by
  induction items with
  | nil => exact absurd rfl hitems
  | cons item items ih =>
    have hitem := hspelled item List.mem_cons_self
    cases items with
    | nil =>
      have hlast := @ItemsSpelling.last item [] _ [] blanks_nil hitem blanks_nil
      rw [compactItems, Text.utf8_append, Text.utf8_cons, utf8_bracket]
      simpa using hlast
    | cons other items =>
      have hmore := @ItemsSpelling.more item _ [] _ [] _ blanks_nil hitem blanks_nil
        (ih (List.cons_ne_nil _ _) fun value hvalue =>
          hspelled value (List.mem_cons_of_mem _ hvalue))
      rw [compactItems, List.append_assoc, List.cons_append, Text.utf8_append, Text.utf8_cons,
        utf8_comma]
      · simpa using hmore
      · simp

theorem membersSpelling_compact {members : List (Option String × Json)} (hmembers : members ≠ [])
    (hspelled : ∀ member ∈ members,
      MemberSpelling member (Text.utf8 (printText member.1 ++ ':' :: compact member.2))) :
    MembersSpelling members (Text.utf8 (compactMembers members ++ ['\x7d'])) := by
  induction members with
  | nil => exact absurd rfl hmembers
  | cons member members ih =>
    obtain ⟨name, value⟩ := member
    have hmember := hspelled (name, value) List.mem_cons_self
    cases members with
    | nil =>
      have hlast := @MembersSpelling.last (name, value) _ [] hmember blanks_nil
      rw [compactMembers, Text.utf8_append, Text.utf8_cons, utf8_brace]
      simpa using hlast
    | cons other members =>
      have hmore := @MembersSpelling.more (name, value) _ _ [] _ hmember blanks_nil
        (ih (List.cons_ne_nil _ _) fun entry hentry =>
          hspelled entry (List.mem_cons_of_mem _ hentry))
      rw [compactMembers, List.append_assoc, List.cons_append, Text.utf8_append, Text.utf8_cons,
        utf8_comma]
      · simpa using hmore
      · simp

theorem spelling_compact {value : Json} (h : Writable value) :
    Spelling value (Text.utf8 (compact value)) := by
  induction h with
  | null =>
    rw [compact]
    exact .null
  | bool value =>
    rw [compact]
    cases value
    · exact .false
    · exact .true
  | natural value =>
    rw [compact]
    exact spelling_natural value
  | text text =>
    rw [ofText, compact]
    exact spelling_text text
  | @array items all ih =>
    rw [compact, List.cons_append, Text.utf8_cons]
    cases items with
    | nil =>
      rw [compactItems]
      exact .noItems blanks_nil
    | cons item items => exact .items (itemsSpelling_compact (List.cons_ne_nil _ _) ih)
  | @object members named all ih =>
    rw [compact, List.cons_append, Text.utf8_cons]
    cases members with
    | nil =>
      rw [compactMembers]
      exact .noMembers blanks_nil
    | cons member members =>
      exact .members (membersSpelling_compact (List.cons_ne_nil _ _) fun entry hentry =>
        memberSpelling_compact (named entry hentry) (ih entry hentry))

theorem parse?_compact {value : Json} (h : Writable value) :
    parse? (Text.utf8 value.toCompactText.toList) = some value := by
  have hparsed := parse?_spelling blanks_nil (spelling_compact h) blanks_nil
  rw [toCompactText, String.toList_ofList]
  simpa using hparsed

end Gatehouse.Json
