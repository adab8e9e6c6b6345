import Gatehouse.Proofs.Json.Spelling

set_option autoImplicit false

/-!
# What is read is spelled

The reader reads nothing but spellings. With it, the values that a text is read as are those that
the grammar gives it, which is one or none.
-/

namespace Gatehouse.Json

/-- A text spells a value, with blanks around it. -/
def TextOf (value : Json) (bytes : List UInt8) : Prop :=
  ∃ before text after, Blanks before ∧ Spelling value text ∧ Blanks after ∧
    bytes = before ++ (text ++ after)

theorem Blanks.append {before after : List UInt8} (h : Blanks before) (h' : Blanks after) :
    Blanks (before ++ after) := by
  intro b hb
  rcases List.mem_append.1 hb with hb | hb
  · exact h b hb
  · exact h' b hb

theorem blanks_skipped (bytes : List UInt8) :
    ∃ blanks, Blanks blanks ∧ bytes = blanks ++ skipBlanks bytes :=
  ⟨bytes.takeWhile isBlankByte, List.all_eq_true.1 List.all_takeWhile,
    List.takeWhile_append_dropWhile.symm⟩

theorem ItemsSpelling.padded {items : List Json} {bytes blanks : List UInt8}
    (h : ItemsSpelling items bytes) (hblanks : Blanks blanks) :
    ItemsSpelling items (blanks ++ bytes) := by
  cases h with
  | last hbefore hspelled hafter =>
    rw [← List.append_assoc]
    exact .last (hblanks.append hbefore) hspelled hafter
  | more hbefore hspelled hafter hothers =>
    rw [← List.append_assoc]
    exact .more (hblanks.append hbefore) hspelled hafter hothers

theorem MemberSpelling.padded {member : Option String × Json} {bytes blanks : List UInt8}
    (h : MemberSpelling member bytes) (hblanks : Blanks blanks) :
    MemberSpelling member (blanks ++ bytes) := by
  cases h with
  | mk hbefore hclosed hbetween hinner hvalue =>
    rw [← List.append_assoc]
    exact .mk (hblanks.append hbefore) hclosed hbetween hinner hvalue

theorem MembersSpelling.padded {members : List (Option String × Json)} {bytes blanks : List UInt8}
    (h : MembersSpelling members bytes) (hblanks : Blanks blanks) :
    MembersSpelling members (blanks ++ bytes) := by
  cases h with
  | last hmember hafter =>
    rw [← List.append_assoc]
    exact .last (hmember.padded hblanks) hafter
  | more hmember hafter hothers =>
    rw [← List.append_assoc]
    exact .more (hmember.padded hblanks) hafter hothers

/-- What has been read by the reader of values, of items and of members, within some steps. -/
structure Spells (steps : Nat) : Prop where
  value : ∀ {value bytes rest}, parseValue steps bytes = some (value, rest) →
    ∃ blanks text, Blanks blanks ∧ Spelling value text ∧ bytes = blanks ++ (text ++ rest)
  items : ∀ {seen value bytes rest}, parseItems steps seen bytes = some (value, rest) →
    ∃ items text, value = .array (seen.reverse ++ items) ∧ ItemsSpelling items text ∧
      bytes = text ++ rest
  members : ∀ {seen value bytes rest}, parseMembers steps seen bytes = some (value, rest) →
    ∃ members text, value = .object (seen.reverse ++ members) ∧ MembersSpelling members text ∧
      bytes = text ++ rest

variable {steps : Nat} {value : Json} {bytes rest : List UInt8}

theorem spelling_of_parseValue (ih : Spells steps)
    (h : parseValue (steps + 1) bytes = some (value, rest)) :
    ∃ text, Spelling value text ∧ skipBlanks bytes = text ++ rest := by
  rw [parseValue] at h
  split at h
  · next after heq =>
    obtain ⟨⟨text, last⟩, hparse, hvalue⟩ := Option.map_eq_some_iff.1 h
    cases hvalue
    obtain ⟨front, hclosed, rfl⟩ := parseString_eq_some_iff.1 hparse
    exact ⟨_, .string hclosed, heq⟩
  · next after heq =>
    obtain ⟨blanks, hblanks, hafter⟩ := blanks_skipped after
    split at h
    · next last hlast =>
      cases h
      rw [hlast] at hafter
      exact ⟨_, .noItems hblanks, by rw [heq, hafter]; simp⟩
    · obtain ⟨items, text, rfl, hspelled, hlast⟩ := ih.items h
      rw [hlast] at hafter
      exact ⟨_, .items (hspelled.padded hblanks), by rw [heq, hafter]; simp⟩
  · next after heq =>
    obtain ⟨blanks, hblanks, hafter⟩ := blanks_skipped after
    split at h
    · next last hlast =>
      cases h
      rw [hlast] at hafter
      exact ⟨_, .noMembers hblanks, by rw [heq, hafter]; simp⟩
    · obtain ⟨members, text, rfl, hspelled, hlast⟩ := ih.members h
      rw [hlast] at hafter
      exact ⟨_, .members (hspelled.padded hblanks), by rw [heq, hafter]; simp⟩
  · next heq =>
    cases h
    exact ⟨_, .null, heq⟩
  · next heq =>
    cases h
    exact ⟨_, .true, heq⟩
  · next heq =>
    cases h
    exact ⟨_, .false, heq⟩
  · obtain ⟨text, hwritten, htext⟩ := text_of_parseNumber h
    exact ⟨text, .number hwritten, htext⟩

theorem spelling_of_parseItems (ih : Spells steps) {seen : List Json}
    (h : parseItems (steps + 1) seen bytes = some (value, rest)) :
    ∃ items text, value = .array (seen.reverse ++ items) ∧ ItemsSpelling items text ∧
      bytes = text ++ rest := by
  rw [parseItems] at h
  obtain ⟨⟨item, after⟩, hitem, hnext⟩ := Option.bind_eq_some_iff.1 h
  obtain ⟨before, text, hbefore, hspelled, rfl⟩ := ih.value hitem
  obtain ⟨blanks, hblanks, hafter⟩ := blanks_skipped after
  dsimp only at hnext
  split at hnext
  · next others hothers =>
    obtain ⟨items, more, rfl, hmore, rfl⟩ := ih.items hnext
    rw [hothers] at hafter
    subst hafter
    exact ⟨_, _, by simp, .more hbefore hspelled hblanks hmore, by simp⟩
  · next last hlast =>
    cases hnext
    rw [hlast] at hafter
    subst hafter
    exact ⟨_, _, by simp, .last hbefore hspelled hblanks, by simp⟩
  · cases hnext

theorem spelling_of_parseMembers (ih : Spells steps) {seen : List (Option String × Json)}
    (h : parseMembers (steps + 1) seen bytes = some (value, rest)) :
    ∃ members text, value = .object (seen.reverse ++ members) ∧ MembersSpelling members text ∧
      bytes = text ++ rest := by
  obtain ⟨before, hbefore, hbytes⟩ := blanks_skipped bytes
  rw [parseMembers] at h
  split at h
  · next quoted hquoted =>
    obtain ⟨⟨name, afterName⟩, hname, hnext⟩ := Option.bind_eq_some_iff.1 h
    obtain ⟨front, hclosed, rfl⟩ := parseString_eq_some_iff.1 hname
    obtain ⟨between, hbetween, hafterName⟩ := blanks_skipped afterName
    dsimp only at hnext
    split at hnext
    · next afterColon hcolon =>
      obtain ⟨⟨member, after⟩, hmember, hlast⟩ := Option.bind_eq_some_iff.1 hnext
      obtain ⟨inner, text, hinner, hspelled, rfl⟩ := ih.value hmember
      obtain ⟨blanks, hblanks, hafter⟩ := blanks_skipped after
      have hspelling := MemberSpelling.mk hbefore hclosed hbetween hinner hspelled
      rw [hquoted] at hbytes
      rw [hcolon] at hafterName
      subst hafterName hbytes
      dsimp only at hlast
      split at hlast
      · next others hothers =>
        obtain ⟨members, more, rfl, hmore, rfl⟩ := ih.members hlast
        rw [hothers] at hafter
        subst hafter
        exact ⟨_, _, by simp, .more hspelling hblanks hmore, by simp⟩
      · next last hmark =>
        cases hlast
        rw [hmark] at hafter
        subst hafter
        exact ⟨_, _, by simp, .last hspelling hblanks, by simp⟩
      · cases hlast
    · cases hnext
  · cases h

theorem spells (steps : Nat) : Spells steps := by
  induction steps with
  | zero =>
    constructor
    · intro value bytes rest h
      cases h
    · intro seen value bytes rest h
      cases h
    · intro seen value bytes rest h
      cases h
  | succ steps ih =>
    constructor
    · intro value bytes rest h
      obtain ⟨blanks, hblanks, hbytes⟩ := blanks_skipped bytes
      obtain ⟨text, hspelled, htext⟩ := spelling_of_parseValue ih h
      exact ⟨blanks, text, hblanks, hspelled, htext ▸ hbytes⟩
    · intro seen value bytes rest h
      exact spelling_of_parseItems ih h
    · intro seen value bytes rest h
      exact spelling_of_parseMembers ih h

theorem parse?_eq_some_iff : parse? bytes = some value ↔ TextOf value bytes := by
  constructor
  · intro h
    obtain ⟨⟨read, after⟩, hread, hend⟩ := Option.bind_eq_some_iff.1 h
    obtain ⟨before, text, hbefore, hspelled, rfl⟩ := (spells _).value hread
    obtain ⟨blanks, hblanks, hafter⟩ := blanks_skipped after
    dsimp only at hend
    split at hend
    · next hempty =>
      cases hend
      rw [List.isEmpty_iff.1 hempty, List.append_nil] at hafter
      subst hafter
      exact ⟨before, text, after, hbefore, hspelled, hblanks, rfl⟩
    · cases hend
  · rintro ⟨before, text, after, hbefore, hspelled, hafter, rfl⟩
    exact parse?_spelling hbefore hspelled hafter

end Gatehouse.Json
