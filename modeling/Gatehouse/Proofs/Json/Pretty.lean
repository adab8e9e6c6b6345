import Gatehouse.Disk.JsonFile
import Gatehouse.Proofs.Json.Compact

set_option autoImplicit false

/-!
# Reading an indented text

Line breaks and indentation are blanks, so the pretty text of a value spells it like the compact one.
With it, what a JSON file is given is what it is read as.
-/

namespace Gatehouse.Json

theorem blanks_newline (level : Nat) : Blanks (Text.utf8 (newline level)) := by
  have hchars : ∀ c ∈ newline level, c = '\n' ∨ c = ' ' := by
    intro c hc
    rcases List.mem_cons.1 hc with hc | hc
    · exact .inl hc
    · exact .inr (List.eq_of_mem_replicate hc)
  have hshort : ∀ c ∈ newline level, c.toNat < 0x80 := by
    intro c hc
    rcases hchars c hc with rfl | rfl <;> decide
  rw [Text.utf8_of_short hshort]
  intro b hb
  obtain ⟨c, hc, rfl⟩ := List.mem_map.1 hb
  rcases hchars c hc with rfl | rfl <;> decide

theorem itemsSpelling_pretty {level : Nat} {items : List Json} (hitems : items ≠ [])
    (hspelled : ∀ item ∈ items, Spelling item (Text.utf8 (prettyAt level item)))
    {before after : List UInt8} (hbefore : Blanks before) (hafter : Blanks after) :
    ItemsSpelling items
      (before ++ (Text.utf8 (prettyItems level items) ++ (after ++ [0x5D]))) := by
  induction items generalizing before with
  | nil => exact absurd rfl hitems
  | cons item items ih =>
    have hitem := hspelled item List.mem_cons_self
    cases items with
    | nil =>
      rw [prettyItems]
      exact .last hbefore hitem hafter
    | cons other items =>
      have hrest := ih (List.cons_ne_nil _ _)
        (fun value hvalue => hspelled value (List.mem_cons_of_mem _ hvalue))
        (blanks_newline level)
      have hmore := ItemsSpelling.more hbefore hitem blanks_nil hrest
      rw [prettyItems, List.append_assoc, List.cons_append, Text.utf8_append, Text.utf8_cons,
        utf8_comma]
      · simpa using hmore
      · simp

theorem memberSpelling_pretty {level : Nat} {name : Option String} (hname : name.isSome)
    {value : Json} (hvalue : Spelling value (Text.utf8 (prettyAt level value)))
    {before : List UInt8} (hbefore : Blanks before) :
    MemberSpelling (name, value)
      (before ++ Text.utf8 (printText name ++ ':' :: ' ' :: prettyAt level value)) := by
  obtain ⟨text, rfl⟩ := Option.isSome_iff_exists.1 hname
  have hspace : Blanks [0x20] := by
    intro b hb
    rw [List.mem_singleton.1 hb]
    rfl
  have hmember := MemberSpelling.mk hbefore (closesString_quoted text) blanks_nil hspace hvalue
  have hutf8 : String.utf8EncodeChar ' ' = [0x20] := rfl
  rw [printText, Text.utf8_append, utf8_quote, Text.utf8_cons, utf8_colon, Text.utf8_cons, hutf8]
  simpa using hmember

theorem membersSpelling_pretty {level : Nat} {members : List (Option String × Json)}
    (hmembers : members ≠ []) (hnamed : ∀ member ∈ members, member.1.isSome)
    (hspelled : ∀ member ∈ members, Spelling member.2 (Text.utf8 (prettyAt level member.2)))
    {before after : List UInt8} (hbefore : Blanks before) (hafter : Blanks after) :
    MembersSpelling members
      (before ++ (Text.utf8 (prettyMembers level members) ++ (after ++ [0x7D]))) := by
  induction members generalizing before with
  | nil => exact absurd rfl hmembers
  | cons member members ih =>
    obtain ⟨name, value⟩ := member
    have hmember := memberSpelling_pretty (hnamed (name, value) List.mem_cons_self)
      (hspelled (name, value) List.mem_cons_self) hbefore
    cases members with
    | nil =>
      rw [prettyMembers]
      simpa using MembersSpelling.last hmember hafter
    | cons other members =>
      have hrest := ih (List.cons_ne_nil _ _)
        (fun entry hentry => hnamed entry (List.mem_cons_of_mem _ hentry))
        (fun entry hentry => hspelled entry (List.mem_cons_of_mem _ hentry))
        (blanks_newline level)
      have hmore := MembersSpelling.more hmember blanks_nil hrest
      rw [prettyMembers, List.append_assoc, List.cons_append, Text.utf8_append, Text.utf8_cons,
        utf8_comma]
      · simpa using hmore
      · simp

theorem spelling_pretty {value : Json} (h : Writable value) (level : Nat) :
    Spelling value (Text.utf8 (prettyAt level value)) := by
  induction h generalizing level with
  | null =>
    rw [prettyAt]
    exact .null
  | bool value =>
    rw [prettyAt]
    cases value
    · exact .false
    · exact .true
  | natural value =>
    rw [prettyAt]
    exact spelling_natural value
  | text text =>
    rw [ofText, prettyAt]
    exact spelling_text text
  | @array items all ih =>
    cases items with
    | nil =>
      rw [prettyAt]
      exact .noItems blanks_nil
    | cons item items =>
      have hitems := itemsSpelling_pretty (List.cons_ne_nil item items)
        (fun value hvalue => ih value hvalue (level + 1)) (blanks_newline (level + 1))
        (blanks_newline level)
      have hopen : String.utf8EncodeChar '[' = [0x5B] := rfl
      rw [prettyAt]
      simpa [utf8_bracket, hopen] using Spelling.items hitems
  | @object members named all ih =>
    cases members with
    | nil =>
      rw [prettyAt]
      exact .noMembers blanks_nil
    | cons member members =>
      have hmembers := membersSpelling_pretty (List.cons_ne_nil member members) named
        (fun entry hentry => ih entry hentry (level + 1)) (blanks_newline (level + 1))
        (blanks_newline level)
      have hopen : String.utf8EncodeChar '\x7b' = [0x7B] := rfl
      rw [prettyAt]
      simpa [utf8_brace, hopen] using Spelling.members hmembers

theorem parse?_content {value : Json} (h : Writable value) :
    parse? (JsonFile.content value) = some value := by
  have hparsed := parse?_spelling blanks_nil (spelling_pretty h 0) blanks_nil
  rw [JsonFile.content]
  simpa using hparsed

end Gatehouse.Json
