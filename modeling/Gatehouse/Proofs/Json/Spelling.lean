import Gatehouse.Proofs.Json.Scalars

set_option autoImplicit false

/-!
# Spellings of JSON values

A grammar of JSON texts with blanks wherever they may stand. The reader reads every spelling as the
value it spells.
-/

namespace Gatehouse.Json

def Blanks (bytes : List UInt8) : Prop :=
  ∀ b ∈ bytes, isBlankByte b = true

mutual

inductive Spelling : Json → List UInt8 → Prop
  | null : Spelling .null [0x6E, 0x75, 0x6C, 0x6C]
  | true : Spelling (.bool true) [0x74, 0x72, 0x75, 0x65]
  | false : Spelling (.bool false) [0x66, 0x61, 0x6C, 0x73, 0x65]
  | number {value : Json} {bytes : List UInt8} (written : NumberText value bytes) :
      Spelling value bytes
  | string {text : Option String} {bytes : List UInt8} (closed : ClosesString text bytes) :
      Spelling (.string text) (0x22 :: bytes)
  | noItems {blanks : List UInt8} (blank : Blanks blanks) :
      Spelling (.array []) (0x5B :: (blanks ++ [0x5D]))
  | items {items : List Json} {bytes : List UInt8} (spelled : ItemsSpelling items bytes) :
      Spelling (.array items) (0x5B :: bytes)
  | noMembers {blanks : List UInt8} (blank : Blanks blanks) :
      Spelling (.object []) (0x7B :: (blanks ++ [0x7D]))
  | members {members : List (Option String × Json)} {bytes : List UInt8}
      (spelled : MembersSpelling members bytes) : Spelling (.object members) (0x7B :: bytes)

inductive ItemsSpelling : List Json → List UInt8 → Prop
  | last {item : Json} {before bytes after : List UInt8} (blankBefore : Blanks before)
      (spelled : Spelling item bytes) (blankAfter : Blanks after) :
      ItemsSpelling [item] (before ++ (bytes ++ (after ++ [0x5D])))
  | more {item : Json} {items : List Json} {before bytes after others : List UInt8}
      (blankBefore : Blanks before) (spelled : Spelling item bytes) (blankAfter : Blanks after)
      (spelledOthers : ItemsSpelling items others) :
      ItemsSpelling (item :: items) (before ++ (bytes ++ (after ++ 0x2C :: others)))

/-- A name and its value, up to the blanks after the value. -/
inductive MemberSpelling : Option String × Json → List UInt8 → Prop
  | mk {name : Option String} {value : Json} {before quoted between inner bytes : List UInt8}
      (blankBefore : Blanks before) (closed : ClosesString name quoted)
      (blankBetween : Blanks between) (blankInner : Blanks inner) (spelled : Spelling value bytes) :
      MemberSpelling (name, value)
        (before ++ 0x22 :: (quoted ++ (between ++ 0x3A :: (inner ++ bytes))))

inductive MembersSpelling : List (Option String × Json) → List UInt8 → Prop
  | last {member : Option String × Json} {bytes after : List UInt8}
      (spelled : MemberSpelling member bytes) (blankAfter : Blanks after) :
      MembersSpelling [member] (bytes ++ (after ++ [0x7D]))
  | more {member : Option String × Json} {members : List (Option String × Json)}
      {bytes after others : List UInt8} (spelled : MemberSpelling member bytes)
      (blankAfter : Blanks after) (spelledOthers : MembersSpelling members others) :
      MembersSpelling (member :: members) (bytes ++ (after ++ 0x2C :: others))

end

theorem blanks_nil : Blanks [] := by
  intro b hb
  simp at hb

theorem skipBlanks_blanks {blanks : List UInt8} (h : Blanks blanks) (rest : List UInt8) :
    skipBlanks (blanks ++ rest) = skipBlanks rest :=
  List.dropWhile_append_of_pos h

theorem skipBlanks_cons {b : UInt8} (h : isBlankByte b = false) (rest : List UInt8) :
    skipBlanks (b :: rest) = b :: rest :=
  List.dropWhile_cons_of_neg (by simp [h])

theorem skipBlanks_blanks_cons {blanks : List UInt8} (h : Blanks blanks) {b : UInt8}
    (hb : isBlankByte b = false) (rest : List UInt8) :
    skipBlanks (blanks ++ b :: rest) = b :: rest := by
  rw [skipBlanks_blanks h, skipBlanks_cons hb]

theorem skipBlanks_skipBlanks (bytes : List UInt8) :
    skipBlanks (skipBlanks bytes) = skipBlanks bytes := by
  induction bytes with
  | nil => rfl
  | cons b bytes ih =>
    by_cases hb : isBlankByte b = true
    · have hskip : skipBlanks (b :: bytes) = skipBlanks bytes := List.dropWhile_cons_of_pos hb
      rw [hskip, ih]
    · rw [skipBlanks_cons (Bool.eq_false_iff.2 hb), skipBlanks_cons (Bool.eq_false_iff.2 hb)]

theorem parseValue_skipBlanks (steps : Nat) (bytes : List UInt8) :
    parseValue steps (skipBlanks bytes) = parseValue steps bytes := by
  cases steps with
  | zero => rfl
  | succ steps => rw [parseValue, parseValue, skipBlanks_skipBlanks]

theorem parseItems_skipBlanks (steps : Nat) (seen : List Json) (bytes : List UInt8) :
    parseItems steps seen (skipBlanks bytes) = parseItems steps seen bytes := by
  cases steps with
  | zero => rfl
  | succ steps => rw [parseItems, parseItems, parseValue_skipBlanks]

theorem parseMembers_skipBlanks (steps : Nat) (seen : List (Option String × Json))
    (bytes : List UInt8) :
    parseMembers steps seen (skipBlanks bytes) = parseMembers steps seen bytes := by
  cases steps with
  | zero => rfl
  | succ steps => rw [parseMembers, parseMembers, skipBlanks_skipBlanks]

theorem parseValue_blanks {blanks : List UInt8} (h : Blanks blanks) (steps : Nat)
    (bytes : List UInt8) : parseValue steps (blanks ++ bytes) = parseValue steps bytes := by
  rw [← parseValue_skipBlanks, skipBlanks_blanks h, parseValue_skipBlanks]

def Begins (b : UInt8) : Prop :=
  isBlankByte b = false ∧ b ≠ 0x5D ∧ b ≠ 0x7D

theorem begins_number {b : UInt8} (h : isDigitByte b = true ∨ b = 0x2D) : Begins b := by
  have hall : ∀ n : Fin 256, isDigitByte (UInt8.ofNat n.val) = true ∨ UInt8.ofNat n.val = 0x2D →
      isBlankByte (UInt8.ofNat n.val) = false ∧ UInt8.ofNat n.val ≠ 0x5D ∧
        UInt8.ofNat n.val ≠ 0x7D := by decide +kernel
  have hb := hall ⟨b.toNat, b.toNat_lt⟩
  simp only [UInt8.ofNat_toNat] at hb
  exact hb h

theorem spelling_begins {value : Json} {bytes : List UInt8} (h : Spelling value bytes) :
    ∃ b others, bytes = b :: others ∧ Begins b := by
  cases h with
  | number written =>
    obtain ⟨first, others, rfl, hfirst⟩ := written.begins
    exact ⟨first, others, rfl, begins_number hfirst⟩
  | null | true | false | string | noItems | items | noMembers | members =>
    exact ⟨_, _, rfl, by decide, by decide, by decide⟩

theorem endsNumber_blanks {blanks : List UInt8} (h : Blanks blanks) {b : UInt8}
    (hb : EndsNumber [b]) (rest : List UInt8) : EndsNumber (blanks ++ b :: rest) := by
  have hall : ∀ n : Fin 256, isBlankByte (UInt8.ofNat n.val) = true →
      isDigitByte (UInt8.ofNat n.val) = false ∧ UInt8.ofNat n.val ≠ 0x2E ∧
        UInt8.ofNat n.val ≠ 0x65 ∧ UInt8.ofNat n.val ≠ 0x45 := by decide +kernel
  cases blanks with
  | nil => simpa [EndsNumber] using hb
  | cons first others =>
    intro d hd
    simp only [List.cons_append, List.head?_cons, Option.mem_def, Option.some.injEq] at hd
    subst hd
    have hfirst := hall ⟨first.toNat, first.toNat_lt⟩
    simp only [UInt8.ofNat_toNat] at hfirst
    exact hfirst (h first List.mem_cons_self)

theorem parseValue_number {b : UInt8} (h : isDigitByte b = true ∨ b = 0x2D) (steps : Nat)
    (rest : List UInt8) : parseValue (steps + 1) (b :: rest) = parseNumber (b :: rest) := by
  have hdigit : b = 0x2D ∨ 0x30 ≤ b ∧ b ≤ 0x39 := by
    simpa [isDigitByte, or_comm] using h
  rw [parseValue, skipBlanks_cons (begins_number h).1]
  split
  all_goals first
    | rfl
    | next heq =>
      simp only [List.cons.injEq] at heq
      obtain ⟨rfl, -⟩ := heq
      exact absurd hdigit (by decide)

/-- What the reader of values, of items and of members does on spellings, within some steps. -/
structure Reads (steps : Nat) : Prop where
  value : ∀ {value bytes rest}, Spelling value bytes → 2 * bytes.length ≤ steps →
    EndsNumber rest → parseValue steps (bytes ++ rest) = some (value, rest)
  items : ∀ {items bytes} seen rest, ItemsSpelling items bytes → 2 * bytes.length ≤ steps →
    parseItems steps seen (bytes ++ rest) = some (.array (seen.reverse ++ items), rest)
  members : ∀ {members bytes} seen rest, MembersSpelling members bytes →
    2 * bytes.length ≤ steps →
    parseMembers steps seen (bytes ++ rest) = some (.object (seen.reverse ++ members), rest)

theorem parseValue_padded {steps : Nat} (ih : Reads steps) {value : Json}
    {before bytes after : List UInt8} (hbefore : Blanks before) (hspelled : Spelling value bytes)
    (hafter : Blanks after) {b : UInt8} (hb : EndsNumber [b]) (hskip : isBlankByte b = false)
    (rest : List UInt8) (hsteps : 2 * bytes.length ≤ steps) :
    ∃ left, parseValue steps (before ++ (bytes ++ (after ++ b :: rest))) = some (value, left) ∧
      skipBlanks left = b :: rest := by
  refine ⟨after ++ b :: rest, ?_, skipBlanks_blanks_cons hafter hskip rest⟩
  rw [parseValue_blanks hbefore]
  exact ih.value hspelled hsteps (endsNumber_blanks hafter hb rest)

theorem endsNumber_mark {b : UInt8} (h : b = 0x2C ∨ b = 0x5D ∨ b = 0x7D) : EndsNumber [b] := by
  intro d hd
  simp only [List.head?_cons, Option.mem_def, Option.some.injEq] at hd
  subst hd
  rcases h with rfl | rfl | rfl <;> decide

theorem parseItems_last {steps : Nat} (ih : Reads steps) {item : Json}
    {before bytes after : List UInt8} (hbefore : Blanks before) (hspelled : Spelling item bytes)
    (hafter : Blanks after) (seen : List Json) (rest : List UInt8)
    (hsteps : 2 * bytes.length ≤ steps) :
    parseItems (steps + 1) seen (before ++ (bytes ++ (after ++ 0x5D :: rest))) =
      some (.array (seen.reverse ++ [item]), rest) := by
  obtain ⟨left, hvalue, hleft⟩ :=
    parseValue_padded ih hbefore hspelled hafter (endsNumber_mark (.inr (.inl rfl))) (by decide)
      rest hsteps
  rw [parseItems, hvalue]
  simp [hleft]

theorem parseItems_more {steps : Nat} (ih : Reads steps) {item : Json}
    {before bytes after : List UInt8} (hbefore : Blanks before) (hspelled : Spelling item bytes)
    (hafter : Blanks after) (seen : List Json) (rest : List UInt8)
    (hsteps : 2 * bytes.length ≤ steps) :
    parseItems (steps + 1) seen (before ++ (bytes ++ (after ++ 0x2C :: rest))) =
      parseItems steps (item :: seen) rest := by
  obtain ⟨left, hvalue, hleft⟩ :=
    parseValue_padded ih hbefore hspelled hafter (endsNumber_mark (.inl rfl)) (by decide)
      rest hsteps
  rw [parseItems, hvalue]
  simp [hleft]

theorem parseMembers_member {steps : Nat} (ih : Reads steps) {member : Option String × Json}
    {bytes after : List UInt8} (hspelled : MemberSpelling member bytes) (hafter : Blanks after)
    (seen : List (Option String × Json)) {b : UInt8} (hb : b = 0x2C ∨ b = 0x7D)
    (rest : List UInt8) (hsteps : 2 * bytes.length ≤ steps) :
    parseMembers (steps + 1) seen (bytes ++ (after ++ b :: rest)) =
      if b = 0x2C then parseMembers steps (member :: seen) rest
      else some (.object (seen.reverse ++ [member]), rest) := by
  cases hspelled with
  | @mk name value before quoted between inner bytes hbefore hclosed hbetween hinner hvalue =>
    have hmark : EndsNumber [b] := endsNumber_mark (hb.imp_right .inr)
    have hskip : isBlankByte b = false := by rcases hb with rfl | rfl <;> decide
    have hlength : 2 * bytes.length ≤ steps := by
      simp only [List.length_append, List.length_cons] at hsteps
      omega
    obtain ⟨left, hparsed, hleft⟩ :=
      parseValue_padded ih hinner hvalue hafter hmark hskip rest hlength
    simp only [List.append_assoc, List.cons_append]
    have hcolon : skipBlanks (between ++ 0x3A :: (inner ++ (bytes ++ (after ++ b :: rest)))) =
        0x3A :: (inner ++ (bytes ++ (after ++ b :: rest))) :=
      skipBlanks_blanks_cons hbetween (by decide) _
    rw [parseMembers, skipBlanks_blanks_cons hbefore (by decide)]
    simp only [parseString_eq_some_iff.2 ⟨_, hclosed, rfl⟩, Option.bind_some, hcolon, hparsed,
      hleft]
    rcases hb with rfl | rfl <;> simp

theorem itemsSpelling_head {items : List Json} {bytes : List UInt8}
    (h : ItemsSpelling items bytes) (rest : List UInt8) :
    (skipBlanks (bytes ++ rest)).head? ≠ some 0x5D := by
  cases h with
  | last hbefore hspelled hafter | more hbefore hspelled hafter hothers =>
    obtain ⟨b, others, rfl, hbegins⟩ := spelling_begins hspelled
    rw [List.append_assoc, skipBlanks_blanks hbefore, List.cons_append, List.cons_append,
      skipBlanks_cons hbegins.1]
    simpa using hbegins.2.1

theorem membersSpelling_head {members : List (Option String × Json)} {bytes : List UInt8}
    (h : MembersSpelling members bytes) (rest : List UInt8) :
    (skipBlanks (bytes ++ rest)).head? = some 0x22 := by
  cases h with
  | last hspelled hafter | more hspelled hafter hothers =>
    cases hspelled with
    | mk hbefore hclosed hbetween hinner hvalue =>
      rw [List.append_assoc, List.append_assoc, List.cons_append,
        skipBlanks_blanks_cons hbefore (by decide)]
      rfl

theorem parseValue_items {steps : Nat} (ih : Reads steps) {items : List Json}
    {bytes : List UInt8} (h : ItemsSpelling items bytes) (hsteps : 2 * bytes.length ≤ steps)
    (rest : List UInt8) :
    parseValue (steps + 1) (0x5B :: (bytes ++ rest)) = some (.array items, rest) := by
  have hread := ih.items [] rest h hsteps
  have hhead := itemsSpelling_head h rest
  rw [← parseItems_skipBlanks] at hread
  rw [parseValue, skipBlanks_cons (by decide)]
  simp only
  split
  · next heq => exact absurd (by rw [heq]; rfl) hhead
  · simpa using hread

theorem parseValue_members {steps : Nat} (ih : Reads steps)
    {members : List (Option String × Json)} {bytes : List UInt8}
    (h : MembersSpelling members bytes) (hsteps : 2 * bytes.length ≤ steps) (rest : List UInt8) :
    parseValue (steps + 1) (0x7B :: (bytes ++ rest)) = some (.object members, rest) := by
  have hread := ih.members [] rest h hsteps
  have hhead := membersSpelling_head h rest
  rw [← parseMembers_skipBlanks] at hread
  rw [parseValue, skipBlanks_cons (by decide)]
  simp only
  split
  · next heq =>
    rw [heq] at hhead
    simp at hhead
  · simpa using hread

theorem reads_succ {steps : Nat} (ih : Reads steps) : Reads (steps + 1) where
  value {value bytes rest} hspelled hsteps hrest := by
    cases hspelled with
    | null | true | false => rfl
    | number written =>
      obtain ⟨first, others, rfl, hfirst⟩ := written.begins
      exact (parseValue_number hfirst steps _).trans (parseNumber_text written hrest)
    | string closed =>
      rw [List.cons_append, parseValue, skipBlanks_cons (by decide)]
      simp [parseString_eq_some_iff.2 ⟨_, closed, rfl⟩]
    | noItems blank =>
      rw [List.cons_append, parseValue, skipBlanks_cons (by decide)]
      simp [skipBlanks_blanks_cons (b := 0x5D) blank (by decide)]
    | noMembers blank =>
      rw [List.cons_append, parseValue, skipBlanks_cons (by decide)]
      simp [skipBlanks_blanks_cons (b := 0x7D) blank (by decide)]
    | items spelled =>
      exact parseValue_items ih spelled (by simp only [List.length_cons] at hsteps; omega) rest
    | members spelled =>
      exact parseValue_members ih spelled (by simp only [List.length_cons] at hsteps; omega) rest
  items {items bytes} seen rest hspelled hsteps := by
    cases hspelled with
    | last hbefore hitem hafter =>
      simp only [List.length_append, List.length_cons] at hsteps
      simpa using parseItems_last ih hbefore hitem hafter seen rest (by omega)
    | more hbefore hitem hafter hothers =>
      simp only [List.length_append, List.length_cons] at hsteps
      simp only [List.append_assoc, List.cons_append]
      rw [parseItems_more ih hbefore hitem hafter seen _ (by omega),
        ih.items _ rest hothers (by omega)]
      simp
  members {members bytes} seen rest hspelled hsteps := by
    cases hspelled with
    | last hmember hafter =>
      simp only [List.length_append, List.length_cons] at hsteps
      have hlast := parseMembers_member ih hmember hafter seen (.inr rfl) rest (by omega)
      simpa using hlast
    | more hmember hafter hothers =>
      simp only [List.length_append, List.length_cons] at hsteps
      simp only [List.append_assoc, List.cons_append]
      rw [parseMembers_member ih hmember hafter seen (.inl rfl) _ (by omega), if_pos rfl,
        ih.members _ rest hothers (by omega)]
      simp

theorem reads (steps : Nat) : Reads steps := by
  induction steps with
  | zero =>
    constructor
    · intro value bytes rest hspelled hsteps
      obtain ⟨b, others, rfl, -⟩ := spelling_begins hspelled
      simp at hsteps
    · intro items bytes seen rest hspelled hsteps
      cases hspelled <;> simp at hsteps
    · intro members bytes seen rest hspelled hsteps
      cases hspelled <;> simp at hsteps
  | succ steps ih => exact reads_succ ih

theorem parse?_spelling {value : Json} {before bytes after : List UInt8} (hbefore : Blanks before)
    (h : Spelling value bytes) (hafter : Blanks after) :
    parse? (before ++ (bytes ++ after)) = some value := by
  have hrest : EndsNumber after := by
    cases after with
    | nil => simp [EndsNumber]
    | cons b others =>
      have hb := endsNumber_blanks hafter (b := 0x2C) (endsNumber_mark (.inl rfl)) []
      simpa [EndsNumber] using hb
  have hempty : skipBlanks after = [] := by
    have hskip := skipBlanks_blanks hafter []
    rw [List.append_nil] at hskip
    rw [hskip]
    rfl
  have hvalue := (reads (2 * (before ++ (bytes ++ after)).length + 2)).value h
    (by simp only [List.length_append]; omega) hrest
  rw [parse?, parseValue_blanks hbefore, hvalue]
  simp [hempty]

end Gatehouse.Json
