import Gatehouse.Proofs.Json.Compact
import Gatehouse.Proofs.Json.Record
import Gatehouse.Proofs.Text.Pattern
import Gatehouse.Username.Codec

set_option autoImplicit false

/-!
# Which texts are usernames

The tests a text passes on its way to a username, put as one condition on its characters. The test
of the shape is the search for a pattern between anchors, and a name read from JSON has passed the
same tests.
-/

namespace Gatehouse.Username

open Text

/-- What the characters of a username have in common. -/
structure IsName (cs : List Char) : Prop where
  nonempty : 1 ≤ cs.length
  short : cs.length ≤ 64
  first : ∀ c ∈ cs.head?, isBlank c = false ∧ isControl c = false
  last : ∀ c ∈ cs.getLast?, isBlank c = false ∧ isControl c = false
  clean : ∀ c ∈ cs, isControl c = false

/-- A visible character, and where the name is longer, anything but control characters up to
another visible one. -/
def pattern : Pattern :=
  .andThen .start <| .andThen
    (.andThen (.noneOf [.blank, .control])
      (.optional (.andThen (.many (.noneOf [.control])) (.noneOf [.blank, .control]))))
    .finish

theorem isVisible_iff {c : Char} :
    isVisible c = true ↔ isBlank c = false ∧ isControl c = false := by
  simp [isVisible]

theorem outside_visible {c : Char} :
    Pattern.Outside [.blank, .control] c ↔ isVisible c = true := by
  simp [Pattern.Outside, CharClass.holds, isVisible]

theorem outside_control {c : Char} : Pattern.Outside [.control] c ↔ isControl c = false := by
  simp [Pattern.Outside, CharClass.holds]

theorem isShapely_iff {cs : List Char} :
    isShapely cs = true ↔ (∀ c ∈ cs, isControl c = false) ∧
      (∃ c ∈ cs.head?, isVisible c = true) ∧ ∃ c ∈ cs.getLast?, isVisible c = true := by
  simp [isShapely, Option.any_eq_true, and_assoc]

theorem isShapely_singleton {c : Char} : isShapely [c] = true ↔ isVisible c = true := by
  rw [isShapely_iff]
  constructor
  · rintro ⟨-, ⟨d, hd, hvisible⟩, -⟩
    cases hd
    exact hvisible
  · intro h
    refine ⟨?_, ⟨c, rfl, h⟩, c, rfl, h⟩
    intro d hd
    rw [List.mem_singleton.1 hd]
    exact isControl_eq_false_of_isVisible h

theorem isShapely_ends {c d : Char} {cs : List Char} :
    isShapely (c :: (cs ++ [d])) = true ↔
      isVisible c = true ∧ (∀ e ∈ cs, isControl e = false) ∧ isVisible d = true := by
  have hlast : (c :: (cs ++ [d])).getLast? = some d := by
    rw [← List.cons_append, List.getLast?_concat]
  rw [isShapely_iff, hlast]
  constructor
  · rintro ⟨hclean, ⟨a, ha, hfirst⟩, b, hb, hfinal⟩
    cases ha
    cases hb
    exact ⟨hfirst, fun e he => hclean e (by simp [he]), hfinal⟩
  · rintro ⟨hfirst, hclean, hfinal⟩
    refine ⟨?_, ⟨c, rfl, hfirst⟩, d, rfl, hfinal⟩
    intro e he
    simp only [List.mem_cons, List.mem_append, List.not_mem_nil, or_false] at he
    rcases he with rfl | he | rfl
    · exact isControl_eq_false_of_isVisible hfirst
    · exact hclean e he
    · exact isControl_eq_false_of_isVisible hfinal

/-- The search for the pattern is the test of the shape. The group is absent in the match of a
single character, and in any other match it ends at the last one. -/
theorem foundIn_pattern {cs : List Char} : pattern.FoundIn cs ↔ isShapely cs = true := by
  rw [pattern, Pattern.foundIn_anchored, Pattern.matches_andThen]
  constructor
  · rintro ⟨xs, ys, rfl, hfirst, hrest⟩
    obtain ⟨c, rfl, hc⟩ := Pattern.matches_noneOf.1 hfirst
    rcases Pattern.matches_optional.1 hrest with rfl | hgroup
    · exact isShapely_singleton.2 (outside_visible.1 hc)
    · obtain ⟨inner, zs, rfl, hmany, hfinal⟩ := Pattern.matches_andThen.1 hgroup
      obtain ⟨d, rfl, hd⟩ := Pattern.matches_noneOf.1 hfinal
      refine isShapely_ends.2 ⟨outside_visible.1 hc, ?_, outside_visible.1 hd⟩
      intro e he
      exact outside_control.1 (Pattern.matches_many_noneOf.1 hmany e he)
  · intro h
    cases cs with
    | nil => simp [isShapely] at h
    | cons c cs =>
      rcases List.eq_nil_or_concat cs with rfl | ⟨inner, d, hcs⟩
      · have hc := outside_visible.2 (isShapely_singleton.1 h)
        exact ⟨[c], [], rfl, .noneOf hc, .absent⟩
      · rw [hcs, List.concat_eq_append, isShapely_ends] at h
        obtain ⟨hc, hclean, hd⟩ := h
        have hmany : (Pattern.many (.noneOf [.control])).Matches ([] ++ [c]) inner ([d] ++ []) :=
          Pattern.matches_many_noneOf.2 fun e he => outside_control.2 (hclean e he)
        refine ⟨[c], cs, rfl, .noneOf (outside_visible.2 hc), .present ?_⟩
        rw [hcs, List.concat_eq_append]
        exact .andThen hmany (.noneOf (outside_visible.2 hd))

example : ¬ pattern.FoundIn "al\n".toList := by
  rw [foundIn_pattern]
  decide

theorem isName_iff_isShapely {cs : List Char} :
    IsName cs ↔ cs.length ≤ maxLength ∧ isShapely cs = true := by
  rw [isShapely_iff]
  constructor
  · intro h
    cases cs with
    | nil => exact absurd h.nonempty (by decide)
    | cons c cs =>
      have hfirst := isVisible_iff.2 (h.first c rfl)
      have hlast := isVisible_iff.2 (h.last _ List.getLast?_cons)
      exact ⟨h.short, h.clean, ⟨c, rfl, hfirst⟩, _, List.getLast?_cons, hlast⟩
  · rintro ⟨hshort, hclean, ⟨c, hc, hfirst⟩, d, hd, hlast⟩
    refine ⟨?_, hshort, ?_, ?_, hclean⟩
    · exact List.length_pos_of_mem (List.mem_of_mem_head? hc)
    · intro e he
      rw [Option.mem_unique he hc]
      exact isVisible_iff.1 hfirst
    · intro e he
      rw [Option.mem_unique he hd]
      exact isVisible_iff.1 hlast

variable {cs : List Char} {text : String}

theorem refusal_cases (cs : List Char) :
    (cs = [] ∧ refusal cs = some .emptyUsername) ∨
      (64 < cs.length ∧ refusal cs = some .usernameTooLong) ∨
      (IsName cs ∧ refusal cs = none) ∨
      (cs ≠ [] ∧ cs.length ≤ 64 ∧ ¬ IsName cs ∧ refusal cs = some .invalidUsername) := by
  by_cases hnil : cs = []
  · subst hnil
    exact .inl ⟨rfl, rfl⟩
  have hempty : ¬ cs.isEmpty = true := mt List.isEmpty_iff.1 hnil
  by_cases hlong : maxLength < cs.length
  · exact .inr (.inl ⟨hlong, by rw [refusal, if_neg hempty, if_pos hlong]⟩)
  have hshort := Nat.not_lt.1 hlong
  have hrefusal : refusal cs = if isShapely cs then none else some .invalidUsername := by
    rw [refusal, if_neg hempty, if_neg hlong]
  by_cases hshape : isShapely cs = true
  · have hname := isName_iff_isShapely.2 ⟨hshort, hshape⟩
    exact .inr (.inr (.inl ⟨hname, by rw [hrefusal, if_pos hshape]⟩))
  · have hname : ¬ IsName cs := fun h => hshape (isName_iff_isShapely.1 h).2
    exact .inr (.inr (.inr ⟨hnil, hshort, hname, by rw [hrefusal, if_neg hshape]⟩))

theorem refusal_eq_none_iff : refusal cs = none ↔ IsName cs := by
  rcases refusal_cases cs with ⟨rfl, h⟩ | ⟨hlong, h⟩ | ⟨hname, h⟩ | ⟨-, -, hname, h⟩
  · simpa [h] using fun hname : IsName [] => absurd hname.nonempty (by decide)
  · simpa [h] using fun hname : IsName cs => absurd hname.short (by omega)
  · simp [h, hname]
  · simp [h, hname]

theorem refusal_eq_empty_iff : refusal cs = some .emptyUsername ↔ cs = [] := by
  rcases refusal_cases cs with ⟨rfl, h⟩ | ⟨hlong, h⟩ | ⟨hname, h⟩ | ⟨hnil, -, -, h⟩
  · simp [h]
  · simpa [h] using List.ne_nil_of_length_pos (by omega : 0 < cs.length)
  · simpa [h] using List.ne_nil_of_length_pos hname.nonempty
  · simp [h, hnil]

theorem refusal_eq_long_iff : refusal cs = some .usernameTooLong ↔ 64 < cs.length := by
  rcases refusal_cases cs with ⟨rfl, h⟩ | ⟨hlong, h⟩ | ⟨hname, h⟩ | ⟨-, hshort, -, h⟩
  · simp [h]
  · simp [h, hlong]
  · simp [h, hname.short]
  · simp [h, hshort]

theorem refusal_eq_invalid_iff :
    refusal cs = some .invalidUsername ↔ cs ≠ [] ∧ cs.length ≤ 64 ∧ ¬ IsName cs := by
  rcases refusal_cases cs with ⟨rfl, h⟩ | ⟨hlong, h⟩ | ⟨hname, h⟩ | ⟨hnil, hshort, hname, h⟩
  · simp [h]
  · simp [h, Nat.not_le.2 hlong]
  · simp [h, hname]
  · simp [h, hnil, hshort, hname]

theorem ofText_eq_error_iff {error : UserError} :
    ofText text = .error error ↔ refusal text.toList = some error := by
  unfold ofText
  split
  · next h => simp [h]
  · next h => simp [h]

theorem ofText_eq_ok_iff {name : Username} : ofText text = .ok name ↔ name.text = text := by
  constructor
  · exact text_of_ofText
  · rintro rfl
    exact ofText_text name

theorem exists_ofText_iff : (∃ name, ofText text = .ok name) ↔ IsName text.toList := by
  rw [← refusal_eq_none_iff]
  constructor
  · rintro ⟨name, h⟩
    rw [← text_of_ofText h]
    exact name.accepted
  · intro h
    exact ⟨⟨text, h⟩, ofText_eq_ok_iff.2 rfl⟩

theorem ofText?_eq_some_iff {name : Username} :
    ofText? text = some name ↔ ofText text = .ok name := by
  rw [ofText?]
  cases ofText text <;> simp [Except.toOption]

theorem read?_eq_some_iff {bytes : List UInt8} {name : Username} :
    read? bytes = some name ↔
      ∃ text, Json.parse? bytes = some (.ofText text) ∧ ofText text = .ok name := by
  simp only [read?, ofJson?, Option.bind_eq_some_iff, Json.text?_eq_some_iff, ofText?_eq_some_iff]
  constructor
  · rintro ⟨json, hparse, text, rfl, hname⟩
    exact ⟨text, hparse, hname⟩
  · rintro ⟨text, hparse, hname⟩
    exact ⟨.ofText text, hparse, text, rfl, hname⟩

theorem read?_spelling {bytes : List UInt8} (h : Json.Spelling (.ofText text) bytes) :
    read? bytes = ofText? text := by
  have hparse := Json.parse?_spelling Json.blanks_nil h Json.blanks_nil
  rw [List.nil_append, List.append_nil] at hparse
  rw [read?, hparse]
  rfl

theorem read?_ofText (text : String) :
    read? (Text.utf8 (Json.ofText text).toCompactText.toList) = ofText? text := by
  have hcompact := Json.spelling_compact (.text text)
  rw [Json.toCompactText, String.toList_ofList]
  exact read?_spelling hcompact

theorem read?_toJson (name : Username) :
    read? (Text.utf8 name.toJson.toCompactText.toList) = some name := by
  rw [toJson, read?_ofText, ofText?_eq_some_iff]
  exact ofText_text name

/-- The texts that are usernames and why each of the others is none. The shape is what the pattern
finds, and a reader of JSON tests the text of a string. -/
theorem ofText_accepts_language (text : String) :
    ((∃ name, ofText text = .ok name) ↔ IsName text.toList) ∧
      (∀ name, ofText text = .ok name ↔ name.text = text) ∧
      (ofText text = .error .emptyUsername ↔ text = "") ∧
      (ofText text = .error .usernameTooLong ↔ 64 < text.length) ∧
      (ofText text = .error .invalidUsername ↔
        text ≠ "" ∧ text.length ≤ 64 ∧ ¬ IsName text.toList) ∧
      pattern.source = "^[^\\s\\p\x7bCc\x7d](?:[^\\p\x7bCc\x7d]*[^\\s\\p\x7bCc\x7d])?$" ∧
      (IsName text.toList ↔ text.length ≤ 64 ∧ pattern.FoundIn text.toList) ∧
      (∀ bytes name, read? bytes = some name ↔
        ∃ decoded, Json.parse? bytes = some (.ofText decoded) ∧ ofText decoded = .ok name) ∧
      read? (Text.utf8 (Json.ofText text).toCompactText.toList) = ofText? text := by
  have hnil : text.toList = [] ↔ text = "" := by simp
  refine ⟨exists_ofText_iff, fun name => ofText_eq_ok_iff, ?_, ?_, ?_, by decide, ?_,
    fun bytes name => read?_eq_some_iff, read?_ofText text⟩
  · rw [ofText_eq_error_iff, refusal_eq_empty_iff, hnil]
  · rw [ofText_eq_error_iff, refusal_eq_long_iff, String.length_toList]
  · rw [ofText_eq_error_iff, refusal_eq_invalid_iff, ne_eq, hnil, String.length_toList]
  · rw [isName_iff_isShapely, foundIn_pattern, maxLength, String.length_toList]

end Gatehouse.Username
