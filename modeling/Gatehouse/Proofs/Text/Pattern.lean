import Gatehouse.Text.Category

set_option autoImplicit false

/-!
# Patterns

The part of the notation for regular expressions that negates classes of characters, and what such
a pattern matches. A match is a stretch of a text together with what stands before and after it, so
that the two anchors can look beyond the stretch: `^` matches where nothing stands before and `$`
where nothing stands after, be it a line end.
-/

namespace Gatehouse.Text

inductive CharClass where
  | blank
  | control
  deriving DecidableEq, Repr

namespace CharClass

def source : CharClass → String
  | .blank => "\\s"
  | .control => "\\p\x7bCc\x7d"

def holds : CharClass → Char → Bool
  | .blank => isBlank
  | .control => isControl

end CharClass

inductive Pattern where
  | start
  | finish
  | noneOf (classes : List CharClass)
  | andThen (first second : Pattern)
  | optional (inner : Pattern)
  | many (inner : Pattern)
  deriving Repr

namespace Pattern

/-- A sign of repetition binds to the last atom, so whatever is longer stands in a group. -/
def group : Pattern → String → String
  | .noneOf _, source => source
  | _, source => "(?:" ++ source ++ ")"

def source : Pattern → String
  | .start => "^"
  | .finish => "$"
  | .noneOf classes => "[^" ++ String.join (classes.map CharClass.source) ++ "]"
  | .andThen first second => first.source ++ second.source
  | .optional inner => inner.group inner.source ++ "?"
  | .many inner => inner.group inner.source ++ "*"

def Outside (classes : List CharClass) (c : Char) : Prop :=
  ∀ charClass ∈ classes, charClass.holds c = false

/-- `pattern.Matches before found after`: in the text `before ++ found ++ after` the pattern matches
the stretch `found`. -/
inductive Matches : Pattern → List Char → List Char → List Char → Prop
  | start {after : List Char} : Matches .start [] [] after
  | finish {before : List Char} : Matches .finish before [] []
  | noneOf {classes : List CharClass} {c : Char} {before after : List Char}
      (outside : Outside classes c) : Matches (.noneOf classes) before [c] after
  | andThen {first second : Pattern} {before xs ys after : List Char}
      (left : Matches first before xs (ys ++ after))
      (right : Matches second (before ++ xs) ys after) :
      Matches (.andThen first second) before (xs ++ ys) after
  | absent {inner : Pattern} {before after : List Char} : Matches (.optional inner) before [] after
  | present {inner : Pattern} {before found after : List Char}
      (matched : Matches inner before found after) : Matches (.optional inner) before found after
  | never {inner : Pattern} {before after : List Char} : Matches (.many inner) before [] after
  | again {inner : Pattern} {before xs ys after : List Char}
      (once : Matches inner before xs (ys ++ after))
      (rest : Matches (.many inner) (before ++ xs) ys after) :
      Matches (.many inner) before (xs ++ ys) after

/-- A search succeeds when the pattern matches anywhere in the text. -/
def FoundIn (pattern : Pattern) (text : List Char) : Prop :=
  ∃ before found after, text = before ++ found ++ after ∧ pattern.Matches before found after

section

variable {first second inner : Pattern} {classes : List CharClass}
  {before found after text : List Char}

theorem matches_start : Matches .start before found after ↔ before = [] ∧ found = [] := by
  constructor
  · rintro ⟨⟩
    exact ⟨rfl, rfl⟩
  · rintro ⟨rfl, rfl⟩
    exact .start

theorem matches_finish : Matches .finish before found after ↔ found = [] ∧ after = [] := by
  constructor
  · rintro ⟨⟩
    exact ⟨rfl, rfl⟩
  · rintro ⟨rfl, rfl⟩
    exact .finish

theorem matches_noneOf :
    Matches (.noneOf classes) before found after ↔ ∃ c, found = [c] ∧ Outside classes c := by
  constructor
  · rintro ⟨⟩
    next c outside => exact ⟨c, rfl, outside⟩
  · rintro ⟨c, rfl, outside⟩
    exact .noneOf outside

theorem matches_andThen :
    Matches (.andThen first second) before found after ↔
      ∃ xs ys, found = xs ++ ys ∧ first.Matches before xs (ys ++ after) ∧
        second.Matches (before ++ xs) ys after := by
  constructor
  · rintro ⟨⟩
    next xs ys left right => exact ⟨xs, ys, rfl, left, right⟩
  · rintro ⟨xs, ys, rfl, left, right⟩
    exact .andThen left right

theorem matches_optional :
    Matches (.optional inner) before found after ↔
      found = [] ∨ inner.Matches before found after := by
  constructor
  · rintro ⟨⟩
    · exact .inl rfl
    · next matched => exact .inr matched
  · rintro (rfl | matched)
    · exact .absent
    · exact .present matched

theorem outside_of_matches_many {pattern : Pattern} (h : pattern.Matches before found after)
    (hpattern : pattern = .many (.noneOf classes)) : ∀ c ∈ found, Outside classes c := by
  induction h with
  | never => simp
  | again once _ _ ih =>
    cases hpattern
    obtain ⟨c, rfl, outside⟩ := matches_noneOf.1 once
    intro d hd
    rcases List.mem_cons.1 hd with rfl | hd
    · exact outside
    · exact ih rfl d hd
  | _ => cases hpattern

theorem matches_many_noneOf :
    Matches (.many (.noneOf classes)) before found after ↔ ∀ c ∈ found, Outside classes c := by
  constructor
  · intro h
    exact outside_of_matches_many h rfl
  · intro h
    induction found generalizing before with
    | nil => exact .never
    | cons c found ih =>
      have hrest := @ih (before ++ [c]) fun d hd => h d (List.mem_cons_of_mem c hd)
      exact @Matches.again _ _ [c] _ _ (.noneOf (h c List.mem_cons_self)) hrest

theorem foundIn_anchored :
    (Pattern.andThen .start (.andThen inner .finish)).FoundIn text ↔ inner.Matches [] text [] := by
  constructor
  · rintro ⟨before, found, after, rfl, matched⟩
    obtain ⟨xs, ys, rfl, hstart, hrest⟩ := matches_andThen.1 matched
    obtain ⟨rfl, rfl⟩ := matches_start.1 hstart
    obtain ⟨zs, rest, rfl, hinner, hfinish⟩ := matches_andThen.1 hrest
    obtain ⟨rfl, rfl⟩ := matches_finish.1 hfinish
    simpa using hinner
  · intro h
    refine ⟨[], text, [], by simp, matches_andThen.2 ⟨[], text, rfl, .start, ?_⟩⟩
    exact matches_andThen.2 ⟨text, [], by simp, by simpa using h, .finish⟩

end

end Pattern

end Gatehouse.Text
