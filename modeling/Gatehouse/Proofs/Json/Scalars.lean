import Gatehouse.Proofs.Json.StringLiteral
import Mathlib.Data.List.TakeDrop

set_option autoImplicit false

/-!
# Numbers and strings in JSON texts

A grammar of the two kinds of values that do not nest. What the readers accept is what the grammar
has, and they leave what follows it.
-/

namespace Gatehouse.Json

/-- The bytes that some units of a string are written with, up to the closing quote. -/
inductive UnitsText : List StringUnit → List UInt8 → Prop
  | close : UnitsText [] [0x22]
  | plain {b : UInt8} {units : List StringUnit} {bytes : List UInt8}
      (visible : ¬ b < 0x20) (notQuote : b ≠ 0x22) (notSlash : b ≠ 0x5C)
      (others : UnitsText units bytes) : UnitsText (.byte b :: units) (b :: bytes)
  | escaped {escape b : UInt8} {units : List StringUnit} {bytes : List UInt8}
      (escapes : shortEscape? escape = some b) (others : UnitsText units bytes) :
      UnitsText (.byte b :: units) (0x5C :: escape :: bytes)
  | codeUnit {p q r s : UInt8} {unit : Nat} {units : List StringUnit} {bytes : List UInt8}
      (escapes : codeUnit? p q r s = some unit) (others : UnitsText units bytes) :
      UnitsText (.codeUnit unit :: units) (0x5C :: 0x75 :: p :: q :: r :: s :: bytes)

/-- The bytes of a string once its opening quote has been read. -/
def ClosesString (text : Option String) (bytes : List UInt8) : Prop :=
  ∃ units, UnitsText units bytes ∧ unitsText? units = text

theorem scanString_short {escape b : UInt8} (h : shortEscape? escape = some b)
    (seen : List StringUnit) (rest : List UInt8) :
    scanString seen (0x5C :: escape :: rest) = scanString (.byte b :: seen) rest := by
  have hescape : escape ≠ 0x75 := by
    rintro rfl
    cases h
  rw [scanString, h, Option.bind_some]
  intro p q r s after heq
  exact absurd heq hescape

theorem scanString_text {units : List StringUnit} {bytes : List UInt8} (h : UnitsText units bytes)
    (seen : List StringUnit) (rest : List UInt8) :
    scanString seen (bytes ++ rest) = some (seen.reverse ++ units, rest) := by
  induction h generalizing seen with
  | close => simp [scanString]
  | plain visible notQuote notSlash others ih =>
    rw [List.cons_append, scanString_plain visible notQuote notSlash, ih]
    simp
  | escaped escapes others ih =>
    rw [List.cons_append, List.cons_append, scanString_short escapes, ih]
    simp
  | codeUnit escapes others ih =>
    simp only [List.cons_append]
    rw [scanString, escapes, Option.bind_some, ih]
    simp

theorem text_of_scanString {seen units : List StringUnit} {bytes rest : List UInt8}
    (h : scanString seen bytes = some (units, rest)) :
    ∃ more text, units = seen.reverse ++ more ∧ UnitsText more text ∧ bytes = text ++ rest := by
  fun_induction scanString seen bytes with
  | case1 seen => cases h
  | case2 seen after =>
    cases h
    exact ⟨[], [0x22], by simp, .close, rfl⟩
  | case3 seen p q r s after ih =>
    obtain ⟨unit, hunit, hrest⟩ := Option.bind_eq_some_iff.1 h
    obtain ⟨more, text, rfl, htext, rfl⟩ := ih unit hrest
    exact ⟨_, _, by simp, .codeUnit hunit htext, rfl⟩
  | case4 seen escape after hother ih =>
    obtain ⟨b, hb, hrest⟩ := Option.bind_eq_some_iff.1 h
    obtain ⟨more, text, rfl, htext, rfl⟩ := ih b hrest
    exact ⟨_, _, by simp, .escaped hb htext, rfl⟩
  | case5 seen b after hquote hunit hescape hlow => cases h
  | case6 seen b after hquote hunit hescape hlow ih =>
    obtain ⟨more, text, rfl, htext, rfl⟩ := ih h
    have hslash : b ≠ 0x5C := by
      rintro rfl
      cases htext with
      | close => exact hescape _ _ rfl rfl
      | plain | escaped | codeUnit => exact hescape _ _ rfl rfl
    exact ⟨_, _, by simp, .plain hlow hquote hslash htext, rfl⟩

theorem parseString_eq_some_iff {text : Option String} {bytes rest : List UInt8} :
    parseString bytes = some (text, rest) ↔
      ∃ front, ClosesString text front ∧ bytes = front ++ rest := by
  rw [parseString, Option.map_eq_some_iff]
  constructor
  · rintro ⟨⟨units, after⟩, hscan, hread⟩
    cases hread
    obtain ⟨more, front, hmore, htext, rfl⟩ := text_of_scanString hscan
    rw [hmore]
    exact ⟨front, ⟨more, htext, rfl⟩, rfl⟩
  · rintro ⟨front, ⟨units, htext, rfl⟩, rfl⟩
    exact ⟨(units, rest), by simpa using scanString_text htext [] rest, rfl⟩

/-- Digits with no zero in front, unless there is but one. -/
structure IsWhole (digits : List UInt8) : Prop where
  nonempty : digits ≠ []
  all : ∀ b ∈ digits, isDigitByte b = true
  lead : digits.head? = some 0x30 → digits.length = 1

def IsDigits (digits : List UInt8) : Prop :=
  digits ≠ [] ∧ ∀ b ∈ digits, isDigitByte b = true

inductive FractionText : List UInt8 → Prop
  | absent : FractionText []
  | digits {digits : List UInt8} (all : IsDigits digits) : FractionText (0x2E :: digits)

inductive ExponentText : List UInt8 → Prop
  | absent : ExponentText []
  | digits {mark : UInt8} {sign digits : List UInt8} (marks : mark = 0x65 ∨ mark = 0x45)
      (signed : sign = [] ∨ sign = [0x2B] ∨ sign = [0x2D]) (all : IsDigits digits) :
      ExponentText (mark :: (sign ++ digits))

/-- The bytes that a number is written with. Only digits alone denote a natural number. -/
inductive NumberText : Json → List UInt8 → Prop
  | natural {digits : List UInt8} (whole : IsWhole digits) :
      NumberText (.natural (digitsValue digits)) digits
  | negative {digits fraction exponent : List UInt8} (whole : IsWhole digits)
      (fractional : FractionText fraction) (exponential : ExponentText exponent) :
      NumberText .otherNumber (0x2D :: (digits ++ (fraction ++ exponent)))
  | fractional {digits fraction exponent : List UInt8} (whole : IsWhole digits)
      (fractional : FractionText fraction) (exponential : ExponentText exponent)
      (more : fraction ++ exponent ≠ []) :
      NumberText .otherNumber (digits ++ (fraction ++ exponent))

/-- Bytes at whose beginning no number can go on. -/
def EndsNumber (rest : List UInt8) : Prop :=
  ∀ b ∈ rest.head?, isDigitByte b = false ∧ b ≠ 0x2E ∧ b ≠ 0x65 ∧ b ≠ 0x45

def EndsDigits (rest : List UInt8) : Prop :=
  ∀ b ∈ rest.head?, isDigitByte b = false

theorem EndsNumber.endsDigits {rest : List UInt8} (h : EndsNumber rest) : EndsDigits rest :=
  fun b hb => (h b hb).1

theorem endsDigits_cons {b : UInt8} (h : isDigitByte b = false) (rest : List UInt8) :
    EndsDigits (b :: rest) := by
  intro d hd
  cases hd
  exact h

theorem spanDigits_append {digits : List UInt8} (h : ∀ b ∈ digits, isDigitByte b = true)
    {rest : List UInt8} (hrest : EndsDigits rest) :
    spanDigits (digits ++ rest) = (digits, rest) := by
  have hstop : rest.takeWhile isDigitByte = [] ∧ rest.dropWhile isDigitByte = rest := by
    cases rest with
    | nil => exact ⟨rfl, rfl⟩
    | cons b rest => simp [hrest b rfl]
  rw [spanDigits, List.span_eq_takeWhile_dropWhile, List.takeWhile_append_of_pos h,
    List.dropWhile_append_of_pos h, hstop.1, hstop.2, List.append_nil]

theorem spanDigits_eq {bytes digits rest : List UInt8} (h : spanDigits bytes = (digits, rest)) :
    bytes = digits ++ rest ∧ ∀ b ∈ digits, isDigitByte b = true := by
  rw [spanDigits, List.span_eq_takeWhile_dropWhile] at h
  cases h
  exact ⟨List.takeWhile_append_dropWhile.symm, List.all_eq_true.1 List.all_takeWhile⟩

theorem skipDigits?_append {digits rest : List UInt8} (h : IsDigits digits)
    (hrest : EndsDigits rest) : skipDigits? (digits ++ rest) = some rest := by
  rw [skipDigits?, spanDigits_append h.2 hrest]
  split
  · next heq =>
    cases heq
    exact absurd rfl h.1
  · next heq =>
    cases heq
    rfl

theorem digits_of_skipDigits? {bytes rest : List UInt8} (h : skipDigits? bytes = some rest) :
    ∃ digits, IsDigits digits ∧ bytes = digits ++ rest := by
  rw [skipDigits?] at h
  split at h
  · cases h
  · next digits after hne heq =>
    cases h
    obtain ⟨rfl, hall⟩ := spanDigits_eq heq
    exact ⟨digits, ⟨hne, hall⟩, rfl⟩

theorem skipFraction?_text {fraction rest : List UInt8} (h : FractionText fraction)
    (hrest : EndsDigits rest) (hpoint : rest.head? ≠ some 0x2E) :
    skipFraction? (fraction ++ rest) = some rest := by
  cases h with
  | absent =>
    rw [List.nil_append, skipFraction?.eq_def]
    split
    · exact absurd rfl hpoint
    · rfl
  | digits all => exact skipDigits?_append all hrest

theorem fraction_of_skipFraction? {bytes rest : List UInt8}
    (h : skipFraction? bytes = some rest) :
    ∃ fraction, FractionText fraction ∧ bytes = fraction ++ rest := by
  rw [skipFraction?.eq_def] at h
  split at h
  · obtain ⟨digits, hall, rfl⟩ := digits_of_skipDigits? h
    exact ⟨_, .digits hall, rfl⟩
  · cases h
    exact ⟨[], .absent, rfl⟩

theorem skipExponent?_text {exponent rest : List UInt8} (h : ExponentText exponent)
    (hrest : EndsNumber rest) : skipExponent? (exponent ++ rest) = some rest := by
  cases h with
  | absent =>
    cases rest with
    | nil => rfl
    | cons b rest =>
      obtain ⟨-, -, hsmall, hlarge⟩ := hrest b rfl
      rw [List.nil_append, skipExponent?.eq_def]
      simp [hsmall, hlarge]
  | @digits mark sign digits marks signed all =>
    have hskip := skipDigits?_append all hrest.endsDigits
    rw [List.cons_append, List.append_assoc, skipExponent?.eq_def]
    dsimp only
    rw [if_pos marks]
    rcases signed with rfl | rfl | rfl
    · cases digits with
      | nil => exact absurd rfl all.1
      | cons d digits =>
        have hd := all.2 d List.mem_cons_self
        have hplus : d ≠ 0x2B := by
          rintro rfl
          cases hd
        have hminus : d ≠ 0x2D := by
          rintro rfl
          cases hd
        simp only [List.nil_append, List.cons_append] at hskip ⊢
        split
        · next heq => simp_all
        · next heq => simp_all
        · exact hskip
    · exact hskip
    · exact hskip

theorem exponent_of_skipExponent? {bytes rest : List UInt8}
    (h : skipExponent? bytes = some rest) :
    ∃ exponent, ExponentText exponent ∧ bytes = exponent ++ rest := by
  rw [skipExponent?.eq_def] at h
  split at h
  · next mark after =>
    split at h
    · next marks =>
      split at h
      all_goals obtain ⟨digits, hall, rfl⟩ := digits_of_skipDigits? h
      · exact ⟨_, .digits marks (.inr (.inl rfl)) hall, rfl⟩
      · exact ⟨_, .digits marks (.inr (.inr rfl)) hall, rfl⟩
      · exact ⟨_, .digits marks (.inl rfl) hall, rfl⟩
    · cases h
      exact ⟨[], .absent, rfl⟩
  · cases h
    exact ⟨[], .absent, rfl⟩

theorem FractionText.endsDigits {fraction : List UInt8} (h : FractionText fraction)
    {rest : List UInt8} (hrest : EndsDigits rest) : EndsDigits (fraction ++ rest) := by
  cases h with
  | absent => exact hrest
  | digits all => exact endsDigits_cons rfl _

theorem ExponentText.endsDigits {exponent : List UInt8} (h : ExponentText exponent)
    {rest : List UInt8} (hrest : EndsNumber rest) :
    EndsDigits (exponent ++ rest) ∧ (exponent ++ rest).head? ≠ some 0x2E := by
  cases h with
  | absent =>
    refine ⟨hrest.endsDigits, fun hhead => ?_⟩
    exact (hrest _ hhead).2.1 rfl
  | digits marks signed all =>
    rcases marks with rfl | rfl
    · exact ⟨endsDigits_cons rfl _, by simp⟩
    · exact ⟨endsDigits_cons rfl _, by simp⟩

theorem parseUnsigned_text {digits fraction exponent rest : List UInt8} (whole : IsWhole digits)
    (fractional : FractionText fraction) (exponential : ExponentText exponent)
    (hrest : EndsNumber rest) :
    parseUnsigned (digits ++ (fraction ++ (exponent ++ rest))) =
      if fraction ++ exponent = [] then some (.natural (digitsValue digits), rest)
      else some (.otherNumber, rest) := by
  obtain ⟨hexponent, hpoint⟩ := exponential.endsDigits hrest
  have hspan := spanDigits_append whole.all (fractional.endsDigits hexponent)
  have hskip : (skipFraction? (fraction ++ (exponent ++ rest))).bind skipExponent? =
      some rest := by
    rw [skipFraction?_text fractional hexponent hpoint, Option.bind_some,
      skipExponent?_text exponential hrest]
  have hlead : ¬ (digits.head? = some 0x30 ∧ 1 < digits.length) := by
    rintro ⟨hhead, hlength⟩
    rw [whole.lead hhead] at hlength
    exact absurd hlength (by decide)
  rw [parseUnsigned, hspan]
  split
  · next heq =>
    cases heq
    exact absurd rfl whole.nonempty
  · next heq =>
    cases heq
    rw [if_neg hlead, hskip, Option.map_some]
    by_cases hempty : fraction ++ exponent = []
    · obtain ⟨rfl, rfl⟩ := List.append_eq_nil_iff.1 hempty
      simp
    · have hlength : rest.length ≠ (fraction ++ (exponent ++ rest)).length := by
        have hpos := List.length_pos_iff.2 hempty
        simp only [List.length_append] at hpos ⊢
        omega
      rw [if_neg hempty, if_neg hlength]

theorem text_of_parseUnsigned {bytes rest : List UInt8} {value : Json}
    (h : parseUnsigned bytes = some (value, rest)) :
    ∃ digits fraction exponent, IsWhole digits ∧ FractionText fraction ∧ ExponentText exponent ∧
      bytes = digits ++ (fraction ++ (exponent ++ rest)) ∧
      value =
        if fraction ++ exponent = [] then .natural (digitsValue digits) else .otherNumber := by
  rw [parseUnsigned] at h
  split at h
  · cases h
  · next digits afterDigits hne heq =>
    obtain ⟨rfl, hall⟩ := spanDigits_eq heq
    split at h
    · cases h
    · next hlead =>
      have whole : IsWhole digits := by
        refine ⟨hne, hall, fun hhead => ?_⟩
        have hpos := List.length_pos_iff.2 hne
        have hshort : ¬ 1 < digits.length := fun hlong => hlead ⟨hhead, hlong⟩
        omega
      obtain ⟨last, hskip, hvalue⟩ := Option.map_eq_some_iff.1 h
      obtain ⟨afterFraction, hfraction, hexponent⟩ := Option.bind_eq_some_iff.1 hskip
      obtain ⟨fraction, fractional, rfl⟩ := fraction_of_skipFraction? hfraction
      obtain ⟨exponent, exponential, rfl⟩ := exponent_of_skipExponent? hexponent
      refine ⟨digits, fraction, exponent, whole, fractional, exponential, ?_⟩
      split at hvalue
      · next hlength =>
        have hempty : fraction ++ exponent = [] := by
          simp only [List.length_append] at hlength
          exact List.length_eq_zero_iff.1 (by rw [List.length_append]; omega)
        obtain ⟨rfl, rfl⟩ := List.append_eq_nil_iff.1 hempty
        cases hvalue
        exact ⟨rfl, (if_pos rfl).symm⟩
      · next hlength =>
        cases hvalue
        refine ⟨rfl, (if_neg fun hempty => hlength ?_).symm⟩
        obtain ⟨rfl, rfl⟩ := List.append_eq_nil_iff.1 hempty
        rfl

theorem IsWhole.begins {digits : List UInt8} (whole : IsWhole digits) :
    ∃ first others, digits = first :: others ∧ isDigitByte first = true := by
  cases digits with
  | nil => exact absurd rfl whole.nonempty
  | cons first others => exact ⟨first, others, rfl, whole.all first List.mem_cons_self⟩

theorem NumberText.begins {value : Json} {bytes : List UInt8} (h : NumberText value bytes) :
    ∃ first others, bytes = first :: others ∧ (isDigitByte first = true ∨ first = 0x2D) := by
  cases h with
  | natural whole =>
    obtain ⟨first, others, rfl, hfirst⟩ := whole.begins
    exact ⟨first, others, rfl, .inl hfirst⟩
  | negative whole => exact ⟨_, _, rfl, .inr rfl⟩
  | fractional whole =>
    obtain ⟨first, others, rfl, hfirst⟩ := whole.begins
    exact ⟨first, _, rfl, .inl hfirst⟩

theorem parseNumber_of_whole {digits : List UInt8} (whole : IsWhole digits)
    (rest : List UInt8) : parseNumber (digits ++ rest) = parseUnsigned (digits ++ rest) := by
  obtain ⟨first, others, rfl, hfirst⟩ := whole.begins
  rw [parseNumber.eq_def]
  split
  · next heq =>
    cases heq
    cases hfirst
  · rfl

theorem parseNumber_text {value : Json} {bytes rest : List UInt8} (h : NumberText value bytes)
    (hrest : EndsNumber rest) : parseNumber (bytes ++ rest) = some (value, rest) := by
  cases h with
  | natural whole =>
    rw [parseNumber_of_whole whole]
    simpa using parseUnsigned_text whole .absent .absent hrest
  | negative whole fractional exponential =>
    have hunsigned := parseUnsigned_text whole fractional exponential hrest
    simp only [List.cons_append, List.append_assoc, parseNumber, hunsigned]
    split <;> rfl
  | fractional whole fractional exponential more =>
    have hunsigned := parseUnsigned_text whole fractional exponential hrest
    rw [if_neg more] at hunsigned
    simp only [List.append_assoc]
    rw [parseNumber_of_whole whole, hunsigned]

theorem text_of_parseNumber {value : Json} {bytes rest : List UInt8}
    (h : parseNumber bytes = some (value, rest)) :
    ∃ front, NumberText value front ∧ bytes = front ++ rest := by
  rw [parseNumber.eq_def] at h
  split at h
  · obtain ⟨⟨unsigned, after⟩, hparse, hvalue⟩ := Option.map_eq_some_iff.1 h
    cases hvalue
    obtain ⟨digits, fraction, exponent, whole, fractional, exponential, rfl, -⟩ :=
      text_of_parseUnsigned hparse
    exact ⟨_, .negative whole fractional exponential, by simp⟩
  · obtain ⟨digits, fraction, exponent, whole, fractional, exponential, rfl, rfl⟩ :=
      text_of_parseUnsigned h
    by_cases hempty : fraction ++ exponent = []
    · obtain ⟨rfl, rfl⟩ := List.append_eq_nil_iff.1 hempty
      exact ⟨digits, .natural whole, rfl⟩
    · rw [if_neg hempty]
      exact ⟨_, .fractional whole fractional exponential hempty, by simp⟩

end Gatehouse.Json
