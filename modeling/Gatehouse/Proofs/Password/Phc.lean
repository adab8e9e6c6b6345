import Gatehouse.Password.Phc
import Gatehouse.Proofs.Text.Base64
import Gatehouse.Proofs.Text.Numeral
import Gatehouse.Proofs.Text.Split

set_option autoImplicit false

/-!
# The one text of a stored hash

Which stored hashes there are, and that each of them is read from exactly one text, which is the one
that is printed. A hash without a version cannot have a single parameter `v`, because this is where
a version stands.
-/

namespace Gatehouse.PhcString

theorem notMem_of_all {p : Char → Bool} {cs : List Char} {c : Char} (h : cs.all p = true)
    (hc : p c = false) : c ∉ cs := by
  intro hmem
  rw [List.all_eq_true.1 h c hmem] at hc
  cases hc

theorem notMem_toDigits {n : Nat} {c : Char} (hc : c.isDigit = false) : c ∉ Nat.toDigits 10 n := by
  intro hmem
  rw [Nat.isDigit_of_mem_toDigits (by decide) (by decide) hmem] at hc
  cases hc

theorem isDigit_eq : isDigit = Char.isDigit := rfl

theorem decimal?_eq_some_iff_natural? {cs : List Char} {n : Nat} :
    decimal? cs = some n ↔ Text.natural? cs = some n ∧
      ¬ (cs.head? = some '0' ∧ 1 < cs.length) ∧ n < UInt32.size := by
  rw [decimal?, Text.natural?, isDigit_eq]
  dsimp only
  constructor
  · intro h
    split at h
    · cases h
    · next hdigits =>
      split at h
      · cases h
      · next hzero =>
        obtain ⟨hlt, hvalue⟩ := Option.ite_none_right_eq_some.1 h
        cases hvalue
        exact ⟨if_neg hdigits, hzero, hlt⟩
  · rintro ⟨hvalue, hzero, hlt⟩
    obtain ⟨hdigits, hvalue⟩ := Option.ite_none_left_eq_some.1 hvalue
    cases hvalue
    rw [if_neg hdigits, if_neg hzero, if_pos hlt]

theorem decimal?_eq_some_iff {cs : List Char} {n : Nat} :
    decimal? cs = some n ↔ cs = Nat.toDigits 10 n ∧ n < UInt32.size := by
  rw [decimal?_eq_some_iff_natural?, Text.natural?_eq_some_iff]
  constructor
  · rintro ⟨⟨zeros, rfl⟩, hzero, hlt⟩
    cases zeros with
    | zero => exact ⟨rfl, hlt⟩
    | succ zeros =>
      have hpos := List.length_pos_iff.2 (Nat.toDigits_ne_nil (b := 10) (n := n))
      refine absurd ⟨rfl, ?_⟩ hzero
      rw [List.length_append, List.length_replicate]
      omega
  · rintro ⟨rfl, hlt⟩
    refine ⟨⟨0, rfl⟩, ?_, hlt⟩
    rintro ⟨hhead, hlength⟩
    rw [Text.toDigits_head hhead] at hlength
    exact absurd hlength (by decide)

def IsParam (param : List Char × List Char) : Prop :=
  isName param.1 = true ∧ isValue param.2 = true

instance : DecidablePred IsParam :=
  fun param => inferInstanceAs (Decidable (isName param.1 = true ∧ isValue param.2 = true))

section Param

variable {param : List Char × List Char} {params : List (List Char × List Char)} {c : Char}

theorem IsParam.notMem_name (h : IsParam param) (hc : isNameChar c = false) : c ∉ param.1 := by
  have hname := h.1
  rw [isName, Bool.and_eq_true] at hname
  exact notMem_of_all hname.2 hc

theorem IsParam.notMem_value (h : IsParam param) (hc : isValueChar c = false) : c ∉ param.2 := by
  have hvalue := h.2
  rw [isValue, Bool.and_eq_true] at hvalue
  exact notMem_of_all hvalue.2 hc

theorem IsParam.notMem_print (h : IsParam param) (hname : isNameChar c = false)
    (hvalue : isValueChar c = false) (hc : c ≠ '=') : c ∉ printParam param := by
  rw [printParam, List.mem_append, List.mem_cons]
  rintro (hmem | rfl | hmem)
  · exact h.notMem_name hname hmem
  · exact hc rfl
  · exact h.notMem_value hvalue hmem

theorem param?_eq_some_iff (cs : List Char) (param : List Char × List Char) :
    param? cs = some param ↔ cs = printParam param ∧ IsParam param := by
  obtain ⟨name, value⟩ := param
  rw [param?]
  constructor
  · intro h
    split at h
    · next hsplit =>
      obtain ⟨hparam, hsame⟩ := Option.ite_none_right_eq_some.1 h
      cases hsame
      obtain ⟨rfl, -⟩ := Text.splitOn_eq_cons_iff.1 hsplit
      rw [List.flatMap_singleton, printParam]
      exact ⟨rfl, Bool.and_eq_true_iff.1 hparam⟩
    · cases h
  · rintro ⟨rfl, hparam⟩
    have hsplit : Text.splitOn '=' (printParam (name, value)) = [name, value] := by
      refine Text.splitOn_eq_cons_iff.2 ⟨?_, hparam.notMem_name (by decide), ?_⟩
      · rw [List.flatMap_singleton, printParam]
      · exact List.forall_mem_singleton.2 (hparam.notMem_value (by decide))
    rw [hsplit]
    dsimp only
    rw [if_pos (Bool.and_eq_true_iff.2 hparam)]

theorem printParams_cons (param : List Char × List Char) (params : List (List Char × List Char)) :
    printParams (param :: params) =
      printParam param ++ (params.map printParam).flatMap (',' :: ·) := by
  induction params generalizing param with
  | nil => rw [printParams, List.map_nil, List.flatMap_nil, List.append_nil]
  | cons second params ih =>
    rw [printParams, ih second, List.map_cons, List.flatMap_cons, List.cons_append]
    exact List.cons_ne_nil _ _

theorem splitOn_eq_map_iff {cs : List Char} (h : ∀ param ∈ params, IsParam param) :
    Text.splitOn ',' cs = params.map printParam ↔ params ≠ [] ∧ cs = printParams params := by
  have hcomma : ∀ param ∈ params, ',' ∉ printParam param := fun param hparam =>
    (h param hparam).notMem_print (by decide) (by decide) (by decide)
  cases params with
  | nil =>
    obtain ⟨above, last, hsplit, -⟩ := Text.splitOn_append_right cs (List.not_mem_nil (a := ','))
    simp [hsplit]
  | cons param params =>
    obtain ⟨hfirst, hrest⟩ := List.forall_mem_cons.1 hcomma
    rw [List.map_cons, Text.splitOn_eq_cons_iff, printParams_cons]
    refine ⟨fun h => ⟨List.cons_ne_nil _ _, h.1⟩, fun h => ⟨h.2, hfirst, ?_⟩⟩
    exact List.forall_mem_map.2 hrest

theorem mapM_param?_eq_some_iff {cs : List Char} :
    (Text.splitOn ',' cs).mapM param? = some params ↔
      params ≠ [] ∧ cs = printParams params ∧ ∀ param ∈ params, IsParam param := by
  rw [Text.mapM_eq_some_iff param?_eq_some_iff]
  constructor
  · rintro ⟨hsplit, hparams⟩
    obtain ⟨hne, hcs⟩ := (splitOn_eq_map_iff hparams).1 hsplit
    exact ⟨hne, hcs, hparams⟩
  · rintro ⟨hne, hcs, hparams⟩
    exact ⟨(splitOn_eq_map_iff hparams).2 ⟨hne, hcs⟩, hparams⟩

theorem eq_mem_printParams (hne : params ≠ []) : '=' ∈ printParams params := by
  cases params with
  | nil => exact absurd rfl hne
  | cons param params =>
    rw [printParams_cons, printParam]
    simp

theorem notMem_printParams (h : ∀ param ∈ params, IsParam param) (hname : isNameChar c = false)
    (hvalue : isValueChar c = false) (heq : c ≠ '=') (hcomma : c ≠ ',') :
    c ∉ printParams params := by
  cases params with
  | nil => exact List.not_mem_nil
  | cons param params =>
    rw [printParams_cons, List.mem_append, List.mem_flatMap]
    rintro (hmem | ⟨part, hpart, hmem⟩)
    · exact (h param List.mem_cons_self).notMem_print hname hvalue heq hmem
    · obtain ⟨other, hother, rfl⟩ := List.mem_map.1 hpart
      rcases List.mem_cons.1 hmem with rfl | hmem
      · exact hcomma rfl
      · exact (h other (List.mem_cons_of_mem _ hother)).notMem_print hname hvalue heq hmem

end Param

def versionFields (version : Option Nat) : List (List Char) :=
  version.toList.map fun n => 'v' :: '=' :: Nat.toDigits 10 n

def paramFields (params : List (List Char × List Char)) : List (List Char) :=
  if params.isEmpty then [] else [printParams params]

def outputFields (output : Option (List UInt8)) : List (List Char) :=
  output.toList.map Text.base64Encode

/-- The fields behind the algorithm. -/
def fields (phc : PhcString) : List (List Char) :=
  versionFields phc.version ++
    (paramFields phc.params ++ (phc.salt.toList ++ outputFields phc.output))

/-- The hashes that can be read. -/
structure WellFormed (phc : PhcString) : Prop where
  algorithm : isName phc.algorithm = true
  version : ∀ n ∈ phc.version, n < UInt32.size
  params : ∀ param ∈ phc.params, IsParam param
  params_length : (printParams phc.params).length ≤ 127
  /-- A single parameter of this name would be read as the version. -/
  params_version : phc.version = none → ∀ value, phc.params ≠ [(['v'], value)]
  salt : ∀ cs ∈ phc.salt, 4 ≤ cs.length ∧ cs.length ≤ 64 ∧ cs.all isValueChar = true
  output : ∀ bytes ∈ phc.output, 10 ≤ bytes.length ∧ bytes.length ≤ 64
  output_salt : phc.salt = none → phc.output = none

/-- A field in which a version is looked for. -/
def IsVersion (field : List Char) : Prop :=
  field.take 2 = ['v', '='] ∧ ',' ∉ field

section Taking

variable {fields rest : List (List Char)} {version : Option Nat}
  {params : List (List Char × List Char)} {salt : Option (List Char)} {output : Option (List UInt8)}

theorem isVersion_iff {field : List Char} :
    IsVersion field ↔ ∃ cs, field = 'v' :: '=' :: cs ∧ ',' ∉ cs := by
  constructor
  · rintro ⟨htake, hcomma⟩
    have hfield := List.take_append_drop 2 field
    rw [htake] at hfield
    refine ⟨field.drop 2, hfield.symm, fun hmem => hcomma ?_⟩
    rw [← hfield]
    exact List.mem_append_right _ hmem
  · rintro ⟨cs, rfl, hcomma⟩
    refine ⟨rfl, ?_⟩
    rw [List.mem_cons, List.mem_cons, not_or, not_or]
    exact ⟨by decide, by decide, hcomma⟩

theorem takeVersion?_eq_some_iff :
    takeVersion? fields = some (version, rest) ↔
      fields = versionFields version ++ rest ∧ (∀ n ∈ version, n < UInt32.size) ∧
        (version = none → ∀ field ∈ rest.head?, ¬ IsVersion field) := by
  cases fields with
  | nil => cases version <;> cases rest <;> simp [takeVersion?, versionFields]
  | cons field fields =>
    by_cases hversion : IsVersion field
    · obtain ⟨cs, rfl, hcomma⟩ := isVersion_iff.1 hversion
      rw [takeVersion?, if_pos ⟨hversion.1, hversion.2⟩, Option.map_eq_some_iff]
      constructor
      · rintro ⟨n, hn, hsame⟩
        cases hsame
        obtain ⟨hcs, hlt⟩ := decimal?_eq_some_iff.1 hn
        rw [List.drop_succ_cons, List.drop_succ_cons, List.drop_zero] at hcs
        subst hcs
        refine ⟨rfl, ?_, fun h => by cases h⟩
        rintro n ⟨⟩
        exact hlt
      · rintro ⟨hfields, hlt, hother⟩
        cases version with
        | none =>
          -- Without a version the first field would be the next one, which is none of this kind.
          obtain rfl : _ :: fields = rest := hfields
          exact absurd hversion (hother rfl _ rfl)
        | some n =>
          obtain ⟨hfield, rfl⟩ := List.cons.inj hfields
          refine ⟨n, decimal?_eq_some_iff.2 ⟨?_, hlt n rfl⟩, rfl⟩
          exact congrArg (List.drop 2) hfield
    · rw [takeVersion?, if_neg fun h => hversion ⟨h.1, h.2⟩]
      constructor
      · intro hsame
        cases hsame
        refine ⟨rfl, fun n hn => (by cases hn), fun _ other hother => ?_⟩
        cases hother
        exact hversion
      · rintro ⟨hfields, -, -⟩
        cases version with
        | none =>
          obtain rfl : _ :: fields = rest := hfields
          rfl
        | some n =>
          obtain ⟨rfl, -⟩ := List.cons.inj hfields
          exact absurd (isVersion_iff.2 ⟨_, rfl, notMem_toDigits (by decide)⟩) hversion

theorem takeParams?_eq_some_iff :
    takeParams? fields = some (params, rest) ↔
      fields = paramFields params ++ rest ∧ (∀ param ∈ params, IsParam param) ∧
        (printParams params).length ≤ 127 ∧
        (params = [] → ∀ field ∈ rest.head?, '=' ∉ field) := by
  cases fields with
  | nil =>
    cases params <;> cases rest <;> simp [takeParams?, paramFields, printParams]
  | cons field fields =>
    by_cases heq : '=' ∈ field
    · rw [takeParams?, if_pos heq]
      constructor
      · intro h
        obtain ⟨hshort, h⟩ := Option.ite_none_left_eq_some.1 h
        obtain ⟨found, hfound, hsame⟩ := Option.map_eq_some_iff.1 h
        cases hsame
        obtain ⟨hne, rfl, hparams⟩ := mapM_param?_eq_some_iff.1 hfound
        refine ⟨?_, hparams, by omega, fun hnil => absurd hnil hne⟩
        rw [paramFields, if_neg (by rwa [List.isEmpty_iff])]
        rfl
      · rintro ⟨hfields, hparams, hshort, hother⟩
        by_cases hne : params = []
        · subst hne
          obtain rfl : field :: fields = rest := hfields
          exact absurd heq (hother rfl _ rfl)
        · rw [paramFields, if_neg (by rwa [List.isEmpty_iff])] at hfields
          obtain ⟨rfl, rfl⟩ := List.cons.inj hfields
          rw [if_neg (by omega), mapM_param?_eq_some_iff.2 ⟨hne, rfl, hparams⟩]
          rfl
    · rw [takeParams?, if_neg heq]
      constructor
      · intro hsame
        cases hsame
        refine ⟨rfl, fun _ hparam => absurd hparam List.not_mem_nil, by decide, ?_⟩
        rintro - _ ⟨⟩
        exact heq
      · rintro ⟨hfields, -, -, -⟩
        by_cases hne : params = []
        · subst hne
          obtain rfl : field :: fields = rest := hfields
          rfl
        · rw [paramFields, if_neg (by rwa [List.isEmpty_iff])] at hfields
          obtain ⟨rfl, -⟩ := List.cons.inj hfields
          exact absurd (eq_mem_printParams hne) heq

theorem takeSalt?_eq_some_iff :
    takeSalt? fields = some (salt, rest) ↔
      fields = salt.toList ++ rest ∧
        (∀ cs ∈ salt, 4 ≤ cs.length ∧ cs.length ≤ 64 ∧ cs.all isValueChar = true) ∧
        (salt = none → rest = []) := by
  cases fields with
  | nil => cases salt <;> cases rest <;> simp [takeSalt?]
  | cons field fields =>
    rw [takeSalt?, Option.ite_none_right_eq_some]
    constructor
    · rintro ⟨hfield, hsame⟩
      cases hsame
      refine ⟨rfl, ?_, fun h => by cases h⟩
      rintro _ ⟨⟩
      exact hfield
    · rintro ⟨hfields, hsalt, hnone⟩
      cases salt with
      | none =>
        rw [hnone rfl] at hfields
        cases hfields
      | some cs =>
        cases hfields
        exact ⟨hsalt _ rfl, rfl⟩

theorem takeOutput?_eq_some_iff :
    takeOutput? fields = some (output, rest) ↔
      fields = outputFields output ++ rest ∧
        (∀ bytes ∈ output, 10 ≤ bytes.length ∧ bytes.length ≤ 64) ∧
        (output = none → rest = []) := by
  cases fields with
  | nil => cases output <;> cases rest <;> simp [takeOutput?, outputFields]
  | cons field fields =>
    rw [takeOutput?, Option.bind_eq_some_iff]
    constructor
    · rintro ⟨bytes, hbytes, h⟩
      obtain ⟨hlength, hsame⟩ := Option.ite_none_right_eq_some.1 h
      cases hsame
      rw [Text.base64Decode?_eq_some_iff] at hbytes
      refine ⟨by rw [hbytes]; rfl, ?_, fun h => by cases h⟩
      rintro _ ⟨⟩
      exact hlength
    · rintro ⟨hfields, hlength, hnone⟩
      cases output with
      | none =>
        rw [hnone rfl] at hfields
        cases hfields
      | some bytes =>
        cases hfields
        exact ⟨bytes, Text.base64Decode?_base64Encode bytes, if_pos (hlength bytes rfl)⟩

end Taking

theorem isVersion_printParams {params : List (List Char × List Char)}
    (h : ∀ param ∈ params, IsParam param) (hversion : IsVersion (printParams params)) :
    ∃ value, params = [(['v'], value)] := by
  obtain ⟨cs, hprint, hcomma⟩ := isVersion_iff.1 hversion
  cases params with
  | nil => cases hprint
  | cons param params =>
    obtain ⟨name, value⟩ := param
    have hname := (h _ List.mem_cons_self).notMem_name (by decide : isNameChar '=' = false)
    rw [printParams_cons, printParam, List.append_assoc] at hprint
    dsimp only at hname hprint
    -- The name ends at the first equals sign, so it is the one letter in front of it.
    cases name with
    | nil => cases hprint
    | cons first name =>
      rw [List.cons_append, List.cons.injEq] at hprint
      obtain ⟨rfl, hprint⟩ := hprint
      cases name with
      | nil =>
        rw [List.nil_append, List.cons_append, List.cons.injEq] at hprint
        obtain ⟨-, rfl⟩ := hprint
        cases params with
        | nil => exact ⟨value, rfl⟩
        | cons second params => simp at hcomma
      | cons second name =>
        rw [List.cons_append, List.cons.injEq] at hprint
        obtain ⟨rfl, -⟩ := hprint
        simp at hname

namespace WellFormed

variable {phc : PhcString}

theorem salt_notMem (h : phc.WellFormed) {c : Char} (hc : isValueChar c = false) :
    ∀ cs ∈ phc.salt, c ∉ cs :=
  fun cs hcs => notMem_of_all (h.salt cs hcs).2.2 hc

/-- Behind the parameters the salt comes first. -/
theorem eq_notMem_head (h : phc.WellFormed) :
    ∀ field ∈ (phc.salt.toList ++ outputFields phc.output).head?, '=' ∉ field := by
  cases hsalt : phc.salt with
  | none =>
    rw [h.output_salt hsalt]
    intro field hfield
    cases hfield
  | some cs =>
    rintro _ ⟨⟩
    exact h.salt_notMem (by decide) cs hsalt

/-- Where there is no version, none is read. -/
theorem not_isVersion_head (h : phc.WellFormed) (hnone : phc.version = none) :
    ∀ field ∈ (paramFields phc.params ++ (phc.salt.toList ++ outputFields phc.output)).head?,
      ¬ IsVersion field := by
  intro field hfield hversion
  by_cases hparams : phc.params = []
  · rw [hparams] at hfield
    obtain ⟨cs, rfl, -⟩ := isVersion_iff.1 hversion
    exact h.eq_notMem_head _ hfield (List.mem_cons_of_mem _ List.mem_cons_self)
  · rw [paramFields, if_neg (by rwa [List.isEmpty_iff])] at hfield
    cases hfield
    obtain ⟨value, hvalue⟩ := isVersion_printParams h.params hversion
    exact h.params_version hnone value hvalue

end WellFormed

theorem ofFields?_eq_some_iff_taken {algorithm : List Char} {fields : List (List Char)}
    {phc : PhcString} :
    ofFields? algorithm fields = some phc ↔
      phc.algorithm = algorithm ∧ isName algorithm = true ∧ ∃ params salt output,
        takeVersion? fields = some (phc.version, params) ∧
        takeParams? params = some (phc.params, salt) ∧
        takeSalt? salt = some (phc.salt, output) ∧
        takeOutput? output = some (phc.output, []) := by
  rw [ofFields?]
  simp only [Option.bind_eq_bind, Option.bind_eq_some_iff, Prod.exists,
    Option.ite_none_right_eq_some, Bool.and_eq_true, List.isEmpty_iff]
  constructor
  · rintro ⟨version, params, hversion, values, salt, hparams, cs, output, hsalt, bytes, rest,
      houtput, ⟨rfl, hname⟩, hsame⟩
    cases hsame
    exact ⟨rfl, hname, params, salt, output, hversion, hparams, hsalt, houtput⟩
  · rintro ⟨rfl, hname, params, salt, output, hversion, hparams, hsalt, houtput⟩
    exact ⟨_, _, hversion, _, _, hparams, _, _, hsalt, _, _, houtput, ⟨rfl, hname⟩, rfl⟩

theorem ofFields?_eq_some_iff {algorithm : List Char} {fields : List (List Char)}
    {phc : PhcString} :
    ofFields? algorithm fields = some phc ↔
      phc.WellFormed ∧ phc.algorithm = algorithm ∧ phc.fields = fields := by
  simp only [ofFields?_eq_some_iff_taken, takeVersion?_eq_some_iff, takeParams?_eq_some_iff,
    takeSalt?_eq_some_iff, takeOutput?_eq_some_iff]
  constructor
  · rintro ⟨rfl, hname, _, _, _, ⟨rfl, hversion, hother⟩, ⟨rfl, hparams, hshort, -⟩,
      ⟨rfl, hsalt, hlast⟩, ⟨rfl, houtput, -⟩⟩
    refine ⟨⟨hname, hversion, hparams, hshort, ?_, hsalt, houtput, ?_⟩, rfl, ?_⟩
    · intro hnone value hvalue
      refine hother hnone (printParams phc.params) (by rw [hvalue]; rfl) ?_
      have hparam : IsParam (['v'], value) := hparams _ (by rw [hvalue]; exact List.mem_cons_self)
      rw [hvalue]
      exact isVersion_iff.2 ⟨value, rfl, hparam.notMem_value (by decide)⟩
    · intro hnone
      have hempty := hlast hnone
      cases houtput : phc.output with
      | none => rfl
      | some bytes =>
        rw [houtput] at hempty
        cases hempty
    · rw [PhcString.fields, List.append_nil]
  · rintro ⟨h, rfl, rfl⟩
    refine ⟨rfl, h.algorithm, _, _, _, ⟨rfl, h.version, h.not_isVersion_head⟩,
      ⟨rfl, h.params, h.params_length, fun _ => h.eq_notMem_head⟩, ⟨rfl, h.salt, ?_⟩,
      ⟨(List.append_nil _).symm, h.output, fun _ => trivial⟩⟩
    intro hnone
    rw [h.output_salt hnone]
    rfl

theorem toList_print (phc : PhcString) :
    phc.print.toList = '$' :: (phc.algorithm ++ phc.fields.flatMap ('$' :: ·)) := by
  obtain ⟨algorithm, version, params, salt, output⟩ := phc
  cases version <;> cases params <;> cases salt <;> cases output <;>
    simp [print, fields, versionFields, paramFields, outputFields]

theorem dollar_notMem_base64Encode (bytes : List UInt8) : '$' ∉ Text.base64Encode bytes := by
  intro h
  have hdigits : ∀ n < 64, Text.base64Digit n ≠ '$' := by decide
  exact Text.forall_mem_base64Encode (· ≠ '$') hdigits bytes '$' h rfl

theorem WellFormed.dollar_notMem {phc : PhcString} (h : phc.WellFormed) :
    '$' ∉ phc.algorithm ∧ ∀ field ∈ phc.fields, '$' ∉ field := by
  have hname := h.algorithm
  rw [isName, Bool.and_eq_true] at hname
  refine ⟨notMem_of_all hname.2 (by decide), fun field hfield => ?_⟩
  rw [fields, List.mem_append, List.mem_append, List.mem_append] at hfield
  rcases hfield with hfield | hfield | hfield | hfield
  · obtain ⟨n, -, rfl⟩ := List.mem_map.1 hfield
    rw [List.mem_cons, List.mem_cons, not_or, not_or]
    exact ⟨by decide, by decide, notMem_toDigits (by decide)⟩
  · rw [paramFields] at hfield
    split at hfield
    · cases hfield
    · rw [List.mem_singleton.1 hfield]
      exact notMem_printParams h.params (by decide) (by decide) (by decide) (by decide)
  · exact h.salt_notMem (by decide) field (Option.mem_toList.1 hfield)
  · obtain ⟨bytes, -, rfl⟩ := List.mem_map.1 hfield
    exact dollar_notMem_base64Encode bytes

/-- A text is read as a hash exactly if it is what is printed of it. -/
theorem parse?_eq_some_iff {text : String} {phc : PhcString} :
    parse? text = some phc ↔ phc.WellFormed ∧ text = phc.print := by
  rw [parse?]
  constructor
  · intro h
    split at h
    · next algorithm fields hsplit =>
      obtain ⟨hwell, rfl, rfl⟩ := ofFields?_eq_some_iff.1 h
      refine ⟨hwell, String.toList_inj.1 ?_⟩
      rw [(Text.splitOn_eq_cons_iff.1 hsplit).1, toList_print, List.flatMap_cons]
      rfl
    · cases h
  · rintro ⟨h, rfl⟩
    obtain ⟨halgorithm, hfields⟩ := h.dollar_notMem
    have hsplit : Text.splitOn '$' phc.print.toList = [] :: phc.algorithm :: phc.fields := by
      refine Text.splitOn_eq_cons_iff.2 ⟨?_, List.not_mem_nil, ?_⟩
      · rw [toList_print, List.flatMap_cons]
        rfl
      · exact List.forall_mem_cons.2 ⟨halgorithm, hfields⟩
    rw [hsplit]
    exact ofFields?_eq_some_iff.2 ⟨h, rfl, rfl⟩

/-- A number is not read with zeros in front of it. -/
example : parse? "$argon2id$v=19" = some ⟨"argon2id".toList, some 19, [], none, none⟩ ∧
    parse? "$argon2id$v=019" = none := by decide

end Gatehouse.PhcString
