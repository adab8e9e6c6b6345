import Gatehouse.Json.Record
import Mathlib.Data.List.Forall2
import Mathlib.Data.List.Perm.Basic

set_option autoImplicit false

/-!
# What the readers of records go by

A record looks at how often each declared name occurs and with which value, wherever that is among
the fields and whatever else is there.
-/

namespace Gatehouse.Json

/-- No field has this name. -/
def Absent (name : String) (fields : List (String × Json)) : Prop :=
  ∀ value, (name, value) ∉ fields

/-- One field has this name and no other has, and it holds this value. -/
def Once (name : String) (value : Json) (fields : List (String × Json)) : Prop :=
  ∃ before after, fields = before ++ (name, value) :: after ∧
    Absent name before ∧ Absent name after

/-- The values of the fields of a name, in order. -/
def valuesIn (name : String) (fields : List (String × Json)) : List Json :=
  (fields.filter fun field => field.1 == name).map (·.2)

variable {name other : String} {value : Json} {fields : List (String × Json)}

theorem valuesOf_eq :
    valuesOf name (fields.map fun field => (some field.1, field.2)) = valuesIn name fields := by
  simp [valuesOf, valuesIn, List.filter_map, Function.comp_def]

theorem absent_iff : Absent name fields ↔ valuesIn name fields = [] := by
  simp only [Absent, valuesIn, List.map_eq_nil_iff, List.filter_eq_nil_iff, beq_iff_eq]
  constructor
  · rintro habsent ⟨other, value⟩ hmem rfl
    exact habsent value hmem
  · intro hnone value hmem
    exact hnone _ hmem rfl

theorem valuesIn_append {before after : List (String × Json)} :
    valuesIn name (before ++ after) = valuesIn name before ++ valuesIn name after := by
  simp [valuesIn]

theorem valuesIn_cons_self : valuesIn name ((name, value) :: fields) =
    value :: valuesIn name fields := by
  simp [valuesIn]

theorem valuesIn_cons_of_ne (hne : other ≠ name) :
    valuesIn name ((other, value) :: fields) = valuesIn name fields := by
  simp [valuesIn, hne]

theorem once_iff : Once name value fields ↔ valuesIn name fields = [value] := by
  constructor
  · rintro ⟨before, after, rfl, hbefore, hafter⟩
    rw [valuesIn_append, valuesIn_cons_self, absent_iff.1 hbefore, absent_iff.1 hafter,
      List.nil_append]
  · intro hvalues
    induction fields with
    | nil => cases hvalues
    | cons field fields ih =>
      obtain ⟨other, held⟩ := field
      by_cases hname : other = name
      · subst hname
        rw [valuesIn_cons_self] at hvalues
        obtain ⟨rfl, hrest⟩ := List.cons_eq_cons.1 hvalues
        exact ⟨[], fields, rfl, absent_iff.2 rfl, absent_iff.2 hrest⟩
      · rw [valuesIn_cons_of_ne hname] at hvalues
        obtain ⟨before, after, rfl, hbefore, hafter⟩ := ih hvalues
        refine ⟨(other, held) :: before, after, rfl, absent_iff.2 ?_, hafter⟩
        rw [valuesIn_cons_of_ne hname]
        exact absent_iff.1 hbefore

theorem text?_eq_some_iff {text : String} : value.text? = some text ↔ value = .ofText text := by
  cases value <;> simp [text?, ofText]

theorem bool?_eq_some_iff {flag : Bool} : value.bool? = some flag ↔ value = .bool flag := by
  cases value <;> simp [bool?]

theorem word?_natural (word : UInt64) : (Json.natural word.toNat).word? = some word := by
  rw [word?, if_pos word.toNat_lt_size]
  simp

theorem word?_eq_some_iff {word : UInt64} :
    value.word? = some word ↔ value = .natural word.toNat := by
  constructor
  · intro h
    cases value with
    | natural number =>
      obtain ⟨hbound, h⟩ := Option.ite_none_right_eq_some.1 h
      cases h
      rw [Nat.toUInt64_eq, UInt64.toNat_ofNat_of_lt' hbound]
    | null | bool | otherNumber | string | array | object => cases h
  · rintro rfl
    exact word?_natural word

theorem textOrNull?_eq_some_iff {text : Option String} :
    value.textOrNull? = some text ↔ value = text.elim .null .ofText := by
  constructor
  · intro h
    unfold textOrNull? at h
    split at h
    · cases h
      rfl
    · cases h
      rfl
    · cases h
  · rintro rfl
    cases text <;> rfl

theorem name?_eq_some_iff {text : String} :
    value.name? = some text ↔ value = .ofText text ∨ value = .ofFields [(text, .null)] := by
  constructor
  · intro h
    unfold name? at h
    split at h
    · exact .inl (congrArg _ h)
    · subst h
      exact .inr rfl
    · cases h
  · rintro (rfl | rfl) <;> rfl

theorem list?_eq_some_iff {α : Type} {read? : Json → Option α} {items : List α} :
    value.list? read? = some items ↔
      ∃ values, value = .array values ∧
        List.Forall₂ (fun value item => read? value = some item) values items := by
  constructor
  · intro h
    cases value with
    | array values =>
      refine ⟨values, rfl, ?_⟩
      change values.mapM read? = some items at h
      induction values generalizing items with
      | nil =>
        cases h
        exact .nil
      | cons value values ih =>
        rw [List.mapM_cons] at h
        obtain ⟨item, hitem, h⟩ := Option.bind_eq_some_iff.1 h
        obtain ⟨others, hothers, h⟩ := Option.bind_eq_some_iff.1 h
        cases h
        exact .cons hitem (ih hothers)
    | null | bool | natural | otherNumber | string | object => cases h
  · rintro ⟨values, rfl, hread⟩
    change values.mapM read? = some items
    induction hread with
    | nil => rfl
    | cons hitem _ ih =>
      rw [List.mapM_cons, hitem, ih]
      rfl

variable {names : List String} {required : Nat} {find : String → Option Json}

theorem record?_ofFields :
    record? names required (ofFields fields) = some find ↔
      (∀ name ∈ names, (valuesIn name fields).length ≤ 1) ∧
        find = fun name => (valuesIn name fields).head? := by
  simp only [ofFields, record?, valuesOf_eq, Option.ite_none_right_eq_some, Option.some.injEq,
    List.all_eq_true, decide_eq_true_eq]
  constructor
  · rintro ⟨⟨-, hfew⟩, rfl⟩
    exact ⟨hfew, rfl⟩
  · rintro ⟨hfew, rfl⟩
    refine ⟨⟨?_, hfew⟩, rfl⟩
    intro member hmember
    obtain ⟨field, -, rfl⟩ := List.mem_map.1 hmember
    rfl

theorem record?_array {items : List Json} :
    record? names required (.array items) = some find ↔
      required ≤ items.length ∧ items.length ≤ names.length ∧
        find = fun name => (names.zip items).lookup name := by
  simp [record?, and_assoc, eq_comm]

theorem record?_nameless {members : List (Option String × Json)} (h : (none, value) ∈ members) :
    record? names required (.object members) = none := by
  refine if_neg fun hall => ?_
  have := List.all_eq_true.1 hall.1 _ h
  cases this

theorem fields_of_record? {members : List (Option String × Json)}
    (h : record? names required (.object members) = some find) :
    ∃ fields, Json.object members = ofFields fields := by
  by_cases hall : members.all fun member => member.1.isSome
  · refine ⟨members.filterMap fun member => member.1.map (·, member.2), ?_⟩
    clear h
    rw [ofFields]
    congr 1
    induction members with
    | nil => rfl
    | cons member members ih =>
      obtain ⟨name, value⟩ := member
      rw [List.all_cons, Bool.and_eq_true] at hall
      obtain ⟨name, rfl⟩ := Option.isSome_iff_exists.1 hall.1
      simpa using ih hall.2
  · rw [record?, if_neg fun h => hall h.1] at h
    cases h

theorem once_iff_head? (hfew : (valuesIn name fields).length ≤ 1) :
    Once name value fields ↔ (valuesIn name fields).head? = some value := by
  rw [once_iff]
  match valuesIn name fields, hfew with
  | [], _ => simp
  | [held], _ => simp

theorem absent_iff_head? : Absent name fields ↔ (valuesIn name fields).head? = none := by
  rw [absent_iff, List.head?_eq_none_iff]

section

variable {α : Type} {read? : Json → Option α} {default item : α}
  (hfew : (valuesIn name fields).length ≤ 1)

include hfew

theorem needed_iff : (valuesIn name fields).head?.bind read? = some item ↔
    ∃ value, Once name value fields ∧ read? value = some item := by
  simp only [Option.bind_eq_some_iff, once_iff_head? hfew]

/-- A field that may be left out is there once, with a value of its kind, or stands for another. -/
theorem optional_iff : (valuesIn name fields).head?.elim (some default) read? = some item ↔
    (∃ value, Once name value fields ∧ read? value = some item) ∨
      Absent name fields ∧ item = default := by
  simp only [once_iff_head? hfew, absent_iff_head?]
  cases (valuesIn name fields).head? with
  | none => simp [eq_comm]
  | some value => simp

end

theorem Once.length_le (h : Once name value fields) : (valuesIn name fields).length ≤ 1 := by
  rw [once_iff.1 h]
  exact Nat.le_refl 1

theorem Absent.length_le (h : Absent name fields) : (valuesIn name fields).length ≤ 1 := by
  rw [absent_iff.1 h]
  exact Nat.zero_le 1

/-- The fields with these names are the same ones, in whatever order. -/
def SameFields (names : List String) (fields fields' : List (String × Json)) : Prop :=
  (fields.filter fun field => names.contains field.1).Perm
    (fields'.filter fun field => names.contains field.1)

theorem valuesIn_filter (hname : name ∈ names) (fields : List (String × Json)) :
    valuesIn name (fields.filter fun field => names.contains field.1) = valuesIn name fields := by
  rw [valuesIn, valuesIn, List.filter_filter]
  congr 1
  refine List.filter_congr fun field _ => ?_
  by_cases h : field.1 = name
  · simp [h, hname]
  · simp [h]

variable {fields' : List (String × Json)}

theorem SameFields.symm (hsame : SameFields names fields fields') :
    SameFields names fields' fields :=
  List.Perm.symm hsame

theorem SameFields.values_perm (hsame : SameFields names fields fields') (hname : name ∈ names) :
    (valuesIn name fields).Perm (valuesIn name fields') := by
  rw [← valuesIn_filter hname fields, ← valuesIn_filter hname fields']
  exact (hsame.filter _).map _

theorem Once.of_sameFields (h : Once name value fields) (hsame : SameFields names fields fields')
    (hname : name ∈ names) : Once name value fields' := by
  have hvalues := hsame.values_perm hname
  rw [once_iff.1 h] at hvalues
  exact once_iff.2 (List.singleton_perm.1 hvalues).symm

theorem Absent.of_sameFields (h : Absent name fields) (hsame : SameFields names fields fields')
    (hname : name ∈ names) : Absent name fields' := by
  have hvalues := hsame.values_perm hname
  rw [absent_iff.1 h] at hvalues
  exact absent_iff.2 hvalues.nil_eq.symm

end Gatehouse.Json
