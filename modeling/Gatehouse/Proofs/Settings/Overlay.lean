import Gatehouse.Proofs.Keyed
import Gatehouse.Proofs.Settings.Layers

set_option autoImplicit false

/-!
# Collected values laid over single ones

What was collected from some sources has no name twice in a table. Laid over a table of single
values it keeps what it says of each name. Only where a group was collected as anything but a table
is nothing left of what was below.
-/

namespace Gatehouse

namespace ConfigValue

variable {group name other : String} {value below : ConfigValue} {f : ConfigValue → ConfigValue}
  {entries : List (String × ConfigValue)}

/-- No table names a value twice, at whatever depth. -/
inductive Distinct : ConfigValue → Prop
  | intro {value : ConfigValue} (hnames : (value.entries.map Prod.fst).Nodup)
      (hinner : ∀ name held, value.get? name = some held → Distinct held) : Distinct value

theorem Distinct.nodup (h : Distinct value) : (value.entries.map Prod.fst).Nodup := by
  cases h with
  | intro hnames hinner => exact hnames

theorem Distinct.inner {held : ConfigValue} (h : Distinct value)
    (hheld : value.get? name = some held) : Distinct held := by
  cases h with
  | intro hnames hinner => exact hinner name held hheld

theorem distinct_of_entries (h : value.entries = []) : Distinct value := by
  refine .intro (by rw [h]; exact List.nodup_nil) fun name held hheld => ?_
  rw [get?, h] at hheld
  cases hheld

theorem distinct_changeName (h : Distinct below)
    (hf : ∀ value, Distinct value → Distinct (f value)) :
    Distinct (changeName name f below) := by
  refine .intro (nodup_names_changeEntry h.nodup) fun other held hheld => ?_
  rw [get?_changeName] at hheld
  split at hheld
  · cases hheld
    refine hf _ ?_
    cases hbelow : below.get? name with
    | none => exact distinct_of_entries rfl
    | some value => exact h.inner hbelow
  · exact h.inner hheld

theorem eq_table_entries (h : value.isTable = true) : value = table value.entries := by
  cases value with
  | table entries => rfl
  | absent | flag | integer | number | text | list => cases h

mutual

theorem distinct_overlay {below : ConfigValue} (h : Distinct below) (value : ConfigValue) :
    Distinct (overlay below value) := by
  cases value with
  | table entries =>
    have hbelow : Distinct (table below.entries) := .intro h.nodup fun _ _ hheld => h.inner hheld
    rw [overlay]
    exact distinct_overlayEntries hbelow entries
  | absent | flag | integer | number | text | list =>
    exact distinct_of_entries (by rw [overlay]; rfl)

theorem distinct_overlayEntries {below : ConfigValue} (h : Distinct below)
    (entries : List (String × ConfigValue)) : Distinct (overlayEntries below entries) := by
  match entries with
  | [] => rwa [overlayEntries]
  | (name, value) :: rest =>
    rw [overlayEntries]
    refine distinct_overlayEntries (distinct_changeName h fun held hheld => ?_) rest
    exact distinct_overlay hheld value

end

theorem distinct_set (h : Distinct below) (path : ConfigPath) (value : ConfigValue) :
    Distinct (set path value below) := by
  rw [set]
  induction path generalizing below with
  | nil => exact distinct_overlay h value
  | cons step path ih =>
    cases step with
    | name name => exact distinct_changeName h fun held hheld => ih hheld
    | index index => exact distinct_of_entries rfl

theorem distinct_setAll (h : Distinct below) (source : SettingsSource) :
    Distinct (setAll source below) := by
  induction source generalizing below with
  | nil => exact h
  | cons entry source ih => exact ih (distinct_set h _ _)

theorem isTable_setAll (h : below.isTable = true) (source : SettingsSource) :
    (setAll source below).isTable = true := by
  induction source generalizing below with
  | nil => exact h
  | cons entry source ih =>
    obtain ⟨first, rest, hpath⟩ := ConfigPath.ofName_eq entry.1
    rw [setAll, List.foldl_cons, hpath]
    exact ih rfl

theorem get?_overlayEntries_of_nodup (h : (entries.map Prod.fst).Nodup) (below : ConfigValue)
    (name : String) :
    (overlayEntries below entries).get? name =
      match entries.lookup name with
      | some value => some (overlay ((below.get? name).getD absent) value)
      | none => below.get? name := by
  induction entries generalizing below with
  | nil => rw [overlayEntries, List.lookup_nil]
  | cons entry entries ih =>
    obtain ⟨other, value⟩ := entry
    obtain ⟨hother, hrest⟩ := List.nodup_cons.1 h
    rw [overlayEntries]
    by_cases hname : name = other
    · subst hname
      rw [List.lookup_cons_self, get?_overlayEntries_of_notMem hother, get?_changeName, if_pos rfl]
    · rw [List.lookup_cons, beq_eq_false_iff_ne.2 hname, ih hrest, get?_changeName, if_neg hname]

theorem get?_overlay (htable : value.isTable = true) (hdistinct : Distinct value)
    (below : ConfigValue) (name : String) :
    (overlay below value).get? name =
      match value.get? name with
      | some held => some (overlay ((below.get? name).getD absent) held)
      | none => below.get? name := by
  cases value with
  | table entries =>
    have hnodup : (entries.map Prod.fst).Nodup := hdistinct.nodup
    rw [overlay, get?_overlayEntries_of_nodup hnodup]
    rfl
  | absent | flag | integer | number | text | list => cases htable

theorem mem_names_overlayEntries
    (h : name ∈ below.entries.map Prod.fst ∨ name ∈ entries.map Prod.fst) :
    name ∈ (overlayEntries below entries).entries.map Prod.fst := by
  induction entries generalizing below with
  | nil =>
    rw [overlayEntries]
    exact h.resolve_right List.not_mem_nil
  | cons entry entries ih =>
    obtain ⟨other, value⟩ := entry
    rw [overlayEntries]
    refine ih ?_
    have hchange : name ∈ (changeName other (overlay · value) below).entries.map Prod.fst ↔
        name = other ∨ name ∈ below.entries.map Prod.fst := mem_names_changeEntry
    rw [List.map_cons, List.mem_cons] at h
    rw [hchange]
    grind

theorem standsFor_refl (found : Option ConfigValue) : Option.Rel StandsFor found found := by
  cases found with
  | none => exact .none
  | some value => exact .some (.same value)

theorem StandsFor.laid {given : ConfigValue} (h : StandsFor given value)
    (hdistinct : Distinct value) (hbelow : below.IsSingle) :
    StandsFor given (overlay below value) := by
  have hnames (entries : List (String × ConfigValue)) : ∀ name ∈ entries.map Prod.fst,
      name ∈ (overlayEntries (table []) entries).entries.map Prod.fst :=
    fun name hname => mem_names_overlayEntries (.inr hname)
  have htable (entries : List (String × ConfigValue)) :
      overlay absent (table entries) = table (overlayEntries (table []) entries).entries := by
    rw [overlay]
    exact eq_table_entries (isTable_overlayEntries rfl entries)
  rw [overlay_of_isSingle hbelow]
  cases h with
  | same =>
    cases value with
    | table entries =>
      cases entries with
      | nil => exact .same _
      | cons entry entries =>
        rw [htable]
        exact .tables (List.cons_ne_nil _ _) hdistinct.nodup (hnames _)
    | absent | flag | integer | number | text | list =>
      rw [overlay_of_not_isTable rfl]
      exact .same _
  | lists items items' =>
    rw [overlay_of_not_isTable rfl]
    exact .lists _ _
  | tables hsome hnodup hsub =>
    rw [htable]
    exact .tables hsome hnodup fun name hname => hnames _ name (hsub name hname)

/-- What a name in a group comes to be where collected values lie over single ones: what was
collected, or else what was there, as long as the group was not collected as anything but a
table. -/
theorem named?_overlay {found : Option ConfigValue} {collected : ConfigValue}
    (htable : collected.isTable = true) (hdistinct : Distinct collected)
    (hfound : Option.Rel StandsFor found (named? group name collected))
    (hsingle : ∀ value, named? group name below = some value → value.IsSingle) :
    Option.Rel StandsFor
      (found.or (if collected.isGrouped group then named? group name below else none))
      (named? group name (overlay below collected)) := by
  rw [named?_eq group name (overlay below collected), get?_overlay htable hdistinct, isGrouped]
  rw [named?] at hfound
  cases hgroup : collected.get? group with
  | none =>
    rw [hgroup] at hfound
    cases hfound
    rw [named?_eq]
    exact standsFor_refl _
  | some held =>
    rw [hgroup] at hfound
    change Option.Rel StandsFor found (held.get? name) at hfound
    simp only [Option.getD_some, Option.all_some]
    by_cases hheld : held.isTable = true
    · have hinner := hdistinct.inner hgroup
      rw [if_pos hheld, get?_overlay hheld hinner]
      rw [named?_eq] at hsingle ⊢
      cases hname : held.get? name with
      | none =>
        rw [hname] at hfound
        cases hfound
        exact standsFor_refl _
      | some value =>
        rw [hname] at hfound
        cases hfound with
        | some hstands => exact .some (hstands.laid (hinner.inner hname) (isSingle_getD hsingle))
    · rw [if_neg hheld]
      rw [Bool.not_eq_true] at hheld
      have hnone : held.get? name = none := by
        rw [get?, entries_of_not_isTable hheld, List.lookup_nil]
      rw [overlay_of_not_isTable hheld, hnone]
      rw [hnone] at hfound
      cases hfound
      exact .none

/-- A group stays a table if it was one below and was collected as one. -/
theorem isGrouped_overlay {collected : ConfigValue} (htable : collected.isTable = true)
    (hdistinct : Distinct collected) (hbelow : below.isGrouped group = true)
    (hcollected : collected.isGrouped group = true) :
    (overlay below collected).isGrouped group = true := by
  rw [isGrouped] at hbelow hcollected ⊢
  rw [get?_overlay htable hdistinct]
  cases hgroup : collected.get? group with
  | none => exact hbelow
  | some held =>
    rw [hgroup] at hcollected
    cases held with
    | table entries => exact isTable_overlayEntries rfl entries
    | absent | flag | integer | number | text | list => cases hcollected

end ConfigValue

end Gatehouse
