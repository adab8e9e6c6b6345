import Gatehouse.Proofs.Settings.Layers
import Gatehouse.Proofs.Settings.Reading
import Gatehouse.Settings.Load
import Mathlib

set_option autoImplicit false

/-!
# Settings from the environment

Each key has a variable. A variable sets its key and says nothing of the others. The two variables
with names of their own are sources of their own.
-/

namespace Gatehouse.Environment

open ConfigValue SettingsSource

theorem isTable_value (text : String) : (value text).isTable = false := by
  unfold value
  repeat' split
  all_goals rfl

theorem settings_cons_of_none {label text : String} {rest : List (String × String)}
    (h : path? label = none) : settings ((label, text) :: rest) = settings rest := by
  rw [settings, h]

theorem settings_cons_of_path {label text path : String} {rest : List (String × String)}
    (h : path? label = some path) :
    settings ((label, text) :: rest) =
      if path ∈ (settings rest).map Prod.fst then settings rest
      else (path, value text) :: settings rest := by
  rw [settings, h]

theorem mem_settings {environment : List (String × String)} {entry : String × ConfigValue}
    (h : entry ∈ settings environment) :
    ∃ origin ∈ environment, path? origin.1 = some entry.1 ∧ entry.2 = value origin.2 := by
  induction environment with
  | nil => cases h
  | cons origin rest ih =>
    have hlater (hrest : entry ∈ settings rest) :=
      (ih hrest).imp fun other hother => hother.imp_left (List.mem_cons_of_mem origin)
    cases hpath : path? origin.1 with
    | none =>
      rw [settings_cons_of_none hpath] at h
      exact hlater h
    | some path =>
      rw [settings_cons_of_path hpath] at h
      split at h
      · exact hlater h
      · obtain rfl | hrest := List.mem_cons.1 h
        · exact ⟨origin, List.mem_cons_self, hpath, rfl⟩
        · exact hlater hrest

theorem mem_paths_iff {environment : List (String × String)} {path : String} :
    path ∈ (settings environment).map Prod.fst ↔
      ∃ origin ∈ environment, path? origin.1 = some path := by
  constructor
  · intro h
    obtain ⟨entry, hentry, rfl⟩ := List.mem_map.1 h
    exact (mem_settings hentry).imp fun origin horigin => ⟨horigin.1, horigin.2.1⟩
  · rintro ⟨origin, horigin, hpath⟩
    induction environment with
    | nil => cases horigin
    | cons first rest ih =>
      cases hfirst : path? first.1 with
      | none =>
        rw [settings_cons_of_none hfirst]
        obtain rfl | hrest := List.mem_cons.1 horigin
        · cases hfirst.symm.trans hpath
        · exact ih hrest
      | some other =>
        rw [settings_cons_of_path hfirst]
        obtain rfl | hrest := List.mem_cons.1 horigin
        · obtain rfl := Option.some.inj (hfirst.symm.trans hpath)
          split
          · assumption
          · exact List.mem_cons_self
        · split
          · exact ih hrest
          · exact List.mem_cons_of_mem other (ih hrest)

theorem settings_perm {before after : List (String × String)} {label text path : String}
    (h : path? label = some path)
    (hothers : ∀ other ∈ before ++ after, path? other.1 ≠ some path) :
    (settings (before ++ (label, text) :: after)).Perm
      ((path, value text) :: settings (before ++ after)) := by
  induction before with
  | nil =>
    have hnew : path ∉ (settings after).map Prod.fst := fun hpath =>
      (mem_paths_iff.1 hpath).elim fun other hother => hothers other hother.1 hother.2
    rw [List.nil_append, List.nil_append, settings_cons_of_path h, if_neg hnew]
  | cons first before ih =>
    obtain ⟨hfirst, hrest⟩ := List.forall_mem_cons.1 hothers
    have ih := ih hrest
    rw [List.cons_append, List.cons_append]
    cases hpath : path? first.1 with
    | none => rwa [settings_cons_of_none hpath, settings_cons_of_none hpath]
    | some other =>
      have hne : other ≠ path := fun he => hfirst (he ▸ hpath)
      have hnames : other ∈ (settings (before ++ (label, text) :: after)).map Prod.fst ↔
          other ∈ (settings (before ++ after)).map Prod.fst := by
        rw [(ih.map Prod.fst).mem_iff, List.map_cons, List.mem_cons]
        exact or_iff_right hne
      rw [settings_cons_of_path hpath, settings_cons_of_path hpath]
      simp only [hnames]
      split
      · exact ih
      · exact (ih.cons _).trans (List.Perm.swap _ _ _)

theorem lays_settings (environment : List (String × String)) :
    Lays (settings environment) fun value => value.isTable = false := by
  intro entry hentry
  obtain ⟨⟨label, text⟩, -, -, hvalue⟩ := mem_settings hentry
  rw [hvalue]
  refine ⟨isTable_value text, ?_⟩
  rw [entries_of_not_isTable (isTable_value text)]
  exact fun _ hinner => nomatch hinner

theorem value_of_text {text : String} (htrue : text.toLower ≠ "true")
    (hfalse : text.toLower ≠ "false") (hinteger : Text.signed? text.toList = none)
    (hnumber : Binary64.ofText? text = none) : value text = .text text := by
  rw [value, if_neg htrue, if_neg hfalse, hinteger, Option.filter_none, hnumber]

theorem path_of_variable {entry : String × SettingKey} (h : entry ∈ SettingKey.byVariable) :
    (path? entry.1).map ConfigPath.ofName = some [.name entry.2.group, .name entry.2.name] := by
  have hall : ∀ entry ∈ SettingKey.byVariable, (path? entry.1).map ConfigPath.ofName =
      some [.name entry.2.group, .name entry.2.name] := by decide +kernel
  exact hall entry h

theorem path?_ne_of_silent {environment : List (String × String)} {group name path : String}
    (hname : ConfigPath.ofName path = [.name group, .name name])
    (h : Silent (settings environment) group name) :
    ∀ other ∈ environment, path? other.1 ≠ some path := by
  intro other hother hpath
  obtain ⟨entry, hentry, rfl⟩ := List.mem_map.1 (mem_paths_iff.2 ⟨other, hother, hpath⟩)
  have hconcerns := h entry hentry
  rw [hname] at hconcerns
  simp [concerns] at hconcerns

/-- A variable of a key gives it its value if the other variables say nothing of the key. -/
theorem own?_of_variable {entry : String × SettingKey} (h : entry ∈ SettingKey.byVariable)
    {before after : List (String × String)} {text : String} {assigned : SettingsSource}
    (hassigned : assigned.Perm (settings (before ++ (entry.1, text) :: after)))
    (hothers : Silent (settings (before ++ after)) entry.2.group entry.2.name) :
    assigned.own? entry.2.group entry.2.name = some (value text) := by
  obtain ⟨path, hpath, hname⟩ := Option.map_eq_some_iff.1 (path_of_variable h)
  have hperm := hassigned.trans (settings_perm hpath (path?_ne_of_silent hname hothers))
  refine own?_of_gives hperm ?_ hothers
  rw [hname]
  exact .atPath (isTable_value text)

theorem silent_of_others {environment : List (String × String)} {group name : String}
    (h : ∀ entry ∈ environment, ∀ path, path? entry.1 = some path →
      ∃ group' name', ConfigPath.ofName path = [.name group', .name name'] ∧
        (group' ≠ group ∨ name' ≠ name)) :
    Silent (settings environment) group name := by
  intro entry hentry
  obtain ⟨origin, horigin, hpath, -⟩ := mem_settings hentry
  obtain ⟨group', name', hname, hother⟩ := h origin horigin entry.1 hpath
  rw [hname, concerns, Bool.and_eq_false_iff, beq_eq_false_iff_ne, beq_eq_false_iff_ne]
  exact hother

/-- The text of the variable that has a name of its own for a key, if the key has one. -/
def override? (environment : List (String × String)) (group name : String) : Option String :=
  if group = "postgres" ∧ name = "url" then environment.lookup "DATABASE_URL"
  else if group = "redis" ∧ name = "host_name" then environment.lookup "REDIS_HOST_NAME"
  else none

theorem ofName_override :
    ConfigPath.ofName "postgres.url" = [.name "postgres", .name "url"] ∧
      ConfigPath.ofName "redis.host_name" = [.name "redis", .name "host_name"] := by
  constructor <;> cbv

/-- What a variable with a name of its own says, if it is set. -/
def ownName (environment : List (String × String)) (label path : String) : SettingsSource :=
  ((environment.lookup label).map fun text => (path, ConfigValue.text text)).toList

theorem overrides_eq (environment : List (String × String)) :
    overrides environment =
      ownName environment "DATABASE_URL" "postgres.url" ++
        ownName environment "REDIS_HOST_NAME" "redis.host_name" := by
  simp only [overrides, ownName, List.filterMap_cons, List.filterMap_nil]
  cases environment.lookup "DATABASE_URL" <;> cases environment.lookup "REDIS_HOST_NAME" <;> rfl

section

variable {environment : List (String × String)} {label path first second group name : String}

theorem silent_ownName (hpath : ConfigPath.ofName path = [.name first, .name second])
    (hother : first ≠ group ∨ second ≠ name) :
    Silent (ownName environment label path) group name := by
  intro entry hentry
  obtain ⟨text, -, rfl⟩ := Option.map_eq_some_iff.1 (Option.mem_toList.1 hentry)
  rw [hpath, concerns, Bool.and_eq_false_iff, beq_eq_false_iff_ne, beq_eq_false_iff_ne]
  exact hother

theorem replaces_ownName (hpath : ConfigPath.ofName path = [.name first, .name second])
    (group : String) : (ownName environment label path).replaces group = false := by
  refine List.any_eq_false.2 fun entry hentry => ?_
  obtain ⟨text, -, rfl⟩ := Option.map_eq_some_iff.1 (Option.mem_toList.1 hentry)
  rw [hpath]
  exact Bool.false_ne_true

/-- A variable gives its key the text, next to others that are silent about the key. -/
theorem own?_ownName {before after : SettingsSource}
    (hpath : ConfigPath.ofName path = [.name group, .name name])
    (hbefore : Silent before group name) (hafter : Silent after group name) :
    own? (before ++ ownName environment label path ++ after) group name =
      (environment.lookup label).map ConfigValue.text := by
  rw [ownName]
  cases environment.lookup label with
  | none =>
    rw [Option.map_none, Option.toList_none, List.append_nil]
    exact (hbefore.append hafter).leaves.1
  | some text =>
    rw [Option.map_some, Option.toList_some, List.append_assoc]
    refine own?_of_gives List.perm_middle ?_ (hbefore.append hafter)
    rw [hpath]
    exact .atPath rfl

end

theorem replaces_overrides (environment : List (String × String)) (group : String) :
    SettingsSource.replaces (overrides environment) group = false := by
  obtain ⟨hurl, hhost⟩ := ofName_override
  rw [overrides_eq, SettingsSource.replaces, List.any_append]
  exact Bool.or_eq_false_iff.2 ⟨replaces_ownName hurl group, replaces_ownName hhost group⟩

theorem own?_overrides (environment : List (String × String)) (group name : String) :
    own? (overrides environment) group name =
      (override? environment group name).map ConfigValue.text := by
  obtain ⟨hurl, hhost⟩ := ofName_override
  have hnone : Silent [] group name := nofun
  rw [overrides_eq, override?]
  split
  · next hkey =>
    obtain ⟨rfl, rfl⟩ := hkey
    exact own?_ownName hurl hnone (silent_ownName hhost (.inl (by decide)))
  · next hother =>
    have hbefore : Silent (ownName environment "DATABASE_URL" "postgres.url") group name :=
      silent_ownName hurl (by grind)
    split
    · next hkey =>
      obtain ⟨rfl, rfl⟩ := hkey
      rw [← List.append_nil (ownName environment "DATABASE_URL" "postgres.url" ++ _)]
      exact own?_ownName hhost hbefore hnone
    · next hneither => exact (hbefore.append (silent_ownName hhost (by grind))).leaves.1

theorem lays_overrides (environment : List (String × String)) :
    Lays (overrides environment) fun value => value.isTable = false := by
  intro entry hentry
  obtain ⟨names, -, hvalue⟩ := List.mem_filterMap.1 hentry
  obtain ⟨text, -, rfl⟩ := Option.map_eq_some_iff.1 hvalue
  exact ⟨rfl, fun _ hinner => nomatch hinner⟩

end Gatehouse.Environment
