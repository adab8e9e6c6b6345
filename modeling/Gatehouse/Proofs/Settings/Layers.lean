import Gatehouse.Settings.Path
import Mathlib.Data.List.Nodup

set_option autoImplicit false

/-!
# Sources laid over each other

What a source does to one name in one group. Most sources leave it alone or set it. A source that
gives the group as anything but a table takes the place of all that was said of the group before.
-/

namespace Gatehouse

/-- Values with the names that they are for, each laid over those before it. -/
abbrev SettingsSource := List (String × ConfigValue)

namespace ConfigValue

def IsSingle (value : ConfigValue) : Prop := value.entries = [] ∧ value.items = []

def isTable : ConfigValue → Bool
  | table _ => true
  | _ => false

/-- A value of its own, and neither a list nor a table, be it empty. -/
def isPlain : ConfigValue → Bool
  | list _ => false
  | table _ => false
  | _ => true

def named? (group name : String) (value : ConfigValue) : Option ConfigValue :=
  (value.get? group).bind (·.get? name)

/-- The group is missing or a table. -/
def isGrouped (value : ConfigValue) (group : String) : Bool :=
  (value.get? group).all isTable

variable {group name other : String} {value below : ConfigValue}
  {entries : List (String × ConfigValue)}

theorem isSingle_absent : absent.IsSingle := ⟨rfl, rfl⟩

theorem isSingle_getD {found : Option ConfigValue}
    (h : ∀ value, found = some value → value.IsSingle) : (found.getD absent).IsSingle := by
  cases found with
  | none => exact isSingle_absent
  | some value => exact h value rfl

/-- The changes that lay values over others, at the place itself or further inside. -/
inductive Merges (allowed : ConfigValue → Prop) : (ConfigValue → ConfigValue) → Prop
  | overlay {value : ConfigValue} (h : allowed value) : Merges allowed (overlay · value)
  | name (name : String) (f : ConfigValue → ConfigValue) : Merges allowed (changeName name f)
  | index (index : Int) (f : ConfigValue → ConfigValue) : Merges allowed (changeItem index f)
  | comp {f g : ConfigValue → ConfigValue} (hf : Merges allowed f) (hg : Merges allowed g) :
      Merges allowed fun value => g (f value)

variable {allowed : ConfigValue → Prop} {f : ConfigValue → ConfigValue}

theorem merges_changeAt (h : allowed value) (path : ConfigPath) :
    Merges allowed (changeAt (overlay · value) path) := by
  cases path with
  | nil => exact .overlay h
  | cons step path =>
    cases step with
    | name name => exact .name name _
    | index index => exact .index index _

theorem overlay_of_isSingle (h : below.IsSingle) (value : ConfigValue) :
    overlay below value = overlay absent value := by
  cases value with
  | table entries =>
    rw [overlay, overlay, h.1]
    rfl
  | absent | flag | integer | number | text | list => simp only [overlay]

theorem Merges.of_isSingle (h : Merges allowed f) (hbelow : below.IsSingle) :
    f below = f absent := by
  induction h with
  | overlay => exact overlay_of_isSingle hbelow _
  | name name f => rw [changeName, changeName, hbelow.1]; rfl
  | index index f => rw [changeItem, changeItem, hbelow.2]; rfl
  | comp hf hg ihf ihg => exact congrArg _ ihf

inductive StandsFor : ConfigValue → ConfigValue → Prop
  | same (value : ConfigValue) : StandsFor value value
  | lists (items items' : List ConfigValue) : StandsFor (list items) (list items')
  | tables {entries entries' : List (String × ConfigValue)} (hsome : entries ≠ [])
      (hnodup : (entries.map Prod.fst).Nodup)
      (hnames : ∀ name ∈ entries.map Prod.fst, name ∈ entries'.map Prod.fst) :
      StandsFor (table entries) (table entries')

theorem mem_names_changeEntry {f : ConfigValue → ConfigValue} :
    other ∈ (changeEntry name f entries).map Prod.fst ↔
      other = name ∨ other ∈ entries.map Prod.fst := by
  induction entries with
  | nil => simp [changeEntry]
  | cons entry entries ih =>
    obtain ⟨key, value⟩ := entry
    by_cases hkey : key = name
    · subst hkey
      simp [changeEntry]
    · rw [changeEntry, if_neg hkey]
      simp only [List.map_cons, List.mem_cons, ih]
      grind

theorem nodup_names_changeEntry {f : ConfigValue → ConfigValue}
    (h : (entries.map Prod.fst).Nodup) : ((changeEntry name f entries).map Prod.fst).Nodup := by
  induction entries with
  | nil => simp [changeEntry]
  | cons entry entries ih =>
    obtain ⟨key, value⟩ := entry
    obtain ⟨hkey, hrest⟩ := List.nodup_cons.1 h
    by_cases hname : key = name
    · subst hname
      rw [changeEntry, if_pos rfl]
      exact List.nodup_cons.2 ⟨hkey, hrest⟩
    · rw [changeEntry, if_neg hname]
      refine List.nodup_cons.2 ⟨?_, ih hrest⟩
      rw [mem_names_changeEntry]
      exact fun hmem => hmem.elim hname hkey

theorem changeEntry_ne_nil {f : ConfigValue → ConfigValue} :
    changeEntry name f entries ≠ [] := by
  cases entries with
  | nil => exact List.cons_ne_nil _ _
  | cons entry entries =>
    obtain ⟨key, value⟩ := entry
    rw [changeEntry]
    split <;> exact List.cons_ne_nil _ _

theorem standsFor_changeName {entries' : List (String × ConfigValue)}
    (hnodup : (entries.map Prod.fst).Nodup)
    (hnames : ∀ name ∈ entries.map Prod.fst, name ∈ entries'.map Prod.fst) :
    StandsFor (table (changeEntry name f entries)) (table (changeEntry name f entries')) := by
  refine .tables changeEntry_ne_nil (nodup_names_changeEntry hnodup) fun other hother => ?_
  rw [mem_names_changeEntry] at hother ⊢
  exact hother.imp_right (hnames other)

theorem overlay_of_not_isTable (h : value.isTable = false) (below : ConfigValue) :
    overlay below value = value := by
  cases value with
  | table entries => cases h
  | absent | flag | integer | number | text | list => simp only [overlay]

theorem entries_of_not_isTable (h : value.isTable = false) : value.entries = [] := by
  cases value with
  | table entries => cases h
  | absent | flag | integer | number | text | list => rfl

theorem Merges.standsFor (h : Merges (fun value => value.isTable = false) f)
    {value below : ConfigValue} (hvalue : StandsFor value below ∨ value = absent) :
    StandsFor (f value) (f below) := by
  induction h generalizing value below with
  | overlay hsingle =>
    dsimp only
    rw [overlay_of_not_isTable hsingle, overlay_of_not_isTable hsingle]
    exact .same _
  | name name f =>
    rcases hvalue with (_ | _ | ⟨hsome, hnodup, hnames⟩) | rfl
    · exact .same _
    · exact .same _
    · exact standsFor_changeName hnodup hnames
    · exact standsFor_changeName List.nodup_nil fun _ hmem => nomatch hmem
  | index index f =>
    rcases hvalue with (_ | _ | ⟨hsome, hnodup, hnames⟩) | rfl
    · exact .same _
    · exact .lists _ _
    · exact .same _
    · exact .lists _ _
  | comp hf hg ihf ihg => exact ihg (.inl (ihf hvalue))

/-- A value that is laid over the whole group and is no table, or over an item of it. -/
def replaces (group : String) (value : ConfigValue) : ConfigPath → Bool
  | [.name first] => first == group && !value.isTable
  | .name first :: .index _ :: _ => first == group
  | _ => false

theorem get?_overlayEntries (name : String) (entries : List (String × ConfigValue)) :
    (∀ below, (overlayEntries below entries).get? name = below.get? name) ∨
      ∃ f, (∀ {allowed}, (∀ entry ∈ entries, allowed entry.2) → Merges allowed f) ∧
        ∀ below, (overlayEntries below entries).get? name =
          some (f ((below.get? name).getD absent)) := by
  induction entries with
  | nil => exact .inl fun below => by rw [overlayEntries]
  | cons entry entries ih =>
    obtain ⟨other, value⟩ := entry
    by_cases hname : name = other
    · subst hname
      rcases ih with hsame | ⟨f, hf, hset⟩
      · refine .inr ⟨_, fun hallowed => .overlay (hallowed _ List.mem_cons_self), ?_⟩
        intro below
        rw [overlayEntries, hsame, get?_changeName, if_pos rfl]
      · refine .inr ⟨_, fun hallowed => .comp (.overlay (hallowed _ List.mem_cons_self))
          (hf fun entry hentry => hallowed entry (List.mem_cons_of_mem _ hentry)), ?_⟩
        intro below
        rw [overlayEntries, hset, get?_changeName, if_pos rfl, Option.getD_some]
    · rcases ih with hsame | ⟨f, hf, hset⟩
      · refine .inl fun below => ?_
        rw [overlayEntries, hsame, get?_changeName, if_neg hname]
      · refine .inr ⟨f, fun hallowed =>
          hf fun entry hentry => hallowed entry (List.mem_cons_of_mem _ hentry), ?_⟩
        intro below
        rw [overlayEntries, hset, get?_changeName, if_neg hname]

theorem named?_eq (group name : String) (value : ConfigValue) :
    named? group name value = ((value.get? group).getD absent).get? name := by
  rw [named?]
  cases value.get? group <;> rfl

/-- What one value does to a name in a group: it takes the place of the group, leaves the name
alone, or is merged into what is there. -/
theorem named?_set (group name : String) (value : ConfigValue) (first : String)
    (rest : ConfigPath) :
    (replaces group value (.name first :: rest) = true ∧
      ∀ below, named? group name (set (.name first :: rest) value below) = none) ∨
    replaces group value (.name first :: rest) = false ∧
      ((∀ below, named? group name (set (.name first :: rest) value below) =
        named? group name below) ∨
      ∃ f, (∀ {allowed}, allowed value → (∀ entry ∈ value.entries, allowed entry.2) →
          Merges allowed f) ∧
        ∀ below, named? group name (set (.name first :: rest) value below) =
          some (f ((named? group name below).getD absent))) := by
  by_cases hgroup : group = first
  · subst hgroup
    have hget (below : ConfigValue) :
        named? group name (set (.name group :: rest) value below) =
          (changeAt (overlay · value) rest ((below.get? group).getD absent)).get? name := by
      rw [named?_eq, set, changeAt, get?_changeName, if_pos rfl, Option.getD_some]
    simp only [hget, named?_eq]
    cases rest with
    | nil =>
      cases hvalue : value.isTable with
      | false =>
        refine .inl ⟨by simp [replaces, hvalue], fun below => ?_⟩
        rw [changeAt, overlay_of_not_isTable hvalue, ConfigValue.get?,
          entries_of_not_isTable hvalue]
        rfl
      | true =>
        cases value with
        | table entries =>
          refine .inr ⟨by simp [replaces, isTable], ?_⟩
          simp only [changeAt, overlay]
          rcases get?_overlayEntries name entries with hsame | ⟨f, hf, hset⟩
          · exact .inl fun below => hsame _
          · exact .inr ⟨f, fun _ hentries => hf hentries, fun below => hset _⟩
        | absent | flag | integer | number | text | list => cases hvalue
    | cons step rest =>
      cases step with
      | index index => exact .inl ⟨by simp [replaces], fun below => rfl⟩
      | name other =>
        refine .inr ⟨rfl, ?_⟩
        simp only [changeAt, get?_changeName]
        by_cases hname : name = other
        · subst hname
          exact .inr ⟨_, fun hvalue _ => merges_changeAt hvalue rest, fun below => if_pos rfl⟩
        · exact .inl fun below => if_neg hname
  · have hreplaces : replaces group value (.name first :: rest) = false := by
      have hfirst : (first == group) = false := beq_eq_false_iff_ne.2 (Ne.symm hgroup)
      rcases rest with _ | ⟨_ | _, _⟩ <;> simp [replaces, hfirst]
    refine .inr ⟨hreplaces, .inl fun below => ?_⟩
    rw [named?_eq, set, changeAt, get?_changeName, if_neg hgroup, named?_eq]

/-- Some part of the value is laid over this name in this group, or over the group as a whole. -/
def concerns (group name : String) (value : ConfigValue) : ConfigPath → Bool
  | [.name first] =>
    first == group && (!value.isTable || (value.entries.map Prod.fst).contains name)
  | .name first :: .name other :: _ => first == group && other == name
  | .name first :: .index _ :: _ => first == group
  | _ => false

theorem get?_overlayEntries_of_notMem (h : name ∉ entries.map Prod.fst) (below : ConfigValue) :
    (overlayEntries below entries).get? name = below.get? name := by
  induction entries generalizing below with
  | nil => rw [overlayEntries]
  | cons entry entries ih =>
    obtain ⟨other, value⟩ := entry
    rw [List.map_cons, List.mem_cons, not_or] at h
    rw [overlayEntries, ih h.2, get?_changeName, if_neg h.1]

theorem overlayEntries_append (below : ConfigValue) (before after : List (String × ConfigValue)) :
    overlayEntries below (before ++ after) = overlayEntries (overlayEntries below before) after := by
  induction before generalizing below with
  | nil => rw [List.nil_append, overlayEntries]
  | cons entry before ih => rw [List.cons_append, overlayEntries, overlayEntries, ih]

theorem replaces_of_not_concerns {path : ConfigPath} (h : concerns group name value path = false) :
    replaces group value path = false := by
  unfold concerns at h
  unfold replaces
  split at h <;> simp_all

theorem named?_set_of_not_concerns {first : String} {rest : ConfigPath}
    (h : concerns group name value (.name first :: rest) = false) (below : ConfigValue) :
    named? group name (set (.name first :: rest) value below) = named? group name below := by
  rw [named?_eq, set, changeAt, get?_changeName, named?_eq]
  split
  · next hgroup =>
    subst hgroup
    rw [Option.getD_some]
    cases rest with
    | nil =>
      rw [concerns, beq_self_eq_true, Bool.true_and, Bool.or_eq_false_iff] at h
      cases value with
      | table entries =>
        rw [changeAt, overlay]
        have hname : name ∉ entries.map Prod.fst := by simpa [ConfigValue.entries] using h.2
        exact get?_overlayEntries_of_notMem hname _
      | absent | flag | integer | number | text | list => cases h.1
    | cons step rest =>
      cases step with
      | index index => simp [concerns] at h
      | name other =>
        have hname : name ≠ other := fun he => by simp [concerns, he] at h
        rw [changeAt, get?_changeName, if_neg hname]
  · rfl

/-- A value gives another to a name in a group: at the path of the name, or in a table for the
group, where the name stands once. -/
inductive Gives (group name : String) : ConfigPath → ConfigValue → ConfigValue → Prop
  | atPath {value : ConfigValue} (h : value.isTable = false) :
      Gives group name [.name group, .name name] value value
  | inTable {value : ConfigValue} {before after : List (String × ConfigValue)}
      (h : value.isTable = false) (honce : name ∉ (before ++ after).map Prod.fst) :
      Gives group name [.name group] (.table (before ++ (name, value) :: after)) value

theorem named?_set_of_gives {path : ConfigPath} {given : ConfigValue}
    (h : Gives group name path value given) (below : ConfigValue) :
    named? group name (set path value below) = some given := by
  cases h with
  | atPath htable =>
    rw [named?_eq, set, changeAt, get?_changeName, if_pos rfl, Option.getD_some, changeAt,
      get?_changeName, if_pos rfl, changeAt, overlay_of_not_isTable htable]
  | inTable htable honce =>
    rw [List.map_append, List.mem_append, not_or] at honce
    rw [named?_eq, set, changeAt, get?_changeName, if_pos rfl, Option.getD_some, changeAt, overlay,
      overlayEntries_append, overlayEntries, get?_overlayEntries_of_notMem honce.2, get?_changeName,
      if_pos rfl, overlay_of_not_isTable htable]

theorem isGrouped_of_any (h : (value.get? group).any isTable = true) :
    value.isGrouped group = true := by
  rw [isGrouped]
  cases hheld : value.get? group with
  | none => rfl
  | some held => rwa [hheld] at h

theorem isTable_overlayEntries (h : below.isTable = true) (entries : List (String × ConfigValue)) :
    (overlayEntries below entries).isTable = true := by
  induction entries generalizing below with
  | nil => rwa [overlayEntries]
  | cons entry entries ih => exact ih rfl

theorem get?_set_of_tables {first : String} {rest : ConfigPath}
    (h : replaces group value (.name first :: rest) = false) :
    (∀ below, (set (.name first :: rest) value below).get? group = below.get? group) ∨
      ∀ below, ((set (.name first :: rest) value below).get? group).any isTable = true := by
  simp only [set, changeAt, get?_changeName]
  by_cases hgroup : group = first
  · subst hgroup
    simp only [if_pos, Option.any_some]
    refine .inr fun below => ?_
    cases rest with
    | nil =>
      cases value with
      | table entries => exact isTable_overlayEntries rfl entries
      | absent | flag | integer | number | text | list => simp [replaces, isTable] at h
    | cons step rest =>
      cases step with
      | name other => rfl
      | index index => simp [replaces] at h
  · exact .inl fun below => if_neg hgroup

end ConfigValue

namespace ConfigPath

theorem ofName_eq (name : String) : ∃ first rest, ofName name = .name first :: rest := by
  rw [ofName]
  cases hread : read? name with
  | none => exact ⟨name, [], rfl⟩
  | some path =>
    obtain ⟨⟨first, after⟩, -, hsteps⟩ := Option.bind_eq_some_iff.1 hread
    obtain ⟨rest, -, hpath⟩ := Option.bind_eq_some_iff.1 hsteps
    cases hpath
    exact ⟨first, rest, rfl⟩

end ConfigPath

namespace SettingsSource

open ConfigValue

/-- Some value of the source takes the place of a group. -/
def replaces (source : SettingsSource) (group : String) : Bool :=
  source.any fun entry => ConfigValue.replaces group entry.2 (ConfigPath.ofName entry.1)

/-- What the source says of a name in a group, alone. -/
def own? (source : SettingsSource) (group name : String) : Option ConfigValue :=
  named? group name (setAll source (.table []))

def Lays (source : SettingsSource) (allowed : ConfigValue → Prop) : Prop :=
  ∀ entry ∈ source, allowed entry.2 ∧ ∀ inner ∈ entry.2.entries, allowed inner.2

/-- What a source says of a name in a group, or else what is said below, unless the source takes the
place of the group. -/
def atop? (source : SettingsSource) (group name : String) (lower : Option ConfigValue) :
    Option ConfigValue :=
  match source.own? group name with
  | some value => some value
  | none => if source.replaces group then none else lower

variable {source : SettingsSource} {group name : String} {below : ConfigValue}

theorem named?_setAll (source : SettingsSource) (group name : String) :
    (source.replaces group = true ∧
      ∃ result, ∀ below, named? group name (setAll source below) = result) ∨
    source.replaces group = false ∧
      ((∀ below, named? group name (setAll source below) = named? group name below) ∨
      ∃ f, (∀ {allowed}, source.Lays allowed → Merges allowed f) ∧
        ∀ below, named? group name (setAll source below) =
          some (f ((named? group name below).getD absent))) := by
  induction source with
  | nil => exact .inr ⟨rfl, .inl fun below => rfl⟩
  | cons entry source ih =>
    obtain ⟨first, rest, hpath⟩ := ConfigPath.ofName_eq entry.1
    have hset := named?_set group name entry.2 first rest
    have hcons (below : ConfigValue) :
        setAll (entry :: source) below = setAll source (set (.name first :: rest) entry.2 below) := by
      rw [setAll, List.foldl_cons, hpath]
      rfl
    have hreplaces : replaces (entry :: source) group =
        (ConfigValue.replaces group entry.2 (.name first :: rest) || replaces source group) := by
      rw [replaces, List.any_cons, hpath]
      rfl
    simp only [hcons, hreplaces]
    rcases ih with ⟨hsource, result, hresult⟩ | ⟨hsource, hsource'⟩
    · exact .inl ⟨by simp [hsource], result, fun below => hresult _⟩
    · rcases hset with ⟨hfirst, hnone⟩ | ⟨hfirst, hfirst'⟩
      · refine .inl ⟨by simp [hfirst], ?_⟩
        rcases hsource' with hsame | ⟨f, -, hf⟩
        · exact ⟨none, fun below => by rw [hsame, hnone]⟩
        · exact ⟨some (f absent), fun below => by rw [hf, hnone, Option.getD_none]⟩
      · refine .inr ⟨by simp [hfirst, hsource], ?_⟩
        rcases hsource' with hsame | ⟨f, hmerges, hf⟩
        · rcases hfirst' with hsame' | ⟨g, hmerges', hg⟩
          · exact .inl fun below => by rw [hsame, hsame']
          · refine .inr ⟨g, fun hlays => ?_, fun below => by rw [hsame, hg]⟩
            exact hmerges' (hlays _ List.mem_cons_self).1 (hlays _ List.mem_cons_self).2
        · have hrest {allowed} (hlays : Lays (entry :: source) allowed) : Merges allowed f :=
            hmerges fun other hother => hlays other (List.mem_cons_of_mem _ hother)
          rcases hfirst' with hsame' | ⟨g, hmerges', hg⟩
          · exact .inr ⟨f, hrest, fun below => by rw [hf, hsame']⟩
          · refine .inr ⟨fun value => f (g value), fun hlays => ?_,
              fun below => by rw [hf, hg, Option.getD_some]⟩
            exact .comp (hmerges' (hlays _ List.mem_cons_self).1 (hlays _ List.mem_cons_self).2)
              (hrest hlays)

theorem atop?_setAll {lower : Option ConfigValue}
    (hbelow : Option.Rel StandsFor lower (named? group name below))
    (hplain : (source.Lays fun value => value.isTable = false) ∨
      ∀ value, named? group name below = some value → value.IsSingle) :
    Option.Rel StandsFor (source.atop? group name lower)
      (named? group name (setAll source below)) := by
  rw [atop?, own?]
  rcases named?_setAll source group name with ⟨hreplaces, result, hresult⟩ | ⟨hreplaces, hrest⟩
  · rw [hresult, hresult, hreplaces]
    cases result with
    | none => exact .none
    | some value => exact .some (.same value)
  · rcases hrest with hsame | ⟨f, hmerges, hf⟩
    · rw [hsame, hsame, hreplaces]
      exact hbelow
    · rw [hf, hf]
      refine .some ?_
      change StandsFor (f absent) _
      rcases hplain with hlays | hsingle
      · exact (hmerges hlays).standsFor (.inr rfl)
      · have hany : Merges (fun _ => True) f := hmerges fun _ _ => ⟨trivial, fun _ _ => trivial⟩
        rw [hany.of_isSingle (isSingle_getD hsingle)]
        exact .same _

/-- A source none of whose values concerns a name. -/
def Silent (source : SettingsSource) (group name : String) : Prop :=
  ∀ entry ∈ source, concerns group name entry.2 (ConfigPath.ofName entry.1) = false

theorem Silent.named?_setAll (h : source.Silent group name) (below : ConfigValue) :
    named? group name (setAll source below) = named? group name below := by
  induction source generalizing below with
  | nil => rfl
  | cons entry source ih =>
    obtain ⟨hentry, hrest⟩ := List.forall_mem_cons.1 h
    obtain ⟨first, rest, hpath⟩ := ConfigPath.ofName_eq entry.1
    have hset := named?_set_of_not_concerns (hpath ▸ hentry) below
    rw [setAll, List.foldl_cons, hpath]
    exact (ih hrest _).trans hset

theorem Silent.append {other : SettingsSource} (h : source.Silent group name)
    (hother : other.Silent group name) : Silent (source ++ other) group name :=
  List.forall_mem_append.2 ⟨h, hother⟩

theorem Silent.leaves (h : source.Silent group name) :
    source.own? group name = none ∧ source.replaces group = false := by
  refine ⟨h.named?_setAll _, List.any_eq_false.2 fun entry hentry => ?_⟩
  rw [replaces_of_not_concerns (h entry hentry)]
  exact Bool.false_ne_true

theorem Silent.of_perm {other : SettingsSource} (h : source.Silent group name)
    (hperm : other.Perm source) : other.Silent group name :=
  fun entry hentry => h entry (hperm.mem_iff.1 hentry)

theorem Lays.of_perm {other : SettingsSource} {allowed : ConfigValue → Prop}
    (h : source.Lays allowed) (hperm : other.Perm source) : other.Lays allowed :=
  fun entry hentry => h entry (hperm.mem_iff.1 hentry)

theorem own?_of_gives {others : SettingsSource} {entry : String × ConfigValue}
    {value : ConfigValue} (hperm : source.Perm (entry :: others))
    (h : Gives group name (ConfigPath.ofName entry.1) entry.2 value)
    (hothers : others.Silent group name) : source.own? group name = some value := by
  obtain ⟨before, after, rfl⟩ := List.append_of_mem (hperm.mem_iff.2 List.mem_cons_self)
  have hrest : (before ++ after).Perm others :=
    (List.perm_middle.symm.trans hperm).cons_inv
  have hafter : Silent after group name := fun other hother =>
    hothers other (hrest.mem_iff.1 (List.mem_append_right before hother))
  rw [own?, setAll, List.foldl_append, List.foldl_cons]
  exact (hafter.named?_setAll _).trans (named?_set_of_gives h _)

theorem atop?_of_tables {lower : Option ConfigValue} (h : source.replaces group = false) :
    source.atop? group name lower = (source.own? group name).or lower := by
  rw [atop?, h]
  cases source.own? group name <;> rfl

theorem get?_setAll_of_tables (h : source.replaces group = false) :
    (∀ below, (setAll source below).get? group = below.get? group) ∨
      ∀ below, ((setAll source below).get? group).any isTable = true := by
  induction source with
  | nil => exact .inl fun below => rfl
  | cons entry source ih =>
    obtain ⟨first, rest, hpath⟩ := ConfigPath.ofName_eq entry.1
    rw [replaces, List.any_cons, Bool.or_eq_false_iff, hpath] at h
    simp only [setAll, List.foldl_cons, hpath]
    rcases ih h.2 with hsame | htable
    · simp only [setAll] at hsame
      simp only [hsame]
      exact get?_set_of_tables h.1
    · exact .inr fun below => htable _

theorem isGrouped_setAll (hreplaces : source.replaces group = false)
    (h : below.isGrouped group = true) : (setAll source below).isGrouped group = true := by
  rcases get?_setAll_of_tables hreplaces with hsame | htable
  · rwa [isGrouped, hsame]
  · exact isGrouped_of_any (htable below)

theorem isGrouped_of_own? {value : ConfigValue} (hreplaces : source.replaces group = false)
    (h : source.own? group name = some value) (below : ConfigValue) :
    (setAll source below).isGrouped group = true := by
  rcases get?_setAll_of_tables hreplaces with hsame | htable
  · rw [own?, named?, hsame] at h
    cases h
  · exact isGrouped_of_any (htable below)

end SettingsSource

end Gatehouse
