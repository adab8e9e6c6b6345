import Gatehouse.Session.Store

set_option autoImplicit false

/-!
# What a session store keeps

Values are kept under keys until a time. What has expired counts as gone, and a store may drop it at
any step. A store is described by what it keeps before and after each call that succeeds; nothing is
said about a call that fails.
-/

namespace Gatehouse

structure Kept (α : Type) where
  value : α
  expiresAt : Nat
  deriving DecidableEq, Repr

namespace Kept

variable {α : Type}

/-- What is left at a time of what is kept. -/
def live? (now : Nat) (kept? : Option (Kept α)) : Option α :=
  (kept?.filter fun kept => now < kept.expiresAt).map value

def Lasts (now : Nat) (before after : Option (Kept α)) : Prop :=
  after = before ∨ after = none ∧ ∀ kept, before = some kept → kept.expiresAt ≤ now

theorem live?_of_lt {now : Nat} {kept : Kept α} (h : now < kept.expiresAt) :
    live? now (some kept) = some kept.value := by
  simp [live?, Option.filter, h]

theorem live?_of_le {now : Nat} {kept : Kept α} (h : kept.expiresAt ≤ now) :
    live? now (some kept) = none := by
  simp [live?, Option.filter, Nat.not_lt.2 h]

@[simp] theorem live?_none (now : Nat) : live? now (none : Option (Kept α)) = none := rfl

theorem live?_eq_some_iff {now : Nat} {kept? : Option (Kept α)} {value : α} :
    live? now kept? = some value ↔
      ∃ expiresAt, kept? = some ⟨value, expiresAt⟩ ∧ now < expiresAt := by
  cases kept? with
  | none => simp
  | some kept =>
    by_cases h : now < kept.expiresAt
    · rw [live?_of_lt h]
      constructor
      · intro hv
        cases hv
        exact ⟨kept.expiresAt, rfl, h⟩
      · rintro ⟨expiresAt, hk, -⟩
        cases hk
        rfl
    · rw [live?_of_le (Nat.not_lt.1 h)]
      constructor
      · intro hv
        cases hv
      · rintro ⟨expiresAt, hk, hlt⟩
        cases hk
        exact absurd hlt h

namespace Lasts

variable {now : Nat} {a b c : Option (Kept α)}

theorem refl (now : Nat) (a : Option (Kept α)) : Lasts now a a := .inl rfl

theorem trans (hab : Lasts now a b) (hbc : Lasts now b c) : Lasts now a c := by
  rcases hbc with rfl | ⟨hc, hexpired⟩
  · exact hab
  · rcases hab with rfl | ⟨-, hexpired⟩
    · exact .inr ⟨hc, hexpired⟩
    · exact .inr ⟨hc, hexpired⟩

theorem mono {later : Nat} (h : Lasts now a b) (hle : now ≤ later) : Lasts later a b :=
  h.imp_right fun ⟨hb, hexpired⟩ =>
    ⟨hb, fun kept hkept => Nat.le_trans (hexpired kept hkept) hle⟩

theorem live?_eq (h : Lasts now a b) {later : Nat} (hle : now ≤ later) :
    live? later b = live? later a := by
  rcases h with rfl | ⟨rfl, hexpired⟩
  · rfl
  · cases a with
    | none => rfl
    | some kept =>
      rw [live?_of_le (Nat.le_trans (hexpired kept rfl) hle)]
      rfl

theorem eq_of_live? {value : α} (h : Lasts now a b) (hlive : live? now a = some value) : b = a := by
  rcases h with hb | ⟨-, hexpired⟩
  · exact hb
  · obtain ⟨expiresAt, ha, hlt⟩ := live?_eq_some_iff.1 hlive
    exact absurd (hexpired _ ha) (Nat.not_le.2 hlt)

theorem eq_none (h : Lasts now none b) : b = none := by
  rcases h with rfl | ⟨hb, -⟩
  · rfl
  · exact hb

theorem map {β : Type} (f : Kept α → Kept β) (hf : ∀ kept, (f kept).expiresAt = kept.expiresAt)
    (h : Lasts now a b) : Lasts now (a.map f) (b.map f) := by
  rcases h with rfl | ⟨rfl, hexpired⟩
  · exact .refl now _
  · refine .inr ⟨rfl, fun kept hkept => ?_⟩
    obtain ⟨original, ha, rfl⟩ := Option.map_eq_some_iff.1 hkept
    rw [hf]
    exact hexpired original ha

end Lasts

end Kept

structure TimedView (σ κ α : Type) where
  now : σ → Nat
  kept? : σ → κ → Option (Kept α)

namespace TimedView

variable {σ κ α : Type} (view : TimedView σ κ α)

def live? (state : σ) (key : κ) : Option α :=
  Kept.live? (view.now state) (view.kept? state key)

def Spares (state after : σ) (key : κ) : Prop :=
  Kept.Lasts (view.now state) (view.kept? state key) (view.kept? after key)

/-- Nothing has changed at all. -/
structure Steady (state after : σ) : Prop where
  now_eq : view.now after = view.now state
  spares : ∀ key, view.Spares state after key

/-- One key has something new, or nothing any more; nothing else has changed. -/
structure Sets (key : κ) (kept : Option (Kept α)) (state after : σ) : Prop where
  now_eq : view.now after = view.now state
  kept?_self : view.kept? after key = kept
  spares : ∀ other, other ≠ key → view.Spares state after other

structure Passes (state after : σ) : Prop where
  now_le : view.now state ≤ view.now after
  lasts : ∀ key, Kept.Lasts (view.now after) (view.kept? state key) (view.kept? after key)

variable {view} {state after later : σ} {key other : κ}

theorem Steady.refl (state : σ) : view.Steady state state :=
  ⟨rfl, fun _ => .refl _ _⟩

theorem Steady.live?_eq (h : view.Steady state after) (key : κ) :
    view.live? after key = view.live? state key := by
  rw [live?, h.now_eq]
  exact (h.spares key).live?_eq (Nat.le_refl _)

theorem Steady.sets {kept : Option (Kept α)} (h : view.Steady state after)
    (hsets : view.Sets key kept after later) : view.Sets key kept state later := by
  refine ⟨hsets.now_eq.trans h.now_eq, hsets.kept?_self, fun other hne => ?_⟩
  have hspares := hsets.spares other hne
  rw [Spares, h.now_eq] at hspares
  exact (h.spares other).trans hspares

theorem Sets.live?_eq {kept : Option (Kept α)} (h : view.Sets key kept state after)
    (hne : other ≠ key) : view.live? after other = view.live? state other := by
  rw [live?, h.now_eq]
  exact (h.spares other hne).live?_eq (Nat.le_refl _)

theorem Sets.eq_of_live? {kept : Kept α} (h : view.Sets key (some kept) state after) {value : α}
    (hlive : view.live? after key = some value) : value = kept.value := by
  rw [live?, h.kept?_self] at hlive
  obtain ⟨expiresAt, hkept, -⟩ := Kept.live?_eq_some_iff.1 hlive
  cases hkept
  rfl

theorem Sets.live?_self_none (h : view.Sets key none state after) :
    view.live? after key = none := by
  rw [live?, h.kept?_self]
  rfl

theorem Passes.trans (h : view.Passes state after) (h' : view.Passes after later) :
    view.Passes state later :=
  ⟨Nat.le_trans h.now_le h'.now_le, fun key => ((h.lasts key).mono h'.now_le).trans (h'.lasts key)⟩

theorem Passes.live?_eq (h : view.Passes after later) (key : κ) :
    view.live? later key = Kept.live? (view.now later) (view.kept? after key) :=
  (h.lasts key).live?_eq (Nat.le_refl _)

theorem Passes.live?_before (h : view.Passes after later) {value : α}
    (hlive : view.live? later key = some value) : view.live? after key = some value := by
  rw [h.live?_eq] at hlive
  obtain ⟨expiresAt, hkept, hlt⟩ := Kept.live?_eq_some_iff.1 hlive
  exact Kept.live?_eq_some_iff.2 ⟨expiresAt, hkept, Nat.lt_of_le_of_lt h.now_le hlt⟩

theorem Passes.live?_none (h : view.Passes after later) (hnone : view.live? after key = none) :
    view.live? later key = none := by
  cases hlater : view.live? later key with
  | none => rfl
  | some value =>
    rw [h.live?_before hlater] at hnone
    cases hnone

variable (view) in
/-- Nothing that is kept has expired. -/
def Unexpired (state : σ) : Prop :=
  ∀ key kept, view.kept? state key = some kept → view.now state < kept.expiresAt

namespace Unexpired

variable (h : view.Unexpired state)
include h

theorem kept?_eq (hspares : view.Spares state after key) :
    view.kept? after key = view.kept? state key := by
  rcases hspares with heq | ⟨hnone, hexpired⟩
  · exact heq
  · cases hkept : view.kept? state key with
    | none => exact hnone
    | some kept => exact absurd (hexpired kept hkept) (Nat.not_le.2 (h key kept hkept))

theorem live?_eq (key : κ) : view.live? state key = (view.kept? state key).map Kept.value := by
  rw [live?]
  cases hkept : view.kept? state key with
  | none => rfl
  | some kept => rw [Kept.live?_of_lt (h key kept hkept), Option.map_some]

theorem of_steady (hsteady : view.Steady state after) : view.Unexpired after := by
  intro key kept hkept
  rw [h.kept?_eq (hsteady.spares key)] at hkept
  rw [hsteady.now_eq]
  exact h key kept hkept

theorem of_sets {put : Option (Kept α)} (hsets : view.Sets key put state after)
    (hput : ∀ kept, put = some kept → view.now state < kept.expiresAt) :
    view.Unexpired after := by
  intro other kept hkept
  rw [hsets.now_eq]
  by_cases heq : other = key
  · rw [heq, hsets.kept?_self] at hkept
    exact hput kept hkept
  · rw [h.kept?_eq (hsets.spares other heq)] at hkept
    exact h other kept hkept

theorem of_removed (hsets : view.Sets key none state after) : view.Unexpired after :=
  h.of_sets hsets (by simp)

end Unexpired

end TimedView

/-- What the calls of a session store do to what it keeps. A payload that is no session is kept as
`none`. -/
structure SessionKeeping {σ : Type} (store : SessionStore σ) extends
    TimedView σ SessionToken (Option Session) where
  /-- When a session saved at a given time expires. -/
  expiry : Nat → Nat
  load_ok : ∀ {token state result after},
    (store.load token).runFrom state = (.ok result, after) →
      toTimedView.live? state token = result.map some ∧ toTimedView.Steady state after
  load_corrupt : ∀ {token state reason after},
    (store.load token).runFrom state = (.error (.corrupt reason), after) →
      toTimedView.live? state token = some none ∧ toTimedView.Steady state after
  save_ok : ∀ {token session state after},
    (store.save token session).runFrom state = (.ok (), after) →
      toTimedView.Sets token (some ⟨some session, expiry (now state)⟩) state after
  remove_ok : ∀ {token state after},
    (store.remove token).runFrom state = (.ok (), after) →
      toTimedView.Sets token none state after

namespace SessionKeeping

variable {σ : Type} {store : SessionStore σ} (keeping : SessionKeeping store)

/-- The session that a token stands for, if it is there and can be read. -/
def session? (state : σ) (token : SessionToken) : Option Session :=
  (keeping.live? state token).join

/-- The session that a visitor has: the stored one, or else a new one. -/
def session (state : σ) (presented : Option SessionToken) : Session :=
  (presented.bind (keeping.session? state)).getD .new

end SessionKeeping

end Gatehouse
