import Gatehouse.Proofs.Session.Keeping
import Gatehouse.Session.Memory

set_option autoImplicit false

/-!
# What is kept in memory

The store of one process keeps its laws. What a load or a save drops on its way had expired.
-/

namespace Gatehouse.MemorySessions

def empty : MemorySessions := {}

def view : TimedView MemorySessions SessionToken (Option Session) where
  now store := store.now
  kept? store token :=
    (store.stored? token).map fun entry => ⟨some entry.session, entry.expiresAt⟩

@[simp] theorem view_now (store : MemorySessions) : view.now store = store.now := rfl

theorem view_kept? (store : MemorySessions) (token : SessionToken) :
    view.kept? store token =
      (store.stored? token).map fun entry => ⟨some entry.session, entry.expiresAt⟩ := rfl

theorem unexpired_empty : view.Unexpired empty := by
  intro token kept hkept
  cases hkept

theorem sets_drop (store : MemorySessions) (token : SessionToken) :
    view.Sets token none store (store.drop token) := by
  refine ⟨rfl, ?_, fun other hne => .inl ?_⟩
  · simp [view_kept?, stored?_drop]
  · simp [view_kept?, stored?_drop, hne]

/-- Where the entry of a token is gone that had expired, and all else is as before, nothing has
changed. -/
theorem steady_dropExpired (store : MemorySessions) (token : SessionToken) :
    view.Steady store (store.dropExpired store.now token) := by
  rw [dropExpired]
  cases h : store.stored? token with
  | none => exact .refl store
  | some entry =>
    by_cases hlt : store.now < entry.expiresAt
    · simpa [isLive, hlt] using TimedView.Steady.refl store
    · simp only [isLive, hlt, decide_false, Bool.false_eq_true, if_false]
      refine ⟨rfl, fun other => ?_⟩
      by_cases hother : other = token
      · subst hother
        refine .inr ⟨(sets_drop store other).kept?_self, fun kept hkept => ?_⟩
        rw [view_kept?, h] at hkept
        cases hkept
        exact Nat.not_lt.1 hlt
      · exact (sets_drop store token).spares other hother

theorem steady_purge (store : MemorySessions) : view.Steady store (store.purge store.now) := by
  refine ⟨rfl, fun token => ?_⟩
  cases h : store.stored? token with
  | none => exact .inl (by simp [view_kept?, stored?_purge, h])
  | some entry =>
    by_cases hlt : store.now < entry.expiresAt
    · exact .inl (by simp [view_kept?, stored?_purge, h, Option.filter, isLive, hlt])
    · refine .inr ⟨by simp [view_kept?, stored?_purge, h, Option.filter, isLive, hlt], ?_⟩
      intro kept hkept
      rw [view_kept?, h] at hkept
      cases hkept
      exact Nat.not_lt.1 hlt

theorem sets_put (store : MemorySessions) (token : SessionToken) (entry : SessionEntry) :
    view.Sets token (some ⟨some entry.session, entry.expiresAt⟩) store (store.put token entry) := by
  refine ⟨rfl, ?_, fun other hne => .inl ?_⟩
  · simp [view_kept?, stored?_put]
  · simp [view_kept?, stored?_put, hne]

theorem live?_load (store : MemorySessions) (token : SessionToken) :
    view.live? store token = (load token store).1.map some := by
  rw [TimedView.live?, view_kept?, load]
  cases h : store.stored? token with
  | none => rfl
  | some entry =>
    by_cases hlt : store.now < entry.expiresAt
    · simp [Kept.live?, Option.filter, isLive, hlt]
    · simp [Kept.live?, Option.filter, isLive, hlt]

theorem steady_load (store : MemorySessions) (token : SessionToken) :
    view.Steady store (load token store).2 := by
  rw [load]
  cases h : store.stored? token with
  | none => exact .refl store
  | some entry =>
    by_cases hlt : store.now < entry.expiresAt
    · simpa [isLive, hlt] using TimedView.Steady.refl store
    · simpa [isLive, hlt] using steady_dropExpired store token

def keeping (ttl : UInt64) : SessionKeeping (store ttl) where
  toTimedView := view
  expiry := expiry ttl
  load_ok := by
    intro token state result after h
    cases h
    exact ⟨live?_load state token, steady_load state token⟩
  load_corrupt := by
    intro token state reason after h
    cases h
  save_ok := by
    intro token session state after h
    cases h
    exact (steady_purge state).sets (sets_put _ token ⟨session, expiry ttl state.now⟩)
  remove_ok := by
    intro token state after h
    cases h
    exact sets_drop state token

end Gatehouse.MemorySessions
