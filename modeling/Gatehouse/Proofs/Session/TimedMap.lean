import Gatehouse.Proofs.Session.Interchange
import Gatehouse.Session.Lifetime

set_option autoImplicit false

/-!
# Sessions in memory as a timed map

What a load finds is told by the calls before it: the session that was saved last under its token,
until that has been removed or its time is over. The clean-up of expired entries does not show, and
no lifetime is too long for the arithmetic.
-/

namespace Gatehouse

namespace TimedView

variable {σ κ α : Type} {view : TimedView σ κ α} {state after later : σ}

theorem Steady.trans (h : view.Steady state after) (h' : view.Steady after later) :
    view.Steady state later := by
  refine ⟨h'.now_eq.trans h.now_eq, fun key => ?_⟩
  have hspares := h'.spares key
  rw [Spares, h.now_eq] at hspares
  exact (h.spares key).trans hspares

end TimedView

theorem toInt_signedWord {n : UInt64} (h : n.toNat ≤ Int64.maxValue.toNatClampNeg) :
    n.toInt64.toInt = n.toNat := by
  have hmax : Int64.maxValue.toNatClampNeg = 0x7FFFFFFFFFFFFFFF := by decide
  rw [Int64.toInt, UInt64.toBitVec_toInt64, BitVec.toInt_eq_toNat_of_lt]
  · rfl
  · simp only [UInt64.toNat_toBitVec]
    omega

theorem toInt_min (a b : Int64) : (min a b).toInt = min a.toInt b.toInt := by
  change (if a ≤ b then a else b).toInt = _
  by_cases h : a ≤ b
  · rw [if_pos h]
    rw [Int64.le_iff_toInt_le] at h
    omega
  · rw [if_neg h]
    rw [Int64.le_iff_toInt_le] at h
    omega

theorem TimeSpan.toInt_maxSeconds :
    TimeSpan.maxSeconds.toInt = 0x7FFFFFFFFFFFFFFF / 1000 := by decide

namespace MemorySessions

theorem toInt_seconds (ttl : UInt64) :
    (min ((signedWord? ttl).getD Int64.maxValue) TimeSpan.maxSeconds).toInt =
      min ttl.toNat (0x7FFFFFFFFFFFFFFF / 1000) := by
  rw [toInt_min, TimeSpan.toInt_maxSeconds]
  by_cases h : ttl.toNat ≤ Int64.maxValue.toNatClampNeg
  · rw [signedWord?, if_pos h, Option.getD_some, toInt_signedWord h]
    omega
  · have hword : Int64.maxValue.toInt = 0x7FFFFFFFFFFFFFFF := by decide
    have hlong : Int64.maxValue.toNatClampNeg = 0x7FFFFFFFFFFFFFFF := by decide
    rw [signedWord?, if_neg h, Option.getD_none, hword]
    omega

theorem span?_eq (ttl : UInt64) :
    ∃ span, span? ttl = some span ∧ span.nanoseconds = lifetime ttl := by
  have hseconds := toInt_seconds ttl
  unfold span?
  generalize min ((signedWord? ttl).getD Int64.maxValue) TimeSpan.maxSeconds = seconds at hseconds ⊢
  have hforward : 0 ≤ seconds := by
    rw [Int64.le_iff_toInt_le, hseconds, Int64.toInt_zero]
    omega
  have hfits : seconds ≤ TimeSpan.maxSeconds := by
    rw [Int64.le_iff_toInt_le, hseconds, TimeSpan.toInt_maxSeconds]
    omega
  refine ⟨⟨seconds, hforward, hfits⟩, dif_pos ⟨hforward, hfits⟩, ?_⟩
  unfold TimeSpan.nanoseconds lifetime Int64.toNatClampNeg
  rw [hseconds]
  rfl

theorem after?_getD {ttl : UInt64} {span : TimeSpan} (h : span.nanoseconds = lifetime ttl)
    (now : Nat) : (span.after? now).getD latest = expiry ttl now := by
  unfold TimeSpan.after? expiry
  rw [h]
  by_cases hle : now + lifetime ttl ≤ latest
  · rw [if_pos hle, Option.getD_some]
    omega
  · rw [if_neg hle, Option.getD_none]
    omega

theorem make?_eq (ttl : UInt64) : make? ttl = some (store ttl) := by
  obtain ⟨span, hspan, hlasts⟩ := span?_eq ttl
  have hsave : saveFor span = save ttl := by
    funext token session sessions
    rw [saveFor, after?_getD hlasts, save]
  rw [make?, hspan, Option.map_some, hsave]
  rfl

variable {ttl : UInt64} {past : List TimedCall} {state after reference : MemorySessions}
  {token : SessionToken} {call : SessionCall} {time : Nat}

theorem runFrom_serve_load (ttl : UInt64) (token : SessionToken) (state : MemorySessions) :
    ((store ttl).serve (.load token)).runFrom state =
      (.ok (load token state).1, (load token state).2) := rfl

theorem runFrom_serve_save (ttl : UInt64) (token : SessionToken) (session : Session)
    (state : MemorySessions) :
    ((store ttl).serve (.save token session)).runFrom state =
      (.ok none, save ttl token session state) :=
  Attempt.runFrom_map _ (Attempt.runFrom_modify _ _)

theorem runFrom_serve_remove (ttl : UInt64) (token : SessionToken) (state : MemorySessions) :
    ((store ttl).serve (.remove token)).runFrom state = (.ok none, state.drop token) :=
  Attempt.runFrom_map _ (Attempt.runFrom_modify _ _)

theorem sets_save (ttl : UInt64) (token : SessionToken) (session : Session)
    (state : MemorySessions) :
    view.Sets token (some ⟨some session, expiry ttl state.now⟩) state
      (save ttl token session state) :=
  (steady_purge state).sets (sets_put _ token ⟨session, expiry ttl state.now⟩)

theorem now_serve (ttl : UInt64) (call : SessionCall) (state : MemorySessions) :
    (((store ttl).serve call).runFrom state).2.now = state.now := by
  cases call with
  | load token => exact (steady_load state token).now_eq
  | save token session =>
    rw [runFrom_serve_save]
    exact (sets_save ttl token session state).now_eq
  | remove token =>
    rw [runFrom_serve_remove]
    exact (sets_drop state token).now_eq

theorem spares_serve (htouches : ¬ call.Touches token) :
    view.Spares state (((store ttl).serve call).runFrom state).2 token := by
  cases call with
  | load other => exact (steady_load state other).spares token
  | save other session =>
    rw [runFrom_serve_save]
    exact (sets_save ttl other session state).spares token (Ne.symm htouches)
  | remove other =>
    rw [runFrom_serve_remove]
    exact (sets_drop state other).spares token (Ne.symm htouches)

theorem stored?_of_spares (h : view.Spares state after token) {entry : SessionEntry}
    (hentry : state.stored? token = some entry) (hlive : state.now < entry.expiresAt) :
    after.stored? token = some entry := by
  rcases h with hsame | ⟨-, hexpired⟩
  · rw [view_kept?, view_kept?, hentry] at hsame
    obtain ⟨found, hfound, heq⟩ := Option.map_eq_some_iff.1 hsame
    cases found
    cases entry
    cases heq
    exact hfound
  · have hle := hexpired ⟨some entry.session, entry.expiresAt⟩ (by rw [view_kept?, hentry]; rfl)
    exact absurd hlive (Nat.not_lt.2 hle)

/-- What a store has come to after calls at times that never go back; the last call comes first. -/
inductive Reaches (ttl : UInt64) : List TimedCall → MemorySessions → Prop
  | start : Reaches ttl [] empty
  | called {past : List TimedCall} {state : MemorySessions} {time : Nat}
      (before : Reaches ttl past state) (later : state.now ≤ time) (call : SessionCall) :
      Reaches ttl ((time, call) :: past)
        (((store ttl).serve call).runFrom (clock.set time state)).2

def told? (ttl : UInt64) (past : List TimedCall) (token : SessionToken) :
    Option (Kept (Option Session)) :=
  (SessionCall.lastSaved? token past).map fun saved => ⟨some saved.2, expiry ttl saved.1⟩

/-- Under each token is what the calls tell, unless that has expired and is gone. -/
def Recalls (ttl : UInt64) (past : List TimedCall) (state : MemorySessions) : Prop :=
  ∀ token, Kept.Lasts state.now (told? ttl past token) (view.kept? state token)

theorem told?_of_not_touches (htouches : ¬ call.Touches token) :
    told? ttl ((time, call) :: past) token = told? ttl past token := by
  unfold told?
  rw [SessionCall.lastSaved?_of_not_touches htouches]

theorem Recalls.called (h : Recalls ttl past state) (hlater : state.now ≤ time)
    (call : SessionCall) :
    Recalls ttl ((time, call) :: past)
      (((store ttl).serve call).runFrom (clock.set time state)).2 := by
  intro token
  rw [now_serve]
  by_cases htouches : call.Touches token
  · cases call with
    | load other => cases htouches
    | save other session =>
      obtain rfl : other = token := htouches
      rw [runFrom_serve_save, told?, SessionCall.lastSaved?, if_pos rfl, Option.map_some]
      exact .inl (sets_save ttl other session (clock.set time state)).kept?_self
    | remove other =>
      obtain rfl : other = token := htouches
      rw [runFrom_serve_remove, told?, SessionCall.lastSaved?, if_pos rfl, Option.map_none]
      exact .inl (sets_drop (clock.set time state) other).kept?_self
  · rw [told?_of_not_touches htouches]
    exact ((h token).mono hlater).trans (spares_serve htouches)

theorem Reaches.recalls (h : Reaches ttl past state) : Recalls ttl past state := by
  induction h with
  | start => exact fun token => .refl _ _
  | called before later call ih => exact ih.called later call

theorem Recalls.load_eq_some_iff (h : Recalls ttl past state) (hlater : state.now ≤ time)
    {session : Session} :
    (load token (clock.set time state)).1 = some session ↔
      ∃ saved, SessionCall.lastSaved? token past = some (saved, session) ∧
        time < expiry ttl saved := by
  have hlive := (h token).live?_eq hlater
  have hload : Kept.live? time (view.kept? state token) =
      (load token (clock.set time state)).1.map some := live?_load (clock.set time state) token
  rw [hload] at hlive
  rw [← (Option.map_injective (Option.some_injective Session)).eq_iff, hlive, Option.map_some,
    Kept.live?_eq_some_iff]
  constructor
  · rintro ⟨expiresAt, htold, hlt⟩
    obtain ⟨⟨saved, found⟩, hsaved, heq⟩ := Option.map_eq_some_iff.1 htold
    cases heq
    exact ⟨saved, hsaved, hlt⟩
  · rintro ⟨saved, hsaved, hlt⟩
    refine ⟨expiry ttl saved, ?_, hlt⟩
    rw [told?, hsaved, Option.map_some]

/-- Entries are put, looked at and taken away, and nothing else happens to them. -/
def timedMap (ttl : UInt64) : SessionStore MemorySessions where
  load token := .ofFunction fun state =>
    (.ok (((state.stored? token).filter (isLive state.now)).map SessionEntry.session), state)
  save token session := modify fun state => state.put token ⟨session, expiry ttl state.now⟩
  remove token := modify (drop · token)

theorem load_timedMap (state : MemorySessions) (token : SessionToken) :
    ((state.stored? token).filter (isLive state.now)).map SessionEntry.session =
      (load token state).1 := by
  unfold load
  cases state.stored? token with
  | none => rfl
  | some entry => by_cases hlive : isLive state.now entry = true <;> simp [Option.filter, hlive]

theorem steady_of_sets {kept : Option (Kept (Option Session))} {referenceAfter : MemorySessions}
    (h : view.Steady reference state) (hsets : view.Sets token kept state after)
    (hnow : referenceAfter.now = reference.now) (hself : view.kept? referenceAfter token = kept)
    (hothers : ∀ other, other ≠ token →
      view.kept? referenceAfter other = view.kept? reference other) :
    view.Steady referenceAfter after := by
  refine ⟨hsets.now_eq.trans (h.now_eq.trans hnow.symm), fun other => ?_⟩
  by_cases heq : other = token
  · subst heq
    exact .inl (hsets.kept?_self.trans hself.symm)
  · have hspared := hsets.spares other heq
    unfold TimedView.Spares at hspared ⊢
    rw [h.now_eq] at hspared
    rw [hothers other heq, view_now, hnow]
    exact (h.spares other).trans hspared

theorem serve_steady (ttl : UInt64) (call : SessionCall) (h : view.Steady reference state) :
    (((timedMap ttl).serve call).runFrom reference).1 =
        (((store ttl).serve call).runFrom state).1 ∧
      view.Steady (((timedMap ttl).serve call).runFrom reference).2
        (((store ttl).serve call).runFrom state).2 := by
  cases call with
  | load token =>
    constructor
    · have hlive := h.live?_eq token
      rw [live?_load, live?_load] at hlive
      have hloaded := Option.map_injective (Option.some_injective Session) hlive
      exact congrArg Except.ok ((load_timedMap reference token).trans hloaded.symm)
    · exact h.trans (steady_load state token)
  | save token session =>
    have hput : ((timedMap ttl).serve (.save token session)).runFrom reference =
        (.ok none, reference.put token ⟨session, expiry ttl reference.now⟩) :=
      Attempt.runFrom_map _ (Attempt.runFrom_modify _ _)
    have hnow : reference.now = state.now := h.now_eq.symm
    have hsets := sets_save ttl token session state
    rw [hput, runFrom_serve_save, hnow]
    refine ⟨rfl, steady_of_sets h hsets rfl ?_ fun other hne => ?_⟩
    · rw [view_kept?, stored?_put, if_pos rfl, Option.map_some]
    · rw [view_kept?, stored?_put, if_neg hne, view_kept?]
  | remove token =>
    have hdrop : ((timedMap ttl).serve (.remove token)).runFrom reference =
        (.ok none, reference.drop token) :=
      Attempt.runFrom_map _ (Attempt.runFrom_modify _ _)
    rw [hdrop, runFrom_serve_remove]
    refine ⟨rfl, steady_of_sets h (sets_drop state token) rfl ?_ fun other hne => ?_⟩
    · exact (sets_drop reference token).kept?_self
    · rw [view_kept?, stored?_drop, if_neg hne, view_kept?]

theorem steady_clock (h : view.Steady reference state) (hlater : reference.now ≤ time) :
    view.Steady (clock.set time reference) (clock.set time state) :=
  ⟨rfl, fun token => (h.spares token).mono hlater⟩

theorem answers_steady (ttl : UInt64) {calls : List TimedCall} (h : view.Steady reference state)
    (hsorted : calls.Pairwise fun a b => a.1 ≤ b.1)
    (hlater : ∀ call ∈ calls, reference.now ≤ call.1) :
    (store ttl).answers clock.set calls state =
      (timedMap ttl).answers clock.set calls reference := by
  induction calls generalizing reference state with
  | nil => rfl
  | cons timed calls ih =>
    obtain ⟨time, call⟩ := timed
    obtain ⟨hfirst, hrest⟩ := List.pairwise_cons.1 hsorted
    have hset := steady_clock h (hlater _ List.mem_cons_self)
    obtain ⟨hanswer, hafter⟩ := serve_steady ttl call hset
    have hnow : (((timedMap ttl).serve call).runFrom (clock.set time reference)).2.now = time :=
      hafter.now_eq.symm.trans (now_serve ttl call _)
    rw [SessionStore.answers, SessionStore.answers, hanswer]
    refine congrArg _ (ih hafter hrest fun next hnext => ?_)
    rw [hnow]
    exact hfirst next hnext

/-- What a store in memory with a given lifetime is to its callers. -/
structure RefinesTimedMap (ttl : UInt64) : Prop where
  /-- The arithmetic by which the store is made, and by which it saves, always has a result. -/
  made : make? ttl = some (store ttl)
  answered (call : SessionCall) (state : MemorySessions) :
    (((store ttl).serve call).runFrom state).1.isOk = true
  /-- A load finds what was saved last and not removed since, while its time is not over. -/
  loaded {past : List TimedCall} {state : MemorySessions} {token : SessionToken} {now : Nat} :
    Reaches ttl past state → state.now ≤ now →
    ∃ found, (((store ttl).load token).runFrom (clock.set now state)).1 = .ok found ∧
      ∀ session, found = some session ↔
        ∃ later time earlier, past = later ++ (time, .save token session) :: earlier ∧
          (∀ call ∈ later, ¬ call.2.Touches token) ∧
          now < min (time + min ttl.toNat (0x7FFFFFFFFFFFFFFF / 1000) * 1000000000) latest
  /-- No clean-up drops or changes an entry whose time is not over. -/
  kept {call : SessionCall} {state : MemorySessions} {token : SessionToken}
      {entry : SessionEntry} : ¬ call.Touches token → state.stored? token = some entry →
    state.now < entry.expiresAt →
    (((store ttl).serve call).runFrom state).2.stored? token = some entry
  /-- Nobody can tell that there is a clean-up. -/
  unseen {calls : List TimedCall} {state : MemorySessions} :
    (calls.Pairwise fun a b => a.1 ≤ b.1) → (∀ call ∈ calls, state.now ≤ call.1) →
    (store ttl).answers clock.set calls state = (timedMap ttl).answers clock.set calls state

/-- Whatever its lifetime, a store in memory is a timed map. -/
theorem refinesTimedMap (ttl : UInt64) : RefinesTimedMap ttl where
  made := make?_eq ttl
  answered call state := by
    cases call with
    | load token => rfl
    | save token session => rw [runFrom_serve_save]; rfl
    | remove token => rw [runFrom_serve_remove]; rfl
  loaded {past state token now} hreaches hlater := by
    refine ⟨_, rfl, fun session => ?_⟩
    rw [hreaches.recalls.load_eq_some_iff hlater]
    constructor
    · rintro ⟨time, hsaved, hlt⟩
      obtain ⟨later, earlier, hpast, huntouched⟩ := SessionCall.lastSaved?_eq_some_iff.1 hsaved
      exact ⟨later, time, earlier, hpast, huntouched, hlt⟩
    · rintro ⟨later, time, earlier, hpast, huntouched, hlt⟩
      exact ⟨time, SessionCall.lastSaved?_eq_some_iff.2 ⟨later, earlier, hpast, huntouched⟩, hlt⟩
  kept htouches hentry hlive := stored?_of_spares (spares_serve htouches) hentry hlive
  unseen hsorted hlater := answers_steady ttl (.refl _) hsorted hlater

/-- The largest lifetime makes a span as well, and ends with the clock. -/
example : ((span? 0xFFFFFFFFFFFFFFFF).bind fun span => span.after? 0) = none ∧
    (make? 0xFFFFFFFFFFFFFFFF).isSome = true ∧ expiry 0xFFFFFFFFFFFFFFFF 0 = latest := by
  decide +kernel

end MemorySessions

end Gatehouse
