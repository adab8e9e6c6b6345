import Gatehouse.Proofs.Http.SessionLayer
import Gatehouse.Session.Gate

set_option autoImplicit false

/-!
# Who is signed in under a token

The two halves of a request, as far as it matters to the gate: the first half changes nobody, and
the second half concerns the token that was presented and the fresh one at most.
-/

namespace Gatehouse

namespace Session

/-- Whom a session lets in, if anybody. -/
def holder? (session : Session) : Option UserId :=
  if session.isAuthenticated then session.userId else none

theorem holder?_eq_none_iff {session : Session} :
    session.holder? = none ↔ session.isAuthenticated = false := by
  cases h : session.isAuthenticated with
  | false => simp [holder?, h]
  | true =>
    have hid := (Bool.and_eq_true_iff.1 h).2
    simp [holder?, h, ← Option.not_isSome_iff_eq_none, hid]

theorem check_eq_ok_iff_holder? (gate : SessionGate) (session : Session) (principal : Principal) :
    gate.check session = .ok principal ↔ session.holder? = some principal.userId := by
  rw [SessionGate.check_eq_ok_iff, holder?, isAuthenticated]
  constructor
  · rintro ⟨hflag, hid⟩
    simp [hflag, hid]
  · intro h
    split at h
    · next hboth => exact ⟨(Bool.and_eq_true_iff.1 hboth).1, h⟩
    · cases h

end Session

namespace SessionKeeping

variable {σ : Type} {store : SessionStore σ} (keeping : SessionKeeping store)

/-- The user that is signed in under a token. -/
def holder? (state : σ) (token : SessionToken) : Option UserId :=
  (keeping.kept? state token).bind fun kept => kept.value.bind Session.holder?

variable {keeping} {state mid after : σ} {presented : Option SessionToken}
  {stored : Option StoredSession} {token fresh : SessionToken} {handle : SessionHandle}
  {change : CookieChange}

theorem holder?_of_kept? {kept : Option (Kept (Option Session))}
    (h : keeping.kept? after token = kept) :
    keeping.holder? after token = kept.bind fun kept => kept.value.bind Session.holder? := by
  rw [holder?, h]

theorem holder?_of_spares (hunexpired : keeping.Unexpired state)
    (hspares : keeping.Spares state after token) :
    keeping.holder? after token = keeping.holder? state token :=
  holder?_of_kept? (hunexpired.kept?_eq hspares)

theorem holder?_eq (hunexpired : keeping.Unexpired state) (token : SessionToken) :
    keeping.holder? state token = (keeping.live? state token).bind fun value =>
      value.bind Session.holder? := by
  rw [hunexpired.live?_eq, holder?, Option.bind_map]
  rfl

namespace Started

variable (hunexpired : keeping.Unexpired state)
  (h : keeping.Started state presented stored after)
include hunexpired h

theorem unexpired : keeping.Unexpired after := by
  cases h with
  | unpresented => exact hunexpired
  | unknown live steady => exact hunexpired.of_steady steady
  | found live steady => exact hunexpired.of_steady steady
  | discarded live sets => exact hunexpired.of_removed sets

theorem holder?_eq (token : SessionToken) :
    keeping.holder? after token = keeping.holder? state token := by
  cases h with
  | unpresented => rfl
  | unknown live steady => exact holder?_of_spares hunexpired (steady.spares token)
  | found live steady => exact holder?_of_spares hunexpired (steady.spares token)
  | @discarded corrupt _ live sets =>
    by_cases heq : token = corrupt
    · rw [heq, holder?_of_kept? sets.kept?_self, SessionKeeping.holder?_eq hunexpired, live]
      rfl
    · exact holder?_of_spares hunexpired (sets.spares token heq)

theorem holder?_presented (hpresented : presented = some token) :
    keeping.holder? state token = (SessionLayer.given stored).holder? := by
  subst hpresented
  rw [SessionKeeping.holder?_eq hunexpired]
  cases h with
  | unknown live steady => rw [live]; rfl
  | found live steady => rw [live]; rfl
  | discarded live sets => rw [live]; rfl

end Started

theorem Started.presented_eq {session : Session}
    (h : keeping.Started state presented (some (token, session)) after) :
    presented = some token := by
  cases h with
  | found live steady => rfl

theorem WrittenBack.issue_eq
    (h : keeping.WrittenBack state fresh handle stored (.issue token) after) : token = fresh := by
  cases h with
  | begun modified nonempty sets => rfl
  | moved modified wasAnonymous isAuthenticated removes sets => rfl

theorem Started.exists_of_holder? {id : UserId} (hunexpired : keeping.Unexpired state)
    (h : keeping.Started state presented stored after)
    (hid : (SessionLayer.given stored).holder? = some id) :
    ∃ token, presented = some token ∧ keeping.holder? state token = some id := by
  cases stored with
  | none => cases hid
  | some stored =>
    have hpresented := Started.presented_eq h
    exact ⟨stored.1, hpresented, (h.holder?_presented hunexpired hpresented).trans hid⟩

/-- What a request means for one token, of which one user is the holder before it and another one
afterwards. The handler was given one session and has left another one. -/
inductive Fate (presented : Option SessionToken) (given left : Session) (change : CookieChange)
    (token : SessionToken) (before after : Option UserId) : Prop
  | issued (issues : change = .issue token) (wasAnonymous : given.holder? = none)
      (holds : after = left.holder?)
  | stayed (notIssued : change ≠ .issue token) (presents : presented = some token)
      (was : before = given.holder?) (holds : after = left.holder?)
      (noRise : given.holder? = none → left.holder? = none)
  | apart (notIssued : change ≠ .issue token) (same : after = before)
      (unheld : presented = some token → before = none)

theorem fate_of_put {shown : SessionToken} {session left : Session}
    {kept : Option (Kept (Option Session))} (hunexpired : keeping.Unexpired state)
    (hstarted : keeping.Started state presented (some (shown, session)) mid)
    (hsets : keeping.Sets shown kept mid after)
    (hholds : (kept.bind fun kept => kept.value.bind Session.holder?) = left.holder?)
    (hnoRise : session.holder? = none → left.holder? = none)
    (hchange : ∀ token, change ≠ .issue token) (token : SessionToken) :
    Fate presented session left change token (keeping.holder? state token)
      (keeping.holder? after token) := by
  have hpresented := hstarted.presented_eq
  by_cases heq : token = shown
  · subst heq
    exact .stayed (hchange token) hpresented (hstarted.holder?_presented hunexpired hpresented)
      ((holder?_of_kept? hsets.kept?_self).trans hholds) hnoRise
  · have hmid := hstarted.unexpired hunexpired
    refine .apart (hchange token) ?_ fun h => ?_
    · rw [holder?_of_spares hmid (hsets.spares token heq)]
      exact hstarted.holder?_eq hunexpired token
    · rw [hpresented] at h
      exact absurd (Option.some.inj h).symm heq

theorem fate_of_issue {left : Session} (hunexpired : keeping.Unexpired state)
    (hstarted : keeping.Started state presented stored mid)
    (hnone : (SessionLayer.given stored).holder? = none)
    (hfresh : keeping.holder? after fresh = left.holder?)
    (hother : ∀ token, token ≠ fresh → presented ≠ some token →
      keeping.holder? after token = keeping.holder? state token)
    (hpresented : ∀ token, token ≠ fresh → presented = some token →
      keeping.holder? after token = none) (token : SessionToken) :
    Fate presented (SessionLayer.given stored) left (.issue fresh) token
      (keeping.holder? state token) (keeping.holder? after token) := by
  by_cases heq : token = fresh
  · subst heq
    exact .issued rfl hnone hfresh
  · have hunheld : presented = some token → keeping.holder? state token = none :=
      fun h => (hstarted.holder?_presented hunexpired h).trans hnone
    refine .apart (by simpa using Ne.symm heq) ?_ hunheld
    by_cases h : presented = some token
    · exact (hpresented token heq h).trans (hunheld h).symm
    · exact hother token heq h

theorem fate (hunexpired : keeping.Unexpired state)
    (hstarted : keeping.Started state presented stored mid)
    (hwritten : keeping.WrittenBack mid fresh handle stored change after)
    (hsame : handle.modified = false → handle.session = SessionLayer.given stored)
    (token : SessionToken) :
    Fate presented (SessionLayer.given stored) handle.session change token
      (keeping.holder? state token) (keeping.holder? after token) := by
  have hmid := hstarted.unexpired hunexpired
  have hbefore := hstarted.holder?_eq hunexpired
  cases hwritten with
  | unchanged modified =>
    by_cases hpresented : presented = some token
    · have hgiven := hstarted.holder?_presented hunexpired hpresented
      rw [hsame modified]
      exact .stayed (by simp) hpresented hgiven ((hbefore token).trans hgiven) id
    · exact .apart (by simp) (hbefore token) fun h => absurd h hpresented
  | unneeded modified empty =>
    exact .apart (by simp) (hbefore token) (hstarted.holder?_presented hunexpired)
  | begun modified nonempty sets =>
    refine fate_of_issue hunexpired hstarted rfl (holder?_of_kept? sets.kept?_self) ?_ ?_ token
    · intro token hne _
      exact (holder?_of_spares hmid (sets.spares token hne)).trans (hbefore token)
    · intro token hne h
      rw [holder?_of_spares hmid (sets.spares token hne), hbefore]
      exact hstarted.holder?_presented hunexpired h
  | ended modified empty sets =>
    rw [empty]
    exact fate_of_put hunexpired hstarted sets rfl (fun _ => rfl) (by simp) token
  | @moved shown session other _ modified wasAnonymous isAuthenticated removes sets =>
    have hlast : ∀ token, token ≠ fresh →
        keeping.holder? after token = keeping.holder? other token :=
      fun token hne => holder?_of_spares (hmid.of_removed removes) (sets.spares token hne)
    refine fate_of_issue hunexpired hstarted (Session.holder?_eq_none_iff.2 wasAnonymous)
      (holder?_of_kept? sets.kept?_self) ?_ ?_ token
    · intro token hne hunpresented
      have hshown : token ≠ shown := fun he => hunpresented (he ▸ hstarted.presented_eq)
      rw [hlast token hne, holder?_of_spares hmid (removes.spares token hshown), hbefore]
    · intro token hne h
      rw [hlast token hne, ← Option.some.inj (hstarted.presented_eq.symm.trans h)]
      exact holder?_of_kept? removes.kept?_self
  | kept modified nonempty noRise sets =>
    refine fate_of_put hunexpired hstarted sets rfl (fun hnone => ?_) (by simp) token
    exact Session.holder?_eq_none_iff.2 (noRise (Session.holder?_eq_none_iff.1 hnone))

end SessionKeeping

end Gatehouse
