import Gatehouse.Proofs.Http.Cookie
import Gatehouse.Proofs.Http.SessionLayer
import Gatehouse.Proofs.Session.KeyValue
import Gatehouse.Proofs.Session.Memory

set_option autoImplicit false

/-!
# Continuity of sessions

The next request of a client finds the session as this one has left it.
-/

namespace Gatehouse

namespace SessionKeeping

variable {σ : Type} {store : SessionStore σ} {keeping : SessionKeeping store}
  {state mid after later : σ} {token fresh : SessionToken} {presented : Option SessionToken}
  {stored : Option StoredSession} {change : CookieChange} {handle : SessionHandle}

/-- The token that a client presents after a change. -/
def presentedAfter (presented : Option SessionToken) : CookieChange → Option SessionToken
  | .none => presented
  | .issue token => some token
  | .expire => none

theorem given_of_started (h : keeping.Started state presented stored after) :
    SessionLayer.given stored = keeping.session state presented := by
  cases h with
  | unpresented => rfl
  | unknown live steady => simp [SessionLayer.given, session, session?, live]
  | found live steady => simp [SessionLayer.given, session, session?, live]
  | discarded live sets => simp [SessionLayer.given, session, session?, live]

theorem session_of_kept {session : Session} {expiresAt : Nat}
    (hkept : keeping.kept? after token = some ⟨some session, expiresAt⟩)
    (hpasses : keeping.Passes after later)
    (hunexpired : ∀ kept, keeping.kept? after token = some kept →
      keeping.now later < kept.expiresAt) :
    keeping.session later (some token) = session := by
  have hlater := hpasses.live?_eq token
  rw [hkept, Kept.live?_of_lt (hunexpired _ hkept)] at hlater
  simp [SessionKeeping.session, session?, hlater]

theorem session_of_not_stored (hstarted : keeping.Started state presented none mid)
    (hpasses : keeping.Passes mid later) : keeping.session later presented = .new := by
  cases presented with
  | none => rfl
  | some token => simp [session, session?, hpasses.live?_none hstarted.live?_none]

theorem session_carried (hstarted : keeping.Started state presented stored mid)
    (hwritten : keeping.WrittenBack mid fresh handle stored change after)
    (hunmodified : handle.modified = false → handle.session = SessionLayer.given stored)
    (hpasses : keeping.Passes after later)
    (hunexpired : ∀ token kept, presentedAfter presented change = some token →
      keeping.kept? after token = some kept → keeping.now later < kept.expiresAt) :
    keeping.session later (presentedAfter presented change) = handle.session := by
  cases hwritten with
  | unchanged modified =>
    rw [hunmodified modified]
    cases hstarted with
    | @found token session _ live steady =>
      obtain ⟨expiresAt, hkept, -⟩ := Kept.live?_eq_some_iff.1 live
      have hmid : keeping.kept? mid token = some ⟨some session, expiresAt⟩ :=
        ((steady.spares token).eq_of_live? live).trans hkept
      exact session_of_kept hmid hpasses fun kept => hunexpired token kept rfl
    | unpresented => exact session_of_not_stored .unpresented hpasses
    | unknown live steady => exact session_of_not_stored (.unknown live steady) hpasses
    | discarded live sets => exact session_of_not_stored (.discarded live sets) hpasses
  | unneeded modified empty =>
    rw [empty]
    exact session_of_not_stored hstarted hpasses
  | begun modified nonempty sets =>
    exact session_of_kept sets.kept?_self hpasses fun kept => hunexpired fresh kept rfl
  | ended modified empty sets =>
    rw [empty]
    rfl
  | moved modified wasAnonymous isAuthenticated removes sets =>
    exact session_of_kept sets.kept?_self hpasses fun kept => hunexpired fresh kept rfl
  | kept modified nonempty noRise sets =>
    cases hstarted with
    | found live steady =>
      exact session_of_kept sets.kept?_self hpasses fun kept => hunexpired _ kept rfl

end SessionKeeping

namespace SessionLayer

variable {σ : Type}

theorem presented_heldAfter (layer : SessionLayer σ) (held : Option String)
    (change : CookieChange) :
    (layer.cookie.heldAfter held (layer.cookieHeaders change)).bind SessionToken.ofText? =
      SessionKeeping.presentedAfter (held.bind SessionToken.ofText?) change := by
  cases change with
  | none => rfl
  | issue token =>
    simp only [cookieHeaders, SessionCookie.heldAfter_issue, Option.bind_some]
    exact SessionToken.ofText?_toString token
  | expire =>
    simp only [cookieHeaders, SessionCookie.heldAfter_expire]
    rfl

theorem token?_next {layer : SessionLayer σ} {request next : Request} {change : CookieChange}
    (h : Cookie.value? layer.cookie.name next =
      layer.cookie.heldAfter (Cookie.value? layer.cookie.name request)
        (layer.cookieHeaders change)) :
    layer.cookie.token? next =
      SessionKeeping.presentedAfter (layer.cookie.token? request) change := by
  rw [SessionCookie.token?, h, presented_heldAfter, SessionCookie.token?]

variable {β : Type} {layer : SessionLayer σ} {handler : Handler (Visit β)} {request : Request}
  {fresh : SessionToken} {server : Server σ β}

structure Round.CarriesOver (keeping : SessionKeeping layer.store)
    (round : layer.Round handler request fresh server) : Prop where
  /-- The handler is given the stored session, or a new one if none can be read. -/
  given_eq : given round.stored = keeping.session server.sessions (layer.cookie.token? request)
  /-- What cannot be read is gone, and its token is not given out. -/
  discards : ∀ token, layer.cookie.token? request = some token →
    keeping.live? server.sessions token = some none →
      keeping.kept? round.written token = none ∧
        layer.cookie.issue token ∉ round.response.setCookies
  /-- The next request, if it comes before expiry, is given what the handler left. -/
  next_given : ∀ (next : Request) (later loaded : σ) (stored : Option StoredSession),
    Cookie.value? layer.cookie.name next =
      layer.cookie.heldAfter (Cookie.value? layer.cookie.name request)
        round.response.setCookies →
    keeping.Passes round.written later →
    (∀ token kept, layer.cookie.token? next = some token →
      keeping.kept? round.written token = some kept → keeping.now later < kept.expiresAt) →
    (layer.start next).runFrom later = (.ok stored, loaded) →
      given stored = round.visit.handle.session

/-- Every request carries the session over, whatever its handler does through the handle. -/
def Continuous (layer : SessionLayer σ) (keeping : SessionKeeping layer.store) : Prop :=
  ∀ {β : Type} {handler : Handler (Visit β)} {request : Request} {fresh : SessionToken}
    {server : Server σ β} (round : layer.Round handler request fresh server)
    (steps : List HandleStep),
    keeping.kept? server.sessions fresh = none →
    round.visit.handle = (SessionHandle.new (given round.stored)).follow steps →
    round.answer.setCookies = [] →
      round.CarriesOver keeping

theorem discarded_of_unreadable {keeping : SessionKeeping layer.store}
    {state mid after : σ} {token : SessionToken} {stored : Option StoredSession}
    {handle : SessionHandle} {change : CookieChange}
    (hfresh : keeping.kept? state fresh = none)
    (hunreadable : keeping.live? state token = some none)
    (hstarted : keeping.Started state (some token) stored mid)
    (hwritten : keeping.WrittenBack mid fresh handle stored change after) :
    keeping.kept? after token = none ∧ layer.cookie.issue token ∉ layer.cookieHeaders change := by
  cases hstarted with
  | unknown live steady =>
    rw [hunreadable] at live
    cases live
  | found live steady =>
    rw [hunreadable] at live
    cases live
  | discarded live removes =>
    cases hwritten with
    | unchanged modified => exact ⟨removes.kept?_self, by simp [cookieHeaders]⟩
    | unneeded modified empty => exact ⟨removes.kept?_self, by simp [cookieHeaders]⟩
    | begun modified nonempty sets =>
      have hne : token ≠ fresh := by
        rintro rfl
        rw [TimedView.live?, hfresh] at hunreadable
        cases hunreadable
      have hspared := sets.spares token hne
      rw [TimedView.Spares, removes.kept?_self] at hspared
      refine ⟨hspared.eq_none, ?_⟩
      rw [cookieHeaders, List.mem_singleton]
      intro he
      exact hne (SessionCookie.issue_inj he)

theorem continuous (layer : SessionLayer σ) (keeping : SessionKeeping layer.store) :
    layer.Continuous keeping := by
  intro β handler request fresh server round steps hfresh hsteps hanswer
  have hstarted := round.started keeping
  have hwritten := round.writtenBack keeping
  have hunmodified : round.visit.handle.modified = false →
      round.visit.handle.session = given round.stored := by
    intro hmodified
    rw [hsteps] at hmodified ⊢
    exact (SessionHandle.session_follow hmodified).2
  refine ⟨SessionKeeping.given_of_started hstarted, ?_, ?_⟩
  · intro token hpresented hunreadable
    rw [hpresented] at hstarted
    rw [round.setCookies_eq hanswer]
    exact discarded_of_unreadable hfresh hunreadable hstarted hwritten
  · intro next later loaded stored hheld hpasses hunexpired hnext
    rw [round.setCookies_eq hanswer] at hheld
    have htoken := token?_next hheld
    rw [htoken] at hunexpired
    have hgiven := SessionKeeping.given_of_started (started keeping hnext)
    rw [hgiven, htoken]
    exact SessionKeeping.session_carried hstarted hwritten hunmodified hpasses hunexpired

/-- Sessions carry over in memory, and in any server whose entries expire. -/
theorem sessions_carry_over :
    (∀ (ttl : UInt64) (cookie : SessionCookie),
      Continuous ⟨MemorySessions.store ttl, cookie⟩ (MemorySessions.keeping ttl)) ∧
    ∀ {κ : Type} (server : KeyValueServer κ) (law : server.Expiring) (ttl : UInt64)
      (cookie : SessionCookie),
      Continuous ⟨KeyValueSessions.store server ttl, cookie⟩
        (KeyValueSessions.keeping law ttl) :=
  ⟨fun _ _ => continuous _ _, fun _ _ _ _ => continuous _ _⟩

def serverLayer : SessionLayer ExpiringMap :=
  ⟨KeyValueSessions.store ExpiringMap.server 60, .sample⟩

def corrupted : ExpiringMap :=
  ⟨Keyed.insert {} (KeyValueSessions.key ⟨1⟩) ([0x7B], 9), 0⟩

def visitRequest : Request where
  method := "GET"
  target := { path := "/" }
  headers := [SessionCookie.sampleHeader]

def greet : Handler (Visit Unit) := fun _ => do
  Visit.update (Session.pushFlash ⟨.info, "hello"⟩)
  pure { status := 200 }

theorem load_corrupted :
    (serverLayer.store.load ⟨1⟩).runFrom corrupted =
      (.error (.corrupt "the payload is not a session"), corrupted) := by
  have hget : corrupted.get? (KeyValueSessions.key ⟨1⟩) = some [0x7B] := by
    simp [ExpiringMap.get?, corrupted, Keyed.get?_insert]
  have hpayload : KeyValueSessions.ofPayload [0x7B] =
      .error (.corrupt "the payload is not a session") := by cbv
  have hserver : (ExpiringMap.server.get (KeyValueSessions.key ⟨1⟩)).runFrom corrupted =
      (.ok (some [0x7B]), corrupted) := by
    simp only [ExpiringMap.server, Attempt.runFrom_ofFunction, hget]
  have hrun := KeyValueSessions.runFrom_load hserver
  simp only [Option.elim, hpayload] at hrun
  exact hrun

theorem start_corrupted :
    (serverLayer.start visitRequest).runFrom corrupted =
      (.ok none, corrupted.delete (KeyValueSessions.key ⟨1⟩)) := by
  have htoken : serverLayer.cookie.token? visitRequest = some ⟨1⟩ :=
    SessionCookie.token?_sample rfl
  simp only [start, htoken, load, Attempt.runFrom_bind, Attempt.runFrom_outcome, load_corrupted]
  rfl

theorem kept?_corrupted_other :
    (KeyValueSessions.keeping ExpiringMap.expiring 60).kept? corrupted ⟨2⟩ = none := by
  have hkey : KeyValueSessions.key ⟨2⟩ ≠ KeyValueSessions.key ⟨1⟩ := by
    intro he
    exact absurd (KeyValueSessions.key_inj he) (by decide)
  change (ExpiringMap.view.kept? corrupted (KeyValueSessions.key ⟨2⟩)).map
    KeyValueSessions.readKept = none
  rw [ExpiringMap.kept?_view, corrupted, Keyed.get?_insert, if_neg hkey]
  rfl

theorem corrupt_session_carries_over :
    ∃ round : serverLayer.Round greet visitRequest ⟨2⟩ ⟨corrupted, ()⟩,
      round.change = .issue ⟨2⟩ ∧
        round.CarriesOver (KeyValueSessions.keeping ExpiringMap.expiring 60) := by
  refine ⟨⟨none, _, .issue ⟨2⟩, _, start_corrupted, rfl⟩, rfl, ?_⟩
  exact sessions_carry_over.2 ExpiringMap.server ExpiringMap.expiring 60 .sample _
    [.update (Session.pushFlash ⟨.info, "hello"⟩)] kept?_corrupted_other rfl rfl

end SessionLayer

end Gatehouse
