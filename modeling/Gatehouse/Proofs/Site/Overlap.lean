import Gatehouse.Credentials.Scripted
import Gatehouse.Proofs.Http.Cookie
import Gatehouse.Proofs.Session.Memory
import Gatehouse.Proofs.Site.AccountService

set_option autoImplicit false

/-!
# Overlapping requests

A session is loaded when a request begins and written back as a whole when it finishes. Between the
two, other requests may begin and finish, in any order. What is written last stands, so a request
that has loaded a session before a logout can bring it back, and nothing else can.
-/

namespace Gatehouse

/-- A request that has begun, with the stored session it has loaded. -/
structure Pending where
  request : Request
  stored : Option StoredSession
  deriving DecidableEq

structure InFlight (σ β : Type) where
  server : Server σ β
  pending : List Pending

inductive Event where
  | begin (pending : Pending)
  /-- A request finishes, with the fresh token that was there for it and the handle that its handler
  has left. -/
  | finish (pending : Pending) (fresh : SessionToken) (handle : SessionHandle)
  | wait

namespace AccountService

variable {σ β : Type} (service : AccountService σ β) (keeping : SessionKeeping service.layer.store)

/-- One step of one request, or some time in which nothing happens. Every call to the store
succeeds. -/
inductive Step : InFlight σ β → Event → InFlight σ β → Prop
  | begin {state : InFlight σ β} {pending : Pending} {sessions : σ}
      (loads : (service.layer.start pending.request).runFrom state.server.sessions =
        (.ok pending.stored, sessions)) :
      Step state (.begin pending)
        ⟨⟨sessions, state.server.backing⟩, pending :: state.pending⟩
  | finish {state : InFlight σ β} {pending : Pending} {fresh : SessionToken} {answer : Response}
      {handle : SessionHandle} {backing : β} {change : CookieChange} {sessions : σ}
      (begun : pending ∈ state.pending)
      (handles : (service.handler pending.request).run pending.request
        ⟨.new (SessionLayer.given pending.stored), state.server.backing⟩ =
          (answer, ⟨handle, backing⟩))
      (writes : (service.layer.writeBack pending.stored fresh handle).runFrom
        state.server.sessions = (.ok change, sessions)) :
      Step state (.finish pending fresh handle)
        ⟨⟨sessions, backing⟩, state.pending.erase pending⟩
  | wait {state : InFlight σ β} {sessions : σ}
      (passes : keeping.Passes state.server.sessions sessions) :
      Step state .wait ⟨⟨sessions, state.server.backing⟩, state.pending⟩

inductive Run : InFlight σ β → List Event → InFlight σ β → Prop
  | nil {state : InFlight σ β} : Run state [] state
  | cons {state next last : InFlight σ β} {event : Event} {events : List Event}
      (step : service.Step keeping state event next) (rest : Run next events last) :
      Run state (event :: events) last

def Restores (token : SessionToken) (pending : Pending) (handle : SessionHandle) : Prop :=
  ∃ session, pending.stored = some (token, session) ∧ session.isAuthenticated = true ∧
    handle.modified = true ∧ handle.session.isAuthenticated = true

end AccountService

namespace AccountService

open AccountPages (sampleGet sampleName)

variable {σ β : Type} {service : AccountService σ β} {keeping : SessionKeeping service.layer.store}
  {state next last : InFlight σ β} {event : Event} {events : List Event} {token : SessionToken}

def QuietAt (token other : SessionToken) (session : Session) : Prop :=
  other = token → session.isAuthenticated = false

/-- Only old requests have loaded an authenticated session of a token. -/
def OnlyOld (token : SessionToken) (old pending : List Pending) : Prop :=
  ∀ p ∈ pending, ∀ session, p.stored = some (token, session) →
    session.isAuthenticated = true → p ∈ old

theorem Step.finish_head {server : Server σ β} {pending : Pending} {rest : List Pending}
    {fresh : SessionToken} {answer : Response} {handle : SessionHandle} {backing : β}
    {change : CookieChange} {sessions : σ}
    (handles : (service.handler pending.request).run pending.request
      ⟨.new (SessionLayer.given pending.stored), server.backing⟩ = (answer, ⟨handle, backing⟩))
    (writes : (service.layer.writeBack pending.stored fresh handle).runFrom server.sessions =
      (.ok change, sessions)) :
    service.Step keeping ⟨server, pending :: rest⟩ (.finish pending fresh handle)
      ⟨⟨sessions, backing⟩, rest⟩ := by
  have hstep : service.Step keeping ⟨server, pending :: rest⟩ (.finish pending fresh handle)
      ⟨⟨sessions, backing⟩, (pending :: rest).erase pending⟩ :=
    .finish List.mem_cons_self handles writes
  rwa [List.erase_cons_head] at hstep

theorem started_of_begin {pending : Pending}
    (hstep : service.Step keeping state (.begin pending) next) :
    keeping.Started state.server.sessions (service.layer.cookie.token? pending.request)
      pending.stored next.server.sessions := by
  cases hstep with
  | begin loads => exact SessionLayer.started keeping loads

theorem step_quiet (hstep : service.Step keeping state event next)
    (hquiet : keeping.Holds (QuietAt token) state.server.sessions)
    (hfresh : ∀ pending fresh handle, event = .finish pending fresh handle → fresh ≠ token) :
    keeping.Holds (QuietAt token) next.server.sessions ∨
      ∃ pending ∈ state.pending, ∃ fresh handle, event = .finish pending fresh handle ∧
        Restores token pending handle := by
  cases hstep with
  | begin loads => exact .inl (hquiet.of_started (SessionLayer.started keeping loads))
  | wait passes => exact .inl (hquiet.of_passes passes)
  | @finish pending fresh answer handle backing change sessions begun handles writes =>
    by_cases hrestores : Restores token pending handle
    · exact .inr ⟨pending, begun, fresh, handle, rfl, hrestores⟩
    · refine .inl (hquiet.of_writtenBack (SessionLayer.writtenBack keeping writes) ?_ ?_)
      · intro heq
        exact absurd heq (hfresh pending fresh handle rfl)
      · rintro other session hstored hmodified hnoRise rfl
        cases hafter : handle.session.isAuthenticated with
        | false => rfl
        | true =>
          cases hbefore : session.isAuthenticated with
          | false => exact absurd (hnoRise hbefore) (by simp [hafter])
          | true => exact absurd ⟨session, hstored, hbefore, hmodified, hafter⟩ hrestores

theorem step_onlyOld {old : List Pending} (hstep : service.Step keeping state event next)
    (hquiet : keeping.Holds (QuietAt token) state.server.sessions)
    (hold : OnlyOld token old state.pending) : OnlyOld token old next.pending := by
  cases hstep with
  | wait passes => exact hold
  | finish begun handles writes => exact fun p hp => hold p (List.mem_of_mem_erase hp)
  | @begin pending sessions loads =>
    intro p hp session hstored hauthenticated
    rcases List.mem_cons.1 hp with rfl | hp
    · have hstarted := SessionLayer.started keeping loads
      rw [hstored] at hstarted
      have hanonymous := (hquiet.loaded hstarted).2 rfl
      rw [hauthenticated] at hanonymous
      cases hanonymous
    · exact hold p hp session hstored hauthenticated

theorem run_quiet {old : List Pending} (hrun : service.Run keeping state events last)
    (hquiet : keeping.Holds (QuietAt token) state.server.sessions)
    (hold : OnlyOld token old state.pending)
    (hfresh : ∀ pending fresh handle, .finish pending fresh handle ∈ events → fresh ≠ token) :
    keeping.Holds (QuietAt token) last.server.sessions ∨
      ∃ pending ∈ old, ∃ fresh handle, .finish pending fresh handle ∈ events ∧
        Restores token pending handle := by
  induction hrun with
  | nil => exact .inl hquiet
  | @cons state next last event events step rest ih =>
    have hfreshStep : ∀ pending fresh handle, event = .finish pending fresh handle →
        fresh ≠ token :=
      fun pending fresh handle he => hfresh pending fresh handle (he ▸ List.mem_cons_self)
    rcases step_quiet step hquiet hfreshStep with hnext | ⟨p, hp, fresh, handle, rfl, hrestores⟩
    · have hrest := ih hnext (step_onlyOld step hquiet hold)
        fun pending fresh handle he => hfresh pending fresh handle (List.mem_cons_of_mem _ he)
      rcases hrest with hlast | ⟨p, hp, fresh, handle, he, hrestores⟩
      · exact .inl hlast
      · exact .inr ⟨p, hp, fresh, handle, List.mem_cons_of_mem _ he, hrestores⟩
    · obtain ⟨session, hstored, hauthenticated, -⟩ := id hrestores
      exact .inr ⟨p, hold p hp session hstored hauthenticated, fresh, handle,
        List.mem_cons_self, hrestores⟩

structure Plain (keeping : SessionKeeping service.layer.store) (state : InFlight σ β) : Prop where
  stored : keeping.Holds (fun _ session => session.flashes = []) state.server.sessions
  loaded : ∀ p ∈ state.pending, (SessionLayer.given p.stored).flashes = []

theorem step_plain (hinline : service.site.flow.feedback = .inline)
    (hstep : service.Step keeping state event next) (hplain : Plain keeping state) :
    Plain keeping next := by
  cases hstep with
  | wait passes => exact ⟨hplain.stored.of_passes passes, hplain.loaded⟩
  | @begin pending sessions loads =>
    have hstarted := SessionLayer.started keeping loads
    refine ⟨hplain.stored.of_started hstarted, fun p hp => ?_⟩
    rcases List.mem_cons.1 hp with rfl | hp
    · cases hstored : p.stored with
      | none => rfl
      | some stored =>
        rw [hstored] at hstarted
        exact (hplain.stored.loaded hstarted).2
    · exact hplain.loaded p hp
  | finish begun handles writes =>
    have hleft := flashes_of_inline hinline (hplain.loaded _ begun) handles
    have hwritten := SessionLayer.writtenBack keeping writes
    exact ⟨hplain.stored.of_writtenBack hwritten hleft fun _ _ _ _ _ => hleft,
      fun p hp => hplain.loaded p (List.mem_of_mem_erase hp)⟩

theorem run_plain (hinline : service.site.flow.feedback = .inline)
    (hrun : service.Run keeping state events last) (hplain : Plain keeping state) :
    Plain keeping last := by
  induction hrun with
  | nil => exact hplain
  | cons step rest ih => exact ih (step_plain hinline step hplain)

theorem run_restores {pending : Pending} {fresh : SessionToken} {handle : SessionHandle}
    (hinline : service.site.flow.feedback = .inline)
    (hrun : service.Run keeping state events last) (hplain : Plain keeping state)
    (hmem : .finish pending fresh handle ∈ events) (hrestores : Restores token pending handle) :
    IsLogin pending.request := by
  induction hrun with
  | nil => cases hmem
  | cons step rest ih =>
    rcases List.mem_cons.1 hmem with rfl | hmem
    · cases step with
      | finish begun handles writes =>
        obtain ⟨session, -, -, hmodified, hauthenticated⟩ := hrestores
        exact isLogin_of_inline hinline (hplain.loaded _ begun) handles hmodified hauthenticated
    · exact ih (step_plain hinline step hplain) hmem

theorem quiet_of_logout {pending : Pending} {fresh : SessionToken} {handle : SessionHandle}
    {session : Session} (hstep : service.Step keeping state (.finish pending fresh handle) next)
    (hlogout : IsLogout pending.request) (hstored : pending.stored = some (token, session))
    (hauthenticated : session.isAuthenticated = true) :
    keeping.Holds (QuietAt token) next.server.sessions := by
  cases hstep with
  | finish begun handles writes =>
    have hanonymous := isAuthenticated_of_logout hlogout handles
    have hwritten := SessionLayer.writtenBack keeping writes
    rw [hstored] at hwritten
    have hquiet : ∀ {after : σ} {kept : Option (Kept (Option Session))},
        keeping.Sets token kept state.server.sessions after →
        (∀ found expiresAt, kept = some ⟨some found, expiresAt⟩ →
          found.isAuthenticated = false) → keeping.Holds (QuietAt token) after := by
      rintro after kept sets hkept other found hlive rfl
      obtain ⟨expiresAt, hfound, -⟩ := Kept.live?_eq_some_iff.1 hlive
      rw [sets.kept?_self] at hfound
      exact hkept found expiresAt hfound
    cases hwritten with
    | unchanged modified =>
      have hchanged : handle.modified = true := by
        refine (modified_iff handles).2 fun heq => ?_
        rw [heq, hstored] at hanonymous
        exact absurd (hanonymous.symm.trans hauthenticated) Bool.false_ne_true
      rw [modified] at hchanged
      cases hchanged
    | ended modified empty sets => exact hquiet sets (by simp)
    | moved modified wasAnonymous isAuthenticated removes sets =>
      rw [hauthenticated] at wasAnonymous
      cases wasAnonymous
    | kept modified nonempty noRise sets =>
      refine hquiet sets fun found expiresAt he => ?_
      cases he
      exact hanonymous

variable (service keeping) in
/-- A run from any store in which a visitor signs out while other requests begin and finish, up to a
later request with the same token. -/
structure LogoutRun (token : SessionToken) where
  server : Server σ β
  early : InFlight σ β
  begun : InFlight σ β
  overlapped : InFlight σ β
  loggedOut : InFlight σ β
  late : InFlight σ β
  before : List Event
  between : List Event
  after : List Event
  logout : Pending
  fresh : SessionToken
  handle : SessionHandle
  next : Pending
  last : σ
  runsBefore : service.Run keeping ⟨server, []⟩ before early
  begins : service.Step keeping early (.begin logout) begun
  runsBetween : service.Run keeping begun between overlapped
  finishes : service.Step keeping overlapped (.finish logout fresh handle) loggedOut
  runsAfter : service.Run keeping loggedOut after late
  loads : (service.layer.start next.request).runFrom late.server.sessions = (.ok next.stored, last)
  isLogout : IsLogout logout.request
  presents : service.layer.cookie.token? logout.request = some token
  presentsAgain : service.layer.cookie.token? next.request = some token
  /-- No token that has been presented is ever generated. -/
  generates : ∀ pending fresh' handle',
    .finish pending fresh' handle' ∈ between ++ .finish logout fresh handle :: after →
      fresh' ≠ token

namespace LogoutRun

/-- The gate lets the later request through. -/
def Admits (run : LogoutRun service keeping token) : Prop :=
  ∃ principal, SessionGate.check {} (SessionLayer.given run.next.stored) = .ok principal

/-- A request that was in flight together with the logout brings the session back. -/
def Resurrects (run : LogoutRun service keeping token) : Prop :=
  ∃ pending fresh handle, Restores token pending handle ∧
    (.finish pending fresh handle ∈ run.between ∨
      pending ∈ run.loggedOut.pending ∧ .finish pending fresh handle ∈ run.after)

theorem generates_between (run : LogoutRun service keeping token) (pending : Pending)
    (fresh : SessionToken) (handle : SessionHandle)
    (h : .finish pending fresh handle ∈ run.between) : fresh ≠ token :=
  run.generates pending fresh handle (List.mem_append_left _ h)

theorem generates_after (run : LogoutRun service keeping token) (pending : Pending)
    (fresh : SessionToken) (handle : SessionHandle)
    (h : .finish pending fresh handle ∈ run.after) : fresh ≠ token :=
  run.generates pending fresh handle (List.mem_append_right _ (List.mem_cons_of_mem _ h))

theorem generates_logout (run : LogoutRun service keeping token) : run.fresh ≠ token :=
  run.generates run.logout run.fresh run.handle (List.mem_append_right _ List.mem_cons_self)

theorem quiet_begun (run : LogoutRun service keeping token)
    (hanonymous : ∀ session, run.logout.stored = some (token, session) →
      session.isAuthenticated = false) :
    keeping.Holds (QuietAt token) run.begun.server.sessions := by
  have hstarted := started_of_begin run.begins
  rw [run.presents] at hstarted
  rintro other session hlive rfl
  cases hstored : run.logout.stored with
  | none =>
    rw [hstored] at hstarted
    rw [hstarted.live?_none] at hlive
    cases hlive
  | some stored =>
    rw [hstored] at hstarted hanonymous
    cases hstarted with
    | found live steady =>
      rw [steady.live?_eq, live] at hlive
      cases hlive
      exact hanonymous session rfl

theorem quiet_or_resurrects (run : LogoutRun service keeping token) :
    keeping.Holds (QuietAt token) run.loggedOut.server.sessions ∨ run.Resurrects := by
  by_cases hfound : ∃ session, run.logout.stored = some (token, session) ∧
      session.isAuthenticated = true
  · obtain ⟨session, hstored, hauthenticated⟩ := hfound
    exact .inl (quiet_of_logout run.finishes run.isLogout hstored hauthenticated)
  · have hanonymous : ∀ session, run.logout.stored = some (token, session) →
        session.isAuthenticated = false := by
      intro session hstored
      cases hauthenticated : session.isAuthenticated with
      | false => rfl
      | true => exact absurd ⟨session, hstored, hauthenticated⟩ hfound
    have hbegun := run.quiet_begun hanonymous
    rcases run_quiet run.runsBetween hbegun (fun p hp _ _ _ => hp) run.generates_between with
      hoverlapped | ⟨p, -, fresh, handle, he, hrestores⟩
    · have hgenerates : ∀ pending fresh handle,
          Event.finish run.logout run.fresh run.handle = .finish pending fresh handle →
            fresh ≠ token := by
        intro pending fresh handle he
        cases he
        exact run.generates_logout
      rcases step_quiet run.finishes hoverlapped hgenerates with
        hquiet | ⟨p, -, fresh, handle, he, session, hstored, hauthenticated, -⟩
      · exact .inl hquiet
      · cases he
        exact absurd ⟨session, hstored, hauthenticated⟩ hfound
    · exact .inr ⟨p, fresh, handle, hrestores, .inl he⟩

theorem resurrects_of_admits (run : LogoutRun service keeping token) (hadmits : run.Admits) :
    run.Resurrects := by
  rcases run.quiet_or_resurrects with hquiet | hresurrects
  · rcases run_quiet run.runsAfter hquiet (fun p hp _ _ _ => hp) run.generates_after with
      hlate | ⟨p, hp, fresh, handle, he, hrestores⟩
    · obtain ⟨principal, hcheck⟩ := hadmits
      have hauthenticated := (SessionGate.check_isOk_iff _ _).1 ⟨principal, hcheck⟩
      have hstarted := SessionLayer.started keeping run.loads
      rw [run.presentsAgain] at hstarted
      cases hstored : run.next.stored with
      | none =>
        rw [hstored] at hauthenticated
        cases hauthenticated
      | some stored =>
        obtain ⟨other, session⟩ := stored
        rw [hstored] at hstarted hauthenticated
        obtain ⟨hpresented, hanonymous⟩ := hlate.loaded hstarted
        cases hpresented
        exact absurd ((hanonymous rfl).symm.trans hauthenticated) Bool.false_ne_true
    · exact ⟨p, fresh, handle, hrestores, .inr ⟨hp, he⟩⟩
  · exact hresurrects

theorem isLogin_of_resurrects (run : LogoutRun service keeping token)
    (hinline : service.site.flow.feedback = .inline)
    (hplain : keeping.Holds (fun _ session => session.flashes = []) run.server.sessions)
    (hresurrects : run.Resurrects) :
    ∃ pending fresh handle, .finish pending fresh handle ∈ run.between ++ run.after ∧
      IsLogin pending.request := by
  have hearly := run_plain hinline run.runsBefore ⟨hplain, by simp⟩
  have hbegun := step_plain hinline run.begins hearly
  have hloggedOut := step_plain hinline run.finishes (run_plain hinline run.runsBetween hbegun)
  obtain ⟨pending, fresh, handle, hrestores, he | ⟨-, he⟩⟩ := hresurrects
  · exact ⟨pending, fresh, handle, List.mem_append_left _ he,
      run_restores hinline run.runsBetween hbegun he hrestores⟩
  · exact ⟨pending, fresh, handle, List.mem_append_right _ he,
      run_restores hinline run.runsAfter hloggedOut he hrestores⟩

end LogoutRun

/-- After a logout a token lets nobody in, unless a request that was in flight together with it
brings back the session it had loaded. On a site without notices no such request exists. -/
theorem logout_final {service : AccountService σ β} {keeping : SessionKeeping service.layer.store}
    {token : SessionToken} (run : LogoutRun service keeping token) :
    (run.Admits → run.Resurrects) ∧
      ((∃ board, service.site = .minesweeper board) →
        keeping.Holds (fun _ session => session.flashes = []) run.server.sessions →
        (∀ pending fresh handle, .finish pending fresh handle ∈ run.between ++ run.after →
          ¬ IsLogin pending.request) → ¬ run.Admits) := by
  refine ⟨run.resurrects_of_admits, ?_⟩
  rintro ⟨board, hsite⟩ hplain hnoLogin hadmits
  have hinline : service.site.flow.feedback = .inline := by
    rw [hsite]
    rfl
  obtain ⟨pending, fresh, handle, he, hlogin⟩ :=
    run.isLogin_of_resurrects hinline hplain (run.resurrects_of_admits hadmits)
  exact hnoLogin pending fresh handle he hlogin

def sampleService (site : AccountSite) : AccountService MemorySessions Unit where
  site := site
  layer := ⟨MemorySessions.store 60, .sample⟩
  credentials := ScriptedCredentials.store { get := .ok (some (.named sampleName "pw")) }
  renderer := ⟨fun _ => .ok ""⟩

def member (flashes : List Flash) : Session := ⟨true, some ⟨"al"⟩, flashes⟩

def memberSessions (flashes : List Flash) : MemorySessions :=
  MemorySessions.empty.put ⟨1⟩ ⟨member flashes, 9⟩

def opening (route : Route) (flashes : List Flash) : Pending :=
  ⟨sampleGet route, some (⟨1⟩, member flashes)⟩

def welcomed : List Flash := [⟨.success, AccountPages.signedIn⟩]

def viewed : SessionHandle := (SessionHandle.new (member welcomed)).takeFlashes.2

def left (flow : AuthFlow) (flashes : List Flash) : SessionHandle :=
  (SessionHandle.new (member flashes)).update flow.farewell

def leftSessions : MemorySessions :=
  (memberSessions welcomed).save 60 ⟨1⟩ (left .userSystem welcomed).session

def viewedSessions : MemorySessions := leftSessions.save 60 ⟨1⟩ viewed.session

theorem start_sampleGet (site : AccountSite) (route : Route) {before after : MemorySessions}
    {session : Option Session} (h : MemorySessions.load ⟨1⟩ before = (session, after)) :
    ((sampleService site).layer.start (sampleGet route)).runFrom before =
      (.ok (session.map fun session => (⟨1⟩, session)), after) := by
  have htoken : (sampleService site).layer.cookie.token? (sampleGet route) = some ⟨1⟩ :=
    SessionCookie.token?_sample rfl
  have hload : ((sampleService site).layer.store.load ⟨1⟩).runFrom before =
      (.ok session, after) := by
    simp only [sampleService, MemorySessions.store, Attempt.runFrom_ofFunction, h]
  simp only [SessionLayer.start, htoken, SessionLayer.load, Attempt.runFrom_bind,
    Attempt.runFrom_outcome, hload]
  rfl

theorem run_viewing : ((sampleService .userSystem).handler (sampleGet .success)).run
    (sampleGet .success) ⟨.new (member welcomed), ()⟩ = (.html 200 "", ⟨viewed, ()⟩) := rfl

theorem run_leaving : ((sampleService .userSystem).handler (sampleGet .logout)).run
    (sampleGet .logout) ⟨.new (member welcomed), ()⟩ =
      (.seeOther "/", ⟨left .userSystem welcomed, ()⟩) := rfl

theorem load_viewedSessions :
    MemorySessions.load ⟨1⟩ viewedSessions = (some viewed.session, viewedSessions) := by cbv

def staleRun : LogoutRun (sampleService .userSystem) (MemorySessions.keeping 60) ⟨1⟩ where
  server := ⟨memberSessions welcomed, ()⟩
  early := ⟨⟨memberSessions welcomed, ()⟩, [opening .success welcomed]⟩
  begun := ⟨⟨memberSessions welcomed, ()⟩, [opening .logout welcomed, opening .success welcomed]⟩
  overlapped :=
    ⟨⟨memberSessions welcomed, ()⟩, [opening .logout welcomed, opening .success welcomed]⟩
  loggedOut := ⟨⟨leftSessions, ()⟩, [opening .success welcomed]⟩
  late := ⟨⟨viewedSessions, ()⟩, []⟩
  before := [.begin (opening .success welcomed)]
  between := []
  after := [.finish (opening .success welcomed) ⟨3⟩ viewed]
  logout := opening .logout welcomed
  fresh := ⟨2⟩
  handle := left .userSystem welcomed
  next := ⟨sampleGet .success, some (⟨1⟩, viewed.session)⟩
  last := viewedSessions
  runsBefore := .cons (.begin (start_sampleGet _ .success rfl)) .nil
  begins := .begin (start_sampleGet _ .logout rfl)
  runsBetween := .nil
  finishes := .finish_head run_leaving rfl
  runsAfter := .cons (.finish_head run_viewing rfl) .nil
  loads := start_sampleGet _ .success load_viewedSessions
  isLogout := ⟨rfl, rfl⟩
  presents := SessionCookie.token?_sample rfl
  presentsAgain := SessionCookie.token?_sample rfl
  generates := by
    intro pending fresh handle he
    simp only [List.nil_append, List.mem_cons, List.not_mem_nil, or_false] at he
    rcases he with he | he <;> cases he <;> decide

theorem staleRun_admits : staleRun.Admits := ⟨⟨⟨"al"⟩⟩, rfl⟩

/-- Signing out is not final by itself: the page that was open writes back what it had loaded. -/
theorem logout_undone :
    ∃ run : LogoutRun (sampleService .userSystem) (MemorySessions.keeping 60) ⟨1⟩,
      (∀ pending fresh handle,
        .finish pending fresh handle ∈ run.before ++ run.between ++ run.after →
          ¬ IsLogin pending.request) ∧ run.Admits := by
  refine ⟨staleRun, ?_, staleRun_admits⟩
  intro pending fresh handle he hlogin
  simp only [staleRun, List.cons_append, List.nil_append, List.mem_cons, List.not_mem_nil,
    or_false, reduceCtorEq, false_or] at he
  cases he
  exact absurd hlogin.1 (by decide)

theorem run_opening (board : Board) :
    ((sampleService (.minesweeper board)).handler (sampleGet .home)).run (sampleGet .home)
      ⟨.new (member []), ()⟩ = (.html 200 "", ⟨.new (member []), ()⟩) := rfl

theorem run_leaving_minesweeper (board : Board) :
    ((sampleService (.minesweeper board)).handler (sampleGet .logout)).run (sampleGet .logout)
      ⟨.new (member []), ()⟩ = (.seeOther "/login", ⟨left .minesweeper [], ()⟩) := rfl

def finalRun (board : Board) :
    LogoutRun (sampleService (.minesweeper board)) (MemorySessions.keeping 60) ⟨1⟩ where
  server := ⟨memberSessions [], ()⟩
  early := ⟨⟨memberSessions [], ()⟩, [opening .home []]⟩
  begun := ⟨⟨memberSessions [], ()⟩, [opening .logout [], opening .home []]⟩
  overlapped := ⟨⟨memberSessions [], ()⟩, [opening .logout [], opening .home []]⟩
  loggedOut := ⟨⟨(memberSessions []).drop ⟨1⟩, ()⟩, [opening .home []]⟩
  late := ⟨⟨(memberSessions []).drop ⟨1⟩, ()⟩, []⟩
  before := [.begin (opening .home [])]
  between := []
  after := [.finish (opening .home []) ⟨3⟩ (.new (member []))]
  logout := opening .logout []
  fresh := ⟨2⟩
  handle := left .minesweeper []
  next := ⟨sampleGet .home, none⟩
  last := (memberSessions []).drop ⟨1⟩
  runsBefore := .cons (.begin (start_sampleGet _ .home rfl)) .nil
  begins := .begin (start_sampleGet _ .logout rfl)
  runsBetween := .nil
  finishes := .finish_head (run_leaving_minesweeper board) rfl
  runsAfter := .cons (.finish_head (run_opening board) rfl) .nil
  loads := start_sampleGet _ .home rfl
  isLogout := ⟨rfl, rfl⟩
  presents := SessionCookie.token?_sample rfl
  presentsAgain := SessionCookie.token?_sample rfl
  generates := by
    intro pending fresh handle he
    simp only [List.nil_append, List.mem_cons, List.not_mem_nil, or_false] at he
    rcases he with he | he <;> cases he <;> decide

theorem plain_memberSessions :
    (MemorySessions.keeping 60).Holds (fun _ session => session.flashes = [])
      (memberSessions []) := by
  intro token session hlive
  obtain ⟨expiresAt, hkept, -⟩ := Kept.live?_eq_some_iff.1 hlive
  change MemorySessions.view.kept? (memberSessions []) token = _ at hkept
  rw [MemorySessions.view_kept?, memberSessions, MemorySessions.stored?_put] at hkept
  split at hkept
  · cases hkept
    rfl
  · cases hkept

theorem logout_final_samples : staleRun.Resurrects ∧ ¬ (finalRun ⟨9, 9, 10⟩).Admits := by
  refine ⟨(logout_final staleRun).1 staleRun_admits, ?_⟩
  refine (logout_final (finalRun ⟨9, 9, 10⟩)).2 ⟨_, rfl⟩ plain_memberSessions ?_
  intro pending fresh handle he hlogin
  simp only [finalRun, List.nil_append, List.mem_cons, List.not_mem_nil, or_false] at he
  cases he
  exact absurd hlogin.1 (by decide)

end AccountService

end Gatehouse
