import Gatehouse.Proofs.Session.KeyValue
import Gatehouse.Proofs.Site.History
import Gatehouse.Proofs.Site.Registration

set_option autoImplicit false

/-!
# What the sites store

Every entry of the session store, expired ones included, was made by the site itself under a token
that it had drawn, and holds a session with something in it. The game stores nothing but the
sessions of those who are signed in.
-/

namespace Gatehouse

namespace SessionKeeping

variable {σ : Type} {store : SessionStore σ} {keeping : SessionKeeping store}
  {p : SessionToken → Session → Prop} {state mid after : σ} {token fresh : SessionToken}
  {presented : Option SessionToken} {stored : Option StoredSession} {handle : SessionHandle}
  {change : CookieChange}

variable (keeping) in
def Stores (p : SessionToken → Session → Prop) (state : σ) : Prop :=
  ∀ token kept, keeping.kept? state token = some kept →
    ∃ session, kept.value = some session ∧ p token session

theorem kept?_of_spares {kept : Kept (Option Session)} (h : keeping.Spares state after token)
    (hkept : keeping.kept? after token = some kept) : keeping.kept? state token = some kept := by
  rcases h with heq | ⟨hnone, -⟩
  · rwa [heq] at hkept
  · rw [hnone] at hkept
    cases hkept

namespace Stores

theorem of_empty (h : ∀ token, keeping.kept? state token = none) : keeping.Stores p state := by
  intro token kept hkept
  rw [h token] at hkept
  cases hkept

theorem of_steady (h : keeping.Stores p state) (hsteady : keeping.Steady state after) :
    keeping.Stores p after :=
  fun token kept hkept => h token kept (kept?_of_spares (hsteady.spares token) hkept)

theorem of_passes (h : keeping.Stores p state) (hpasses : keeping.Passes state after) :
    keeping.Stores p after := by
  intro token kept hkept
  rcases hpasses.lasts token with heq | ⟨hnone, -⟩
  · rw [heq] at hkept
    exact h token kept hkept
  · rw [hnone] at hkept
    cases hkept

theorem of_removed (h : keeping.Stores p state) (hsets : keeping.Sets token none state after) :
    keeping.Stores p after := by
  intro other kept hkept
  by_cases heq : other = token
  · rw [heq, hsets.kept?_self] at hkept
    cases hkept
  · exact h other kept (kept?_of_spares (hsets.spares other heq) hkept)

theorem of_saved {session : Session} {expiresAt : Nat} (h : keeping.Stores p state)
    (hsets : keeping.Sets token (some ⟨some session, expiresAt⟩) state after)
    (hsession : p token session) : keeping.Stores p after := by
  intro other kept hkept
  by_cases heq : other = token
  · rw [heq, hsets.kept?_self] at hkept
    cases hkept
    exact ⟨session, rfl, heq ▸ hsession⟩
  · exact h other kept (kept?_of_spares (hsets.spares other heq) hkept)

theorem of_started (h : keeping.Stores p state)
    (hstarted : keeping.Started state presented stored after) : keeping.Stores p after := by
  cases hstarted with
  | unpresented => exact h
  | unknown live steady => exact h.of_steady steady
  | found live steady => exact h.of_steady steady
  | discarded live sets => exact h.of_removed sets

theorem loaded {session : Session} (h : keeping.Stores p state)
    (hstarted : keeping.Started state presented (some (token, session)) after) :
    p token session := by
  cases hstarted with
  | found live steady =>
    obtain ⟨expiresAt, hkept, -⟩ := Kept.live?_eq_some_iff.1 live
    obtain ⟨found, hvalue, hfound⟩ := h token _ hkept
    cases hvalue
    exact hfound

theorem of_writtenBack (h : keeping.Stores p state)
    (hwritten : keeping.WrittenBack state fresh handle stored change after)
    (hfresh : handle.session ≠ .new → p fresh handle.session)
    (hkept : ∀ token session, stored = some (token, session) → handle.session ≠ .new →
      p token handle.session) : keeping.Stores p after := by
  cases hwritten with
  | unchanged modified => exact h
  | unneeded modified empty => exact h
  | begun modified nonempty sets => exact h.of_saved sets (hfresh nonempty)
  | ended modified empty sets => exact h.of_removed sets
  | moved modified wasAnonymous isAuthenticated removes sets =>
    exact (h.of_removed removes).of_saved sets
      (hfresh (Session.ne_new_of_isAuthenticated isAuthenticated))
  | @kept token session _ modified nonempty noRise sets =>
    exact h.of_saved sets (hkept token session rfl nonempty)

end Stores

theorem WrittenBack.of_new_entry {before : σ}
    (hstarted : keeping.Started before presented stored state)
    (hwritten : keeping.WrittenBack state fresh handle stored change after)
    (hnone : keeping.kept? before token = none) (hsome : keeping.kept? after token ≠ none) :
    token = fresh ∧ handle.modified = true ∧ handle.session ≠ .new := by
  have hspared {early late : σ} (hearly : keeping.kept? early token = none)
      (h : keeping.Spares early late token) : keeping.kept? late token = none := by
    rw [TimedView.Spares, hearly] at h
    exact h.eq_none
  have hcleared {early late : σ} {other : SessionToken}
      (hearly : keeping.kept? early token = none) (h : keeping.Sets other none early late) :
      keeping.kept? late token = none := by
    by_cases heq : token = other
    · rw [heq]
      exact h.kept?_self
    · exact hspared hearly (h.spares token heq)
  have hloaded : keeping.kept? state token = none := by
    cases hstarted with
    | unpresented => exact hnone
    | unknown live steady => exact hspared hnone (steady.spares token)
    | found live steady => exact hspared hnone (steady.spares token)
    | discarded live sets => exact hcleared hnone sets
  cases hwritten with
  | unchanged modified => exact absurd hloaded hsome
  | unneeded modified empty => exact absurd hloaded hsome
  | begun modified nonempty sets =>
    by_cases heq : token = fresh
    · exact ⟨heq, modified, nonempty⟩
    · exact absurd (hspared hloaded (sets.spares token heq)) hsome
  | ended modified empty sets => exact absurd (hcleared hloaded sets) hsome
  | moved modified wasAnonymous isAuthenticated removes sets =>
    by_cases heq : token = fresh
    · exact ⟨heq, modified, Session.ne_new_of_isAuthenticated isAuthenticated⟩
    · exact absurd (hspared (hcleared hloaded removes) (sets.spares token heq)) hsome
  | @kept other session _ modified nonempty noRise sets =>
    by_cases heq : token = other
    · cases hstarted with
      | found live steady =>
        obtain ⟨expiresAt, hkept, -⟩ := Kept.live?_eq_some_iff.1 live
        rw [← heq, hnone] at hkept
        cases hkept
    · exact absurd (hspared hloaded (sets.spares token heq)) hsome

end SessionKeeping

namespace AccountSite

/-- A session as it may stand in the store of a site, or a new one: the flag and the user belong
together, and a site without notices has nothing to store but who is signed in. -/
structure Allows (site : AccountSite) (session : Session) : Prop where
  flag_iff : session.authenticated = true ↔ session.userId.isSome = true
  signedIn : site.flow.feedback = .inline → session ≠ .new →
    session.isAuthenticated = true ∧ session.flashes = []

variable {site : AccountSite} {session : Session}

theorem allows_new (site : AccountSite) : site.Allows .new :=
  ⟨by decide, fun _ h => absurd rfl h⟩

theorem Allows.flashes_eq (h : site.Allows session) (hinline : site.flow.feedback = .inline) :
    session.flashes = [] := by
  by_cases hnew : session = .new
  · rw [hnew]
    rfl
  · exact (h.signedIn hinline hnew).2

end AccountSite

namespace AccountService

variable {σ β : Type} {service : AccountService σ β} {request : Request} {visit after : Visit β}
  {answer : Response}

theorem allows_of_effect {session : Session} {backing : β}
    (h : service.site.Allows visit.handle.session)
    (heffect : service.Effect request visit answer session backing) :
    service.site.Allows session := by
  cases heffect with
  | spared same unchanged failed anonymous =>
    refine ⟨?_, fun hinline => ?_⟩
    · rw [same.1, same.2]
      exact h.flag_iff
    · rw [unchanged hinline (h.flashes_eq hinline)]
      exact h.signedIn hinline
  | @signedIn form name password user mid _ isLogin reads parses verifies finds redirects =>
    have hsame := service.site.flow.sameUser_celebrate AccountPages.signedIn
      (visit.handle.session.authenticate user.id)
    refine ⟨?_, fun hinline _ => ?_⟩
    · rw [hsame.1, hsame.2]
      exact ⟨fun _ => rfl, fun _ => rfl⟩
    · rw [AuthFlow.celebrate_of_inline hinline]
      exact ⟨rfl, h.flashes_eq hinline⟩
  | loggedOut method path =>
    refine ⟨?_, fun hinline hnonempty => ?_⟩
    · rw [AuthFlow.farewell]
      cases service.site.flow.feedback <;> exact Iff.rfl
    · exact absurd (AuthFlow.farewell_of_inline hinline _) hnonempty
  | vanished admits gone => exact service.site.allows_new

theorem signedIn_of_changed {session : Session} {backing : β}
    (hinline : service.site.flow.feedback = .inline) (hplain : session.flashes = [])
    (h : (service.handler request).run request ⟨.new session, backing⟩ = (answer, after))
    (hmodified : after.handle.modified = true) (hnonempty : after.handle.session ≠ .new) :
    IsLogin request ∧ answer = .seeOther service.site.flow.afterLogin.path := by
  have hchanged := (modified_iff h).1 hmodified
  obtain ⟨result, hhandle, -, heffect⟩ := effect_of_run h
  rw [hhandle, SessionHandle.session_commit] at hchanged hnonempty
  generalize after.backing = last at heffect
  cases heffect with
  | spared same unchanged => exact absurd (unchanged hinline hplain) hchanged
  | signedIn isLogin reads parses verifies finds redirects => exact ⟨isLogin, redirects⟩
  | loggedOut => exact absurd (AuthFlow.farewell_of_inline hinline _) hnonempty
  | vanished admits gone => exact absurd rfl hnonempty

variable (service) in
/-- No call to the session store fails during a request. -/
def Calm (request : Request) (fresh : SessionToken) (server : Server σ β) : Prop :=
  assets.below? request.path = none →
    Nonempty (service.layer.Round (service.handler request) request fresh server)

variable (service) in
/-- What a site that starts without sessions comes to by any requests, with the tokens that were
drawn for them. Between two requests time passes, and the accounts may change. -/
inductive Visited (keeping : SessionKeeping service.layer.store) :
    List SessionToken → Server σ β → Prop
  | start {server : Server σ β} (empty : ∀ token, keeping.kept? server.sessions token = none) :
      Visited keeping [] server
  | serve {drawn : List SessionToken} {server : Server σ β} {request : Request}
      {fresh : SessionToken} (visited : Visited keeping drawn server)
      (calm : service.Calm request fresh server) :
      Visited keeping (fresh :: drawn) (service.app.serve request fresh server).2
  | wait {drawn : List SessionToken} {server : Server σ β} {sessions : σ} {backing : β}
      (visited : Visited keeping drawn server)
      (passes : keeping.Passes server.sessions sessions) :
      Visited keeping drawn ⟨sessions, backing⟩

structure Made (site : AccountSite) (drawn : List SessionToken) (token : SessionToken)
    (session : Session) : Prop where
  drawn : token ∈ drawn
  nonempty : session ≠ .new
  allowed : site.Allows session

variable {keeping : SessionKeeping service.layer.store} {drawn : List SessionToken}
  {server : Server σ β} {fresh : SessionToken}

theorem allows_given (h : keeping.Stores (Made service.site drawn) server.sessions)
    (round : service.layer.Round (service.handler request) request fresh server) :
    service.site.Allows (SessionLayer.given round.stored) := by
  have hstarted := round.started keeping
  rcases hstored : round.stored with _ | ⟨token, session⟩
  · exact service.site.allows_new
  · rw [hstored] at hstarted
    exact (h.loaded hstarted).allowed

theorem made_serve (h : keeping.Stores (Made service.site drawn) server.sessions)
    (calm : service.Calm request fresh server) :
    keeping.Stores (Made service.site (fresh :: drawn))
      (service.app.serve request fresh server).2.sessions := by
  have hdrawn : keeping.Stores (Made service.site (fresh :: drawn)) server.sessions := by
    intro token kept hkept
    obtain ⟨session, hvalue, hmade⟩ := h token kept hkept
    exact ⟨session, hvalue, List.mem_cons_of_mem _ hmade.drawn, hmade.nonempty, hmade.allowed⟩
  cases hpath : assets.below? request.path with
  | some path =>
    rw [serve_static hpath]
    exact hdrawn
  | none =>
    obtain ⟨round⟩ := calm hpath
    have hstarted := round.started keeping
    have hallowed : service.site.Allows round.visit.handle.session := by
      obtain ⟨session, hhandle, -, heffect⟩ := effect_of_run
        (show (service.handler request).run request _ = (round.answer, round.visit) from rfl)
      rw [hhandle, SessionHandle.session_commit]
      exact allows_of_effect (allows_given h round) heffect
    rw [server_of_serve hpath, round.serve_eq]
    refine (hdrawn.of_started hstarted).of_writtenBack (round.writtenBack keeping)
      (fun hnonempty => ⟨List.mem_cons_self, hnonempty, hallowed⟩) ?_
    intro token session hstored hnonempty
    rw [hstored] at hstarted
    exact ⟨(hdrawn.loaded hstarted).drawn, hnonempty, hallowed⟩

theorem made_of_visited (h : service.Visited keeping drawn server) :
    keeping.Stores (Made service.site drawn) server.sessions := by
  induction h with
  | start empty => exact .of_empty empty
  | serve visited calm ih => exact made_serve ih calm
  | wait visited passes ih => exact ih.of_passes passes

theorem signedIn_of_new_entry (h : keeping.Stores (Made service.site drawn) server.sessions)
    (hinline : service.site.flow.feedback = .inline) (calm : service.Calm request fresh server)
    {token : SessionToken} (hnone : keeping.kept? server.sessions token = none)
    (hsome : keeping.kept? (service.app.serve request fresh server).2.sessions token ≠ none) :
    IsLogin request ∧
      (service.app.serve request fresh server).1.SendsTo service.site.flow.afterLogin.path := by
  cases hpath : assets.below? request.path with
  | some path =>
    rw [serve_static hpath] at hsome
    exact absurd hnone hsome
  | none =>
    obtain ⟨round⟩ := calm hpath
    rw [server_of_serve hpath, round.serve_eq] at hsome
    obtain ⟨-, hmodified, hnonempty⟩ := (round.writtenBack keeping).of_new_entry
      (round.started keeping) hnone hsome
    obtain ⟨hlogin, hanswer⟩ := signedIn_of_changed hinline
      ((allows_given h round).flashes_eq hinline)
      (show (service.handler request).run request _ = (round.answer, round.visit) from rfl)
      hmodified hnonempty
    refine ⟨hlogin, ?_⟩
    rw [serve_post hlogin.1 (.inl rfl) hlogin.2, round.serve_eq]
    refine ⟨?_, ?_⟩
    · rw [SessionLayer.Round.response, hanswer]
      rfl
    · rw [SessionLayer.Round.response, hanswer]
      rfl

/-- Whatever requests a site has served without a failure of its session store: every entry there
was made under a token that the site had drawn, and is a session with something in it whose flag and
user belong together. The game stores those who are signed in and nothing else about them, and only
a login that succeeds makes an entry there. -/
theorem stored_sessions_made (h : service.Visited keeping drawn server) :
    (∀ token kept, keeping.kept? server.sessions token = some kept →
      ∃ session, kept.value = some session ∧ token ∈ drawn ∧ session ≠ .new ∧
        (session.authenticated = true ↔ session.userId.isSome = true) ∧
        ∀ board, service.site = .minesweeper board →
          session.isAuthenticated = true ∧ session.flashes = []) ∧
    ∀ board, service.site = .minesweeper board → ∀ request fresh token,
      service.Calm request fresh server → keeping.kept? server.sessions token = none →
      keeping.kept? (service.app.serve request fresh server).2.sessions token ≠ none →
        IsLogin request ∧ (service.app.serve request fresh server).1.SendsTo Route.home.path := by
  have hmade := made_of_visited h
  constructor
  · intro token kept hkept
    obtain ⟨session, hvalue, made⟩ := hmade token kept hkept
    refine ⟨session, hvalue, made.drawn, made.nonempty, made.allowed.flag_iff, ?_⟩
    intro board hsite
    exact made.allowed.signedIn (by rw [hsite]; rfl) made.nonempty
  · intro board hsite request fresh token calm hnone hsome
    have hnew := signedIn_of_new_entry hmade (by rw [hsite]; rfl) calm hnone hsome
    rw [hsite] at hnew
    exact hnew

theorem calm_of_healthy {Fine : σ → Prop} (healthy : service.layer.store.Healthy Fine)
    (hfine : Fine server.sessions) : service.Calm request fresh server := by
  intro _
  obtain ⟨round, -⟩ :=
    SessionLayer.round_of_healthy healthy (service.handler request) request fresh server hfine
  exact ⟨round⟩

theorem stored_sessions_made_samples :
    let game := MemoryService.sampleHost.service
    let users : AccountService ExpiringMap (Salted UserTable) :=
      { game with
        site := .userSystem, layer := ⟨KeyValueSessions.store ExpiringMap.server 60, .sample⟩ }
    let login := AccountPages.samplePost .login []
    let logout := AccountPages.sampleGet .logout
    let left := (users.app.serve logout ⟨2⟩ ⟨{}, ⟨.empty, 0⟩⟩).2
    game.Visited (MemorySessions.keeping 60) [⟨1⟩] MemoryService.signedIn ∧
      users.Visited (KeyValueSessions.keeping ExpiringMap.expiring 60) [⟨2⟩] left ∧
      (∀ token kept, MemorySessions.view.kept? MemoryService.signedIn.sessions token = some kept →
        token = ⟨1⟩ ∧ ∃ session, kept.value = some session ∧ session.isAuthenticated = true) ∧
      (∀ token kept, ExpiringMap.view.kept? left.sessions (KeyValueSessions.key token) = some kept →
        token = ⟨2⟩) ∧
      (game.app.serve login ⟨1⟩ MemoryService.registered).1.SendsTo "/" := by
  intro game users login logout left
  have hcalm : game.Calm login ⟨1⟩ MemoryService.registered :=
    calm_of_healthy (MemorySessions.healthy 60) trivial
  have hstart : game.Visited (MemorySessions.keeping 60) [] MemoryService.registered :=
    .start fun _ => rfl
  have hsignedIn : game.Visited (MemorySessions.keeping 60) [⟨1⟩] MemoryService.signedIn := by
    have hserved := hstart.serve hcalm
    rwa [show game.app.serve login ⟨1⟩ MemoryService.registered = _ from
      MemoryService.serve_login] at hserved
  have hleft : users.Visited (KeyValueSessions.keeping ExpiringMap.expiring 60) [⟨2⟩] left := by
    have htoken : users.layer.cookie.token? logout = some ⟨1⟩ := SessionCookie.token?_sample rfl
    have hload : (users.layer.start logout).runFrom {} = (.ok none, {}) := by
      rw [SessionLayer.start, htoken]
      rfl
    exact .serve (.start fun _ => rfl) fun _ => ⟨⟨none, {}, _, _, hload, rfl⟩⟩
  refine ⟨hsignedIn, hleft, ?_, ?_, ?_⟩
  · intro token kept hkept
    obtain ⟨session, hvalue, hdrawn, -, -, hgame⟩ :=
      (stored_sessions_made hsignedIn).1 token kept hkept
    exact ⟨List.mem_singleton.1 hdrawn, session, hvalue, (hgame _ rfl).1⟩
  · intro token kept hkept
    have hread : (KeyValueSessions.keeping ExpiringMap.expiring 60).kept? left.sessions token =
        some (KeyValueSessions.readKept kept) := congrArg (Option.map _) hkept
    obtain ⟨session, -, hdrawn, -⟩ := (stored_sessions_made hleft).1 token _ hread
    exact List.mem_singleton.1 hdrawn
  · have hentry : (MemorySessions.keeping 60).kept?
        (game.app.serve login ⟨1⟩ MemoryService.registered).2.sessions ⟨1⟩ ≠ none := by
      rw [show game.app.serve login ⟨1⟩ MemoryService.registered = _ from MemoryService.serve_login]
      exact Option.some_ne_none _
    exact ((stored_sessions_made hstart).2 _ rfl login ⟨1⟩ ⟨1⟩ hcalm rfl hentry).2

end AccountService

end Gatehouse
