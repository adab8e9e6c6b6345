import Gatehouse.Html.Pages
import Gatehouse.Proofs.Disk.Reliable
import Gatehouse.Proofs.Session.Healthy
import Gatehouse.Proofs.Site.FirstRegistration
import Gatehouse.Proofs.Site.Serving

set_option autoImplicit false

/-!
# The first registration counts

The password of the first registration opens an account for all time and for every visitor, and no
other password does.
-/

namespace Gatehouse

open AccountService (IsLogin IsRegister)

namespace CredentialStore

def readOnly {β : Type} (store : CredentialStore β) : CredentialStore β :=
  { store with create := fun _ _ => throw .userAlreadyExists }

end CredentialStore

namespace AccountService

variable {σ β : Type} {service : AccountService σ β} {request : Request} {visit : Visit β}

theorem run_handler_login (hlogin : IsLogin request) :
    (service.handler request).run request visit = service.pages.login.run request visit := by
  have hlookup : service.endpoints.lookup request.path = some service.pages.loginEndpoint := by
    rw [hlogin.2]
    obtain ⟨site, layer, credentials, renderer⟩ := service
    cases site <;> rfl
  rw [handler, hlookup]
  exact service.pages.run_loginEndpoint hlogin.1 visit

theorem lookup_register (hpath : request.path = Route.register.path) :
    service.endpoints.lookup request.path =
      some (.free (.getPost service.pages.registerForm service.pages.register)) := by
  rw [hpath]
  obtain ⟨site, layer, credentials, renderer⟩ := service
  cases site <;> rfl

theorem run_handler_register (hregister : IsRegister request) :
    (service.handler request).run request visit = service.pages.register.run request visit := by
  rw [handler, lookup_register hregister.2]
  dsimp only
  rw [Endpoint.run_free, hregister.1]
  rfl

def readOnly (service : AccountService σ β) : AccountService σ β :=
  { service with credentials := service.credentials.readOnly }

theorem handler_readOnly (hpath : request.path ≠ Route.register.path) :
    service.readOnly.handler request = service.handler request := by
  have hregister : (request.path == Route.register.path) = false := beq_eq_false_iff_ne.2 hpath
  -- The other endpoints never ask for `create`, so each is the same by computation.
  obtain ⟨site, layer, credentials, renderer⟩ := service
  cases site with
  | minesweeper board =>
    simp only [handler, endpoints, readOnly, Minesweeper.endpoints, List.lookup_cons, hregister]
    cases request.path == Route.login.path <;> cases request.path == Route.home.path <;>
      cases request.path == Route.profile.path <;> cases request.path == Route.logout.path <;> rfl
  | userSystem =>
    simp only [handler, endpoints, readOnly, UserSystem.endpoints, List.lookup_cons, hregister]
    cases request.path == Route.home.path <;> cases request.path == Route.login.path <;>
      cases request.path == Route.logout.path <;> cases request.path == Route.success.path <;> rfl

theorem backing_of_not_isRegister (hquiet : ¬ IsRegister request) {p : β → Prop}
    (hp : service.credentials.readOnly.Preserves p) (visit : Visit β) (h : p visit.backing) :
    p ((service.handler request).run request visit).2.backing := by
  -- The path for registering also answers a `GET`, with its form.
  by_cases hpath : request.path = Route.register.path
  · rw [handler, lookup_register hpath]
    dsimp only
    rw [Endpoint.run_free]
    cases hselect : Methods.select (.getPost service.pages.registerForm service.pages.register)
        request.method with
    | none => exact h
    | some handler =>
      rcases Methods.eq_of_select_getPost hselect with rfl | ⟨hmethod, -⟩
      · dsimp only
        rw [AccountPages.registerForm, AccountPages.run_showFlashes]
        exact h
      · exact absurd ⟨hmethod, hpath⟩ hquiet
  · rw [← handler_readOnly hpath]
    exact (service.readOnly.does request visit).1 p hp h

theorem server_of_serve {server : Server σ β} {fresh : SessionToken}
    (hpath : assets.below? request.path = none) :
    (service.app.serve request fresh server).2 =
      (service.layer.serve (service.handler request) request fresh server).2 := by
  rw [App.serve, hpath]
  simp only [App.servePath, App.serveInside, app_openPaths, app_sessions, app_endpoints,
    List.lookup_nil, handler]
  cases service.endpoints.lookup request.path <;> rfl

theorem answer_of_round {fresh : SessionToken} {server : Server σ β}
    (round : service.layer.Round (service.handler request) request fresh server)
    (hlogin : IsLogin request) {form : CredentialsForm}
    (hform : request.credentials? = some form) :
    (service.app.serve request fresh server).1 =
      { (service.pages.loginOutcome (.new (SessionLayer.given round.stored))
          ((service.pages.signIn form (SessionLayer.given round.stored)).runFrom
            server.backing).1).1 with
        setCookies := round.response.setCookies } := by
  have hread := Request.credentials?_eq_some_iff.1 hform
  have hanswer : round.answer = (service.pages.loginOutcome
      (.new (SessionLayer.given round.stored)) ((service.pages.signIn form
        (SessionHandle.new (SessionLayer.given round.stored)).session).runFrom
          server.backing).1).1 := by
    rw [SessionLayer.Round.answer, run_handler_login hlogin, AccountPages.run_login, hread]
  rw [serve_post hlogin.1 (.inl rfl) hlogin.2, round.serve_eq]
  exact congrArg (fun response : Response =>
    { response with setCookies := round.response.setCookies }) hanswer

/-- What a site has come to by some requests, of which the last comes first. Between two of them its
sessions may become others. -/
inductive Reaches (service : AccountService σ β) (Fine : σ → Prop) (start : β) :
    List Request → Server σ β → Prop
  | start {sessions : σ} (fine : Fine sessions) : Reaches service Fine start [] ⟨sessions, start⟩
  | serve {past : List Request} {server : Server σ β} {request : Request} {fresh : SessionToken}
      (reaches : Reaches service Fine start past server) :
      Reaches service Fine start (request :: past) (service.app.serve request fresh server).2
  | wait {past : List Request} {server : Server σ β} {sessions : σ}
      (reaches : Reaches service Fine start past server) (fine : Fine sessions) :
      Reaches service Fine start past { server with sessions := sessions }

def ShowsLogin (service : AccountService σ β) (answer : Response) : Prop :=
  answer.status = 200 ∧
    ∃ error flashes, service.renderer.render (.login error flashes) = .ok answer.body

/-- A login succeeds if, and only if, its password is the one of the first registration, and
everybody else is shown the form again. -/
def FirstRegistrationWins (service : AccountService σ β) (policy : PasswordPolicy)
    (salts : Nat → Salt) (Fine : σ → Prop) (start : β) : Prop :=
  ∀ ⦃past : List Request⦄ ⦃server : Server σ β⦄ ⦃request : Request⦄ ⦃form : CredentialsForm⦄
    (fresh : SessionToken), service.Reaches Fine start past server →
    IsLogin request → request.credentials? = some form →
    policy.Separates salts (Request.passwords (request :: past)) →
    let answer := (service.app.serve request fresh server).1
    (answer.SendsTo service.site.flow.afterLogin.path ↔
      Request.registeredPassword? form.username past = some form.password) ∧
    (¬ answer.SendsTo service.site.flow.afterLogin.path → service.ShowsLogin answer)

end AccountService

theorem SharedTable.Dependable.preserves_readOnly {τ : Type} {table : SharedTable τ}
    {Sound : τ → Prop} {records : τ → UserTable} (dependable : table.Dependable Sound records)
    (salts : Nat → Salt) (users : UserTable) :
    (table.store salts).readOnly.Preserves fun state =>
      Sound state.contents ∧ records state.contents = users where
  find name := .of_leaves fun _ h => congrArg Prod.snd (dependable.runFrom_find h.1 name)
  get id := .of_leaves fun _ h => congrArg Prod.snd (dependable.runFrom_getById h.1 id)
  isTaken name := .of_leaves fun _ h => congrArg Prod.snd (dependable.runFrom_isTaken h.1 name)
  create _ _ := .throw _
  verify name password :=
    .of_leaves fun _ h => congrArg Prod.snd (dependable.runFrom_verify h.1 name password)

namespace AccountService

variable {σ τ : Type} {service : AccountService σ (Salted τ)} {table : SharedTable τ}
  {Sound : τ → Prop} {records : τ → UserTable} {salts : Nat → Salt} {past : List Request}
  {Fine : σ → Prop} {server : Server σ (Salted τ)} {request : Request} {start : Salted τ}

theorem registered_serve (dependable : table.Dependable Sound records)
    (hcredentials : service.credentials = table.store salts)
    (healthy : service.layer.store.Healthy Fine) (hfine : Fine server.sessions)
    (fresh : SessionToken) (h : Registered table Sound records salts past server.backing) :
    Fine (service.app.serve request fresh server).2.sessions ∧
      Registered table Sound records salts (request :: past)
        (service.app.serve request fresh server).2.backing := by
  cases hpath : assets.below? request.path with
  | some path =>
    have hquiet : ¬ IsRegister request := by
      rintro ⟨-, hregister⟩
      rw [hregister, Route.below?_path] at hpath
      cases hpath
    rw [serve_static hpath]
    exact ⟨hfine, h.silent (Request.registers?_of_not_isRegister hquiet)⟩
  | none =>
    obtain ⟨round, hwritten⟩ :=
      SessionLayer.round_of_healthy healthy (service.handler request) request fresh server hfine
    rw [server_of_serve hpath, round.serve_eq]
    refine ⟨hwritten, ?_⟩
    change Registered table Sound records salts (request :: past)
      ((service.handler request).run request _).2.backing
    by_cases hregister : IsRegister request
    · rw [run_handler_register hregister, AccountPages.run_register]
      cases hform : CredentialsForm.ofRequest request with
      | error error =>
        exact h.silent (Request.registers?_of_no_form (by rw [Request.credentials?, hform]; rfl))
      | ok form =>
        exact h.signUp dependable hcredentials hregister (Request.credentials?_eq_some_iff.2 hform)
    · have hkeeps := dependable.preserves_readOnly salts (records server.backing.contents)
      rw [← hcredentials] at hkeeps
      obtain ⟨hsound, hrecords⟩ := backing_of_not_isRegister hregister hkeeps
        ⟨.new (SessionLayer.given round.stored), server.backing⟩ ⟨h.sound, rfl⟩
      exact (h.congr hsound hrecords).silent (Request.registers?_of_not_isRegister hregister)

theorem registered_of_reaches (dependable : table.Dependable Sound records)
    (hcredentials : service.credentials = table.store salts)
    (healthy : service.layer.store.Healthy Fine)
    (hstart : Registered table Sound records salts [] start)
    (hreaches : service.Reaches Fine start past server) :
    Fine server.sessions ∧ Registered table Sound records salts past server.backing := by
  induction hreaches with
  | start fine => exact ⟨fine, hstart⟩
  | serve reaches ih => exact registered_serve dependable hcredentials healthy ih.1 _ ih.2
  | wait reaches fine ih => exact ⟨fine, ih.2⟩

theorem answer_login (healthy : service.layer.store.Healthy Fine) (hfine : Fine server.sessions)
    (fresh : SessionToken) (hlogin : IsLogin request) {form : CredentialsForm}
    (hform : request.credentials? = some form) :
    ∃ handle cookies, (service.app.serve request fresh server).1 =
      { (service.pages.loginOutcome handle
          ((service.pages.signIn form handle.session).runFrom server.backing).1).1 with
        setCookies := cookies } := by
  obtain ⟨round, -⟩ :=
    SessionLayer.round_of_healthy healthy (service.handler request) request fresh server hfine
  exact ⟨_, _, answer_of_round round hlogin hform⟩

theorem firstRegistrationWins (dependable : table.Dependable Sound records)
    (hcredentials : service.credentials = table.store salts)
    (healthy : service.layer.store.Healthy Fine)
    (hrenders : ∀ view, ∃ html, service.renderer.render view = .ok html)
    (hstart : Registered table Sound records salts [] start) :
    service.FirstRegistrationWins table.policy salts Fine start := by
  intro past server request form fresh hreaches hlogin hform hseparates answer
  obtain ⟨hfine, hregistered⟩ :=
    registered_of_reaches dependable hcredentials healthy hstart hreaches
  obtain ⟨handle, cookies, hanswer⟩ := answer_login healthy hfine fresh hlogin hform
  have hused : form.password ∈ Request.passwords (request :: past) :=
    Request.mem_passwords List.mem_cons_self (.inr hlogin) hform
  have hpast : Request.passwords past ⊆ Request.passwords (request :: past) :=
    List.filterMap_subset _ (List.subset_cons_self request past)
  have hpages : service.pages.credentials = table.store salts := hcredentials
  have hsign := hregistered.signIn dependable hpages handle.session hseparates hused hpast
  by_cases hfirst : Request.registeredPassword? form.username past = some form.password
  · rw [if_pos hfirst] at hsign
    obtain ⟨result, hsign⟩ := hsign
    rw [hsign] at hanswer
    have hsends : answer.SendsTo service.site.flow.afterLogin.path := by
      change (service.app.serve request fresh server).1.SendsTo _
      rw [hanswer]
      exact ⟨rfl, rfl⟩
    exact ⟨⟨fun _ => hfirst, fun _ => hsends⟩, fun hnot => absurd hsends hnot⟩
  · rw [if_neg hfirst] at hsign
    rw [hsign] at hanswer
    let rejected := service.pages.flow.rejection AuthError.invalidCredentials.message handle.session
    obtain ⟨html, hrender⟩ := hrenders (.login rejected.1.1 rejected.1.2)
    have hpage : (Page.render (.login rejected.1.1 rejected.1.2)).answer service.pages.renderer =
        .html 200 html := Page.answer_of_renders hrender
    have hshown : answer = { Response.html 200 html with setCookies := cookies } := by
      change (service.app.serve request fresh server).1 = _
      rw [hanswer]
      exact congrArg (fun response : Response => { response with setCookies := cookies }) hpage
    refine ⟨⟨fun hsends => ?_, fun h => absurd h hfirst⟩, fun _ => ?_⟩
    · rw [hshown] at hsends
      cases hsends.2
    · rw [hshown]
      exact ⟨rfl, _, _, hrender⟩

end AccountService

/-- On a site that starts without accounts, and has them in memory or in a file that is missing, the
first registration of a name counts. -/
theorem first_registration_wins {σ : Type} (Fine : σ → Prop) (salts : Nat → Salt) :
    (∀ (service : AccountService σ (Salted UserTable)) (policy : PasswordPolicy),
      service.layer.store.Healthy Fine →
      (∀ view, ∃ html, service.renderer.render view = .ok html) →
      service.credentials = MemoryCredentials.store policy salts →
      service.FirstRegistrationWins policy salts Fine ⟨.empty, 0⟩) ∧
    ∀ {δ : Type} (service : AccountService σ (Salted δ)) (config : FileCredentials) (disk : Disk δ)
      (Sound : δ → Prop) (file : δ), service.layer.store.Healthy Fine →
      (∀ view, ∃ html, service.renderer.render view = .ok html) →
      service.credentials = config.store disk salts → disk.Reliable config.path Sound →
      Sound file → disk.contentAt? config.path file = none →
      service.FirstRegistrationWins config.policy salts Fine ⟨file, 0⟩ := by
  constructor
  · intro service policy healthy hrenders hcredentials
    rw [MemoryCredentials.store_eq] at hcredentials
    exact AccountService.firstRegistrationWins (MemoryCredentials.dependable policy) hcredentials
      healthy hrenders (.of_empty trivial rfl)
  · intro δ service config disk Sound file healthy hrenders hcredentials reliable hsound hmissing
    rw [FileCredentials.store_eq] at hcredentials
    exact AccountService.firstRegistrationWins (FileCredentials.dependable reliable) hcredentials
      healthy hrenders (.of_empty ⟨hsound, FileCredentials.holdsTable_of_none hmissing⟩
        (FileCredentials.recordsAt_of_none hmissing))

theorem first_registration_wins_at_start :
    let salts : Nat → Salt := fun _ => ⟨List.replicate 16 0, rfl⟩
    let layer : SessionLayer MemorySessions := ⟨MemorySessions.store 60, .sample⟩
    let path : FilePath := ⟨"data/users.json"⟩
    let game : AccountService MemorySessions (Salted UserTable) :=
      ⟨.minesweeper ⟨9, 9, 10⟩, layer, MemoryCredentials.store .plaintext salts, Html.renderer⟩
    let users : AccountService MemorySessions (Salted FileTree) :=
      ⟨.userSystem, layer, FileCredentials.store ⟨path, .argon2⟩ FileTree.disk salts, Html.renderer⟩
    let register := AccountPages.samplePost .register []
    let login := AccountPages.samplePost .login []
    let registered := (game.app.serve register ⟨1⟩ ⟨{}, ⟨.empty, 0⟩⟩).2
    let recorded := (users.app.serve register ⟨1⟩ ⟨{}, ⟨.empty, 0⟩⟩).2
    layer.store.Healthy (fun _ => True) ∧ FileTree.disk.Reliable path (FileTree.Writable path) ∧
      FileTree.Writable path .empty ∧
      (game.app.serve login ⟨2⟩ registered).1.SendsTo "/" ∧
      (users.app.serve login ⟨2⟩ recorded).1.SendsTo "/success" := by
  intro salts layer path game users register login registered recorded
  have healthy : layer.store.Healthy fun _ => True := MemorySessions.healthy 60
  have reliable := FileTree.reliable path
  have hsound : FileTree.Writable path .empty := FileTree.writable_below
  have hmissing : FileTree.disk.contentAt? ⟨"data/users.json"⟩ .empty = none := by decide
  have hrenders : ∀ view, ∃ html, Html.renderer.render view = .ok html := fun view => ⟨_, rfl⟩
  have hregister : register.credentials? = some ⟨"al", "pw"⟩ :=
    Request.credentials?_eq_some_iff.2 (AccountPages.ofRequest_samplePost _ _)
  have hlogin : login.credentials? = some ⟨"al", "pw"⟩ :=
    Request.credentials?_eq_some_iff.2 (AccountPages.ofRequest_samplePost _ _)
  have hfirst : Request.registeredPassword? "al" [register] = some "pw" :=
    Request.registers?_eq_some_iff.2 ⟨⟨rfl, rfl⟩, hregister, rfl, by decide⟩
  have hpasswords : Request.passwords [login, register] = ["pw", "pw"] := by
    rw [Request.passwords, List.filterMap_cons, List.filterMap_cons]
    simp only [hregister, hlogin]
    rfl
  have hseparates : ∀ policy : PasswordPolicy,
      policy.Separates salts (Request.passwords [login, register]) := by
    rintro policy - n p hp q hq -
    rw [hpasswords] at hp hq
    simp_all
  refine ⟨healthy, reliable, hsound, ?_, ?_⟩
  · have wins := (first_registration_wins _ salts).1 game .plaintext healthy hrenders rfl
    exact (wins ⟨2⟩ (.serve (.start trivial)) ⟨rfl, rfl⟩ hlogin (hseparates _)).1.2 hfirst
  · have wins := (first_registration_wins _ salts).2 users ⟨path, .argon2⟩ FileTree.disk _ .empty
      healthy hrenders rfl reliable hsound hmissing
    exact (wins ⟨2⟩ (.serve (.start trivial)) ⟨rfl, rfl⟩ hlogin (hseparates _)).1.2 hfirst

end Gatehouse
