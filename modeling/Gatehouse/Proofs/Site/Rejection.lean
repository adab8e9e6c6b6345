import Gatehouse.Proofs.Site.StoredSessions
import Gatehouse.Proofs.Site.Telling

set_option autoImplicit false

/-!
# Logins that fail

Whoever fails to sign in is shown the same page and has the same session afterwards, whether the
name is unknown, the password is wrong, or either is no valid text at all. What a store has written
can always be compared with a password, so none of these logins ends in an error of the server.
-/

namespace Gatehouse

/-- Every record is what registering its name with the store has once left, with whatever salts. -/
def WrittenBy {τ : Type} (store : (Nat → Salt) → CredentialStore (Salted τ)) (users : UserTable) :
    Prop :=
  ∀ (name : Username) (stored : String), users.get? name.text = some stored →
    ∃ salts password before user after,
      ((store salts).create name password).runFrom before = (.ok user, after) ∧
        user.storedPassword = stored

theorem writtenBy_empty {τ : Type} (store : (Nat → Salt) → CredentialStore (Salted τ)) :
    WrittenBy store .empty := by
  intro name stored hget
  cases hget

namespace SharedTable

variable {τ : Type} {table : SharedTable τ}

theorem create_ok {salts : Nat → Salt} {name : Username} {password : Password}
    {before after : Salted τ} {user : User}
    (h : (table.create salts name password).runFrom before = (.ok user, after)) :
    user.storedPassword = table.policy.protect (salts before.drawn) password := by
  rw [(create_added h).1]
  rfl

theorem protected_of_writtenBy {users : UserTable} (h : WrittenBy table.store users)
    {name : Username} {stored : String} (hget : users.get? name.text = some stored) :
    ∃ salt password, stored = table.policy.protect salt password := by
  obtain ⟨salts, password, before, user, after, hcreate, rfl⟩ := h name stored hget
  exact ⟨_, _, create_ok hcreate⟩

variable {Sound : τ → Prop} {records : τ → UserTable}

theorem Dependable.preserves_writtenBy (dependable : table.Dependable Sound records)
    (salts : Nat → Salt) :
    (table.store salts).Preserves fun state =>
      Sound state.contents ∧ WrittenBy table.store (records state.contents) where
  find name := .of_leaves fun _ h => congrArg Prod.snd (dependable.runFrom_find h.1 name)
  get id := .of_leaves fun _ h => congrArg Prod.snd (dependable.runFrom_getById h.1 id)
  isTaken name := .of_leaves fun _ h => congrArg Prod.snd (dependable.runFrom_isTaken h.1 name)
  create name password := by
    rintro state ⟨hsound, hwritten⟩
    rw [show (table.store salts).create name password = table.create salts name password from rfl]
    by_cases htaken : (records state.contents).contains name.text = true
    · rw [dependable.runFrom_create_of_taken hsound salts htaken]
      exact ⟨hsound, hwritten⟩
    · obtain ⟨after, hcreate, hafter, hrecords⟩ :=
        dependable.runFrom_create_of_new hsound salts htaken password
      rw [hcreate]
      refine ⟨hafter, fun other stored hget => ?_⟩
      rw [hrecords, UserTable.get?_insert] at hget
      split at hget
      · next heq =>
        obtain rfl : other = name := Username.text_inj heq
        cases hget
        exact ⟨salts, password, state, _, _, hcreate, rfl⟩
      · exact hwritten other stored hget
  verify name password :=
    .of_leaves fun _ h => congrArg Prod.snd (dependable.runFrom_verify h.1 name password)

theorem Dependable.created (dependable : table.Dependable Sound records) {state : Salted τ}
    (hsound : Sound state.contents) (salts : Nat → Salt) {name : Username}
    (hnew : ¬ (records state.contents).contains name.text = true) (password candidate : Password) :
    let after := ((table.create salts name password).runFrom state).2
    Sound after.contents ∧ (table.verify name candidate).runFrom after =
      (.ok (table.policy.accepts (salts state.drawn) password candidate), after) := by
  obtain ⟨after, hcreate, hafter, hrecords⟩ :=
    dependable.runFrom_create_of_new hsound salts hnew password
  rw [hcreate]
  refine ⟨hafter, ?_⟩
  rw [dependable.runFrom_verify hafter, hrecords, UserTable.get?_insert, if_pos rfl]
  dsimp only
  rw [PasswordPolicy.verify_protect]
  rfl

end SharedTable

theorem FileCredentials.writtenBy_first {δ : Type} {config : FileCredentials} {disk : Disk δ}
    {Sound : δ → Prop} (reliable : disk.Reliable config.path Sound) {file : δ} (hsound : Sound file)
    (hmissing : disk.contentAt? config.path file = none) (salts : Nat → Salt) (name : Username)
    (password : Password) :
    let known (accounts : Salted δ) := Sound accounts.contents ∧
      HoldsTable disk config.path accounts.contents ∧
      WrittenBy (config.store disk) (recordsAt disk config.path accounts.contents)
    let start : Salted δ := ⟨file, 0⟩
    let after := (((config.store disk salts).create name password).runFrom start).2
    known start ∧ known after ∧ ∀ candidate,
      ((config.store disk salts).verify name candidate).runFrom start = (.ok false, start) ∧
      ((config.store disk salts).verify name candidate).runFrom after =
        (.ok (config.policy.accepts (salts 0) password candidate), after) := by
  intro known start after
  have dependable := dependable reliable
  have hrecords : recordsAt disk config.path start.contents = .empty := recordsAt_of_none hmissing
  have hstart : Sound start.contents ∧ HoldsTable disk config.path start.contents :=
    ⟨hsound, holdsTable_of_none hmissing⟩
  have hwritten : WrittenBy (config.table disk).store
      (recordsAt disk config.path start.contents) := by
    rw [hrecords]
    exact writtenBy_empty _
  have hnew : ¬ (recordsAt disk config.path start.contents).contains name.text = true := by
    rw [hrecords, UserTable.contains, UserTable.get?_empty]
    decide
  have hknown := (dependable.preserves_writtenBy salts).create name password start
    ⟨hstart, hwritten⟩
  rw [← config.store_eq disk salts, ← funext (config.store_eq disk)] at hknown
  rw [← funext (config.store_eq disk)] at hwritten
  refine ⟨⟨hstart.1, hstart.2, hwritten⟩, ⟨hknown.1.1, hknown.1.2, hknown.2⟩, fun candidate => ?_⟩
  have hverify := dependable.runFrom_verify hstart name candidate
  rw [hrecords] at hverify
  have hcreated := dependable.created hstart salts hnew password candidate
  simp only [after, config.store_eq disk salts]
  exact ⟨hverify, hcreated.2⟩

theorem AccountPages.runFrom_signIn_of_unmatched {β : Type} {pages : AccountPages β}
    {form : CredentialsForm} {name : Username} {password : Password} {accounts : β}
    (hparse : form.parse = .ok (name, password))
    (hverify : (pages.credentials.verify name password).runFrom accounts = (.ok false, accounts))
    (session : Session) :
    (pages.signIn form session).runFrom accounts =
      (.error (.auth .invalidCredentials), accounts) := by
  rw [signIn, hparse]
  dsimp only
  rw [Attempt.runFrom_bind, CredentialStore.runFrom_login_of_unmatched session hverify]

theorem SharedTable.Dependable.signIn_outcome {τ : Type} {table : SharedTable τ}
    {Sound : τ → Prop} {records : τ → UserTable} {salts : Nat → Salt} {accounts : Salted τ}
    {pages : AccountPages (Salted τ)} (dependable : table.Dependable Sound records)
    (hpages : pages.credentials = table.store salts) (hsound : Sound accounts.contents)
    (hwritten : WrittenBy table.store (records accounts.contents)) (form : CredentialsForm)
    (session : Session) :
    (∃ result, (pages.signIn form session).runFrom accounts = (.ok result, accounts)) ∨
      (pages.signIn form session).runFrom accounts =
        (.error (.auth .invalidCredentials), accounts) := by
  cases hparse : form.parse with
  | error error =>
    rw [AccountPages.signIn, hparse]
    exact .inr rfl
  | ok values =>
    obtain ⟨name, password⟩ := values
    have hverify : ((table.store salts).verify name password).runFrom accounts = _ :=
      dependable.runFrom_verify hsound name password
    have hfind : ((table.store salts).find name).runFrom accounts = _ :=
      dependable.runFrom_find hsound name
    rw [← hpages] at hverify hfind
    cases hget : (records accounts.contents).get? name.text with
    | none =>
      rw [hget] at hverify
      exact .inr (AccountPages.runFrom_signIn_of_unmatched hparse hverify session)
    | some stored =>
      obtain ⟨salt, kept, rfl⟩ := protected_of_writtenBy hwritten hget
      rw [hget] at hverify hfind
      dsimp only at hverify
      rw [PasswordPolicy.verify_protect] at hverify
      cases haccepts : table.policy.accepts salt kept password with
      | false =>
        rw [haccepts] at hverify
        exact .inr (AccountPages.runFrom_signIn_of_unmatched hparse hverify session)
      | true =>
        rw [haccepts] at hverify
        have hlogin := CredentialStore.runFrom_login_of_matched session hverify hfind
        rw [AccountPages.signIn, hparse]
        exact .inl ⟨_, Attempt.runFrom_bind_eq_ok.2 ⟨_, _, hlogin, rfl⟩⟩

theorem AuthFlow.rejection_new (flow : AuthFlow) (message : String) :
    (flow.rejection message .new).2 = .new := by
  rw [rejection]
  cases flow.feedback <;> rfl

namespace AccountPages

variable {β : Type} (pages : AccountPages β)

/-- What everybody is answered with whose form matches no account, and the handle afterwards. -/
def turnedAway (handle : SessionHandle) : Response × SessionHandle :=
  pages.loginOutcome handle (.error (.auth .invalidCredentials))

theorem sameUser_turnedAway (handle : SessionHandle) :
    handle.session.SameUser (pages.turnedAway handle).2.session :=
  pages.flow.sameUser_rejection _ handle.session

theorem turnedAway_new : (pages.turnedAway (.new .new)).2.session = .new :=
  pages.flow.rejection_new _

end AccountPages

namespace SessionLayer

variable {σ β : Type} {layer : SessionLayer σ} {stored : Option StoredSession}
  {handle : SessionHandle}

theorem writeBack_unmoved (hnew : stored = none → handle.session = .new)
    (hsame : (given stored).SameUser handle.session) (fresh other : SessionToken) :
    layer.writeBack stored other handle = layer.writeBack stored fresh handle := by
  cases hchanged : handle.changed? with
  | none => simp only [writeBack, hchanged]
  | some session =>
    obtain ⟨-, rfl⟩ := SessionHandle.changed?_eq_some_iff.1 hchanged
    cases stored with
    | none =>
      have hempty : handle.session.isEmpty = true := (Session.isEmpty_iff _).2 (hnew rfl)
      simp only [writeBack, hchanged, saveNew, if_pos hempty]
    | some found =>
      have hrise : (!found.2.isAuthenticated && handle.session.isAuthenticated) = false := by
        rw [show handle.session.isAuthenticated = found.2.isAuthenticated from
          hsame.isAuthenticated]
        exact Bool.not_and_self _
      simp only [writeBack, hchanged, saveChanged, hrise, Bool.false_eq_true, if_false]

theorem serve_alike {handler handler' : Handler (Visit β)} {request other : Request}
    {accounts others : β} {outcome : SessionHandle → Response × SessionHandle}
    (htoken : layer.cookie.token? other = layer.cookie.token? request)
    (hrun : ∀ handle, handler.run request ⟨handle, accounts⟩ =
      ((outcome handle).1, ⟨(outcome handle).2, accounts⟩))
    (hother : ∀ handle, handler'.run other ⟨handle, others⟩ =
      ((outcome handle).1, ⟨(outcome handle).2, others⟩))
    (hnew : (outcome (.new .new)).2.session = .new)
    (hsame : ∀ handle : SessionHandle, handle.session.SameUser (outcome handle).2.session)
    (sessions : σ) (fresh fresh' : SessionToken) :
    (layer.serve handler' other fresh' ⟨sessions, others⟩).1 =
        (layer.serve handler request fresh ⟨sessions, accounts⟩).1 ∧
      (layer.serve handler' other fresh' ⟨sessions, others⟩).2.sessions =
        (layer.serve handler request fresh ⟨sessions, accounts⟩).2.sessions := by
  have hstart : layer.start other = layer.start request := by rw [start, start, htoken]
  rw [serve, serve, hstart]
  rcases (layer.start request).runFrom sessions with ⟨error | stored, loaded⟩
  · exact ⟨rfl, rfl⟩
  · have hempty : stored = none → (outcome (.new (given stored))).2.session = .new := by
      rintro rfl
      exact hnew
    have hwrite := layer.writeBack_unmoved hempty (hsame (.new (given stored))) fresh fresh'
    simp only [finish, hrun, hother, hwrite, and_self]

end SessionLayer

namespace AccountService

variable {σ β : Type}

def Refuses (service : AccountService σ β) (request : Request) (accounts : β) : Prop :=
  ∃ form, request.credentials? = some form ∧ service.pages.verdict form accounts ≠ .ok ()

theorem refuses_iff {service : AccountService σ β} {request : Request} {fresh : SessionToken}
    {server : Server σ β} (hlogin : IsLogin request) {form : CredentialsForm}
    (hform : request.credentials? = some form) (calm : service.Calm request fresh server) :
    service.Refuses request server.backing ↔
      ¬ (service.app.serve request fresh server).1.SendsTo service.site.flow.afterLogin.path := by
  obtain ⟨round⟩ := calm (hlogin.2 ▸ Route.below?_path .login)
  have hverdict : (((service.pages.signIn form (SessionLayer.given round.stored)).runFrom
      server.backing).1.map fun _ => ()) = service.pages.verdict form server.backing :=
    AccountPages.verdict_eq form _ server.backing
  have hrefuses : service.Refuses request server.backing ↔
      service.pages.verdict form server.backing ≠ .ok () := by
    rw [Refuses, hform]
    simp
  rw [hrefuses, ← hverdict, answer_of_round round hlogin hform, Response.SendsTo]
  rcases ((service.pages.signIn form (SessionLayer.given round.stored)).runFrom
    server.backing).1 with (error | error) | session
  · simp [AccountPages.loginOutcome, Page.location_answer_render, Except.map]
  · simp [AccountPages.loginOutcome, Response.serverError, Response.html, Except.map]
  · exact ⟨fun h => absurd rfl h, fun h => absurd ⟨rfl, rfl⟩ h⟩

/-- Two logins that present the same token and fail are answered alike, and leave the same sessions,
whatever accounts there are and whichever forms are sent. What they are answered with is the form
for signing in, as long as the session store does not fail. -/
def HidesAccounts (service : AccountService σ β) (Known : β → Prop) : Prop :=
  ∀ ⦃accounts others : β⦄ ⦃request other : Request⦄ (sessions : σ) (fresh fresh' : SessionToken),
    Known accounts → Known others → IsLogin request → IsLogin other →
    service.layer.cookie.token? other = service.layer.cookie.token? request →
    service.Refuses request accounts → service.Refuses other others →
    let served := service.app.serve request fresh ⟨sessions, accounts⟩
    let served' := service.app.serve other fresh' ⟨sessions, others⟩
    served'.1 = served.1 ∧ served'.2.sessions = served.2.sessions ∧
      (service.Calm request fresh ⟨sessions, accounts⟩ → service.renderer.Total →
        service.ShowsLogin served.1)

theorem refuses_of_unmatched {service : AccountService σ β} {request : Request} {accounts : β}
    {form : CredentialsForm} (hform : request.credentials? = some form) {name : Username}
    {password : Password} (hparse : form.parse = .ok (name, password))
    (hverify : (service.credentials.verify name password).runFrom accounts =
      (.ok false, accounts)) : service.Refuses request accounts := by
  refine ⟨form, hform, ?_⟩
  rw [AccountPages.verdict, AccountPages.runFrom_signIn_of_unmatched hparse hverify]
  intro h
  cases h

section Logins

variable {τ : Type} {service : AccountService σ (Salted τ)} {table : SharedTable τ}
  {Sound : τ → Prop} {records : τ → UserTable} {salts : Nat → Salt} {request : Request}
  {accounts : Salted τ} {fresh : SessionToken} {sessions : σ}

theorem signIn_of_refuses (dependable : table.Dependable Sound records)
    (hcredentials : service.credentials = table.store salts) (hsound : Sound accounts.contents)
    (hwritten : WrittenBy table.store (records accounts.contents))
    (hrefuses : service.Refuses request accounts) :
    ∃ form, request.credentials? = some form ∧ ∀ session,
      (service.pages.signIn form session).runFrom accounts =
        (.error (.auth .invalidCredentials), accounts) := by
  obtain ⟨form, hform, hverdict⟩ := hrefuses
  refine ⟨form, hform, fun session => ?_⟩
  have hpages : service.pages.credentials = table.store salts := hcredentials
  rcases dependable.signIn_outcome hpages hsound hwritten form session with ⟨result, hsign⟩ | hsign
  · rw [← AccountPages.verdict_eq form session, hsign] at hverdict
    exact absurd rfl hverdict
  · exact hsign

theorem run_of_refused (hlogin : IsLogin request) {form : CredentialsForm}
    (hform : request.credentials? = some form)
    (hsign : ∀ session, (service.pages.signIn form session).runFrom accounts =
      (.error (.auth .invalidCredentials), accounts)) (handle : SessionHandle) :
    (service.handler request).run request ⟨handle, accounts⟩ =
      ((service.pages.turnedAway handle).1, ⟨(service.pages.turnedAway handle).2, accounts⟩) := by
  rw [run_handler_login hlogin, AccountPages.run_login, Request.credentials?_eq_some_iff.1 hform]
  simp only [hsign]
  rfl

theorem showsLogin_of_refused (hlogin : IsLogin request) {form : CredentialsForm}
    (hform : request.credentials? = some form)
    (hsign : ∀ session, (service.pages.signIn form session).runFrom accounts =
      (.error (.auth .invalidCredentials), accounts))
    (calm : service.Calm request fresh ⟨sessions, accounts⟩) (htotal : service.renderer.Total) :
    service.ShowsLogin (service.app.serve request fresh ⟨sessions, accounts⟩).1 := by
  obtain ⟨round⟩ := calm (hlogin.2 ▸ Route.below?_path .login)
  let rejected := service.pages.flow.rejection AuthError.invalidCredentials.message
    (SessionLayer.given round.stored)
  obtain ⟨html, hrender⟩ := htotal (.login rejected.1.1 rejected.1.2)
  have hpage : (Page.render (.login rejected.1.1 rejected.1.2)).answer service.pages.renderer =
      .html 200 html := Page.answer_of_renders hrender
  have hbody : (service.pages.turnedAway (.new (SessionLayer.given round.stored))).1 =
      .html 200 html := hpage
  rw [answer_of_round round hlogin hform, hsign, ← AccountPages.turnedAway, hbody]
  exact ⟨rfl, _, _, hrender⟩

theorem hidesAccounts (dependable : table.Dependable Sound records)
    (hcredentials : service.credentials = table.store salts) :
    service.HidesAccounts fun accounts => Sound accounts.contents ∧
      WrittenBy table.store (records accounts.contents) := by
  rintro accounts others request other sessions fresh fresh' ⟨hsound, hwritten⟩
    ⟨hsound', hwritten'⟩ hlogin hlogin' htoken hrefuses hrefuses' served served'
  obtain ⟨form, hform, hsign⟩ :=
    signIn_of_refuses dependable hcredentials hsound hwritten hrefuses
  obtain ⟨form', hform', hsign'⟩ :=
    signIn_of_refuses dependable hcredentials hsound' hwritten' hrefuses'
  obtain ⟨hanswer, hsessions⟩ := SessionLayer.serve_alike htoken
    (run_of_refused hlogin hform hsign) (run_of_refused hlogin' hform' hsign')
    service.pages.turnedAway_new service.pages.sameUser_turnedAway sessions fresh fresh'
  rw [← serve_post hlogin.1 (.inl rfl) hlogin.2,
    ← serve_post hlogin'.1 (.inl rfl) hlogin'.2] at hanswer hsessions
  exact ⟨hanswer, hsessions, showsLogin_of_refused hlogin hform hsign⟩

end Logins

end AccountService

/-- Where all records were written by the store itself, in memory or in a file, a login that fails
tells nothing about the accounts. -/
theorem failed_logins_alike {σ : Type} (salts : Nat → Salt) :
    (∀ (service : AccountService σ (Salted UserTable)) (policy : PasswordPolicy),
      service.credentials = MemoryCredentials.store policy salts →
      service.HidesAccounts fun accounts =>
        WrittenBy (MemoryCredentials.store policy) accounts.contents) ∧
    ∀ {δ : Type} (service : AccountService σ (Salted δ)) (config : FileCredentials) (disk : Disk δ)
      (Sound : δ → Prop), service.credentials = config.store disk salts →
      disk.Reliable config.path Sound →
      service.HidesAccounts fun accounts => Sound accounts.contents ∧
        FileCredentials.HoldsTable disk config.path accounts.contents ∧
        WrittenBy (config.store disk)
          (FileCredentials.recordsAt disk config.path accounts.contents) := by
  constructor
  · intro service policy hcredentials accounts others request other sessions fresh fresh' hwritten
      hwritten'
    rw [funext (MemoryCredentials.store_eq policy)] at hwritten hwritten'
    rw [MemoryCredentials.store_eq] at hcredentials
    exact AccountService.hidesAccounts (MemoryCredentials.dependable policy) hcredentials sessions
      fresh fresh' ⟨trivial, hwritten⟩ ⟨trivial, hwritten'⟩
  · rintro δ service config disk Sound hcredentials reliable accounts others request other sessions
      fresh fresh' ⟨hsound, hholds, hwritten⟩ ⟨hsound', hholds', hwritten'⟩
    rw [funext (config.store_eq disk)] at hwritten hwritten'
    rw [FileCredentials.store_eq] at hcredentials
    exact AccountService.hidesAccounts (FileCredentials.dependable reliable) hcredentials sessions
      fresh fresh' ⟨⟨hsound, hholds⟩, hwritten⟩ ⟨⟨hsound', hholds'⟩, hwritten'⟩

theorem failed_logins_alike_samples :
    let salts : Nat → Salt := fun _ => ⟨List.replicate 16 0, rfl⟩
    let layer : SessionLayer MemorySessions := ⟨MemorySessions.store 60, .sample⟩
    let config : FileCredentials := ⟨⟨"data/users.json"⟩, .plaintext⟩
    let game : AccountService MemorySessions (Salted UserTable) :=
      ⟨.minesweeper ⟨9, 9, 10⟩, layer, MemoryCredentials.store .plaintext salts, Html.renderer⟩
    let users : AccountService MemorySessions (Salted FileTree) :=
      ⟨.userSystem, layer, config.store FileTree.disk salts, Html.renderer⟩
    let login := AccountPages.samplePost .login []
    let secret : Password := ⟨"secret", by decide⟩
    let kept := ((game.credentials.create AccountPages.sampleName secret).runFrom ⟨.empty, 0⟩).2
    let filed := ((users.credentials.create AccountPages.sampleName secret).runFrom ⟨.empty, 0⟩).2
    let played := (game.app.serve login ⟨1⟩ ⟨{}, ⟨.empty, 0⟩⟩).1
    let used := (users.app.serve login ⟨1⟩ ⟨{}, ⟨.empty, 0⟩⟩).1
    ((game.app.serve login ⟨2⟩ ⟨{}, kept⟩).1 = played ∧ game.ShowsLogin played) ∧
      (users.app.serve login ⟨2⟩ ⟨{}, filed⟩).1 = used ∧ users.ShowsLogin used := by
  intro salts layer config game users login secret kept filed played used
  have hform : login.credentials? = some ⟨"al", "pw"⟩ :=
    Request.credentials?_eq_some_iff.2 (AccountPages.ofRequest_samplePost _ _)
  have hparse := AccountPages.parse_samplePost
  have hlogin : AccountService.IsLogin login := ⟨rfl, rfl⟩
  have htotal : Html.renderer.Total := fun view => ⟨_, rfl⟩
  have healthy : layer.store.Healthy fun _ => True := MemorySessions.healthy 60
  constructor
  · have hkept : WrittenBy (MemoryCredentials.store .plaintext) kept.contents := by
      have hpreserves := (MemoryCredentials.dependable .plaintext).preserves_writtenBy salts
      rw [← funext (MemoryCredentials.store_eq .plaintext)] at hpreserves
      exact (hpreserves.create _ secret ⟨.empty, 0⟩ ⟨trivial, writtenBy_empty _⟩).2
    have hunknown : game.Refuses login ⟨.empty, 0⟩ :=
      AccountService.refuses_of_unmatched hform hparse rfl
    have hwrong : game.Refuses login kept :=
      AccountService.refuses_of_unmatched hform hparse rfl
    obtain ⟨hanswer, -, hshows⟩ := (failed_logins_alike salts).1 game .plaintext rfl {} ⟨1⟩ ⟨2⟩
      (writtenBy_empty _) hkept hlogin hlogin rfl hunknown hwrong
    exact ⟨hanswer, hshows (AccountService.calm_of_healthy healthy trivial) htotal⟩
  · have reliable := FileTree.reliable config.path
    have hmissing : FileTree.disk.contentAt? config.path .empty = none := by decide
    obtain ⟨hstart, hfiled, hverify⟩ := FileCredentials.writtenBy_first reliable
      FileTree.writable_below hmissing salts AccountPages.sampleName secret
    have hunknown : users.Refuses login ⟨.empty, 0⟩ :=
      AccountService.refuses_of_unmatched hform hparse (hverify _).1
    have hwrong : users.Refuses login filed :=
      AccountService.refuses_of_unmatched hform hparse (hverify _).2
    obtain ⟨hanswer, -, hshows⟩ := (failed_logins_alike salts).2 users config FileTree.disk _ rfl
      reliable {} ⟨1⟩ ⟨2⟩ hstart hfiled hlogin hlogin rfl hunknown hwrong
    exact ⟨hanswer, hshows (AccountService.calm_of_healthy healthy trivial) htotal⟩

end Gatehouse
