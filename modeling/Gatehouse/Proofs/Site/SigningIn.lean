import Gatehouse.Proofs.Site.Judgement
import Gatehouse.Proofs.Site.Rotation

set_option autoImplicit false

/-!
# Signing in over any store

A login asks the store twice, whether the password matches and then for the user. Only where both
answers are favourable does the session become the user's; any failure leaves it as it was.
-/

namespace Gatehouse.AccountPages

variable {β : Type} (pages : AccountPages β)

/-- The judgement on a form for signing in. -/
def judgeSignIn (form : CredentialsForm) (accounts : β) : Judgement :=
  match form.parse with
  | .error _ => .refused AuthError.invalidCredentials.message
  | .ok (name, password) =>
    match (pages.credentials.verify name password).runFrom accounts with
    | (.error error, _) => .failed error
    | (.ok false, _) => .refused AuthError.invalidCredentials.message
    | (.ok true, mid) =>
      match ((pages.credentials.find name).runFrom mid).1 with
      | .error error => .failed error
      | .ok none => .refused AuthError.invalidCredentials.message
      | .ok (some user) => .accepted user

theorem signIn_judged (form : CredentialsForm) (session : Session) (accounts : β) :
    ((pages.signIn form session).runFrom accounts).1 =
      match pages.judgeSignIn form accounts with
      | .accepted user => .ok (session.authenticate user.id)
      | .refused _ => .error (.auth .invalidCredentials)
      | .failed error => .error (.store error) := by
  simp only [signIn, judgeSignIn]
  rcases form.parse with error | ⟨name, password⟩
  · rfl
  simp only [CredentialStore.login, Attempt.runFrom_bind, Attempt.runFrom_mapError]
  rcases (pages.credentials.verify name password).runFrom accounts with ⟨error | _ | _, mid⟩
  · rfl
  · rfl
  simp only [Attempt.mapError_ok, if_true, Attempt.runFrom_bind, Attempt.runFrom_mapError]
  rcases (pages.credentials.find name).runFrom mid with ⟨error | _ | user, last⟩ <;> rfl

theorem objection_of_judgeSignIn {form : CredentialsForm} {accounts : β} {objection : String}
    (h : pages.judgeSignIn form accounts = .refused objection) :
    objection = AuthError.invalidCredentials.message := by
  unfold judgeSignIn at h
  split at h
  · cases h
    rfl
  · split at h
    · cases h
    · cases h
      rfl
    · split at h
      · cases h
      · cases h
        rfl
      · cases h

theorem ends_signIn (form : CredentialsForm) (session : Session) (accounts : β) :
    pages.Ends pages.signingIn session
      (pages.loginOutcome (.new session) ((pages.signIn form session).runFrom accounts).1).1
      (pages.loginOutcome (.new session) ((pages.signIn form session).runFrom accounts).1).2
      (pages.judgeSignIn form accounts) := by
  rw [signIn_judged]
  cases hjudge : pages.judgeSignIn form accounts with
  | accepted user => exact ends_accepted rfl
  | refused objection =>
    rw [pages.objection_of_judgeSignIn hjudge]
    exact ends_refused pages.ofCredentials_signingIn
  | failed error => exact ends_failed

theorem sameUser_authenticate_iff {session : Session} {id : UserId} :
    session.SameUser (session.authenticate id) ↔
      session.authenticated = true ∧ session.userId = some id := by
  rw [Session.SameUser, Session.authenticate, eq_comm, eq_comm (a := some id)]

theorem not_sameUser_iff {session : Session} {response : Response} {handle : SessionHandle}
    {judgement : Judgement} (h : pages.Ends pages.signingIn session response handle judgement) :
    ¬ session.SameUser handle.session ↔ ∃ user, judgement = .accepted user ∧
      ¬ (session.authenticated = true ∧ session.userId = some user.id) := by
  rw [sameUser_iff_of_ends h]
  simp only [signingIn, sameUser_authenticate_iff, not_forall, exists_prop]

theorem ends_login {request : Request} {form : CredentialsForm}
    (hform : CredentialsForm.ofRequest request = .ok form) (session : Session) (accounts : β) :
    pages.Ends pages.signingIn session (pages.login.run request ⟨.new session, accounts⟩).1
      (pages.login.run request ⟨.new session, accounts⟩).2.handle
      (pages.judgeSignIn form accounts) := by
  simp only [run_login, hform]
  exact pages.ends_signIn form session accounts

def signInCalls (form : CredentialsForm) (accounts : β) : List (CredentialCall UserId) :=
  match form.parse with
  | .ok (name, password) => pages.credentials.loginCalls name password accounts
  | .error _ => []

theorem notes_signIn (form : CredentialsForm) (session : Session) :
    Attempt.Notes (pages.signIn form session) (pages.recorded.signIn form session)
      (pages.signInCalls form) := by
  intro accounts written
  simp only [signIn, signInCalls]
  rcases form.parse with error | ⟨name, password⟩
  · exact Attempt.notes_throw _ accounts written
  · have hlogin := pages.credentials.notes_login session name password accounts written
    simp only [recorded, Attempt.runFrom_bind, hlogin]
    rcases (pages.credentials.login session name password).runFrom accounts with
      ⟨error | ⟨id, after⟩, last⟩ <;> rfl

theorem run_login_recorded {request : Request} {form : CredentialsForm}
    (hform : CredentialsForm.ofRequest request = .ok form) (handle : SessionHandle)
    (accounts : β) (written : List (CredentialCall UserId)) :
    pages.recorded.login.run request ⟨handle, accounts, written⟩ =
      ((pages.login.run request ⟨handle, accounts⟩).1,
        ⟨(pages.login.run request ⟨handle, accounts⟩).2.handle,
          (pages.login.run request ⟨handle, accounts⟩).2.backing,
          written ++ pages.signInCalls form accounts⟩) := by
  simp only [run_login, hform, pages.notes_signIn form handle.session accounts written]
  rfl

theorem create_notMem_signInCalls (form : CredentialsForm) (accounts : β) (name : Username)
    (password : Password) : .create name password ∉ pages.signInCalls form accounts := by
  rw [signInCalls]
  cases form.parse with
  | error error => simp
  | ok values =>
    simp only [CredentialStore.loginCalls]
    split <;> simp

/-- What a login comes to over any store: who is signed in changes only by a login that the store
confirms twice, and not by one that it refuses or fails to answer. -/
theorem login_judged {request : Request} {form : CredentialsForm}
    (hform : CredentialsForm.ofRequest request = .ok form) (session : Session) (accounts : β) :
    let response := (pages.login.run request ⟨.new session, accounts⟩).1
    let after := (pages.login.run request ⟨.new session, accounts⟩).2
    (¬ session.SameUser after.handle.session ↔
      ∃ user, pages.judgeSignIn form accounts = .accepted user ∧
        ¬ (session.authenticated = true ∧ session.userId = some user.id)) ∧
    pages.Ends pages.signingIn session response after.handle (pages.judgeSignIn form accounts) ∧
    (∀ objection, pages.judgeSignIn form accounts = .refused objection →
      objection = AuthError.invalidCredentials.message) ∧
    ∃ calls, pages.recorded.login.run request ⟨.new session, accounts, []⟩ =
        (response, ⟨after.handle, after.backing, calls⟩) ∧
      ∀ name password, .create name password ∉ calls := by
  intro response after
  have hends := pages.ends_login hform session accounts
  refine ⟨pages.not_sameUser_iff hends, hends, fun _ => pages.objection_of_judgeSignIn, _,
    pages.run_login_recorded hform _ accounts [], ?_⟩
  intro name password
  rw [List.nil_append]
  exact pages.create_notMem_signInCalls form accounts name password

theorem judgeSignIn_openPages :
    openPages.judgeSignIn ⟨"al", "pw"⟩ () = .accepted (.named sampleName "pw") := by
  rw [judgeSignIn, parse_samplePost]
  rfl

theorem login_judged_newcomer :
    ¬ Session.new.SameUser
      (openPages.login.run (samplePost .login []) ⟨.new .new, ()⟩).2.handle.session := by
  have hjudged := openPages.login_judged (ofRequest_samplePost .login []) .new ()
  exact hjudged.1.2 ⟨_, judgeSignIn_openPages, by decide⟩

/-- Whoever signs in again as the same user is admitted, and nothing about the session changes. -/
theorem login_again_changes_nothing :
    ¬ (¬ (Session.new.authenticate ⟨"al"⟩).SameUser
          (openPages.login.run (samplePost .login [])
            ⟨.new (Session.new.authenticate ⟨"al"⟩), ()⟩).2.handle.session ↔
        ∃ user, openPages.judgeSignIn ⟨"al", "pw"⟩ () = .accepted user) := by
  intro hiff
  have hends := openPages.ends_login (ofRequest_samplePost .login [])
    (Session.new.authenticate ⟨"al"⟩) ()
  obtain ⟨user, haccepted, hother⟩ :=
    (openPages.not_sameUser_iff hends).1 (hiff.2 ⟨_, judgeSignIn_openPages⟩)
  rw [judgeSignIn_openPages] at haccepted
  cases haccepted
  exact hother ⟨rfl, rfl⟩

end Gatehouse.AccountPages
