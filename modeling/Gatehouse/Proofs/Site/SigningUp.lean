import Gatehouse.Credentials.Scripted
import Gatehouse.Proofs.Site.Judgement

set_option autoImplicit false

/-!
# Registering over any store

A registration asks the store whether the name is taken and only then adds the account. A name that
somebody else has taken in between is a name that is taken.
-/

namespace Gatehouse

namespace CredentialError

/-- What an error of the store is to somebody who registers. -/
def judgement : CredentialError → Judgement
  | .userAlreadyExists => .refused AuthError.duplicateUsername.message
  | error => .failed error

theorem judgement_ne_accepted (error : CredentialError) (user : User) :
    error.judgement ≠ .accepted user := by
  cases error <;> nofun

end CredentialError

theorem CredentialsForm.parse_eq_error_iff {form : CredentialsForm} {error : UserError} :
    form.parse = .error error ↔ Username.ofText form.username = .error error ∨
      (∃ name, Username.ofText form.username = .ok name) ∧ form.password = "" ∧
        error = .emptyPassword := by
  rw [parse]
  cases Username.ofText form.username with
  | error refused => simp [bind, Except.bind]
  | ok name =>
    rw [Password.ofText]
    by_cases hempty : form.password = ""
    · rw [dif_pos hempty]
      simp [bind, Except.bind, hempty, eq_comm]
    · rw [dif_neg hempty]
      simp [bind, Except.bind, hempty, pure, Except.pure]

namespace AccountPages

variable {β : Type} (pages : AccountPages β)

/-- The judgement on a form for registering. -/
def judgeSignUp (form : CredentialsForm) (accounts : β) : Judgement :=
  match form.parse with
  | .error error => .refused error.message
  | .ok (name, password) =>
    match (pages.credentials.isTaken name).runFrom accounts with
    | (.error error, _) => error.judgement
    | (.ok true, _) => .refused AuthError.duplicateUsername.message
    | (.ok false, mid) =>
      match ((pages.credentials.create name password).runFrom mid).1 with
      | .error error => error.judgement
      | .ok user => .accepted user

theorem signUp_judged (form : CredentialsForm) (accounts : β) :
    ((pages.signUp form).runFrom accounts).1 =
      match pages.judgeSignUp form accounts with
      | .accepted _ => .ok none
      | .refused objection => .ok (some objection)
      | .failed error => .error (.credentialStore error) := by
  simp only [signUp, judgeSignUp]
  rcases form.parse with error | ⟨name, password⟩
  · rfl
  simp only [CredentialStore.register, Attempt.runFrom_bind, Attempt.runFrom_outcome,
    Attempt.runFrom_mapError]
  rcases (pages.credentials.isTaken name).runFrom accounts with ⟨error | _ | _, mid⟩
  · cases error <;> rfl
  · simp only [Attempt.mapError_ok, Bool.false_eq_true, if_false, Attempt.runFrom_mapError]
    rcases (pages.credentials.create name password).runFrom mid with ⟨error | user, last⟩
    · cases error <;> rfl
    · rfl
  · rfl

theorem judgeSignUp_eq_accepted_iff {form : CredentialsForm} {accounts : β} {user : User} :
    pages.judgeSignUp form accounts = .accepted user ↔
      ∃ name password mid last, form.parse = .ok (name, password) ∧
        (pages.credentials.isTaken name).runFrom accounts = (.ok false, mid) ∧
        (pages.credentials.create name password).runFrom mid = (.ok user, last) := by
  simp only [judgeSignUp]
  constructor
  · intro h
    split at h
    · cases h
    · next name password hparse =>
      split at h
      · exact absurd h (CredentialError.judgement_ne_accepted _ _)
      · cases h
      · next mid hfree =>
        split at h
        · exact absurd h (CredentialError.judgement_ne_accepted _ _)
        · next added hcreate =>
          cases h
          exact ⟨name, password, mid, _, hparse, hfree, Prod.ext hcreate rfl⟩
  · rintro ⟨name, password, mid, last, hparse, hfree, hcreate⟩
    simp only [hparse, hfree, hcreate]

theorem ends_register {request : Request} {form : CredentialsForm}
    (hform : CredentialsForm.ofRequest request = .ok form) (session : Session) (accounts : β) :
    pages.Ends signingUp session (pages.register.run request ⟨.new session, accounts⟩).1
      (pages.register.run request ⟨.new session, accounts⟩).2.handle
      (pages.judgeSignUp form accounts) := by
  simp only [run_register, hform, signUp_judged]
  cases pages.judgeSignUp form accounts with
  | accepted user => exact ends_accepted rfl
  | refused objection => exact ends_refused ofCredentials_signingUp
  | failed error => exact ends_failed

theorem sendsTo_iff {session : Session} {response : Response} {handle : SessionHandle}
    {judgement : Judgement} (h : pages.Ends signingUp session response handle judgement) :
    response.SendsTo Route.login.path ↔ ∃ user, judgement = .accepted user := by
  cases h with
  | @accepted user redirects signed =>
    rw [redirects]
    exact ⟨fun _ => ⟨user, rfl⟩, fun _ => ⟨rfl, rfl⟩⟩
  | refused shows consumed =>
    obtain ⟨error, notices, -, -, rfl⟩ := shows.shown
    simp [Response.SendsTo, Page.location_answer_render]
  | failed failed spared untouched =>
    rw [failed]
    simp [Response.SendsTo, Response.serverError, Response.html]

def signUpCalls (form : CredentialsForm) (accounts : β) : List (CredentialCall UserId) :=
  match form.parse with
  | .ok (name, password) => pages.credentials.registerCalls name password accounts
  | .error _ => []

theorem notes_signUp (form : CredentialsForm) :
    Attempt.Notes (pages.signUp form) (pages.recorded.signUp form) (pages.signUpCalls form) := by
  intro accounts written
  simp only [signUp, signUpCalls]
  rcases form.parse with error | ⟨name, password⟩
  · exact Attempt.notes_pure _ accounts written
  · have hregister := pages.credentials.notes_register name password accounts written
    simp only [recorded, Attempt.runFrom_bind, Attempt.runFrom_outcome, hregister]
    rcases (pages.credentials.register name password).runFrom accounts with
      ⟨(error | error) | user, last⟩ <;> rfl

theorem run_register_recorded {request : Request} {form : CredentialsForm}
    (hform : CredentialsForm.ofRequest request = .ok form) (handle : SessionHandle)
    (accounts : β) (written : List (CredentialCall UserId)) :
    pages.recorded.register.run request ⟨handle, accounts, written⟩ =
      ((pages.register.run request ⟨handle, accounts⟩).1,
        ⟨(pages.register.run request ⟨handle, accounts⟩).2.handle,
          (pages.register.run request ⟨handle, accounts⟩).2.backing,
          written ++ pages.signUpCalls form accounts⟩) := by
  simp only [run_register, hform, pages.notes_signUp form accounts written]
  rfl

theorem create_mem_signUpCalls {form : CredentialsForm} {accounts : β} {name : Username}
    {password : Password} (h : .create name password ∈ pages.signUpCalls form accounts) :
    form.parse = .ok (name, password) ∧
      ((pages.credentials.isTaken name).runFrom accounts).1 = .ok false := by
  rw [signUpCalls] at h
  cases hparse : form.parse with
  | error error => simp [hparse] at h
  | ok values =>
    simp only [hparse, CredentialStore.registerCalls, List.mem_cons, reduceCtorEq, false_or] at h
    split at h
    · next hfree =>
      cases List.mem_singleton.1 h
      exact ⟨rfl, by rw [hfree]⟩
    · simp at h

theorem creations_signUpCalls (form : CredentialsForm) (accounts : β) :
    CredentialCall.creations (pages.signUpCalls form accounts) ≤ 1 := by
  rw [signUpCalls]
  cases form.parse with
  | error error => simp [CredentialCall.creations]
  | ok values =>
    simp only [CredentialStore.registerCalls]
    split <;> simp [CredentialCall.creations]

/-- What a registration comes to over any store: the account is added at most once and as it was
submitted, a name that is taken is objected to however the store tells, and nobody is signed in or
out. -/
theorem register_judged {request : Request} {form : CredentialsForm}
    (hform : CredentialsForm.ofRequest request = .ok form) (session : Session) (accounts : β) :
    let response := (pages.register.run request ⟨.new session, accounts⟩).1
    let after := (pages.register.run request ⟨.new session, accounts⟩).2
    session.SameUser after.handle.session ∧
    (response.SendsTo Route.login.path ↔
      ∃ name password mid user last, form.parse = .ok (name, password) ∧
        (pages.credentials.isTaken name).runFrom accounts = (.ok false, mid) ∧
        (pages.credentials.create name password).runFrom mid = (.ok user, last)) ∧
    pages.Ends signingUp session response after.handle (pages.judgeSignUp form accounts) ∧
    (∀ error, form.parse = .error error ↔ Username.ofText form.username = .error error ∨
      (∃ name, Username.ofText form.username = .ok name) ∧ form.password = "" ∧
        error = .emptyPassword) ∧
    ∃ calls, pages.recorded.register.run request ⟨.new session, accounts, []⟩ =
        (response, ⟨after.handle, after.backing, calls⟩) ∧
      CredentialCall.creations calls ≤ 1 ∧
      ∀ name password, .create name password ∈ calls →
        name.text = form.username ∧ password.text = form.password ∧
          ((pages.credentials.isTaken name).runFrom accounts).1 = .ok false := by
  intro response after
  have hends := pages.ends_register hform session accounts
  refine ⟨(sameUser_iff_of_ends hends).2 fun _ _ => .refl session, ?_, hends,
    fun _ => CredentialsForm.parse_eq_error_iff, _,
    pages.run_register_recorded hform _ accounts [], ?_, ?_⟩
  · rw [pages.sendsTo_iff hends]
    simp only [judgeSignUp_eq_accepted_iff]
    constructor
    · rintro ⟨user, name, password, mid, last, h⟩
      exact ⟨name, password, mid, user, last, h⟩
    · rintro ⟨name, password, mid, user, last, h⟩
      exact ⟨user, name, password, mid, last, h⟩
  · rw [List.nil_append]
    exact pages.creations_signUpCalls form accounts
  · intro name password hcreate
    rw [List.nil_append] at hcreate
    obtain ⟨hparse, hfree⟩ := pages.create_mem_signUpCalls hcreate
    obtain ⟨hname, hpassword⟩ := CredentialsForm.parse_ok hparse
    exact ⟨hname.symm, hpassword.symm, hfree⟩

def lostRacePages : AccountPages Unit where
  credentials := ScriptedCredentials.store { refusal := some .userAlreadyExists }
  renderer := Html.renderer
  flow := .minesweeper

theorem register_judged_lost_race :
    lostRacePages.ShowsAgain signingUp AuthError.duplicateUsername.message []
      (lostRacePages.register.run (samplePost .register []) ⟨.new .new, ()⟩).1 := by
  have hjudged := lostRacePages.register_judged (ofRequest_samplePost .register []) .new ()
  have hjudgement : lostRacePages.judgeSignUp ⟨"al", "pw"⟩ () =
      .refused AuthError.duplicateUsername.message := by
    rw [judgeSignUp, parse_samplePost]
    rfl
  have hends := hjudged.2.2.1
  rw [hjudgement] at hends
  cases hends with
  | refused shows consumed => exact shows

end AccountPages

end Gatehouse
