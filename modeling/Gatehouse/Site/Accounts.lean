import Gatehouse.Credentials.Accounts
import Gatehouse.Http.Handler

set_option autoImplicit false

/-!
# Account pages

Signing in, registering and signing out. Applications share these pages and differ in where visitors
land and in how they are told what has happened.
-/

namespace Gatehouse

inductive Feedback where
  /-- Errors are shown next to the form, and successes not at all. -/
  | inline
  /-- Everything is told by a notice. -/
  | flash
  deriving DecidableEq, Repr

structure AuthFlow where
  afterLogin : Route
  afterLogout : Route
  feedback : Feedback
  deriving DecidableEq, Repr

namespace AuthFlow

def minesweeper : AuthFlow := ⟨.home, .login, .inline⟩

def userSystem : AuthFlow := ⟨.success, .home, .flash⟩

/-- What a form that is shown again says: its error, and the notices. None stay pending. -/
def rejection (flow : AuthFlow) (message : String) (session : Session) :
    (Option String × List Flash) × Session :=
  let (pending, session) := session.takeFlashes
  match flow.feedback with
  | .inline => ((some message, pending), session)
  | .flash => ((none, pending ++ [⟨.error, message⟩]), session)

def celebrate (flow : AuthFlow) (message : String) (session : Session) : Session :=
  match flow.feedback with
  | .inline => session
  | .flash => session.pushFlash ⟨.success, message⟩

def signedOut : String := "You have been logged out."

/-- The session after signing out. -/
def farewell (flow : AuthFlow) (session : Session) : Session :=
  match flow.feedback with
  | .inline => session.logout.2
  | .flash => session.logout.2.pushFlash ⟨.info, signedOut⟩

end AuthFlow

structure CredentialsForm where
  username : String
  password : String
  deriving DecidableEq, Repr

namespace CredentialsForm

def ofRequest (request : Request) : Except FormError CredentialsForm := do
  let fields ← Form.ofRequest ["username", "password"] request
  pure ⟨← fields.value "username", ← fields.value "password"⟩

/-- The values, if both are valid. The username is looked at first. -/
def parse (form : CredentialsForm) : Except UserError (Username × Password) := do
  let name ← Username.ofText form.username
  let password ← Password.ofText form.password
  pure (name, password)

end CredentialsForm

structure AccountPages (β : Type) where
  credentials : CredentialStore β
  renderer : Renderer
  flow : AuthFlow

namespace AccountPages

variable {β : Type}

def signedIn : String := "Login successful!"

def registered : String := "Registration successful! Please log in."

def showFlashes (pages : AccountPages β) (view : List Flash → View) : Handler (Visit β) :=
  fun _ => do
    let flashes ← Visit.takeFlashes
    (Page.render (view flashes)).send pages.renderer

def loginForm (pages : AccountPages β) : Handler (Visit β) :=
  pages.showFlashes (.login none)

def registerForm (pages : AccountPages β) : Handler (Visit β) :=
  pages.showFlashes (.register none)

def withForm (handler : CredentialsForm → Attempt AppError (Visit β) Response) :
    Handler (Visit β) := fun request =>
  match CredentialsForm.ofRequest request with
  | .ok form => handler form
  | .error error => pure error.toResponse

def reject (pages : AccountPages β) (view : Option String → List Flash → View)
    (message : String) (session : Session) : Attempt AppError (Visit β) Response := do
  let ((error, flashes), session) := pages.flow.rejection message session
  Visit.commit session
  (Page.render (view error flashes)).send pages.renderer

def accept (pages : AccountPages β) (route : Route) (message : String) (session : Session) :
    Attempt AppError (Visit β) Response := do
  Visit.commit (pages.flow.celebrate message session)
  (Page.redirect route).send pages.renderer

/-- The session, signed in with a form. Values that are not valid match no account. -/
def signIn (pages : AccountPages β) (form : CredentialsForm) (session : Session) :
    Attempt LoginError β Session :=
  match form.parse with
  | .ok (name, password) => do
    let (_, session) ← pages.credentials.login session name password
    pure session
  | .error _ => throw (.auth .invalidCredentials)

def login (pages : AccountPages β) : Handler (Visit β) :=
  withForm fun form => do
    let session ← Visit.session
    match ← (Visit.inBacking (pages.signIn form session)).outcome with
    | .ok session => pages.accept pages.flow.afterLogin signedIn session
    | .error (.auth error) => pages.reject .login error.message session
    | .error (.store error) => throw (.credentialStore error)

def signUp (pages : AccountPages β) (form : CredentialsForm) :
    Attempt AppError β (Option String) :=
  match form.parse with
  | .error error => pure (some error.message)
  | .ok (name, password) => do
    match ← (pages.credentials.register name password).outcome with
    | .ok _ => pure none
    | .error (.auth error) => pure (some error.message)
    | .error (.store error) => throw (.credentialStore error)

def register (pages : AccountPages β) : Handler (Visit β) :=
  withForm fun form => do
    let session ← Visit.session
    match ← Visit.inBacking (pages.signUp form) with
    | none => pages.accept .login registered session
    | some message => pages.reject .register message session

def logout (pages : AccountPages β) : Handler (Visit β) := fun _ => do
  Visit.update pages.flow.farewell
  (Page.redirect pages.flow.afterLogout).send pages.renderer

end AccountPages

end Gatehouse
