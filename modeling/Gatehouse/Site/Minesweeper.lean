import Gatehouse.Site.Accounts

set_option autoImplicit false

/-!
# The minesweeper site

The game and the profile stand behind the gate, and so does signing out.
-/

namespace Gatehouse

structure Minesweeper (β : Type) where
  accounts : AccountPages β
  board : Board

namespace Minesweeper

variable {β : Type}

def withCredentials (credentials : CredentialStore β) (renderer : Renderer) (board : Board) :
    Minesweeper β :=
  ⟨⟨credentials, renderer, .minesweeper⟩, board⟩

/-- Shows a page about the user of a principal. A session whose user is gone is ended. -/
def showUser (site : Minesweeper β) (view : User → View) (principal : Principal) :
    Handler (Visit β) := fun _ => do
  match ← (Visit.inBacking (site.accounts.credentials.loadProfile principal)).outcome with
  | .ok user => (Page.render (view user)).send site.accounts.renderer
  | .error .unknownUser =>
    Visit.update fun session => session.logout.2
    (Page.redirect .login).send site.accounts.renderer
  | .error (.store error) => throw (.credentialStore error)

def game (site : Minesweeper β) : Principal → Handler (Visit β) :=
  site.showUser fun user => .game site.board user.shownScore

def profile (site : Minesweeper β) : Principal → Handler (Visit β) :=
  site.showUser fun user => .profile user.username user.shownScore

def endpoints (site : Minesweeper β) : List (String × Endpoint β) :=
  [(Route.login.path, .free (.getPost site.accounts.loginForm site.accounts.login)),
    (Route.register.path, .free (.getPost site.accounts.registerForm site.accounts.register)),
    (Route.home.path, .gated {} (.get site.game)),
    (Route.profile.path, .gated {} (.get site.profile)),
    (Route.logout.path, .gated {} (.get fun _ => site.accounts.logout))]

end Minesweeper

end Gatehouse
