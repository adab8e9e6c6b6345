import Gatehouse.Site.Accounts

set_option autoImplicit false

/-!
# The user system

Only the page that follows signing in stands behind the gate.
-/

namespace Gatehouse

structure UserSystem (β : Type) where
  accounts : AccountPages β

namespace UserSystem

variable {β : Type}

/-- The site over some accounts. -/
def withCredentials (credentials : CredentialStore β) (renderer : Renderer) : UserSystem β :=
  ⟨⟨credentials, renderer, .userSystem⟩⟩

def welcome (site : UserSystem β) : Handler (Visit β) :=
  site.accounts.showFlashes .welcome

def success (site : UserSystem β) (_ : Principal) : Handler (Visit β) :=
  site.accounts.showFlashes .success

def endpoints (site : UserSystem β) : List (String × Endpoint β) :=
  [(Route.home.path, .free (.get site.welcome)),
    (Route.login.path, .free (.getPost site.accounts.loginForm site.accounts.login)),
    (Route.register.path, .free (.getPost site.accounts.registerForm site.accounts.register)),
    (Route.logout.path, .free (.get site.accounts.logout)),
    (Route.success.path, .gated {} (.get site.success))]

end UserSystem

end Gatehouse
