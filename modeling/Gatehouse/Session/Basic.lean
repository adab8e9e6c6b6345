import Gatehouse.User

set_option autoImplicit false

/-!
# Sessions

What the server remembers about a visitor between requests: whether and as whom the visitor is
signed in, and the notices still to be shown. A session is changed only through the operations
below.
-/

namespace Gatehouse

inductive FlashLevel where
  | success
  | error
  | info
  deriving DecidableEq, Repr

namespace FlashLevel

def all : List FlashLevel := [.success, .error, .info]

def name : FlashLevel → String
  | .success => "success"
  | .error => "error"
  | .info => "info"

def ofName? (name : String) : Option FlashLevel :=
  all.find? fun level => level.name == name

theorem ofName?_name (level : FlashLevel) : ofName? level.name = some level := by
  cases level <;> decide

end FlashLevel

/-- A notice that is shown once. -/
structure Flash where
  level : FlashLevel
  message : String
  deriving DecidableEq, Repr

inductive AuthState where
  | anonymous
  | authenticated
  deriving DecidableEq, Repr

structure Session where
  authenticated : Bool := false
  userId : Option UserId := none
  flashes : List Flash := []
  deriving DecidableEq, Repr

namespace Session

/-- The session of a visitor about whom nothing is known. -/
def new : Session := {}

/-- Signed in takes both the flag and a user: a session read from a store may have one alone. -/
def isAuthenticated (session : Session) : Bool :=
  session.authenticated && session.userId.isSome

def state (session : Session) : AuthState :=
  if session.isAuthenticated then .authenticated else .anonymous

def authenticate (id : UserId) (session : Session) : Session :=
  { session with authenticated := true, userId := some id }

def clear (_ : Session) : Session := new

def pushFlash (flash : Flash) (session : Session) : Session :=
  { session with flashes := session.flashes ++ [flash] }

def takeFlashes (session : Session) : List Flash × Session :=
  (session.flashes, { session with flashes := [] })

def hasFlashes (session : Session) : Bool := !session.flashes.isEmpty

def isEmpty (session : Session) : Bool := session == new

def logout (session : Session) : AuthState × Session :=
  (session.state, session.clear)

@[simp] theorem isEmpty_iff (session : Session) : session.isEmpty = true ↔ session = new := by
  simp [isEmpty]

theorem ne_new_of_isAuthenticated {session : Session} (h : session.isAuthenticated = true) :
    session ≠ new := by
  rintro rfl
  cases h

end Session

end Gatehouse
