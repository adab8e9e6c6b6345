import Gatehouse.Username

set_option autoImplicit false

/-!
# Users

An account as a credential store hands it out: the id under which the store knows it, its name, the
stored form of its password, and a score where the store keeps one.
-/

namespace Gatehouse

/-- The identity of an account, as free text chosen by its store. -/
structure UserId where
  text : String
  deriving DecidableEq, Repr, Inhabited

namespace UserId

def ofUsername (name : Username) : UserId := ⟨name.text⟩

def ofRow (row : Int64) : UserId := ⟨toString row.toInt⟩

end UserId

structure User where
  id : UserId
  username : Username
  storedPassword : String
  score : Option Int64
  deriving DecidableEq

namespace User

def named (name : Username) (storedPassword : String) : User :=
  ⟨UserId.ofUsername name, name, storedPassword, none⟩

def shownScore (user : User) : Int64 := user.score.getD 0

end User

end Gatehouse
