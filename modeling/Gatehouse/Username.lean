import Gatehouse.Text.Category

set_option autoImplicit false

/-!
# Usernames and passwords

A username has 1 to 64 characters, its first and last are visible, and none is a control character.
A password is any text but the empty one. Both types carry the proof, so no other value exists.
-/

namespace Gatehouse

/-- Why a text is refused as a username or as a password. -/
inductive UserError where
  | emptyUsername
  | usernameTooLong
  | invalidUsername
  | emptyPassword
  deriving DecidableEq, Repr

namespace Username

def maxLength : Nat := 64

end Username

def UserError.message : UserError → String
  | .emptyUsername => "Username must not be empty"
  | .usernameTooLong => s!"Username must be at most {Username.maxLength} characters"
  | .invalidUsername =>
    "Username must not start or end with whitespace or contain control characters"
  | .emptyPassword => "Password must not be empty"

namespace Username

def isShapely (cs : List Char) : Bool :=
  cs.all (fun c => !Text.isControl c) && cs.head?.any Text.isVisible &&
    cs.getLast?.any Text.isVisible

/-- Why these characters are no username. The first failing test counts, in the order of the
branches. -/
def refusal (cs : List Char) : Option UserError :=
  if cs.isEmpty then some .emptyUsername
  else if maxLength < cs.length then some .usernameTooLong
  else if isShapely cs then none
  else some .invalidUsername

end Username

structure Username where
  text : String
  accepted : Username.refusal text.toList = none
  deriving DecidableEq

namespace Username

def ofText (text : String) : Except UserError Username :=
  match h : refusal text.toList with
  | none => .ok ⟨text, h⟩
  | some error => .error error

def ofText? (text : String) : Option Username :=
  (ofText text).toOption

theorem ofText_text (name : Username) : ofText name.text = .ok name := by
  unfold ofText
  split
  · rfl
  · next h => simp [name.accepted] at h

theorem text_of_ofText {text : String} {name : Username} (h : ofText text = .ok name) :
    name.text = text := by
  unfold ofText at h
  split at h
  · cases h; rfl
  · simp at h

theorem text_inj {a b : Username} (h : a.text = b.text) : a = b := by
  cases a; cases b; simp_all

end Username

structure Password where
  text : String
  nonempty : text ≠ ""
  deriving DecidableEq

namespace Password

def ofText (text : String) : Except UserError Password :=
  if h : text = "" then .error .emptyPassword else .ok ⟨text, h⟩

end Password

end Gatehouse
