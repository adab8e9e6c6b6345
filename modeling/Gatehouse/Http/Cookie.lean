import Gatehouse.Http.Request
import Gatehouse.Session.Token
import Gatehouse.Text.Category
import Gatehouse.Text.Percent
import Gatehouse.Text.Utf8

set_option autoImplicit false

/-!
# Cookies

A request carries pairs of a name and a value, both percent-encoded; of equal names the last counts.
The session cookie holds a token and is out of reach of scripts and of foreign pages.
-/

namespace Gatehouse

namespace Cookie

def decode? (cs : List Char) : Option String :=
  Text.ofUtf8? (Text.percentDecode (Text.utf8 (Text.trim cs)))

def ofPiece? (piece : List Char) : Option (String × String) := do
  let (name, value) ← Text.splitFirst? '=' piece
  if (Text.trim name).isEmpty then none
  pure (← decode? name, ← decode? value)

/-- The cookies of one header. A header with unusual characters carries none. -/
def ofHeader (value : String) : List (String × String) :=
  if Header.isPlain value then (Text.splitOn ';' value.toList).filterMap ofPiece? else []

def value? (name : String) (request : Request) : Option String :=
  ((request.valuesOf "cookie").flatMap ofHeader).reverse.lookup name

def isNameByte (b : UInt8) : Bool :=
  0x21 ≤ b && b ≤ 0x7E && !"\"<>`#?\x7b\x7d/:;=@[\\]^|%(),".contains (Char.ofNat b.toNat)

def encodeName (name : String) : String :=
  String.ofList (Text.percentEncode isNameByte (Text.utf8 name.toList))

end Cookie

structure SessionCookie where
  name : String
  /-- Whether browsers may send it over encrypted connections only. -/
  secure : Bool
  deriving DecidableEq, Repr

namespace SessionCookie

/-- The token that a request presents, if it presents one at all. -/
def token? (cookie : SessionCookie) (request : Request) : Option SessionToken :=
  (Cookie.value? cookie.name request).bind SessionToken.ofText?

def issue (cookie : SessionCookie) (token : SessionToken) : String :=
  Cookie.encodeName cookie.name ++ "=" ++ toString token ++ "; HttpOnly; SameSite=Lax" ++
    (if cookie.secure then "; Secure" else "") ++ "; Path=/"

def expire (cookie : SessionCookie) : String :=
  Cookie.encodeName cookie.name ++ "=; Path=/; Max-Age=0; Expires=Thu, 01 Jan 1970 00:00:00 GMT"

end SessionCookie

end Gatehouse
