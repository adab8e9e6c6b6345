set_option autoImplicit false

/-!
# Responses

A response is its status, the headers that this library sets, and its body.
-/

namespace Gatehouse

structure Response where
  status : Nat
  location : Option String := none
  contentType : Option String := none
  /-- The methods a resource admits, named when the request used another one. -/
  allow : Option String := none
  setCookies : List String := []
  body : String := ""
  deriving DecidableEq, Repr

namespace Response

def htmlType : String := "text/html; charset=utf-8"

def plainType : String := "text/plain; charset=utf-8"

def html (status : Nat) (body : String) : Response :=
  { status, contentType := some htmlType, body }

/-- A line of text, for a client that sent something unusable. -/
def plain (status : Nat) (body : String) : Response :=
  { status, contentType := some plainType, body }

def seeOther (path : String) : Response :=
  { status := 303, location := some path }

def notFound : Response := { status := 404 }

def notAllowed : Response := { status := 405 }

/-- The page shown for every failure of the server, whatever failed. -/
def serverError : Response :=
  html 500 "<h1>Internal Server Error</h1><p>Please try again later.</p>"

end Response

end Gatehouse
