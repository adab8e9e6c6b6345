import Gatehouse.Text.Split

set_option autoImplicit false

/-!
# Request targets

What a request asks for is written as a path with an optional query, as a whole URI, as an authority
alone, or as an asterisk. Only its path decides who answers; a fragment is dropped.
-/

namespace Gatehouse

structure Target where
  /-- The scheme and the authority of a whole URI, with the marks around them, or an authority. -/
  origin : String := ""
  path : String
  query : Option String := none
  deriving DecidableEq, Repr

namespace Target

def maxSize : Nat := 65534

def isPathChar (c : Char) : Bool :=
  let n := c.toNat
  n == 0x21 || (0x24 ≤ n && n ≤ 0x3B) || n == 0x3D || (0x40 ≤ n && n ≤ 0x5F) ||
    (0x61 ≤ n && n ≤ 0x7A) || n == 0x7C || n == 0x7E || 0x80 ≤ n || c == '"' || c == '\x7b' ||
    c == '\x7d'

def isQueryChar (c : Char) : Bool :=
  let n := c.toNat
  n == 0x21 || (0x24 ≤ n && n ≤ 0x3B) || n == 0x3D || (0x3F ≤ n && n ≤ 0x7E) || 0x80 ≤ n

def ofPathAndQuery? (origin : String) (cs : List Char) : Option Target :=
  let path := cs.takeWhile fun c => c ≠ '?' ∧ c ≠ '#'
  if !path.all isPathChar then none
  else
    match cs.drop path.length with
    | '?' :: rest =>
      let query := rest.takeWhile (· ≠ '#')
      if query.all isQueryChar then
        some ⟨origin, String.ofList path, some (String.ofList query)⟩
      else none
    | _ => some ⟨origin, String.ofList path, none⟩

def isSchemeChar (c : Char) : Bool :=
  c.isAlphanum || c == '+' || c == '-' || c == '.' || c == '~'

def scheme? (cs : List Char) : Option (List Char × List Char) :=
  let scheme := cs.takeWhile isSchemeChar
  match cs.drop scheme.length with
  | ':' :: '/' :: '/' :: rest => some (scheme, rest)
  | _ => none

def isAuthorityChar (c : Char) : Bool :=
  c.isAlphanum || "!$&'()*+,-.:;=@[]_~".contains c

/-- What has been seen of an authority: the colons, brackets and percent signs that count. -/
structure AuthorityScan where
  colons : Nat := 0
  opened : Bool := false
  closed : Bool := false
  percent : Bool := false

/-- Takes one character of an authority into account. What stands before an at sign or a closing
bracket is forgotten, as it is no part of a plain host with a port. -/
def AuthorityScan.step? (scan : AuthorityScan) (c : Char) : Option AuthorityScan :=
  if c = '%' then some { scan with percent := true }
  else if !isAuthorityChar c then none
  else if c = ':' then
    if scan.colons < 8 then some { scan with colons := scan.colons + 1 } else none
  else if c = '[' then
    if scan.percent || scan.opened then none else some { scan with opened := true }
  else if c = ']' then
    if !scan.opened || scan.closed then none
    else some { scan with closed := true, colons := 0, percent := false }
  else if c = '@' then some { scan with colons := 0, percent := false }
  else some scan

/-- Whether characters are an authority: a host with at most one colon for its port, perhaps in
brackets, after perhaps some user information. -/
def isAuthority (cs : List Char) : Bool :=
  match cs.foldlM AuthorityScan.step? {} with
  | some scan =>
    scan.opened == scan.closed && scan.colons ≤ 1 && !scan.percent && cs.getLast? != some '@'
  | none => false

def isDelimiter (c : Char) : Bool := c == '/' || c == '?' || c == '#'

def ofHierarchy? (scheme : List Char) (cs : List Char) : Option Target := do
  let authority := cs.takeWhile fun c => !isDelimiter c
  if authority.isEmpty || !isAuthority authority then none
  let shown := if (scheme.map Char.toLower) ∈ ["http".toList, "https".toList] then
    scheme.map Char.toLower else scheme
  let target ← ofPathAndQuery? (String.ofList (shown ++ "://".toList ++ authority))
    (cs.drop authority.length)
  pure (if target.path = "" then { target with path := "/" } else target)

def ofText? (text : String) : Option Target :=
  if maxSize < text.utf8ByteSize then none
  else
    match text.toList with
    | [] => none
    | ['*'] => some { path := "*" }
    | '/' :: rest => ofPathAndQuery? "" ('/' :: rest)
    | cs =>
      match scheme? cs with
      | some (scheme, rest) => if 64 < scheme.length then none else ofHierarchy? scheme rest
      | none => if isAuthority cs then some { origin := text, path := "" } else none

def toText (target : Target) : String :=
  target.origin ++ target.path ++ (target.query.map ("?" ++ ·)).getD ""

end Target

end Gatehouse
