import Gatehouse.Disk.Basic
import Gatehouse.Http.ByteRange
import Gatehouse.Http.Date
import Gatehouse.Http.Request
import Gatehouse.Http.Response
import Gatehouse.Text.Percent
import Gatehouse.Text.Split
import Gatehouse.Text.Utf8

set_option autoImplicit false

/-!
# Static files

Files that are served as they are, as a whole or in part. A path names a file after its percent
escapes are decoded, and never leads out of the directory that is served.
-/

namespace Gatehouse

structure StaticFile where
  names : List String
  contentType : String
  content : String
  deriving DecidableEq, Repr

def StaticFile.between (file : StaticFile) (first last : Nat) : String :=
  Text.ofUtf8Lossy (((Text.utf8 file.content.toList).drop first).take (last + 1 - first))

structure StaticFiles where
  mount : String
  directory : String
  modified : HttpDate
  files : List StaticFile
  deriving DecidableEq, Repr

namespace StaticFiles

def below? (served : StaticFiles) (path : String) : Option String :=
  let mount := served.mount.toList
  let rest := path.toList.drop mount.length
  if path.toList.take mount.length ≠ mount then none
  else if rest.isEmpty then some "/"
  else if rest.head? = some '/' then some (String.ofList rest)
  else none

/-- The names on a path, unless it is no text, begins at the root, or leads upwards. -/
def names? (path : String) : Option (List String) := do
  let bytes := Text.utf8 (path.toList.dropWhile (· = '/'))
  let decoded ← Text.ofUtf8? (Text.percentDecode bytes)
  let names := ((Text.splitOn '/' decoded.toList).map String.ofList).filter fun name =>
    name ≠ "" ∧ name ≠ "."
  if decoded.toList.head? = some '/' ∨ ".." ∈ names then none else some names

def isDirectory (served : StaticFiles) (names : List String) : Bool :=
  served.files.any fun file => names.isPrefixOf file.names && names != file.names

def checkName (served : StaticFiles) (above : List String) (name : String) :
    Except IoError Unit :=
  if !served.isDirectory above then
    .error (if served.files.any fun file => file.names = above then .notDirectory else .notFound)
  else if FilePath.maxNameSize < name.utf8ByteSize then .error .tooLong
  else .ok ()

def find (served : StaticFiles) (names : List String) : Except IoError StaticFile := do
  (FilePath.ofSegments (served.directory :: names)).check
  (List.range names.length).forM fun depth =>
    served.checkName (names.take depth) (names.getD depth "")
  match served.files.find? fun file => file.names = names with
  | some file => .ok file
  | none => .error .notFound

def dateOf? (request : Request) (name : String) : Option HttpDate :=
  (request.plainValue? name).bind HttpDate.parse?

def refuseRange (file : StaticFile) (body : String) : Response :=
  { status := 416, contentType := some file.contentType, body }

def send (request : Request) (file : StaticFile) (status : Nat) (content : String) : Response :=
  { status, contentType := some file.contentType,
    body := if request.isHead then "" else content }

def sendFile (request : Request) (file : StaticFile) : Response :=
  match request.plainValue? "range" with
  | none => send request file 200 file.content
  | some value =>
    match (ByteRange.parse? value).bind (ByteRange.parts? file.content.utf8ByteSize) with
    | some [(first, last)] => send request file 206 (file.between first last)
    | some _ => refuseRange file "Cannot serve multipart range requests"
    | none => refuseRange file ""

/-- The answer to a request for a file, which may depend on when the file was changed. -/
def serveFile (served : StaticFiles) (request : Request) (file : StaticFile) : Response :=
  let modified := served.modified.seconds
  if (dateOf? request "if-unmodified-since").any fun date => date.seconds < modified then
    { status := 412 }
  else if (dateOf? request "if-modified-since").any fun date => modified ≤ date.seconds then
    { status := 304 }
  else sendFile request file

def ofIoError : IoError → Response
  | .tooLong => { status := 500 }
  | _ => .notFound

/-- The answer to a request for a path below the mount. A directory has no page of its own, but its
name without a slash at the end leads to its name with one. -/
def serve (served : StaticFiles) (request : Request) (path : String) : Response :=
  if request.method ≠ "GET" ∧ request.method ≠ "HEAD" then
    { Response.notAllowed with allow := some "GET,HEAD" }
  else
    match names? path with
    | none => .notFound
    | some names =>
      if served.isDirectory names then
        if path.endsWith "/" then .notFound
        else
          let target := { request.target with path := path ++ "/" }
          { status := 307, location := some target.toText }
      else
        match served.find names with
        | .ok file => served.serveFile request file
        | .error error => ofIoError error

end StaticFiles

end Gatehouse
