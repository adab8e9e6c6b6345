import Gatehouse.Disk.Basic
import Gatehouse.Json.Parser
import Gatehouse.Json.Printer
import Gatehouse.Text.Utf8

set_option autoImplicit false

/-!
# JSON files

A value kept in one file. Writing never touches the file before the new content is complete: it goes
to a temporary file, which then takes the place of the old one.
-/

namespace Gatehouse

inductive FileError where
  | io (path : FilePath)
  | malformed (path : FilePath)
  deriving DecidableEq, Repr

def FileError.message : FileError → String
  | .io path => s!"I/O error on {path.text}"
  | .malformed path => s!"Malformed JSON in {path.text}"

namespace JsonFile

variable {δ α : Type}

def content (value : Json) : List UInt8 :=
  Text.utf8 (Json.prettyAt 0 value)

/-- The value of a file, or nothing where no file is. -/
def read (disk : Disk δ) (path : FilePath) (decode? : Json → Option α) :
    Attempt FileError δ (Option α) := do
  match ← (disk.read path).outcome with
  | .ok bytes =>
    match (Json.parse? bytes).bind decode? with
    | some value => pure (some value)
    | none => throw (.malformed path)
  | .error .notFound => pure none
  | .error _ => throw (.io path)

def writeSteps (disk : Disk δ) (path : FilePath) (bytes : List UInt8) :
    List (Attempt IoError δ Unit) :=
  (path.parent?.toList.map disk.createDirs) ++
    [disk.write path.temporary bytes, disk.rename path.temporary path]

def write (disk : Disk δ) (path : FilePath) (value : Json) : Attempt FileError δ Unit :=
  ((writeSteps disk path (content value)).forM id).mapError fun _ => .io path

end JsonFile

end Gatehouse
