import Gatehouse.Attempt
import Gatehouse.Text.Split

set_option autoImplicit false

/-!
# Disks

The operations on files that the file-backed stores use, and paths. A path is kept as it was given,
because messages repeat it, and because the dots and slashes in it count when it is followed.
-/

namespace Gatehouse

inductive IoError where
  /-- Nothing is there, or a directory on the way is missing. -/
  | notFound
  | notDirectory
  | isDirectory
  /-- The path, or a name on it, is longer than it may be. -/
  | tooLong
  /-- Not a path, or not one that this operation takes. -/
  | invalidPath
  deriving DecidableEq, Repr

structure FilePath where
  text : String
  deriving DecidableEq, Repr

namespace FilePath

def maxSize : Nat := 4095

def maxNameSize : Nat := 255

def segments (path : FilePath) : List String :=
  (Text.splitOn '/' path.text.toList).map String.ofList

def ofSegments (segments : List String) : FilePath :=
  ⟨"/".intercalate segments⟩

/-- A segment that leads nowhere else: an empty one, or the dot for the directory itself. -/
def isIdle (segment : String) : Bool := segment == "" || segment == "."

def dropIdle (segments : List String) : List String :=
  (segments.reverse.dropWhile isIdle).reverse

/-- The directory that holds a path, unless it is the working directory. -/
def parent? (path : FilePath) : Option FilePath :=
  match dropIdle (dropIdle path.segments).dropLast with
  | [] => none
  | above => some (ofSegments above)

def temporary (path : FilePath) : FilePath :=
  ⟨path.text ++ ".tmp"⟩

def check (path : FilePath) : Except IoError Unit :=
  if path.text.toList.contains '\x00' then .error .invalidPath
  else if maxSize < path.text.utf8ByteSize then .error .tooLong
  else if path.text = "" then .error .notFound
  else .ok ()

end FilePath

structure Disk (δ : Type) where
  read : FilePath → Attempt IoError δ (List UInt8)
  createDirs : FilePath → Attempt IoError δ Unit
  write : FilePath → List UInt8 → Attempt IoError δ Unit
  /-- Moves a file to another path, in place of a file that is there. -/
  rename : FilePath → FilePath → Attempt IoError δ Unit

end Gatehouse
