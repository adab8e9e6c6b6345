import Gatehouse.Disk.Basic
import Gatehouse.Keyed

set_option autoImplicit false

/-!
# File trees

The files and directories below a working directory, as a value, and the disk that they make. Each
of them has an entry; the working directory itself has none and is always there. A path is followed
segment by segment through directories that are there: two dots lead up only from a directory that
exists, and from the working directory back to itself.
-/

namespace Gatehouse

inductive FileEntry where
  | file (content : List UInt8)
  | directory
  deriving DecidableEq, Repr

structure FileTree where
  entries : Keyed (List String) FileEntry := {}
  deriving DecidableEq, Repr

namespace FileTree

def empty : FileTree := {}

def entryAt? (tree : FileTree) (names : List String) : Option FileEntry :=
  if names = [] then some .directory else tree.entries.get? names

def put (tree : FileTree) (names : List String) (entry : FileEntry) : FileTree :=
  ⟨tree.entries.insert names entry⟩

def drop (tree : FileTree) (names : List String) : FileTree :=
  ⟨tree.entries.erase names⟩

def clear (tree : FileTree) (names : List String) : FileTree :=
  ⟨tree.entries.keep fun other _ => !(names.isPrefixOf other && names != other)⟩

theorem entryAt?_put (tree : FileTree) (names other : List String) (entry : FileEntry)
    (h : names ≠ []) :
    (tree.put names entry).entryAt? other =
      if other = names then some entry else tree.entryAt? other := by
  by_cases ho : other = []
  · simp [entryAt?, ho, Ne.symm h]
  · simp [entryAt?, put, ho, Keyed.get?_insert]

theorem entryAt?_drop (tree : FileTree) (names other : List String) (h : names ≠ []) :
    (tree.drop names).entryAt? other = if other = names then none else tree.entryAt? other := by
  by_cases ho : other = []
  · simp [entryAt?, ho, Ne.symm h]
  · simp [entryAt?, drop, ho, Keyed.get?_erase]

def enter (tree : FileTree) (names : List String) : Except IoError Unit :=
  match tree.entryAt? names with
  | some .directory => .ok ()
  | some (.file _) => .error .notDirectory
  | none => .error .notFound

def step (tree : FileTree) (names : List String) (segment : String) :
    Except IoError (List String) := do
  tree.enter names
  if FilePath.isIdle segment then .ok names
  else if segment = ".." then .ok names.dropLast
  else if FilePath.maxNameSize < segment.utf8ByteSize then .error .tooLong
  else .ok (names ++ [segment])

/-- The place to which a path leads, by its names alone. The directory that holds it is there. -/
def locate (tree : FileTree) (path : FilePath) : Except IoError (List String) := do
  path.check
  path.segments.foldlM tree.step []

theorem enter_eq_ok_iff {tree : FileTree} {names : List String} :
    tree.enter names = .ok () ↔ tree.entryAt? names = some .directory := by
  rw [enter]
  split <;> simp_all

def Opens (tree other : FileTree) : Prop :=
  ∀ names, tree.entryAt? names = some .directory → other.entryAt? names = some .directory

theorem opens_put_file {tree : FileTree} {names : List String} (content : List UInt8)
    (h : tree.entryAt? names ≠ some .directory) : tree.Opens (tree.put names (.file content)) := by
  intro other ho
  have hn : names ≠ [] := by
    rintro rfl
    exact h (by simp [entryAt?])
  rw [entryAt?_put _ _ _ _ hn, if_neg (by rintro rfl; exact h ho), ho]

namespace Opens

variable {tree other : FileTree}

theorem step (h : tree.Opens other) {names place : List String} {segment : String}
    (hs : tree.step names segment = .ok place) : other.step names segment = .ok place := by
  unfold FileTree.step at hs ⊢
  cases he : tree.enter names with
  | error error => simp [he, bind, Except.bind] at hs
  | ok _ =>
    have ho := enter_eq_ok_iff.2 (h names (enter_eq_ok_iff.1 he))
    simpa [he, ho, bind, Except.bind] using hs

theorem foldlM_step (h : tree.Opens other) {segments : List String} {names place : List String}
    (hs : segments.foldlM tree.step names = .ok place) :
    segments.foldlM other.step names = .ok place := by
  induction segments generalizing names with
  | nil => exact hs
  | cons segment rest ih =>
    rw [List.foldlM_cons] at hs ⊢
    cases hn : tree.step names segment with
    | error error => simp [hn, bind, Except.bind] at hs
    | ok next =>
      rw [h.step hn]
      exact ih (by simpa [hn, bind, Except.bind] using hs)

theorem locate (h : tree.Opens other) {path : FilePath} {place : List String}
    (hp : tree.locate path = .ok place) : other.locate path = .ok place := by
  unfold FileTree.locate at hp ⊢
  cases hc : path.check with
  | error error => simp [hc, bind, Except.bind] at hp
  | ok _ => exact h.foldlM_step (by simpa [hc, bind, Except.bind] using hp)

end Opens

def readFile (tree : FileTree) (path : FilePath) : Except IoError (List UInt8) := do
  match tree.entryAt? (← tree.locate path) with
  | some (.file content) => .ok content
  | some .directory => .error .isDirectory
  | none => .error .notFound

def writeFile (tree : FileTree) (path : FilePath) (content : List UInt8) :
    Except IoError FileTree := do
  let names ← tree.locate path
  match tree.entryAt? names with
  | some .directory => .error .isDirectory
  | _ => .ok (tree.put names (.file content))

theorem readFile_of_writeFile {tree after : FileTree} {path : FilePath} {content : List UInt8}
    (h : tree.writeFile path content = .ok after) : after.readFile path = .ok content := by
  unfold writeFile at h
  cases hl : tree.locate path with
  | error error => simp [hl, bind, Except.bind] at h
  | ok names =>
    have hn : tree.entryAt? names ≠ some .directory := by
      intro he
      simp [hl, he, bind, Except.bind] at h
    have hput : tree.put names (.file content) = after := by
      simpa [hl, hn, bind, Except.bind] using h
    have hne : names ≠ [] := by
      rintro rfl
      exact hn (by simp [entryAt?])
    subst hput
    simp [readFile, (opens_put_file content hn).locate hl, entryAt?_put _ _ _ _ hne, bind,
      Except.bind]

def removeFile (tree : FileTree) (path : FilePath) : Except IoError FileTree := do
  let _ ← tree.readFile path
  pure (tree.drop (← tree.locate path))

def renameFile (tree : FileTree) (source target : FilePath) : Except IoError FileTree := do
  let content ← tree.readFile source
  (← tree.removeFile source).writeFile target content

def change (next : FileTree → Except IoError FileTree) : Attempt IoError FileTree Unit :=
  .ofFunction fun tree =>
    match next tree with
    | .ok after => (.ok (), after)
    | .error error => (.error error, tree)

def ask {α : Type} (question : FileTree → Except IoError α) : Attempt IoError FileTree α :=
  .ofFunction fun tree => (question tree, tree)

/-- Follows one segment from a directory, and makes the directory there if nothing is. -/
def makeStep (names : List String) (segment : String) : Attempt IoError FileTree (List String) := do
  let names ← ask (·.step names segment)
  match (← get).entryAt? names with
  | some .directory => pure names
  | some (.file _) => throw .notDirectory
  | none => do
    modify (·.put names .directory)
    pure names

/-- Makes the directories on a path that are missing. Those made before a failure stay. A path that
ends in a dot wants its last directory to be there. -/
def createDirs (path : FilePath) : Attempt IoError FileTree Unit :=
  if path.text = "" then pure ()
  else do
    let body := FilePath.dropIdle path.segments
    let rest := path.segments.drop body.length
    let made := if rest.contains "." then body.dropLast else body
    ask fun _ => path.check
    let names ← made.foldlM makeStep []
    let names ← ask fun tree => (path.segments.drop made.length).foldlM tree.step names
    ask (·.enter names)

def writeFileDeep (path : FilePath) (content : List UInt8) : Attempt IoError FileTree Unit := do
  if let some parent := path.parent? then createDirs parent
  change (·.writeFile path content)

/-- Whether a path ends in a name, perhaps with slashes after it. -/
def endsInName (path : FilePath) : Bool :=
  (path.segments.filter (· ≠ "")).getLast?.any fun segment => segment ≠ "." && segment ≠ ".."

/-- Removes a directory with everything in it. It is emptied first, and then the path is followed
once more: where it does not lead there any longer, the empty directory stays. -/
def removeDir (path : FilePath) : Attempt IoError FileTree Unit := do
  let names ← ask (·.locate path)
  ask (·.enter names)
  modify (·.clear names)
  match (← get).locate path with
  | .error _ => pure ()
  | .ok _ => if endsInName path then modify (·.drop names) else throw .invalidPath

def disk : Disk FileTree where
  read path := ask (·.readFile path)
  createDirs := createDirs
  write path content := change (·.writeFile path content)
  rename source target := change (·.renameFile source target)

end FileTree

end Gatehouse
