import Gatehouse.Proofs.Credentials.UserTable
import Gatehouse.Proofs.Disk.FileTree
import Gatehouse.Proofs.Session.Interchange
import Gatehouse.Proofs.Todo.Codec

set_option autoImplicit false

/-!
# What is written is read back

To-do lists and user tables in their files, and sessions in their stored form. Bytes that were not
written here may be read as well; the value that they stand for is written in the one way, and stays
what it is.
-/

namespace Gatehouse

/-- A way to keep the values of a type as bytes. -/
structure Format (α : Type) where
  write : α → List UInt8
  read? : List UInt8 → Option α

namespace Format

variable {α : Type}

def rewrite? (format : Format α) (bytes : List UInt8) : Option (List UInt8) :=
  (format.read? bytes).map format.write

/-- Reading undoes writing, and what has been read once is not changed by writing. -/
structure Lossless (format : Format α) : Prop where
  read_write (value : α) : format.read? (format.write value) = some value
  read_rewrite (bytes : List UInt8) :
    (format.rewrite? bytes).bind format.read? = format.read? bytes
  rewrite_rewrite (bytes : List UInt8) :
    (format.rewrite? bytes).bind format.rewrite? = format.rewrite? bytes

theorem Lossless.of_read_write {format : Format α}
    (h : ∀ value, format.read? (format.write value) = some value) : format.Lossless where
  read_write := h
  read_rewrite bytes := by
    rw [rewrite?]
    cases format.read? bytes with
    | none => rfl
    | some value => exact h value
  rewrite_rewrite bytes := by
    rw [rewrite?]
    cases format.read? bytes with
    | none => rfl
    | some value =>
      rw [Option.map_some, Option.bind_some, rewrite?, h, Option.map_some]

def todos : Format (List TodoItem) where
  write items := JsonFile.content (TodoItem.listToJson items)
  read? := TodoItem.listOfBytes?

def users : Format UserTable where
  write users := JsonFile.content users.toJson
  read? := UserTable.ofBytes?

def session : Format Session where
  write session := Text.utf8 session.toStored.toList
  read? := Session.ofStored?

theorem todos_lossless : todos.Lossless :=
  .of_read_write TodoItem.listOfBytes?_content

theorem users_lossless : users.Lossless :=
  .of_read_write UserTable.ofBytes?_content

theorem session_lossless : session.Lossless := by
  apply Lossless.of_read_write
  intro value
  dsimp only [session]
  exact Session.ofStored?_toStored value

end Format

/-- Every value of every kind that is kept is read back as it was, by what is written of it, from its
file, and from the payload in a server. -/
theorem reading_undoes_writing :
    (Format.todos.Lossless ∧ Format.users.Lossless ∧ Format.session.Lossless) ∧
    (∀ session : Session,
      KeyValueSessions.ofPayload (Text.utf8 session.toStored.toList) = .ok session) ∧
    ∀ {δ : Type} (disk : Disk δ) (path : FilePath) (Sound : δ → Prop),
      disk.Faithful path Sound → ∀ state after : δ, Sound state →
        (∀ items : List TodoItem,
          (JsonFile.write disk path (TodoItem.listToJson items)).runFrom state = (.ok (), after) →
          (JsonFile.read disk path TodoItem.listOfJson?).runFrom after =
            (.ok (some items), after)) ∧
        ∀ users : UserTable,
          (JsonFile.write disk path users.toJson).runFrom state = (.ok (), after) →
          (JsonFile.read disk path UserTable.ofJson?).runFrom after =
            (.ok (some users), after) := by
  refine ⟨⟨Format.todos_lossless, Format.users_lossless, Format.session_lossless⟩,
    KeyValueSessions.ofPayload_payload, ?_⟩
  intro δ disk path Sound faithful state after hsound
  constructor
  · intro items hwrite
    exact JsonFile.read_of_write faithful hsound (TodoItem.listOfBytes?_content items) hwrite
  · intro users hwrite
    exact JsonFile.read_of_write faithful hsound (UserTable.ofBytes?_content users) hwrite

namespace Format

def sampleTodos : List TodoItem := [⟨18446744073709551615, "\"\\\"", "\u2028", "𝄞", true⟩]

def sampleUsers : UserTable := UserTable.empty.insert "al" "\x00"

def afterWrite (json : Json) : FileTree :=
  ((JsonFile.write FileTree.disk ⟨"data/kept.json"⟩ json).runFrom FileTree.empty).2

end Format

theorem reading_undoes_writing_sample :
    FileTree.disk.Faithful ⟨"data/kept.json"⟩ FileTree.Closed ∧ FileTree.empty.Closed ∧
      (JsonFile.read FileTree.disk ⟨"data/kept.json"⟩ TodoItem.listOfJson?).runFrom
          (Format.afterWrite (TodoItem.listToJson Format.sampleTodos)) =
        (.ok (some Format.sampleTodos),
          Format.afterWrite (TodoItem.listToJson Format.sampleTodos)) ∧
      (JsonFile.read FileTree.disk ⟨"data/kept.json"⟩ UserTable.ofJson?).runFrom
          (Format.afterWrite Format.sampleUsers.toJson) =
        (.ok (some Format.sampleUsers), Format.afterWrite Format.sampleUsers.toJson) := by
  have faithful := (FileTree.settles ⟨"data/kept.json"⟩).faithful
  have htodos : (JsonFile.write FileTree.disk ⟨"data/kept.json"⟩
      (TodoItem.listToJson Format.sampleTodos)).runFrom FileTree.empty =
      (.ok (), Format.afterWrite (TodoItem.listToJson Format.sampleTodos)) := by
    decide +kernel
  have husers : (JsonFile.write FileTree.disk ⟨"data/kept.json"⟩
      Format.sampleUsers.toJson).runFrom FileTree.empty =
      (.ok (), Format.afterWrite Format.sampleUsers.toJson) := by
    decide +kernel
  have hkept := fun after => reading_undoes_writing.2.2 FileTree.disk ⟨"data/kept.json"⟩ _ faithful
    FileTree.empty after FileTree.closed_empty
  exact ⟨faithful, FileTree.closed_empty, (hkept _).1 _ htodos, (hkept _).2 _ husers⟩

end Gatehouse
