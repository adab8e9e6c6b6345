import Gatehouse.Disk.JsonFile
import Gatehouse.Todo.Codec
import Gatehouse.Todo.Store

set_option autoImplicit false

/-!
# To-do lists in a file

The list is read once, when the store is opened, and kept in memory; every change is written to the
file and taken back if that fails. While the file cannot be read the store is unavailable, and each
call tries again.
-/

namespace Gatehouse

inductive TodoContents where
  | loaded (items : List TodoItem)
  | unavailable (reason : String)
  deriving DecidableEq, Repr

structure OpenTodos (δ : Type) where
  disk : δ
  contents : TodoContents
  deriving DecidableEq, Repr

structure FileTodos where
  path : FilePath

namespace FileTodos

variable {δ : Type}

def ofFileError : FileError → TodoError
  | .io path => .notPersisted (FileError.io path).message
  | .malformed path => .unexpected (FileError.malformed path).message

def load {ε : Type} (config : FileTodos) (disk : Disk δ) : Attempt ε δ TodoContents := do
  match ← (JsonFile.read disk config.path TodoItem.listOfJson?).outcome with
  | .ok items => pure (.loaded (items.getD []))
  | .error error => pure (.unavailable error.message)

def openOn (config : FileTodos) (disk : Disk δ) (state : δ) : OpenTodos δ :=
  match (config.load disk : Attempt Empty δ TodoContents).runFrom state with
  | (.ok contents, after) => ⟨after, contents⟩

def onDisk {ε α : Type} (attempt : Attempt ε δ α) : Attempt ε (OpenTodos δ) α :=
  attempt.onPart OpenTodos.disk fun disk state => { state with disk }

/-- The items in memory, after another attempt to read the file if there are none. -/
def items (config : FileTodos) (disk : Disk δ) :
    Attempt TodoError (OpenTodos δ) (List TodoItem) := do
  match (← get).contents with
  | .loaded items => pure items
  | .unavailable _ =>
    let contents ← onDisk (config.load disk)
    modify fun state => { state with contents }
    match contents with
    | .loaded items => pure items
    | .unavailable reason => throw (.unavailable reason)

def setItems (items : List TodoItem) : Attempt TodoError (OpenTodos δ) Unit :=
  modify fun state => { state with contents := .loaded items }

/-- Adds an item in memory and writes the list; when writing fails, the item goes again. -/
def append (config : FileTodos) (disk : Disk δ) (todo : NewTodo) :
    Attempt TodoError (OpenTodos δ) TodoItem := do
  let items ← config.items disk
  let item := todo.toItem (items.length.toUInt64 + 1)
  setItems (items ++ [item])
  let written ←
    (onDisk (JsonFile.write disk config.path (TodoItem.listToJson (items ++ [item])))).outcome
  match written with
  | .ok () => pure item
  | .error error => do
    setItems items
    throw (ofFileError error)

def store (config : FileTodos) (disk : Disk δ) : TodoStore (OpenTodos δ) where
  list := config.items disk
  append := config.append disk

end FileTodos

end Gatehouse
