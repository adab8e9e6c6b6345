import Gatehouse.Credentials.Database
import Gatehouse.Credentials.JsonFile
import Gatehouse.Credentials.Memory
import Gatehouse.Disk.FileTree
import Gatehouse.Todo.JsonFile

set_option autoImplicit false

/-!
# What an application keeps

The state behind the stores of one process: its files, the users in memory, the rows of a database,
the to-do list as last read, and how many salts have been drawn. Each store is one view of it.
-/

namespace Gatehouse

structure Backing where
  files : FileTree := {}
  users : UserTable := .empty
  rows : UserRows := {}
  todos : TodoContents := .loaded []
  drawn : Nat := 0

namespace Backing

def memoryPart (backing : Backing) : Salted UserTable := ⟨backing.users, backing.drawn⟩

def withMemoryPart (part : Salted UserTable) (backing : Backing) : Backing :=
  { backing with users := part.contents, drawn := part.drawn }

def filePart (backing : Backing) : Salted FileTree := ⟨backing.files, backing.drawn⟩

def withFilePart (part : Salted FileTree) (backing : Backing) : Backing :=
  { backing with files := part.contents, drawn := part.drawn }

def databasePart (backing : Backing) : Salted UserRows := ⟨backing.rows, backing.drawn⟩

def withDatabasePart (part : Salted UserRows) (backing : Backing) : Backing :=
  { backing with rows := part.contents, drawn := part.drawn }

def todoPart (backing : Backing) : OpenTodos FileTree := ⟨backing.files, backing.todos⟩

def withTodoPart (part : OpenTodos FileTree) (backing : Backing) : Backing :=
  { backing with files := part.disk, todos := part.contents }

def memoryCredentials (policy : PasswordPolicy) (salts : Nat → Salt) : CredentialStore Backing :=
  (MemoryCredentials.store policy salts).onPart memoryPart withMemoryPart

def fileCredentials (config : FileCredentials) (salts : Nat → Salt) : CredentialStore Backing :=
  (config.store FileTree.disk salts).onPart filePart withFilePart

def databaseCredentials (salts : Nat → Salt) : CredentialStore Backing :=
  (DatabaseCredentials.store UserRows.database salts).onPart databasePart withDatabasePart

def fileTodos (config : FileTodos) : TodoStore Backing :=
  (config.store FileTree.disk).onPart todoPart withTodoPart

def openTodos (config : FileTodos) (backing : Backing) : Backing :=
  withTodoPart (config.openOn FileTree.disk backing.files) backing

end Backing

end Gatehouse
