import Gatehouse.Credentials.Salted
import Gatehouse.Credentials.UserTable
import Gatehouse.Disk.JsonFile

set_option autoImplicit false

/-!
# Accounts in a file

The user table is one JSON file, read again for every question. A missing file is an empty table; a
file that cannot be read makes the store unavailable and is never written. Ids are the names.
-/

namespace Gatehouse

structure FileCredentials where
  path : FilePath
  policy : PasswordPolicy

namespace FileCredentials

variable {δ : Type}

def ofFileError (error : FileError) : CredentialError :=
  .unavailable error.message

def readUsers (config : FileCredentials) (disk : Disk δ) :
    Attempt CredentialError (Salted δ) UserTable :=
  Salted.onContents do
    let users ← (JsonFile.read disk config.path UserTable.ofJson?).mapError ofFileError
    pure (users.getD .empty)

def writeUsers (config : FileCredentials) (disk : Disk δ) (users : UserTable) :
    Attempt CredentialError (Salted δ) Unit :=
  Salted.onContents ((JsonFile.write disk config.path users.toJson).mapError ofFileError)

def find (config : FileCredentials) (disk : Disk δ) (name : Username) :
    Attempt CredentialError (Salted δ) (Option User) := do
  let users ← config.readUsers disk
  pure ((users.get? name.text).map (User.named name))

def getById (config : FileCredentials) (disk : Disk δ) (id : UserId) :
    Attempt CredentialError (Salted δ) (Option User) :=
  match Username.ofText? id.text with
  | some name => config.find disk name
  | none => pure none

def isTaken (config : FileCredentials) (disk : Disk δ) (name : Username) :
    Attempt CredentialError (Salted δ) Bool := do
  let users ← config.readUsers disk
  pure (users.contains name.text)

/-- The part of adding a user that only one caller at a time may run: reading the table, looking for
the name, and writing the table back. -/
def addUser (config : FileCredentials) (disk : Disk δ) (name : Username) (stored : String) :
    Attempt CredentialError (Salted δ) User := do
  let users ← config.readUsers disk
  if users.contains name.text then throw .userAlreadyExists
  else
    config.writeUsers disk (users.insert name.text stored)
    pure (User.named name stored)

/-- Adds a user, whose password is protected before the file is read. -/
def create (config : FileCredentials) (disk : Disk δ) (salts : Nat → Salt) (name : Username)
    (password : Password) : Attempt CredentialError (Salted δ) User := do
  let stored ← Salted.protect config.policy salts password
  config.addUser disk name stored

def verify (config : FileCredentials) (disk : Disk δ) (name : Username) (password : Password) :
    Attempt CredentialError (Salted δ) Bool := do
  match ← config.find disk name with
  | some user => config.policy.answer user.storedPassword password
  | none => pure false

def store (config : FileCredentials) (disk : Disk δ) (salts : Nat → Salt) :
    CredentialStore (Salted δ) where
  find := config.find disk
  get := config.getById disk
  isTaken := config.isTaken disk
  create := config.create disk salts
  verify := config.verify disk

end FileCredentials

end Gatehouse
