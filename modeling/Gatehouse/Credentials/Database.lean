import Gatehouse.Credentials.Salted
import Gatehouse.Text.Numeral

set_option autoImplicit false

/-!
# Accounts in a database

The users are rows of a table with numbers of its own and a score for each user. Names are unique
there; that a name is taken is what the database says when a row is refused. Passwords are always
kept as hashes.
-/

namespace Gatehouse

structure UserRow where
  id : Int64
  username : String
  password : String
  score : Int64
  deriving DecidableEq, Repr

inductive DatabaseError where
  /-- A row was refused because another has its name. -/
  | uniqueViolation
  | statement (reason : String)
  | connection (reason : String)
  deriving DecidableEq, Repr

structure UserDatabase (β : Type) where
  selectByName : String → Attempt DatabaseError β (Option UserRow)
  selectById : Int64 → Attempt DatabaseError β (Option UserRow)
  nameExists : String → Attempt DatabaseError β Bool
  /-- Adds a row with a name and a stored password, and returns it as it now is. -/
  insert : String → String → Attempt DatabaseError β UserRow

namespace DatabaseCredentials

variable {β : Type}

def ofDatabaseError : DatabaseError → CredentialError
  | .uniqueViolation => .userAlreadyExists
  | .statement reason => .unexpected reason
  | .connection reason => .unavailable reason

/-- The user of a row. A row whose name is no username is unexpected. -/
def ofRow (row : UserRow) : Except CredentialError User :=
  match Username.ofText row.username with
  | .ok name => .ok ⟨UserId.ofRow row.id, name, row.password, some row.score⟩
  | .error error => .error (.unexpected error.message)

def ask {α : Type} (statement : Attempt DatabaseError β α) :
    Attempt CredentialError (Salted β) α :=
  Salted.onContents (statement.mapError ofDatabaseError)

def ofRow? (row : Option UserRow) : Attempt CredentialError (Salted β) (Option User) :=
  match row with
  | none => pure none
  | some row =>
    match ofRow row with
    | .ok user => pure (some user)
    | .error error => throw error

/-- The number that a text spells: decimal digits, with a sign if wanted, within 64 bits. -/
def rowId? (text : String) : Option Int64 :=
  ((Text.signed? text.toList).filter Text.fitsInt64).map Int64.ofInt

def find (database : UserDatabase β) (name : Username) :
    Attempt CredentialError (Salted β) (Option User) := do
  ofRow? (← ask (database.selectByName name.text))

def getById (database : UserDatabase β) (id : UserId) :
    Attempt CredentialError (Salted β) (Option User) := do
  match rowId? id.text with
  | none => pure none
  | some row => ofRow? (← ask (database.selectById row))

def create (database : UserDatabase β) (salts : Nat → Salt) (name : Username)
    (password : Password) : Attempt CredentialError (Salted β) User := do
  let stored ← Salted.protect .argon2 salts password
  let row ← ask (database.insert name.text stored)
  match ofRow row with
  | .ok user => pure user
  | .error error => throw error

def verify (database : UserDatabase β) (name : Username) (password : Password) :
    Attempt CredentialError (Salted β) Bool := do
  match ← find database name with
  | some user => PasswordPolicy.argon2.answer user.storedPassword password
  | none => pure false

def store (database : UserDatabase β) (salts : Nat → Salt) : CredentialStore (Salted β) where
  find := find database
  get := getById database
  isTaken name := ask (database.nameExists name.text)
  create := create database salts
  verify := verify database

end DatabaseCredentials

/-- The rows of the table, newest last, and the largest number that was given to one. -/
structure UserRows where
  rows : List UserRow := []
  lastId : Int64 := 0
  deriving DecidableEq, Repr

namespace UserRows

def byName? (table : UserRows) (name : String) : Option UserRow :=
  table.rows.find? fun row => row.username == name

def byId? (table : UserRows) (id : Int64) : Option UserRow :=
  table.rows.find? fun row => row.id == id

def insert (table : UserRows) (name password : String) :
    Except DatabaseError UserRow × UserRows :=
  let id := table.lastId + 1
  match table.byName? name with
  | some _ => (.error .uniqueViolation, { table with lastId := id })
  | none =>
    let row : UserRow := ⟨id, name, password, 0⟩
    (.ok row, ⟨table.rows ++ [row], id⟩)

def database : UserDatabase UserRows where
  selectByName name := .ofFunction fun table => (.ok (table.byName? name), table)
  selectById id := .ofFunction fun table => (.ok (table.byId? id), table)
  nameExists name := .ofFunction fun table => (.ok (table.byName? name).isSome, table)
  insert name password := .ofFunction fun table => table.insert name password

end UserRows

end Gatehouse
