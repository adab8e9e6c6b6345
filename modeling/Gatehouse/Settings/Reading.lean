import Gatehouse.Number.Shortest
import Gatehouse.Settings.Basic
import Gatehouse.Settings.Value
import Gatehouse.Text.Numeral

set_option autoImplicit false

/-!
# Settings from configuration values

Each setting wants a value of one type and takes what can be taken for it: numbers for truth values,
texts for numbers, and so on. An error tells the key of the value at fault.
-/

namespace Gatehouse

namespace ConfigValue

def trueWords : List String := ["true", "on", "yes"]

def falseWords : List String := ["false", "off", "no"]

def text? : ConfigValue → Option String
  | text value => some value
  | flag value => some (if value then "true" else "false")
  | integer value => some (toString value)
  | number value => some value.toText
  | _ => none

/-- The truth value that a single value stands for. A number is true unless it is zero. -/
def flag? : ConfigValue → Option Bool
  | flag value => some value
  | integer value => some (value != 0)
  | number value => some !value.isZero
  | text value =>
    if value.toLower ∈ "1" :: trueWords then some true
    else if value.toLower ∈ "0" :: falseWords then some false
    else none
  | _ => none

def word? : ConfigValue → Option Nat
  | integer value => if value < 0 then none else some value.toNat
  | flag value => some value.toNat
  | number value => some (value.toNatUpTo (UInt64.size - 1))
  | text value =>
    if value.toLower ∈ trueWords then some 1
    else if value.toLower ∈ falseWords then some 0
    else (Text.unsigned? value.toList).filter (· < UInt64.size)
  | _ => none

/-- The name that a value chooses: a text, or the name of the only entry of a table. -/
def choice? : ConfigValue → Option String
  | text value => some value
  | table [(name, _)] => some name
  | _ => none

end ConfigValue

structure Setting where
  key : String
  value : ConfigValue

namespace Setting

def isList (group : Setting) : Bool :=
  match group.value with
  | .list _ => true
  | _ => false

/-- The value of a name in a group, unless it is missing. A group is a table, or a list of its
values in order. -/
def find? (group : Setting) (name : String) (position : Nat) :
    Except SettingsError (Option Setting) :=
  match group.value with
  | .table entries => .ok ((entries.lookup name).map fun value => ⟨group.key ++ "." ++ name, value⟩)
  | .list items => .ok (items[position]?.map fun value => ⟨s!"{group.key}[{position}]", value⟩)
  | _ => .error (.refused group.key)

def find (group : Setting) (name : String) (position : Nat) : Except SettingsError Setting := do
  match ← group.find? name position with
  | some setting => pure setting
  | none => throw (.refused group.key)

def read {α : Type} (read? : ConfigValue → Option α) (setting : Setting) :
    Except SettingsError α :=
  match read? setting.value with
  | some value => .ok value
  | none => .error (.wrongType setting.key)

def text (setting : Setting) : Except SettingsError String := setting.read ConfigValue.text?

def flag (setting : Setting) : Except SettingsError Bool := setting.read ConfigValue.flag?

def word64 (setting : Setting) : Except SettingsError UInt64 :=
  setting.read fun value => value.word?.map Nat.toUInt64

def word32 (setting : Setting) : Except SettingsError UInt32 :=
  setting.read fun value => (value.word?.filter (· < UInt32.size)).map Nat.toUInt32

def choice {α : Type} (names : List (String × α)) (setting : Setting) : Except SettingsError α :=
  match setting.value.choice?.bind fun name => names.lookup name with
  | some value => .ok value
  | none => .error (.refused setting.key)

end Setting

namespace Settings

def siteNames : List (String × SiteKind) :=
  [("minesweeper", .minesweeper), ("todo", .todoList), ("user_system", .userSystem)]

def credentialBackendNames : List (String × CredentialBackend) :=
  [("memory", .memory), ("json", .file), ("postgres", .database)]

def sessionBackendNames : List (String × SessionBackend) :=
  [("memory", .memory), ("redis", .server)]

def policyNames : List (String × PasswordPolicy) :=
  [("argon2", .argon2), ("plaintext", .plaintext)]

def readSite (group : Setting) : Except SettingsError SiteSettings := do
  let kind ← (← group.find "variant" 0).choice siteNames
  let address ← (← group.find "address" 1).text
  let assetsDir ← (← group.find "assets_dir" 2).text
  pure ⟨kind, address, assetsDir⟩

def readSession (group : Setting) : Except SettingsError SessionSettings := do
  let cookieName ← (← group.find "cookie_name" 0).text
  let secure ← (← group.find "secure" 1).flag
  let ttlSeconds ← (← group.find "ttl_seconds" 2).word64
  let backend ← (← group.find "backend" 3).choice sessionBackendNames
  pure ⟨cookieName, secure, ttlSeconds, backend⟩

def readBackend (setting : Option Setting) : Except SettingsError (Option CredentialBackend) :=
  match setting with
  | none => pure none
  | some ⟨_, .absent⟩ => pure none
  | some setting => do pure (some (← setting.choice credentialBackendNames))

def readAccounts (group : Setting) : Except SettingsError (String × PasswordPolicy) := do
  let usersFile ← (← group.find "users_file" 1).text
  let policy ← (← group.find "password_policy" 2).choice policyNames
  pure (usersFile, policy)

/-- A list is read in its order. In a table the backend, which may be missing, comes last. -/
def readCredentials (group : Setting) : Except SettingsError CredentialSettings :=
  if group.isList then do
    let backend ← readBackend (← group.find? "backend" 0)
    let (usersFile, policy) ← readAccounts group
    pure ⟨backend, ⟨usersFile⟩, policy⟩
  else do
    let (usersFile, policy) ← readAccounts group
    let backend ← readBackend (← group.find? "backend" 0)
    pure ⟨backend, ⟨usersFile⟩, policy⟩

def readDatabase (group : Setting) : Except SettingsError DatabaseSettings := do
  let url ← (← group.find "url" 0).text
  let maxConnections ← (← group.find "max_connections" 1).word32
  pure ⟨url, maxConnections⟩

def readBoard (group : Setting) : Except SettingsError Board := do
  let rows ← (← group.find "rows" 0).word32
  let cols ← (← group.find "cols" 1).word32
  let mines ← (← group.find "mines" 2).word32
  pure ⟨rows, cols, mines⟩

/-- A group of settings. One that is missing has no values. -/
def group (values : ConfigValue) (key : String) : Setting :=
  ⟨key, (values.get? key).getD .absent⟩

def ofValues (values : ConfigValue) : Except SettingsError Settings := do
  let site ← readSite (group values "app")
  let session ← readSession (group values "session")
  let credentials ← readCredentials (group values "credentials")
  let database ← readDatabase (group values "postgres")
  let sessionHost ← (← (group values "redis").find "host_name" 0).text
  let todoFile ← (← (group values "todo").find "file" 0).text
  let board ← readBoard (group values "board")
  pure ⟨site, session, credentials, database, sessionHost, ⟨todoFile⟩, board⟩

end Settings

end Gatehouse
