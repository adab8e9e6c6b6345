import Gatehouse.Disk.Basic
import Gatehouse.Page
import Gatehouse.Password.Policy

set_option autoImplicit false

/-!
# Settings

What a server is told before it starts, and which settings it cannot work with.
-/

namespace Gatehouse

inductive SiteKind where
  | minesweeper
  | todoList
  | userSystem
  deriving DecidableEq, Repr

inductive CredentialBackend where
  | memory
  | file
  | database
  deriving DecidableEq, Repr

inductive SessionBackend where
  | memory
  | server
  deriving DecidableEq, Repr

structure SiteSettings where
  kind : SiteKind
  address : String
  assetsDir : String
  deriving DecidableEq, Repr

structure SessionSettings where
  cookieName : String
  secure : Bool
  ttlSeconds : UInt64
  backend : SessionBackend
  deriving DecidableEq, Repr

structure CredentialSettings where
  /-- Unless it is set, the site decides. -/
  backend : Option CredentialBackend
  usersFile : FilePath
  policy : PasswordPolicy
  deriving DecidableEq, Repr

structure DatabaseSettings where
  url : String
  maxConnections : UInt32
  deriving DecidableEq, Repr

structure Settings where
  site : SiteSettings
  session : SessionSettings
  credentials : CredentialSettings
  database : DatabaseSettings
  sessionHost : String
  todoFile : FilePath
  board : Board
  deriving DecidableEq, Repr

inductive SettingsProblem where
  | noLifetime
  | crowded (board : Board)
  deriving DecidableEq, Repr

namespace SettingsProblem

def message : SettingsProblem → String
  | noLifetime => "session.ttl_seconds must be greater than zero"
  | crowded board =>
    s!"board of {board.rows}x{board.cols} cannot hold {board.mines} mines"

end SettingsProblem

/-- There is a cell without a mine. The product of the sizes fits in 64 bits. -/
def Board.hasRoom (board : Board) : Bool :=
  board.rows != 0 && board.cols != 0 &&
    board.mines.toUInt64 < board.rows.toUInt64 * board.cols.toUInt64

inductive SettingsError where
  | malformedFile
  /-- A value cannot be taken for the number, truth value or text that is wanted. -/
  | wrongType (key : String)
  /-- A value is none of the names, or not the group of values, that is wanted. -/
  | refused (key : String)
  | invalid (problem : SettingsProblem)
  deriving DecidableEq, Repr

namespace SiteKind

def defaultBackend : SiteKind → CredentialBackend
  | minesweeper => .database
  | todoList => .file
  | userSystem => .file

end SiteKind

namespace Settings

def credentialBackend (settings : Settings) : CredentialBackend :=
  settings.credentials.backend.getD settings.site.kind.defaultBackend

def validate (settings : Settings) : Except SettingsError Settings :=
  if settings.session.ttlSeconds = 0 then .error (.invalid .noLifetime)
  else if !settings.board.hasRoom then .error (.invalid (.crowded settings.board))
  else .ok settings

end Settings

end Gatehouse
