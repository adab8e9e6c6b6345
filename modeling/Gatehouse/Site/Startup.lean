import Gatehouse.Backing
import Gatehouse.Html.Pages
import Gatehouse.Session.KeyValue
import Gatehouse.Session.Memory
import Gatehouse.Settings.Basic
import Gatehouse.Site.App

set_option autoImplicit false

/-!
# Starting a server

The site that the settings name, over the stores that they name. A server that is needed and cannot
be reached is the only thing that keeps a site from starting.
-/

namespace Gatehouse

inductive StartupError where
  | database
  | migration
  | sessionServer
  deriving DecidableEq, Repr

structure Resources (σ : Type) where
  salts : Nat → Salt
  renderer : Renderer := Html.renderer
  database : DatabaseSettings → Except StartupError (CredentialStore Backing)
  /-- Keeps sessions in this process, for so many seconds. -/
  memorySessions : UInt64 → SessionStore σ
  sessionServer : String → UInt64 → Except StartupError (SessionStore σ)

namespace Settings

variable {σ : Type}

def credentialStore (settings : Settings) (resources : Resources σ) :
    Except StartupError (CredentialStore Backing) :=
  let policy := settings.credentials.policy
  match settings.credentialBackend with
  | .memory => .ok (Backing.memoryCredentials policy resources.salts)
  | .file =>
    .ok (Backing.fileCredentials ⟨settings.credentials.usersFile, policy⟩ resources.salts)
  | .database => resources.database settings.database

def sessionLayer (settings : Settings) (resources : Resources σ) :
    Except StartupError (SessionLayer σ) := do
  let store ← match settings.session.backend with
    | .memory => .ok (resources.memorySessions settings.session.ttlSeconds)
    | .server => resources.sessionServer settings.sessionHost settings.session.ttlSeconds
  pure ⟨store, ⟨settings.session.cookieName, settings.session.secure⟩⟩

/-- The site of the settings, and what it keeps once it has started. -/
def start (settings : Settings) (resources : Resources σ) (backing : Backing) :
    Except StartupError (App σ Backing × Backing) := do
  match settings.site.kind with
  | .todoList =>
    let config : FileTodos := ⟨settings.todoFile⟩
    pure (.todoList (Backing.fileTodos config) resources.renderer,
      Backing.openTodos config backing)
  | .minesweeper =>
    let credentials ← settings.credentialStore resources
    let layer ← settings.sessionLayer resources
    pure (.minesweeper layer credentials resources.renderer settings.board, backing)
  | .userSystem =>
    let credentials ← settings.credentialStore resources
    let layer ← settings.sessionLayer resources
    pure (.userSystem layer credentials resources.renderer, backing)

end Settings

end Gatehouse
