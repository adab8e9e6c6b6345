import Gatehouse.Settings.Reading

set_option autoImplicit false

/-!
# What settings are read from

The value of each setting is looked up in its group, by name in a table and by position in a list.
Settings are read exactly where every value can be taken for what is wanted.
-/

namespace Gatehouse

/-- A setting in its group: a name in a table, or a position in a list. -/
structure SettingKey where
  group : String
  name : String
  position : Nat
  deriving DecidableEq, Repr

namespace SettingKey

/-- All keys, each with its environment variable. -/
def byVariable : List (String × SettingKey) :=
  [("WICKET_APP__VARIANT", ⟨"app", "variant", 0⟩),
    ("WICKET_APP__ADDRESS", ⟨"app", "address", 1⟩),
    ("WICKET_APP__ASSETS_DIR", ⟨"app", "assets_dir", 2⟩),
    ("WICKET_SESSION__COOKIE_NAME", ⟨"session", "cookie_name", 0⟩),
    ("WICKET_SESSION__SECURE", ⟨"session", "secure", 1⟩),
    ("WICKET_SESSION__TTL_SECONDS", ⟨"session", "ttl_seconds", 2⟩),
    ("WICKET_SESSION__BACKEND", ⟨"session", "backend", 3⟩),
    ("WICKET_CREDENTIALS__BACKEND", ⟨"credentials", "backend", 0⟩),
    ("WICKET_CREDENTIALS__USERS_FILE", ⟨"credentials", "users_file", 1⟩),
    ("WICKET_CREDENTIALS__PASSWORD_POLICY", ⟨"credentials", "password_policy", 2⟩),
    ("WICKET_POSTGRES__URL", ⟨"postgres", "url", 0⟩),
    ("WICKET_POSTGRES__MAX_CONNECTIONS", ⟨"postgres", "max_connections", 1⟩),
    ("WICKET_REDIS__HOST_NAME", ⟨"redis", "host_name", 0⟩),
    ("WICKET_TODO__FILE", ⟨"todo", "file", 0⟩),
    ("WICKET_BOARD__ROWS", ⟨"board", "rows", 0⟩),
    ("WICKET_BOARD__COLS", ⟨"board", "cols", 1⟩),
    ("WICKET_BOARD__MINES", ⟨"board", "mines", 2⟩)]

def all : List SettingKey := byVariable.map Prod.snd

end SettingKey

namespace ConfigValue

def at? (values : ConfigValue) (key : SettingKey) : Option ConfigValue :=
  match values.get? key.group with
  | some (.table entries) => entries.lookup key.name
  | some (.list items) => items[key.position]?
  | _ => none

def word64? (value : ConfigValue) : Option UInt64 :=
  value.word?.map Nat.toUInt64

def word32? (value : ConfigValue) : Option UInt32 :=
  (value.word?.filter (· < UInt32.size)).map Nat.toUInt32

def chosen? {α : Type} (names : List (String × α)) (value : ConfigValue) : Option α :=
  value.choice?.bind fun name => names.lookup name

end ConfigValue

open ConfigValue Settings

/-- The values of the keys say the settings. Only the backend of the accounts may be left out. -/
structure Describes (value? : SettingKey → Option ConfigValue) (settings : Settings) : Prop where
  variant : (value? ⟨"app", "variant", 0⟩).bind (chosen? siteNames) = some settings.site.kind
  address : (value? ⟨"app", "address", 1⟩).bind text? = some settings.site.address
  assetsDir : (value? ⟨"app", "assets_dir", 2⟩).bind text? = some settings.site.assetsDir
  cookieName : (value? ⟨"session", "cookie_name", 0⟩).bind text? = some settings.session.cookieName
  secure : (value? ⟨"session", "secure", 1⟩).bind flag? = some settings.session.secure
  ttlSeconds : (value? ⟨"session", "ttl_seconds", 2⟩).bind word64? = some settings.session.ttlSeconds
  sessions : (value? ⟨"session", "backend", 3⟩).bind (chosen? sessionBackendNames) =
    some settings.session.backend
  accounts : (∃ backend, settings.credentials.backend = some backend ∧
      (value? ⟨"credentials", "backend", 0⟩).bind (chosen? credentialBackendNames) =
        some backend) ∨
    settings.credentials.backend = none ∧
      ((value? ⟨"credentials", "backend", 0⟩ = none) ∨
        value? ⟨"credentials", "backend", 0⟩ = some .absent)
  usersFile : (value? ⟨"credentials", "users_file", 1⟩).bind text? =
    some settings.credentials.usersFile.text
  policy : (value? ⟨"credentials", "password_policy", 2⟩).bind (chosen? policyNames) =
    some settings.credentials.policy
  url : (value? ⟨"postgres", "url", 0⟩).bind text? = some settings.database.url
  maxConnections : (value? ⟨"postgres", "max_connections", 1⟩).bind word32? =
    some settings.database.maxConnections
  sessionHost : (value? ⟨"redis", "host_name", 0⟩).bind text? = some settings.sessionHost
  todoFile : (value? ⟨"todo", "file", 0⟩).bind text? = some settings.todoFile.text
  rows : (value? ⟨"board", "rows", 0⟩).bind word32? = some settings.board.rows
  cols : (value? ⟨"board", "cols", 1⟩).bind word32? = some settings.board.cols
  mines : (value? ⟨"board", "mines", 2⟩).bind word32? = some settings.board.mines

theorem bind_eq_ok {ε α β : Type} {first : Except ε α} {next : α → Except ε β} {result : β} :
    (first >>= next) = .ok result ↔ ∃ value, first = .ok value ∧ next value = .ok result := by
  cases first with
  | error error => simp [bind, Except.bind]
  | ok value => simp [bind, Except.bind]

namespace Setting

variable {α : Type} {setting : Setting} {result : α}

theorem read_eq_ok {read? : ConfigValue → Option α} :
    setting.read read? = .ok result ↔ read? setting.value = some result := by
  rw [read]
  cases read? setting.value <;> simp

theorem choice_eq_ok {names : List (String × α)} :
    setting.choice names = .ok result ↔ setting.value.chosen? names = some result := by
  rw [choice, chosen?]
  cases setting.value.choice?.bind fun name => names.lookup name <;> simp

end Setting

section

variable {values value : ConfigValue} {key name other : String} {position position' : Nat}
  {α : Type} {result : α}

theorem find?_of_at? (h : values.at? ⟨key, other, position'⟩ = some value) (name : String)
    (position : Nat) :
    ∃ label, (group values key).find? name position =
      .ok ((values.at? ⟨key, name, position⟩).map (Setting.mk label)) := by
  rw [at?] at h ⊢
  rw [group]
  dsimp only at h ⊢
  cases hheld : values.get? key with
  | none =>
    rw [hheld] at h
    cases h
  | some held =>
    rw [hheld] at h
    cases held with
    | table entries => exact ⟨_, rfl⟩
    | list items => exact ⟨_, rfl⟩
    | absent | flag | integer | number | text => cases h

theorem find_of_at? (h : values.at? ⟨key, name, position⟩ = some value) :
    ∃ label, (group values key).find name position = .ok ⟨label, value⟩ := by
  obtain ⟨label, hfind⟩ := find?_of_at? h name position
  rw [h] at hfind
  refine ⟨label, ?_⟩
  rw [Setting.find, hfind]
  rfl

theorem find_of_at?_none (h : values.at? ⟨key, name, position⟩ = none) :
    (group values key).find name position = .error (.refused key) := by
  rw [at?] at h
  rw [Setting.find, Setting.find?, group]
  dsimp only at h ⊢
  cases hheld : values.get? key with
  | none => rfl
  | some held =>
    rw [hheld] at h
    cases held with
    | table entries =>
      dsimp only [Option.getD_some] at h ⊢
      rw [h]
      rfl
    | list items =>
      dsimp only [Option.getD_some] at h ⊢
      rw [h]
      rfl
    | absent | flag | integer | number | text => rfl

/-- A setting that is needed is found, and its value is taken for what is wanted. -/
theorem needed_ok {reader : Setting → Except SettingsError α} {read? : ConfigValue → Option α}
    (hreads : ∀ setting, reader setting = .ok result ↔ read? setting.value = some result) :
    ((group values key).find name position >>= reader) = .ok result ↔
      (values.at? ⟨key, name, position⟩).bind read? = some result := by
  cases hfound : values.at? ⟨key, name, position⟩ with
  | none =>
    rw [find_of_at?_none hfound]
    exact ⟨(nomatch ·), (nomatch ·)⟩
  | some value =>
    obtain ⟨label, hfind⟩ := find_of_at? hfound
    rw [hfind]
    exact hreads ⟨label, value⟩

theorem needed_text {text : String} :
    ((group values key).find name position >>= Setting.text) = .ok text ↔
      (values.at? ⟨key, name, position⟩).bind text? = some text :=
  needed_ok fun _ => Setting.read_eq_ok

theorem needed_flag {flag : Bool} :
    ((group values key).find name position >>= Setting.flag) = .ok flag ↔
      (values.at? ⟨key, name, position⟩).bind flag? = some flag :=
  needed_ok fun _ => Setting.read_eq_ok

theorem needed_word64 {word : UInt64} :
    ((group values key).find name position >>= Setting.word64) = .ok word ↔
      (values.at? ⟨key, name, position⟩).bind word64? = some word :=
  needed_ok fun _ => Setting.read_eq_ok

theorem needed_word32 {word : UInt32} :
    ((group values key).find name position >>= Setting.word32) = .ok word ↔
      (values.at? ⟨key, name, position⟩).bind word32? = some word :=
  needed_ok fun _ => Setting.read_eq_ok

theorem needed_choice {names : List (String × α)} :
    ((group values key).find name position >>= Setting.choice names) = .ok result ↔
      (values.at? ⟨key, name, position⟩).bind (chosen? names) = some result :=
  needed_ok fun _ => Setting.choice_eq_ok

theorem readBackend_ok {label : String} {found : Option ConfigValue}
    {backend : Option CredentialBackend} :
    readBackend (found.map (Setting.mk label)) = .ok backend ↔
      (∃ chosen, backend = some chosen ∧
        found.bind (chosen? credentialBackendNames) = some chosen) ∨
      backend = none ∧ (found = none ∨ found = some .absent) := by
  have hchosen (value : ConfigValue) :
      (do pure (some (← (Setting.mk label value).choice credentialBackendNames))) =
          Except.ok backend ↔
        ∃ chosen, backend = some chosen ∧ chosen? credentialBackendNames value = some chosen := by
    rw [bind_eq_ok]
    constructor
    · rintro ⟨chosen, hchoice, hpure⟩
      cases hpure
      exact ⟨chosen, rfl, Setting.choice_eq_ok.1 hchoice⟩
    · rintro ⟨chosen, rfl, hchoice⟩
      exact ⟨chosen, Setting.choice_eq_ok.2 hchoice, rfl⟩
  cases found with
  | none =>
    constructor
    · intro h
      cases h
      exact .inr ⟨rfl, .inl rfl⟩
    · rintro (⟨_, -, h⟩ | ⟨rfl, -⟩)
      · cases h
      · rfl
  | some value =>
    cases value with
    | absent =>
      constructor
      · intro h
        cases h
        exact .inr ⟨rfl, .inr rfl⟩
      · rintro (⟨_, -, h⟩ | ⟨rfl, -⟩)
        · cases h
        · rfl
    | flag | integer | number | text | list | table =>
      refine (hchosen _).trans ⟨.inl, ?_⟩
      rintro (h | ⟨-, h | h⟩)
      · exact h
      · cases h
      · cases h

end

section

variable {values : ConfigValue}

theorem readSite_ok {site : SiteSettings} :
    readSite (group values "app") = .ok site ↔
      (values.at? ⟨"app", "variant", 0⟩).bind (chosen? siteNames) = some site.kind ∧
      (values.at? ⟨"app", "address", 1⟩).bind text? = some site.address ∧
      (values.at? ⟨"app", "assets_dir", 2⟩).bind text? = some site.assetsDir := by
  rw [readSite]
  simp only [← bind_assoc]
  constructor
  · intro h
    obtain ⟨kind, hkind, h⟩ := bind_eq_ok.1 h
    obtain ⟨address, haddress, h⟩ := bind_eq_ok.1 h
    obtain ⟨assetsDir, hassetsDir, h⟩ := bind_eq_ok.1 h
    cases h
    exact ⟨needed_choice.1 hkind, needed_text.1 haddress, needed_text.1 hassetsDir⟩
  · rintro ⟨hkind, haddress, hassetsDir⟩
    refine bind_eq_ok.2 ⟨_, needed_choice.2 hkind, ?_⟩
    refine bind_eq_ok.2 ⟨_, needed_text.2 haddress, ?_⟩
    exact bind_eq_ok.2 ⟨_, needed_text.2 hassetsDir, rfl⟩

theorem readSession_ok {session : SessionSettings} :
    readSession (group values "session") = .ok session ↔
      (values.at? ⟨"session", "cookie_name", 0⟩).bind text? = some session.cookieName ∧
      (values.at? ⟨"session", "secure", 1⟩).bind flag? = some session.secure ∧
      (values.at? ⟨"session", "ttl_seconds", 2⟩).bind word64? = some session.ttlSeconds ∧
      (values.at? ⟨"session", "backend", 3⟩).bind (chosen? sessionBackendNames) =
        some session.backend := by
  rw [readSession]
  simp only [← bind_assoc]
  constructor
  · intro h
    obtain ⟨cookieName, hcookieName, h⟩ := bind_eq_ok.1 h
    obtain ⟨secure, hsecure, h⟩ := bind_eq_ok.1 h
    obtain ⟨ttlSeconds, httlSeconds, h⟩ := bind_eq_ok.1 h
    obtain ⟨backend, hbackend, h⟩ := bind_eq_ok.1 h
    cases h
    exact ⟨needed_text.1 hcookieName, needed_flag.1 hsecure, needed_word64.1 httlSeconds,
      needed_choice.1 hbackend⟩
  · rintro ⟨hcookieName, hsecure, httlSeconds, hbackend⟩
    refine bind_eq_ok.2 ⟨_, needed_text.2 hcookieName, ?_⟩
    refine bind_eq_ok.2 ⟨_, needed_flag.2 hsecure, ?_⟩
    refine bind_eq_ok.2 ⟨_, needed_word64.2 httlSeconds, ?_⟩
    exact bind_eq_ok.2 ⟨_, needed_choice.2 hbackend, rfl⟩

theorem readAccounts_ok {accounts : String × PasswordPolicy} :
    readAccounts (group values "credentials") = .ok accounts ↔
      (values.at? ⟨"credentials", "users_file", 1⟩).bind text? = some accounts.1 ∧
      (values.at? ⟨"credentials", "password_policy", 2⟩).bind (chosen? policyNames) =
        some accounts.2 := by
  rw [readAccounts]
  simp only [← bind_assoc]
  constructor
  · intro h
    obtain ⟨usersFile, husersFile, h⟩ := bind_eq_ok.1 h
    obtain ⟨policy, hpolicy, h⟩ := bind_eq_ok.1 h
    cases h
    exact ⟨needed_text.1 husersFile, needed_choice.1 hpolicy⟩
  · rintro ⟨husersFile, hpolicy⟩
    refine bind_eq_ok.2 ⟨_, needed_text.2 husersFile, ?_⟩
    exact bind_eq_ok.2 ⟨_, needed_choice.2 hpolicy, rfl⟩

/-- In which order the backend is read makes no difference to what is read. -/
theorem readCredentials_ok {credentials : CredentialSettings} :
    readCredentials (group values "credentials") = .ok credentials ↔
      ((∃ backend, credentials.backend = some backend ∧
          (values.at? ⟨"credentials", "backend", 0⟩).bind (chosen? credentialBackendNames) =
            some backend) ∨
        credentials.backend = none ∧
          (values.at? ⟨"credentials", "backend", 0⟩ = none ∨
            values.at? ⟨"credentials", "backend", 0⟩ = some .absent)) ∧
      (values.at? ⟨"credentials", "users_file", 1⟩).bind text? =
        some credentials.usersFile.text ∧
      (values.at? ⟨"credentials", "password_policy", 2⟩).bind (chosen? policyNames) =
        some credentials.policy := by
  have hread : readCredentials (group values "credentials") = .ok credentials ↔
      ((group values "credentials").find? "backend" 0 >>= readBackend) =
          .ok credentials.backend ∧
        readAccounts (group values "credentials") =
          .ok (credentials.usersFile.text, credentials.policy) := by
    rw [readCredentials]
    simp only [← bind_assoc]
    split
    · constructor
      · intro h
        obtain ⟨backend, hbackend, h⟩ := bind_eq_ok.1 h
        obtain ⟨⟨usersFile, policy⟩, haccounts, h⟩ := bind_eq_ok.1 h
        cases h
        exact ⟨hbackend, haccounts⟩
      · rintro ⟨hbackend, haccounts⟩
        exact bind_eq_ok.2 ⟨_, hbackend, bind_eq_ok.2 ⟨_, haccounts, rfl⟩⟩
    · constructor
      · intro h
        obtain ⟨⟨usersFile, policy⟩, haccounts, h⟩ := bind_eq_ok.1 h
        obtain ⟨backend, hbackend, h⟩ := bind_eq_ok.1 h
        cases h
        exact ⟨hbackend, haccounts⟩
      · rintro ⟨hbackend, haccounts⟩
        exact bind_eq_ok.2 ⟨_, haccounts, bind_eq_ok.2 ⟨_, hbackend, rfl⟩⟩
  rw [hread, readAccounts_ok]
  -- Where a file for the accounts is found, the backend can be looked for as well.
  refine and_congr_left fun haccounts => ?_
  obtain ⟨value, hvalue, -⟩ := Option.bind_eq_some_iff.1 haccounts.1
  obtain ⟨label, hfind⟩ := find?_of_at? hvalue "backend" 0
  rw [hfind]
  exact readBackend_ok

theorem readDatabase_ok {database : DatabaseSettings} :
    readDatabase (group values "postgres") = .ok database ↔
      (values.at? ⟨"postgres", "url", 0⟩).bind text? = some database.url ∧
      (values.at? ⟨"postgres", "max_connections", 1⟩).bind word32? =
        some database.maxConnections := by
  rw [readDatabase]
  simp only [← bind_assoc]
  constructor
  · intro h
    obtain ⟨url, hurl, h⟩ := bind_eq_ok.1 h
    obtain ⟨maxConnections, hmaxConnections, h⟩ := bind_eq_ok.1 h
    cases h
    exact ⟨needed_text.1 hurl, needed_word32.1 hmaxConnections⟩
  · rintro ⟨hurl, hmaxConnections⟩
    refine bind_eq_ok.2 ⟨_, needed_text.2 hurl, ?_⟩
    exact bind_eq_ok.2 ⟨_, needed_word32.2 hmaxConnections, rfl⟩

theorem readBoard_ok {board : Board} :
    readBoard (group values "board") = .ok board ↔
      (values.at? ⟨"board", "rows", 0⟩).bind word32? = some board.rows ∧
      (values.at? ⟨"board", "cols", 1⟩).bind word32? = some board.cols ∧
      (values.at? ⟨"board", "mines", 2⟩).bind word32? = some board.mines := by
  rw [readBoard]
  simp only [← bind_assoc]
  constructor
  · intro h
    obtain ⟨rows, hrows, h⟩ := bind_eq_ok.1 h
    obtain ⟨cols, hcols, h⟩ := bind_eq_ok.1 h
    obtain ⟨mines, hmines, h⟩ := bind_eq_ok.1 h
    cases h
    exact ⟨needed_word32.1 hrows, needed_word32.1 hcols, needed_word32.1 hmines⟩
  · rintro ⟨hrows, hcols, hmines⟩
    refine bind_eq_ok.2 ⟨_, needed_word32.2 hrows, ?_⟩
    refine bind_eq_ok.2 ⟨_, needed_word32.2 hcols, ?_⟩
    exact bind_eq_ok.2 ⟨_, needed_word32.2 hmines, rfl⟩

theorem ofValues_eq_ok {settings : Settings} :
    ofValues values = .ok settings ↔ Describes values.at? settings := by
  rw [ofValues]
  simp only [← bind_assoc]
  constructor
  · intro h
    obtain ⟨site, hsite, h⟩ := bind_eq_ok.1 h
    obtain ⟨session, hsession, h⟩ := bind_eq_ok.1 h
    obtain ⟨credentials, hcredentials, h⟩ := bind_eq_ok.1 h
    obtain ⟨database, hdatabase, h⟩ := bind_eq_ok.1 h
    obtain ⟨sessionHost, hsessionHost, h⟩ := bind_eq_ok.1 h
    obtain ⟨todoFile, htodoFile, h⟩ := bind_eq_ok.1 h
    obtain ⟨board, hboard, h⟩ := bind_eq_ok.1 h
    cases h
    obtain ⟨variant, address, assetsDir⟩ := readSite_ok.1 hsite
    obtain ⟨cookieName, secure, ttlSeconds, sessions⟩ := readSession_ok.1 hsession
    obtain ⟨accounts, usersFile, policy⟩ := readCredentials_ok.1 hcredentials
    obtain ⟨url, maxConnections⟩ := readDatabase_ok.1 hdatabase
    obtain ⟨rows, cols, mines⟩ := readBoard_ok.1 hboard
    exact ⟨variant, address, assetsDir, cookieName, secure, ttlSeconds, sessions, accounts,
      usersFile, policy, url, maxConnections, needed_text.1 hsessionHost, needed_text.1 htodoFile,
      rows, cols, mines⟩
  · intro h
    refine bind_eq_ok.2 ⟨settings.site, readSite_ok.2 ⟨h.variant, h.address, h.assetsDir⟩, ?_⟩
    refine bind_eq_ok.2 ⟨settings.session,
      readSession_ok.2 ⟨h.cookieName, h.secure, h.ttlSeconds, h.sessions⟩, ?_⟩
    refine bind_eq_ok.2 ⟨settings.credentials,
      readCredentials_ok.2 ⟨h.accounts, h.usersFile, h.policy⟩, ?_⟩
    refine bind_eq_ok.2 ⟨settings.database, readDatabase_ok.2 ⟨h.url, h.maxConnections⟩, ?_⟩
    refine bind_eq_ok.2 ⟨settings.sessionHost, needed_text.2 h.sessionHost, ?_⟩
    refine bind_eq_ok.2 ⟨settings.todoFile.text, needed_text.2 h.todoFile, ?_⟩
    exact bind_eq_ok.2 ⟨settings.board, readBoard_ok.2 ⟨h.rows, h.cols, h.mines⟩, rfl⟩

end

end Gatehouse
