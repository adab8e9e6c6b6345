import Gatehouse.Credentials.JsonFile
import Gatehouse.Credentials.Memory
import Gatehouse.Proofs.Credentials.Memory
import Gatehouse.Proofs.Credentials.UserTable
import Gatehouse.Proofs.Disk.JsonFile

set_option autoImplicit false

/-!
# Stores that share one table

The accounts in memory and those in a file are one algorithm over a user table: they differ in how
the table is read, and in the steps by which it is replaced. What goes wrong with either is a reason
for the table to be unavailable.
-/

namespace Gatehouse

structure SharedTable (σ : Type) where
  policy : PasswordPolicy
  read : Attempt String σ UserTable
  writes : UserTable → List (Attempt String σ Unit)

theorem PasswordPolicy.runFrom_answer {σ : Type} (policy : PasswordPolicy) (stored : String)
    (password : Password) (state : σ) :
    (policy.answer stored password).runFrom state =
      ((policy.verify stored password).mapError fun error => .unexpected error.message, state) := by
  rw [PasswordPolicy.answer]
  cases policy.verify stored password <;> rfl

namespace SharedTable

variable {σ : Type}

def readUsers (table : SharedTable σ) : Attempt CredentialError (Salted σ) UserTable :=
  Salted.onContents (table.read.mapError .unavailable)

def find (table : SharedTable σ) (name : Username) :
    Attempt CredentialError (Salted σ) (Option User) := do
  let users ← table.readUsers
  pure ((users.get? name.text).map (User.named name))

def getById (table : SharedTable σ) (id : UserId) :
    Attempt CredentialError (Salted σ) (Option User) :=
  match Username.ofText? id.text with
  | some name => table.find name
  | none => pure none

def isTaken (table : SharedTable σ) (name : Username) :
    Attempt CredentialError (Salted σ) Bool := do
  let users ← table.readUsers
  pure (users.contains name.text)

/-- One of the steps that write a table, in a store. -/
def inStore (step : Attempt String σ Unit) : Attempt CredentialError (Salted σ) Unit :=
  Salted.onContents (step.mapError .unavailable)

/-- Adds a user to the table that was read. -/
def addTo (table : SharedTable σ) (users : UserTable) (name : Username) (stored : String) :
    Attempt CredentialError (Salted σ) User :=
  if users.contains name.text then throw .userAlreadyExists
  else do
    inStore ((table.writes (users.insert name.text stored)).forM id)
    pure (User.named name stored)

def addUser (table : SharedTable σ) (name : Username) (stored : String) :
    Attempt CredentialError (Salted σ) User := do
  let users ← table.readUsers
  table.addTo users name stored

def create (table : SharedTable σ) (salts : Nat → Salt) (name : Username) (password : Password) :
    Attempt CredentialError (Salted σ) User := do
  let stored ← Salted.protect table.policy salts password
  table.addUser name stored

def verify (table : SharedTable σ) (name : Username) (password : Password) :
    Attempt CredentialError (Salted σ) Bool := do
  match ← table.find name with
  | some user => table.policy.answer user.storedPassword password
  | none => pure false

def store (table : SharedTable σ) (salts : Nat → Salt) : CredentialStore (Salted σ) where
  find := table.find
  get := table.getById
  isTaken := table.isTaken
  create := table.create salts
  verify := table.verify

theorem runFrom_inStore (step : Attempt String σ Unit) (state : Salted σ) :
    (inStore step).runFrom state =
      ((step.runFrom state.contents).1.mapError .unavailable,
        state.withContents (step.runFrom state.contents).2) := by
  rw [inStore, Salted.onContents, Attempt.runFrom_onPart, Attempt.runFrom_mapError]

theorem runFrom_inStore_cons (step : Attempt String σ Unit) (left : List (Attempt String σ Unit))
    (state : Salted σ) :
    (inStore ((step :: left).forM id)).runFrom state =
      match (inStore step).runFrom state with
      | (.ok _, after) => (inStore (left.forM id)).runFrom after
      | (.error error, after) => (.error error, after) := by
  rw [runFrom_inStore, runFrom_inStore, Attempt.runFrom_forM_cons]
  rcases step.runFrom state.contents with ⟨outcome, after⟩
  cases outcome with
  | ok value =>
    change _ = (inStore (left.forM id)).runFrom (state.withContents after)
    rw [runFrom_inStore]
    rfl
  | error error => rfl

theorem runFrom_addTo_of_new (table : SharedTable σ) {users : UserTable} {name : Username}
    (hnew : ¬ users.contains name.text = true) (stored : String) (state : Salted σ) :
    (table.addTo users name stored).runFrom state =
      let wrote := (inStore ((table.writes (users.insert name.text stored)).forM id)).runFrom state
      (wrote.1.map fun _ => .named name stored, wrote.2) := by
  rw [addTo, if_neg hnew, Attempt.runFrom_bind]
  rcases Attempt.runFrom _ state with ⟨wrote, after⟩
  cases wrote <;> rfl

/-- Who is found is an entry of the table that was read. -/
theorem find_ok {table : SharedTable σ} {name : Username} {user : User} {state after : Salted σ}
    (h : (table.find name).runFrom state = (.ok (some user), after)) :
    ∃ users stored, table.readUsers.runFrom state = (.ok users, after) ∧
      users.get? name.text = some stored ∧ user = .named name stored := by
  rw [find] at h
  obtain ⟨users, read, hread, hfound⟩ := Attempt.runFrom_bind_eq_ok.1 h
  injection hfound with hfound hstate
  injection hfound with hfound
  obtain ⟨stored, hget, rfl⟩ := Option.map_eq_some_iff.1 hfound
  subst hstate
  exact ⟨users, stored, hread, hget, rfl⟩

/-- Who is added had no entry in the table that was read, and the table with one is written. -/
theorem create_added {table : SharedTable σ} {salts : Nat → Salt} {name : Username}
    {password : Password} {state after : Salted σ} {user : User}
    (h : (table.create salts name password).runFrom state = (.ok user, after)) :
    let stored := table.policy.protect (salts state.drawn) password
    user = .named name stored ∧ ∃ users read,
      table.readUsers.runFrom { state with drawn := state.drawn + 1 } = (.ok users, read) ∧
      ¬ users.contains name.text = true ∧
      (inStore ((table.writes (users.insert name.text stored)).forM id)).runFrom read =
        (.ok (), after) := by
  rw [create] at h
  obtain ⟨stored, drawn, hprotect, hadd⟩ := Attempt.runFrom_bind_eq_ok.1 h
  rw [Salted.protect, Attempt.runFrom_ofFunction] at hprotect
  cases hprotect
  rw [addUser] at hadd
  obtain ⟨users, read, hread, hadd⟩ := Attempt.runFrom_bind_eq_ok.1 hadd
  rw [addTo] at hadd
  split at hadd
  · cases hadd
  · next hnew =>
    obtain ⟨_, wrote, hwrite, hadd⟩ := Attempt.runFrom_bind_eq_ok.1 hadd
    cases hadd
    exact ⟨rfl, users, read, hread, hnew, hwrite⟩

section Asking

variable {table : SharedTable σ} {state : Salted σ}

/-- Where reading the table changes nothing, what is asked of it changes nothing. -/
theorem asks_leave {α : Type} (hleaves : (table.readUsers.runFrom state).2 = state)
    (f : UserTable → Attempt CredentialError (Salted σ) α)
    (hf : ∀ users, ((f users).runFrom state).2 = state) :
    ((table.readUsers >>= f).runFrom state).2 = state := by
  rw [Attempt.runFrom_bind]
  rcases hread : table.readUsers.runFrom state with ⟨outcome, after⟩
  rw [hread] at hleaves
  obtain rfl : after = state := hleaves
  cases outcome with
  | error error => rfl
  | ok users => exact hf users

theorem find_leaves (hleaves : (table.readUsers.runFrom state).2 = state) (name : Username) :
    ((table.find name).runFrom state).2 = state :=
  asks_leave hleaves _ fun _ => rfl

theorem isTaken_leaves (hleaves : (table.readUsers.runFrom state).2 = state) (name : Username) :
    ((table.isTaken name).runFrom state).2 = state :=
  asks_leave hleaves _ fun _ => rfl

theorem getById_leaves (hleaves : (table.readUsers.runFrom state).2 = state) (id : UserId) :
    ((table.getById id).runFrom state).2 = state := by
  rw [getById]
  cases Username.ofText? id.text with
  | none => rfl
  | some name => exact find_leaves hleaves name

theorem verify_leaves (hleaves : (table.readUsers.runFrom state).2 = state) (name : Username)
    (password : Password) : ((table.verify name password).runFrom state).2 = state := by
  have hfind := find_leaves hleaves name
  rw [verify, Attempt.runFrom_bind]
  rcases hrun : (table.find name).runFrom state with ⟨outcome, after⟩
  rw [hrun] at hfind
  obtain rfl : after = state := hfind
  cases outcome with
  | error error => rfl
  | ok found =>
    cases found with
    | none => rfl
    | some user =>
      dsimp only
      rw [PasswordPolicy.runFrom_answer]

end Asking

/-- The records are what is read, and none while nothing can be read. The steps that write a table
show only at the end. -/
structure Keeping (table : SharedTable σ) (Sound : σ → Prop) (records : σ → UserTable) : Prop where
  read {state : σ} : Sound state →
    table.read.runFrom state = (.ok (records state), state) ∨
      records state = .empty ∧ ∃ reason, table.read.runFrom state = (.error reason, state)
  installs {state : σ} (users : UserTable) : Sound state →
    Attempt.Installs Sound records users (table.writes users) state

/-- The table can always be read and written. -/
structure Dependable (table : SharedTable σ) (Sound : σ → Prop) (records : σ → UserTable) :
    Prop where
  read {state : σ} : Sound state → table.read.runFrom state = (.ok (records state), state)
  write {state : σ} (users : UserTable) : Sound state →
    ∃ after, ((table.writes users).forM id).runFrom state = (.ok (), after) ∧
      Sound after ∧ records after = users

section Keeping

variable {table : SharedTable σ} {Sound : σ → Prop} {records : σ → UserTable} {state : Salted σ}

theorem Keeping.readUsers (keeping : table.Keeping Sound records) (hsound : Sound state.contents) :
    table.readUsers.runFrom state = (.ok (records state.contents), state) ∨
      records state.contents = .empty ∧
        ∃ reason, table.readUsers.runFrom state = (.error (.unavailable reason), state) := by
  have hrun : table.readUsers.runFrom state =
      ((table.read.runFrom state.contents).1.mapError .unavailable,
        state.withContents (table.read.runFrom state.contents).2) := by
    rw [SharedTable.readUsers, Salted.onContents, Attempt.runFrom_onPart,
      Attempt.runFrom_mapError]
  rcases keeping.read hsound with hread | ⟨hempty, reason, hread⟩
  · rw [hrun, hread]
    exact .inl rfl
  · rw [hrun, hread]
    exact .inr ⟨hempty, reason, rfl⟩

theorem Keeping.readUsers_leaves (keeping : table.Keeping Sound records)
    (hsound : Sound state.contents) : (table.readUsers.runFrom state).2 = state := by
  rcases keeping.readUsers hsound with hread | ⟨-, reason, hread⟩ <;> rw [hread]

theorem Keeping.readUsers_of_some (keeping : table.Keeping Sound records)
    (hsound : Sound state.contents) {name stored : String}
    (hget : (records state.contents).get? name = some stored) :
    table.readUsers.runFrom state = (.ok (records state.contents), state) := by
  rcases keeping.readUsers hsound with hread | ⟨hempty, -⟩
  · exact hread
  · rw [hempty] at hget
    cases hget

theorem Keeping.find_of_some (keeping : table.Keeping Sound records)
    (hsound : Sound state.contents) {name : Username} {stored : String}
    (hget : (records state.contents).get? name.text = some stored) :
    (table.find name).runFrom state = (.ok (some (.named name stored)), state) := by
  rw [find, Attempt.runFrom_bind, keeping.readUsers_of_some hsound hget]
  dsimp only
  rw [hget]
  rfl

theorem Keeping.isTaken_of_some (keeping : table.Keeping Sound records)
    (hsound : Sound state.contents) {name : Username} {stored : String}
    (hget : (records state.contents).get? name.text = some stored) :
    (table.isTaken name).runFrom state = (.ok true, state) := by
  rw [isTaken, Attempt.runFrom_bind, keeping.readUsers_of_some hsound hget]
  dsimp only
  rw [UserTable.contains, hget]
  rfl

theorem Keeping.verify_of_some (keeping : table.Keeping Sound records)
    (hsound : Sound state.contents) {name : Username} {stored : String}
    (hget : (records state.contents).get? name.text = some stored) (password : Password) :
    (table.verify name password).runFrom state =
      (table.policy.answer stored password).runFrom state := by
  rw [verify, Attempt.runFrom_bind, keeping.find_of_some hsound hget]
  rfl

theorem Keeping.find_eq_some (keeping : table.Keeping Sound records)
    (hsound : Sound state.contents) {name : Username} {user : User} {after : Salted σ}
    (hfind : (table.find name).runFrom state = (.ok (some user), after)) :
    (records state.contents).get? name.text = some user.storedPassword := by
  rw [find, Attempt.runFrom_bind] at hfind
  rcases keeping.readUsers hsound with hread | ⟨-, reason, hread⟩
  · rw [hread] at hfind
    dsimp only at hfind
    cases hget : (records state.contents).get? name.text with
    | none =>
      rw [hget] at hfind
      cases hfind
    | some stored =>
      rw [hget] at hfind
      cases hfind
      rfl
  · rw [hread] at hfind
    cases hfind

end Keeping

end SharedTable

namespace MemoryCredentials

def table (policy : PasswordPolicy) : SharedTable UserTable where
  policy := policy
  read := get
  writes users := [set users]

theorem create_eq (policy : PasswordPolicy) (salts : Nat → Salt) (name : Username)
    (password : Password) :
    create policy salts name password = (table policy).create salts name password := by
  apply Attempt.ext
  intro state
  rw [runFrom_create, SharedTable.create, Attempt.runFrom_bind, Salted.protect,
    Attempt.runFrom_ofFunction]
  dsimp only
  rw [SharedTable.addUser, Attempt.runFrom_bind, SharedTable.readUsers]
  unfold SharedTable.addTo
  change _ = Attempt.runFrom (ite (state.contents.contains name.text = true) _ _) _
  split <;> rfl

theorem verify_eq (policy : PasswordPolicy) (name : Username) (password : Password) :
    verify policy name password = (table policy).verify name password := by
  apply Attempt.ext
  intro state
  rw [verify, SharedTable.verify, Attempt.runFrom_bind, Attempt.runFrom_get, Attempt.runFrom_bind]
  change _ = Attempt.runFrom (match Option.map (User.named name)
    (state.contents.get? name.text) with | some user => _ | none => _) _
  dsimp only
  cases state.contents.get? name.text <;> rfl

theorem store_eq (policy : PasswordPolicy) (salts : Nat → Salt) :
    store policy salts = (table policy).store salts := by
  have hcreate : create policy salts = (table policy).create salts :=
    funext fun name => funext fun password => create_eq policy salts name password
  have hverify : verify policy = (table policy).verify :=
    funext fun name => funext fun password => verify_eq policy name password
  rw [store, SharedTable.store, hcreate, hverify]
  rfl

theorem keeping (policy : PasswordPolicy) : (table policy).Keeping (fun _ => True) id where
  read _ := .inl rfl
  installs users _ := by
    apply Attempt.Installs.last
    · intro error after hrun
      cases hrun
    · intro after hrun
      cases hrun
      exact ⟨trivial, rfl⟩

theorem dependable (policy : PasswordPolicy) : (table policy).Dependable (fun _ => True) id where
  read _ := rfl
  write users _ := ⟨users, rfl, trivial, rfl⟩

end MemoryCredentials

namespace FileCredentials

variable {δ : Type}

def table (config : FileCredentials) (disk : Disk δ) : SharedTable δ where
  policy := config.policy
  read := do
    let users ← (JsonFile.read disk config.path UserTable.ofJson?).mapError FileError.message
    pure (users.getD .empty)
  writes users :=
    (JsonFile.writeSteps disk config.path (JsonFile.content users.toJson)).map
      (Attempt.mapError fun _ => (FileError.io config.path).message)

theorem readUsers_eq (config : FileCredentials) (disk : Disk δ) :
    config.readUsers disk = (config.table disk).readUsers := by
  rw [readUsers, SharedTable.readUsers]
  apply congrArg Salted.onContents
  apply Attempt.ext
  intro state
  simp only [table, Attempt.runFrom_mapError, Attempt.runFrom_bind]
  rcases (JsonFile.read disk config.path UserTable.ofJson?).runFrom state with ⟨outcome, after⟩
  cases outcome <;> rfl

theorem writeUsers_eq (config : FileCredentials) (disk : Disk δ) (users : UserTable) :
    config.writeUsers disk users =
      SharedTable.inStore (((config.table disk).writes users).forM id) := by
  rw [writeUsers, SharedTable.inStore, table, Attempt.forM_mapError, JsonFile.write]
  apply congrArg Salted.onContents
  apply Attempt.ext
  intro state
  simp only [Attempt.runFrom_mapError]
  rcases Attempt.runFrom _ state with ⟨outcome, after⟩
  cases outcome <;> rfl

theorem store_eq (config : FileCredentials) (disk : Disk δ) (salts : Nat → Salt) :
    config.store disk salts = (config.table disk).store salts := by
  have hfind : config.find disk = (config.table disk).find := by
    funext name
    rw [find, readUsers_eq, SharedTable.find]
  have hget : config.getById disk = (config.table disk).getById := by
    funext id
    rw [getById, hfind]
    rfl
  have htaken : config.isTaken disk = (config.table disk).isTaken := by
    funext name
    rw [isTaken, readUsers_eq, SharedTable.isTaken]
  have hcreate : config.create disk salts = (config.table disk).create salts := by
    funext name password
    simp only [create, addUser, readUsers_eq, writeUsers_eq, SharedTable.create,
      SharedTable.addUser, SharedTable.addTo]
    rfl
  have hverify : config.verify disk = (config.table disk).verify := by
    funext name password
    rw [verify, hfind, SharedTable.verify]
    rfl
  rw [store, SharedTable.store, hfind, hget, htaken, hcreate, hverify]

def recordsAt (disk : Disk δ) (path : FilePath) (state : δ) : UserTable :=
  ((disk.contentAt? path state).bind UserTable.ofBytes?).getD .empty

variable {config : FileCredentials} {disk : Disk δ} {Sound : δ → Prop}

/-- The users that have been read. -/
def usersOf (found : Except FileError (Option UserTable)) : Except CredentialError UserTable :=
  (found.mapError ofFileError).map (·.getD .empty)

theorem runFrom_readUsers {start : Salted δ}
    (hleaves : ((disk.read config.path).runFrom start.contents).2 = start.contents) :
    (config.readUsers disk).runFrom start =
      (usersOf (JsonFile.valueOf config.path UserTable.ofJson?
        ((disk.read config.path).runFrom start.contents).1), start) := by
  rw [readUsers, Salted.onContents, Attempt.runFrom_onPart, Attempt.runFrom_bind,
    Attempt.runFrom_mapError, JsonFile.runFrom_read_of_leaves hleaves]
  dsimp only
  rcases JsonFile.valueOf config.path UserTable.ofJson? _ with error | value <;> rfl

theorem table_writes (config : FileCredentials) (disk : Disk δ) (users : UserTable) :
    (config.table disk).writes users =
      (JsonFile.writeSteps disk config.path (JsonFile.content users.toJson)).map
        (Attempt.mapError fun _ => (FileError.io config.path).message) := by
  rw [table]

theorem runFrom_table_read {state after : δ} {outcome : Except FileError (Option UserTable)}
    (h : (JsonFile.read disk config.path UserTable.ofJson?).runFrom state = (outcome, after)) :
    (config.table disk).read.runFrom state =
      ((outcome.mapError FileError.message).map (·.getD .empty), after) := by
  simp only [table, Attempt.runFrom_bind, Attempt.runFrom_mapError, h]
  cases outcome <;> rfl

theorem runFrom_table_read_some (faithful : disk.Faithful config.path Sound) {state : δ}
    (hsound : Sound state) {bytes : List UInt8} {users : UserTable}
    (hcontent : disk.contentAt? config.path state = some bytes)
    (husers : UserTable.ofBytes? bytes = some users) :
    (config.table disk).read.runFrom state = (.ok users, state) :=
  runFrom_table_read (JsonFile.runFrom_read_of_some faithful hsound hcontent husers)

theorem recordsAt_of_none {path : FilePath} {state : δ}
    (hcontent : disk.contentAt? path state = none) : recordsAt disk path state = .empty := by
  rw [recordsAt, hcontent]
  rfl

theorem recordsAt_of_some {state : δ} {bytes : List UInt8} {users : UserTable}
    (hcontent : disk.contentAt? config.path state = some bytes)
    (husers : UserTable.ofBytes? bytes = some users) :
    recordsAt disk config.path state = users := by
  rw [recordsAt, hcontent, Option.bind_some, husers, Option.getD_some]

theorem keeping (steady : disk.Steady config.path Sound) :
    (config.table disk).Keeping Sound (recordsAt disk config.path) where
  read {state} hsound := by
    have faithful := steady.toFaithful
    cases hcontent : disk.contentAt? config.path state with
    | none =>
      have hrecords := recordsAt_of_none hcontent
      rcases JsonFile.runFrom_read_of_none faithful hsound hcontent with hread | hread
      · rw [hrecords, runFrom_table_read hread]
        exact .inl rfl
      · exact .inr ⟨hrecords, _, runFrom_table_read hread⟩
    | some bytes =>
      cases husers : UserTable.ofBytes? bytes with
      | some users =>
        rw [recordsAt_of_some hcontent husers]
        exact .inl (runFrom_table_read_some faithful hsound hcontent husers)
      | none =>
        have hread : (JsonFile.read disk config.path UserTable.ofJson?).runFrom state =
            (.error (.malformed config.path), state) := by
          rw [JsonFile.runFrom_read faithful hsound, Disk.contentAt?_eq_some.1 hcontent]
          dsimp only
          rw [UserTable.ofBytes?] at husers
          rw [husers]
        refine .inr ⟨?_, _, runFrom_table_read hread⟩
        rw [recordsAt, hcontent, Option.bind_some, husers]
        rfl
  installs {state} users hsound := by
    have hinstalls := JsonFile.installs_writeSteps steady (JsonFile.content users.toJson) hsound
    have hrecords : Attempt.Installs Sound (recordsAt disk config.path)
        (((some (JsonFile.content users.toJson)).bind UserTable.ofBytes?).getD .empty) _ state :=
      hinstalls.map fun content? => (content?.bind UserTable.ofBytes?).getD .empty
    rw [Option.bind_some, UserTable.ofBytes?_content, Option.getD_some] at hrecords
    rw [table_writes]
    exact hrecords.mapError _

/-- The file is missing or holds a user table. -/
def HoldsTable (disk : Disk δ) (path : FilePath) (state : δ) : Prop :=
  ∀ bytes, disk.contentAt? path state = some bytes → (UserTable.ofBytes? bytes).isSome

theorem holdsTable_of_none {path : FilePath} {state : δ}
    (hcontent : disk.contentAt? path state = none) : HoldsTable disk path state := by
  intro bytes hbytes
  rw [hcontent] at hbytes
  cases hbytes

theorem dependable (reliable : disk.Reliable config.path Sound) :
    (config.table disk).Dependable
      (fun state => Sound state ∧ HoldsTable disk config.path state)
      (recordsAt disk config.path) where
  read {state} := by
    rintro ⟨hsound, hholds⟩
    cases hcontent : disk.contentAt? config.path state with
    | none =>
      rw [recordsAt_of_none hcontent,
        runFrom_table_read (JsonFile.runFrom_read_missing reliable hsound hcontent)]
      rfl
    | some bytes =>
      obtain ⟨users, husers⟩ := Option.isSome_iff_exists.1 (hholds bytes hcontent)
      rw [recordsAt_of_some hcontent husers]
      exact runFrom_table_read_some reliable.toFaithful hsound hcontent husers
  write {state} users := by
    rintro ⟨hsound, -⟩
    obtain ⟨after, hrun, hafter, hcontent⟩ :=
      JsonFile.write_of_reliable reliable hsound users.toJson
    have hbytes := UserTable.ofBytes?_content users
    refine ⟨after, ?_, ⟨hafter, fun bytes h => ?_⟩, recordsAt_of_some hcontent hbytes⟩
    · rw [JsonFile.write, Attempt.runFrom_mapError_eq_ok] at hrun
      rw [table, Attempt.forM_mapError, Attempt.runFrom_mapError_eq_ok]
      exact hrun
    · rw [hcontent] at h
      cases h
      rw [hbytes]
      rfl

end FileCredentials

end Gatehouse
