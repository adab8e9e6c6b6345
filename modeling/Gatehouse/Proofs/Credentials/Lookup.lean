import Gatehouse.Proofs.Credentials.Damage
import Gatehouse.Proofs.Credentials.Registrations
import Gatehouse.Proofs.Disk.FileTree
import Gatehouse.Proofs.Username

set_option autoImplicit false

/-!
# Users by their ids

Whoever a store has found or added is loaded by the id it was given, from then on and as it was then.
In memory and in a file no other id loads anybody. In a database every spelling of the number of a row
loads its user: with zeros in front of it, or a plus sign, it is another id of the same account.
-/

namespace Gatehouse

namespace CredentialStore

variable {σ : Type}

def Recalls (store : CredentialStore σ) (state : σ) (user : User) : Prop :=
  (store.get user.id).runFrom state = (.ok (some user), state)

/-- Whoever has been found or added is loaded by its id, whatever calls come in between. The states
`Fine n` are those in which so many users can still be added. -/
structure KeepsIds (store : CredentialStore σ) (Fine : Nat → σ → Prop) : Prop where
  found {name : Username} {user : User} {state after : σ} (calls : List (CredentialCall UserId)) :
    Fine (CredentialCall.creations calls) state →
    (store.find name).runFrom state = (.ok (some user), after) →
    store.Recalls (store.after calls after) user
  created {name : Username} {password : Password} {user : User} {state after : σ}
    (calls : List (CredentialCall UserId)) :
    Fine (CredentialCall.creations calls + 1) state →
    (store.create name password).runFrom state = (.ok user, after) →
    store.Recalls (store.after calls after) user

/-- Nobody is loaded by an id but its own. -/
def LoadsOwnIds (store : CredentialStore σ) : Prop :=
  ∀ ⦃id : UserId⦄ ⦃user : User⦄ ⦃state after : σ⦄,
    (store.get id).runFrom state = (.ok (some user), after) → user.id = id

theorem state_serve (store : CredentialStore σ) (call : CredentialCall UserId) (state : σ) :
    ((store.serve call).runFrom state).2 =
      match call with
      | .find name => ((store.find name).runFrom state).2
      | .get id => ((store.get id).runFrom state).2
      | .isTaken name => ((store.isTaken name).runFrom state).2
      | .create name password => ((store.create name password).runFrom state).2
      | .verify name password => ((store.verify name password).runFrom state).2 := by
  cases call <;> exact congrArg Prod.snd (Attempt.runFrom_map _ rfl)

theorem after_keeps {store : CredentialStore σ} {p : Nat → σ → Prop}
    (step : ∀ (call : CredentialCall UserId) (calls : List (CredentialCall UserId)) (state : σ),
      p (CredentialCall.creations (call :: calls)) state →
      p (CredentialCall.creations calls) ((store.serve call).runFrom state).2)
    (calls : List (CredentialCall UserId)) {state : σ}
    (h : p (CredentialCall.creations calls) state) : p 0 (store.after calls state) := by
  induction calls generalizing state with
  | nil => exact h
  | cons call calls ih => exact ih (step call calls state h)

end CredentialStore

namespace SharedTable

variable {σ : Type} {table : SharedTable σ} {Whole Sound : σ → Prop} {records : σ → UserTable}
  {state after : Salted σ} {name : Username} {stored : String}

theorem loadsOwnIds (table : SharedTable σ) (salts : Nat → Salt) :
    (table.store salts).LoadsOwnIds := by
  intro id user state after h
  change (table.getById id).runFrom state = _ at h
  rw [getById] at h
  cases hname : Username.ofText? id.text with
  | none =>
    rw [hname] at h
    cases h
  | some name =>
    rw [hname] at h
    obtain ⟨users, stored, -, -, rfl⟩ := find_ok h
    exact congrArg UserId.mk (Username.text_of_ofText (Username.ofText?_eq_some_iff.1 hname))

/-- A record is in the table, and the table is one that is kept. -/
def HasRecord (Sound : σ → Prop) (records : σ → UserTable) (name : Username) (stored : String)
    (state : Salted σ) : Prop :=
  Sound state.contents ∧ (records state.contents).get? name.text = some stored

theorem Keeping.create_keeps (keeping : table.Keeping Sound records) (salts : Nat → Salt)
    (other : Username) (password : Password) (h : HasRecord Sound records name stored state) :
    HasRecord Sound records name stored ((table.create salts other password).runFrom state).2 := by
  let drawn : Salted σ := { state with drawn := state.drawn + 1 }
  have hread : table.readUsers.runFrom drawn = (.ok (records state.contents), drawn) :=
    keeping.readUsers_of_some h.1 h.2
  rw [create, Attempt.runFrom_bind, Salted.protect, Attempt.runFrom_ofFunction]
  dsimp only
  rw [addUser, Attempt.runFrom_bind, hread]
  dsimp only
  by_cases htaken : (records state.contents).contains other.text = true
  · rw [addTo, if_pos htaken]
    exact h
  · rw [runFrom_addTo_of_new table htaken, runFrom_inStore]
    rcases hrun : ((table.writes _).forM id).runFrom drawn.contents with ⟨outcome, contents⟩
    obtain ⟨hsound, hrecords⟩ := (keeping.installs _ h.1).forM hrun
    refine ⟨hsound, ?_⟩
    change (records contents).get? name.text = some stored
    rw [hrecords]
    split
    · exact UserTable.extends_insert _ (Bool.eq_false_iff.2 htaken) _ _ h.2
    · exact h.2

theorem Keeping.serve_keeps (keeping : table.Keeping Sound records) (salts : Nat → Salt)
    (call : CredentialCall UserId) (h : HasRecord Sound records name stored state) :
    HasRecord Sound records name stored (((table.store salts).serve call).runFrom state).2 := by
  have hleaves := keeping.readUsers_leaves h.1
  rw [CredentialStore.state_serve]
  cases call with
  | find other =>
    change HasRecord Sound records name stored ((table.find other).runFrom state).2
    rwa [find_leaves hleaves]
  | get id =>
    change HasRecord Sound records name stored ((table.getById id).runFrom state).2
    rwa [getById_leaves hleaves]
  | isTaken other =>
    change HasRecord Sound records name stored ((table.isTaken other).runFrom state).2
    rwa [isTaken_leaves hleaves]
  | create other password => exact keeping.create_keeps salts other password h
  | verify other password =>
    change HasRecord Sound records name stored ((table.verify other password).runFrom state).2
    rwa [verify_leaves hleaves]

theorem Keeping.after_keeps (keeping : table.Keeping Sound records) (salts : Nat → Salt)
    (calls : List (CredentialCall UserId)) (h : HasRecord Sound records name stored state) :
    HasRecord Sound records name stored ((table.store salts).after calls state) :=
  CredentialStore.after_keeps (p := fun _ => HasRecord Sound records name stored)
    (fun call _ _ => keeping.serve_keeps salts call) calls h

theorem Keeping.recalls (keeping : table.Keeping Sound records) (salts : Nat → Salt)
    (calls : List (CredentialCall UserId)) (h : HasRecord Sound records name stored state) :
    (table.store salts).Recalls ((table.store salts).after calls state) (.named name stored) := by
  have hlast := keeping.after_keeps salts calls h
  change (table.getById (.ofUsername name)).runFrom _ = _
  rw [getById, UserId.ofUsername, Username.ofText?_eq_some_iff.2 (Username.ofText_text name)]
  exact keeping.find_of_some hlast.1 hlast.2

/-- A table that is kept once there is a record in it, or once it has been written. -/
structure Settling (table : SharedTable σ) (Whole Sound : σ → Prop) (records : σ → UserTable) :
    Prop where
  keeping : table.Keeping Sound records
  read_leaves {state : σ} : Whole state → (table.read.runFrom state).2 = state
  read_some {state : σ} {users : UserTable} {name stored : String} : Whole state →
    table.read.runFrom state = (.ok users, state) → users.get? name = some stored →
    Sound state ∧ records state = users
  write_ok {state after : σ} {users : UserTable} : Whole state →
    ((table.writes users).forM id).runFrom state = (.ok (), after) →
    Sound after ∧ records after = users

theorem Settling.read_of_readUsers (settling : table.Settling Whole Sound records)
    (hwhole : Whole state.contents) {users : UserTable}
    (h : table.readUsers.runFrom state = (.ok users, after)) :
    after = state ∧ table.read.runFrom state.contents = (.ok users, state.contents) := by
  have hleaves := settling.read_leaves hwhole
  rw [readUsers, Salted.onContents, Attempt.runFrom_onPart, Attempt.runFrom_mapError] at h
  rcases hread : table.read.runFrom state.contents with ⟨reason | found, contents⟩
  · rw [hread] at h
    cases h
  · rw [hread] at h hleaves
    obtain rfl : contents = state.contents := hleaves
    cases h
    exact ⟨rfl, rfl⟩

theorem Settling.hasRecord_of_created (settling : table.Settling Whole Sound records)
    {salts : Nat → Salt} {password : Password} {user : User} (hwhole : Whole state.contents)
    (h : (table.create salts name password).runFrom state = (.ok user, after)) :
    let stored := table.policy.protect (salts state.drawn) password
    user = .named name stored ∧ HasRecord Sound records name stored after := by
  obtain ⟨rfl, users, read, hread, -, hwrite⟩ := create_added h
  have hdrawn : Whole ({ state with drawn := state.drawn + 1 } : Salted σ).contents := hwhole
  obtain ⟨rfl, -⟩ := settling.read_of_readUsers hdrawn hread
  rw [runFrom_inStore] at hwrite
  rcases hrun : ((table.writes _).forM id).runFrom _ with ⟨reason | _, contents⟩
  · rw [hrun] at hwrite
    cases hwrite
  · rw [hrun] at hwrite
    cases hwrite
    obtain ⟨hsound, hrecords⟩ := settling.write_ok hwhole hrun
    refine ⟨rfl, hsound, ?_⟩
    change (records contents).get? _ = _
    rw [hrecords, UserTable.get?_insert, if_pos rfl]

theorem Settling.keepsIds (settling : table.Settling Whole Sound records) (salts : Nat → Salt) :
    (table.store salts).KeepsIds fun _ state => Whole state.contents where
  found calls hwhole hfind := by
    obtain ⟨users, stored, hread, hget, rfl⟩ := find_ok hfind
    obtain ⟨rfl, hread⟩ := settling.read_of_readUsers hwhole hread
    obtain ⟨hsound, hrecords⟩ := settling.read_some hwhole hread hget
    exact settling.keeping.recalls salts calls ⟨hsound, hrecords ▸ hget⟩
  created calls hwhole hcreate := by
    obtain ⟨rfl, hrecord⟩ := settling.hasRecord_of_created hwhole hcreate
    exact settling.keeping.recalls salts calls hrecord

end SharedTable

theorem MemoryCredentials.settling (policy : PasswordPolicy) :
    (table policy).Settling (fun _ => True) (fun _ => True) id where
  keeping := keeping policy
  read_leaves _ := rfl
  read_some _ hread _ := by
    cases hread
    exact ⟨trivial, rfl⟩
  write_ok _ hwrite := by
    cases hwrite
    exact ⟨trivial, rfl⟩

namespace FileCredentials

variable {δ : Type} {config : FileCredentials} {disk : Disk δ} {Whole Sound : δ → Prop}

theorem settling (settles : disk.Settles config.path Whole Sound) :
    (config.table disk).Settling Whole Sound (recordsAt disk config.path) where
  keeping := keeping settles.steady
  read_leaves {state} hwhole := by
    rw [runFrom_table_read (JsonFile.runFrom_read settles.faithful hwhole)]
  read_some {state users name stored} hwhole hread hget := by
    cases hcontent : disk.contentAt? config.path state with
    | none =>
      rcases JsonFile.runFrom_read_of_none settles.faithful hwhole hcontent with hnone | hfailed
      · rw [runFrom_table_read hnone] at hread
        cases hread
        cases hget
      · rw [runFrom_table_read hfailed] at hread
        cases hread
    | some bytes =>
      have hsound := settles.sound_of_read hwhole hcontent
      refine ⟨hsound, ?_⟩
      rcases (keeping settles.steady).read hsound with hrecords | ⟨-, reason, hfailed⟩
      · rw [hrecords] at hread
        cases hread
        rfl
      · rw [hfailed] at hread
        cases hread
  write_ok {state after users} hwhole hwrite := by
    rw [table_writes, Attempt.forM_mapError, Attempt.runFrom_mapError_eq_ok] at hwrite
    obtain ⟨hafter, hcontent⟩ := JsonFile.writeSteps_ok settles.faithful hwhole hwrite
    exact ⟨settles.sound_of_read hafter hcontent,
      recordsAt_of_some hcontent (UserTable.ofBytes?_content users)⟩

end FileCredentials

namespace DatabaseCredentials

variable {β : Type} {database : UserDatabase β} {Holds : β → UserRow → Prop}
  {Room : Nat → β → Prop} {room : Nat} {state after : Salted β} {name : Username} {row : UserRow}

theorem rowId?_eq_some_iff {text : String} {number : Int64} :
    rowId? text = some number ↔ Text.Spells text.toList number.toInt := by
  rw [← Text.signed?_eq_some_iff, rowId?]
  constructor
  · intro h
    obtain ⟨value, hvalue, rfl⟩ := Option.map_eq_some_iff.1 h
    obtain ⟨hsigned, hfits⟩ := Option.filter_eq_some_iff.1 hvalue
    rw [Text.fitsInt64, Bool.and_eq_true, decide_eq_true_eq, decide_eq_true_eq] at hfits
    rw [hsigned, Int64.toInt_ofInt_of_le (by omega) (by omega)]
  · intro h
    rw [h, Option.filter_some, if_pos (Text.fitsInt64_toInt number), Option.map_some,
      Int64.ofInt_toInt]

theorem find_leaves (keeps : database.Keeps Holds Room) (hroom : Room room state.contents)
    (name : Username) : ((find database name).runFrom state).2 = state := by
  obtain ⟨found, hselect, -⟩ := keeps.selectByName name.text hroom
  rw [find, Attempt.runFrom_bind, runFrom_ask_of_ok hselect]
  exact ofRow?_leaves found state

theorem find_ok (keeps : database.Keeps Holds Room) (hroom : Room room state.contents)
    {user : User} (h : (find database name).runFrom state = (.ok (some user), after)) :
    after = state ∧ ∃ row, Holds state.contents row ∧ row.username = name.text ∧
      user = userOf name row := by
  by_cases hrow : ∃ row, Holds state.contents row ∧ row.username = name.text
  · obtain ⟨row, hrow, hname⟩ := hrow
    rw [runFrom_find_of_row keeps hroom hrow hname] at h
    cases h
    exact ⟨rfl, row, hrow, hname, rfl⟩
  · have hnone : ∀ row, Holds state.contents row → row.username ≠ name.text :=
      fun row hheld hname => hrow ⟨row, hheld, hname⟩
    rw [runFrom_find_of_none keeps hroom hnone] at h
    cases h

theorem ofRow_ok {user : User} (h : ofRow row = .ok user) :
    ∃ name : Username, row.username = name.text ∧ user = userOf name row := by
  rw [ofRow] at h
  split at h
  · next name hname =>
    cases h
    exact ⟨name, (Username.text_of_ofText hname).symm, rfl⟩
  · cases h

theorem ofRow?_ok {found : Option UserRow} {user : User}
    (h : (ofRow? found).runFrom state = (.ok (some user), after)) :
    ∃ row, found = some row ∧ ofRow row = .ok user := by
  cases found with
  | none => cases h
  | some row =>
    rw [ofRow?] at h
    cases hrow : ofRow row with
    | error error =>
      rw [hrow] at h
      cases h
    | ok other =>
      rw [hrow] at h
      cases h
      exact ⟨row, rfl, hrow⟩

theorem getById_eq_ok_iff (keeps : database.Keeps Holds Room) (hroom : Room room state.contents)
    {id : UserId} {user : User} :
    (getById database id).runFrom state = (.ok (some user), state) ↔
      ∃ row name, Holds state.contents row ∧ row.username = Username.text name ∧
        Text.Spells id.text.toList row.id.toInt ∧ user = userOf name row := by
  constructor
  · intro h
    rw [getById] at h
    cases hnumber : rowId? id.text with
    | none =>
      rw [hnumber] at h
      cases h
    | some number =>
      obtain ⟨found, hselect, hfound⟩ := keeps.selectById number hroom
      rw [hnumber] at h
      dsimp only at h
      rw [Attempt.runFrom_bind, runFrom_ask_of_ok hselect] at h
      obtain ⟨row, rfl, huser⟩ := ofRow?_ok h
      obtain ⟨hrow, rfl⟩ := (hfound row).1 rfl
      obtain ⟨name, hname, rfl⟩ := ofRow_ok huser
      exact ⟨row, name, hrow, hname, rowId?_eq_some_iff.1 hnumber, rfl⟩
  · rintro ⟨row, name, hrow, hname, hspells, rfl⟩
    have hsame : getById database id = getById database (UserId.ofRow row.id) := by
      rw [getById, getById, rowId?_eq_some_iff.2 hspells, rowId?_ofRow]
    rw [hsame]
    exact runFrom_getById_of_row keeps hroom hrow hname

theorem getById_own_iff (keeps : database.Keeps Holds Room) (hroom : Room room state.contents)
    {id : UserId} :
    (∀ user : User, (getById database id).runFrom state = (.ok (some user), state) →
        user.id = id) ↔
      ∀ (row : UserRow) (name : Username), Holds state.contents row → row.username = name.text →
        Text.Spells id.text.toList row.id.toInt → UserId.ofRow row.id = id := by
  constructor
  · intro h row name hrow hname hspells
    exact h _ ((getById_eq_ok_iff keeps hroom).2 ⟨row, name, hrow, hname, hspells, rfl⟩)
  · intro h user hget
    obtain ⟨row, name, hrow, hname, hspells, rfl⟩ := (getById_eq_ok_iff keeps hroom).1 hget
    exact h row name hrow hname hspells

theorem recalls_of_row (keeps : database.Keeps Holds Room) (salts : Nat → Salt)
    (hroom : Room room state.contents) (hrow : Holds state.contents row)
    (hname : row.username = name.text) : (store database salts).Recalls state (userOf name row) :=
  runFrom_getById_of_row keeps hroom hrow hname

theorem verify_leaves (keeps : database.Keeps Holds Room) (hroom : Room room state.contents)
    (name : Username) (password : Password) :
    ((verify database name password).runFrom state).2 = state := by
  have hleaves := find_leaves keeps hroom name
  rw [verify, Attempt.runFrom_bind]
  rcases hfind : (find database name).runFrom state with ⟨error | _ | user, after⟩
  · rw [hfind] at hleaves
    exact hleaves
  · rw [hfind] at hleaves
    exact hleaves
  · rw [hfind] at hleaves
    obtain rfl : after = state := hleaves
    exact congrArg Prod.snd (PasswordPolicy.runFrom_answer _ _ _ _)

theorem create_keeps (keeps : database.Keeps Holds Room) (salts : Nat → Salt) (name : Username)
    (password : Password) (hroom : Room (room + 1) state.contents)
    (hrow : Holds state.contents row) :
    let later := ((create database salts name password).runFrom state).2
    Room room later.contents ∧ Holds later.contents row := by
  by_cases htaken : ∃ other, Holds state.contents other ∧ other.username = name.text
  · obtain ⟨other, hother, hname⟩ := htaken
    obtain ⟨contents, hcreate, hleft, hholds⟩ :=
      runFrom_create_of_taken keeps salts hroom hother hname password
    rw [hcreate]
    exact ⟨hleft, (hholds row).2 hrow⟩
  · have hnew : ∀ other, Holds state.contents other → other.username ≠ name.text :=
      fun other hother hname => htaken ⟨other, hother, hname⟩
    obtain ⟨number, contents, hcreate, hleft, -, hholds⟩ :=
      runFrom_create_of_new keeps salts hroom hnew password
    rw [hcreate]
    exact ⟨hleft, (hholds row).2 (.inl hrow)⟩

theorem serve_keeps (keeps : database.Keeps Holds Room) (salts : Nat → Salt)
    (call : CredentialCall UserId) (calls : List (CredentialCall UserId))
    (h : Room (CredentialCall.creations (call :: calls)) state.contents ∧
      Holds state.contents row) :
    let later := (((store database salts).serve call).runFrom state).2
    Room (CredentialCall.creations calls) later.contents ∧ Holds later.contents row := by
  dsimp only
  rw [CredentialStore.state_serve]
  cases call with
  | find name =>
    dsimp only [store]
    rwa [find_leaves keeps h.1]
  | get id =>
    dsimp only [store]
    rwa [getById_leaves keeps h.1]
  | isTaken name =>
    obtain ⟨found, hexists, -⟩ := keeps.nameExists name.text h.1
    dsimp only [store]
    rwa [runFrom_ask_of_ok hexists]
  | create name password => exact create_keeps keeps salts name password h.1 h.2
  | verify name password =>
    dsimp only [store]
    rwa [verify_leaves keeps h.1]

theorem recalls_after (keeps : database.Keeps Holds Room) (salts : Nat → Salt)
    (calls : List (CredentialCall UserId))
    (hroom : Room (CredentialCall.creations calls) state.contents)
    (hrow : Holds state.contents row) (hname : row.username = name.text) :
    (store database salts).Recalls ((store database salts).after calls state)
      (userOf name row) := by
  obtain ⟨hlast, hheld⟩ := CredentialStore.after_keeps
    (p := fun (room : Nat) (later : Salted β) => Room room later.contents ∧ Holds later.contents row)
    (fun call calls _ => serve_keeps keeps salts call calls) calls ⟨hroom, hrow⟩
  exact recalls_of_row keeps salts hlast hheld hname

theorem keepsIds (keeps : database.Keeps Holds Room) (salts : Nat → Salt) :
    (store database salts).KeepsIds fun room state => Room room state.contents where
  found calls hroom hfind := by
    obtain ⟨rfl, row, hrow, hname, rfl⟩ := find_ok keeps hroom hfind
    exact recalls_after keeps salts calls hroom hrow hname
  created {name password user state after} calls hroom hcreate := by
    change (create database salts name password).runFrom state = _ at hcreate
    by_cases htaken : ∃ row, Holds state.contents row ∧ row.username = name.text
    · obtain ⟨row, hrow, hname⟩ := htaken
      obtain ⟨contents, htaken, -⟩ :=
        runFrom_create_of_taken keeps salts hroom hrow hname password
      rw [htaken] at hcreate
      cases hcreate
    · have hnew : ∀ row, Holds state.contents row → row.username ≠ name.text :=
        fun row hrow hname => htaken ⟨row, hrow, hname⟩
      obtain ⟨number, contents, hnew, hleft, -, hholds⟩ :=
        runFrom_create_of_new keeps salts hroom hnew password
      rw [hnew] at hcreate
      cases hcreate
      exact recalls_after keeps salts calls hleft ((hholds _).2 (.inr rfl)) rfl

end DatabaseCredentials

/-- Whoever has been found or added is loaded by its id ever after. In memory and in a file nobody is
loaded by another id. In a database the user of a row is loaded by the spellings of its number, so an
id that spells the number of a row loads its own user only where it is the one that is written. -/
theorem users_known_by_ids {δ β : Type} (policy : PasswordPolicy) (config : FileCredentials)
    (disk : Disk δ) {database : UserDatabase β} {Holds : β → UserRow → Prop}
    {Room : Nat → β → Prop} (keeps : database.Keeps Holds Room) (salts : Nat → Salt) :
    ((MemoryCredentials.store policy salts).LoadsOwnIds ∧
      (MemoryCredentials.store policy salts).KeepsIds fun _ _ => True) ∧
    ((config.store disk salts).LoadsOwnIds ∧
      ∀ Whole Sound : δ → Prop, disk.Settles config.path Whole Sound →
        (config.store disk salts).KeepsIds fun _ state => Whole state.contents) ∧
    ((DatabaseCredentials.store database salts).KeepsIds
        fun room state => Room room state.contents) ∧
    ∀ (id : UserId) (room : Nat) (state : Salted β), Room room state.contents →
      let get := (DatabaseCredentials.store database salts).get id
      (∀ user : User, get.runFrom state = (.ok (some user), state) ↔
        ∃ row name, Holds state.contents row ∧ row.username = Username.text name ∧
          Text.Spells id.text.toList row.id.toInt ∧
          user = ⟨.ofRow row.id, name, row.password, some row.score⟩) ∧
      ((∀ user : User, get.runFrom state = (.ok (some user), state) → user.id = id) ↔
        ∀ (row : UserRow) (name : Username), Holds state.contents row → row.username = name.text →
          Text.Spells id.text.toList row.id.toInt → UserId.ofRow row.id = id) := by
  refine ⟨?_, ?_, DatabaseCredentials.keepsIds keeps salts, ?_⟩
  · rw [MemoryCredentials.store_eq]
    exact ⟨SharedTable.loadsOwnIds _ salts,
      (MemoryCredentials.settling policy).keepsIds salts⟩
  · rw [FileCredentials.store_eq]
    exact ⟨SharedTable.loadsOwnIds _ salts,
      fun Whole Sound settles => (FileCredentials.settling settles).keepsIds salts⟩
  · intro id room state hroom
    exact ⟨fun user => DatabaseCredentials.getById_eq_ok_iff keeps hroom,
      DatabaseCredentials.getById_own_iff keeps hroom⟩

def sampleSalts : Nat → Salt := fun _ => FileCredentials.zeroSalt

def FileCredentials.sampleStore (policy : PasswordPolicy) : CredentialStore (Salted FileTree) :=
  FileCredentials.store ⟨⟨"users.json"⟩, policy⟩ FileTree.disk sampleSalts

def FileCredentials.sampleTree : FileTree :=
  FileTree.empty.put ["users.json"]
    (.file (JsonFile.content (UserTable.empty.insert "al" "pw").toJson))

namespace DatabaseCredentials

def sampleRows : UserRows := (UserRows.insert {} "al" "pw").2

def sampleStore : CredentialStore (Salted UserRows) :=
  store UserRows.database sampleSalts

/-- The user of the first row, by its name. -/
def firstUser (name : Username) : User := ⟨⟨"1"⟩, name, "pw", some 0⟩

end DatabaseCredentials

theorem users_known_by_ids_samples :
    FileTree.disk.Settles ⟨"users.json"⟩ FileTree.Closed
        (fun tree => tree.Closed ∧ FileTree.IsPlain ⟨"users.json"⟩ tree) ∧
      FileCredentials.sampleTree.Closed ∧
      (FileCredentials.sampleStore .plaintext).Recalls
        ((FileCredentials.sampleStore .plaintext).after
          [.create ⟨"bob", by decide⟩ ⟨"pw", by decide⟩] ⟨FileCredentials.sampleTree, 0⟩)
        (.named ⟨"al", by decide⟩ "pw") ∧
      UserRows.database.Keeps (fun table row => row ∈ table.rows) UserRows.HasRoom ∧
      UserRows.HasRoom 1 DatabaseCredentials.sampleRows ∧
      DatabaseCredentials.sampleStore.Recalls
        (DatabaseCredentials.sampleStore.after [.create ⟨"bob", by decide⟩ ⟨"pw", by decide⟩]
          ⟨DatabaseCredentials.sampleRows, 0⟩)
        (DatabaseCredentials.firstUser ⟨"al", by decide⟩) ∧
      (DatabaseCredentials.sampleStore.get ⟨"001"⟩).runFrom ⟨DatabaseCredentials.sampleRows, 0⟩ =
        (.ok (some (DatabaseCredentials.firstUser ⟨"al", by decide⟩)),
          ⟨DatabaseCredentials.sampleRows, 0⟩) := by
  have settles := FileTree.settles ⟨"users.json"⟩
  have hclosed : FileCredentials.sampleTree.Closed :=
    FileTree.closed_empty.put (FileTree.opens_put_file _ (by decide)) (by decide) (by decide)
  have hinFile : ((FileCredentials.sampleStore .plaintext).find ⟨"al", by decide⟩).runFrom
      ⟨FileCredentials.sampleTree, 0⟩ =
      (.ok (some (.named ⟨"al", by decide⟩ "pw")), ⟨FileCredentials.sampleTree, 0⟩) := by
    decide +kernel
  have hroom : UserRows.HasRoom 1 DatabaseCredentials.sampleRows :=
    ⟨by decide, by decide, by decide, by decide⟩
  have hinRows : (DatabaseCredentials.sampleStore.find ⟨"al", by decide⟩).runFrom
      ⟨DatabaseCredentials.sampleRows, 0⟩ =
      (.ok (some (DatabaseCredentials.firstUser ⟨"al", by decide⟩)),
        ⟨DatabaseCredentials.sampleRows, 0⟩) := by
    decide
  obtain ⟨-, hfile, keepsIds, hspelled⟩ := users_known_by_ids .plaintext
    ⟨⟨"users.json"⟩, .plaintext⟩ FileTree.disk UserRows.keeps sampleSalts
  refine ⟨settles, hclosed, ?_, UserRows.keeps, hroom, keepsIds.found _ (by exact hroom) hinRows,
    ?_⟩
  · exact (hfile.2 _ _ settles).found _ hclosed hinFile
  · exact ((hspelled ⟨"001"⟩ 1 _ hroom).1 (DatabaseCredentials.firstUser ⟨"al", by decide⟩)).2
      ⟨⟨1, "al", "pw", 0⟩, ⟨"al", by decide⟩, by decide, rfl, .plain 2 1, rfl⟩

namespace DatabaseCredentials

/-- The first user of a database is loaded by its id and, with a plus sign in front, by another. -/
theorem loads_other_spelling :
    let al := firstUser ⟨"al", by decide⟩
    (sampleStore.get ⟨"1"⟩).runFrom ⟨sampleRows, 0⟩ = (.ok (some al), ⟨sampleRows, 0⟩) ∧
      (sampleStore.get ⟨"+1"⟩).runFrom ⟨sampleRows, 0⟩ = (.ok (some al), ⟨sampleRows, 0⟩) ∧
      ¬ sampleStore.LoadsOwnIds := by
  intro al
  have hother : (sampleStore.get ⟨"+1"⟩).runFrom ⟨sampleRows, 0⟩ =
      (.ok (some al), ⟨sampleRows, 0⟩) := by decide
  refine ⟨by decide, hother, fun hown => ?_⟩
  have hid := hown hother
  simp [al, firstUser] at hid

end DatabaseCredentials

end Gatehouse
