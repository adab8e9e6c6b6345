import Gatehouse.Proofs.Credentials.Race
import Gatehouse.Proofs.Disk.Interruption

set_option autoImplicit false

/-!
# Accounts after a crash

The process that registers users may stop at any time, also while it replaces the file. Whoever
reads the file later finds the users from before or after the registration that was under way, and
everyone whose registration has been confirmed.
-/

namespace Gatehouse.FileCredentials

open Attempt FileTree Registering

def found (config : FileCredentials) (tree : FileTree) : Except CredentialError UserTable :=
  ((config.readUsers FileTree.disk).runFrom ⟨tree, 0⟩).1

/-- A process answers a call while it runs; at any time another one may take its place, with other
fates ahead. The salts are counted over all of them. -/
inductive Next (config : FileCredentials) (salts : Nat → Salt) (state : Salted Interruptible) :
    Salted Interruptible → Prop
  | asked (running : state.contents.stopped = false) (question : Question) :
      Next config salts state (question.leaves (config.store Interruptible.disk salts) state)
  | created (running : state.contents.stopped = false) (name : Username) (password : Password) :
      Next config salts state
        (((config.store Interruptible.disk salts).create name password).runFrom state).2
  | reopened (fates : List Fate) :
      Next config salts state ⟨⟨state.contents.tree, fates, false⟩, state.drawn⟩

abbrev Lives (config : FileCredentials) (salts : Nat → Salt) :
    Salted Interruptible → Salted Interruptible → Prop :=
  Relation.ReflTransGen (config.Next salts)

/-- What comes of a store over a tree. -/
def Reaches (config : FileCredentials) (salts : Nat → Salt) (tree : FileTree)
    (state : Salted Interruptible) : Prop :=
  ∃ fates, config.Lives salts ⟨⟨tree, fates, false⟩, 0⟩ state

/-- The users in a file through any calls and crashes, and any changes that fail. -/
structure SurvivesCrashes (config : FileCredentials) (salts : Nat → Salt) (tree : FileTree) :
    Prop where
  finds {state : Salted Interruptible} (name : Username) : config.Reaches salts tree state →
    ((config.store Interruptible.disk salts).find name).runFrom state =
      ((config.found state.contents.tree).map
        fun users => (users.get? name.text).map (User.named name), state)
  asked {state : Salted Interruptible} (question : Question) : config.Reaches salts tree state →
    question.leaves (config.store Interruptible.disk salts) state = state
  replaced {state after : Salted Interruptible} {users : UserTable} {name : Username}
      {password : Password} {outcome : Except CredentialError User} :
    config.Reaches salts tree state → state.contents.stopped = false →
    config.found state.contents.tree = .ok users → users.contains name.text = false →
    ((config.store Interruptible.disk salts).create name password).runFrom state =
      (outcome, after) →
    let more := users.insert name.text (config.policy.protect (salts state.drawn) password)
    Interruptible.Replaces config.path (JsonFile.content more.toJson) state.contents.tree
        outcome.isOk after.contents ∧
      (config.found after.contents.tree = .ok users ∨ config.found after.contents.tree = .ok more)
  /-- Where the name is taken, or the file cannot be read, the file is left alone. -/
  refused {state after : Salted Interruptible} {name : Username} {password : Password}
      {outcome : Except CredentialError User} : config.Reaches salts tree state →
    (∀ users, config.found state.contents.tree = .ok users → users.contains name.text = true) →
    ((config.store Interruptible.disk salts).create name password).runFrom state =
      (outcome, after) → outcome.isOk = false ∧ after.contents = state.contents
  kept {state later : Salted Interruptible} {users : UserTable} :
    config.Reaches salts tree state → config.Lives salts state later →
    config.found state.contents.tree = .ok users →
    ∃ more, config.found later.contents.tree = .ok more ∧ users.Extends more
  acknowledged {state after later : Salted Interruptible} {name : Username} {password : Password}
      {user : User} : config.Reaches salts tree state → state.contents.stopped = false →
    ((config.store Interruptible.disk salts).create name password).runFrom state =
      (.ok user, after) →
    config.Lives salts after later →
    ((config.store Interruptible.disk salts).find name).runFrom later = (.ok (some user), later)

variable {config : FileCredentials} {salts : Nat → Salt} {tree : FileTree}
  {state after later : Salted Interruptible} {users : UserTable} {name : Username}
  {password : Password}

theorem found_eq (config : FileCredentials) (tree : FileTree) :
    config.found tree =
      usersOf (JsonFile.valueOf config.path UserTable.ofJson? (tree.readFile config.path)) := by
  rw [found, runFrom_readUsers rfl]
  rfl

theorem runFrom_readUsers_interruptible (config : FileCredentials) (state : Salted Interruptible) :
    (config.readUsers Interruptible.disk).runFrom state =
      (config.found state.contents.tree, state) := by
  rw [runFrom_readUsers rfl, found_eq]
  rfl

theorem found_congr {other : FileTree}
    (h : other.readFile config.path = tree.readFile config.path) :
    config.found other = config.found tree := by
  rw [found_eq, found_eq, h]

theorem found_of_content (h : tree.readFile config.path = .ok (JsonFile.content users.toJson)) :
    config.found tree = .ok users := by
  have husers : (Json.parse? (JsonFile.content users.toJson)).bind UserTable.ofJson? =
      some users := UserTable.ofBytes?_content users
  rw [found_eq, h, JsonFile.valueOf, husers]
  rfl

theorem runFrom_find (config : FileCredentials) (name : Username) (state : Salted Interruptible) :
    (config.find Interruptible.disk name).runFrom state =
      ((config.found state.contents.tree).map
        fun users => (users.get? name.text).map (User.named name), state) := by
  rw [find, runFrom_bind, runFrom_readUsers_interruptible]
  cases config.found state.contents.tree <;> rfl

theorem question_leaves (config : FileCredentials) (salts : Nat → Salt)
    (state : Salted Interruptible) (question : Question) :
    question.leaves (config.store Interruptible.disk salts) state = state := by
  rw [store_eq]
  apply question.leaves_eq
  rw [← readUsers_eq, runFrom_readUsers_interruptible]

theorem runFrom_create_of_new (hfound : config.found state.contents.tree = .ok users)
    (hnew : users.contains name.text = false) (password : Password) :
    (config.create Interruptible.disk salts name password).runFrom state =
      let stored := config.policy.protect (salts state.drawn) password
      let wrote := (JsonFile.write Interruptible.disk config.path
        (users.insert name.text stored).toJson).runFrom state.contents
      ((wrote.1.mapError ofFileError).map fun _ => .named name stored,
        ⟨wrote.2, state.drawn + 1⟩) := by
  rw [create, runFrom_bind, Salted.protect, runFrom_ofFunction]
  dsimp only
  rw [addUser, runFrom_bind, runFrom_readUsers_interruptible, hfound]
  dsimp only
  rw [hnew, if_neg Bool.false_ne_true, runFrom_bind, writeUsers, Salted.onContents, runFrom_onPart,
    runFrom_mapError]
  rcases Attempt.runFrom _ state.contents with ⟨outcome, left⟩
  cases outcome <;> rfl

theorem create_refused
    (h : ∀ users, config.found state.contents.tree = .ok users → users.contains name.text = true)
    {outcome : Except CredentialError User}
    (hrun : (config.create Interruptible.disk salts name password).runFrom state =
      (outcome, after)) : outcome.isOk = false ∧ after.contents = state.contents := by
  rw [create, runFrom_bind, Salted.protect, runFrom_ofFunction] at hrun
  dsimp only at hrun
  rw [addUser, runFrom_bind, runFrom_readUsers_interruptible] at hrun
  dsimp only at hrun
  cases hfound : config.found state.contents.tree with
  | error error =>
    rw [hfound] at hrun
    cases hrun
    exact ⟨rfl, rfl⟩
  | ok users =>
    rw [hfound] at hrun
    dsimp only at hrun
    rw [if_pos (h users hfound)] at hrun
    cases hrun
    exact ⟨rfl, rfl⟩

theorem eq_created (hfound : config.found state.contents.tree = .ok users)
    (hnew : users.contains name.text = false) {user : User}
    (hrun : (config.create Interruptible.disk salts name password).runFrom state =
      (.ok user, after)) :
    user = .named name (config.policy.protect (salts state.drawn) password) := by
  rw [runFrom_create_of_new hfound hnew] at hrun
  have hcreated : ∀ (written : Except FileError Unit) (created : User),
      (written.mapError ofFileError).map (fun _ => created) = .ok user → user = created := by
    rintro (error | _) created h
    · cases h
    · exact (Except.ok.inj h).symm
  dsimp only at hrun
  exact hcreated _ _ (Prod.mk.inj hrun).1

theorem create_of_new (h : Undisturbed config.path state.contents.tree)
    (hfound : config.found state.contents.tree = .ok users)
    (hnew : users.contains name.text = false) {outcome : Except CredentialError User}
    (hrun : (config.create Interruptible.disk salts name password).runFrom state =
      (outcome, after)) :
    Undisturbed config.path after.contents.tree ∧
      Interruptible.Replaces config.path
        (JsonFile.content
          (users.insert name.text (config.policy.protect (salts state.drawn) password)).toJson)
        state.contents.tree outcome.isOk after.contents := by
  rw [runFrom_create_of_new hfound hnew] at hrun
  rcases hwrite : (JsonFile.write Interruptible.disk config.path
    (users.insert name.text (config.policy.protect (salts state.drawn) password)).toJson).runFrom
      state.contents with ⟨written, left⟩
  have hreplaces := Interruptible.replaces_write h hwrite
  dsimp only at hrun
  rw [hwrite] at hrun
  cases hrun
  cases written <;> exact hreplaces

theorem found_of_replaces {before : FileTree} {more : UserTable} {succeeds : Bool}
    {disk : Interruptible} (hfound : config.found before = .ok users)
    (h : Interruptible.Replaces config.path (JsonFile.content more.toJson) before succeeds disk) :
    config.found disk.tree = .ok users ∨ config.found disk.tree = .ok more := by
  rcases h.oldOrNew with hold | hnew
  · exact .inl ((found_congr hold).trans hfound)
  · exact .inr (found_of_content hnew)

/-- Users are found again, perhaps with others. -/
def FoundAgain (before after : Except CredentialError UserTable) : Prop :=
  ∀ users, before = .ok users → ∃ more, after = .ok more ∧ users.Extends more

theorem FoundAgain.refl (found : Except CredentialError UserTable) : FoundAgain found found :=
  fun users h => ⟨users, h, fun _ _ => id⟩

theorem FoundAgain.trans {first second third : Except CredentialError UserTable}
    (h : FoundAgain first second) (h' : FoundAgain second third) : FoundAgain first third := by
  intro users husers
  obtain ⟨more, hmore, hextends⟩ := h users husers
  obtain ⟨most, hmost, hextends'⟩ := h' more hmore
  exact ⟨most, hmost, fun name stored hget => hextends' name stored (hextends name stored hget)⟩

theorem taken_or_new (found : Except CredentialError UserTable) (name : Username) :
    (∀ users, found = .ok users → users.contains name.text = true) ∨
      ∃ users, found = .ok users ∧ users.contains name.text = false := by
  cases found with
  | error error => exact .inl nofun
  | ok users =>
    cases hcontains : users.contains name.text with
    | false => exact .inr ⟨users, rfl, hcontains⟩
    | true =>
      left
      rintro _ ⟨⟩
      exact hcontains

theorem create_kept (h : Undisturbed config.path state.contents.tree) (name : Username)
    (password : Password) :
    let after := ((config.create Interruptible.disk salts name password).runFrom state).2
    Undisturbed config.path after.contents.tree ∧
      FoundAgain (config.found state.contents.tree) (config.found after.contents.tree) := by
  rcases hrun : (config.create Interruptible.disk salts name password).runFrom state
    with ⟨outcome, after⟩
  dsimp only
  rcases taken_or_new (config.found state.contents.tree) name with
    htaken | ⟨users, hfound, hnew⟩
  · rw [(create_refused htaken hrun).2]
    exact ⟨h, .refl _⟩
  · obtain ⟨hundisturbed, hreplaces⟩ := create_of_new h hfound hnew hrun
    refine ⟨hundisturbed, fun held hheld => ?_⟩
    obtain rfl : users = held := Except.ok.inj (hfound.symm.trans hheld)
    rcases found_of_replaces hfound hreplaces with hold | hmore
    · exact ⟨users, hold, fun _ _ => id⟩
    · exact ⟨_, hmore, UserTable.extends_insert _ hnew⟩

theorem undisturbed_next (h : Undisturbed config.path state.contents.tree)
    (hnext : config.Next salts state after) :
    Undisturbed config.path after.contents.tree ∧
      FoundAgain (config.found state.contents.tree) (config.found after.contents.tree) := by
  cases hnext with
  | asked running question =>
    rw [question_leaves]
    exact ⟨h, .refl _⟩
  | created running name password => exact create_kept h name password
  | reopened fates => exact ⟨h, .refl _⟩

theorem undisturbed_lives (hlives : config.Lives salts state later)
    (h : Undisturbed config.path state.contents.tree) :
    Undisturbed config.path later.contents.tree ∧
      FoundAgain (config.found state.contents.tree) (config.found later.contents.tree) := by
  induction hlives with
  | refl => exact ⟨h, .refl _⟩
  | tail _ hnext ih =>
    obtain ⟨hlater, hfound⟩ := ih
    obtain ⟨hmost, hmore⟩ := undisturbed_next hlater hnext
    exact ⟨hmost, hfound.trans hmore⟩

theorem undisturbed_of_reaches (h : Undisturbed config.path tree)
    (hreaches : config.Reaches salts tree state) :
    Undisturbed config.path state.contents.tree := by
  obtain ⟨fates, hlives⟩ := hreaches
  exact (undisturbed_lives hlives h).1

theorem find_created (h : Undisturbed config.path state.contents.tree) {user : User}
    (hrun : (config.create Interruptible.disk salts name password).runFrom state =
      (.ok user, after))
    (hlives : config.Lives salts after later) :
    (config.find Interruptible.disk name).runFrom later = (.ok (some user), later) := by
  rcases taken_or_new (config.found state.contents.tree) name with
    htaken | ⟨users, hfound, hnew⟩
  · cases (create_refused htaken hrun).1
  · obtain ⟨hundisturbed, hreplaces⟩ := create_of_new h hfound hnew hrun
    have hcontent := found_of_content (hreplaces.told (hreplaces.returned rfl))
    obtain ⟨more, hmore, hextends⟩ := (undisturbed_lives hlives hundisturbed).2 _ hcontent
    have hget := hextends name.text _ (by rw [UserTable.get?_insert, if_pos rfl])
    rw [runFrom_find, hmore, eq_created hfound hnew hrun, Except.map, hget]
    rfl

theorem survivesCrashes (salts : Nat → Salt) (h : Undisturbed config.path tree) :
    config.SurvivesCrashes salts tree where
  finds name _ := runFrom_find config name _
  asked question _ := question_leaves config salts _ question
  replaced hreaches _ hfound hnew hrun := by
    obtain ⟨-, hreplaces⟩ := create_of_new (undisturbed_of_reaches h hreaches) hfound hnew hrun
    exact ⟨hreplaces, found_of_replaces hfound hreplaces⟩
  refused _ htaken hrun := create_refused htaken hrun
  kept hreaches hlives hfound :=
    (undisturbed_lives hlives (undisturbed_of_reaches h hreaches)).2 _ hfound
  acknowledged hreaches _ hrun hlives :=
    find_created (undisturbed_of_reaches h hreaches) hrun hlives

end Gatehouse.FileCredentials
