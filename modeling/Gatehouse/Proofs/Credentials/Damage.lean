import Gatehouse.Proofs.Credentials.Interchange

set_option autoImplicit false

/-!
# Accounts in damaged files

While a file holds no user table, every call about a user is refused and the file is left alone. The
store has nothing in memory: once there is another content it is as good as new, but for the salts
that have been drawn.
-/

namespace Gatehouse

/-- A call about a username, as against one about an id that is none. -/
def CredentialCall.IsNamed : CredentialCall UserId → Prop
  | .get id => (Username.ofText? id.text).isSome = true
  | .find _ | .isTaken _ | .create _ _ | .verify _ _ => True

def CredentialStore.after {σ : Type} (store : CredentialStore σ) :
    List (CredentialCall UserId) → σ → σ
  | [], state => state
  | call :: calls, state => store.after calls ((store.serve call).runFrom state).2

namespace Salted

variable {ε σ α β : Type} {count : Nat}

/-- The state after so many more salts. -/
def skip (count : Nat) (state : Salted σ) : Salted σ :=
  { state with drawn := count + state.drawn }

/-- The first attempt does after so many salts what the other one does at once. -/
def Ahead (count : Nat) (attempt other : Attempt ε (Salted σ) α) : Prop :=
  ∀ state, attempt.runFrom (state.skip count) =
    ((other.runFrom state).1, (other.runFrom state).2.skip count)

namespace Ahead

theorem pure (value : α) :
    Ahead count (Pure.pure value : Attempt ε (Salted σ) α) (Pure.pure value) :=
  fun _ => rfl

theorem throw (error : ε) : Ahead count
    (MonadExcept.throw error : Attempt ε (Salted σ) α) (MonadExcept.throw error) :=
  fun _ => rfl

theorem onContents (attempt : Attempt ε σ α) :
    Ahead count (Salted.onContents attempt) (Salted.onContents attempt) :=
  fun _ => rfl

theorem protect (policy : PasswordPolicy) (salts : Nat → Salt) (password : Password) :
    Ahead count (Salted.protect policy salts password : Attempt ε (Salted σ) String)
      (Salted.protect policy (fun n => salts (count + n)) password) :=
  fun _ => rfl

theorem bind {attempt other : Attempt ε (Salted σ) α} {next following : α → Attempt ε (Salted σ) β}
    (h : Ahead count attempt other) (hnext : ∀ value, Ahead count (next value) (following value)) :
    Ahead count (attempt >>= next) (other >>= following) := by
  intro state
  rw [Attempt.runFrom_bind, Attempt.runFrom_bind, h state]
  rcases other.runFrom state with ⟨error | value, mid⟩
  · rfl
  · exact hnext value mid

theorem map (f : α → β) {attempt other : Attempt ε (Salted σ) α} (h : Ahead count attempt other) :
    Ahead count (f <$> attempt) (f <$> other) := by
  rw [map_eq_pure_bind, map_eq_pure_bind]
  exact h.bind fun value => .pure (f value)

end Ahead

end Salted

namespace FileCredentials

variable {δ : Type} {config : FileCredentials} {disk : Disk δ} {salts : Nat → Salt} {start : δ}
  {count drawn : Nat}

open Salted (Ahead)

/-- A store over a file which holds no user table, until there is something else on the disk and
from then on. -/
structure SurvivesDamage (config : FileCredentials) (disk : Disk δ) (salts : Nat → Salt)
    (start : δ) : Prop where
  refused (calls : List (CredentialCall UserId)) (drawn : Nat) :
    (∀ call ∈ calls, call.IsNamed) →
    (config.store disk salts).answers calls ⟨start, drawn⟩ =
      calls.map fun _ => .error (.unavailable (FileError.malformed config.path).message)
  /-- A registration draws a salt all the same. -/
  untouched (calls : List (CredentialCall UserId)) (drawn : Nat) :
    (config.store disk salts).after calls ⟨start, drawn⟩ =
      ⟨start, drawn + CredentialCall.creations calls⟩
  /-- What was called before makes no difference, but for the salts. -/
  repaired (calls later : List (CredentialCall UserId)) (drawn : Nat) (other : δ) :
    let state := (config.store disk salts).after calls ⟨start, drawn⟩
    let remaining (n : Nat) := salts (state.drawn + n)
    (config.store disk salts).answers later { state with contents := other } =
        (config.store disk remaining).answers later ⟨other, 0⟩ ∧
      ((config.store disk salts).after later { state with contents := other }).contents =
        ((config.store disk remaining).after later ⟨other, 0⟩).contents
  readable {other : δ} {bytes : List UInt8} {users : UserTable} (drawn : Nat) :
    disk.contentAt? config.path other = some bytes → UserTable.ofBytes? bytes = some users →
    (config.readUsers disk).runFrom ⟨other, drawn⟩ = (.ok users, ⟨other, drawn⟩)
  removed {other : δ} (drawn : Nat) :
    ((disk.read config.path).runFrom other).1 = .error .notFound →
    (config.readUsers disk).runFrom ⟨other, drawn⟩ = (.ok .empty, ⟨other, drawn⟩)

theorem ahead_readUsers : Ahead count (config.readUsers disk) (config.readUsers disk) :=
  .onContents _

theorem ahead_find (name : Username) :
    Ahead count (config.find disk name) (config.find disk name) :=
  ahead_readUsers.bind fun _ => .pure _

theorem ahead_addUser (name : Username) (stored : String) :
    Ahead count (config.addUser disk name stored) (config.addUser disk name stored) := by
  refine ahead_readUsers.bind fun users => ?_
  split
  · exact .throw _
  · exact .bind (.onContents _) fun _ => .pure _

theorem ahead_verify (name : Username) (password : Password) :
    Ahead count (config.verify disk name password) (config.verify disk name password) := by
  refine (ahead_find name).bind fun user => ?_
  cases user with
  | none => exact .pure _
  | some user =>
    simp only [PasswordPolicy.answer]
    split
    · exact .pure _
    · exact .throw _

theorem ahead_serve (call : CredentialCall UserId) :
    Ahead count ((config.store disk salts).serve call)
      ((config.store disk fun n => salts (count + n)).serve call) := by
  cases call with
  | find name => exact (ahead_find name).map _
  | get id =>
    refine .map _ ?_
    simp only [store, getById]
    split
    · exact ahead_find _
    · exact .pure _
  | isTaken name => exact .map _ (ahead_readUsers.bind fun _ => .pure _)
  | create name password =>
    exact .map _ (.bind (.protect config.policy salts password) fun stored =>
      ahead_addUser name stored)
  | verify name password => exact (ahead_verify name password).map _

theorem answers_skip (config : FileCredentials) (disk : Disk δ) (salts : Nat → Salt) (count : Nat)
    (calls : List (CredentialCall UserId)) (state : Salted δ) :
    (config.store disk salts).answers calls (state.skip count) =
        (config.store disk fun n => salts (count + n)).answers calls state ∧
      (config.store disk salts).after calls (state.skip count) =
        ((config.store disk fun n => salts (count + n)).after calls state).skip count := by
  induction calls generalizing state with
  | nil => simp only [CredentialStore.answers, CredentialStore.after, and_self]
  | cons call calls ih =>
    simp only [CredentialStore.answers, CredentialStore.after]
    rw [ahead_serve call state]
    obtain ⟨hanswers, hafter⟩ :=
      ih (((config.store disk fun n => salts (count + n)).serve call).runFrom state).2
    exact ⟨by rw [hanswers], hafter⟩

section Reading

variable {bytes : List UInt8} (hleaves : ((disk.read config.path).runFrom start).2 = start)

include hleaves

theorem readUsers_of_readable {users : UserTable}
    (hcontent : disk.contentAt? config.path start = some bytes)
    (husers : UserTable.ofBytes? bytes = some users) :
    (config.readUsers disk).runFrom ⟨start, drawn⟩ = (.ok users, ⟨start, drawn⟩) := by
  rw [UserTable.ofBytes?] at husers
  rw [runFrom_readUsers hleaves, Disk.contentAt?_eq_some.1 hcontent, JsonFile.valueOf, husers]
  rfl

theorem readUsers_of_damaged (hcontent : disk.contentAt? config.path start = some bytes)
    (hdamaged : UserTable.ofBytes? bytes = none) :
    (config.readUsers disk).runFrom ⟨start, drawn⟩ =
      (.error (.unavailable (FileError.malformed config.path).message), ⟨start, drawn⟩) := by
  rw [UserTable.ofBytes?] at hdamaged
  rw [runFrom_readUsers hleaves, Disk.contentAt?_eq_some.1 hcontent, JsonFile.valueOf, hdamaged]
  rfl

theorem readUsers_of_removed
    (hmissing : ((disk.read config.path).runFrom start).1 = .error .notFound) :
    (config.readUsers disk).runFrom ⟨start, drawn⟩ = (.ok .empty, ⟨start, drawn⟩) := by
  rw [runFrom_readUsers hleaves, hmissing]
  rfl

end Reading

section Unavailable

variable {error : CredentialError} (hread : ∀ drawn,
  (config.readUsers disk).runFrom ⟨start, drawn⟩ = (.error error, ⟨start, drawn⟩))

include hread

theorem find_refused (name : Username) (drawn : Nat) :
    (config.find disk name).runFrom ⟨start, drawn⟩ = (.error error, ⟨start, drawn⟩) := by
  rw [find, Attempt.runFrom_bind, hread]

theorem serve_refused (salts : Nat → Salt) (call : CredentialCall UserId) (drawn : Nat) :
    ∃ answer, ((config.store disk salts).serve call).runFrom ⟨start, drawn⟩ =
        (answer, ⟨start, drawn + CredentialCall.creations [call]⟩) ∧
      (call.IsNamed → answer = .error error) := by
  cases call with
  | find name =>
    exact ⟨_, Attempt.runFrom_map _ (find_refused hread name drawn), fun _ => rfl⟩
  | get id =>
    simp only [CredentialStore.serve, store, getById, CredentialCall.IsNamed]
    cases Username.ofText? id.text with
    | some name => exact ⟨_, Attempt.runFrom_map _ (find_refused hread name drawn), fun _ => rfl⟩
    | none => exact ⟨_, rfl, fun h => by cases h⟩
  | isTaken name =>
    have hrun : (config.isTaken disk name).runFrom ⟨start, drawn⟩ =
        (.error error, ⟨start, drawn⟩) := by
      rw [isTaken, Attempt.runFrom_bind, hread]
    exact ⟨_, Attempt.runFrom_map _ hrun, fun _ => rfl⟩
  | create name password =>
    have hrun : (config.create disk salts name password).runFrom ⟨start, drawn⟩ =
        (.error error, ⟨start, drawn + 1⟩) := by
      rw [create, Attempt.runFrom_bind, Salted.protect, Attempt.runFrom_ofFunction]
      dsimp only
      rw [addUser, Attempt.runFrom_bind, hread]
    exact ⟨_, Attempt.runFrom_map _ hrun, fun _ => rfl⟩
  | verify name password =>
    have hrun : (config.verify disk name password).runFrom ⟨start, drawn⟩ =
        (.error error, ⟨start, drawn⟩) := by
      rw [verify, Attempt.runFrom_bind, find_refused hread]
    exact ⟨_, Attempt.runFrom_map _ hrun, fun _ => rfl⟩

theorem after_refused (calls : List (CredentialCall UserId)) (drawn : Nat) :
    (config.store disk salts).after calls ⟨start, drawn⟩ =
      ⟨start, drawn + CredentialCall.creations calls⟩ := by
  induction calls generalizing drawn with
  | nil => rfl
  | cons call calls ih =>
    obtain ⟨answer, hrun, -⟩ := serve_refused hread salts call drawn
    rw [CredentialStore.after, hrun, ih]
    have hdrawn : drawn + CredentialCall.creations [call] + CredentialCall.creations calls =
        drawn + CredentialCall.creations (call :: calls) := by
      cases call <;> simp only [CredentialCall.creations] <;> omega
    rw [hdrawn]

theorem answers_refused (calls : List (CredentialCall UserId)) (drawn : Nat)
    (hnamed : ∀ call ∈ calls, call.IsNamed) :
    (config.store disk salts).answers calls ⟨start, drawn⟩ = calls.map fun _ => .error error := by
  induction calls generalizing drawn with
  | nil => rfl
  | cons call calls ih =>
    obtain ⟨answer, hrun, hanswer⟩ := serve_refused hread salts call drawn
    rw [List.forall_mem_cons] at hnamed
    rw [CredentialStore.answers, hrun, ih _ hnamed.2, hanswer hnamed.1, List.map_cons]

end Unavailable

theorem survivesDamage (salts : Nat → Salt)
    (hleaves : ∀ state, ((disk.read config.path).runFrom state).2 = state)
    {bytes : List UInt8} (hcontent : disk.contentAt? config.path start = some bytes)
    (hdamaged : UserTable.ofBytes? bytes = none) :
    config.SurvivesDamage disk salts start := by
  have hread (drawn : Nat) : (config.readUsers disk).runFrom ⟨start, drawn⟩ = (.error
      (.unavailable (FileError.malformed config.path).message), ⟨start, drawn⟩) :=
    readUsers_of_damaged (hleaves start) hcontent hdamaged
  constructor
  case refused => exact fun calls drawn hnamed => answers_refused hread calls drawn hnamed
  case untouched => exact fun calls drawn => after_refused hread calls drawn
  case repaired =>
    intro calls later drawn other state remaining
    have hstate : { state with contents := other } = Salted.skip state.drawn ⟨other, 0⟩ := rfl
    obtain ⟨hanswers, hafter⟩ := answers_skip config disk salts state.drawn later ⟨other, 0⟩
    rw [hstate, hanswers, hafter]
    exact ⟨rfl, rfl⟩
  case readable =>
    exact fun drawn hcontent husers => readUsers_of_readable (hleaves _) hcontent husers
  case removed => exact fun drawn hmissing => readUsers_of_removed (hleaves _) hmissing

end FileCredentials

end Gatehouse
