import Gatehouse.Proofs.Credentials.Calls
import Gatehouse.Proofs.Credentials.Database
import Gatehouse.Proofs.Credentials.Dependable
import Gatehouse.Proofs.Disk.Reliable

set_option autoImplicit false

/-!
# Stores that stand in for each other

Callers cannot tell a table in memory from one in a file that nothing goes wrong with. A database
gives its users ids of its own; where a user is asked for by the id that each store has given it, the
answers are the same but for ids and scores.
-/

namespace Gatehouse

inductive CredentialReply where
  | found (user? : Option User)
  | flag (value : Bool)
  | created (user : User)
  deriving DecidableEq

abbrev CredentialAnswer := Except CredentialError CredentialReply

namespace CredentialStore

variable {σ τ : Type}

def serve (store : CredentialStore σ) (call : CredentialCall UserId) :
    Attempt CredentialError σ CredentialReply :=
  match call with
  | .find name => .found <$> store.find name
  | .get id => .found <$> store.get id
  | .isTaken name => .flag <$> store.isTaken name
  | .create name password => .created <$> store.create name password
  | .verify name password => .flag <$> store.verify name password

def answers (store : CredentialStore σ) : List (CredentialCall UserId) → σ → List CredentialAnswer
  | [], _ => []
  | call :: calls, state =>
    ((store.serve call).runFrom state).1 ::
      store.answers calls ((store.serve call).runFrom state).2

end CredentialStore

namespace SharedTable

section

variable {σ τ : Type} {table : SharedTable σ} {other : SharedTable τ} {Sound : σ → Prop}
  {Firm : τ → Prop} {records : σ → UserTable} {entries : τ → UserTable} {left : Salted σ}
  {right : Salted τ}

/-- Two tables have the same records, and have drawn as many salts. -/
structure Agree (Sound : σ → Prop) (Firm : τ → Prop) (records : σ → UserTable)
    (entries : τ → UserTable) (left : Salted σ) (right : Salted τ) : Prop where
  sound : Sound left.contents
  firm : Firm right.contents
  records : records left.contents = entries right.contents
  drawn : left.drawn = right.drawn

theorem serve_congr (dependable : table.Dependable Sound records)
    (reference : other.Dependable Firm entries) (hpolicy : table.policy = other.policy)
    (salts : Nat → Salt) (call : CredentialCall UserId)
    (h : Agree Sound Firm records entries left right) :
    ∃ answer after later, ((table.store salts).serve call).runFrom left = (answer, after) ∧
      ((other.store salts).serve call).runFrom right = (answer, later) ∧
      Agree Sound Firm records entries after later := by
  cases call with
  | find name =>
    have hleft := dependable.runFrom_find h.sound name
    rw [h.records] at hleft
    exact ⟨_, left, right, Attempt.runFrom_map _ hleft,
      Attempt.runFrom_map _ (reference.runFrom_find h.firm name), h⟩
  | get id =>
    have hleft := dependable.runFrom_getById h.sound id
    rw [h.records] at hleft
    exact ⟨_, left, right, Attempt.runFrom_map _ hleft,
      Attempt.runFrom_map _ (reference.runFrom_getById h.firm id), h⟩
  | isTaken name =>
    have hleft := dependable.runFrom_isTaken h.sound name
    rw [h.records] at hleft
    exact ⟨_, left, right, Attempt.runFrom_map _ hleft,
      Attempt.runFrom_map _ (reference.runFrom_isTaken h.firm name), h⟩
  | create name password =>
    have hdrawn : left.drawn + 1 = right.drawn + 1 := congrArg (· + 1) h.drawn
    by_cases htaken : (records left.contents).contains name.text = true
    · have hleft := dependable.runFrom_create_of_taken h.sound salts htaken password
      rw [h.records] at htaken
      have hright := reference.runFrom_create_of_taken h.firm salts htaken password
      exact ⟨_, _, _, Attempt.runFrom_map _ hleft, Attempt.runFrom_map _ hright,
        h.sound, h.firm, h.records, hdrawn⟩
    · obtain ⟨after, hleft, hafter, hrecords⟩ :=
        dependable.runFrom_create_of_new h.sound salts htaken password
      rw [h.records] at htaken hrecords
      rw [hpolicy, h.drawn] at hleft hrecords
      obtain ⟨later, hright, hlater, hentries⟩ :=
        reference.runFrom_create_of_new h.firm salts htaken password
      exact ⟨_, _, _, Attempt.runFrom_map _ hleft, Attempt.runFrom_map _ hright,
        hafter, hlater, hrecords.trans hentries.symm, rfl⟩
  | verify name password =>
    have hleft := dependable.runFrom_verify h.sound name password
    rw [h.records, hpolicy] at hleft
    exact ⟨_, left, right, Attempt.runFrom_map _ hleft,
      Attempt.runFrom_map _ (reference.runFrom_verify h.firm name password), h⟩

theorem answers_congr (dependable : table.Dependable Sound records)
    (reference : other.Dependable Firm entries) (hpolicy : table.policy = other.policy)
    (salts : Nat → Salt) (calls : List (CredentialCall UserId))
    (h : Agree Sound Firm records entries left right) :
    (table.store salts).answers calls left = (other.store salts).answers calls right := by
  induction calls generalizing left right with
  | nil => rfl
  | cons call calls ih =>
    obtain ⟨answer, after, later, hleft, hright, hagree⟩ :=
      serve_congr dependable reference hpolicy salts call h
    rw [CredentialStore.answers, CredentialStore.answers, hleft, hright, ih hagree]

end

end SharedTable

def User.bare (user : User) : User :=
  .named user.username user.storedPassword

namespace CredentialReply

def bare : CredentialReply → CredentialReply
  | found user? => found (user?.map User.bare)
  | flag value => flag value
  | created user => created user.bare

def user? : CredentialReply → Option User
  | found user? => user?
  | flag _ => none
  | created user => some user

end CredentialReply

/-- One call on each of two stores, and what they answered. -/
structure CredentialExchange where
  call : CredentialCall (UserId × UserId)
  left : CredentialAnswer
  right : CredentialAnswer

namespace CredentialExchange

def ids? (exchange : CredentialExchange) : Option (UserId × UserId) :=
  match exchange.call with
  | .get _ => none
  | _ => do
    let left ← exchange.left.toOption.bind CredentialReply.user?
    let right ← exchange.right.toOption.bind CredentialReply.user?
    some (left.id, right.id)

theorem ids?_of_flag (call : CredentialCall (UserId × UserId))
    (outcome : Except CredentialError Bool) (right : CredentialAnswer) :
    ids? ⟨call, outcome.map .flag, right⟩ = none := by
  cases call <;> cases outcome <;> rfl

def Alike (exchange : CredentialExchange) : Prop :=
  exchange.left.map CredentialReply.bare = exchange.right.map CredentialReply.bare

def AsksFor (known : List (UserId × UserId)) (exchange : CredentialExchange) : Prop :=
  ∀ ids, exchange.call = .get ids → ids ∈ known

end CredentialExchange

/-- All the answers are alike, except for those about ids which the stores have not given, and no two
users of the one store have one id in the other. -/
def Interchangeable (known : List (UserId × UserId)) : List CredentialExchange → Prop
  | [] => ∀ one ∈ known, ∀ other ∈ known, one.1 = other.1 ↔ one.2 = other.2
  | exchange :: exchanges =>
    (exchange.AsksFor known → exchange.Alike) ∧
      Interchangeable (exchange.ids?.toList ++ known) exchanges

namespace CredentialStore

variable {σ τ : Type}

def exchange (left : CredentialStore σ) (right : CredentialStore τ)
    (call : CredentialCall (UserId × UserId)) (states : σ × τ) : CredentialExchange × (σ × τ) :=
  let answered := (left.serve (call.mapId Prod.fst)).runFrom states.1
  let matched := (right.serve (call.mapId Prod.snd)).runFrom states.2
  (⟨call, answered.1, matched.1⟩, (answered.2, matched.2))

def exchanges (left : CredentialStore σ) (right : CredentialStore τ) :
    List (CredentialCall (UserId × UserId)) → σ × τ → List CredentialExchange
  | [], _ => []
  | call :: calls, states =>
    (left.exchange right call states).1 ::
      exchanges left right calls (left.exchange right call states).2

theorem exchange_of_runs {left : CredentialStore σ} {right : CredentialStore τ}
    {call : CredentialCall (UserId × UserId)} {state after : σ} {other later : τ}
    {answer matched : CredentialAnswer}
    (hleft : (left.serve (call.mapId Prod.fst)).runFrom state = (answer, after))
    (hright : (right.serve (call.mapId Prod.snd)).runFrom other = (matched, later)) :
    left.exchange right call (state, other) = (⟨call, answer, matched⟩, (after, later)) := by
  rw [exchange, hleft, hright]

end CredentialStore

/-- The rows tell what the table tells. -/
structure UserTable.Mirrors (users : UserTable) (Holds : UserRow → Prop) : Prop where
  named {row : UserRow} : Holds row → ∃ name : Username, row.username = name.text
  get?_eq_some {name stored : String} : users.get? name = some stored ↔
    ∃ row, Holds row ∧ row.username = name ∧ row.password = stored

namespace UserTable.Mirrors

variable {users : UserTable} {Holds : UserRow → Prop}

theorem of_none (mirrors : users.Mirrors Holds) {name : String} (h : users.get? name = none) :
    ∀ row, Holds row → row.username ≠ name := by
  intro row hrow hname
  rw [mirrors.get?_eq_some.2 ⟨row, hrow, hname, rfl⟩] at h
  cases h

theorem congr {Others : UserRow → Prop} (mirrors : users.Mirrors Holds)
    (h : ∀ row, Others row ↔ Holds row) : users.Mirrors Others := by
  obtain rfl : Others = Holds := funext fun row => propext (h row)
  exact mirrors

theorem insert {Others : UserRow → Prop} (mirrors : users.Mirrors Holds) {name : Username}
    (hnew : ∀ row, Holds row → row.username ≠ name.text) {row : UserRow}
    (hname : row.username = name.text) (h : ∀ other, Others other ↔ Holds other ∨ other = row) :
    (users.insert name.text row.password).Mirrors Others where
  named {other} hother := by
    rcases (h other).1 hother with hother | rfl
    · exact mirrors.named hother
    · exact ⟨name, hname⟩
  get?_eq_some {wanted stored} := by
    rw [get?_insert]
    constructor
    · intro hget
      split at hget
      · next heq =>
        cases hget
        exact ⟨row, (h row).2 (.inr rfl), hname.trans heq.symm, rfl⟩
      · obtain ⟨other, hother, hfound⟩ := mirrors.get?_eq_some.1 hget
        exact ⟨other, (h other).2 (.inl hother), hfound⟩
    · rintro ⟨other, hother, rfl, rfl⟩
      rcases (h other).1 hother with hother | rfl
      · rw [if_neg (hnew other hother)]
        exact mirrors.get?_eq_some.2 ⟨other, hother, rfl, rfl⟩
      · rw [if_pos hname]

end UserTable.Mirrors

def Linked (Holds : UserRow → Prop) (ids : UserId × UserId) : Prop :=
  ∃ row name, Holds row ∧ row.username = Username.text name ∧
    ids = (.ofUsername name, .ofRow row.id)

section

variable {σ β : Type} {table : SharedTable σ} {Sound : σ → Prop} {records : σ → UserTable}
  {database : UserDatabase β} {Holds : β → UserRow → Prop} {Room : Nat → β → Prop}
  {salts : Nat → Salt} {room : Nat} {left after : Salted σ} {right later : Salted β}

theorem Linked.one_to_one (keeps : database.Keeps Holds Room) {state : β} (hroom : Room room state)
    {one other : UserId × UserId} (hone : Linked (Holds state) one)
    (hother : Linked (Holds state) other) : one.1 = other.1 ↔ one.2 = other.2 := by
  obtain ⟨row, name, hrow, hname, rfl⟩ := hone
  obtain ⟨twin, second, htwin, hsecond, rfl⟩ := hother
  constructor
  · intro h
    have htext : name.text = second.text := congrArg UserId.text h
    have hrows : row = twin := by
      apply keeps.eq_of_username hroom hrow htwin
      rw [hname, htext, hsecond]
    rw [hrows]
  · intro h
    obtain rfl := keeps.eq_of_id hroom hrow htwin (DatabaseCredentials.ofRow_inj h)
    exact congrArg UserId.mk (hname.symm.trans hsecond)

structure InStep (Sound : σ → Prop) (records : σ → UserTable) (Holds : β → UserRow → Prop)
    (Room : Nat → β → Prop) (room : Nat) (left : Salted σ) (right : Salted β) : Prop where
  sound : Sound left.contents
  room : Room room right.contents
  drawn : left.drawn = right.drawn
  mirrors : (records left.contents).Mirrors (Holds right.contents)

/-- One call on a table and a database in step leaves them in step. -/
structure Matched (Sound : σ → Prop) (records : σ → UserTable) (Holds : β → UserRow → Prop)
    (Room : Nat → β → Prop) (room : Nat) (before : β) (exchange : CredentialExchange)
    (after : Salted σ × Salted β) : Prop where
  inStep : InStep Sound records Holds Room room after.1 after.2
  grows {ids : UserId × UserId} : Linked (Holds before) ids → Linked (Holds after.2.contents) ids
  gives {ids : UserId × UserId} : exchange.ids? = some ids → Linked (Holds after.2.contents) ids
  alike : (∀ ids, exchange.call = .get ids → Linked (Holds before) ids) → exchange.Alike

namespace InStep

theorem quiet (h : InStep Sound records Holds Room room left right) {exchange : CredentialExchange}
    (gives : ∀ ids, exchange.ids? = some ids → Linked (Holds right.contents) ids)
    (alike : (∀ ids, exchange.call = .get ids → Linked (Holds right.contents) ids) →
      exchange.Alike) :
    Matched Sound records Holds Room room right.contents exchange (left, right) where
  inStep := h
  grows hlinked := hlinked
  gives hids := gives _ hids
  alike := alike

theorem flag (h : InStep Sound records Holds Room room left right)
    (call : CredentialCall (UserId × UserId)) (answer : Except CredentialError Bool) :
    Matched Sound records Holds Room room right.contents
      ⟨call, answer.map .flag, answer.map .flag⟩ (left, right) := by
  refine h.quiet ?_ fun _ => rfl
  intro ids hids
  rw [CredentialExchange.ids?_of_flag] at hids
  cases hids

variable (dependable : table.Dependable Sound records) (keeps : database.Keeps Holds Room)
include dependable keeps

theorem find (h : InStep Sound records Holds Room room left right) (name : Username) :
    ∃ exchange, (table.store salts).exchange (DatabaseCredentials.store database salts)
        (.find name) (left, right) = (exchange, left, right) ∧
      Matched Sound records Holds Room room right.contents exchange (left, right) := by
  have hleft := dependable.runFrom_find h.sound name
  cases hget : (records left.contents).get? name.text with
  | none =>
    have hright := DatabaseCredentials.runFrom_find_of_none keeps h.room (h.mirrors.of_none hget)
    rw [hget] at hleft
    refine ⟨_, CredentialStore.exchange_of_runs
      (Attempt.runFrom_map _ hleft) (Attempt.runFrom_map _ hright), h.quiet ?_ fun _ => rfl⟩
    intro ids hids
    cases hids
  | some stored =>
    obtain ⟨row, hrow, hname, rfl⟩ := h.mirrors.get?_eq_some.1 hget
    have hright := DatabaseCredentials.runFrom_find_of_row keeps h.room hrow hname
    rw [hget] at hleft
    refine ⟨_, CredentialStore.exchange_of_runs
      (Attempt.runFrom_map _ hleft) (Attempt.runFrom_map _ hright), h.quiet ?_ fun _ => rfl⟩
    intro ids hids
    cases hids
    exact ⟨row, name, hrow, hname, rfl⟩

theorem get (h : InStep Sound records Holds Room room left right) (ids : UserId × UserId) :
    ∃ exchange, (table.store salts).exchange (DatabaseCredentials.store database salts)
        (.get ids) (left, right) = (exchange, left, right) ∧
      Matched Sound records Holds Room room right.contents exchange (left, right) := by
  have hleft := dependable.runFrom_getById h.sound ids.1
  have hleaves := DatabaseCredentials.getById_leaves keeps h.room ids.2
  rcases hright : (DatabaseCredentials.getById database ids.2).runFrom right with ⟨matched, later⟩
  rw [hright] at hleaves
  obtain rfl : later = right := hleaves
  refine ⟨_, CredentialStore.exchange_of_runs
      (Attempt.runFrom_map _ hleft) (Attempt.runFrom_map _ hright), h.quiet ?_ fun hlinked => ?_⟩
  · intro given hgiven
    cases hgiven
  · obtain ⟨row, name, hrow, hname, hids⟩ := hlinked ids rfl
    rw [hids, DatabaseCredentials.runFrom_getById_of_row keeps h.room hrow hname] at hright
    obtain rfl := congrArg Prod.fst hright
    have hget := h.mirrors.get?_eq_some.2 ⟨row, hrow, hname, rfl⟩
    have hofText : Username.ofText? name.text = some name := by
      rw [Username.ofText?, Username.ofText_text]
      rfl
    simp only [CredentialExchange.Alike, hids, UserId.ofUsername, hofText, Option.bind_some, hget]
    rfl

theorem isTaken (h : InStep Sound records Holds Room room left right) (name : Username) :
    ∃ exchange, (table.store salts).exchange (DatabaseCredentials.store database salts)
        (.isTaken name) (left, right) = (exchange, left, right) ∧
      Matched Sound records Holds Room room right.contents exchange (left, right) := by
  have hleft := dependable.runFrom_isTaken h.sound name
  obtain ⟨found, hexists, hfound⟩ := keeps.nameExists name.text h.room
  have hright := DatabaseCredentials.runFrom_ask_of_ok hexists
  have heq : (records left.contents).contains name.text = found := by
    rw [Bool.eq_iff_iff, hfound, UserTable.contains, Option.isSome_iff_exists]
    constructor
    · rintro ⟨stored, hget⟩
      obtain ⟨row, hrow, hname, -⟩ := h.mirrors.get?_eq_some.1 hget
      exact ⟨row, hrow, hname⟩
    · rintro ⟨row, hrow, hname⟩
      exact ⟨row.password, h.mirrors.get?_eq_some.2 ⟨row, hrow, hname, rfl⟩⟩
  rw [heq] at hleft
  exact ⟨_, CredentialStore.exchange_of_runs
    (Attempt.runFrom_map _ hleft) (Attempt.runFrom_map _ hright), h.flag _ (.ok found)⟩

theorem verify (hpolicy : table.policy = .argon2)
    (h : InStep Sound records Holds Room room left right) (name : Username) (password : Password) :
    ∃ exchange, (table.store salts).exchange (DatabaseCredentials.store database salts)
        (.verify name password) (left, right) = (exchange, left, right) ∧
      Matched Sound records Holds Room room right.contents exchange (left, right) := by
  have hleft := dependable.runFrom_verify h.sound name password
  cases hget : (records left.contents).get? name.text with
  | none =>
    have hright := DatabaseCredentials.runFrom_verify_of_none keeps h.room
      (h.mirrors.of_none hget) password
    rw [hget] at hleft
    exact ⟨_, CredentialStore.exchange_of_runs
      (Attempt.runFrom_map _ hleft) (Attempt.runFrom_map _ hright), h.flag _ _⟩
  | some stored =>
    obtain ⟨row, hrow, hname, rfl⟩ := h.mirrors.get?_eq_some.1 hget
    have hright := DatabaseCredentials.runFrom_verify_of_row keeps h.room hrow hname password
    rw [hget, hpolicy] at hleft
    exact ⟨_, CredentialStore.exchange_of_runs
      (Attempt.runFrom_map _ hleft) (Attempt.runFrom_map _ hright), h.flag _ _⟩

theorem create (hpolicy : table.policy = .argon2)
    (h : InStep Sound records Holds Room (room + 1) left right) (name : Username)
    (password : Password) :
    ∃ exchange after later, (table.store salts).exchange
        (DatabaseCredentials.store database salts) (.create name password) (left, right) =
          (exchange, after, later) ∧
      Matched Sound records Holds Room room right.contents exchange (after, later) := by
  by_cases htaken : (records left.contents).contains name.text = true
  · have hleft := dependable.runFrom_create_of_taken h.sound salts htaken password
    obtain ⟨stored, hget⟩ := Option.isSome_iff_exists.1 htaken
    obtain ⟨row, hrow, hname, rfl⟩ := h.mirrors.get?_eq_some.1 hget
    obtain ⟨contents, hright, hroom, hholds⟩ :=
      DatabaseCredentials.runFrom_create_of_taken keeps salts h.room hrow hname password
    refine ⟨_, _, _, CredentialStore.exchange_of_runs
      (Attempt.runFrom_map _ hleft) (Attempt.runFrom_map _ hright), ?_, ?_, ?_, fun _ => rfl⟩
    · exact ⟨h.sound, hroom, congrArg (· + 1) h.drawn, h.mirrors.congr hholds⟩
    · rintro ids ⟨row, name, hrow, hlinked⟩
      exact ⟨row, name, (hholds row).2 hrow, hlinked⟩
    · intro ids hids
      cases hids
  · obtain ⟨contents, hleft, hsound, hrecords⟩ :=
      dependable.runFrom_create_of_new h.sound salts htaken password
    have hnew := h.mirrors.of_none
      (UserTable.get?_of_contains_false (Bool.eq_false_iff.2 htaken))
    obtain ⟨id, rows, hright, hroom, hfresh, hholds⟩ :=
      DatabaseCredentials.runFrom_create_of_new keeps salts h.room hnew password
    rw [hpolicy, h.drawn] at hleft hrecords
    refine ⟨_, _, _, CredentialStore.exchange_of_runs
      (Attempt.runFrom_map _ hleft) (Attempt.runFrom_map _ hright), ?_, ?_, ?_, fun _ => rfl⟩
    · refine ⟨hsound, hroom, rfl, ?_⟩
      dsimp only
      rw [hrecords]
      exact h.mirrors.insert hnew rfl hholds
    · rintro ids ⟨row, name, hrow, hlinked⟩
      exact ⟨row, name, (hholds row).2 (.inl hrow), hlinked⟩
    · intro ids hids
      cases hids
      exact ⟨_, name, (hholds _).2 (.inr rfl), rfl, rfl⟩

theorem serve (hpolicy : table.policy = .argon2) (call : CredentialCall (UserId × UserId))
    (calls : List (CredentialCall (UserId × UserId)))
    (h : InStep Sound records Holds Room (CredentialCall.creations (call :: calls)) left right) :
    ∃ exchange after later, (table.store salts).exchange
        (DatabaseCredentials.store database salts) call (left, right) =
          (exchange, after, later) ∧
      Matched Sound records Holds Room (CredentialCall.creations calls) right.contents exchange
        (after, later) := by
  cases call with
  | find name => exact (h.find dependable keeps name).imp fun _ found => ⟨left, right, found⟩
  | get ids => exact (h.get dependable keeps ids).imp fun _ found => ⟨left, right, found⟩
  | isTaken name => exact (h.isTaken dependable keeps name).imp fun _ told => ⟨left, right, told⟩
  | create name password => exact h.create dependable keeps hpolicy name password
  | verify name password =>
    exact (h.verify dependable keeps hpolicy name password).imp fun _ told => ⟨left, right, told⟩

theorem interchangeable (hpolicy : table.policy = .argon2) {known : List (UserId × UserId)}
    (calls : List (CredentialCall (UserId × UserId)))
    (h : InStep Sound records Holds Room (CredentialCall.creations calls) left right)
    (hknown : ∀ ids ∈ known, Linked (Holds right.contents) ids) :
    Interchangeable known ((table.store salts).exchanges
      (DatabaseCredentials.store database salts) calls (left, right)) := by
  induction calls generalizing known left right with
  | nil =>
    intro one hone other hother
    exact (hknown one hone).one_to_one keeps h.room (hknown other hother)
  | cons call calls ih =>
    obtain ⟨exchange, after, later, hrun, matched⟩ := h.serve dependable keeps hpolicy call calls
    rw [CredentialStore.exchanges, hrun]
    refine ⟨fun hasks => matched.alike fun ids hcall => hknown ids (hasks ids hcall), ?_⟩
    apply ih matched.inStep
    intro ids hids
    rcases List.mem_append.1 hids with hids | hids
    · exact matched.gives (Option.mem_toList.1 hids)
    · exact matched.grows (hknown ids hids)

end InStep

end

/-- From the start, a store in memory and one in a missing file give the same answers to all calls,
and either can be exchanged for one in a database that holds no rows. -/
theorem credentialStores_interchangeable :
    (∀ {δ : Type} (config : FileCredentials) (disk : Disk δ) (Sound : δ → Prop)
      (salts : Nat → Salt) (file : δ), disk.Reliable config.path Sound → Sound file →
      disk.contentAt? config.path file = none →
      ∀ calls, (config.store disk salts).answers calls ⟨file, 0⟩ =
        (MemoryCredentials.store config.policy salts).answers calls ⟨.empty, 0⟩) ∧
    ∀ {β : Type} (database : UserDatabase β) (Holds : β → UserRow → Prop) (Room : Nat → β → Prop)
      (salts : Nat → Salt) (rows : β) (calls : List (CredentialCall (UserId × UserId))),
      database.Keeps Holds Room → (∀ row, ¬ Holds rows row) →
      Room (CredentialCall.creations calls) rows →
      Interchangeable [] ((MemoryCredentials.store .argon2 salts).exchanges
        (DatabaseCredentials.store database salts) calls (⟨.empty, 0⟩, ⟨rows, 0⟩)) ∧
      ∀ {δ : Type} (path : FilePath) (disk : Disk δ) (Sound : δ → Prop) (file : δ),
        disk.Reliable path Sound → Sound file → disk.contentAt? path file = none →
        Interchangeable [] ((FileCredentials.store ⟨path, .argon2⟩ disk salts).exchanges
          (DatabaseCredentials.store database salts) calls (⟨file, 0⟩, ⟨rows, 0⟩)) := by
  constructor
  · intro δ config disk Sound salts file reliable hsound hmissing calls
    have hholds := FileCredentials.holdsTable_of_none hmissing
    have hempty := FileCredentials.recordsAt_of_none hmissing
    rw [FileCredentials.store_eq, MemoryCredentials.store_eq]
    exact SharedTable.answers_congr (FileCredentials.dependable reliable)
      (MemoryCredentials.dependable config.policy) rfl salts calls
      ⟨⟨hsound, hholds⟩, trivial, hempty, rfl⟩
  · intro β database Holds Room salts rows calls keeps hnone hroom
    have hmirrors : UserTable.empty.Mirrors (Holds rows) := by
      constructor
      · exact fun hrow => absurd hrow (hnone _)
      · intro name stored
        constructor
        · intro hget
          cases hget
        · rintro ⟨row, hrow, -⟩
          exact absurd hrow (hnone row)
    have hunknown : ∀ ids ∈ [], Linked (Holds rows) ids := fun ids hids => by cases hids
    constructor
    · have memory := MemoryCredentials.dependable .argon2
      rw [MemoryCredentials.store_eq]
      exact InStep.interchangeable memory keeps rfl calls ⟨trivial, hroom, rfl, hmirrors⟩ hunknown
    · intro δ path disk Sound file reliable hsound hmissing
      have hholds := FileCredentials.holdsTable_of_none hmissing
      rw [← FileCredentials.recordsAt_of_none hmissing] at hmirrors
      rw [FileCredentials.store_eq]
      exact InStep.interchangeable (FileCredentials.dependable reliable) keeps rfl calls
        ⟨⟨hsound, hholds⟩, hroom, rfl, hmirrors⟩ hunknown

theorem credentialStores_interchangeable_at_start :
    let salts : Nat → Salt := fun _ => ⟨List.replicate 16 0, by decide⟩
    let path : FilePath := ⟨"data/users.json"⟩
    let store := FileCredentials.store ⟨path, .argon2⟩ FileTree.disk salts
    let al : Username := ⟨"al", by decide⟩
    let pw : Password := ⟨"pw", by decide⟩
    let calls : List (CredentialCall (UserId × UserId)) :=
      [.create al pw, .find al, .get (⟨"al"⟩, ⟨"1"⟩), .create al pw]
    FileTree.disk.Reliable path (FileTree.Writable path) ∧ FileTree.Writable path .empty ∧
      UserRows.database.Keeps (fun table row => row ∈ table.rows) UserRows.HasRoom ∧
      UserRows.HasRoom (CredentialCall.creations calls) {} ∧
      store.answers (calls.map (.mapId Prod.fst)) ⟨.empty, 0⟩ =
        (MemoryCredentials.store .argon2 salts).answers (calls.map (.mapId Prod.fst))
          ⟨.empty, 0⟩ ∧
      Interchangeable [] (store.exchanges (DatabaseCredentials.store UserRows.database salts) calls
        (⟨.empty, 0⟩, ⟨{}, 0⟩)) := by
  intro salts path store al pw calls
  have reliable := FileTree.reliable path
  have hsound : FileTree.Writable path .empty := FileTree.writable_below
  have hmissing : FileTree.disk.contentAt? ⟨"data/users.json"⟩ .empty = none := by decide
  have hroom : UserRows.HasRoom (CredentialCall.creations calls) {} :=
    ⟨by simp, .nil, .nil, by decide⟩
  refine ⟨reliable, hsound, UserRows.keeps, hroom, ?_, ?_⟩
  · exact credentialStores_interchangeable.1 ⟨path, .argon2⟩ FileTree.disk _ salts .empty reliable
      hsound hmissing _
  · exact (credentialStores_interchangeable.2 UserRows.database _ _ salts {} calls UserRows.keeps
      (by simp) hroom).2 path FileTree.disk _ .empty reliable hsound hmissing

end Gatehouse
