import Gatehouse.Credentials.Database
import Gatehouse.Proofs.Credentials.SharedTable
import Gatehouse.Proofs.Text.Numeral

set_option autoImplicit false

/-!
# A database as a set of rows

What the accounts in a database rely on: rows are found by their numbers and their names, each of
which is one row's own, and a new row has a number that no row had. Numbers have 64 bits, so there is
room for so many rows and no more; one that is refused takes a number as well.
-/

namespace Gatehouse

variable {β : Type}

structure UserDatabase.Keeps (database : UserDatabase β) (Holds : β → UserRow → Prop)
    (Room : Nat → β → Prop) : Prop where
  selectByName (name : String) {room : Nat} {state : β} : Room room state →
    ∃ found, (database.selectByName name).runFrom state = (.ok found, state) ∧
      ∀ row, found = some row ↔ Holds state row ∧ row.username = name
  selectById (id : Int64) {room : Nat} {state : β} : Room room state →
    ∃ found, (database.selectById id).runFrom state = (.ok found, state) ∧
      ∀ row, found = some row ↔ Holds state row ∧ row.id = id
  nameExists (name : String) {room : Nat} {state : β} : Room room state →
    ∃ found, (database.nameExists name).runFrom state = (.ok found, state) ∧
      (found = true ↔ ∃ row, Holds state row ∧ row.username = name)
  insert_taken {row : UserRow} (password : String) {room : Nat} {state : β} :
    Room (room + 1) state → Holds state row →
    ∃ after, (database.insert row.username password).runFrom state =
        (.error .uniqueViolation, after) ∧
      Room room after ∧ ∀ other, Holds after other ↔ Holds state other
  insert_new {name : String} (password : String) {room : Nat} {state : β} :
    Room (room + 1) state → (∀ row, Holds state row → row.username ≠ name) →
    ∃ id after, (database.insert name password).runFrom state =
        (.ok ⟨id, name, password, 0⟩, after) ∧
      Room room after ∧ (∀ row, Holds state row → row.id ≠ id) ∧
      ∀ row, Holds after row ↔ Holds state row ∨ row = ⟨id, name, password, 0⟩

theorem UserDatabase.Keeps.eq_of_username {database : UserDatabase β}
    {Holds : β → UserRow → Prop} {Room : Nat → β → Prop} (keeps : database.Keeps Holds Room)
    {room : Nat} {state : β} (hroom : Room room state) {row other : UserRow}
    (hrow : Holds state row) (hother : Holds state other) (h : row.username = other.username) :
    row = other := by
  obtain ⟨found, -, hfound⟩ := keeps.selectByName other.username hroom
  have hsome := (hfound row).2 ⟨hrow, h⟩
  rw [(hfound other).2 ⟨hother, rfl⟩] at hsome
  exact (Option.some.inj hsome).symm

theorem UserDatabase.Keeps.eq_of_id {database : UserDatabase β} {Holds : β → UserRow → Prop}
    {Room : Nat → β → Prop} (keeps : database.Keeps Holds Room) {room : Nat} {state : β}
    (hroom : Room room state) {row other : UserRow} (hrow : Holds state row)
    (hother : Holds state other) (h : row.id = other.id) : row = other := by
  obtain ⟨found, -, hfound⟩ := keeps.selectById other.id hroom
  have hsome := (hfound row).2 ⟨hrow, h⟩
  rw [(hfound other).2 ⟨hother, rfl⟩] at hsome
  exact (Option.some.inj hsome).symm

namespace DatabaseCredentials

theorem rowId?_ofRow (id : Int64) : rowId? (UserId.ofRow id).text = some id := by
  rw [rowId?, UserId.ofRow, Text.signed?_toString, Option.filter_some,
    if_pos (Text.fitsInt64_toInt id), Option.map_some, Int64.ofInt_toInt]

theorem ofRow_inj {id other : Int64} (h : UserId.ofRow id = UserId.ofRow other) : id = other := by
  have hread := rowId?_ofRow id
  rw [h, rowId?_ofRow] at hread
  exact (Option.some.inj hread).symm

def userOf (name : Username) (row : UserRow) : User :=
  ⟨UserId.ofRow row.id, name, row.password, some row.score⟩

theorem ofRow_eq {name : Username} {row : UserRow} (h : row.username = name.text) :
    ofRow row = .ok (userOf name row) := by
  rw [ofRow, h, Username.ofText_text]
  rfl

theorem runFrom_ask {α : Type} (statement : Attempt DatabaseError β α) (state : Salted β) :
    (ask statement).runFrom state =
      ((statement.runFrom state.contents).1.mapError ofDatabaseError,
        state.withContents (statement.runFrom state.contents).2) := by
  rw [ask, Salted.onContents, Attempt.runFrom_onPart, Attempt.runFrom_mapError]

theorem runFrom_ask_of_ok {α : Type} {statement : Attempt DatabaseError β α} {state : Salted β}
    {value : α} (h : statement.runFrom state.contents = (.ok value, state.contents)) :
    (ask statement).runFrom state = (.ok value, state) := by
  rw [runFrom_ask, h]
  rfl

variable {database : UserDatabase β} {Holds : β → UserRow → Prop} {Room : Nat → β → Prop}
  {room : Nat} {state : Salted β} {name : Username} {row : UserRow}

theorem runFrom_find_of_row (keeps : database.Keeps Holds Room) (hroom : Room room state.contents)
    (hrow : Holds state.contents row) (hname : row.username = name.text) :
    (find database name).runFrom state = (.ok (some (userOf name row)), state) := by
  obtain ⟨found, hselect, hfound⟩ := keeps.selectByName name.text hroom
  rw [(hfound row).2 ⟨hrow, hname⟩] at hselect
  rw [find, Attempt.runFrom_bind, runFrom_ask_of_ok hselect]
  dsimp only
  rw [ofRow?, ofRow_eq hname]
  rfl

theorem runFrom_find_of_none (keeps : database.Keeps Holds Room) (hroom : Room room state.contents)
    (hnone : ∀ row, Holds state.contents row → row.username ≠ name.text) :
    (find database name).runFrom state = (.ok none, state) := by
  obtain ⟨found, hselect, hfound⟩ := keeps.selectByName name.text hroom
  cases found with
  | some row =>
    obtain ⟨hrow, hname⟩ := (hfound row).1 rfl
    exact absurd hname (hnone row hrow)
  | none =>
    rw [find, Attempt.runFrom_bind, runFrom_ask_of_ok hselect]
    rfl

/-- A number that has been given out is read again from the id that is made of it. -/
theorem runFrom_getById_of_row (keeps : database.Keeps Holds Room)
    (hroom : Room room state.contents) (hrow : Holds state.contents row)
    (hname : row.username = name.text) :
    (getById database (UserId.ofRow row.id)).runFrom state =
      (.ok (some (userOf name row)), state) := by
  obtain ⟨found, hselect, hfound⟩ := keeps.selectById row.id hroom
  rw [(hfound row).2 ⟨hrow, rfl⟩] at hselect
  rw [getById, rowId?_ofRow]
  dsimp only
  rw [Attempt.runFrom_bind, runFrom_ask_of_ok hselect]
  dsimp only
  rw [ofRow?, ofRow_eq hname]
  rfl

theorem ofRow?_leaves (found : Option UserRow) (state : Salted β) :
    ((ofRow? found).runFrom state).2 = state := by
  cases found with
  | none => rfl
  | some row =>
    rw [ofRow?]
    cases ofRow row <;> rfl

theorem getById_leaves (keeps : database.Keeps Holds Room) (hroom : Room room state.contents)
    (id : UserId) : ((getById database id).runFrom state).2 = state := by
  rw [getById]
  cases rowId? id.text with
  | none => rfl
  | some number =>
    obtain ⟨found, hselect, -⟩ := keeps.selectById number hroom
    dsimp only
    rw [Attempt.runFrom_bind, runFrom_ask_of_ok hselect]
    exact ofRow?_leaves found state

theorem runFrom_verify_of_row (keeps : database.Keeps Holds Room)
    (hroom : Room room state.contents) (hrow : Holds state.contents row)
    (hname : row.username = name.text) (password : Password) :
    (verify database name password).runFrom state =
      ((PasswordPolicy.argon2.verify row.password password).mapError fun error =>
        .unexpected error.message, state) := by
  rw [verify, Attempt.runFrom_bind, runFrom_find_of_row keeps hroom hrow hname]
  exact PasswordPolicy.runFrom_answer _ _ _ _

theorem runFrom_verify_of_none (keeps : database.Keeps Holds Room)
    (hroom : Room room state.contents)
    (hnone : ∀ row, Holds state.contents row → row.username ≠ name.text) (password : Password) :
    (verify database name password).runFrom state = (.ok false, state) := by
  rw [verify, Attempt.runFrom_bind, runFrom_find_of_none keeps hroom hnone]
  rfl

theorem runFrom_create_of_taken (keeps : database.Keeps Holds Room) (salts : Nat → Salt)
    (hroom : Room (room + 1) state.contents) (hrow : Holds state.contents row)
    (hname : row.username = name.text) (password : Password) :
    ∃ after, (create database salts name password).runFrom state =
        (.error .userAlreadyExists, ⟨after, state.drawn + 1⟩) ∧
      Room room after ∧ ∀ other, Holds after other ↔ Holds state.contents other := by
  obtain ⟨after, hinsert, hafter⟩ := keeps.insert_taken
    (PasswordPolicy.argon2.protect (salts state.drawn) password) hroom hrow
  rw [hname] at hinsert
  refine ⟨after, ?_, hafter⟩
  rw [create, Attempt.runFrom_bind, Salted.protect, Attempt.runFrom_ofFunction]
  dsimp only
  rw [Attempt.runFrom_bind, runFrom_ask, hinsert]
  rfl

theorem runFrom_create_of_new (keeps : database.Keeps Holds Room) (salts : Nat → Salt)
    (hroom : Room (room + 1) state.contents)
    (hnone : ∀ row, Holds state.contents row → row.username ≠ name.text) (password : Password) :
    let stored := PasswordPolicy.argon2.protect (salts state.drawn) password
    ∃ id after, (create database salts name password).runFrom state =
        (.ok (userOf name ⟨id, name.text, stored, 0⟩), ⟨after, state.drawn + 1⟩) ∧
      Room room after ∧ (∀ row, Holds state.contents row → row.id ≠ id) ∧
      ∀ row, Holds after row ↔ Holds state.contents row ∨ row = ⟨id, name.text, stored, 0⟩ := by
  intro stored
  obtain ⟨id, after, hinsert, hafter⟩ := keeps.insert_new stored hroom hnone
  refine ⟨id, after, ?_, hafter⟩
  rw [create, Attempt.runFrom_bind, Salted.protect, Attempt.runFrom_ofFunction]
  dsimp only
  rw [Attempt.runFrom_bind, runFrom_ask, hinsert]
  dsimp only [Except.mapError]
  rw [ofRow_eq rfl]
  rfl

end DatabaseCredentials

namespace UserRows

theorem find?_eq_some_iff {κ : Type} [DecidableEq κ] (key : UserRow → κ) {rows : List UserRow}
    (hkeys : rows.Pairwise fun a b => key a ≠ key b) (wanted : κ) (row : UserRow) :
    (rows.find? fun row => key row == wanted) = some row ↔ row ∈ rows ∧ key row = wanted := by
  induction rows with
  | nil => simp
  | cons first rows ih =>
    obtain ⟨hfirst, hrest⟩ := List.pairwise_cons.1 hkeys
    rw [List.find?_cons]
    by_cases h : key first = wanted
    · rw [beq_iff_eq.2 h]
      constructor
      · intro heq
        cases heq
        exact ⟨List.mem_cons_self, h⟩
      · rintro ⟨hmem, hkey⟩
        rcases List.mem_cons.1 hmem with rfl | hmem
        · rfl
        · exact absurd (h.trans hkey.symm) (hfirst row hmem)
    · rw [beq_eq_false_iff_ne.2 h]
      dsimp only
      rw [ih hrest, List.mem_cons]
      constructor
      · exact fun ⟨hmem, hkey⟩ => ⟨.inr hmem, hkey⟩
      · rintro ⟨rfl | hmem, hkey⟩
        · exact absurd hkey h
        · exact ⟨hmem, hkey⟩

/-- Numbers and names are one row's own, and so many numbers are left. -/
structure HasRoom (room : Nat) (table : UserRows) : Prop where
  numbered : ∀ row ∈ table.rows, row.id.toInt ≤ table.lastId.toInt
  ids : table.rows.Pairwise fun a b => a.id ≠ b.id
  names : table.rows.Pairwise fun a b => a.username ≠ b.username
  left : table.lastId.toInt + room < 2 ^ 63

theorem toInt_succ {n : Int64} (h : n.toInt + 1 < 2 ^ 63) : (n + 1).toInt = n.toInt + 1 := by
  have hle := n.le_toInt
  rw [Int64.toInt_add]
  apply Int.bmod_eq_of_le
  · change _ ≤ n.toInt + 1
    omega
  · change n.toInt + 1 < _
    omega

theorem HasRoom.toInt_next {room : Nat} {table : UserRows} (h : HasRoom (room + 1) table) :
    (table.lastId + 1).toInt = table.lastId.toInt + 1 := by
  have hleft := h.left
  exact toInt_succ (by omega)

theorem HasRoom.fresh {room : Nat} {table : UserRows} (h : HasRoom (room + 1) table)
    {row : UserRow} (hrow : row ∈ table.rows) : row.id ≠ table.lastId + 1 := by
  intro heq
  have hnext := h.toInt_next
  have hrange := h.numbered row hrow
  rw [heq] at hrange
  omega

theorem byName?_eq_none {table : UserRows} {name : String}
    (h : ∀ row ∈ table.rows, row.username ≠ name) : table.byName? name = none := by
  rw [byName?, List.find?_eq_none]
  exact fun row hrow => by simpa using h row hrow

theorem HasRoom.insert_new {room : Nat} {table : UserRows} (h : HasRoom (room + 1) table)
    {name : String} (password : String) (hnew : ∀ row ∈ table.rows, row.username ≠ name) :
    HasRoom room
      ⟨table.rows ++ [⟨table.lastId + 1, name, password, 0⟩], table.lastId + 1⟩ := by
  have hleft := h.left
  have hnext := h.toInt_next
  constructor
  · intro row hrow
    rcases List.mem_append.1 hrow with hrow | hrow
    · have hrange := h.numbered row hrow
      dsimp only
      omega
    · rw [List.mem_singleton.1 hrow]
  · rw [List.pairwise_append]
    refine ⟨h.ids, List.pairwise_singleton _ _, fun row hrow other hother => ?_⟩
    rw [List.mem_singleton.1 hother]
    exact h.fresh hrow
  · rw [List.pairwise_append]
    refine ⟨h.names, List.pairwise_singleton _ _, fun row hrow other hother => ?_⟩
    rw [List.mem_singleton.1 hother]
    exact hnew row hrow
  · dsimp only
    omega

theorem keeps : database.Keeps (fun table row => row ∈ table.rows) HasRoom where
  selectByName name _ table h := ⟨table.byName? name, rfl, find?_eq_some_iff _ h.names name⟩
  selectById id _ table h := ⟨table.byId? id, rfl, find?_eq_some_iff _ h.ids id⟩
  nameExists name _ table h := by
    refine ⟨(table.byName? name).isSome, rfl, ?_⟩
    rw [Option.isSome_iff_exists]
    exact exists_congr fun row => find?_eq_some_iff _ h.names name row
  insert_taken {row} password room table h hrow := by
    refine ⟨{ table with lastId := table.lastId + 1 }, ?_, ?_, fun _ => Iff.rfl⟩
    · change table.insert row.username password = _
      rw [insert, byName?, (find?_eq_some_iff _ h.names row.username row).2 ⟨hrow, rfl⟩]
    · have hleft := h.left
      have hnext := h.toInt_next
      refine ⟨fun other hother => ?_, h.ids, h.names, ?_⟩
      · have hrange := h.numbered other hother
        dsimp only
        omega
      · dsimp only
        omega
  insert_new {name} password room table h hnew := by
    refine ⟨table.lastId + 1, _, ?_, h.insert_new password hnew, fun _ => h.fresh, ?_⟩
    · change table.insert name password = _
      rw [insert, byName?_eq_none hnew]
    · intro row
      simp

end UserRows

end Gatehouse
