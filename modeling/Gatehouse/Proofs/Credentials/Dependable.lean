import Gatehouse.Proofs.Credentials.SharedTable

set_option autoImplicit false

/-!
# Tables without failures

What a store answers whose table can always be read and written. Every answer is one about the
records.
-/

namespace Gatehouse.SharedTable.Dependable

variable {σ : Type} {table : SharedTable σ} {Sound : σ → Prop} {records : σ → UserTable}
  {state : Salted σ}

theorem runFrom_readUsers (dependable : table.Dependable Sound records)
    (hsound : Sound state.contents) :
    table.readUsers.runFrom state = (.ok (records state.contents), state) := by
  rw [readUsers, Salted.onContents, Attempt.runFrom_onPart, Attempt.runFrom_mapError,
    dependable.read hsound]
  rfl

theorem runFrom_find (dependable : table.Dependable Sound records) (hsound : Sound state.contents)
    (name : Username) :
    (table.find name).runFrom state =
      (.ok (((records state.contents).get? name.text).map (.named name)), state) := by
  rw [find, Attempt.runFrom_bind, dependable.runFrom_readUsers hsound]
  rfl

theorem runFrom_getById (dependable : table.Dependable Sound records)
    (hsound : Sound state.contents) (id : UserId) :
    (table.getById id).runFrom state =
      (.ok ((Username.ofText? id.text).bind fun name =>
        ((records state.contents).get? name.text).map (.named name)), state) := by
  rw [getById]
  cases Username.ofText? id.text with
  | none => rfl
  | some name => exact dependable.runFrom_find hsound name

theorem runFrom_isTaken (dependable : table.Dependable Sound records)
    (hsound : Sound state.contents) (name : Username) :
    (table.isTaken name).runFrom state =
      (.ok ((records state.contents).contains name.text), state) := by
  rw [isTaken, Attempt.runFrom_bind, dependable.runFrom_readUsers hsound]
  rfl

theorem runFrom_verify (dependable : table.Dependable Sound records)
    (hsound : Sound state.contents) (name : Username) (password : Password) :
    (table.verify name password).runFrom state =
      (match (records state.contents).get? name.text with
        | some stored =>
          (table.policy.verify stored password).mapError fun error => .unexpected error.message
        | none => .ok false, state) := by
  rw [verify, Attempt.runFrom_bind, dependable.runFrom_find hsound]
  cases (records state.contents).get? name.text with
  | none => rfl
  | some stored => exact PasswordPolicy.runFrom_answer _ _ _ _

theorem runFrom_create_of_taken (dependable : table.Dependable Sound records)
    (hsound : Sound state.contents) (salts : Nat → Salt) {name : Username}
    (htaken : (records state.contents).contains name.text = true) (password : Password) :
    (table.create salts name password).runFrom state =
      (.error .userAlreadyExists, { state with drawn := state.drawn + 1 }) := by
  let drawn : Salted σ := { state with drawn := state.drawn + 1 }
  have hread : table.readUsers.runFrom drawn = (.ok (records state.contents), drawn) :=
    dependable.runFrom_readUsers hsound
  rw [create, Attempt.runFrom_bind, Salted.protect, Attempt.runFrom_ofFunction]
  dsimp only
  rw [addUser, Attempt.runFrom_bind, hread]
  dsimp only
  rw [addTo, if_pos htaken]
  rfl

theorem runFrom_create_of_new (dependable : table.Dependable Sound records)
    (hsound : Sound state.contents) (salts : Nat → Salt) {name : Username}
    (hnew : ¬ (records state.contents).contains name.text = true) (password : Password) :
    ∃ after, (table.create salts name password).runFrom state =
        (.ok (.named name (table.policy.protect (salts state.drawn) password)),
          ⟨after, state.drawn + 1⟩) ∧
      Sound after ∧ records after =
        (records state.contents).insert name.text
          (table.policy.protect (salts state.drawn) password) := by
  let drawn : Salted σ := { state with drawn := state.drawn + 1 }
  have hread : table.readUsers.runFrom drawn = (.ok (records state.contents), drawn) :=
    dependable.runFrom_readUsers hsound
  obtain ⟨after, hwrite, hafter⟩ := dependable.write ((records state.contents).insert name.text
    (table.policy.protect (salts state.drawn) password)) hsound
  refine ⟨after, ?_, hafter⟩
  rw [create, Attempt.runFrom_bind, Salted.protect, Attempt.runFrom_ofFunction]
  dsimp only
  rw [addUser, Attempt.runFrom_bind, hread]
  dsimp only
  rw [runFrom_addTo_of_new table hnew, runFrom_inStore, hwrite]
  rfl

end Gatehouse.SharedTable.Dependable
