import Gatehouse.Credentials.Memory
import Gatehouse.Proofs.Site.Accounts

set_option autoImplicit false

/-!
# Accounts in memory are there to stay

No call removes an account, and whoever has been found once can be loaded ever after.
-/

namespace Gatehouse.MemoryCredentials

variable {policy : PasswordPolicy} {salts : Nat → Salt} {state after : Salted UserTable}

def Has (name : Username) (state : Salted UserTable) : Prop :=
  state.contents.contains name.text = true

theorem runFrom_find (name : Username) (state : Salted UserTable) :
    (find name).runFrom state =
      (.ok ((state.contents.get? name.text).map (User.named name)), state) := rfl

theorem runFrom_create (name : Username) (password : Password) :
    (create policy salts name password).runFrom state =
      let stored := policy.protect (salts state.drawn) password
      if state.contents.contains name.text then
        (.error .userAlreadyExists, { state with drawn := state.drawn + 1 })
      else
        (.ok (User.named name stored),
          ⟨state.contents.insert name.text stored, state.drawn + 1⟩) := by
  rw [create, Attempt.runFrom_bind]
  simp only [Salted.protect, Attempt.runFrom_ofFunction, Attempt.runFrom_bind, Attempt.runFrom_get]
  by_cases htaken : state.contents.contains name.text = true <;> simp only [htaken] <;> rfl

theorem preserves_create (name other : Username) (password : Password) :
    (create policy salts other password).Preserves (Has name) := by
  intro state h
  rw [runFrom_create]
  by_cases htaken : state.contents.contains other.text = true
  · rw [if_pos htaken]
    exact h
  · rw [if_neg htaken, Has, UserTable.contains, UserTable.get?_insert]
    split
    · rfl
    · exact h

theorem preserves_verify (name other : Username) (password : Password) :
    (verify policy other password).Preserves (Has name) := by
  refine .bind (fun _ h => h) fun found => ?_
  cases found.contents.get? other.text with
  | none => exact .pure _
  | some stored =>
    simp only [PasswordPolicy.answer]
    cases policy.verify stored password with
    | ok matched => exact .pure _
    | error error => exact .throw _

theorem preserves_getById (name : Username) (id : UserId) :
    (getById id).Preserves (Has name) := by
  rw [getById]
  cases Username.ofText? id.text with
  | none => exact .pure _
  | some found => exact fun _ h => h

theorem preserves_has (policy : PasswordPolicy) (salts : Nat → Salt) (name : Username) :
    (store policy salts).Preserves (Has name) where
  find _ := fun _ h => h
  get id := preserves_getById name id
  isTaken _ := fun _ h => h
  create other password := preserves_create name other password
  verify other password := preserves_verify name other password

theorem find_ok {name : Username} {user : User}
    (h : ((store policy salts).find name).runFrom state = (.ok (some user), after)) :
    user.id = .ofUsername name ∧ Has name after := by
  rw [store, runFrom_find] at h
  injection h with hfound hstate
  subst hstate
  injection hfound with hfound
  obtain ⟨stored, hget, rfl⟩ := Option.map_eq_some_iff.1 hfound
  exact ⟨rfl, by rw [Has, UserTable.contains, hget, Option.isSome_some]⟩

theorem loadProfile_of_has (policy : PasswordPolicy) (salts : Nat → Salt) {name : Username}
    (h : Has name state) :
    ∃ user, ((store policy salts).loadProfile ⟨.ofUsername name⟩).runFrom state =
      (.ok user, state) := by
  obtain ⟨stored, hget⟩ := Option.isSome_iff_exists.1 h
  have hname : Username.ofText? (UserId.ofUsername name).text = some name := by
    rw [Username.ofText?, UserId.ofUsername, Username.ofText_text]
    rfl
  have hfind : (getById (.ofUsername name)).runFrom state =
      (.ok (some (.named name stored)), state) := by
    simp only [getById, hname, runFrom_find, hget, Option.map_some]
  refine ⟨.named name stored, ?_⟩
  simp only [CredentialStore.loadProfile, store, Attempt.runFrom_bind, Attempt.runFrom_mapError,
    hfind, Except.mapError, Attempt.runFrom_pure]

def Known (state : Salted UserTable) (id : UserId) : Prop :=
  ∃ name, id = .ofUsername name ∧ Has name state

end Gatehouse.MemoryCredentials
